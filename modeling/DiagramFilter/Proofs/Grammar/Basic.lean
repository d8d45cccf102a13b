import DiagramFilter.Expr.Parser
import DiagramFilter.Proofs.Typing.Judgement

/-!
# The grammar of rules

The grammar says which rows of tokens spell which expressions, without saying how to find the
expression.  `Derives n ts e rest` means that the front of the row `ts`, up to `rest`, is a phrase
of the nonterminal `n` and spells `e`.

* The binary operators stand on four levels and group to the left; the right operand of an
  operator is one level tighter than the operator itself.
* Operands joined by one connective form one group, however many there are.
* A name right before `<` opens a focused expression, so it is no variable there.
* The levels know whether a bare `>` would close the focused expression around them.  It does
  inside `name<…>`, and no longer inside parentheses or behind the `|` of a binder.

A row of tokens spells a rule (`Spells`) if all of it, up to the token at its end, is derived, and
the expression is typed as a truth value with no free variable but the one for the element
itself.
-/

namespace DiagramFilter

/-- The sorts of phrases.  Those above the operands know whether a bare `>` closes the focused
expression around them. -/
inductive Nonterminal where
  /-- One operand of a connective, or a group of them. -/
  | junction (closing : Bool) (c : Connective)
  /-- At least two operands joined by a connective. -/
  | group (closing : Bool) (c : Connective)
  /-- Operands joined by the operators of a level. -/
  | binary (closing : Bool) (level : Level)
  /-- An operand with the signs before it. -/
  | unary
  /-- An operand. -/
  | primary
  /-- A list of elements. -/
  | list
  /-- A binder in brackets. -/
  | comprehension
deriving DecidableEq

namespace Nonterminal

/-- A whole expression. -/
abbrev expression (closing : Bool) : Nonterminal :=
  junction closing .or

end Nonterminal

/-- The operands of a connective. -/
def Connective.operand (closing : Bool) : Connective → Nonterminal
  | or => .junction closing .and
  | and => .binary closing .equality

namespace Level

/-- The operands of a level, one level tighter. -/
def operand (closing : Bool) : Level → Nonterminal
  | equality => .binary closing .relation
  | relation => .binary closing .term
  | term => .binary closing .factor
  | factor => .unary

/-- The operators of a level, with the expressions that they make. -/
def operator? (closing : Bool) : Level → TokenKind → Option (Expr → Expr → Expr)
  | equality, .compare .eq => some (.compare .eq)
  | equality, .compare .ne => some (.compare .ne)
  | relation, .compare .gt => if closing then none else some (.compare .gt)
  | relation, .compare .ge => some (.compare .ge)
  | relation, .compare .le => some (.compare .le)
  | relation, .compare .lt => some (.compare .lt)
  | term, .arith .add => some (.arith .add)
  | term, .arith .sub => some (.arith .sub)
  | factor, .arith .mul => some (.arith .mul)
  | factor, .arith .div => some (.arith .div)
  | factor, .arith .mod => some (.arith .mod)
  | _, _ => none

/-- The end of a rule is no operator. -/
theorem operator?_finish (closing : Bool) (l : Level) : l.operator? closing .finish = none := by
  cases l <;> rfl

/-- The operators of the levels are comparisons and arithmetic. -/
theorem operator?_cases {closing : Bool} {l : Level} {kind : TokenKind}
    {join : Expr → Expr → Expr} (h : l.operator? closing kind = some join) :
    (∃ op, kind = .compare op ∧ join = .compare op) ∨
      ∃ op, kind = .arith op ∧ join = .arith op := by
  unfold Level.operator? at h
  split at h
  all_goals first
    | (cases h; exact Or.inl ⟨_, rfl, rfl⟩)
    | (cases h; exact Or.inr ⟨_, rfl, rfl⟩)
    | (split at h <;> cases h; exact Or.inl ⟨_, rfl, rfl⟩)
    | cases h

/-- Where a bare `>` closes nothing, every comparison is an operator of some level. -/
theorem exists_compare (op : CompareOp) :
    ∃ l : Level, l.operator? false (.compare op) = some (.compare op) := by
  cases op with
  | eq | ne => exact ⟨.equality, rfl⟩
  | lt | le | gt | ge => exact ⟨.relation, rfl⟩

/-- Every arithmetic operation is an operator of some level. -/
theorem exists_arith (op : ArithOp) :
    ∃ l : Level, l.operator? false (.arith op) = some (.arith op) := by
  cases op with
  | add | sub => exact ⟨.term, rfl⟩
  | mul | div | mod => exact ⟨.factor, rfl⟩

end Level

/-- The phrases of each nonterminal: what stands at the front of a row of tokens, the expression
that it spells, and the tokens behind it. -/
inductive Derives : Nonterminal → List Token → Expr → List Token → Prop
  | single {closing : Bool} {c : Connective} {ts rest : List Token} {e : Expr}
      (he : Derives (c.operand closing) ts e rest) :
      Derives (.junction closing c) ts e rest
  | grouped {closing : Bool} {c : Connective} {ts rest : List Token} {e : Expr}
      (he : Derives (.group closing c) ts e rest) :
      Derives (.junction closing c) ts e rest
  | pair {closing : Bool} {c : Connective} {ts mid rest : List Token} {sign : Token} {a b : Expr}
      (ha : Derives (c.operand closing) ts a (sign :: mid)) (hsign : sign.kind = .junction c)
      (hb : Derives (c.operand closing) mid b rest) :
      Derives (.group closing c) ts (.junction c [a, b]) rest
  | more {closing : Bool} {c : Connective} {ts mid rest : List Token} {sign : Token} {a : Expr}
      {es : List Expr}
      (ha : Derives (c.operand closing) ts a (sign :: mid)) (hsign : sign.kind = .junction c)
      (hes : Derives (.group closing c) mid (.junction c es) rest) :
      Derives (.group closing c) ts (.junction c (a :: es)) rest
  | operand {closing : Bool} {l : Level} {ts rest : List Token} {e : Expr}
      (he : Derives (l.operand closing) ts e rest) :
      Derives (.binary closing l) ts e rest
  | joined {closing : Bool} {l : Level} {ts mid rest : List Token} {sign : Token} {a b : Expr}
      {join : Expr → Expr → Expr}
      (ha : Derives (.binary closing l) ts a (sign :: mid))
      (hsign : l.operator? closing sign.kind = some join)
      (hb : Derives (l.operand closing) mid b rest) :
      Derives (.binary closing l) ts (join a b) rest
  | not {sign : Token} {ts rest : List Token} {e : Expr} (hsign : sign.kind = .not)
      (he : Derives .unary ts e rest) :
      Derives .unary (sign :: ts) (.not e) rest
  | neg {sign : Token} {ts rest : List Token} {e : Expr} (hsign : sign.kind = .arith .sub)
      (he : Derives .unary ts e rest) :
      Derives .unary (sign :: ts) (.neg e) rest
  | primary {ts rest : List Token} {e : Expr} (he : Derives .primary ts e rest) :
      Derives .unary ts e rest
  | number {t : Token} {rest : List Token} (ht : t.kind = .number) :
      Derives .primary (t :: rest) (.number (Parser.numberValue t)) rest
  | bool {t : Token} {rest : List Token} {value : Bool} (ht : t.kind = .bool value) :
      Derives .primary (t :: rest) (.bool value) rest
  | tag {marker t : Token} {rest : List Token} (hmarker : marker.kind = .hash)
      (ht : t.kind = .name ∨ t.kind.isKeyword = true) :
      Derives .primary (marker :: t :: rest) (.tag t.text) rest
  | tagNumber {marker t : Token} {rest : List Token} (hmarker : marker.kind = .dollar)
      (ht : t.kind = .name ∨ t.kind.isKeyword = true) :
      Derives .primary (marker :: t :: rest) (.tagNumber t.text) rest
  | nonEmpty {marker : Token} {ts rest : List Token} {source : Expr}
      (hmarker : marker.kind = .hash) (hsource : Derives .comprehension ts source rest) :
      Derives .primary (marker :: ts) (.nonEmpty source) rest
  | count {marker : Token} {ts rest : List Token} {source : Expr}
      (hmarker : marker.kind = .dollar) (hsource : Derives .comprehension ts source rest) :
      Derives .primary (marker :: ts) (.count source) rest
  | quantified {word : Token} {ts rest : List Token} {q : Quantifier} {name : String}
      {source body : Expr} (hword : word.kind = .quantifier q)
      (hbinder : Derives .comprehension ts (.comprehension name source body) rest) :
      Derives .primary (word :: ts) (.quantified q name source body) rest
  | focus {name opening close : Token} {ts rest : List Token} {body : Expr}
      (hname : name.kind = .name) (hopening : opening.kind = .compare .lt)
      (hbody : Derives (.expression true) ts body (close :: rest))
      (hclose : close.kind = .compare .gt) :
      Derives .primary (name :: opening :: ts) (.focus name.text body) rest
  | var {name : Token} {rest : List Token} (hname : name.kind = .name)
      (hrest : ∀ t ∈ rest.head?, t.kind ≠ .compare .lt) :
      Derives .primary (name :: rest) (.var name.text) rest
  | parens {opening close : Token} {ts rest : List Token} {e : Expr}
      (hopening : opening.kind = .leftParen)
      (he : Derives (.expression false) ts e (close :: rest)) (hclose : close.kind = .rightParen) :
      Derives .primary (opening :: ts) e rest
  | list {word : Token} {rest : List Token} {source : ListSource}
      (hword : word.kind = .list source) :
      Derives .list (word :: rest) (.list source) rest
  | nested {ts rest : List Token} {source : Expr}
      (hsource : Derives .comprehension ts source rest) :
      Derives .list ts source rest
  | comprehension {opening name colon pipe close : Token} {ts mid rest : List Token}
      {source body : Expr} (hopening : opening.kind = .leftBracket) (hname : name.kind = .name)
      (hcolon : colon.kind = .colon) (hsource : Derives .list ts source (pipe :: mid))
      (hpipe : pipe.kind = .pipe) (hbody : Derives (.expression false) mid body (close :: rest))
      (hclose : close.kind = .rightBracket) :
      Derives .comprehension (opening :: name :: colon :: ts)
        (.comprehension name.text source body) rest

/-- A row of tokens spells a rule: all of it is one phrase, with the end of the rule behind it,
and the expression is a truth value in which only the element itself is free. -/
structure Spells (ts : List Token) (e : Expr) : Prop where
  derives : ∃ last : Token, last.kind = .finish ∧ Derives (.expression false) ts e [last]
  typed : Typed [thisName] e (.value .boolean)

namespace Derives

variable {n : Nonterminal} {ts rest : List Token} {e : Expr}

/-- An operand is a phrase of every level. -/
theorem binary_of_unary (h : Derives .unary ts e rest) (closing : Bool) (l : Level) :
    Derives (.binary closing l) ts e rest := by
  have hfactor : Derives (.binary closing .factor) ts e rest := .operand h
  have hterm : Derives (.binary closing .term) ts e rest := .operand hfactor
  have hrelation : Derives (.binary closing .relation) ts e rest := .operand hterm
  cases l with
  | equality => exact .operand hrelation
  | relation => exact hrelation
  | term => exact hterm
  | factor => exact hfactor

/-- An operand with its signs is an operand of every level. -/
theorem operand_of_unary (h : Derives .unary ts e rest) (closing : Bool) (l : Level) :
    Derives (l.operand closing) ts e rest := by
  cases l with
  | factor => exact h
  | _ => exact h.binary_of_unary closing _

/-- A phrase of any level of operators is a phrase of the loosest one. -/
theorem equality_of_binary {closing : Bool} {l : Level}
    (h : Derives (.binary closing l) ts e rest) :
    Derives (.binary closing .equality) ts e rest := by
  cases l with
  | equality => exact h
  | relation => exact .operand h
  | term => exact .operand (l := .equality) (.operand (l := .relation) h)
  | factor =>
      have hrelation : Derives (.binary closing .relation) ts e rest :=
        .operand (.operand (l := .term) h)
      exact .operand hrelation

/-- A phrase of the loosest level of operators is an operand of both connectives. -/
theorem junctionOperand_of_equality {closing : Bool}
    (h : Derives (.binary closing .equality) ts e rest) (c : Connective) :
    Derives (c.operand closing) ts e rest := by
  cases c with
  | and => exact h
  | or => exact .single h

/-- A phrase of any level of operators is an expression. -/
theorem expression_of_binary {closing : Bool} {l : Level}
    (h : Derives (.binary closing l) ts e rest) : Derives (.expression closing) ts e rest :=
  .single (h.equality_of_binary.junctionOperand_of_equality .or)

/-- An operand with its signs is an expression. -/
theorem expression_of_unary (h : Derives .unary ts e rest) (closing : Bool) :
    Derives (.expression closing) ts e rest :=
  (h.binary_of_unary closing .equality).expression_of_binary

/-- A group of operands is an expression. -/
theorem expression_of_group {closing : Bool} {c : Connective}
    (h : Derives (.group closing c) ts e rest) : Derives (.expression closing) ts e rest := by
  cases c with
  | and => exact .single (c := .or) (.grouped h)
  | or => exact .grouped h

end Derives

/-- The tokens before `rest` in `ts`: at least one, and none that ends a rule. -/
def Consumed (ts rest : List Token) : Prop :=
  ∃ front, ts = front ++ rest ∧ front ≠ [] ∧ ∀ t ∈ front, t.kind ≠ .finish

namespace Consumed

variable {ts mid rest : List Token} {t : Token}

/-- One token is consumed. -/
theorem head (ht : t.kind ≠ .finish) : Consumed (t :: rest) rest :=
  ⟨[t], rfl, by simp, by simpa using ht⟩

/-- What is consumed in two parts is consumed. -/
theorem trans (h : Consumed ts mid) (h' : Consumed mid rest) : Consumed ts rest := by
  obtain ⟨front, rfl, hne, hfront⟩ := h
  obtain ⟨back, rfl, -, hback⟩ := h'
  refine ⟨front ++ back, by simp, by simp [hne], ?_⟩
  intro t ht
  rcases List.mem_append.mp ht with ht | ht
  · exact hfront t ht
  · exact hback t ht

/-- One more token in front is consumed too. -/
theorem cons (ht : t.kind ≠ .finish) (h : Consumed ts rest) : Consumed (t :: ts) rest :=
  (head ht).trans h

/-- The token behind what is consumed may be consumed too. -/
theorem tail (h : Consumed ts (t :: rest)) (ht : t.kind ≠ .finish) : Consumed ts rest :=
  h.trans (head ht)

/-- What is left is shorter. -/
theorem length_lt (h : Consumed ts rest) : rest.length < ts.length := by
  obtain ⟨front, rfl, hne, -⟩ := h
  have := List.length_pos_iff.mpr hne
  simp only [List.length_append]
  omega

end Consumed

/-- A phrase is a nonempty front of its row and does not reach beyond the end of the rule. -/
theorem Derives.consumed {n : Nonterminal} {ts rest : List Token} {e : Expr}
    (h : Derives n ts e rest) : Consumed ts rest := by
  induction h with
  | single he ih | grouped he ih | operand he ih | primary he ih | nested hsource ih => exact ih
  | pair ha hsign hb iha ihb | more ha hsign hb iha ihb =>
      exact (iha.tail (by simp [hsign])).trans ihb
  | joined ha hsign hb iha ihb =>
      refine (iha.tail ?_).trans ihb
      intro hfinish
      rw [hfinish, Level.operator?_finish] at hsign
      cases hsign
  | not hsign he ih | neg hsign he ih => exact ih.cons (by simp [hsign])
  | number ht | bool ht => exact .head (by simp [ht])
  | tag hmarker ht | tagNumber hmarker ht =>
      refine .cons (by simp [hmarker]) (.head ?_)
      rcases ht with ht | ht
      · simp [ht]
      · intro hfinish
        simp [hfinish, TokenKind.isKeyword] at ht
  | nonEmpty hmarker hsource ih | count hmarker hsource ih => exact ih.cons (by simp [hmarker])
  | quantified hword hbinder ih => exact ih.cons (by simp [hword])
  | focus hname hopening hbody hclose ih =>
      exact .cons (by simp [hname]) (.cons (by simp [hopening]) (ih.tail (by simp [hclose])))
  | var hname hrest => exact .head (by simp [hname])
  | parens hopening he hclose ih => exact .cons (by simp [hopening]) (ih.tail (by simp [hclose]))
  | list hword => exact .head (by simp [hword])
  | comprehension hopening hname hcolon hsource hpipe hbody hclose ihs ihb =>
      have hrest := (ihs.tail (by simp [hpipe])).trans (ihb.tail (by simp [hclose]))
      exact .cons (by simp [hopening]) (.cons (by simp [hname]) (.cons (by simp [hcolon]) hrest))

/-- A phrase takes at least one token. -/
theorem Derives.length_lt {n : Nonterminal} {ts rest : List Token} {e : Expr}
    (h : Derives n ts e rest) : rest.length < ts.length :=
  h.consumed.length_lt

end DiagramFilter
