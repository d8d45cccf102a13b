import DiagramFilter.Proofs.Grammar.Soundness

/-!
# What is derived is read

A typed phrase is read as the expression that it spells, if no operator behind it could take the
phrase as its operand (`Stops`) and the nesting limit is not in the way.  A phrase cannot be
nested more deeply than it has tokens.

The induction is on the derivation.  What it says of each nonterminal is `Complete`: on a level
of binary operators, the loop has come to the phrase with enough rounds left to go on, because a
further operator of the same level may follow.  There is one lemma in `Complete` for each production
of the grammar.  Those of operands and lists take one level of nesting, and those of operators take
none.
-/

namespace DiagramFilter

/-- The rank of a connective among the operators, the loosest first. -/
def Connective.rank : Connective → Nat
  | or => 0
  | and => 1

/-- The rank of a level of binary operators. -/
def Level.rank : Level → Nat
  | equality => 2
  | relation => 3
  | term => 4
  | factor => 5

/-- A token is no operator of the rank or a tighter one. -/
structure Stops (closing : Bool) (rank : Nat) (kind : TokenKind) : Prop where
  junction : ∀ c : Connective, rank ≤ c.rank → kind ≠ .junction c
  operator : ∀ l : Level, rank ≤ l.rank → l.operator? closing kind = none

namespace Stops

variable {closing : Bool} {rank rank' : Nat} {kind : TokenKind}

/-- What stops operators stops the tighter ones. -/
theorem mono (h : Stops closing rank kind) (hle : rank ≤ rank') : Stops closing rank' kind :=
  ⟨fun c hc => h.junction c (Nat.le_trans hle hc), fun l hl => h.operator l (Nat.le_trans hle hl)⟩

/-- An operator of a level stops what is tighter. -/
theorem of_operator {l : Level} {join : Expr → Expr → Expr}
    (h : l.operator? closing kind = some join) : Stops closing (l.rank + 1) kind := by
  constructor
  · intro c hc
    cases c <;> cases l <;> simp [Connective.rank, Level.rank] at hc
  · intro l' hl
    cases l <;> cases l' <;> simp [Level.rank] at hl <;>
      (unfold Level.operator? at h ⊢; split at h <;> simp_all)

/-- A connective stops what is tighter. -/
theorem of_junction (c : Connective) : Stops closing (c.rank + 1) (.junction c) := by
  constructor
  · intro c' hc
    cases c <;> cases c' <;> simp [Connective.rank] at hc ⊢
  · intro l _
    cases l <;> rfl

/-- The tokens that stand behind whole expressions. -/
theorem of_closing (h : kind = .rightParen ∨ kind = .rightBracket ∨ kind = .pipe ∨ kind = .finish) :
    Stops closing 0 kind := by
  rcases h with rfl | rfl | rfl | rfl <;>
    exact ⟨fun c _ => by simp, fun l _ => by cases l <;> rfl⟩

/-- A bare `>` behind a focused expression. -/
theorem of_gt : Stops true 0 (.compare .gt) :=
  ⟨fun c _ => by simp, fun l _ => by cases l <;> rfl⟩

end Stops

namespace Parser

variable {bound : List String} {depth : Nat} {closing : Bool} {n : Nonterminal}
  {ts rest : List Token} {e a b : Expr} {k : Kind} {c : Category}

/-- What the grammar makes of two operands is what the parser makes of them, if it is typed. -/
theorem join?_complete {l : Level} {t : Token} {make : Expr → Expr → Expr}
    (hsign : l.operator? closing t.kind = some make) (htyped : Typed bound (make a b) c) :
    (∃ join, l.join? closing t = some join ∧ join a b = .ok (make a b)) ∧
      (∃ k, Typed bound a (.value k)) ∧ ∃ k, Typed bound b (.value k) := by
  obtain ⟨join, hjoin⟩ : ∃ join, l.join? closing t = some join := by
    refine Option.ne_none_iff_exists'.mp fun hnone => ?_
    rw [join?_eq_none.mp hnone] at hsign
    cases hsign
  rcases join?_cases hjoin with ⟨op, hsign', rfl⟩ | ⟨op, hop, hsign', rfl⟩ | ⟨op, hop, hsign', rfl⟩
  · obtain rfl := Option.some.inj (hsign.symm.trans hsign')
    cases htyped with
    | arith ha hb =>
        exact ⟨⟨_, hjoin, joinArith_eq_ok.mpr ⟨ha.kind?_eq, hb.kind?_eq, rfl⟩⟩, ⟨_, ha⟩, _, hb⟩
  · obtain rfl := Option.some.inj (hsign.symm.trans hsign')
    cases htyped with
    | equality hop' => simp [hop] at hop'
    | relation _ ha hb =>
        exact ⟨⟨_, hjoin, joinRelation_eq_ok.mpr ⟨ha.kind?_eq, hb.kind?_eq, rfl⟩⟩, ⟨_, ha⟩, _, hb⟩
  · obtain rfl := Option.some.inj (hsign.symm.trans hsign')
    cases htyped with
    | relation hop' => simp [hop] at hop'
    | equality _ ha hb =>
        have hkind := ha.kind?_eq.trans hb.kind?_eq.symm
        exact ⟨⟨_, hjoin, joinEquality_eq_ok.mpr ⟨hkind, rfl⟩⟩, ⟨_, ha⟩, _, hb⟩

/-- The parser of the operands of a level, above a parser of operands without operators. -/
def operandsOf (closing : Bool) (p : Reader Expr) : Level → Reader Expr
  | .factor => p
  | .term => binaryLevel factorJoin? p
  | .relation => binaryLevel termJoin? <| binaryLevel factorJoin? p
  | .equality =>
    binaryLevel (relationJoin? closing) <| binaryLevel termJoin? <| binaryLevel factorJoin? p

/-- The parser of the operands of a connective. -/
def junctionOperandsOf (closing : Bool) (p : Reader Expr) : Connective → Reader Expr
  | .and => binaryLevel equalityJoin? (operandsOf closing p .equality)
  | .or => junctionLevel .and <| binaryLevel equalityJoin? (operandsOf closing p .equality)

/-- What it means for the parser to read a phrase of a nonterminal. -/
def Complete (bound : List String) (depth : Nat) (ts : List Token) (e : Expr)
    (rest : List Token) : Nonterminal → Prop
  | .unary | .primary => operand depth bound ts = .ok (e, rest)
  | .binary closing l => Stops closing (l.rank + 1) (peek rest).kind →
      ∃ rounds, rest.length ≤ rounds ∧
        binaryLevel (l.join? closing) (operandsOf closing (operand depth bound) l) ts =
          binaryTail (l.join? closing) (operandsOf closing (operand depth bound) l) rounds e rest
  | .group closing c => Stops closing c.rank (peek rest).kind →
      ∃ first more mid, e = .junction c (first :: more) ∧ more ≠ [] ∧ mid.length ≤ ts.length ∧
        junctionOperandsOf closing (operand depth bound) c ts = .ok (first, mid) ∧
        ∀ rounds, mid.length ≤ rounds →
          junctionTail c (junctionOperandsOf closing (operand depth bound) c) rounds first mid =
            .ok (more, rest)
  | .junction closing c => Stops closing c.rank (peek rest).kind →
      junctionLevel c (junctionOperandsOf closing (operand depth bound) c) ts = .ok (e, rest)
  | .list => source depth bound ts = .ok (e, rest)
  | .comprehension => ∀ depth', depth = depth' + 1 →
      ∃ name source body, e = .comprehension name source body ∧
        binding (Parser.source depth' bound)
          (fun var => levels false (operand depth' (var :: bound))) ts =
            .ok ((name, source, body), rest)

/-- The loop of a level ends in front of what is no operator of the level. -/
theorem binaryTail_stop {join? : Token → Option Join} {p : Reader Expr} {rounds : Nat}
    (h : join? (peek ts) = none) : binaryTail join? p rounds e ts = .ok (e, ts) := by
  cases rounds with
  | zero => rfl
  | succ rounds => simp [binaryTail, h]

/-- The loop of a connective ends in front of what is not the connective. -/
theorem junctionTail_stop {c : Connective} {p : Reader Expr} {rounds : Nat}
    (h : (peek ts).kind ≠ .junction c) : junctionTail c p rounds e ts = .ok ([], ts) := by
  cases rounds with
  | zero => rfl
  | succ rounds => simp [junctionTail, h]

/-- One round of the loop of a level. -/
theorem binaryTail_succ {join? : Token → Option Join} {join : Join} {p : Reader Expr} {rounds : Nat}
    {t : Token} {mid : List Token} (hjoin : join? t = some join) (hb : p ts = .ok (b, mid))
    (he : join a b = .ok e) :
    binaryTail join? p (rounds + 1) a (t :: ts) = binaryTail join? p rounds e mid := by
  simp only [binaryTail, peek, List.headD_cons, hjoin, List.tail_cons, hb, bind, Except.bind, he]

/-- One round of the loop of a connective. -/
theorem junctionTail_succ {c : Connective} {p : Reader Expr} {rounds : Nat} {t : Token}
    {mid : List Token} {more : List Expr} (hsign : t.kind = .junction c)
    (hb : p ts = .ok (b, mid)) (ha : a.kind? = some .boolean) (hkb : b.kind? = some .boolean)
    (hmore : junctionTail c p rounds b mid = .ok (more, rest)) :
    junctionTail c p (rounds + 1) a (t :: ts) = .ok (b :: more, rest) := by
  simp only [junctionTail, peek, List.headD_cons, hsign, if_true, List.tail_cons, bind_eq_ok]
  exact ⟨_, hb, (), require_eq_ok.mpr ha, (), require_eq_ok.mpr hkb, _, hmore, rfl⟩

/-- A tag name is no bracket. -/
theorem not_leftBracket {t : Token} (ht : t.kind = .name ∨ t.kind.isKeyword = true) :
    t.kind ≠ .leftBracket := by
  rcases ht with ht | ht
  · simp [ht]
  · intro h
    simp [h, TokenKind.isKeyword] at ht

/-- What the first token is not, the next token is not, unless the rule ends. -/
theorem peek_ne {kind : TokenKind} (h : ∀ t ∈ ts.head?, t.kind ≠ kind) (hkind : kind ≠ .finish) :
    (peek ts).kind ≠ kind := by
  cases ts with
  | nil => exact hkind.symm
  | cons t ts => exact h t rfl

/-- A binder starts with a bracket. -/
theorem leftBracket_of_binding {p : Reader Expr} {q : String → Reader Expr}
    {binder : String × Expr × Expr} (h : binding p q ts = .ok (binder, rest)) :
    (peek ts).kind = .leftBracket := by
  obtain ⟨_, hopening, -⟩ := bind_eq_ok.mp h
  obtain ⟨t, rfl, ht⟩ := (expect_eq_ok (by simp)).mp hopening
  exact ht

/-- A binder is read if its source and its body are. -/
theorem binding_complete {p : Reader Expr} {q : String → Reader Expr}
    {opening name colon pipe close : Token} {mid : List Token}
    (hopening : opening.kind = .leftBracket) (hname : name.kind = .name)
    (hcolon : colon.kind = .colon)
    (hsource : p ts = .ok (a, pipe :: mid)) (hpipe : pipe.kind = .pipe)
    (hbody : q name.text mid = .ok (b, close :: rest)) (hboolean : b.kind? = some .boolean)
    (hclose : close.kind = .rightBracket) :
    binding p q (opening :: name :: colon :: ts) = .ok ((name.text, a, b), rest) := by
  simp only [binding, bind_eq_ok]
  refine ⟨_, (expect_eq_ok (by simp)).mpr ⟨_, rfl, hopening⟩, ?_⟩
  simp only [peek, List.headD_cons, hname, TokenKind.isKeyword, Bool.false_eq_true, if_false,
    bind_eq_ok]
  exact ⟨_, (expect_eq_ok (by simp)).mpr ⟨_, rfl, hname⟩,
    _, (expect_eq_ok (by simp)).mpr ⟨_, rfl, hcolon⟩,
    _, hsource,
    _, (expect_eq_ok (by simp)).mpr ⟨_, rfl, hpipe⟩,
    _, hbody,
    (), require_eq_ok.mpr hboolean,
    _, (expect_eq_ok (by simp)).mpr ⟨_, rfl, hclose⟩, rfl⟩

namespace Complete

/-- A phrase of a level is read by the whole level if no operator of the level follows. -/
theorem binaryLevel {l : Level} (h : Complete bound depth ts e rest (.binary closing l))
    (hstops : Stops closing l.rank (peek rest).kind) :
    Parser.binaryLevel (l.join? closing) (operandsOf closing (operand depth bound) l) ts =
      .ok (e, rest) := by
  obtain ⟨rounds, -, heq⟩ := h (hstops.mono (Nat.le_succ _))
  rw [heq]
  exact binaryTail_stop (join?_eq_none.mpr (hstops.operator l (Nat.le_refl _)))

/-- An operand of a level is read by the parser of operands. -/
theorem operandsOf {l : Level} (h : Complete bound depth ts e rest (l.operand closing))
    (hstops : Stops closing (l.rank + 1) (peek rest).kind) :
    Parser.operandsOf closing (operand depth bound) l ts = .ok (e, rest) := by
  cases l with
  | factor => exact h
  | _ => exact binaryLevel h hstops

/-- An operand of a connective is read by the parser of operands. -/
theorem junctionOperandsOf {c : Connective} (h : Complete bound depth ts e rest (c.operand closing))
    (hstops : Stops closing (c.rank + 1) (peek rest).kind) :
    Parser.junctionOperandsOf closing (operand depth bound) c ts = .ok (e, rest) := by
  cases c with
  | and => exact binaryLevel h hstops
  | or => exact h hstops

/-- The first operand of a group is read up to the connective behind it. -/
theorem junctionFirst {c : Connective} {sign : Token}
    (h : Complete bound depth ts e (sign :: rest) (c.operand closing))
    (hsign : sign.kind = .junction c) :
    Parser.junctionOperandsOf closing (operand depth bound) c ts = .ok (e, sign :: rest) := by
  refine h.junctionOperandsOf ?_
  simp only [peek, List.headD_cons, hsign]
  exact .of_junction _

/-- An operand of a level is a phrase of the level. -/
theorem of_operand {l : Level} (h : Complete bound depth ts e rest (l.operand closing)) :
    Complete bound depth ts e rest (.binary closing l) := by
  intro hstops
  have hleft := h.operandsOf hstops
  refine ⟨_, Nat.le_refl _, ?_⟩
  simp only [Parser.binaryLevel, hleft]
  rfl

/-- A phrase of a level, an operator and an operand are a longer phrase of the level. -/
theorem joined {l : Level} {sign : Token} {mid : List Token} {make : Expr → Expr → Expr}
    {join : Join} (ha : Complete bound depth ts a (sign :: mid) (.binary closing l))
    (hsign : l.operator? closing sign.kind = some make)
    (hjoin : l.join? closing sign = some join)
    (hb : Complete bound depth mid b rest (l.operand closing)) (hok : join a b = .ok e)
    (hlen : rest.length ≤ mid.length) : Complete bound depth ts e rest (.binary closing l) := by
  intro hstops
  -- The loop comes to the operator with rounds to spare, and one of them is for the operator.
  obtain ⟨rounds, hrounds, heq⟩ := ha (.of_operator hsign)
  have hright := hb.operandsOf hstops
  simp only [List.length_cons] at hrounds
  obtain ⟨rounds, rfl⟩ := Nat.exists_eq_add_one_of_ne_zero (n := rounds) (by omega)
  exact ⟨rounds, by omega, heq.trans (binaryTail_succ hjoin hright hok)⟩

/-- An operand of a connective is a phrase of its level. -/
theorem single {c : Connective} (h : Complete bound depth ts e rest (c.operand closing)) :
    Complete bound depth ts e rest (.junction closing c) := by
  intro hstops
  have hfirst := h.junctionOperandsOf (hstops.mono (Nat.le_succ _))
  have hend := hstops.junction _ (Nat.le_refl _)
  exact bind_eq_ok.mpr ⟨_, hfirst, bind_eq_ok.mpr ⟨_, junctionTail_stop hend, rfl⟩⟩

/-- A group of operands is a phrase of its connective. -/
theorem grouped {c : Connective} (h : Complete bound depth ts e rest (.group closing c)) :
    Complete bound depth ts e rest (.junction closing c) := by
  intro hstops
  obtain ⟨first, more, mid, rfl, hne, -, hfirst, hmore⟩ := h hstops
  have hempty : more.isEmpty = false := by simpa using hne
  exact bind_eq_ok.mpr ⟨_, hfirst, bind_eq_ok.mpr ⟨_, hmore _ (Nat.le_refl _), by
    simp only [hempty]; rfl⟩⟩

/-- Two operands are a group. -/
theorem pair {c : Connective} {sign : Token} {mid : List Token}
    (ha : Complete bound depth ts a (sign :: mid) (c.operand closing))
    (hsign : sign.kind = .junction c) (hb : Complete bound depth mid b rest (c.operand closing))
    (hka : a.kind? = some .boolean) (hkb : b.kind? = some .boolean)
    (hlen : (sign :: mid).length ≤ ts.length) :
    Complete bound depth ts (.junction c [a, b]) rest (.group closing c) := by
  intro hstops
  have hsecond := hb.junctionOperandsOf (hstops.mono (Nat.le_succ _))
  refine ⟨_, _, _, rfl, by simp, hlen, ha.junctionFirst hsign, ?_⟩
  rintro (_ | rounds) hrounds
  · cases hrounds
  · exact junctionTail_succ hsign hsecond hka hkb
      (junctionTail_stop (hstops.junction _ (Nat.le_refl _)))

/-- An operand in front of a group is one more of its operands. -/
theorem more {c : Connective} {sign : Token} {mid : List Token} {es : List Expr}
    (ha : Complete bound depth ts a (sign :: mid) (c.operand closing))
    (hsign : sign.kind = .junction c)
    (hes : Complete bound depth mid (.junction c es) rest (.group closing c))
    (hka : a.kind? = some .boolean) (hkinds : ∀ e ∈ es, e.kind? = some .boolean)
    (hlen : (sign :: mid).length ≤ ts.length) :
    Complete bound depth ts (.junction c (a :: es)) rest (.group closing c) := by
  intro hstops
  -- The operands behind the sign are read as a group, the first of which is the second one here.
  obtain ⟨second, more, mid', heq, -, hle, hsecond, hmore⟩ := hes hstops
  cases heq
  refine ⟨_, _, _, rfl, by simp, hlen, ha.junctionFirst hsign, ?_⟩
  rintro (_ | rounds) hrounds
  · cases hrounds
  · simp only [List.length_cons] at hrounds
    exact junctionTail_succ hsign hsecond hka (hkinds _ List.mem_cons_self)
      (hmore rounds (by omega))

/-- A negation before an operand takes one level. -/
theorem not {sign : Token} (h : Complete bound depth ts e rest .unary) (hsign : sign.kind = .not)
    (hkind : e.kind? = some .boolean) :
    Complete bound (depth + 1) (sign :: ts) (.not e) rest .unary := by
  rw [Complete, operand]
  simp only [peek, List.headD_cons, hsign, List.tail_cons, bind_eq_ok]
  exact ⟨_, h, (), require_eq_ok.mpr hkind, rfl⟩

/-- A sign before an operand takes one level. -/
theorem neg {sign : Token} (h : Complete bound depth ts e rest .unary)
    (hsign : sign.kind = .arith .sub) (hkind : e.kind? = some .numeric) :
    Complete bound (depth + 1) (sign :: ts) (.neg e) rest .unary := by
  rw [Complete, operand]
  simp only [peek, List.headD_cons, hsign, List.tail_cons, bind_eq_ok]
  exact ⟨_, h, (), require_eq_ok.mpr hkind, rfl⟩

/-- A number is an operand. -/
theorem number {t : Token} {x : Float} (ht : t.kind = .number) (hx : numberValue t = x) :
    Complete bound (depth + 1) (t :: rest) (.number x) rest .unary := by
  rw [Complete, operand]
  simp only [peek, List.headD_cons, ht, List.tail_cons, hx]

/-- A truth value is an operand. -/
theorem bool {t : Token} {value : Bool} (ht : t.kind = .bool value) :
    Complete bound (depth + 1) (t :: rest) (.bool value) rest .primary := by
  rw [Complete, operand]
  simp only [peek, List.headD_cons, ht, List.tail_cons]

/-- A tag is an operand. -/
theorem tag {marker t : Token} (hmarker : marker.kind = .hash)
    (ht : t.kind = .name ∨ t.kind.isKeyword = true) :
    Complete bound (depth + 1) (marker :: t :: rest) (.tag t.text) rest .primary := by
  rw [Complete, operand]
  simp only [peek, List.headD_cons, hmarker, List.tail_cons, not_leftBracket ht, if_false]
  exact bind_eq_ok.mpr ⟨_, tagName_eq_ok.mpr ⟨_, rfl, rfl, ht⟩, rfl⟩

/-- The number of a tag is an operand. -/
theorem tagNumber {marker t : Token} (hmarker : marker.kind = .dollar)
    (ht : t.kind = .name ∨ t.kind.isKeyword = true) :
    Complete bound (depth + 1) (marker :: t :: rest) (.tagNumber t.text) rest .primary := by
  rw [Complete, operand]
  simp only [peek, List.headD_cons, hmarker, List.tail_cons, not_leftBracket ht, if_false]
  exact bind_eq_ok.mpr ⟨_, tagName_eq_ok.mpr ⟨_, rfl, rfl, ht⟩, rfl⟩

/-- A comprehension behind a mark asks whether there is an element. -/
theorem nonEmpty {marker : Token} (hmarker : marker.kind = .hash)
    (h : Complete bound (depth + 1) ts e rest .comprehension) :
    Complete bound (depth + 1) (marker :: ts) (.nonEmpty e) rest .primary := by
  obtain ⟨name, source, body, rfl, hbinding⟩ := h depth rfl
  have hopening := leftBracket_of_binding hbinding
  rw [Complete, operand]
  simp only [peek, List.headD_cons, hmarker, List.tail_cons] at hopening ⊢
  simp only [hopening, if_true]
  exact bind_eq_ok.mpr ⟨_, hbinding, rfl⟩

/-- A comprehension behind a mark is counted. -/
theorem count {marker : Token} (hmarker : marker.kind = .dollar)
    (h : Complete bound (depth + 1) ts e rest .comprehension) :
    Complete bound (depth + 1) (marker :: ts) (.count e) rest .primary := by
  obtain ⟨name, source, body, rfl, hbinding⟩ := h depth rfl
  have hopening := leftBracket_of_binding hbinding
  rw [Complete, operand]
  simp only [peek, List.headD_cons, hmarker, List.tail_cons] at hopening ⊢
  simp only [hopening, if_true]
  exact bind_eq_ok.mpr ⟨_, hbinding, rfl⟩

/-- A quantifier with a binder is an operand. -/
theorem quantified {word : Token} {q : Quantifier} {name : String} {source body : Expr}
    (hword : word.kind = .quantifier q)
    (h : Complete bound (depth + 1) ts (.comprehension name source body) rest .comprehension) :
    Complete bound (depth + 1) (word :: ts) (.quantified q name source body) rest .primary := by
  obtain ⟨name, source, body, heq, hbinding⟩ := h depth rfl
  cases heq
  rw [Complete, operand]
  simp only [peek, List.headD_cons, hword, List.tail_cons]
  exact bind_eq_ok.mpr ⟨_, hbinding, rfl⟩

/-- An expression in angle brackets behind a bound name is an operand. -/
theorem focus {name opening close : Token} (hname : name.kind = .name)
    (hopening : opening.kind = .compare .lt) (hbound : name.text ∈ bound)
    (h : Complete bound depth ts e (close :: rest) (.expression true))
    (hclose : close.kind = .compare .gt) (hkind : e.kind? ≠ some .element) :
    Complete bound (depth + 1) (name :: opening :: ts) (.focus name.text e) rest .primary := by
  have hread := h (by simp only [peek, List.headD_cons, hclose]; exact .of_gt)
  rw [Complete, operand]
  simp only [peek, List.headD_cons, hname, hopening, List.tail_cons, if_true, bind_eq_ok]
  refine ⟨(), requireBound_eq_ok.mpr hbound, _, hread, ?_⟩
  rw [if_neg hkind]
  exact bind_eq_ok.mpr ⟨_, (expect_eq_ok (by simp)).mpr ⟨_, rfl, hclose⟩, rfl⟩

/-- A bound name is an operand. -/
theorem var {name : Token} (hname : name.kind = .name)
    (hrest : ∀ t ∈ rest.head?, t.kind ≠ .compare .lt) (hbound : name.text ∈ bound) :
    Complete bound (depth + 1) (name :: rest) (.var name.text) rest .primary := by
  have hopening := peek_ne hrest (by simp)
  rw [Complete, operand]
  simp only [peek, List.headD_cons, hname, List.tail_cons] at hopening ⊢
  simp only [hopening, if_false]
  exact bind_eq_ok.mpr ⟨(), requireBound_eq_ok.mpr hbound, rfl⟩

/-- An expression in parentheses is an operand. -/
theorem parens {opening close : Token} (hopening : opening.kind = .leftParen)
    (h : Complete bound depth ts e (close :: rest) (.expression false))
    (hclose : close.kind = .rightParen) :
    Complete bound (depth + 1) (opening :: ts) e rest .primary := by
  have hread := h (by simp only [peek, List.headD_cons, hclose]; exact .of_closing (by simp))
  rw [Complete, operand]
  simp only [peek, List.headD_cons, hopening, List.tail_cons]
  refine bind_eq_ok.mpr ⟨_, hread, ?_⟩
  simp only [List.headD_cons, hclose, if_true, List.tail_cons]
  rfl

/-- The word for a list is one. -/
theorem list {word : Token} {source : ListSource} (hword : word.kind = .list source) :
    Complete bound (depth + 1) (word :: rest) (.list source) rest .list := by
  rw [Complete, Parser.source]
  simp only [peek, List.headD_cons, hword, List.tail_cons]

/-- A comprehension is a list. -/
theorem nested (h : Complete bound (depth + 1) ts e rest .comprehension) :
    Complete bound (depth + 1) ts e rest .list := by
  obtain ⟨name, source, body, rfl, hbinding⟩ := h depth rfl
  rw [Complete, Parser.source]
  simp only [leftBracket_of_binding hbinding]
  exact bind_eq_ok.mpr ⟨_, hbinding, rfl⟩

/-- A binder is a comprehension, and its list does not see its name. -/
theorem comprehension {opening name colon pipe close : Token} {mid : List Token}
    (hopening : opening.kind = .leftBracket) (hname : name.kind = .name)
    (hcolon : colon.kind = .colon) (ha : Complete bound depth ts a (pipe :: mid) .list)
    (hpipe : pipe.kind = .pipe)
    (hb : Complete (name.text :: bound) depth mid b (close :: rest) (.expression false))
    (hkb : b.kind? = some .boolean) (hclose : close.kind = .rightBracket) :
    Complete bound (depth + 1) (opening :: name :: colon :: ts) (.comprehension name.text a b) rest
      .comprehension := by
  intro depth' hdepth
  cases hdepth
  have hread := hb (by simp only [peek, List.headD_cons, hclose]; exact .of_closing (by simp))
  exact ⟨_, _, _, rfl, binding_complete hopening hname hcolon ha hpipe hread hkb hclose⟩

end Complete

/-- The limit that leaves room for a token is not zero. -/
theorem exists_depth {t : Token} (h : (t :: ts).length ≤ depth) : ∃ depth', depth = depth' + 1 :=
  Nat.exists_eq_add_one_of_ne_zero (Nat.ne_of_gt (Nat.lt_of_lt_of_le (Nat.succ_pos _) h))

/-- A phrase that is typed is read, if the nesting limit leaves room for its tokens. -/
theorem complete_of_derives (h : Derives n ts e rest) :
    ∀ (bound : List String) (c : Category) (depth : Nat), Typed bound e c → ts.length ≤ depth →
      Complete bound depth ts e rest n := by
  induction h with
  | single he ih =>
      intro bound c depth htyped hlen
      exact (ih _ _ _ htyped hlen).single
  | grouped he ih =>
      intro bound c depth htyped hlen
      exact (ih _ _ _ htyped hlen).grouped
  | pair ha hsign hb iha ihb =>
      intro bound c depth htyped hlen
      cases htyped with | junction hes =>
      have hlt := ha.length_lt
      simp only [List.length_cons] at hlt
      have hta := hes _ List.mem_cons_self
      have htb := hes _ (List.mem_cons_of_mem _ List.mem_cons_self)
      exact (iha _ _ _ hta hlen).pair hsign (ihb _ _ _ htb (by omega)) hta.kind?_eq htb.kind?_eq
        (Nat.le_of_lt ha.length_lt)
  | more ha hsign hes iha ihes =>
      intro bound c depth htyped hlen
      cases htyped with | junction htyped =>
      have hlt := ha.length_lt
      simp only [List.length_cons] at hlt
      have hta := htyped _ List.mem_cons_self
      have hmore := fun e he => htyped e (List.mem_cons_of_mem _ he)
      exact (iha _ _ _ hta hlen).more hsign (ihes _ _ _ (.junction hmore) (by omega)) hta.kind?_eq
        (fun e he => (hmore e he).kind?_eq) (Nat.le_of_lt ha.length_lt)
  | operand he ih =>
      intro bound c depth htyped hlen
      exact (ih _ _ _ htyped hlen).of_operand
  | joined ha hsign hb iha ihb =>
      intro bound c depth htyped hlen
      obtain ⟨⟨join, hjoin, hok⟩, ⟨ka, hta⟩, kb, htb⟩ := join?_complete hsign htyped
      have hlt := ha.length_lt
      have hlt' := hb.length_lt
      simp only [List.length_cons] at hlt
      exact (iha _ _ _ hta hlen).joined hsign hjoin (ihb _ _ _ htb (by omega)) hok
        (Nat.le_of_lt hlt')
  | not hsign he ih =>
      intro bound c depth htyped hlen
      cases htyped with | not htyped =>
      obtain ⟨depth, rfl⟩ := exists_depth hlen
      exact (ih _ _ _ htyped (Nat.le_of_succ_le_succ hlen)).not hsign htyped.kind?_eq
  | neg hsign he ih =>
      intro bound c depth htyped hlen
      cases htyped with | neg htyped =>
      obtain ⟨depth, rfl⟩ := exists_depth hlen
      exact (ih _ _ _ htyped (Nat.le_of_succ_le_succ hlen)).neg hsign htyped.kind?_eq
  | primary he ih =>
      intro bound c depth htyped hlen
      exact ih _ _ _ htyped hlen
  | number ht =>
      intro bound c depth htyped hlen
      obtain ⟨depth, rfl⟩ := exists_depth hlen
      exact .number ht rfl
  | bool ht =>
      intro bound c depth htyped hlen
      obtain ⟨depth, rfl⟩ := exists_depth hlen
      exact .bool ht
  | tag hmarker ht =>
      intro bound c depth htyped hlen
      obtain ⟨depth, rfl⟩ := exists_depth hlen
      exact .tag hmarker ht
  | tagNumber hmarker ht =>
      intro bound c depth htyped hlen
      obtain ⟨depth, rfl⟩ := exists_depth hlen
      exact .tagNumber hmarker ht
  | nonEmpty hmarker hsource ih =>
      intro bound c depth htyped hlen
      cases htyped with | nonEmpty htyped =>
      obtain ⟨depth, rfl⟩ := exists_depth hlen
      exact .nonEmpty hmarker (ih _ _ _ htyped (Nat.le_of_succ_le hlen))
  | count hmarker hsource ih =>
      intro bound c depth htyped hlen
      cases htyped with | count htyped =>
      obtain ⟨depth, rfl⟩ := exists_depth hlen
      exact .count hmarker (ih _ _ _ htyped (Nat.le_of_succ_le hlen))
  | quantified hword hbinder ih =>
      intro bound c depth htyped hlen
      cases htyped with | quantified hsource hbody =>
      obtain ⟨depth, rfl⟩ := exists_depth hlen
      exact .quantified hword (ih _ _ _ (.comprehension hsource hbody) (Nat.le_of_succ_le hlen))
  | focus hname hopening hbody hclose ih =>
      intro bound c depth htyped hlen
      cases htyped with | focus hbound hbodyTyped hk =>
      obtain ⟨depth, rfl⟩ := exists_depth hlen
      simp only [List.length_cons] at hlen
      exact .focus hname hopening hbound (ih _ _ _ hbodyTyped (by omega)) hclose
        (by simpa [hbodyTyped.kind?_eq] using hk)
  | var hname hrest =>
      intro bound c depth htyped hlen
      cases htyped with | var hbound =>
      obtain ⟨depth, rfl⟩ := exists_depth hlen
      exact .var hname hrest hbound
  | parens hopening he hclose ih =>
      intro bound c depth htyped hlen
      obtain ⟨depth, rfl⟩ := exists_depth hlen
      exact .parens hopening (ih _ _ _ htyped (Nat.le_of_succ_le_succ hlen)) hclose
  | list hword =>
      intro bound c depth htyped hlen
      obtain ⟨depth, rfl⟩ := exists_depth hlen
      exact .list hword
  | nested hsource ih =>
      intro bound c depth htyped hlen
      have hlt := hsource.length_lt
      obtain ⟨depth, rfl⟩ := Nat.exists_eq_add_one_of_ne_zero (n := depth) (by omega)
      exact (ih _ _ _ htyped hlen).nested
  | comprehension hopening hname hcolon hsource hpipe hbody hclose ihs ihb =>
      intro bound c depth htyped hlen
      cases htyped with | comprehension hsourceTyped hbodyTyped =>
      obtain ⟨depth, rfl⟩ := exists_depth hlen
      have hlt := hsource.length_lt
      simp only [List.length_cons] at hlen hlt
      exact .comprehension hopening hname hcolon (ihs _ _ _ hsourceTyped (by omega)) hpipe
        (ihb _ _ _ hbodyTyped (by omega)) hbodyTyped.kind?_eq hclose

end Parser

end DiagramFilter
