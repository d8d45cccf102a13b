import DiagramFilter.Proofs.Embedding.Enclosing
import DiagramFilter.Proofs.Layout.Scanning
import DiagramFilter.Proofs.Placing.Contexts

/-!
# Operands in rows of tokens

The token `0` stands in a row for any operand: where it is replaced by the tokens of another
operand, the row that was a phrase is one, and of the same expression with that operand in the place
of the number (`Derives.filled`).

In a phrase no two words or numbers stand side by side (`Derives.spaced`).  So where the text of an
operand takes the place of a `0`, nothing beside it can run together with it.
-/

namespace DiagramFilter

/-- The kinds of tokens that run together when nothing is between them. -/
def TokenKind.isWordOrNumber : TokenKind → Bool
  | number | name | bool _ | quantifier _ | list _ => true
  | _ => false

/-- A row in which no two words or numbers stand side by side. -/
def Spaced (ts : List Token) : Prop :=
  ts.IsChain fun t t' => t.kind.isWordOrNumber = true → t'.kind.isWordOrNumber = false

namespace Spaced

variable {t : Token} {ts : List Token}

/-- What stands behind a word or number is neither. -/
theorem head (h : Spaced (t :: ts)) (ht : t.kind.isWordOrNumber = true) :
    ∀ u ∈ ts.head?, u.kind.isWordOrNumber = false :=
  fun u hu => (List.isChain_cons.mp h).1 u hu ht

/-- Behind the first token the others are spaced too. -/
theorem tail (h : Spaced (t :: ts)) : Spaced ts :=
  (List.isChain_cons.mp h).2

end Spaced

/-- The tokens before `rest` in `ts` are such a row. -/
def SpacedFront (ts rest : List Token) : Prop :=
  ∃ front, ts = front ++ rest ∧ Spaced front

namespace SpacedFront

variable {t : Token} {ts mid rest : List Token}

/-- Nothing in front of a row is spaced. -/
theorem nil : SpacedFront rest rest :=
  ⟨[], rfl, List.isChain_nil⟩

/-- Anything may stand before what does not start with a word or number. -/
theorem cons (ht : ∀ u ∈ ts.head?, t.kind.isWordOrNumber = true → u.kind.isWordOrNumber = false)
    (h : SpacedFront ts rest) : SpacedFront (t :: ts) rest := by
  obtain ⟨front, rfl, hfront⟩ := h
  refine ⟨t :: front, rfl, List.isChain_cons.mpr ⟨fun u hu => ht u ?_, hfront⟩⟩
  rw [List.head?_append, hu]
  rfl

/-- A token that is neither a word nor a number may stand before anything. -/
theorem sign (ht : t.kind.isWordOrNumber = false) (h : SpacedFront ts rest) :
    SpacedFront (t :: ts) rest :=
  h.cons fun _ _ hword => by simp [ht] at hword

/-- So may it between two rows. -/
theorem join (h : SpacedFront ts (t :: mid)) (ht : t.kind.isWordOrNumber = false)
    (h' : SpacedFront mid rest) : SpacedFront ts rest := by
  obtain ⟨front, rfl, hfront⟩ := h
  obtain ⟨back, rfl, hback⟩ := h'
  refine ⟨front ++ t :: back, by simp, List.isChain_append.mpr ⟨hfront, ?_, ?_⟩⟩
  · exact List.isChain_cons.mpr ⟨fun _ _ hword => by simp [ht] at hword, hback⟩
  · intro _ _ u hu _
    obtain rfl : t = u := by simpa using hu
    exact ht

/-- And behind a row. -/
theorem close (h : SpacedFront ts (t :: rest)) (ht : t.kind.isWordOrNumber = false) :
    SpacedFront ts rest :=
  h.join ht .nil

/-- One token is such a row. -/
theorem single (t : Token) (rest : List Token) : SpacedFront (t :: rest) rest :=
  ⟨[t], rfl, List.isChain_singleton t⟩

end SpacedFront

/-- **Words and numbers stand apart.**  In a phrase there is another token between any two of
them. -/
theorem Derives.spaced {n : Nonterminal} {ts rest : List Token} {e : Expr}
    (h : Derives n ts e rest) : SpacedFront ts rest := by
  induction h with
  | single _ ih | grouped _ ih | operand _ ih | primary _ ih | nested _ ih => exact ih
  | pair _ hsign _ iha ihb | more _ hsign _ iha ihb => exact iha.join (by rw [hsign]; rfl) ihb
  | joined _ hsign _ iha ihb =>
      refine iha.join ?_ ihb
      rcases Level.operator?_cases hsign with ⟨op, hkind, -⟩ | ⟨op, hkind, -⟩ <;> rw [hkind] <;> rfl
  | not hsign _ ih | neg hsign _ ih | nonEmpty hsign _ ih | count hsign _ ih =>
      exact ih.sign (by rw [hsign]; rfl)
  | number | bool | var | list => exact .single _ _
  | tag hmarker | tagNumber hmarker => exact .sign (by rw [hmarker]; rfl) (.single _ _)
  | quantified hword hbinder ih =>
      cases hbinder with
      | comprehension hopening => exact ih.cons (by simp [hopening, TokenKind.isWordOrNumber])
  | focus hname hopening _ hclose ih =>
      exact .join (.single _ _) (by rw [hopening]; rfl) (ih.close (by rw [hclose]; rfl))
  | parens hopening _ hclose ih =>
      exact .sign (by rw [hopening]; rfl) (ih.close (by rw [hclose]; rfl))
  | comprehension hopening hname hcolon _ hpipe _ hclose ihs ihb =>
      have hinside := ihs.join (by rw [hpipe]; rfl) (ihb.close (by rw [hclose]; rfl))
      exact .sign (by rw [hopening]; rfl) (.join (.single _ _) (by rw [hcolon]; rfl) hinside)

/-- A name or keyword is no number. -/
theorem TokenKind.ne_number_of_word {kind : TokenKind}
    (h : kind = .name ∨ kind.isKeyword = true) : kind ≠ .number := by
  rintro rfl
  simp [isKeyword] at h

/-- The second row has the tokens of the first one, wherever they stand, but for one number `0`, in
the place of which it has other tokens.  `holed` says whether that number is in the row. -/
inductive Filled (us : List Token) : (holed : Bool) → List Token → List Token → Prop
  | nil : Filled us false [] []
  | cons {holed : Bool} {t t' : Token} {ts ts' : List Token} (hkind : t'.kind = t.kind)
      (htext : t'.text = t.text) (hrest : Filled us holed ts ts') :
      Filled us holed (t :: ts) (t' :: ts')
  | hole {t : Token} {ts ts' : List Token} (hkind : t.kind = .number) (htext : t.text = "0")
      (hrest : Filled us false ts ts') : Filled us true (t :: ts) (us ++ ts')

namespace Filled

variable {us ts ts' : List Token} {t : Token} {holed : Bool}

/-- A token that is no number is in both rows. -/
theorem uncons (h : Filled us holed (t :: ts) ts') (ht : t.kind ≠ .number) :
    ∃ t' us', ts' = t' :: us' ∧ t'.kind = t.kind ∧ t'.text = t.text ∧ Filled us holed ts us' := by
  cases h with
  | cons hkind htext hrest => exact ⟨_, _, rfl, hkind, htext, hrest⟩
  | hole hkind => exact absurd hkind ht

/-- A filled row begins with no token of a kind, if neither the operand nor the row does. -/
theorem head_ne (h : Filled us holed ts ts') {kind : TokenKind}
    (hus : ∃ u vs, us = u :: vs ∧ u.kind ≠ kind) (hts : ∀ t ∈ ts.head?, t.kind ≠ kind) :
    ∀ t ∈ ts'.head?, t.kind ≠ kind := by
  cases h with
  | nil => exact hts
  | cons hkind => simpa [hkind] using hts
  | hole =>
      obtain ⟨u, vs, rfl, hu⟩ := hus
      simpa using hu

end Filled

/-- The second expression is the first one with an operand in the place of a number `0`, or is the
first one itself.  `holed` and `holed'` say whether the number is still ahead, in front of the
expression and behind it. -/
inductive Fills (operand : Expr) : (holed holed' : Bool) → Expr → Expr → Prop
  | same (holed : Bool) (e : Expr) : Fills operand holed holed e e
  | filled (context : Expr.Context) :
      Fills operand true false (context.fill (.number 0)) (context.fill operand)

namespace Fills

variable {operand a a' b b' : Expr} {p q r : Bool}

/-- An expression around the place is around the operand. -/
theorem map (h : Fills operand p q a a') (inner : Expr.Context → Expr.Context)
    (make : Expr → Expr) (hmake : ∀ context e, (inner context).fill e = make (context.fill e)) :
    Fills operand p q (make a) (make a') := by
  cases h with
  | same => exact .same _ _
  | filled context =>
      rw [← hmake, ← hmake]
      exact .filled _

/-- Of two expressions in a row at most one has the operand. -/
theorem map₂ (ha : Fills operand p r a a') (hb : Fills operand r q b b')
    (left : Expr.Context → Expr → Expr.Context) (right : Expr → Expr.Context → Expr.Context)
    (make : Expr → Expr → Expr)
    (hleft : ∀ context b e, (left context b).fill e = make (context.fill e) b)
    (hright : ∀ a context e, (right a context).fill e = make a (context.fill e)) :
    Fills operand p q (make a b) (make a' b') := by
  cases ha with
  | same => exact hb.map (right a) (make a) (hright a)
  | filled context =>
      cases hb with
      | same =>
          rw [← hleft, ← hleft]
          exact .filled _

/-- An operand in front of those of a group. -/
theorem more {c : Connective} {es : List Expr} {group : Expr} (ha : Fills operand p r a a')
    (hes : Fills operand r q (.junction c es) group) :
    ∃ es', group = .junction c es' ∧
      Fills operand p q (.junction c (a :: es)) (.junction c (a' :: es')) := by
  generalize hjunction : Expr.junction c es = e at hes
  cases hes with
  | same =>
      subst hjunction
      exact ⟨es, rfl, ha.map (.junction c [] · es) (fun x => .junction c (x :: es))
        fun _ _ => rfl⟩
  | filled context =>
      cases ha with
      | same =>
          cases context with
          | junction c before inner behind =>
              cases hjunction
              exact ⟨_, rfl, .filled (.junction c (a :: before) inner behind)⟩
          | _ => cases hjunction

/-- A quantifier in front of a binder. -/
theorem quantified {name : String} {source body binder : Expr} (quantifier : Quantifier)
    (h : Fills operand p q (.comprehension name source body) binder) :
    ∃ source' body', binder = .comprehension name source' body' ∧
      Fills operand p q (.quantified quantifier name source body)
        (.quantified quantifier name source' body') := by
  generalize hbinder : Expr.comprehension name source body = e at h
  cases h with
  | same =>
      subst hbinder
      exact ⟨source, body, rfl, .same _ _⟩
  | filled context =>
      cases context with
      | comprehensionSource name inner body =>
          cases hbinder
          exact ⟨_, _, rfl, .filled (.quantifiedSource quantifier name inner body)⟩
      | comprehensionBody name source inner =>
          cases hbinder
          exact ⟨_, _, rfl, .filled (.quantifiedBody quantifier name source inner)⟩
      | _ => cases hbinder

end Fills

/-- **Operands in rows of tokens.**  A phrase in a row is one in every row in which the tokens of an
operand stand for a number `0` of it, and spells the same expression with that operand. -/
theorem Derives.filled {n : Nonterminal} {ts rest us : List Token} {e operand : Expr}
    (h : Derives n ts e rest) (hus : ∀ tail, Derives .primary (us ++ tail) operand tail)
    (hless : ∃ u vs, us = u :: vs ∧ u.kind ≠ .compare .lt) {p : Bool} {ts' : List Token}
    (hrow : Filled us p ts ts') :
    ∃ q e' rest', Derives n ts' e' rest' ∧ Filled us q rest rest' ∧ Fills operand p q e e' := by
  -- The place is at most in one of the parts: from part to part it is ahead (`p`) or behind (`q`).
  induction h generalizing p ts' with
  | single _ ih =>
      obtain ⟨q, e', rest', he, hrest, hfills⟩ := ih hrow
      exact ⟨q, e', rest', .single he, hrest, hfills⟩
  | grouped _ ih =>
      obtain ⟨q, e', rest', he, hrest, hfills⟩ := ih hrow
      exact ⟨q, e', rest', .grouped he, hrest, hfills⟩
  | operand _ ih =>
      obtain ⟨q, e', rest', he, hrest, hfills⟩ := ih hrow
      exact ⟨q, e', rest', .operand he, hrest, hfills⟩
  | primary _ ih =>
      obtain ⟨q, e', rest', he, hrest, hfills⟩ := ih hrow
      exact ⟨q, e', rest', .primary he, hrest, hfills⟩
  | nested _ ih =>
      obtain ⟨q, e', rest', he, hrest, hfills⟩ := ih hrow
      exact ⟨q, e', rest', .nested he, hrest, hfills⟩
  | @pair closing c _ _ _ _ a b _ hsign _ iha ihb =>
      obtain ⟨r, a', _, ha, hmid, hfillsa⟩ := iha hrow
      obtain ⟨sign', mid', rfl, hkind, -, hmid⟩ := hmid.uncons (by simp [hsign])
      obtain ⟨q, b', rest', hb, hrest, hfillsb⟩ := ihb hmid
      refine ⟨q, _, rest', .pair ha (hkind.trans hsign) hb, hrest, ?_⟩
      exact hfillsa.map₂ hfillsb (fun inner b => .junction c [] inner [b])
        (fun a inner => .junction c [a] inner []) (fun a b => .junction c [a, b])
        (fun _ _ _ => rfl) fun _ _ _ => rfl
  | more _ hsign _ iha ihes =>
      obtain ⟨r, a', _, ha, hmid, hfillsa⟩ := iha hrow
      obtain ⟨sign', mid', rfl, hkind, -, hmid⟩ := hmid.uncons (by simp [hsign])
      obtain ⟨q, _, rest', hes, hrest, hfillses⟩ := ihes hmid
      obtain ⟨es', rfl, hfills⟩ := hfillsa.more hfillses
      exact ⟨q, _, rest', .more ha (hkind.trans hsign) hes, hrest, hfills⟩
  | joined _ hsign _ iha ihb =>
      obtain ⟨r, a', _, ha, hmid, hfillsa⟩ := iha hrow
      have hnumber : _ ≠ TokenKind.number := fun hnumber => by
        rcases Level.operator?_cases hsign with ⟨op, hkind, -⟩ | ⟨op, hkind, -⟩ <;>
          cases hkind.symm.trans hnumber
      obtain ⟨sign', mid', rfl, hkind, -, hmid⟩ := hmid.uncons hnumber
      obtain ⟨q, b', rest', hb, hrest, hfillsb⟩ := ihb hmid
      refine ⟨q, _, rest', .joined ha (hkind ▸ hsign) hb, hrest, ?_⟩
      rcases Level.operator?_cases hsign with ⟨op, -, rfl⟩ | ⟨op, -, rfl⟩
      · exact hfillsa.map₂ hfillsb (.compareLeft op) (.compareRight op) (.compare op)
          (fun _ _ _ => rfl) fun _ _ _ => rfl
      · exact hfillsa.map₂ hfillsb (.arithLeft op) (.arithRight op) (.arith op)
          (fun _ _ _ => rfl) fun _ _ _ => rfl
  | not hsign _ ih =>
      obtain ⟨sign', ts', rfl, hkind, -, hrow⟩ := hrow.uncons (by simp [hsign])
      obtain ⟨q, e', rest', he, hrest, hfills⟩ := ih hrow
      exact ⟨q, _, rest', .not (hkind.trans hsign) he, hrest, hfills.map .not .not fun _ _ => rfl⟩
  | neg hsign _ ih =>
      obtain ⟨sign', ts', rfl, hkind, -, hrow⟩ := hrow.uncons (by simp [hsign])
      obtain ⟨q, e', rest', he, hrest, hfills⟩ := ih hrow
      exact ⟨q, _, rest', .neg (hkind.trans hsign) he, hrest, hfills.map .neg .neg fun _ _ => rfl⟩
  | @number t rest ht =>
      cases hrow with
      | @cons _ _ t' _ us' hkind htext hrest =>
          have hvalue : Parser.numberValue t' = Parser.numberValue t := by
            rw [Parser.numberValue, Parser.numberValue, htext]
          refine ⟨p, _, us', .number (hkind.trans ht), hrest, ?_⟩
          rw [hvalue]
          exact .same _ _
      | @hole _ _ us' _ htext hrest =>
          have hvalue : Parser.numberValue t = 0 := by
            rw [Parser.numberValue, htext, show "0".toList = ['0'] from rfl,
              spellsBits_zero.readDouble?]
            rfl
          rw [hvalue]
          exact ⟨false, operand, us', hus us', hrest, .filled .hole⟩
  | bool ht =>
      obtain ⟨t', rest', rfl, hkind, -, hrest⟩ := hrow.uncons (by simp [ht])
      exact ⟨p, _, rest', .bool (hkind.trans ht), hrest, .same _ _⟩
  | tag hmarker ht =>
      obtain ⟨marker', us', rfl, hkind, -, hrow⟩ := hrow.uncons (by simp [hmarker])
      obtain ⟨t', rest', rfl, hkind', htext, hrest⟩ := hrow.uncons (TokenKind.ne_number_of_word ht)
      rw [← htext]
      exact ⟨p, _, rest', .tag (hkind.trans hmarker) (by rwa [hkind']), hrest, .same _ _⟩
  | tagNumber hmarker ht =>
      obtain ⟨marker', us', rfl, hkind, -, hrow⟩ := hrow.uncons (by simp [hmarker])
      obtain ⟨t', rest', rfl, hkind', htext, hrest⟩ := hrow.uncons (TokenKind.ne_number_of_word ht)
      rw [← htext]
      exact ⟨p, _, rest', .tagNumber (hkind.trans hmarker) (by rwa [hkind']), hrest, .same _ _⟩
  | nonEmpty hmarker _ ih =>
      obtain ⟨marker', ts', rfl, hkind, -, hrow⟩ := hrow.uncons (by simp [hmarker])
      obtain ⟨q, e', rest', he, hrest, hfills⟩ := ih hrow
      exact ⟨q, _, rest', .nonEmpty (hkind.trans hmarker) he, hrest,
        hfills.map .nonEmpty .nonEmpty fun _ _ => rfl⟩
  | count hmarker _ ih =>
      obtain ⟨marker', ts', rfl, hkind, -, hrow⟩ := hrow.uncons (by simp [hmarker])
      obtain ⟨q, e', rest', he, hrest, hfills⟩ := ih hrow
      exact ⟨q, _, rest', .count (hkind.trans hmarker) he, hrest,
        hfills.map .count .count fun _ _ => rfl⟩
  | quantified hword _ ih =>
      obtain ⟨word', ts', rfl, hkind, -, hrow⟩ := hrow.uncons (by simp [hword])
      obtain ⟨q, _, rest', hbinder, hrest, hfills⟩ := ih hrow
      obtain ⟨source', body', rfl, hfills⟩ := hfills.quantified _
      exact ⟨q, _, rest', .quantified (hkind.trans hword) hbinder, hrest, hfills⟩
  | focus hname hopening _ hclose ih =>
      obtain ⟨name', us', rfl, hkind, htext, hrow⟩ := hrow.uncons (by simp [hname])
      obtain ⟨opening', us', rfl, hkind', -, hrow⟩ := hrow.uncons (by simp [hopening])
      obtain ⟨q, e', _, he, hrest, hfills⟩ := ih hrow
      obtain ⟨close', rest', rfl, hkind'', -, hrest⟩ := hrest.uncons (by simp [hclose])
      rw [← htext]
      exact ⟨q, _, rest', .focus (hkind.trans hname) (hkind'.trans hopening) he
        (hkind''.trans hclose), hrest, hfills.map (.focus _) (.focus _) fun _ _ => rfl⟩
  | var hname hrest =>
      obtain ⟨name', rest', rfl, hkind, htext, hrow⟩ := hrow.uncons (by simp [hname])
      rw [← htext]
      exact ⟨p, _, rest', .var (hkind.trans hname) (hrow.head_ne hless hrest), hrow, .same _ _⟩
  | parens hopening _ hclose ih =>
      obtain ⟨opening', us', rfl, hkind, -, hrow⟩ := hrow.uncons (by simp [hopening])
      obtain ⟨q, e', _, he, hrest, hfills⟩ := ih hrow
      obtain ⟨close', rest', rfl, hkind', -, hrest⟩ := hrest.uncons (by simp [hclose])
      exact ⟨q, _, rest', .parens (hkind.trans hopening) he (hkind'.trans hclose), hrest, hfills⟩
  | list hword =>
      obtain ⟨word', rest', rfl, hkind, -, hrest⟩ := hrow.uncons (by simp [hword])
      exact ⟨p, _, rest', .list (hkind.trans hword), hrest, .same _ _⟩
  | comprehension hopening hname hcolon _ hpipe _ hclose ihs ihb =>
      obtain ⟨opening', us', rfl, hkind, -, hrow⟩ := hrow.uncons (by simp [hopening])
      obtain ⟨name', us', rfl, hkind', htext, hrow⟩ := hrow.uncons (by simp [hname])
      obtain ⟨colon', us', rfl, hkind'', -, hrow⟩ := hrow.uncons (by simp [hcolon])
      obtain ⟨r, source', _, hsource, hmid, hfillss⟩ := ihs hrow
      obtain ⟨pipe', mid', rfl, hkindPipe, -, hmid⟩ := hmid.uncons (by simp [hpipe])
      obtain ⟨q, body', _, hbody, hrest, hfillsb⟩ := ihb hmid
      obtain ⟨close', rest', rfl, hkindClose, -, hrest⟩ := hrest.uncons (by simp [hclose])
      rw [← htext]
      exact ⟨q, _, rest', .comprehension (hkind.trans hopening) (hkind'.trans hname)
        (hkind''.trans hcolon) hsource (hkindPipe.trans hpipe) hbody (hkindClose.trans hclose),
        hrest, hfillss.map₂ hfillsb (.comprehensionSource _) (.comprehensionBody _)
          (.comprehension _) (fun _ _ _ => rfl) fun _ _ _ => rfl⟩

/-- An operand does not start with a `<`. -/
theorem Derives.head_not_less {ts rest : List Token} {e : Expr} (h : Derives .primary ts e rest) :
    ∃ u us, ts = u :: us ∧ u.kind ≠ .compare .lt := by
  cases h with
  | number hfirst | bool hfirst | tag hfirst | tagNumber hfirst | nonEmpty hfirst | count hfirst
  | quantified hfirst | focus hfirst | var hfirst | parens hfirst =>
      exact ⟨_, _, rfl, by simp [hfirst]⟩

/-- **Operands in rules.**  A row that spells a rule spells the same rule with an operand in the
place of a number `0`, if it has the tokens of the operand in the place of the number. -/
theorem Spells.filled {ts ts' us : List Token} {e operand : Expr} (h : Spells ts e)
    (hus : ∀ tail, Derives .primary (us ++ tail) operand tail)
    (hoperand : ∀ bound, Typed bound operand (.value .numeric)) (hrow : Filled us true ts ts') :
    ∃ context : Expr.Context, e = context.fill (.number 0) ∧ Spells ts' (context.fill operand) := by
  obtain ⟨last, hlast, hderives⟩ := h.derives
  have hless := (hus []).head_not_less
  rw [List.append_nil] at hless
  obtain ⟨q, e', rest', he, hrest, hfills⟩ := hderives.filled hus hless hrow
  obtain ⟨last', rest, rfl, hkind, -, hnil⟩ := hrest.uncons (by simp [hlast])
  cases hnil
  cases hfills with
  | filled context =>
      have hnumber : ∀ {bound c}, Typed bound (.number 0) c → c = .value .numeric := by
        intro bound c h
        cases h
        rfl
      exact ⟨context, rfl, ⟨last', hkind.trans hlast, he⟩,
        context.typed_fill hnumber hoperand h.typed⟩

end DiagramFilter
