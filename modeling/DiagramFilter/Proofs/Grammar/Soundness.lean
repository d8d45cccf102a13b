import DiagramFilter.Outcome
import DiagramFilter.Proofs.Grammar.Basic

/-!
# What the parser reads is derived

Every expression that the parser gives is spelled by the tokens that it passes over, and it is
typed in the bound names.  Each level of the parser is sound if the parser of its operands is, so
the induction on the nesting depth has only operands and lists to look at
(`Parser.operand_source_sound`).
-/

namespace DiagramFilter

namespace Parser

variable {bound : List String} {ts rest : List Token} {t : Token} {e a b : Expr} {k k' : Kind}

/-- An operand is accepted if it is of the kind that is asked for. -/
theorem require_eq_ok {role : Role} {wanted : Kind} {u : Unit} :
    require role wanted e t = .ok u ↔ e.kind? = some wanted := by
  unfold require
  split <;> simp_all

/-- A token is passed over if it is of the kind that is asked for. -/
theorem expect_eq_ok {kind : TokenKind} {what : Expected} (hkind : kind ≠ .finish) :
    expect kind what ts = .ok rest ↔ ∃ t, ts = t :: rest ∧ t.kind = kind := by
  cases ts with
  | nil => simp [expect, peek, formError, hkind.symm]
  | cons t ts =>
      by_cases h : t.kind = kind
      · simp [expect, peek, h]
      · simp only [expect, peek, formError, List.headD_cons, h, if_false, reduceCtorEq, false_iff]
        rintro ⟨t', hts, ht'⟩
        cases hts
        exact h ht'

/-- A name is accepted if it is bound. -/
theorem requireBound_eq_ok {name : String} {u : Unit} :
    requireBound bound name = .ok u ↔ name ∈ bound := by
  unfold requireBound
  split <;> simp_all

/-- The next token stands at the front, if it is not the end of the rule. -/
theorem eq_cons_of_peek {kind : TokenKind} (h : (peek ts).kind = kind) (hkind : kind ≠ .finish) :
    ts = peek ts :: ts.tail := by
  cases ts with
  | nil => exact absurd h.symm hkind
  | cons t ts => rfl

/-- An expression whose kind is known is typed with it. -/
theorem typed_of_kind? (h : Typed bound e (.value k)) (hk : e.kind? = some k') :
    Typed bound e (.value k') := by
  rw [h.kind?_eq] at hk
  exact Option.some.inj hk ▸ h

/-- Arithmetic is made of two numbers. -/
theorem joinArith_eq_ok {op : ArithOp} :
    joinArith op t a b = .ok e ↔
      a.kind? = some .numeric ∧ b.kind? = some .numeric ∧ e = .arith op a b := by
  simp only [joinArith, bind_eq_ok, require_eq_ok, exists_const, pure, Except.pure,
    Except.ok.injEq, eq_comm (a := e)]

/-- A relation is made of two numbers. -/
theorem joinRelation_eq_ok {op : CompareOp} :
    joinRelation op t a b = .ok e ↔
      a.kind? = some .numeric ∧ b.kind? = some .numeric ∧ e = .compare op a b := by
  simp only [joinRelation, bind_eq_ok, require_eq_ok, exists_const, pure, Except.pure,
    Except.ok.injEq, eq_comm (a := e)]

/-- An equality is made of two operands of one kind. -/
theorem joinEquality_eq_ok {op : CompareOp} :
    joinEquality op t a b = .ok e ↔ a.kind? = b.kind? ∧ e = .compare op a b := by
  unfold joinEquality
  split <;> simp_all [eq_comm]

/-- The operators of a level and of the grammar are the same, each with its way to join. -/
theorem join?_cases {closing : Bool} {l : Level} {join : Join} (h : l.join? closing t = some join) :
    (∃ op, l.operator? closing t.kind = some (.arith op) ∧ join = joinArith op t) ∨
      (∃ op : CompareOp, op.isEquality = false ∧ l.operator? closing t.kind = some (.compare op) ∧
        join = joinRelation op t) ∨
      (∃ op : CompareOp, op.isEquality = true ∧ l.operator? closing t.kind = some (.compare op) ∧
        join = joinEquality op t) := by
  obtain ⟨kind, text, position⟩ := t
  cases l with
  | equality =>
      simp only [Level.join?, equalityJoin?] at h
      split at h <;> cases h <;>
        exact Or.inr (Or.inr ⟨_, rfl, rfl, rfl⟩)
  | relation =>
      simp only [Level.join?, relationJoin?] at h
      cases closing <;> split at h <;> cases h <;>
        exact Or.inr (Or.inl ⟨_, rfl, rfl, rfl⟩)
  | term =>
      simp only [Level.join?, termJoin?] at h
      split at h <;> cases h <;> exact Or.inl ⟨_, rfl, rfl⟩
  | factor =>
      simp only [Level.join?, factorJoin?] at h
      split at h <;> cases h <;> exact Or.inl ⟨_, rfl, rfl⟩

/-- Where a level has no operator, neither has the grammar, and conversely. -/
theorem join?_eq_none {closing : Bool} {l : Level} :
    l.join? closing t = none ↔ l.operator? closing t.kind = none := by
  obtain ⟨kind, text, position⟩ := t
  cases l <;>
    simp only [Level.join?, equalityJoin?, relationJoin?, termJoin?, factorJoin?] <;>
    split <;> simp_all [Level.operator?]

/-- What an operator of a level makes of typed operands is what the grammar says, and typed. -/
theorem join?_sound {closing : Bool} {l : Level} {join : Join}
    (hjoin : l.join? closing t = some join) (hok : join a b = .ok e)
    (ha : Typed bound a (.value k)) (hb : Typed bound b (.value k')) :
    ∃ make, l.operator? closing t.kind = some make ∧ e = make a b ∧
      ∃ k, Typed bound e (.value k) := by
  rcases join?_cases hjoin with ⟨op, hsign, rfl⟩ | ⟨op, hop, hsign, rfl⟩ | ⟨op, hop, hsign, rfl⟩
  · obtain ⟨hka, hkb, rfl⟩ := joinArith_eq_ok.mp hok
    exact ⟨_, hsign, rfl, _, .arith (typed_of_kind? ha hka) (typed_of_kind? hb hkb)⟩
  · obtain ⟨hka, hkb, rfl⟩ := joinRelation_eq_ok.mp hok
    exact ⟨_, hsign, rfl, _, .relation hop (typed_of_kind? ha hka) (typed_of_kind? hb hkb)⟩
  · obtain ⟨hk, rfl⟩ := joinEquality_eq_ok.mp hok
    exact ⟨_, hsign, rfl, _, .equality hop ha (typed_of_kind? hb (hk ▸ ha.kind?_eq))⟩

/-- A parser reads phrases of a nonterminal, with names that are bound. -/
def Sound (n : Nonterminal) (bound : List String) (p : Reader Expr) : Prop :=
  ∀ ts e rest, p ts = .ok (e, rest) → Derives n ts e rest ∧ ∃ k, Typed bound e (.value k)

variable {closing : Bool} {p : Reader Expr}

/-- The loop of a level keeps a phrase of the level on its left. -/
theorem binaryTail_sound {l : Level} (hp : Sound (l.operand closing) bound p) {rounds : Nat}
    {start : List Token} {left : Expr} (hleft : Derives (.binary closing l) start left ts)
    (htyped : ∃ k, Typed bound left (.value k))
    (hok : binaryTail (l.join? closing) p rounds left ts = .ok (e, rest)) :
    Derives (.binary closing l) start e rest ∧ ∃ k, Typed bound e (.value k) := by
  induction rounds generalizing left ts with
  | zero =>
      cases hok
      exact ⟨hleft, htyped⟩
  | succ rounds ih =>
      rw [binaryTail] at hok
      split at hok
      · cases hok
        exact ⟨hleft, htyped⟩
      · rename_i join hjoin
        obtain ⟨⟨right, after⟩, hright, hok⟩ := bind_eq_ok.mp hok
        obtain ⟨joined, hjoined, hok⟩ := bind_eq_ok.mp hok
        obtain ⟨hderives, k', hk'⟩ := hp _ _ _ hright
        obtain ⟨k, hk⟩ := htyped
        obtain ⟨make, hsign, rfl, htyped⟩ := join?_sound hjoin hjoined hk hk'
        have hts : ts = peek ts :: ts.tail := by
          refine eq_cons_of_peek rfl fun hfinish => ?_
          rw [hfinish, Level.operator?_finish] at hsign
          cases hsign
        rw [hts] at hleft
        exact ih (hleft.joined hsign hderives) htyped hok

/-- A level reads phrases of its own, if its operands are read as phrases. -/
theorem binaryLevel_sound {l : Level} (hp : Sound (l.operand closing) bound p) :
    Sound (.binary closing l) bound (binaryLevel (l.join? closing) p) := by
  intro ts e rest hok
  obtain ⟨⟨left, after⟩, hleft, hok⟩ := bind_eq_ok.mp hok
  obtain ⟨hderives, htyped⟩ := hp _ _ _ hleft
  exact binaryTail_sound hp hderives.operand htyped hok

/-- The loop of a connective reads the rest of a group, if there is more than one operand. -/
theorem junctionTail_sound {c : Connective} (hp : Sound (c.operand closing) bound p) {rounds : Nat}
    {start : List Token} {es : List Expr} (ha : Derives (c.operand closing) start a ts)
    (hok : junctionTail c p rounds a ts = .ok (es, rest)) :
    (es = [] ∧ rest = ts) ∨
      (Derives (.group closing c) start (.junction c (a :: es)) rest ∧
        a.kind? = some .boolean ∧ ∀ e ∈ es, Typed bound e (.value .boolean)) := by
  induction rounds generalizing start a ts es with
  | zero =>
      cases hok
      exact Or.inl ⟨rfl, rfl⟩
  | succ rounds ih =>
      rw [junctionTail] at hok
      split at hok
      · rename_i hsign
        simp only [bind_eq_ok, require_eq_ok, exists_const] at hok
        obtain ⟨⟨b, after⟩, hb, hka, hkb, ⟨more, final⟩, hmore, hok⟩ := hok
        cases hok
        obtain ⟨hderives, k, hk⟩ := hp _ _ _ hb
        have hbool : Typed bound b (.value .boolean) := typed_of_kind? hk hkb
        rw [eq_cons_of_peek hsign (by simp)] at ha
        refine Or.inr ?_
        rcases ih hderives hmore with ⟨rfl, rfl⟩ | ⟨hgroup, -, hmore⟩
        · exact ⟨ha.pair hsign hderives, hka, by simpa using hbool⟩
        · exact ⟨ha.more hsign hgroup, hka, by simpa using ⟨hbool, hmore⟩⟩
      · cases hok
        exact Or.inl ⟨rfl, rfl⟩

/-- The level of a connective reads phrases of its own, if its operands are read as phrases. -/
theorem junctionLevel_sound {c : Connective} (hp : Sound (c.operand closing) bound p) :
    Sound (.junction closing c) bound (junctionLevel c p) := by
  intro ts e rest hok
  obtain ⟨⟨first, after⟩, hfirst, hok⟩ := bind_eq_ok.mp hok
  obtain ⟨⟨more, final⟩, hmore, hok⟩ := bind_eq_ok.mp hok
  cases hok
  obtain ⟨hderives, k, hk⟩ := hp _ _ _ hfirst
  rcases junctionTail_sound hp hderives hmore with ⟨rfl, rfl⟩ | ⟨hgroup, hkind, htyped⟩
  · exact ⟨hderives.single, k, hk⟩
  · have hne : more.isEmpty = false := by
      cases more with
      | nil => cases hgroup with | more ha hsign hes => cases hes
      | cons b more => rfl
    simp only [hne]
    exact ⟨hgroup.grouped, _, .junction (by simpa using ⟨typed_of_kind? hk hkind, htyped⟩)⟩

/-- All levels of operators above a parser of operands. -/
theorem levels_sound (hp : Sound .unary bound p) :
    Sound (.expression closing) bound (levels closing p) := by
  have hfactor : Sound (.binary closing .factor) bound _ := binaryLevel_sound hp
  have hterm : Sound (.binary closing .term) bound _ := binaryLevel_sound hfactor
  have hrelation : Sound (.binary closing .relation) bound _ := binaryLevel_sound hterm
  have hequality : Sound (.binary closing .equality) bound _ := binaryLevel_sound hrelation
  have hand : Sound (.junction closing .and) bound _ := junctionLevel_sound hequality
  exact junctionLevel_sound (c := .or) hand

/-- A parser reads lists, with names that are bound. -/
def SoundList (bound : List String) (p : Reader Expr) : Prop :=
  ∀ ts e rest, p ts = .ok (e, rest) → Derives .list ts e rest ∧ Typed bound e .list

/-- The name behind a marker is a name or a keyword. -/
theorem tagName_eq_ok {marker : Token} {name : String} :
    tagName marker ts = .ok (name, rest) ↔
      ∃ t, ts = t :: rest ∧ t.text = name ∧ (t.kind = .name ∨ t.kind.isKeyword = true) := by
  cases ts with
  | nil => simp [tagName, peek, formError, TokenKind.isKeyword]
  | cons t ts =>
      simp only [tagName, peek, formError, List.headD_cons, List.tail_cons, Bool.or_eq_true]
      grind

/-- A binder is read as a comprehension of its parts. -/
theorem binding_sound {source : Reader Expr} {body : String → Reader Expr} {name : String}
    (hsource : SoundList bound source)
    (hbody : ∀ name, Sound (.expression false) (name :: bound) (body name))
    (hok : binding source body ts = .ok ((name, a, b), rest)) :
    Derives .comprehension ts (.comprehension name a b) rest ∧ Typed bound a .list ∧
      Typed (name :: bound) b (.value .boolean) := by
  simp only [binding, bind_eq_ok] at hok
  obtain ⟨afterOpening, hexpect, hok⟩ := hok
  obtain ⟨opening, rfl, hopening⟩ := (expect_eq_ok (by simp)).mp hexpect
  split at hok
  · cases hok
  simp only [bind_eq_ok, require_eq_ok, exists_const] at hok
  obtain ⟨afterName, hname, afterColon, hcolon, ⟨list, afterList⟩, hlist, hok⟩ := hok
  obtain ⟨afterPipe, hpipe, ⟨e, afterBody⟩, he, hkind, final, hclose, hok⟩ := hok
  obtain ⟨var, rfl, hvarKind⟩ := (expect_eq_ok (by simp)).mp hname
  obtain ⟨colon, rfl, hcolonKind⟩ := (expect_eq_ok (by simp)).mp hcolon
  obtain ⟨pipe, rfl, hpipeKind⟩ := (expect_eq_ok (by simp)).mp hpipe
  obtain ⟨close, rfl, hcloseKind⟩ := (expect_eq_ok (by simp)).mp hclose
  cases hok
  obtain ⟨hderives, htyped⟩ := hsource _ _ _ hlist
  obtain ⟨hbodyDerives, k, hk⟩ := hbody _ _ _ _ he
  exact ⟨.comprehension hopening hvarKind hcolonKind hderives hpipeKind hbodyDerives hcloseKind,
    htyped, typed_of_kind? hk hkind⟩

/-- A sign is read with an operand of the kind that it asks for. -/
theorem signed_sound {p : Reader Expr} {role : Role} {wanted : Kind} {make : Expr → Expr}
    (hp : Sound .unary bound p)
    (hok : (do
      let (a, after) ← p ts
      require role wanted a t
      return (make a, after)) = Except.ok (e, rest)) :
    ∃ a, e = make a ∧ Derives .unary ts a rest ∧ Typed bound a (.value wanted) := by
  simp only [bind_eq_ok, require_eq_ok, exists_const] at hok
  obtain ⟨⟨a, after⟩, ha, hwanted, hok⟩ := hok
  cases hok
  obtain ⟨hderives, k, hk⟩ := hp _ _ _ ha
  exact ⟨a, rfl, hderives, typed_of_kind? hk hwanted⟩

/-- An operand or a list is made of the parts of a binder. -/
theorem bracket_sound {source : Reader Expr} {body : String → Reader Expr}
    (make : String → Expr → Expr → Expr) (hsource : SoundList bound source)
    (hbody : ∀ name, Sound (.expression false) (name :: bound) (body name))
    (hok : (do
      let ((name, a, b), after) ← binding source body ts
      return (make name a b, after)) = Except.ok (e, rest)) :
    ∃ name a b, e = make name a b ∧ Derives .comprehension ts (.comprehension name a b) rest ∧
      Typed bound a .list ∧ Typed (name :: bound) b (.value .boolean) := by
  obtain ⟨⟨⟨name, a, b⟩, after⟩, hbinder, hok⟩ := bind_eq_ok.mp hok
  cases hok
  exact ⟨name, a, b, rfl, binding_sound hsource hbody hbinder⟩

/-- A tag marker is read with the name behind it. -/
theorem marked_sound {marker : Token} {make : String → Expr}
    (hok : (do
      let (name, after) ← tagName marker ts
      return (make name, after)) = Except.ok (e, rest)) :
    ∃ t, ts = t :: rest ∧ e = make t.text ∧ (t.kind = .name ∨ t.kind.isKeyword = true) := by
  obtain ⟨⟨name, after⟩, hname, hok⟩ := bind_eq_ok.mp hok
  cases hok
  obtain ⟨t, hts, rfl, ht⟩ := tagName_eq_ok.mp hname
  exact ⟨t, hts, rfl, ht⟩

/-- A focused expression is read behind its name and `<`. -/
theorem focus_sound {p : Reader Expr} {name opening : Token} (hname : name.kind = .name)
    (hopening : opening.kind = .compare .lt) (hp : Sound (.expression true) bound p)
    (hok : (do
      requireBound bound name.text
      let (body, after) ← p ts
      if body.kind? = some .element then
        .error (.kind (.focusedElement name.text) name.position)
      else
        let after ← expect (.compare .gt) (.closing name.text) after
        return (.focus name.text body, after)) = Except.ok (e, rest)) :
    Derives .primary (name :: opening :: ts) e rest ∧ ∃ k, Typed bound e (.value k) := by
  simp only [bind_eq_ok, requireBound_eq_ok, exists_const] at hok
  obtain ⟨hbound, ⟨body, after⟩, hbody, hok⟩ := hok
  split at hok
  · cases hok
  rename_i helement
  obtain ⟨final, hclose, hok⟩ := bind_eq_ok.mp hok
  cases hok
  obtain ⟨close, rfl, hcloseKind⟩ := (expect_eq_ok (by simp)).mp hclose
  obtain ⟨hderives, k, hk⟩ := hp _ _ _ hbody
  have hkElement : k ≠ .element := fun h => helement (hk.kind?_eq.trans (h ▸ rfl))
  exact ⟨.focus hname hopening hderives hcloseKind, k, .focus hbound hk hkElement⟩

/-- A variable is read from its name, which stands in front of no `<`. -/
theorem var_sound {name : Token} (hname : name.kind = .name)
    (hnext : (peek ts).kind ≠ .compare .lt)
    (hok : (do
      requireBound bound name.text
      return (.var name.text, ts)) = Except.ok (e, rest)) :
    Derives .primary (name :: ts) e rest ∧ ∃ k, Typed bound e (.value k) := by
  simp only [bind_eq_ok, requireBound_eq_ok, exists_const] at hok
  obtain ⟨hbound, hok⟩ := hok
  cases hok
  have hrest : ∀ t ∈ ts.head?, t.kind ≠ .compare .lt := by
    intro t ht hlt
    rw [peek, List.headD_eq_head?_getD, Option.mem_def.mp ht] at hnext
    exact hnext hlt
  exact ⟨.var hname hrest, _, .var hbound⟩

/-- An expression in parentheses is read behind the opening one. -/
theorem parens_sound {p : Reader Expr} {opening : Token} (hopening : opening.kind = .leftParen)
    (hp : Sound (.expression false) bound p)
    (hok : (do
      let (a, after) ← p ts
      if (peek after).kind = .rightParen then
        return (a, after.tail)
      else
        formError .mismatchedParentheses opening) = Except.ok (e, rest)) :
    Derives .primary (opening :: ts) e rest ∧ ∃ k, Typed bound e (.value k) := by
  obtain ⟨⟨a, after⟩, ha, hok⟩ := bind_eq_ok.mp hok
  dsimp only at hok
  split at hok
  · rename_i hclose
    cases hok
    obtain ⟨hderives, htyped⟩ := hp _ _ _ ha
    rw [eq_cons_of_peek hclose (by simp)] at hderives
    exact ⟨.parens hopening hderives hclose, htyped⟩
  · cases hok

/-- Operands and lists are read soundly, however deeply they may be nested. -/
theorem operand_source_sound (depth : Nat) (bound : List String) :
    Sound .unary bound (operand depth bound) ∧ SoundList bound (source depth bound) := by
  induction depth generalizing bound with
  | zero =>
      exact ⟨fun ts e rest h => by simp [operand] at h, fun ts e rest h => by simp [source] at h⟩
  | succ depth ih =>
      have hlevels : ∀ closing bound, Sound (.expression closing) bound
          (levels closing (operand depth bound)) := fun closing bound => levels_sound (ih bound).1
      have hbody : ∀ name, Sound (.expression false) (name :: bound)
          (levels false (operand depth (name :: bound))) := fun _ => hlevels false _
      constructor
      · intro ts e rest hok
        rw [operand] at hok
        -- one case for each sort of token that an operand starts with
        split at hok
        · rename_i hkind
          obtain ⟨a, rfl, hderives, ha⟩ := signed_sound (ih bound).1 hok
          rw [eq_cons_of_peek hkind (by simp)]
          exact ⟨.not hkind hderives, _, .not ha⟩
        · rename_i hkind
          obtain ⟨a, rfl, hderives, ha⟩ := signed_sound (ih bound).1 hok
          rw [eq_cons_of_peek hkind (by simp)]
          exact ⟨.neg hkind hderives, _, .neg ha⟩
        · rename_i hkind
          cases hok
          have hts := eq_cons_of_peek hkind (by simp)
          exact ⟨.primary (hts ▸ .number hkind), _, .number _⟩
        · rename_i hkind
          cases hok
          have hts := eq_cons_of_peek hkind (by simp)
          exact ⟨.primary (hts ▸ .bool hkind), _, .bool _⟩
        · rename_i hkind
          rw [eq_cons_of_peek hkind (by simp)]
          split at hok
          · obtain ⟨name, a, b, rfl, hderives, ha, hb⟩ :=
              bracket_sound (fun name a b => .nonEmpty (.comprehension name a b)) (ih bound).2 hbody
                hok
            exact ⟨.primary (.nonEmpty hkind hderives), _, .nonEmpty (.comprehension ha hb)⟩
          · obtain ⟨t, hts, rfl, ht⟩ := marked_sound hok
            rw [hts]
            exact ⟨.primary (.tag hkind ht), _, .tag _⟩
        · rename_i hkind
          rw [eq_cons_of_peek hkind (by simp)]
          split at hok
          · obtain ⟨name, a, b, rfl, hderives, ha, hb⟩ :=
              bracket_sound (fun name a b => .count (.comprehension name a b)) (ih bound).2 hbody
                hok
            exact ⟨.primary (.count hkind hderives), _, .count (.comprehension ha hb)⟩
          · obtain ⟨t, hts, rfl, ht⟩ := marked_sound hok
            rw [hts]
            exact ⟨.primary (.tagNumber hkind ht), _, .tagNumber _⟩
        · rename_i hkind
          obtain ⟨name, a, b, rfl, hderives, ha, hb⟩ :=
            bracket_sound (.quantified _) (ih bound).2 hbody hok
          rw [eq_cons_of_peek hkind (by simp)]
          exact ⟨.primary (.quantified hkind hderives), _, .quantified ha hb⟩
        · rename_i hkind
          rw [eq_cons_of_peek hkind (by simp)]
          split at hok
          · rename_i hopening
            rw [eq_cons_of_peek hopening (by simp)]
            obtain ⟨hderives, htyped⟩ := focus_sound hkind hopening (hlevels true bound) hok
            exact ⟨.primary hderives, htyped⟩
          · rename_i hnext
            obtain ⟨hderives, htyped⟩ := var_sound hkind hnext hok
            exact ⟨.primary hderives, htyped⟩
        · rename_i hkind
          rw [eq_cons_of_peek hkind (by simp)]
          obtain ⟨hderives, htyped⟩ := parens_sound hkind (hlevels false bound) hok
          exact ⟨.primary hderives, htyped⟩
        all_goals cases hok
      · intro ts e rest hok
        rw [source] at hok
        split at hok
        · rename_i hkind
          cases hok
          rw [eq_cons_of_peek hkind (by simp)]
          exact ⟨.list hkind, .list _⟩
        · obtain ⟨name, a, b, rfl, hderives, ha, hb⟩ :=
            bracket_sound .comprehension (ih bound).2 hbody hok
          exact ⟨.nested hderives, .comprehension ha hb⟩
        · cases hok

end Parser

end DiagramFilter
