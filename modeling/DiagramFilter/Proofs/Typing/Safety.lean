import DiagramFilter.Proofs.Grammar.Acceptance
import DiagramFilter.Proofs.Typing.Evaluation

/-!
# Rules cannot fail

What the parser accepts is typed as a truth value in which only the element itself is free, and
evaluation binds the element first.  So every mistake in a rule is reported while it is read and
none while it is evaluated.
-/

namespace DiagramFilter

/-- A rule is typed as a truth value. -/
theorem Expr.typed_of_parse {text : String} {e : Expr} (h : Expr.parse text = .ok e) :
    Typed [thisName] e (.value .boolean) := by
  obtain ⟨ts, -, hspells⟩ := Expr.spells_of_parse h
  exact hspells.typed

/-- A truth value on an element is found where the expression is typed as one. -/
theorem Typed.evalOn {env : Env} (htotal : env.registry.Total) {e : Expr}
    (htyped : Typed [thisName] e (.value .boolean)) (h : Handle) :
    ∃ b, e.evalOn env h = .ok (.bool b) := by
  have hnames : ∀ x ∈ [thisName], x ∈ (⟨thisName, h, []⟩ : Scope).names := by
    intro x hx
    simpa [Scope.names, Scope.bindings] using hx
  obtain ⟨v, hv, hbool⟩ := htyped.eval htotal hnames
  cases hbool with
  | bool b => exact ⟨b, hv⟩

/-- **Safety.**  Under reserved numbers that are numbers, a rule has a truth value on every element
of every diagram.  More generally, every typed expression has a value of its category in every
scope that has an element for each of its bound names. -/
theorem Expr.rules_evaluate {env : Env} (htotal : env.registry.Total) :
    (∀ text e h, Expr.parse text = .ok e → ∃ b, e.evalOn env h = .ok (.bool b) ∧
      e.holdsOn env h = .ok b) ∧
      ∀ bound e c (scope : Scope), Typed bound e c → (∀ x ∈ bound, x ∈ scope.names) →
        ∃ v, e.eval env scope = .ok v ∧ v.Belongs c := by
  constructor
  · intro text e h hparse
    obtain ⟨b, hb⟩ := (Expr.typed_of_parse hparse).evalOn htotal h
    exact ⟨b, hb, by rw [holdsOn, hb]; rfl⟩
  · intro bound e c scope htyped hscope
    exact htyped.eval htotal hscope

/-- A node with two tagged children. -/
def Diagram.family : Diagram where
  elements := #[
    { id := "mother", kind := .node, children := [1, 2] },
    { id := "ann", kind := .node, tags := some [⟨.string "a", 1⟩, ⟨.string "b", 2⟩],
      parent := some 0 },
    { id := "bob", kind := .node, tags := some [⟨.string "b", 3⟩], parent := some 0 }]

/-- A rule about children is false on a node with a child without the tag. -/
theorem Expr.rules_evaluate_children :
    ∃ e b, Expr.parse "forall[x:children|#a]" = .ok e ∧
      e.evalOn ⟨.family, .usual⟩ 0 = .ok (.bool b) ∧ e.holdsOn ⟨.family, .usual⟩ 0 = .ok b ∧
      b = false := by
  have htokens : Lexer.tokenize "forall[x:children|#a]" = .ok [⟨.quantifier .all, "forall", 0⟩,
      ⟨.leftBracket, "[", 6⟩, ⟨.name, "x", 7⟩, ⟨.colon, ":", 8⟩, ⟨.list .children, "children", 9⟩,
      ⟨.pipe, "|", 17⟩, ⟨.hash, "#", 18⟩, ⟨.name, "a", 19⟩, ⟨.rightBracket, "]", 20⟩,
      ⟨.finish, "", 21⟩] := by
    decide +kernel
  have hparse : Expr.parse "forall[x:children|#a]" =
      .ok (.quantified .all "x" (.list .children) (.tag "a")) := by
    rw [Expr.parse, htokens]
    rfl
  have htotal : (⟨.family, .usual⟩ : Env).registry.Total := Registry.usual_total
  obtain ⟨b, hb, hholds⟩ := (Expr.rules_evaluate htotal).1 _ _ 0 hparse
  have hfalse : (quantified .all "x" (.list .children) (.tag "a")).evalOn ⟨.family, .usual⟩ 0 =
      .ok (.bool false) := rfl
  cases hb.symm.trans hfalse
  exact ⟨_, _, hparse, hb, hholds, rfl⟩

end DiagramFilter
