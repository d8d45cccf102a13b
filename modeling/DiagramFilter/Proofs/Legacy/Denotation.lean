import DiagramFilter.Proofs.Laws.Passing
import DiagramFilter.Proofs.Number.Operations
import DiagramFilter.Proofs.Typing.Evaluation

/-!
# Expressions with a given meaning

An expression that needs no bound names has one value for each element.  `MeansTruth` and
`MeansNumber` say which function of the element that is, whatever the surroundings are, and each way
to put expressions together does with the functions what it does with the expressions.
-/

namespace DiagramFilter

/-- Two truth values under a connective. -/
def Connective.join : Connective → Bool → Bool → Bool
  | and, a, b => a && b
  | or, a, b => a || b

namespace Expr

variable {env : Env} {scope : Scope} {c : Connective} {as bs : List Expr} {e : Expr} {a b : Bool}

/-- A group of one operand has its truth value. -/
theorem evalJunction_singleton (he : e.eval env scope = .ok (.bool b)) :
    evalJunction env scope c [e] = .ok b := by
  rw [evalJunction_single, he]
  rfl

/-- Truth values in a row are joined. -/
theorem evalJunction_append_ok (ha : evalJunction env scope c as = .ok a)
    (hb : evalJunction env scope c bs = .ok b) :
    evalJunction env scope c (as ++ bs) = .ok (c.join a b) := by
  rw [evalJunction_append, ha, hb]
  cases c <;> cases a <;> rfl

end Expr

/-- The value of an expression is a function of the element, where the registry has numbers. -/
structure Means (e : Expr) (k : Kind) (meaning : Env → Handle → Value) : Prop where
  typed : Typed [] e (.value k)
  eval : ∀ env scope, env.registry.Total → e.eval env scope = .ok (meaning env scope.current)

/-- An expression is a truth value of the element. -/
abbrev MeansTruth (e : Expr) (truth : Env → Handle → Bool) : Prop :=
  Means e .boolean fun env h => .bool (truth env h)

/-- An expression is a number of the element. -/
abbrev MeansNumber (e : Expr) (number : Env → Handle → Float) : Prop :=
  Means e .numeric fun env h => .number (.float (number env h))

/-- Operands of a connective are together a truth value of the element. -/
structure MeansRun (c : Connective) (es : List Expr) (truth : Env → Handle → Bool) : Prop where
  typed : ∀ e ∈ es, Typed [] e (.value .boolean)
  eval : ∀ env scope, env.registry.Total →
    Expr.evalJunction env scope c es = .ok (truth env scope.current)

variable {a b e : Expr} {p q : Env → Handle → Bool} {x y : Env → Handle → Float} {c : Connective}
  {as bs es : List Expr}

namespace MeansRun

/-- One operand is a run. -/
theorem singleton (h : MeansTruth e p) : MeansRun c [e] p :=
  ⟨by simpa using h.typed, fun env scope htotal =>
    Expr.evalJunction_singleton (h.eval env scope htotal)⟩

/-- Two runs are joined to one by their connective. -/
theorem append (ha : MeansRun c as p) (hb : MeansRun c bs q) :
    MeansRun c (as ++ bs) fun env h => c.join (p env h) (q env h) := by
  refine ⟨fun e he => ?_, fun env scope htotal => ?_⟩
  · rcases List.mem_append.mp he with he | he
    · exact ha.typed e he
    · exact hb.typed e he
  · exact Expr.evalJunction_append_ok (ha.eval env scope htotal) (hb.eval env scope htotal)

/-- A run in parentheses means a truth value. -/
theorem junction (h : MeansRun c es p) : MeansTruth (.junction c es) p := by
  refine ⟨.junction h.typed, fun env scope htotal => ?_⟩
  rw [Expr.eval, h.eval env scope htotal]
  rfl

end MeansRun

namespace Means

/-- A truth value means itself. -/
theorem bool (value : Bool) : MeansTruth (.bool value) fun _ _ => value :=
  ⟨.bool value, fun _ _ _ => by rw [Expr.eval]⟩

/-- A number means itself. -/
theorem number (value : Float) : MeansNumber (.number value) fun _ _ => value :=
  ⟨.number value, fun _ _ _ => by rw [Expr.eval]⟩

/-- A negation means the opposite. -/
theorem not (h : MeansTruth e p) : MeansTruth (.not e) fun env h => !p env h := by
  refine ⟨.not h.typed, fun env scope htotal => ?_⟩
  rw [Expr.eval, h.eval env scope htotal]
  rfl

/-- A sign means the negative number. -/
theorem neg (h : MeansNumber e x) : MeansNumber (.neg e) fun env h => -x env h := by
  refine ⟨.neg h.typed, fun env scope htotal => ?_⟩
  rw [Expr.eval, h.eval env scope htotal]
  rfl

/-- Two operands of a connective. -/
theorem pair (ha : MeansTruth a p) (c : Connective) (hb : MeansTruth b q) :
    MeansTruth (.junction c [a, b]) fun env h => c.join (p env h) (q env h) :=
  ((MeansRun.singleton ha).append (.singleton hb)).junction

/-- Equality of truth values. -/
theorem same (ha : MeansTruth a p) (hb : MeansTruth b q) :
    MeansTruth (.compare .eq a b) fun env h => p env h == q env h := by
  refine ⟨.equality rfl ha.typed hb.typed, fun env scope htotal => ?_⟩
  rw [Expr.eval, ha.eval env scope htotal, hb.eval env scope htotal]
  simp only [bind, Except.bind]
  cases p env scope.current <;> cases q env scope.current <;> rfl

/-- A comparison of numbers. -/
theorem compare (op : CompareOp) (ha : MeansNumber a x) (hb : MeansNumber b y) :
    MeansTruth (.compare op a b) fun env h => op.test (x env h) (y env h) := by
  have htyped : Typed [] (.compare op a b) (.value .boolean) := by
    cases hop : op.isEquality with
    | true => exact .equality hop ha.typed hb.typed
    | false => exact .relation hop ha.typed hb.typed
  refine ⟨htyped, fun env scope htotal => ?_⟩
  exact Expr.eval_compare_float op (ha.eval env scope htotal) (hb.eval env scope htotal)

/-- Arithmetic on numbers. -/
theorem arith (op : ArithOp) (ha : MeansNumber a x) (hb : MeansNumber b y) :
    MeansNumber (.arith op a b) fun env h => op.apply (x env h) (y env h) := by
  refine ⟨.arith ha.typed hb.typed, fun env scope htotal => ?_⟩
  exact Expr.eval_arith_float op (ha.eval env scope htotal) (hb.eval env scope htotal)

/-- The same function in other words. -/
theorem congr {k : Kind} {meaning meaning' : Env → Handle → Value} (h : Means e k meaning)
    (heq : ∀ env h, meaning env h = meaning' env h) : Means e k meaning' :=
  ⟨h.typed, fun env scope htotal => by rw [h.eval env scope htotal, heq]⟩

end Means

end DiagramFilter
