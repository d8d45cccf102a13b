import DiagramFilter.Legacy.Convert
import DiagramFilter.Proofs.Legacy.Meaning
import DiagramFilter.Proofs.Legacy.Texts

/-!
# The text of leaves

Constants and tags of legacy records are written as single tokens or in parentheses, and mean what
the records mean.
-/

namespace DiagramFilter.Legacy

variable {x : Float} {rule : Document} {name text : String}

/-- The text of a whole number that is not zero, with its sign. -/
theorem toList_toString_neg {n : Nat} (hn : 0 < n) :
    (toString (-(n : Int))).toList = '-' :: Nat.toDigits 10 n := by
  obtain ⟨k, rfl⟩ := Nat.exists_eq_add_one_of_ne_zero (Nat.ne_of_gt hn)
  rw [Int.toString_eq_repr, show -((k + 1 : Nat) : Int) = Int.negSucc k from rfl, Int.repr,
    String.toList_append, Nat.toList_repr]
  rfl

/-- A finite double is below zero if it has the sign and is not zero. -/
theorem lt_zero_iff_of_finite (h : Double.magnitude x < Double.infinityBits) :
    x < 0 ↔ Double.isNegative x = true ∧ 0 < Double.magnitude x := by
  rw [Double.lt_zero_iff]
  constructor
  · rintro ⟨hneg, hpos, -⟩
    exact ⟨hneg, hpos⟩
  · rintro ⟨hneg, hpos⟩
    exact ⟨hneg, hpos, Nat.le_of_lt h⟩

/-- A whole number has the sign of its double, except that zero has none. -/
theorem signed_of_units {n : Nat} (h : Double.magnitude x < Double.infinityBits)
    (hunits : Double.units (Double.magnitude x) = n * Double.unitsPerOne) :
    (if Double.isNegative x then -(n : Int) else n) = if x < 0 then -(n : Int) else n := by
  by_cases hzero : Double.magnitude x = 0
  · have hn : n = 0 := by
      rw [Double.units_eq_zero_iff.mpr hzero] at hunits
      have hpos := Double.unitsPerOne_pos
      rcases Nat.mul_eq_zero.mp hunits.symm with hn | hunit
      · exact hn
      · omega
    subst hn
    split <;> split <;> rfl
  · have hsign : x < 0 ↔ Double.isNegative x = true := by
      rw [lt_zero_iff_of_finite h]
      exact and_iff_left (Nat.pos_of_ne_zero hzero)
    simp only [hsign]

/-- A finite constant is printed in a converted rule as a number. -/
theorem spellsNumber_doubleText (h : Double.magnitude x < Double.infinityBits) :
    SpellsNumber (doubleText x) x := by
  have hzero := lt_zero_iff_of_finite h
  unfold doubleText
  rcases Double.toInt?_cases h with ⟨hnone, hmagnitude⟩ | ⟨n, hunits, hsome⟩
  · refine ⟨_, spellsBits_magnitudeText h, ?_⟩
    have hnan : x.isNaN = false := by
      rw [Bool.eq_false_iff]
      exact fun hnan => absurd (Double.isNaN_iff.mp hnan) (Nat.not_lt_of_gt h)
    have hpos := Nat.pos_of_ne_zero hmagnitude
    simp only [hnone, Double.text, hnan, Bool.not_false, Bool.and_true]
    by_cases hneg : Double.isNegative x = true
    · simp [hzero.mpr ⟨hneg, hpos⟩, hneg]
    · have hlt : ¬ x < 0 := fun hlt => hneg (hzero.mp hlt).1
      simp [hlt, hneg]
  · refine ⟨_, spellsBits_toDigits h hunits, ?_⟩
    simp only [hsome, signed_of_units h hunits]
    by_cases hlt : x < 0
    · have hn : 0 < n := by
        rcases Nat.eq_zero_or_pos n with rfl | hn
        · rw [Nat.zero_mul, Double.units_eq_zero_iff] at hunits
          have hpos := (hzero.mp hlt).2
          omega
        · exact hn
      simp only [hlt, if_true, String.toList_append, toList_toString_neg hn]
      simp
    · simp only [hlt, if_false]
      exact Nat.toList_repr

/-- A finite double without the sign of a zero, by its magnitude. -/
theorem unsigned_zero_eq (h : Double.magnitude x < Double.infinityBits) :
    (if x == 0 then 0 else x) =
      if x < 0 then -Double.ofMagnitude false (Double.magnitude x)
      else Double.ofMagnitude false (Double.magnitude x) := by
  have hle := Nat.le_of_lt h
  have hvalue := Double.ofMagnitude_magnitude hle
  by_cases hzero : Double.magnitude x = 0
  · have hlt : ¬ x < 0 := by
      rw [Double.lt_zero_iff, hzero]
      simp
    rw [if_pos (Double.beq_zero_iff.mpr hzero), if_neg hlt, hzero]
    rfl
  · rw [if_neg (mt Double.beq_zero_iff.mp hzero)]
    by_cases hlt : x < 0
    · rw [if_pos hlt, Double.neg_ofMagnitude hle]
      rw [(Double.lt_zero_iff.mp hlt).1] at hvalue
      exact hvalue.symm
    · rw [if_neg hlt]
      have hsign : Double.isNegative x = false := by
        rw [Bool.eq_false_iff]
        exact fun hnegative =>
          hlt (Double.lt_zero_iff.mpr ⟨hnegative, Nat.pos_of_ne_zero hzero, hle⟩)
      rw [hsign] at hvalue
      exact hvalue.symm

/-- The text of a finite double means the double. -/
theorem doubleText_counts (h : Double.magnitude x < Double.infinityBits) :
    Counts (doubleText x) fun _ _ => if x == 0 then 0 else x := by
  have hmeans := Means.number (Double.ofMagnitude false (Double.magnitude x))
  refine ⟨_, .signedNumber (spellsNumber_doubleText h), ?_⟩
  rw [unsigned_zero_eq h]
  split
  · exact hmeans.neg
  · exact hmeans

/-- The text of a constant means its number. -/
theorem constantText_counts (h : (constantText rule).result = .ok text) :
    Counts text fun _ _ => constantOf rule := by
  unfold constantText at h
  unfold constantOf
  cases hfield : rule.field? "num" with
  | none =>
      simp only [hfield, Option.getD_none] at h
      cases h
  | some num =>
      simp only [hfield, Option.getD_some] at h
      cases num with
      | number n =>
          simp only at h ⊢
          cases hn : n.toFloat with
          | error fault =>
              simp only [hn] at h
              cases h
          | ok x =>
              simp only [hn] at h
              split at h
              · rename_i hfinite
                cases h
                exact doubleText_counts (Double.isFinite_iff.mp hfinite)
              · cases h
      | _ => cases h

/-- The constant in place of an unknown number. -/
theorem zero_counts : Counts "0" fun _ _ => 0 :=
  ⟨_, .number spellsBits_zero, .number _⟩

/-- A tag that is written is named by a word. -/
theorem tagText_eq_ok {marker : String} (h : (tagText marker name).result = .ok text) :
    IsIdentifier name ∧ text = marker ++ name := by
  unfold tagText at h
  dsimp only at h
  split at h
  · rename_i hword
    cases h
    simp only [Bool.and_eq_true, Bool.not_eq_true', List.isEmpty_eq_false_iff,
      decide_eq_true_eq] at hword
    exact ⟨Lexer.isIdentifier_of_scanName hword.1 hword.2, rfl⟩
  · cases h

/-- The text of a tag tells whether the element has it. -/
theorem tag_tells (h : (tagText "#" name).result = .ok text) :
    Tells text fun env h => tagTruth env h name := by
  obtain ⟨hname, rfl⟩ := tagText_eq_ok h
  refine ⟨.tag name, ?_, .tag name, fun env scope _ => by rw [Expr.eval]; rfl⟩
  rw [String.toList_append]
  exact .tag hname

/-- The number of a tag is the evaluator's, where the registry has numbers. -/
theorem tagNumber_eq {env : Env} (htotal : env.registry.Total) (name : String) (h : Handle) :
    env.tagNumber name h = .ok (tagNumber env h name) := by
  obtain ⟨x, hx⟩ := Env.tagNumber_ok htotal name h
  rw [hx]
  unfold Env.tagNumber at hx
  unfold tagNumber
  cases hfind : (env.diagram.element h).findTag? name with
  | some tag =>
      rw [hfind] at hx
      cases hx
      rfl
  | none =>
      rw [hfind] at hx
      cases hreserved : env.registry.numeric? env.diagram name h with
      | none =>
          rw [hreserved] at hx
          cases hx
          rfl
      | some result =>
          rw [hreserved] at hx
          cases hx
          rfl

/-- The text of a tag's number is that number. -/
theorem tagNumber_counts (h : (tagText "$" name).result = .ok text) :
    Counts text fun env h => tagNumber env h name := by
  obtain ⟨hname, rfl⟩ := tagText_eq_ok h
  refine ⟨.tagNumber name, ?_, .tagNumber name, fun env scope htotal => ?_⟩
  · rw [String.toList_append]
    exact .tagNumber hname
  · rw [Expr.eval, tagNumber_eq htotal]
    rfl

end DiagramFilter.Legacy
