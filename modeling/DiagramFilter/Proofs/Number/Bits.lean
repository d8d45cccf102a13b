import DiagramFilter.Number.Double
import Mathlib

/-!
# Doubles and their bits

The sign and the other bits of a double, read as a number, say everything about it: which doubles
are no numbers, infinite, finite or below zero (`isNaN_iff`, `isInf_iff`, `isFinite_iff`,
`lt_zero_iff`), which double has given bits (`ofMagnitude_magnitude`, `magnitude_ofMagnitude`), and
what its opposite is (`neg_ofMagnitude`).

All of them rest on the three fields of the format: a word is packed from its fields, and the word
of a number that is unpacked and packed again stays what it is (`pack_unpack_word`).
-/

namespace DiagramFilter.Double

open Float.Model Float.Model.UnpackedFloat

/-- The format of doubles. -/
abbrev format : Format := Format.binary64

/-- The word with the given fields. -/
abbrev ofFields (s : Sign) (e : BitVec 11) (m : BitVec 52) : BitVec 64 :=
  packComponents format s e m

/-- The word with the given fields, as a number. -/
theorem toNat_ofFields (s : Sign) (e : BitVec 11) (m : BitVec 52) :
    (ofFields s e m).toNat = s.toBitVec.toNat * 2 ^ 63 + (e.toNat * 2 ^ 52 + m.toNat) := by
  have he := e.isLt
  have hm := m.isLt
  rw [ofFields, packComponents, BitVec.toNat_append, BitVec.toNat_append,
    ← Nat.shiftLeft_add_eq_or_of_lt e.isLt, ← Nat.shiftLeft_add_eq_or_of_lt m.isLt]
  simp only [Nat.shiftLeft_eq]
  omega

/-- A fraction with its leading one. -/
theorem toNat_implicit (m : BitVec 52) : (1#1 ++ m).toNat = 2 ^ 52 + m.toNat := by
  rw [BitVec.toNat_append, ← Nat.shiftLeft_add_eq_or_of_lt m.isLt]
  rfl

/-- What a word with the given fields stands for. -/
theorem unpack_ofFields (s : Sign) (e : BitVec 11) (m : BitVec 52) :
    UnpackedFloat.unpack format (ofFields s e m) =
      if e = -1#11 then if m = 0#52 then .infinity s else .notANumber
      else if e = 0#11 then
        if h : m = 0#52 then .zero s
        else .finite s m.toNat (-1074) (by simpa [BitVec.toNat_pos, BitVec.pos_iff_ne_zero] using h)
      else .finite s (1#1 ++ m).toNat ((e.toNat : Int) - 1075) (by rw [toNat_implicit]; omega) := by
  have hbias : format.exponentBias = 1023 := by decide
  simp only [UnpackedFloat.unpack, unpackMantissa_packComponents, unpackExponent_packComponents,
    unpackSign_packComponents, Sign.ofBitVec_toBitVec, hbias]
  split
  · rfl
  · split
    · rename_i h
      subst h
      rfl
    · rfl

/-- The opposite of a datum has the other sign and the same other fields. -/
theorem neg_unpack (s : Sign) (e : BitVec 11) (m : BitVec 52) :
    (UnpackedFloat.unpack format (ofFields s e m)).neg =
      UnpackedFloat.unpack format (ofFields (-s) e m) := by
  rw [unpack_ofFields, unpack_ofFields]
  split
  · split <;> rfl
  · split
    · split <;> rfl
    · rfl

/-- The sign of a datum. -/
def sign (negative : Bool) : Sign :=
  if negative then .negative else .positive

/-- The word with a sign and the given other bits. -/
abbrev word (negative : Bool) (bits : Nat) : BitVec 64 :=
  ofFields (sign negative) (BitVec.ofNat 11 (bits / 2 ^ 52)) (BitVec.ofNat 52 bits)

variable {negative : Bool} {bits : Nat} {x : Float}

/-- The bits of a word are the sign and the magnitude. -/
theorem toNat_word (h : bits < 2 ^ 63) :
    (word negative bits).toNat = (if negative then 2 ^ 63 else 0) + bits := by
  have hsign : (sign negative).toBitVec.toNat = if negative then 1 else 0 := by
    cases negative <;> rfl
  have hdiv : bits / 2 ^ 52 * 2 ^ 52 + bits % 2 ^ 52 = bits := by
    rw [Nat.mul_comm]
    exact Nat.div_add_mod bits (2 ^ 52)
  rw [toNat_ofFields, BitVec.toNat_ofNat, BitVec.toNat_ofNat, hsign,
    Nat.mod_eq_of_lt (a := bits / 2 ^ 52) (by omega), hdiv]
  cases negative <;> simp

/-- A word is made of its sign and its other bits. -/
theorem eq_word (b : BitVec 64) : b = word (decide (2 ^ 63 ≤ b.toNat)) (b.toNat % 2 ^ 63) := by
  have hlt := b.isLt
  apply BitVec.eq_of_toNat_eq
  rw [toNat_word (Nat.mod_lt _ (by decide))]
  by_cases h : 2 ^ 63 ≤ b.toNat
  · simp only [h, decide_true, if_true]
    omega
  · simp only [h, decide_false, Bool.false_eq_true, if_false]
    omega

/-- What the bits of a double stand for. -/
inductive Datum (negative : Bool) : (bits : Nat) → UnpackedFloat → Prop
  | zero : Datum negative 0 (.zero (sign negative))
  | finite {bits m : Nat} {e : Int} {hm : 0 < m} (hpos : 0 < bits) (hlt : bits < infinityBits) :
      Datum negative bits (.finite (sign negative) m e hm)
  | infinity : Datum negative infinityBits (.infinity (sign negative))
  | notANumber {bits : Nat} (h : infinityBits < bits) : Datum negative bits .notANumber

/-- The word of a sign and a magnitude is unpacked to them. -/
theorem datum_word (negative : Bool) (h : bits < 2 ^ 63) :
    Datum negative bits (UnpackedFloat.unpack format (word negative bits)) := by
  have hdiv := Nat.div_add_mod bits (2 ^ 52)
  have hmax : BitVec.ofNat 11 (bits / 2 ^ 52) = -1#11 ↔ bits / 2 ^ 52 = 2047 := by
    rw [← BitVec.toNat_inj, BitVec.toNat_ofNat, Nat.mod_eq_of_lt (by omega)]
    rfl
  have hzero : BitVec.ofNat 11 (bits / 2 ^ 52) = 0#11 ↔ bits / 2 ^ 52 = 0 := by
    rw [← BitVec.toNat_inj, BitVec.toNat_ofNat, Nat.mod_eq_of_lt (by omega)]
    rfl
  have hfraction : BitVec.ofNat 52 bits = 0#52 ↔ bits % 2 ^ 52 = 0 := by
    rw [← BitVec.toNat_inj, BitVec.toNat_ofNat]
    rfl
  have hinfinity : infinityBits = 2047 * 2 ^ 52 := rfl
  rw [unpack_ofFields]
  simp only [hmax, hzero, hfraction]
  split
  · split
    · obtain rfl : bits = infinityBits := by omega
      exact .infinity
    · exact .notANumber (by omega)
  · split
    · split
      · obtain rfl : bits = 0 := by omega
        exact .zero
      · exact .finite (by omega) (by omega)
    · exact .finite (by omega) (by omega)

/-- The bits of a double as a word. -/
theorem toBits_eq_word (x : Float) :
    x.toModel.toBits.toBitVec = word (isNegative x) (magnitude x) :=
  eq_word x.toModel.toBits.toBitVec

/-- What a double is, by its bits. -/
theorem datum (x : Float) : Datum (isNegative x) (magnitude x) x.toModel.unpack := by
  have hlt : magnitude x < 2 ^ 63 := Nat.mod_lt _ (by decide)
  have h := datum_word (isNegative x) hlt
  rw [← toBits_eq_word x] at h
  exact h

/-- No number has a magnitude above that of infinity. -/
theorem isNaN_iff : x.isNaN = true ↔ infinityBits < magnitude x := by
  have h := datum x
  have hnan : x.isNaN = x.toModel.unpack.isNaN := rfl
  rw [hnan]
  generalize x.toModel.unpack = u at h
  generalize magnitude x = bits at h
  cases h with
  | zero => simp [UnpackedFloat.isNaN]
  | finite hpos hlt => simp [UnpackedFloat.isNaN, Nat.le_of_lt hlt]
  | infinity => simp [UnpackedFloat.isNaN]
  | notANumber h => simp [UnpackedFloat.isNaN, h]

/-- An infinite number has the magnitude of infinity. -/
theorem isInf_iff : x.isInf = true ↔ magnitude x = infinityBits := by
  have h := datum x
  have hinf : x.isInf = x.toModel.unpack.isInf := rfl
  rw [hinf]
  generalize x.toModel.unpack = u at h
  generalize magnitude x = bits at h
  cases h with
  | zero => simp [UnpackedFloat.isInf, infinityBits]
  | finite hpos hlt => simp [UnpackedFloat.isInf, Nat.ne_of_lt hlt]
  | infinity => simp [UnpackedFloat.isInf]
  | notANumber h => simp [UnpackedFloat.isInf, Nat.ne_of_gt h]

/-- A finite number has a magnitude below that of infinity. -/
theorem isFinite_iff : x.isFinite = true ↔ magnitude x < infinityBits := by
  have h := datum x
  have hfinite : x.isFinite = x.toModel.unpack.isFinite := rfl
  rw [hfinite]
  generalize x.toModel.unpack = u at h
  generalize magnitude x = bits at h
  cases h with
  | zero => simp [UnpackedFloat.isFinite, infinityBits]
  | finite hpos hlt => simp [UnpackedFloat.isFinite, hlt]
  | infinity => simp [UnpackedFloat.isFinite]
  | notANumber h => simp [UnpackedFloat.isFinite, Nat.le_of_lt h]

/-- A word that stands for a number is unpacked and packed again without a change. -/
theorem pack_unpack_word (h : bits ≤ infinityBits) :
    UnpackedFloat.pack format (UnpackedFloat.unpack format (word negative bits)) =
      word negative bits := by
  have hinfinity : infinityBits = 2047 * 2 ^ 52 := rfl
  have hnumber : @isNaNBits format (word negative bits) = false := by
    simp only [isNaNBits, unpackExponent_packComponents, unpackMantissa_packComponents,
      decide_eq_false_iff_not]
    rintro ⟨he, hm⟩
    apply hm
    have hmax : (-1#11).toNat = 2047 := rfl
    have he := congrArg BitVec.toNat he
    rw [BitVec.toNat_ofNat, Nat.mod_eq_of_lt (by omega)] at he
    apply BitVec.eq_of_toNat_eq
    rw [BitVec.toNat_ofNat, BitVec.toNat_zero]
    omega
  rw [UnpackedFloat.pack_unpack, hnumber]
  rfl

/-- A number of a magnitude has its word as its bits. -/
theorem toBitVec_ofMagnitude (h : bits ≤ infinityBits) :
    (ofMagnitude negative bits).toModel.toBits.toBitVec = word negative bits := by
  have hinfinity : infinityBits = 2047 * 2 ^ 52 := rfl
  have hword : (UInt64.ofNat (if negative then 2 ^ 63 + bits else bits)).toBitVec =
      word negative bits := by
    apply BitVec.eq_of_toNat_eq
    rw [toNat_word (by omega)]
    cases negative <;> simp <;> omega
  show UnpackedFloat.pack format (UnpackedFloat.unpack format (UInt64.ofNat _).toBitVec) = _
  rw [hword]
  exact pack_unpack_word h

/-- So the bits of the number are the sign and the magnitude. -/
theorem toNat_toBits_ofMagnitude (h : bits ≤ infinityBits) :
    (ofMagnitude negative bits).toBits.toNat = (if negative then 2 ^ 63 else 0) + bits := by
  have hinfinity : infinityBits = 2047 * 2 ^ 52 := rfl
  rw [← toNat_word (by omega), ← toBitVec_ofMagnitude h]
  rfl

/-- The magnitude of a number made of one is the magnitude. -/
theorem magnitude_ofMagnitude (h : bits ≤ infinityBits) :
    magnitude (ofMagnitude negative bits) = bits := by
  have hinfinity : infinityBits = 2047 * 2 ^ 52 := rfl
  rw [magnitude, toNat_toBits_ofMagnitude h]
  split <;> omega

/-- The sign of a number made of one is the sign. -/
theorem isNegative_ofMagnitude (h : bits ≤ infinityBits) :
    isNegative (ofMagnitude negative bits) = negative := by
  have hinfinity : infinityBits = 2047 * 2 ^ 52 := rfl
  rw [isNegative, toNat_toBits_ofMagnitude h]
  cases negative with
  | false => simpa using (by omega : bits < 2 ^ 63)
  | true => simp

/-- What is made of a magnitude up to that of infinity is a number. -/
theorem isNaN_ofMagnitude (h : bits ≤ infinityBits) :
    (ofMagnitude negative bits).isNaN = false := by
  rw [Bool.eq_false_iff]
  intro hnan
  have hlt := isNaN_iff.mp hnan
  rw [magnitude_ofMagnitude h] at hlt
  omega

/-- A double that is a number is the one with its bits. -/
theorem ofMagnitude_magnitude (h : magnitude x ≤ infinityBits) :
    ofMagnitude (isNegative x) (magnitude x) = x :=
  Float.toBits_inj.mp
    (UInt64.toBitVec_inj.mp ((toBitVec_ofMagnitude h).trans (toBits_eq_word x).symm))

/-- The opposite of a number has the other sign. -/
theorem neg_ofMagnitude (h : bits ≤ infinityBits) :
    -ofMagnitude negative bits = ofMagnitude (!negative) bits := by
  apply Float.toBits_inj.mp
  apply UInt64.toBitVec_inj.mp
  have hsign : -sign negative = sign (!negative) := by cases negative <;> rfl
  show UnpackedFloat.pack format (UnpackedFloat.unpack format
    (ofMagnitude negative bits).toModel.toBits.toBitVec).neg =
      (ofMagnitude (!negative) bits).toModel.toBits.toBitVec
  rw [toBitVec_ofMagnitude h, toBitVec_ofMagnitude h, neg_unpack, hsign]
  exact pack_unpack_word h

end DiagramFilter.Double
