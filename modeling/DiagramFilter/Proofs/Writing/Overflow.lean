import DiagramFilter.Proofs.Grammar.Completeness
import DiagramFilter.Proofs.Layout.Scanning
import DiagramFilter.Proofs.Writing.Room
import DiagramFilter.Proofs.Writing.RoundTrip

/-!
# Rules that are read but not written

The parser reads the terms of a sum in a loop, one after the other, and needs no more nesting for a
long sum than for a short one.  In the tree of the sum, though, every term stands one level above
those before it, and the tree is written by a call for each level.  So on every stack with an end
there is a rule that is read but not written (`Expr.exists_formatOn_tooDeep`).
-/

namespace DiagramFilter

/-- A sum of ones, the first of them behind signs, that is compared with zero. -/
def signedSum (signs terms : Nat) : Expr :=
  .compare .gt ((List.replicate terms (.number 1)).foldl (.arith .add)
    (Nat.repeat .neg signs (.number 1))) (.number 0)

/-- The characters of the terms behind the first one. -/
def termChars (terms : Nat) : List Char :=
  (List.replicate terms ['+', '1']).flatten

/-- The text of such a comparison, without blanks and parentheses. -/
def signedSumText (signs terms : Nat) : String :=
  String.ofList (List.replicate signs '-' ++ '1' :: (termChars terms ++ ['>', '0']))

namespace Lexer

/-- The tokens of signs. -/
def signTokens (position : Nat) : Nat → List Token
  | 0 => []
  | signs + 1 => ⟨.arith .sub, "-", position⟩ :: signTokens (position + 1) signs

/-- The tokens of terms behind the first one. -/
def termTokens (position : Nat) : Nat → List Token
  | 0 => []
  | terms + 1 =>
    ⟨.arith .add, "+", position⟩ :: ⟨.number, "1", position + 1⟩ :: termTokens (position + 2) terms

/-- The tokens of a comparison with zero. -/
def zeroTokens (position : Nat) : List Token :=
  [⟨.compare .gt, ">", position⟩, ⟨.number, "0", position + 1⟩, ⟨.finish, "", position + 2⟩]

/-- The comparison at the end is split into its tokens. -/
theorem scan_zeroTokens (position : Nat) :
    scan position false ['>', '0'] = .ok (zeroTokens position) := by
  have hfinish : scan (position + 2) false [] = .ok [⟨.finish, "", position + 2⟩] := by rw [scan]
  have hzero : scan (position + 1) false ['0'] =
      .ok [⟨.number, "0", position + 1⟩, ⟨.finish, "", position + 2⟩] :=
    scan_cons (u := []) (by decide) rfl hfinish
  exact scan_cons (u := []) (by decide) rfl hzero

/-- Terms are split into their tokens. -/
theorem scan_termTokens (position terms : Nat) :
    scan position false (termChars terms ++ ['>', '0']) =
      .ok (termTokens position terms ++ zeroTokens (position + 2 * terms)) := by
  induction terms generalizing position with
  | zero => exact scan_zeroTokens position
  | succ terms ih =>
      have hrest := ih (position + 2)
      rw [show position + 2 + 2 * terms = position + 2 * (terms + 1) by omega] at hrest
      have hone : scan (position + 1) false ('1' :: (termChars terms ++ ['>', '0'])) =
          .ok (⟨.number, "1", position + 1⟩ :: (termTokens (position + 2) terms ++
            zeroTokens (position + 2 * (terms + 1)))) := by
        refine scan_cons (u := []) (by decide) ?_ hrest
        cases terms <;> rfl
      exact scan_cons (u := []) (by decide) rfl hone

/-- Signs are split into their tokens, and so is what is behind them. -/
theorem scan_signTokens {position : Nat} (signs : Nat) {cs : List Char} {ts : List Token}
    (h : scan (position + signs) false ('1' :: cs) = .ok ts) :
    scan position false (List.replicate signs '-' ++ '1' :: cs) =
      .ok (signTokens position signs ++ ts) := by
  induction signs generalizing position with
  | zero => exact h
  | succ signs ih =>
      rw [← Nat.add_assoc, Nat.add_right_comm] at h
      refine scan_cons (u := []) (by decide) ?_ (ih h)
      cases signs <;> rfl

/-- The tokens of the text of a comparison of a sum with zero. -/
theorem tokenize_signedSumText (signs terms : Nat) :
    tokenize (signedSumText signs terms) = .ok (signTokens 0 signs ++
      ⟨.number, "1", signs⟩ :: (termTokens (signs + 1) terms ++
        zeroTokens (signs + 1 + 2 * terms))) := by
  rw [tokenize, signedSumText, String.toList_ofList]
  refine scan_signTokens signs ?_
  rw [Nat.zero_add]
  refine scan_cons (u := []) (by decide) ?_ (scan_termTokens (signs + 1) terms)
  cases terms <;> rfl

end Lexer

namespace Expr

/-- Signs keep the kind of a number. -/
theorem kind?_signs (signs : Nat) (x : Float) :
    (Nat.repeat neg signs (number x)).kind? = some .numeric := by
  cases signs <;> rfl

/-- Terms behind a number keep its kind. -/
theorem kind?_sum (terms : Nat) (x : Float) {e : Expr} (h : e.kind? = some .numeric) :
    ((List.replicate terms (number x)).foldl (arith .add) e).kind? = some .numeric := by
  induction terms generalizing e with
  | zero => exact h
  | succ terms ih => exact ih rfl

/-- An expression behind signs is written by a call more for each sign. -/
theorem calls_signs (signs : Nat) (e : Expr) :
    (Nat.repeat neg signs e).calls = e.calls + signs := by
  induction signs with
  | zero => rfl
  | succ signs ih =>
      rw [Nat.repeat, calls, ih]
      rfl

/-- A number is written by a call for itself and one for its text. -/
theorem calls_number (x : Float) : (number x).calls = 2 :=
  rfl

/-- A sum is written by a call more for each term behind the first one. -/
theorem calls_sum (terms : Nat) (x : Float) {e : Expr} (h : 2 ≤ e.calls) :
    ((List.replicate terms (number x)).foldl (arith .add) e).calls = e.calls + terms := by
  induction terms generalizing e with
  | zero => rfl
  | succ terms ih =>
      have hone : (arith .add e (number x)).calls = e.calls + 1 := by
        rw [calls, calls_number, Nat.max_eq_left h]
      rw [List.replicate_succ, List.foldl_cons, ih (hone ▸ Nat.le_succ_of_le h), hone]
      omega

end Expr

/-- The comparison is written by a call for each sign, one for each term and one for itself, above
those for a number. -/
theorem calls_signedSum (signs terms : Nat) :
    (signedSum signs terms).calls = signs + terms + 3 := by
  have hfirst := Expr.calls_signs signs (.number 1)
  rw [Expr.calls_number] at hfirst
  have hsum := Expr.calls_sum terms 1 (hfirst ▸ Nat.le_add_right 2 signs)
  rw [signedSum, Expr.calls, hsum, hfirst, Expr.calls_number, Nat.max_eq_left (by omega)]
  omega

namespace Parser

variable {bound : List String} {depth : Nat} {ts rest : List Token} {e : Expr}

/-- The value of the digit of a term. -/
theorem numberValue_one (position : Nat) : numberValue ⟨.number, "1", position⟩ = 1 := by
  have h : (Decimal.readDouble? "1".toList).getD 0 = 1 := by decide +kernel
  exact h

/-- The value of the digit behind the sum. -/
theorem numberValue_zero (position : Nat) : numberValue ⟨.number, "0", position⟩ = 0 := by
  have h : (Decimal.readDouble? "0".toList).getD 0 = 0 := by decide +kernel
  exact h

/-- Signs before a number are read, as deep as there are signs. -/
theorem complete_signTokens (signs position : Nat) {t : Token} {x : Float} (ht : t.kind = .number)
    (hx : numberValue t = x) :
    Complete bound (depth + signs + 1) (Lexer.signTokens position signs ++ t :: rest)
      (Nat.repeat .neg signs (.number x)) rest .unary := by
  induction signs generalizing position with
  | zero => exact .number ht hx
  | succ signs ih => exact (ih (position + 1)).neg rfl (Expr.kind?_signs signs x)

/-- Terms behind a sum are read, at the depth of the sum however many they are. -/
theorem complete_termTokens (terms position : Nat) (hkind : e.kind? = some .numeric)
    (h : Complete bound (depth + 1) ts e (Lexer.termTokens position terms ++ rest)
      (.binary false .term)) :
    Complete bound (depth + 1) ts ((List.replicate terms (.number 1)).foldl (.arith .add) e) rest
      (.binary false .term) := by
  -- The sum that has been read so far grows by a term, and the depth of its operands is the same.
  induction terms generalizing position e with
  | zero => exact h
  | succ terms ih =>
      have hterm : Complete bound (depth + 1)
          (⟨.number, "1", position + 1⟩ :: (Lexer.termTokens (position + 2) terms ++ rest))
          (.number 1) (Lexer.termTokens (position + 2) terms ++ rest) (.binary false .factor) :=
        .of_operand (.number rfl (numberValue_one (position + 1)))
      refine ih (position + 2) rfl (h.joined rfl rfl hterm ?_ (Nat.le_succ _))
      exact joinArith_eq_ok.mpr ⟨hkind, rfl, rfl⟩

/-- The comparison is read, as deep as there are signs. -/
theorem levels_signedSum (signs terms : Nat) (hdepth : signs < depth) :
    levels false (operand depth bound) (Lexer.signTokens 0 signs ++
        ⟨.number, "1", signs⟩ :: (Lexer.termTokens (signs + 1) terms ++
          Lexer.zeroTokens (signs + 1 + 2 * terms))) =
      .ok (signedSum signs terms, [⟨.finish, "", signs + 1 + 2 * terms + 2⟩]) := by
  obtain ⟨room, rfl⟩ := Nat.exists_eq_add_of_lt hdepth
  rw [Nat.add_comm signs room]
  have hfirst : Complete bound (room + signs + 1) _ _
      (Lexer.termTokens (signs + 1) terms ++ Lexer.zeroTokens (signs + 1 + 2 * terms)) .unary :=
    complete_signTokens signs 0 rfl (numberValue_one signs)
  have hsum := complete_termTokens terms (signs + 1) (Expr.kind?_signs signs 1)
    (.of_operand (.of_operand hfirst))
  have hzero : Complete bound (room + signs + 1) (⟨.number, "0", signs + 1 + 2 * terms + 1⟩ :: _)
      _ [⟨.finish, "", signs + 1 + 2 * terms + 2⟩] .unary :=
    .number rfl (numberValue_zero _)
  have hkind := Expr.kind?_sum terms 1 (Expr.kind?_signs signs 1)
  have hcompare := (Complete.of_operand hsum).joined (l := .relation) rfl rfl
    (.of_operand (.of_operand hzero)) (joinRelation_eq_ok.mpr ⟨hkind, rfl, rfl⟩) (Nat.le_succ _)
  exact Complete.single (.single (.of_operand hcompare)) (.of_closing (by simp [peek]))

end Parser

/-- The comparison is read from its text, if there are fewer signs than the limit on nesting. -/
theorem parse_signedSumText (signs terms : Nat) (h : signs < nestingLimit) :
    Expr.parse (signedSumText signs terms) = .ok (signedSum signs terms) := by
  have hfinish : (Parser.peek (Lexer.signTokens 0 signs ++ ⟨.number, "1", signs⟩ ::
      (Lexer.termTokens (signs + 1) terms ++
        Lexer.zeroTokens (signs + 1 + 2 * terms)))).kind ≠ .finish := by
    cases signs <;> simp [Parser.peek, Lexer.signTokens]
  refine bind_eq_ok.mpr ⟨_, Lexer.tokenize_signedSumText signs terms, ?_⟩
  exact Parser.rule_of_expression hfinish (Parser.levels_signedSum signs terms h) rfl rfl

/-- On a stack without room for its calls a rule that is read from text is not written. -/
theorem Expr.formatOn_tooDeep {text : String} {e : Expr} {room : Nat} (h : parse text = .ok e)
    (hroom : room < e.calls) : e.formatOn (some room) = .error .tooDeep := by
  have hwellFormed := wellFormed_of_parse h
  obtain ⟨written, hwritten, -⟩ := hwellFormed.typed.writes hwellFormed.spellable
  rw [(writtenAs_of_format hwritten).bounded, if_neg (Nat.not_le.mpr hroom)]

/-- **Rules that are too deep to be written.**  On every stack with an end there is one that is read
from text. -/
theorem Expr.exists_formatOn_tooDeep (room : Nat) :
    ∃ text e, parse text = .ok e ∧ e.formatOn (some room) = .error .tooDeep := by
  have hread := parse_signedSumText 0 room (by decide)
  exact ⟨_, _, hread, formatOn_tooDeep hread (by rw [calls_signedSum]; omega)⟩

/-- So there is one on the stack that rules are written on. -/
theorem Expr.formatOn_whole_tooDeep :
    ∃ e, parse (signedSumText 600 700) = .ok e ∧ WellFormed e ∧
      e.formatOn .whole = .error .tooDeep := by
  have hread := parse_signedSumText 600 700 (by decide)
  refine ⟨_, hread, wellFormed_of_parse hread, formatOn_tooDeep hread ?_⟩
  rw [calls_signedSum]
  decide

end DiagramFilter
