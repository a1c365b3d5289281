import ProofOps.Domain.Numeric.Check
import ProofOps.Foundation.DecimalExact

/-!
# The value of a table cell

`_value` reads a cell for the observation that ingest stores.  The number is computed in a decimal
context whose precision is taken from the length of its text, so nothing is rounded, and the checker
of `proofops.domain.numeric` reads the same number from the same cell (`value_numeric`).
-/

namespace ProofOps.Application.Ingest.Normalize

open Foundation Foundation.PyText Foundation.Checked Domain.Numeric

/-- The exceptions of the decimal context. -/
inductive DecimalError where
  | precision
  | invalidOperation
  | overflow
  deriving DecidableEq

/-- What `_value` returns. -/
structure CellValue where
  (valueDecimal unitCanonical : Option String)
  (scaleMultiplier valueState : String)
  deriving DecidableEq

def maxPrec : Nat := 999999999999999999

def contextEmax : Int := 999999

def contextEmin : Int := -999999

def localContext (precision : Nat) : Decimal.Context :=
  ⟨precision, contextEmin - precision + 1⟩

variable (raw : String)

/-- `len(match[1])`. -/
def matchedLength : Nat :=
  let chars := stripChars raw.toList
  match matchNumeral chars with
  | some (_, rest) => chars.length - rest.length
  | none => 0

/-- `match[2].strip()`. -/
def rawUnit : Option String :=
  (matchNumber raw).bind fun found => found.2.map strip

variable (unit : Option String)

def cellUnit : Option String :=
  match rawUnit raw with
  | some own => some own
  | none => unit

def unitConflict : Bool :=
  match rawUnit raw with
  | some own => truthy unit && unit != some own
  | none => false

def scaleOf : String × Option String :=
  match unit with
  | none => ("1", none)
  | some text =>
    if text != "" && startsWith text "천 " then
      ("1000", some (strip (String.ofList (text.toList.drop 2))))
    else ("1", some text)

def isMissing : Bool :=
  ["", "-", "N/A"].contains (String.ofList ((stripChars raw.toList).map Char.toUpper))

variable (multiplier : String)

/-- `Decimal(multiplier)`. -/
def multiplierDecimal : Decimal :=
  if multiplier = "1000" then ⟨1000, 0⟩ else ⟨1, 0⟩

def scaledText (numeral : Numeral) (multiplier : String) : Except DecimalError String :=
  let precision := matchedLength raw + 4
  let parsed : Decimal :=
    ⟨digitsValue (numeral.whole ++ numeral.fraction), -(numeral.fraction.length : Int)⟩
  let scaled := Decimal.times (localContext precision) parsed (multiplierDecimal multiplier)
  if maxPrec < precision then .error .precision
  else if ¬Exact parsed.coefficient parsed.exponent then .error .invalidOperation
  else if contextEmax < adjusted scaled.coefficient scaled.exponent then .error .overflow
  else .ok (fixedPoint numeral.negative scaled.coefficient scaled.exponent)

/-- `_value`. -/
def value (raw : String) (unit : Option String) : Except DecimalError CellValue :=
  if unitConflict raw unit then .ok ⟨none, unit, "1", "conflict"⟩
  else
    let (multiplier, canonical) := scaleOf (cellUnit raw unit)
    if isMissing raw then .ok ⟨none, canonical, multiplier, "missing"⟩
    else
      match matchNumber raw with
      | none => .ok ⟨none, canonical, multiplier, "unreadable"⟩
      | some (numeral, _) =>
        (scaledText raw numeral multiplier).map fun text =>
          ⟨some text, canonical, multiplier, "value"⟩

def unitRaw : Option String :=
  match unit with
  | some text => some text
  | none => rawUnit raw

theorem multiplierDecimal_le : (multiplierDecimal multiplier).coefficient ≤ 1000 := by
  unfold multiplierDecimal
  split_ifs
  · exact le_refl 1000
  · show (1 : Nat) ≤ 1000
    decide

theorem multiplierDecimal_exponent : (multiplierDecimal multiplier).exponent = 0 := by
  unfold multiplierDecimal
  split_ifs <;> rfl

theorem multiplierDecimal_value :
    ((multiplierDecimal multiplier).coefficient : ℚ) = scaleValue multiplier := by
  unfold multiplierDecimal scaleValue
  by_cases hscale : multiplier = "1000"
  · rw [if_pos hscale, if_pos (beq_iff_eq.mpr hscale)]
    norm_num
  · rw [if_neg hscale, if_neg (mt beq_iff_eq.mp hscale)]
    norm_num

variable {raw : String} {numeral : Numeral} {suffix : Option String}

theorem digits_le_matchedLength (h : matchNumber raw = some (numeral, suffix)) :
    numeral.whole.length + numeral.fraction.length ≤ matchedLength raw ∧
      ∀ c ∈ numeral.whole ++ numeral.fraction, isDigit c = true := by
  unfold matchNumber at h
  unfold matchedLength
  cases hnumeral : matchNumeral (stripChars raw.toList) with
  | none =>
    rw [hnumeral] at h
    cases h
  | some found =>
    obtain ⟨other, rest⟩ := found
    obtain ⟨hlength, hdigits⟩ := matchNumeral_some hnumeral
    have hsame : other = numeral := by
      rw [hnumeral] at h
      cases rest with
      | nil =>
        cases h
        rfl
      | cons head rest =>
        dsimp only at h
        split_ifs at h
        cases h
        rfl
    subst hsame
    refine ⟨?_, hdigits⟩
    simp only [hnumeral]
    omega

theorem times_exact {precision : Nat} {first second : Decimal}
    (hdigits : first.coefficient * second.coefficient < 10 ^ precision) (hprecision : 0 < precision)
    (htiny : (localContext precision).tiny ≤ first.exponent + second.exponent) :
    Decimal.times (localContext precision) first second =
      ⟨first.coefficient * second.coefficient, first.exponent + second.exponent⟩ := by
  unfold Decimal.times Decimal.round
  rw [if_pos]
  apply max_le
  · have hlog : Nat.log 10 (first.coefficient * second.coefficient) < precision :=
      Nat.log_lt_of_lt_pow' (Nat.ne_of_gt hprecision) hdigits
    show first.exponent + second.exponent +
        ((Nat.log 10 (first.coefficient * second.coefficient) : Int) + 1) - (precision : Int) ≤
      first.exponent + second.exponent
    omega
  · exact htiny

/-- With four digits to spare the scaled number is exact. -/
theorem times_numeral (h : matchNumber raw = some (numeral, suffix)) (multiplier : String) :
    Decimal.times (localContext (matchedLength raw + 4))
        ⟨digitsValue (numeral.whole ++ numeral.fraction), -(numeral.fraction.length : Int)⟩
        (multiplierDecimal multiplier) =
      ⟨digitsValue (numeral.whole ++ numeral.fraction) *
        (multiplierDecimal multiplier).coefficient, -(numeral.fraction.length : Int)⟩ := by
  obtain ⟨hlength, hdigits⟩ := digits_le_matchedLength h
  have hvalue := digitsValue_lt hdigits
  have hscale := multiplierDecimal_le multiplier
  rw [times_exact]
  · rw [multiplierDecimal_exponent, add_zero]
  · calc digitsValue (numeral.whole ++ numeral.fraction) *
          (multiplierDecimal multiplier).coefficient
        ≤ digitsValue (numeral.whole ++ numeral.fraction) * 1000 :=
          Nat.mul_le_mul_left _ hscale
      _ < 10 ^ (numeral.whole ++ numeral.fraction).length * 1000 :=
          Nat.mul_lt_mul_of_pos_right hvalue (by decide)
      _ ≤ 10 ^ matchedLength raw * 10 ^ 4 := by
          apply Nat.mul_le_mul
          · apply Nat.pow_le_pow_right (by decide)
            rw [List.length_append]
            exact hlength
          · decide
      _ = 10 ^ (matchedLength raw + 4) := (Nat.pow_add 10 _ 4).symm
  · exact Nat.succ_pos _
  · rw [multiplierDecimal_exponent, add_zero]
    show contextEmin - ((matchedLength raw + 4 : Nat) : Int) + 1 ≤ -(numeral.fraction.length : Int)
    unfold contextEmin
    omega

theorem signedValue_numeral (numeral : Numeral) (scale : ℚ) (coefficient : Nat)
    (h : (coefficient : ℚ) = scale) :
    signedValue numeral.negative (digitsValue (numeral.whole ++ numeral.fraction) * coefficient)
        (-(numeral.fraction.length : Int)) = numeral.value * scale := by
  unfold signedValue Numeral.value
  push_cast
  rw [h, zpow_neg, zpow_natCast]
  split_ifs <;> ring

theorem scaledText_value {text : String}
    {multiplier : String} (h : matchNumber raw = some (numeral, suffix))
    (htext : scaledText raw numeral multiplier = .ok text) :
    decimal (some text) = some (numeral.value * scaleValue multiplier) := by
  unfold scaledText at htext
  dsimp only at htext
  rw [times_numeral h multiplier] at htext
  split_ifs at htext with hprecision hexact hoverflow
  cases htext
  rw [decimal_fixedPoint]
  · rw [signedValue_numeral numeral _ _ (multiplierDecimal_value multiplier)]
  · constructor
    · exact hexact.1
    · refine (not_lt.mp hoverflow).trans ?_
      decide

theorem scaleOf_eq : scaleOf unit = splitScale unit := by
  cases unit with
  | none => rfl
  | some text =>
    unfold scaleOf splitScale
    cases hscale : startsWith text "천 " with
    | false => simp only [hscale, Bool.and_false, Bool.false_eq_true, if_false]
    | true =>
      have hne : (text != "") = true := by
        rw [bne_iff_ne]
        rintro rfl
        exact absurd hscale (by decide)
      simp only [hscale, hne, Bool.and_self, if_true]

theorem value_eq {unit : Option String} {result : CellValue}
    (h : value raw unit = .ok result) (hstate : result.valueState = "value") :
    unitConflict raw unit = false ∧
      scaleOf (cellUnit raw unit) = (result.scaleMultiplier, result.unitCanonical) ∧
      ∃ numeral suffix text, matchNumber raw = some (numeral, suffix) ∧
        scaledText raw numeral result.scaleMultiplier = .ok text ∧
        result.valueDecimal = some text := by
  unfold value at h
  cases hconflict : unitConflict raw unit with
  | true =>
    rw [hconflict, if_pos rfl] at h
    cases h
    exact absurd hstate (show "conflict" ≠ "value" by decide)
  | false =>
    refine ⟨rfl, ?_⟩
    rw [hconflict, if_neg Bool.false_ne_true] at h
    split_ifs at h
    · cases h
      exact absurd hstate (show "missing" ≠ "value" by decide)
    · cases hnumber : matchNumber raw with
      | none =>
        rw [hnumber] at h
        cases h
        exact absurd hstate (show "unreadable" ≠ "value" by decide)
      | some found =>
        obtain ⟨numeral, suffix⟩ := found
        rw [hnumber] at h
        obtain ⟨text, htext, hresult⟩ := map_ok_iff.mp h
        cases hresult
        exact ⟨rfl, numeral, suffix, text, rfl, htext, rfl⟩

theorem unitRaw_eq {unit : Option String} (h : unitConflict raw unit = false)
    (hunit : unit ≠ some "") : unitRaw raw unit = cellUnit raw unit := by
  unfold unitConflict at h
  unfold unitRaw cellUnit
  cases hown : rawUnit raw with
  | none => cases unit <;> rfl
  | some own =>
    cases unit with
    | none => rfl
    | some text =>
      rw [hown] at h
      have htruthy : truthy (some text) = true := by
        apply bne_iff_ne.mpr
        rintro rfl
        exact hunit rfl
      simp only [htruthy, Bool.true_and, bne_eq_false_iff_eq] at h
      exact h

/-- What ingest stores for a cell is the number that the checker reads from it: the displayed
number times the multiplier, with the unit split alike. -/
theorem value_numeric (raw : String) (unit : Option String) :
    (∀ text, scaleOf text = splitScale text) ∧
      ∀ result, value raw unit = .ok result → result.valueState = "value" →
        splitScale (cellUnit raw unit) = (result.scaleMultiplier, result.unitCanonical) ∧
        (unit ≠ some "" →
          splitScale (unitRaw raw unit) = (result.scaleMultiplier, result.unitCanonical)) ∧
        ∃ numeral suffix shown, matchNumber raw = some (numeral, suffix) ∧
          display raw (scaleValue result.scaleMultiplier) = some shown ∧
          shown.value = numeral.value * scaleValue result.scaleMultiplier ∧
          decimal result.valueDecimal = some shown.value := by
  refine ⟨scaleOf_eq, ?_⟩
  intro result h hstate
  obtain ⟨hconflict, hscale, numeral, suffix, text, hnumber, htext, hdecimal⟩ := value_eq h hstate
  rw [scaleOf_eq] at hscale
  refine ⟨hscale, ?_, numeral, suffix, ?_⟩
  · intro hunit
    rw [unitRaw_eq hconflict hunit]
    exact hscale
  · have hshown : display raw (scaleValue result.scaleMultiplier) =
        (some (numeral, suffix)).map _ := congrArg (Option.map _) hnumber
    refine ⟨_, hnumber, hshown, rfl, ?_⟩
    rw [hdecimal]
    exact scaledText_value hnumber htext

theorem value_numeric_thousand :
    value "-1,234.50 천 톤" none = .ok ⟨some "-1234500.00", some "톤", "1000", "value"⟩ ∧
      splitScale (cellUnit "-1,234.50 천 톤" none) = ("1000", some "톤") := by
  have hvalue : value "-1,234.50 천 톤" none =
      .ok ⟨some "-1234500.00", some "톤", "1000", "value"⟩ := by decide +kernel
  exact ⟨hvalue, ((value_numeric "-1,234.50 천 톤" none).2 _ hvalue rfl).1⟩

end ProofOps.Application.Ingest.Normalize
