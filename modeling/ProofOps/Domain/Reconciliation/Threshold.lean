import ProofOps.Domain.Numeric.Digits
import ProofOps.Domain.Reconciliation.Engine
import ProofOps.Foundation.DecimalExact

/-!
# The threshold of C3

`_within_threshold` compares a commitment with a share of the CAPEX.  It divides nothing, and its
context is wide enough for every digit of the product, so inside the exponent range it compares the
exact numbers (`withinTexts_exact`).
-/

namespace ProofOps.Domain.Reconciliation.C3

open Foundation Numeric

/-- An amount with its sign. -/
abbrev Amount := Bool × Decimal

/-- The number of an amount. -/
def number (amount : Amount) : ℚ :=
  signedValue amount.1 amount.2.coefficient amount.2.exponent

variable (commitment threshold capex : Amount)

def within : Except EngineError Bool :=
  let digits := digitCount commitment.2 + digitCount threshold.2 + digitCount capex.2
  let product := Decimal.times (wideContext digits) threshold.2 capex.2
  if product.coefficient ≠ 0 ∧ 999999 < product.exponent + Nat.log 10 product.coefficient then
    .error .overflow
  else .ok (number commitment ≤ number (threshold.1 != capex.1, product))

def withinTexts (commitment threshold capex : String) : Except EngineError Bool := do
  let commitment ← parseDecimal commitment "sustainability.normalized"
  let capex ← parseDecimal capex "financial.normalized"
  let threshold ← parseDecimal threshold "policy.c3_threshold"
  within commitment threshold capex

def InRange : Prop :=
  Decimal.InRange
    (wideContext (digitCount commitment.2 + digitCount threshold.2 + digitCount capex.2)) 999999
    (threshold.2.value * capex.2.value)

theorem product_digits (commitment threshold capex : Decimal) :
    threshold.coefficient * capex.coefficient <
      10 ^ (wideContext (digitCount commitment + digitCount threshold + digitCount capex)).precision := by
  have hthreshold : threshold.coefficient < 10 ^ digitCount threshold :=
    Nat.lt_pow_succ_log_self (by norm_num) _
  have hcapex : capex.coefficient < 10 ^ digitCount capex :=
    Nat.lt_pow_succ_log_self (by norm_num) _
  calc threshold.coefficient * capex.coefficient
      < 10 ^ digitCount threshold * 10 ^ digitCount capex :=
        Nat.mul_lt_mul_of_lt_of_lt hthreshold hcapex
    _ = 10 ^ (digitCount threshold + digitCount capex) := (Nat.pow_add 10 _ _).symm
    _ ≤ _ := Nat.pow_le_pow_right (by norm_num) (by unfold wideContext; dsimp only; omega)

theorem number_product {threshold capex : Amount} {product : Decimal}
    (h : product.value = threshold.2.value * capex.2.value) :
    number (threshold.1 != capex.1, product) = number threshold * number capex := by
  obtain ⟨negative, threshold⟩ := threshold
  obtain ⟨other, capex⟩ := capex
  have hnumber : ∀ (sign : Bool) (d : Decimal),
      number (sign, d) = if sign then -d.value else d.value := fun _ _ => rfl
  simp only [hnumber, h]
  cases negative <;> cases other <;> simp

theorem withinThreshold_eq {commitment threshold capex : Decimal}
    (hrange : InRange (false, commitment) (false, threshold) (false, capex)) :
    withinThreshold commitment threshold capex =
      within (false, commitment) (false, threshold) (false, capex) := by
  obtain ⟨hvalue, hleading⟩ := (Decimal.inRange_iff_times (Nat.succ_pos _)
    (product_digits commitment threshold capex)).mp hrange
  obtain ⟨hlt, -⟩ := hrange
  rw [abs_of_nonneg (mul_nonneg (Decimal.value_nonneg _) (Decimal.value_nonneg _)),
    ← Decimal.value_product] at hlt
  unfold withinThreshold within
  dsimp only
  rw [if_neg (not_and.mpr fun hne => not_lt.mpr ((Decimal.leading_le_iff hne).mpr hlt)),
    if_neg (not_and.mpr fun hne => not_lt.mpr (hleading hne))]
  congr 1
  rw [Bool.eq_iff_iff, Bool.not_eq_true', ← Bool.not_eq_true, Decimal.lt_iff, not_lt,
    decide_eq_true_iff]
  rfl

/-- In the exponent range a threshold test returns, and decides the exact inequality. -/
theorem withinTexts_exact {commitmentText thresholdText capexText : String}
    {commitment threshold capex : Amount}
    (hcommitment : parseDecimal commitmentText "sustainability.normalized" = .ok commitment)
    (hthreshold : parseDecimal thresholdText "policy.c3_threshold" = .ok threshold)
    (hcapex : parseDecimal capexText "financial.normalized" = .ok capex)
    (hrange : InRange commitment threshold capex) :
    ∃ answer, withinTexts commitmentText thresholdText capexText = .ok answer ∧
      (answer = true ↔ number commitment ≤ number threshold * number capex) ∧
      (commitment.1 = false → threshold.1 = false → capex.1 = false →
        withinThreshold commitment.2 threshold.2 capex.2 = .ok answer) := by
  have hwithin : withinTexts commitmentText thresholdText capexText =
      within commitment threshold capex := by
    unfold withinTexts
    rw [hcommitment, hcapex, hthreshold]
    rfl
  obtain ⟨hvalue, hleading⟩ := (Decimal.inRange_iff_times (Nat.succ_pos _)
    (product_digits commitment.2 threshold.2 capex.2)).mp hrange
  have hanswer : ∃ answer, within commitment threshold capex = .ok answer ∧
      (answer = true ↔ number commitment ≤ number threshold * number capex) := by
    unfold within
    rw [if_neg (not_and.mpr fun hne => not_lt.mpr (hleading hne))]
    refine ⟨_, rfl, ?_⟩
    rw [decide_eq_true_iff, number_product hvalue]
  obtain ⟨answer, hok, hiff⟩ := hanswer
  refine ⟨answer, hwithin.trans hok, hiff, ?_⟩
  obtain ⟨sign, commitment⟩ := commitment
  obtain ⟨sign', threshold⟩ := threshold
  obtain ⟨sign'', capex⟩ := capex
  rintro rfl rfl rfl
  exact (withinThreshold_eq hrange).trans hok

/-- Half of a CAPEX of `10` is in range. -/
theorem withinTexts_exact_half :
    ∃ answer, withinTexts "1" "0.5" "10" = .ok answer ∧ (answer = true ↔
      number (false, ⟨1, 0⟩) ≤ number (false, ⟨5, -1⟩) * number (false, ⟨10, 0⟩)) := by
  have hrange : InRange (false, ⟨1, 0⟩) (false, ⟨5, -1⟩) (false, ⟨10, 0⟩) := by
    refine (Decimal.inRange_iff_times (Nat.succ_pos _) (by decide)).mpr ⟨?_, by decide⟩
    exact (congrArg Decimal.value (Decimal.times_of_lt (by decide) (by decide) (by decide))).trans
      (Decimal.value_product _ _)
  obtain ⟨answer, hok, hiff, -⟩ := @withinTexts_exact "1" "0.5" "10" _ _ _ rfl rfl rfl hrange
  exact ⟨answer, hok, hiff⟩

theorem within_without_difference :
    withinTexts "1" "0.5" "10" = .ok true ∧
      parseDecimal "1" "sustainability.normalized" = .ok (false, ⟨1, 0⟩) ∧
      parseDecimal "10" "financial.normalized" = .ok (false, ⟨10, 0⟩) ∧
      isRatio "0.5" = true ∧ parseDecimal "0.5" "policy.c3_threshold" = .ok (false, ⟨5, -1⟩) ∧
      ¬|number (false, ⟨1, 0⟩) - number (false, ⟨10, 0⟩)| ≤ number (false, ⟨5, -1⟩) ∧
      ¬|number (false, ⟨1, 0⟩) - number (false, ⟨10, 0⟩)| / number (false, ⟨10, 0⟩) ≤
        number (false, ⟨5, -1⟩) := by
  refine ⟨by decide +kernel, by rfl, by rfl, by rfl, by rfl, ?_, ?_⟩ <;>
  · unfold number signedValue
    norm_num

end ProofOps.Domain.Reconciliation.C3
