import Mathlib.Algebra.Order.Field.Power
import Mathlib.Data.Nat.Log
import Mathlib.Tactic.Linarith
import Mathlib.Tactic.Positivity
import Mathlib.Tactic.Ring

/-!
# Decimals of bounded precision

Non-negative decimals as `decimal.Decimal` keeps them: a coefficient and a power of
ten.  Comparison is exact; addition is exact and then rounded half to even to the
precision of a context.  A sum that the context can represent is not changed by the
rounding (`round_value`), so a running sum whose partial sums are representable is
the exact sum (`sum_value`).
-/

namespace ProofOps.Foundation

/-- `coefficient * 10 ^ exponent`. -/
structure Decimal where
  coefficient : Nat
  exponent : Int
  deriving DecidableEq

namespace Decimal

structure Context where
  precision : Nat
  tiny : Int

def standard : Context where
  precision := 28
  tiny := -1000026

def wide : Context where
  precision := 100
  tiny := -1000098

theorem standard_precision : 0 < standard.precision := by
  decide

theorem wide_precision : 0 < wide.precision := by
  decide

def zero : Decimal := ⟨0, 0⟩

def value (d : Decimal) : ℚ := d.coefficient * (10 : ℚ) ^ d.exponent

def rescaled (d : Decimal) (exponent : Int) : Nat :=
  d.coefficient * 10 ^ (d.exponent - exponent).toNat

def lt (a b : Decimal) : Bool :=
  a.rescaled (min a.exponent b.exponent) < b.rescaled (min a.exponent b.exponent)

def plus (a b : Decimal) : Decimal where
  coefficient := a.rescaled (min a.exponent b.exponent) + b.rescaled (min a.exponent b.exponent)
  exponent := min a.exponent b.exponent

def halfEven (n m : Nat) : Nat :=
  if m < 2 * (n % m) ∨ (2 * (n % m) = m ∧ n / m % 2 = 1) then n / m + 1 else n / m

variable (ctx : Context) (d : Decimal)

def roundedExponent : Int :=
  max (d.exponent + (Nat.log 10 d.coefficient + 1) - ctx.precision) ctx.tiny

def round : Decimal :=
  if roundedExponent ctx d ≤ d.exponent then d
  else
    { coefficient := halfEven d.coefficient (10 ^ (roundedExponent ctx d - d.exponent).toNat)
      exponent := roundedExponent ctx d }

def add (a b : Decimal) : Decimal :=
  round ctx (plus a b)

variable (ds : List Decimal)

/-- `sum(..., Decimal(0))`. -/
def sum : Decimal :=
  ds.foldl (add ctx) zero

def Representable (q : ℚ) : Prop :=
  ∃ (coefficient : Nat) (exponent : Int), coefficient < 10 ^ ctx.precision ∧
    ctx.tiny ≤ exponent ∧ q = coefficient * (10 : ℚ) ^ exponent

@[simp]
theorem value_zero : zero.value = 0 := by
  simp [zero, value]

theorem value_nonneg : 0 ≤ d.value := by
  unfold value
  positivity

/-- Rescaling keeps the value. -/
theorem value_rescaled {exponent : Int} (h : exponent ≤ d.exponent) :
    (d.rescaled exponent : ℚ) * (10 : ℚ) ^ exponent = d.value := by
  have hten : (10 : ℚ) ≠ 0 := by norm_num
  unfold rescaled value
  push_cast
  rw [mul_assoc, ← zpow_natCast, ← zpow_add₀ hten, Int.toNat_of_nonneg (by omega),
    Int.sub_add_cancel]

theorem lt_iff {a b : Decimal} : lt a b = true ↔ a.value < b.value := by
  have hpos : (0 : ℚ) < (10 : ℚ) ^ min a.exponent b.exponent := by positivity
  unfold lt
  rw [decide_eq_true_eq, ← value_rescaled a (min_le_left _ b.exponent),
    ← value_rescaled b (min_le_right a.exponent _), mul_lt_mul_iff_left₀ hpos, Nat.cast_lt]

theorem value_plus (a b : Decimal) : (plus a b).value = a.value + b.value := by
  rw [← value_rescaled a (min_le_left _ b.exponent),
    ← value_rescaled b (min_le_right a.exponent _), ← add_mul, ← Nat.cast_add]
  rfl

theorem halfEven_of_dvd {n m : Nat} (h : m ∣ n) : halfEven n m = n / m := by
  have hrest : n % m = 0 := Nat.mod_eq_zero_of_dvd h
  unfold halfEven
  rw [hrest, if_neg]
  rintro (hlt | ⟨hzero, hodd⟩)
  · omega
  · have hm : m = 0 := by omega
    simp [hm] at hodd

theorem dvd_of_representable {ctx : Context} {d : Decimal} (h : Representable ctx d.value)
    (hdrop : d.exponent < roundedExponent ctx d) :
    10 ^ (roundedExponent ctx d - d.exponent).toNat ∣ d.coefficient := by
  obtain ⟨coefficient, exponent, hsmall, htiny, hvalue⟩ := h
  have hten : (10 : ℚ) ≠ 0 := by norm_num
  by_cases hzero : d.coefficient = 0
  · rw [hzero]
    exact dvd_zero _
  have hexponent : roundedExponent ctx d ≤ exponent := by
    -- Otherwise the number has more digits than the precision.
    by_contra hlow
    have hdigits : roundedExponent ctx d =
        d.exponent + (Nat.log 10 d.coefficient + 1) - ctx.precision := by
      unfold roundedExponent at hlow ⊢
      omega
    have hlead : (10 : ℚ) ^ (Nat.log 10 d.coefficient : Int) ≤ (d.coefficient : ℚ) := by
      exact_mod_cast Nat.pow_log_le_self 10 hzero
    have hbelow : (coefficient : ℚ) < (10 : ℚ) ^ (ctx.precision : Int) := by
      exact_mod_cast hsmall
    have hlower : (10 : ℚ) ^ ((Nat.log 10 d.coefficient : Int) + d.exponent) ≤ d.value := by
      rw [zpow_add₀ hten]
      exact mul_le_mul_of_nonneg_right hlead (by positivity)
    have hupper : d.value < (10 : ℚ) ^ ((ctx.precision : Int) + exponent) := by
      rw [hvalue, zpow_add₀ hten]
      exact mul_lt_mul_of_pos_right hbelow (by positivity)
    have hpow := (zpow_lt_zpow_iff_right₀ (by norm_num : (1 : ℚ) < 10)).mp (hlower.trans_lt hupper)
    omega
  -- The coefficient is the other one with zeros appended.
  have hsame : (d.coefficient : ℚ) = coefficient * (10 : ℚ) ^ (exponent - d.exponent) := by
    have hback : d.value * (10 : ℚ) ^ (-d.exponent) = d.coefficient := by
      unfold value
      rw [mul_assoc, ← zpow_add₀ hten, add_neg_cancel, zpow_zero, mul_one]
    rw [← hback, hvalue, mul_assoc, ← zpow_add₀ hten, Int.sub_eq_add_neg]
  have hnat : d.coefficient = coefficient * 10 ^ (exponent - d.exponent).toNat := by
    have hcast : (exponent - d.exponent) = ((exponent - d.exponent).toNat : Int) := by omega
    rw [hcast, zpow_natCast] at hsame
    exact_mod_cast hsame
  rw [hnat]
  exact Dvd.dvd.mul_left (Nat.pow_dvd_pow 10 (by omega)) coefficient

theorem round_value {ctx : Context} {d : Decimal} (h : Representable ctx d.value) :
    (round ctx d).value = d.value := by
  unfold round
  split_ifs with hkeep
  · rfl
  · have hdrop := not_le.mp hkeep
    obtain ⟨quotient, hquotient⟩ := dvd_of_representable h hdrop
    rw [halfEven_of_dvd ⟨quotient, hquotient⟩, hquotient,
      Nat.mul_div_cancel_left quotient (by positivity)]
    have hten : (10 : ℚ) ≠ 0 := by norm_num
    have hpow : (10 : ℚ) ^ roundedExponent ctx d =
        (10 : ℚ) ^ ((roundedExponent ctx d - d.exponent).toNat : Int) * (10 : ℚ) ^ d.exponent := by
      rw [← zpow_add₀ hten]
      congr 1
      omega
    unfold value
    rw [hpow, hquotient, zpow_natCast]
    push_cast
    ring

theorem add_value {ctx : Context} {a b : Decimal} (h : Representable ctx (a.value + b.value)) :
    (add ctx a b).value = a.value + b.value := by
  rw [← value_plus] at h ⊢
  exact round_value h

def SumsExactly : Prop :=
  ∀ front back, ds = front ++ back → Representable ctx (front.map value).sum

theorem sum_append_singleton (d : Decimal) : sum ctx (ds ++ [d]) = add ctx (sum ctx ds) d := by
  unfold sum
  rw [List.foldl_append, List.foldl_cons, List.foldl_nil]

theorem sum_value {ctx : Context} {ds : List Decimal} (h : SumsExactly ctx ds) :
    (sum ctx ds).value = (ds.map value).sum := by
  induction ds using List.reverseRecOn with
  | nil => exact value_zero
  | append_singleton ds d ih =>
    have hfront : SumsExactly ctx ds := by
      intro front back hds
      exact h front (back ++ [d]) (by rw [hds, List.append_assoc])
    have hwhole := h (ds ++ [d]) [] (List.append_nil _).symm
    rw [List.map_append, List.sum_append, List.map_singleton, List.sum_singleton] at hwhole ⊢
    rw [sum_append_singleton, ← ih hfront]
    exact add_value (by rwa [ih hfront])

theorem sumsExactly_of_lt {ctx : Context} {ds : List Decimal} {exponent : Int}
    (htiny : ctx.tiny ≤ exponent) (hexponent : ∀ d ∈ ds, exponent ≤ d.exponent)
    (hsum : (ds.map fun d => d.rescaled exponent).sum < 10 ^ ctx.precision) :
    SumsExactly ctx ds := by
  rintro front back rfl
  rw [List.map_append, List.sum_append] at hsum
  refine ⟨(front.map fun d => d.rescaled exponent).sum, exponent, by omega, htiny, ?_⟩
  have hfront : ∀ d ∈ front, exponent ≤ d.exponent :=
    fun d hd => hexponent d (List.mem_append_left back hd)
  clear hsum hexponent
  induction front with
  | nil => simp
  | cons d front ih =>
    rw [List.forall_mem_cons] at hfront
    simp only [List.map_cons, List.sum_cons, Nat.cast_add, add_mul]
    rw [value_rescaled d hfront.1, ih hfront.2]

example : add ⟨2, -10⟩ ⟨6, -1⟩ ⟨6, -1⟩ = ⟨12, -1⟩ ∧ add ⟨1, -10⟩ ⟨6, -1⟩ ⟨6, -1⟩ = ⟨1, 0⟩ := by
  decide +kernel

end Decimal
end ProofOps.Foundation
