import Mathlib.Data.Nat.Prime.Basic
import Mathlib.Tactic.NormNum
import Mathlib.Tactic.Positivity
import Mathlib.Tactic.Ring
import ProofOps.Domain.Numeric.Digits
import ProofOps.Domain.Values
import ProofOps.Foundation.Checked

/-!
# The decimal text of a fraction

`_exact_decimal` finds the fractions with a terminating expansion by their denominators, and its
precision holds every digit of the quotient.  It measures numerator and denominator by their texts,
which the interpreter writes for at most 4300 digits.
-/

namespace ProofOps.Domain.Numeric

open Foundation

def strDigitLimit : Nat := 4300

/-- `str(n)`. -/
def strInt (n : Nat) : Except PyError String :=
  if strDigitLimit < (toString n).length then
    .error (.valueError ("Exceeds the limit (4300 digits) for integer string conversion; " ++
      "use sys.set_int_max_str_digits() to increase the limit"))
  else .ok (toString n)

variable (value : ℚ)

/-- `_exact_decimal`. -/
def exactDecimalText : Except PyError (Option String) :=
  match exactDecimal value with
  | none => .ok none
  | some text => do
    let _ ← strInt value.num.natAbs
    let _ ← strInt value.den
    return some text

theorem divideOut_spec {factor : Nat} (hfactor : 1 < factor) {fuel value : Nat} (hpos : 0 < value)
    (hfuel : value ≤ fuel) :
    value = factor ^ (divideOut factor fuel value).2 * (divideOut factor fuel value).1 ∧
      ¬factor ∣ (divideOut factor fuel value).1 := by
  induction fuel generalizing value with
  | zero => omega
  | succ fuel ih =>
    unfold divideOut
    split_ifs with hdivides
    · have hvalue : value = factor * (value / factor) :=
        (Nat.mul_div_cancel' (Nat.dvd_of_mod_eq_zero hdivides)).symm
      have hquotient : 0 < value / factor := Nat.pos_of_ne_zero fun hzero => by
        rw [hzero] at hvalue
        omega
      have hless := Nat.div_lt_self hpos hfactor
      obtain ⟨hsplit, hrest⟩ := ih hquotient (by omega)
      refine ⟨?_, hrest⟩
      rw [pow_succ', mul_assoc, ← hsplit]
      exact hvalue
    · exact ⟨by rw [pow_zero, one_mul], fun h => hdivides (Nat.mod_eq_zero_of_dvd h)⟩

def Terminating : Prop :=
  ∃ (numerator : Int) (places : Nat), value = numerator / 10 ^ places

/-- A denominator is split into twos, fives and a rest. -/
theorem den_split : ∃ twos fives rest,
    divideOut 2 value.den value.den = (5 ^ fives * rest, twos) ∧
      divideOut 5 (5 ^ fives * rest) (5 ^ fives * rest) = (rest, fives) ∧
      value.den = 2 ^ twos * (5 ^ fives * rest) ∧ (Terminating value ↔ rest = 1) := by
  obtain ⟨hden, htwo⟩ := divideOut_spec (by decide : 1 < 2) value.den_pos le_rfl
  have hodd : 0 < (divideOut 2 value.den value.den).1 :=
    Nat.pos_of_ne_zero fun hzero => htwo (hzero ▸ dvd_zero 2)
  obtain ⟨hsplit, hfive⟩ := divideOut_spec (by decide : 1 < 5) hodd le_rfl
  generalize hfirst : divideOut 2 value.den value.den = first at *
  generalize hsecond : divideOut 5 first.1 first.1 = second at *
  obtain ⟨odd, twos⟩ := first
  obtain ⟨rest, fives⟩ := second
  refine ⟨twos, fives, rest, by rw [← hsplit], by rw [← hsplit, hsecond], by rw [← hsplit]; exact hden, ?_⟩
  constructor
  · rintro ⟨numerator, places, hvalue⟩
    have hdvd : value.den ∣ 10 ^ places := by
      have h := Rat.den_dvd numerator ((10 ^ places : Nat) : Int)
      rw [Rat.divInt_eq_div] at h
      push_cast at h
      rw [← hvalue] at h
      exact_mod_cast h
    have hrest : rest ∣ 10 ^ places := by
      refine dvd_trans ?_ hdvd
      rw [hden, hsplit]
      exact (Dvd.intro_left _ rfl).mul_left _
    have htwoRest : Nat.Coprime rest 2 := by
      refine ((Nat.Prime.coprime_iff_not_dvd Nat.prime_two).mpr fun h => htwo ?_).symm
      rw [hsplit]
      exact h.mul_left _
    have hfiveRest : Nat.Coprime rest 5 :=
      ((Nat.Prime.coprime_iff_not_dvd Nat.prime_five).mpr hfive).symm
    have hten : Nat.Coprime rest (10 ^ places) :=
      Nat.Coprime.pow_right _ (show Nat.Coprime rest (2 * 5) from htwoRest.mul_right hfiveRest)
    exact Nat.Coprime.eq_one_of_dvd hten hrest
  · rintro rfl
    refine ⟨value.num * (5 ^ twos * 2 ^ fives : Nat), twos + fives, ?_⟩
    have hdenominator : (value.den : ℚ) = 2 ^ twos * 5 ^ fives := by
      rw [hden, hsplit]
      push_cast
      ring
    nth_rewrite 1 [← Rat.num_div_den value]
    rw [hdenominator, div_eq_div_iff (by positivity) (by positivity)]
    push_cast
    rw [show (10 : ℚ) = 2 * 5 by norm_num, mul_pow, pow_add, pow_add]
    ring

theorem exactDecimal_none_iff : exactDecimal value = none ↔ ¬Terminating value := by
  obtain ⟨twos, fives, rest, hfirst, hsecond, -, hterminating⟩ := den_split value
  rw [hterminating]
  unfold exactDecimal
  rw [hfirst]
  dsimp only
  rw [hsecond]
  split_ifs with hrest
  · simp [hrest]
  · simpa using hrest

/-! ### The precision -/

theorem lt_pow_length (n : Nat) : n < 10 ^ (toString n).length :=
  (Nat.length_repr_le_iff Nat.length_repr_pos).mp le_rfl

theorem length_le_iff {n k : Nat} (hk : 0 < k) : (toString n).length ≤ k ↔ n < 10 ^ k :=
  Nat.length_repr_le_iff hk

theorem exact_of_lt {coefficient digits : Nat} (h : coefficient < 10 ^ digits)
    (hpos : 0 < digits) (hdigits : digits ≤ 5000) : Exact coefficient 0 := by
  have hlength := (length_le_iff hpos).mpr h
  unfold Exact adjusted decimalEtiny decimalEmax
  split_ifs <;> omega

theorem roundHalfEven_zero (n : Nat) : roundHalfEven n 0 = n := by
  unfold roundHalfEven
  simp only [pow_zero, Nat.div_one, Nat.mod_one]
  rfl

theorem places_le {value : ℚ} {twos fives : Nat} (h : value.den = 2 ^ twos * 5 ^ fives) :
    max twos fives ≤ 4 * (toString value.den).length := by
  have hden : 2 ^ max twos fives ≤ value.den := by
    rw [h]
    rcases le_total twos fives with hle | hle
    · rw [max_eq_right hle]
      calc 2 ^ fives ≤ 5 ^ fives := Nat.pow_le_pow_left (by decide) _
        _ ≤ 2 ^ twos * 5 ^ fives := Nat.le_mul_of_pos_left _ (by positivity)
    · rw [max_eq_left hle]
      exact Nat.le_mul_of_pos_right _ (by positivity)
  have hlength : value.den ≤ 2 ^ (4 * (toString value.den).length) :=
    calc value.den ≤ 10 ^ (toString value.den).length := (lt_pow_length _).le
      _ ≤ 16 ^ (toString value.den).length := Nat.pow_le_pow_left (by decide) _
      _ = 2 ^ (4 * (toString value.den).length) := by
          rw [pow_mul]
          norm_num
  exact (Nat.pow_le_pow_iff_right (by decide)).mp (hden.trans hlength)

/-- A terminating fraction is written in fixed-point form. -/
theorem exactDecimal_some {value : ℚ} (h : Terminating value) :
    ∃ coefficient places : Nat, exactDecimal value =
        some (fixedPoint (value.num < 0) coefficient (-(places : Int))) ∧
      signedValue (value.num < 0) coefficient (-(places : Int)) = value ∧
      coefficient < 10 ^ ((toString value.num.natAbs).length + 4 * (toString value.den).length) ∧
      places ≤ 4 * (toString value.den).length := by
  obtain ⟨twos, fives, rest, hfirst, hsecond, hden, hterminating⟩ := den_split value
  obtain rfl := hterminating.mp h
  rw [mul_one] at hden hfirst hsecond
  have hplaces := places_le hden
  have hscale : ∃ scale, 10 ^ max twos fives = value.den * scale := by
    rw [hden, show (10 : Nat) = 2 * 5 from rfl, mul_pow]
    exact mul_dvd_mul (pow_dvd_pow 2 (le_max_left _ _)) (pow_dvd_pow 5 (le_max_right _ _))
  generalize hmax : max twos fives = places at hplaces hscale
  obtain ⟨scale, hscale⟩ := hscale
  have hquotient : value.num.natAbs * 10 ^ places / value.den = value.num.natAbs * scale := by
    rw [hscale, mul_left_comm, Nat.mul_div_cancel_left _ value.den_pos]
  have hsmall : value.num.natAbs * scale <
      10 ^ ((toString value.num.natAbs).length + 4 * (toString value.den).length) := by
    have hle : scale ≤ 10 ^ (4 * (toString value.den).length) := by
      calc scale ≤ value.den * scale := Nat.le_mul_of_pos_left _ value.den_pos
        _ = 10 ^ places := hscale.symm
        _ ≤ _ := Nat.pow_le_pow_right (by decide) hplaces
    rw [pow_add]
    exact Nat.mul_lt_mul_of_lt_of_le (lt_pow_length _) hle (by positivity)
  refine ⟨value.num.natAbs * scale, places, ?_, ?_, hsmall, hplaces⟩
  · have hlength : (toString (value.num.natAbs * scale)).length ≤
        (toString value.num.natAbs).length + (toString value.den).length * 4 + 1 := by
      rw [length_le_iff (Nat.succ_pos _)]
      exact hsmall.trans_le (Nat.pow_le_pow_right (by decide) (by omega))
    unfold exactDecimal
    rw [hfirst]
    dsimp only
    rw [hsecond]
    rw [hmax, if_neg (not_not.mpr rfl), hquotient, Nat.sub_eq_zero_of_le hlength, roundHalfEven_zero,
      Nat.cast_zero, zero_sub]
  · have hten : (10 : ℚ) ^ places = value.den * scale := by exact_mod_cast hscale
    have hmagnitude : ((value.num.natAbs * scale : Nat) : ℚ) * (10 : ℚ) ^ (-(places : Int)) =
        value.num.natAbs / value.den := by
      have hscaled : (value.den : ℚ) * scale ≠ 0 := by
        rw [← hten]
        positivity
      rw [zpow_neg, zpow_natCast, hten, ← div_eq_mul_inv]
      push_cast
      exact mul_div_mul_right _ _ (right_ne_zero_of_mul hscaled)
    have hvalue : value = value.num / value.den := (Rat.num_div_den value).symm
    unfold signedValue
    rw [hmagnitude]
    split_ifs with hnegative
    · rw [Nat.cast_natAbs, abs_of_neg (of_decide_eq_true hnegative), Int.cast_neg, neg_div, neg_neg]
      exact hvalue.symm
    · rw [Nat.cast_natAbs, abs_of_nonneg (not_lt.mp fun h => hnegative (decide_eq_true h))]
      exact hvalue.symm

theorem decimal_exactDecimal {value : ℚ} (h : Terminating value)
    (hnumerator : value.num.natAbs < 10 ^ strDigitLimit) (hden : value.den < 10 ^ strDigitLimit) :
    ∃ text, exactDecimal value = some text ∧ decimal (some text) = some value := by
  obtain ⟨coefficient, places, htext, hvalue, hsmall, hplaces⟩ := exactDecimal_some h
  refine ⟨_, htext, ?_⟩
  have hnumeratorLength := (length_le_iff (by decide)).mpr hnumerator
  have hdenLength := (length_le_iff (by decide)).mpr hden
  have hexact : Exact coefficient (-(places : Int)) := by
    have hlength : (toString coefficient).length ≤ 5 * strDigitLimit := by
      rw [length_le_iff (by decide)]
      exact hsmall.trans_le (Nat.pow_le_pow_right (by decide) (by omega))
    have hlimit : strDigitLimit = 4300 := rfl
    unfold Exact adjusted decimalEtiny decimalEmax
    split_ifs <;> omega
  rw [decimal_fixedPoint hexact, hvalue]

theorem strInt_ok_iff {n : Nat} : (∃ text, strInt n = .ok text) ↔ n < 10 ^ strDigitLimit := by
  unfold strInt
  split_ifs with h
  · rw [← not_le, not_iff_not.mpr (length_le_iff (by decide))] at h
    simp [h]
  · rw [not_lt, length_le_iff (by decide)] at h
    simp [h]

structure Writable : Prop where
  numerator : value.num.natAbs < 10 ^ strDigitLimit
  denominator : value.den < 10 ^ strDigitLimit

theorem exactDecimalText_ok_iff {value : ℚ} {rendered : Option String} :
    exactDecimalText value = .ok rendered ↔
      exactDecimal value = rendered ∧ (Terminating value → Writable value) := by
  by_cases h : Terminating value
  · obtain ⟨coefficient, places, htext, -⟩ := exactDecimal_some h
    unfold exactDecimalText
    rw [htext]
    constructor
    · intro hresult
      obtain ⟨numerator, hnumerator, hresult⟩ := Checked.bind_ok hresult
      obtain ⟨denominator, hdenominator, hresult⟩ := Checked.bind_ok hresult
      refine ⟨Checked.pure_ok hresult, fun _ => ⟨?_, ?_⟩⟩
      · exact strInt_ok_iff.mp ⟨_, hnumerator⟩
      · exact strInt_ok_iff.mp ⟨_, hdenominator⟩
    · rintro ⟨rfl, hlimit⟩
      obtain ⟨first, hfirst⟩ := strInt_ok_iff.mpr (hlimit h).numerator
      obtain ⟨second, hsecond⟩ := strInt_ok_iff.mpr (hlimit h).denominator
      rw [hfirst, hsecond]
      rfl
  · have hnone := (exactDecimal_none_iff value).mpr h
    unfold exactDecimalText
    rw [hnone]
    simp [h]

def Renders : Prop :=
  ∃ result, exactDecimalText value = .ok result ∧ (result = none ↔ ¬Terminating value) ∧
    ∀ text ∈ result, decimal (some text) = some value

/-- **A fraction is rendered exactly unless its texts are refused.**  There is no text if and only if the
fraction has no terminating expansion, and the text reads back as the fraction, if and only if a
terminating fraction has numerator and denominator of at most 4300 digits. -/
theorem renders_iff (value : ℚ) :
    Renders value ↔ (Terminating value →
      value.num.natAbs < 10 ^ strDigitLimit ∧ value.den < 10 ^ strDigitLimit) := by
  constructor
  · rintro ⟨result, hresult, -⟩ h
    obtain ⟨hnumerator, hden⟩ := (exactDecimalText_ok_iff.mp hresult).2 h
    exact ⟨hnumerator, hden⟩
  · intro hlimit
    have hwritable : Terminating value → Writable value := fun h => ⟨(hlimit h).1, (hlimit h).2⟩
    refine ⟨exactDecimal value, exactDecimalText_ok_iff.mpr ⟨rfl, hwritable⟩,
      exactDecimal_none_iff value, ?_⟩
    intro text htext
    have hterminating : Terminating value := by
      by_contra h
      rw [(exactDecimal_none_iff value).mpr h] at htext
      cases htext
    obtain ⟨same, hsame, hread⟩ := decimal_exactDecimal hterminating
      (hwritable hterminating).numerator (hwritable hterminating).denominator
    rw [hsame, Option.mem_some_iff] at htext
    rw [← htext]
    exact hread

theorem not_renders_of_long_numerator : ¬Renders ((10 ^ strDigitLimit : Nat) : ℚ) := by
  have hterminating : Terminating ((10 ^ strDigitLimit : Nat) : ℚ) := by
    refine ⟨(10 ^ strDigitLimit : Nat), 0, ?_⟩
    rw [pow_zero, div_one, Int.cast_natCast]
  rintro ⟨result, hresult, -⟩
  have hless := ((exactDecimalText_ok_iff.mp hresult).2 hterminating).numerator
  exact absurd hless (lt_irrefl _)

end ProofOps.Domain.Numeric
