import ProofOps.Foundation.Decimal

/-!
# Operations that round nothing

A number that fits its context is not changed by a rounding, a product of numbers that fit together
is the product, and a division by a power of ten only moves the exponent.
-/

namespace ProofOps.Foundation.Decimal

/-! ### Rounding does not pass a representable number -/

variable {a d : Decimal}

section

variable {ctx : Context}

/-- The product, rounded in a context. -/
def times (ctx : Context) (a b : Decimal) : Decimal :=
  round ctx ⟨a.coefficient * b.coefficient, a.exponent + b.exponent⟩

def same (a b : Decimal) : Bool :=
  !lt a b && !lt b a

def fixed (d : Decimal) : Decimal :=
  if 0 < d.exponent then ⟨d.rescaled 0, 0⟩ else d

theorem le_halfEven (n m : Nat) : n / m ≤ halfEven n m := by
  unfold halfEven
  split_ifs
  · exact Nat.le_succ _
  · exact Nat.le_refl _

theorem halfEven_le (n m : Nat) : halfEven n m ≤ n / m + 1 := by
  unfold halfEven
  split_ifs
  · exact Nat.le_refl _
  · exact Nat.le_succ _

theorem exponent_le_round (d : Decimal) : d.exponent ≤ (round ctx d).exponent := by
  unfold round
  split_ifs with hkeep
  · exact le_refl _
  · exact (not_le.mp hkeep).le

theorem div_lt_precision (hdrop : d.exponent < roundedExponent ctx d) :
    d.coefficient / 10 ^ (roundedExponent ctx d - d.exponent).toNat < 10 ^ ctx.precision := by
  rw [Nat.div_lt_iff_lt_mul (by positivity), ← pow_add]
  refine (Nat.lt_pow_succ_log_self (b := 10) (by norm_num) d.coefficient).trans_le ?_
  refine Nat.pow_le_pow_right (by norm_num) ?_
  unfold roundedExponent at hdrop ⊢
  omega

/-- A rounded decimal is representable. -/
theorem representable_round (hprecision : 0 < ctx.precision) (d : Decimal) :
    Representable ctx (round ctx d).value := by
  unfold round
  split_ifs with hkeep
  · refine ⟨d.coefficient, d.exponent, ?_, le_trans (le_max_right _ _) hkeep, rfl⟩
    refine (Nat.lt_pow_succ_log_self (b := 10) (by norm_num) d.coefficient).trans_le ?_
    refine Nat.pow_le_pow_right (by norm_num) ?_
    unfold roundedExponent at hkeep
    omega
  · have hdrop := not_le.mp hkeep
    have htiny : ctx.tiny ≤ roundedExponent ctx d := le_max_right _ _
    have hdigits := div_lt_precision hdrop
    have hupper := halfEven_le d.coefficient (10 ^ (roundedExponent ctx d - d.exponent).toNat)
    rcases Nat.lt_or_ge (halfEven d.coefficient
        (10 ^ (roundedExponent ctx d - d.exponent).toNat)) (10 ^ ctx.precision) with hlt | hge
    · exact ⟨_, roundedExponent ctx d, hlt, htiny, rfl⟩
    · -- All digits were nines: the number is a power of ten.
      have hpower : halfEven d.coefficient (10 ^ (roundedExponent ctx d - d.exponent).toNat) =
          10 ^ ctx.precision := by omega
      have hten : (10 : ℚ) ≠ 0 := by norm_num
      refine ⟨10 ^ (ctx.precision - 1), roundedExponent ctx d + 1,
        Nat.pow_lt_pow_right (by norm_num) (by omega), by omega, ?_⟩
      have hsplit : (10 : ℚ) ^ ctx.precision = 10 ^ (ctx.precision - 1) * 10 := by
        rw [← pow_succ, Nat.sub_add_cancel hprecision]
      unfold value
      rw [hpower, zpow_add₀ hten, zpow_one]
      push_cast
      rw [hsplit]
      ring

/-- Rounding does not pass a representable value downwards. -/
theorem le_round {q : ℚ} (hprecision : 0 < ctx.precision)
    (hq : Representable ctx q) (hle : q ≤ d.value) : q ≤ (round ctx d).value := by
  unfold round
  split_ifs with hkeep
  · exact hle
  · have hdrop := not_le.mp hkeep
    have hten : (10 : ℚ) ≠ 0 := by norm_num
    obtain ⟨coefficient, exponent, hsmall, htiny, rfl⟩ := hq
    have hshift : (10 : ℚ) ^ roundedExponent ctx d =
        (10 : ℚ) ^ (roundedExponent ctx d - d.exponent).toNat * (10 : ℚ) ^ d.exponent := by
      rw [← zpow_natCast, ← zpow_add₀ hten]
      congr 1
      omega
    have hfloor : ((d.coefficient / 10 ^ (roundedExponent ctx d - d.exponent).toNat : ℕ) : ℚ) *
        (10 : ℚ) ^ roundedExponent ctx d ≤
        (halfEven d.coefficient (10 ^ (roundedExponent ctx d - d.exponent).toNat) : ℚ) *
          (10 : ℚ) ^ roundedExponent ctx d := by
      refine mul_le_mul_of_nonneg_right ?_ (by positivity)
      exact_mod_cast le_halfEven _ _
    refine le_trans ?_ hfloor
    rcases le_or_gt (roundedExponent ctx d) exponent with hcoarse | hfine
    · -- A multiple of the last kept digit is not above the kept digits.
      have hmultiple : (coefficient : ℚ) * (10 : ℚ) ^ exponent =
          ((coefficient * 10 ^ (exponent - roundedExponent ctx d).toNat : ℕ) : ℚ) *
            (10 : ℚ) ^ roundedExponent ctx d := by
        push_cast
        rw [mul_assoc, ← zpow_natCast, ← zpow_add₀ hten]
        congr 2
        omega
      rw [hmultiple]
      refine mul_le_mul_of_nonneg_right ?_ (by positivity)
      rw [Nat.cast_le, Nat.le_div_iff_mul_le (by positivity)]
      rw [hmultiple, hshift, ← mul_assoc] at hle
      have hscaled := le_of_mul_le_mul_right hle (by positivity : (0 : ℚ) < 10 ^ d.exponent)
      exact_mod_cast hscaled
    · -- A finer number has its digits below the leading one.
      have hdigits : roundedExponent ctx d =
          d.exponent + (Nat.log 10 d.coefficient + 1) - ctx.precision := by
        unfold roundedExponent at hfine ⊢
        omega
      have hzero : d.coefficient ≠ 0 := by
        intro hzero
        rw [hzero, Nat.log_zero_right] at hdigits
        omega
      have hbelow : (coefficient : ℚ) * (10 : ℚ) ^ exponent ≤
          (10 : ℚ) ^ ((Nat.log 10 d.coefficient : Int) + d.exponent) := by
        calc (coefficient : ℚ) * (10 : ℚ) ^ exponent
            ≤ (10 : ℚ) ^ (ctx.precision : Int) * (10 : ℚ) ^ exponent := by
              refine mul_le_mul_of_nonneg_right ?_ (by positivity)
              exact_mod_cast hsmall.le
          _ = (10 : ℚ) ^ ((ctx.precision : Int) + exponent) := (zpow_add₀ hten _ _).symm
          _ ≤ (10 : ℚ) ^ ((Nat.log 10 d.coefficient : Int) + d.exponent) :=
              zpow_le_zpow_right₀ (by norm_num) (by omega)
      have hkept : 10 ^ (Nat.log 10 d.coefficient -
          (roundedExponent ctx d - d.exponent).toNat) ≤
          d.coefficient / 10 ^ (roundedExponent ctx d - d.exponent).toNat := by
        rw [Nat.le_div_iff_mul_le (by positivity), ← pow_add]
        refine le_trans (Nat.pow_le_pow_right (by norm_num) ?_)
          (Nat.pow_log_le_self 10 hzero)
        omega
      calc (coefficient : ℚ) * (10 : ℚ) ^ exponent
          ≤ (10 : ℚ) ^ ((Nat.log 10 d.coefficient : Int) + d.exponent) := hbelow
        _ = ((10 ^ (Nat.log 10 d.coefficient -
              (roundedExponent ctx d - d.exponent).toNat) : ℕ) : ℚ) *
              (10 : ℚ) ^ roundedExponent ctx d := by
            push_cast
            rw [← zpow_natCast, ← zpow_add₀ hten]
            congr 1
            omega
        _ ≤ _ := by
            refine mul_le_mul_of_nonneg_right ?_ (by positivity)
            exact_mod_cast hkept

theorem le_add (hprecision : 0 < ctx.precision) (ha : Representable ctx a.value)
    (b : Decimal) : a.value ≤ (add ctx a b).value := by
  refine le_round hprecision ha ?_
  rw [value_plus]
  have hb := value_nonneg b
  linarith

end

variable {ctx : Context}

theorem round_of_lt (hprecision : 0 < ctx.precision)
    (hdigits : d.coefficient < 10 ^ ctx.precision) (htiny : ctx.tiny ≤ d.exponent) :
    round ctx d = d := by
  have hlog : Nat.log 10 d.coefficient < ctx.precision :=
    Nat.log_lt_of_lt_pow' (Nat.ne_of_gt hprecision) hdigits
  unfold round
  rw [if_pos]
  apply max_le
  · omega
  · exact htiny

variable {b : Decimal}

theorem times_of_lt (hprecision : 0 < ctx.precision)
    (hdigits : a.coefficient * b.coefficient < 10 ^ ctx.precision)
    (htiny : ctx.tiny ≤ a.exponent + b.exponent) :
    times ctx a b = ⟨a.coefficient * b.coefficient, a.exponent + b.exponent⟩ :=
  round_of_lt hprecision hdigits htiny

theorem value_product (a b : Decimal) :
    (⟨a.coefficient * b.coefficient, a.exponent + b.exponent⟩ : Decimal).value =
      a.value * b.value := by
  unfold value
  rw [zpow_add₀ (by norm_num : (10 : ℚ) ≠ 0)]
  push_cast
  ring

def InRange (ctx : Context) (largest : Int) (q : ℚ) : Prop :=
  |q| < 10 ^ (largest + 1) ∧ ∃ count : Nat, |q| = count * 10 ^ ctx.tiny

theorem leading_le_iff {largest : Int} (hne : d.coefficient ≠ 0) :
    d.exponent + Nat.log 10 d.coefficient ≤ largest ↔ d.value < 10 ^ (largest + 1) := by
  have hten : (10 : ℚ) ≠ 0 := by norm_num
  have hpositive : (0 : ℚ) < 10 ^ d.exponent := zpow_pos (by norm_num) _
  constructor
  · intro hle
    have hupper : d.coefficient < 10 ^ (Nat.log 10 d.coefficient + 1) :=
      Nat.lt_pow_succ_log_self (by norm_num) _
    calc d.value < ((10 ^ (Nat.log 10 d.coefficient + 1) : Nat) : ℚ) * 10 ^ d.exponent :=
          mul_lt_mul_of_pos_right (Nat.cast_lt.mpr hupper) hpositive
      _ = 10 ^ (d.exponent + Nat.log 10 d.coefficient + 1) := by
          push_cast
          rw [← zpow_natCast, ← zpow_add₀ hten]
          congr 1
          push_cast
          ring
      _ ≤ 10 ^ (largest + 1) := zpow_le_zpow_right₀ (by norm_num) (by omega)
  · intro hlt
    by_contra hle
    have hlower : 10 ^ Nat.log 10 d.coefficient ≤ d.coefficient := Nat.pow_log_le_self 10 hne
    have hbelow : (10 : ℚ) ^ (largest + 1) ≤ d.value :=
      calc (10 : ℚ) ^ (largest + 1) ≤ 10 ^ (d.exponent + Nat.log 10 d.coefficient) :=
            zpow_le_zpow_right₀ (by norm_num) (by omega)
        _ = ((10 ^ Nat.log 10 d.coefficient : Nat) : ℚ) * 10 ^ d.exponent := by
            push_cast
            rw [zpow_add₀ hten, zpow_natCast, mul_comm]
        _ ≤ d.value := mul_le_mul_of_nonneg_right (Nat.cast_le.mpr hlower) hpositive.le
    exact absurd hlt (not_lt.mpr hbelow)

theorem representable_iff (hdigits : d.coefficient < 10 ^ ctx.precision) :
    Representable ctx d.value ↔ ∃ count : Nat, d.value = count * 10 ^ ctx.tiny := by
  constructor
  · rintro ⟨coefficient, exponent, -, htiny, hvalue⟩
    refine ⟨coefficient * 10 ^ (exponent - ctx.tiny).toNat, ?_⟩
    rw [hvalue]
    push_cast
    rw [← zpow_natCast, Int.toNat_of_nonneg (by omega), mul_assoc, ← zpow_add₀ (by norm_num)]
    congr 2
    omega
  · rintro ⟨count, hcount⟩
    by_cases htiny : ctx.tiny ≤ d.exponent
    · exact ⟨d.coefficient, d.exponent, hdigits, htiny, rfl⟩
    · refine ⟨count, ctx.tiny, ?_, le_refl _, hcount⟩
      have hpositive : (0 : ℚ) < 10 ^ ctx.tiny := zpow_pos (by norm_num) _
      have hle : (count : ℚ) ≤ d.coefficient := by
        rw [← mul_le_mul_iff_left₀ hpositive, ← hcount]
        apply mul_le_mul_of_nonneg_left _ (Nat.cast_nonneg _)
        exact zpow_le_zpow_right₀ (by norm_num) (by omega)
      exact (Nat.cast_le.mp hle).trans_lt hdigits

theorem inRange_iff_times {largest : Int} (hprecision : 0 < ctx.precision)
    (hdigits : a.coefficient * b.coefficient < 10 ^ ctx.precision) :
    InRange ctx largest (a.value * b.value) ↔
      (times ctx a b).value = a.value * b.value ∧ ((times ctx a b).coefficient ≠ 0 →
        (times ctx a b).exponent + Nat.log 10 (times ctx a b).coefficient ≤ largest) := by
  have hnonneg : 0 ≤ a.value * b.value := mul_nonneg a.value_nonneg b.value_nonneg
  rw [InRange, abs_of_nonneg hnonneg, ← value_product, ← representable_iff hdigits]
  constructor
  · rintro ⟨hlt, hrepresented⟩
    have hvalue : (times ctx a b).value = _ := round_value hrepresented
    refine ⟨hvalue, fun hne => (leading_le_iff hne).mpr ?_⟩
    rwa [hvalue]
  · rintro ⟨hvalue, hleading⟩
    rw [← hvalue]
    refine ⟨?_, representable_round hprecision _⟩
    by_cases hzero : (times ctx a b).coefficient = 0
    · rw [value, hzero, Nat.cast_zero, zero_mul]
      exact zpow_pos (by norm_num) _
    · exact (leading_le_iff hzero).mp (hleading hzero)

theorem value_natural (n : Nat) : (⟨n, 0⟩ : Decimal).value = n := by
  rw [value, zpow_zero, mul_one]

/-! ### Division by powers of ten -/

def stripZeros : Nat → Decimal → Decimal
  | 0, d => d
  | places + 1, d =>
    if d.coefficient % 10 = 0 then stripZeros places ⟨d.coefficient / 10, d.exponent + 1⟩ else d

variable (places : Nat)

def divTen (d : Decimal) : Decimal :=
  stripZeros places ⟨d.coefficient, d.exponent - places⟩

theorem value_stripZeros (d : Decimal) : (stripZeros places d).value = d.value := by
  induction places generalizing d with
  | zero => rfl
  | succ places ih =>
    unfold stripZeros
    split_ifs with hzero
    · rw [ih]
      have hsplit : d.coefficient = d.coefficient / 10 * 10 := by omega
      unfold value
      rw [zpow_add₀ (by norm_num : (10 : ℚ) ≠ 0), zpow_one]
      nth_rewrite 2 [hsplit]
      push_cast
      ring
    · rfl

theorem exponent_le_stripZeros (d : Decimal) : d.exponent ≤ (stripZeros places d).exponent := by
  induction places generalizing d with
  | zero => exact le_refl _
  | succ places ih =>
    unfold stripZeros
    split_ifs
    · refine le_trans ?_ (ih _)
      dsimp only
      omega
    · exact le_refl _

theorem value_divTen (d : Decimal) : (divTen places d).value = d.value / 10 ^ places := by
  unfold divTen
  rw [value_stripZeros]
  unfold value
  rw [zpow_sub₀ (by norm_num : (10 : ℚ) ≠ 0), zpow_natCast]
  ring

theorem exponent_le_divTen (d : Decimal) : d.exponent - places ≤ (divTen places d).exponent :=
  exponent_le_stripZeros places ⟨d.coefficient, d.exponent - places⟩

theorem exponent_le_add {exponent : Int} (ha : exponent ≤ a.exponent)
    (hb : exponent ≤ b.exponent) : exponent ≤ (add ctx a b).exponent :=
  (le_min ha hb).trans (@exponent_le_round ctx (plus a b))

theorem exponent_le_sum {ds : List Decimal} {exponent : Int} (hzero : exponent ≤ 0)
    (h : ∀ d ∈ ds, exponent ≤ d.exponent) : exponent ≤ (sum ctx ds).exponent := by
  induction ds using List.reverseRecOn with
  | nil => exact hzero
  | append_singleton ds d ih =>
    rw [sum_append_singleton]
    apply exponent_le_add
    · exact ih fun other hother => h other (List.mem_append_left _ hother)
    · exact h d (List.mem_append_right _ (List.mem_singleton_self d))

theorem representable_sum (hprecision : 0 < ctx.precision) (htiny : ctx.tiny ≤ 0)
    (ds : List Decimal) : Representable ctx (sum ctx ds).value := by
  cases ds using List.reverseRecOn with
  | nil =>
    refine ⟨0, 0, by positivity, htiny, ?_⟩
    rw [Nat.cast_zero, zero_mul]
    exact value_zero
  | append_singleton ds d =>
    rw [sum_append_singleton]
    exact representable_round hprecision _

end ProofOps.Foundation.Decimal
