import Mathlib.Data.Int.Log
import Mathlib.Data.Rat.Floor
import Mathlib.Tactic.Positivity

/-!
# Binary floating point

The values of a Python `float`: rationals on the binary64 grid, the infinities and one
NaN; the sign of a zero is not kept.  A result is rounded to the nearest representable
number, ties to even.  Rounding is monotone and leaves representable numbers alone, and
the difference of two different numbers does not round to zero; a product may.
-/

namespace ProofOps.Foundation

/-! ### Rounding -/

variable {x y : ℚ}

namespace Rounding

def nearest (x : ℚ) : ℤ :=
  if x - ⌊x⌋ < 1 / 2 then ⌊x⌋
  else if 1 / 2 < x - ⌊x⌋ then ⌊x⌋ + 1
  else if ⌊x⌋ % 2 = 0 then ⌊x⌋ else ⌊x⌋ + 1

theorem floor_le_nearest (x : ℚ) : ⌊x⌋ ≤ nearest x := by
  unfold nearest
  split_ifs <;> omega

theorem nearest_le_floor (x : ℚ) : nearest x ≤ ⌊x⌋ + 1 := by
  unfold nearest
  split_ifs <;> omega

@[simp]
theorem nearest_intCast (n : ℤ) : nearest (n : ℚ) = n := by
  unfold nearest
  rw [Int.floor_intCast, sub_self, if_pos (by norm_num)]

theorem nearest_mono (h : x ≤ y) : nearest x ≤ nearest y := by
  have hfloor : ⌊x⌋ ≤ ⌊y⌋ := Int.floor_le_floor h
  rcases hfloor.lt_or_eq with hlt | heq
  · have hx := nearest_le_floor x
    have hy := floor_le_nearest y
    omega
  · -- Between the same integers, only the fractions are compared.
    unfold nearest
    rw [heq]
    split_ifs <;> first | omega | linarith

def tiny : ℤ := -1074

def lastPlace (x : ℚ) : ℤ :=
  max (Int.log 2 x - 52) tiny

def magnitude (x : ℚ) : ℚ :=
  nearest (x / 2 ^ lastPlace x) * 2 ^ lastPlace x

def Representable (x : ℚ) : Prop :=
  ∃ (m : ℕ) (e : ℤ), m < 2 ^ 53 ∧ tiny ≤ e ∧ x = m * 2 ^ e

theorem two_zpow_pos (e : ℤ) : (0 : ℚ) < 2 ^ e :=
  zpow_pos (by norm_num) e

theorem two_zpow_add (d e : ℤ) : (2 : ℚ) ^ (d + e) = 2 ^ d * 2 ^ e :=
  zpow_add₀ (by norm_num) d e

theorem two_zpow_natCast_mul {d e : ℤ} (h : d ≤ e) : (2 : ℚ) ^ e = (2 ^ (e - d).toNat : ℕ) * 2 ^ d := by
  have hsplit : e = ((e - d).toNat : ℤ) + d := by omega
  rw [Nat.cast_pow, Nat.cast_ofNat, ← zpow_natCast, ← two_zpow_add, ← hsplit]

theorem tiny_representable : Representable (2 ^ tiny) :=
  ⟨1, tiny, by norm_num, le_refl _, by rw [Nat.cast_one, one_mul]⟩

theorem Representable.double (h : Representable x) : Representable (x + x) := by
  obtain ⟨m, e, hm, he, rfl⟩ := h
  refine ⟨m, e + 1, hm, by omega, ?_⟩
  rw [two_zpow_add, zpow_one]
  ring

theorem Representable.multiple (h : Representable x) :
    ∃ k : ℤ, x = k * 2 ^ tiny := by
  obtain ⟨m, e, -, he, rfl⟩ := h
  refine ⟨m * 2 ^ (e - tiny).toNat, ?_⟩
  rw [two_zpow_natCast_mul he]
  push_cast
  ring

theorem lastPlace_mono (hx : 0 < x) (h : x ≤ y) : lastPlace x ≤ lastPlace y := by
  have hlog : Int.log 2 x ≤ Int.log 2 y := Int.log_mono_right hx h
  unfold lastPlace
  omega

theorem div_lastPlace_lt (x : ℚ) : x / 2 ^ lastPlace x < 2 ^ (53 : ℤ) := by
  rw [div_lt_iff₀ (two_zpow_pos _), ← two_zpow_add]
  have hlog : x < ((2 : ℕ) : ℚ) ^ (Int.log 2 x + 1) := Int.lt_zpow_succ_log_self (by norm_num) x
  refine hlog.trans_le (zpow_le_zpow_right₀ (by norm_num) ?_)
  unfold lastPlace
  omega

theorem magnitude_nonneg (hx : 0 ≤ x) : 0 ≤ magnitude x := by
  have hquotient : 0 ≤ x / 2 ^ lastPlace x := div_nonneg hx (two_zpow_pos _).le
  have hnearest : 0 ≤ nearest (x / 2 ^ lastPlace x) :=
    (Int.floor_nonneg.mpr hquotient).trans (floor_le_nearest _)
  exact mul_nonneg (by exact_mod_cast hnearest) (two_zpow_pos _).le

theorem le_magnitude {k : ℤ} (h : k * 2 ^ lastPlace x ≤ x) :
    k * 2 ^ lastPlace x ≤ magnitude x := by
  have hquotient : (k : ℚ) ≤ x / 2 ^ lastPlace x := (le_div_iff₀ (two_zpow_pos _)).mpr h
  have hnearest : k ≤ nearest (x / 2 ^ lastPlace x) := by
    rw [← nearest_intCast k]
    exact nearest_mono hquotient
  exact mul_le_mul_of_nonneg_right (Int.cast_le.mpr hnearest) (two_zpow_pos _).le

theorem magnitude_le {k : ℤ} (h : x ≤ k * 2 ^ lastPlace x) :
    magnitude x ≤ k * 2 ^ lastPlace x := by
  have hquotient : x / 2 ^ lastPlace x ≤ (k : ℚ) := (div_le_iff₀ (two_zpow_pos _)).mpr h
  have hnearest : nearest (x / 2 ^ lastPlace x) ≤ k := by
    rw [← nearest_intCast k]
    exact nearest_mono hquotient
  exact mul_le_mul_of_nonneg_right (Int.cast_le.mpr hnearest) (two_zpow_pos _).le

theorem magnitude_of_multiple {x : ℚ} {k : ℤ} (h : x = k * 2 ^ lastPlace x) : magnitude x = x := by
  have hle := magnitude_le h.le
  have hge := le_magnitude h.ge
  rw [← h] at hle hge
  exact le_antisymm hle hge

@[simp]
theorem magnitude_zero : magnitude 0 = 0 :=
  @magnitude_of_multiple 0 0 (by rw [Int.cast_zero, zero_mul])

/-- Rounding is monotone. -/
theorem magnitude_mono (hx : 0 ≤ x) (h : x ≤ y) : magnitude x ≤ magnitude y := by
  rcases hx.eq_or_lt with rfl | hpos
  · rw [magnitude_zero]
    exact magnitude_nonneg h
  · rcases (lastPlace_mono hpos h).eq_or_lt with heq | hlt
    · unfold magnitude
      rw [heq]
      have hquotient := nearest_mono (div_le_div_of_nonneg_right h (two_zpow_pos (lastPlace y)).le)
      exact mul_le_mul_of_nonneg_right (Int.cast_le.mpr hquotient) (two_zpow_pos _).le
    · -- The leading power of two of `y` separates the two.
      have hbig : lastPlace y = Int.log 2 y - 52 := by
        unfold lastPlace at hlt ⊢
        omega
      have hlead : ((2 : ℕ) : ℚ) ^ Int.log 2 y ≤ y := Int.zpow_log_le_self (by norm_num) (hpos.trans_le h)
      rw [Nat.cast_ofNat] at hlead
      have hbelow : x ≤ 2 ^ Int.log 2 y := by
        have hx' : x < ((2 : ℕ) : ℚ) ^ (Int.log 2 x + 1) := Int.lt_zpow_succ_log_self (by norm_num) x
        refine hx'.le.trans (zpow_le_zpow_right₀ (by norm_num) ?_)
        unfold lastPlace at hlt
        omega
      have hleft : magnitude x ≤ 2 ^ Int.log 2 y := by
        rw [two_zpow_natCast_mul (show lastPlace x ≤ Int.log 2 y by omega), ← Int.cast_natCast]
          at hbelow ⊢
        exact magnitude_le hbelow
      have hright : 2 ^ Int.log 2 y ≤ magnitude y := by
        rw [two_zpow_natCast_mul (show lastPlace y ≤ Int.log 2 y by omega), ← Int.cast_natCast]
          at hlead ⊢
        exact le_magnitude hlead
      exact hleft.trans hright

theorem magnitude_eq_self (h : Representable x) : magnitude x = x := by
  obtain ⟨m, e, hm, he, rfl⟩ := h
  rcases Nat.eq_zero_or_pos m with rfl | hpos
  · rw [Nat.cast_zero, zero_mul, magnitude_zero]
  · have hx : (0 : ℚ) < (m : ℚ) * 2 ^ e := mul_pos (by exact_mod_cast hpos) (two_zpow_pos e)
    have hlt : (m : ℚ) * 2 ^ e < 2 ^ (53 + e) := by
      rw [two_zpow_add]
      refine mul_lt_mul_of_pos_right ?_ (two_zpow_pos e)
      exact_mod_cast hm
    have hlead : ((2 : ℕ) : ℚ) ^ Int.log 2 ((m : ℚ) * 2 ^ e) ≤ (m : ℚ) * 2 ^ e :=
      Int.zpow_log_le_self (by norm_num) hx
    have hlog := (zpow_lt_zpow_iff_right₀ (by norm_num : (1 : ℚ) < 2)).mp (hlead.trans_lt hlt)
    have hplace : lastPlace ((m : ℚ) * 2 ^ e) ≤ e := by
      unfold lastPlace
      omega
    refine @magnitude_of_multiple _
      ((m * 2 ^ (e - lastPlace ((m : ℚ) * 2 ^ e)).toNat : ℕ) : ℤ) ?_
    generalize lastPlace ((m : ℚ) * 2 ^ e) = place at hplace
    rw [two_zpow_natCast_mul hplace]
    push_cast
    ring

/-- What is rounded is representable. -/
theorem magnitude_representable (hx : 0 ≤ x) : Representable (magnitude x) := by
  have hquotient : 0 ≤ x / 2 ^ lastPlace x := div_nonneg hx (two_zpow_pos _).le
  have hnonneg : 0 ≤ nearest (x / 2 ^ lastPlace x) :=
    (Int.floor_nonneg.mpr hquotient).trans (floor_le_nearest _)
  have hsmall : nearest (x / 2 ^ lastPlace x) ≤ 2 ^ 53 := by
    have hlt : x / 2 ^ lastPlace x ≤ ((2 ^ 53 : ℤ) : ℚ) := (div_lastPlace_lt x).le.trans (by norm_num)
    rw [← nearest_intCast (2 ^ 53)]
    exact nearest_mono hlt
  have hplace : tiny ≤ lastPlace x := le_max_right _ _
  unfold magnitude
  generalize nearest (x / 2 ^ lastPlace x) = m at hnonneg hsmall
  obtain ⟨m, rfl⟩ := Int.eq_ofNat_of_zero_le hnonneg
  rcases hsmall.eq_or_lt with heq | hlt
  · -- A carry out of the last bit leaves a power of two.
    refine ⟨2 ^ 52, lastPlace x + 1, by norm_num, by omega, ?_⟩
    rw [heq, two_zpow_add, zpow_one]
    ring
  · exact ⟨m, lastPlace x, by omega, hplace, by rw [Int.cast_natCast]⟩

theorem magnitude_sub_pos (hx : Representable x) (hy : Representable y) (h : x < y) :
    0 < magnitude (y - x) := by
  obtain ⟨j, rfl⟩ := hx.multiple
  obtain ⟨k, rfl⟩ := hy.multiple
  have hpos := two_zpow_pos tiny
  have hjk : j < k := by
    have := lt_of_mul_lt_mul_right h hpos.le
    exact_mod_cast this
  have hgap : (2 : ℚ) ^ tiny ≤ k * 2 ^ tiny - j * 2 ^ tiny := by
    have hone : (1 : ℚ) ≤ k - j := by
      have : j + 1 ≤ k := hjk
      have hcast : ((j + 1 : ℤ) : ℚ) ≤ k := Int.cast_le.mpr this
      push_cast at hcast
      linarith
    rw [← sub_mul]
    exact le_mul_of_one_le_left hpos.le hone
  calc (0 : ℚ) < 2 ^ tiny := hpos
    _ = magnitude (2 ^ tiny) := (magnitude_eq_self tiny_representable).symm
    _ ≤ _ := magnitude_mono hpos.le hgap

end Rounding

open Rounding

/-! ### Values and operations -/

/-- A `float`, up to the sign of its zero. -/
inductive Binary64 where
  | finite (value : ℚ)
  | infinite (negative : Bool)
  | nan

variable {value : ℚ}

namespace Binary64

def huge : ℚ := 2 ^ 1024

theorem huge_pos : 0 < huge :=
  pow_pos (by norm_num) 1024

def ofRat (x : ℚ) : Binary64 :=
  let rounded := if x < 0 then -magnitude (-x) else magnitude x
  if huge ≤ rounded then .infinite false
  else if rounded ≤ -huge then .infinite true
  else .finite rounded

/-- The negative of a double. -/
def neg : Binary64 → Binary64
  | .finite x => .finite (-x)
  | .infinite negative => .infinite !negative
  | .nan => .nan

/-- `x + y`. -/
def add : Binary64 → Binary64 → Binary64
  | .finite x, .finite y => ofRat (x + y)
  | .infinite a, .infinite b => if a = b then .infinite a else .nan
  | .infinite a, .finite _ => .infinite a
  | .finite _, .infinite b => .infinite b
  | .nan, _ => .nan
  | _, .nan => .nan

/-- `x - y`. -/
def sub (x y : Binary64) : Binary64 :=
  add x (neg y)

def scaledInfinity (negative : Bool) (x : ℚ) : Binary64 :=
  if x = 0 then .nan else .infinite (negative != decide (x < 0))

/-- `x * y`. -/
def mul : Binary64 → Binary64 → Binary64
  | .finite x, .finite y => ofRat (x * y)
  | .infinite a, .infinite b => .infinite (a != b)
  | .infinite a, .finite y => scaledInfinity a y
  | .finite x, .infinite b => scaledInfinity b x
  | .nan, _ => .nan
  | _, .nan => .nan

def quotient (x : Binary64) (y : ℚ) : Binary64 :=
  match x with
  | .finite x => ofRat (x / y)
  | .infinite a => .infinite (a != decide (y < 0))
  | .nan => .nan

def div (x y : Binary64) : Option Binary64 :=
  match y with
  | .finite y => if y = 0 then none else some (quotient x y)
  | .infinite _ =>
    match x with
    | .finite _ => some (.finite 0)
    | _ => some .nan
  | .nan => some .nan

/-- `x < y`, false for NaN. -/
def lt : Binary64 → Binary64 → Bool
  | .finite x, .finite y => decide (x < y)
  | .infinite a, .infinite b => a && !b
  | .infinite a, .finite _ => a
  | .finite _, .infinite b => !b
  | _, _ => false

/-- `x <= y`, false for NaN. -/
def le : Binary64 → Binary64 → Bool
  | .finite x, .finite y => decide (x ≤ y)
  | .infinite a, .infinite b => a || !b
  | .infinite a, .finite _ => a
  | .finite _, .infinite b => !b
  | _, _ => false

def max (x y : Binary64) : Binary64 :=
  if lt x y then y else x

def min (x y : Binary64) : Binary64 :=
  if lt y x then y else x

theorem ofRat_nonneg (hx : 0 ≤ x) :
    ofRat x = if huge ≤ magnitude x then .infinite false else .finite (magnitude x) := by
  have hround := magnitude_nonneg hx
  have hhuge := huge_pos
  unfold ofRat
  simp only [if_neg (not_lt.mpr hx)]
  rw [if_neg (show ¬magnitude x ≤ -huge by linarith)]

theorem ofRat_finite (hx : 0 ≤ x) (h : ofRat x = .finite value) :
    value = magnitude x := by
  rw [ofRat_nonneg hx] at h
  split_ifs at h
  cases h
  rfl

@[simp]
theorem ofRat_zero : ofRat 0 = .finite 0 := by
  rw [ofRat_nonneg (le_refl 0), magnitude_zero, if_neg (not_le.mpr huge_pos)]

theorem magnitude_of_ofRat_zero (h : ofRat x = .finite 0) : magnitude |x| = 0 := by
  unfold ofRat at h
  by_cases hsign : x < 0
  · simp only [if_pos hsign] at h
    split_ifs at h
    rw [abs_of_neg hsign]
    exact neg_eq_zero.mp (Binary64.finite.inj h)
  · simp only [if_neg hsign] at h
    split_ifs at h
    rw [abs_of_nonneg (not_lt.mp hsign)]
    exact Binary64.finite.inj h

theorem eq_of_ofRat_sub (hx : Representable x) (hy : Representable y)
    (h : ofRat (x - y) = .finite 0) : x = y := by
  have hzero := magnitude_of_ofRat_zero h
  rcases lt_trichotomy x y with hlt | heq | hgt
  · rw [abs_sub_comm, abs_of_pos (sub_pos.mpr hlt)] at hzero
    exact absurd hzero (magnitude_sub_pos hx hy hlt).ne'
  · exact heq
  · rw [abs_of_pos (sub_pos.mpr hgt)] at hzero
    exact absurd hzero (magnitude_sub_pos hy hx hgt).ne'

/-! ### Products of lengths -/

def Length : Binary64 → Prop
  | .finite x => 0 ≤ x
  | .infinite negative => negative = false
  | .nan => False

def Within : Binary64 → Binary64 → Prop
  | .finite x, .finite y => 0 ≤ x ∧ x ≤ y
  | x, .infinite negative => Length x ∧ negative = false
  | _, _ => False

theorem add_comm (x y : Binary64) : add x y = add y x := by
  cases x with
  | finite a => cases y <;> simp [add, Rat.add_comm]
  | infinite a =>
    cases y with
    | infinite b =>
      by_cases hsign : a = b
      · rw [hsign]
      · simp [add, hsign, Ne.symm hsign]
    | finite b => rfl
    | nan => rfl
  | nan => cases y <;> rfl

theorem div_eq_none_iff {x y : Binary64} : div x y = none ↔ y = .finite 0 := by
  cases y with
  | finite value =>
    unfold div
    by_cases hzero : value = 0
    · simp [hzero]
    · simp [hzero]
  | infinite negative => cases x <;> simp [div]
  | nan => simp [div]

theorem zero_div {y ratio : Binary64} (h : div (.finite 0) y = some ratio) :
    ratio = .finite 0 ∨ ratio = .nan := by
  cases y with
  | finite value =>
    simp only [div] at h
    split_ifs at h
    cases h
    exact Or.inl (by simp [quotient])
  | infinite negative =>
    cases h
    exact Or.inl rfl
  | nan =>
    cases h
    exact Or.inr rfl

theorem mul_finite {x y : Binary64} (h : mul x y = .finite value) :
    ∃ a b, x = .finite a ∧ y = .finite b ∧ ofRat (a * b) = .finite value := by
  cases x with
  | finite a =>
    cases y with
    | finite b => exact ⟨a, b, rfl, rfl, h⟩
    | infinite negative =>
      simp only [mul, scaledInfinity] at h
      split_ifs at h
    | nan => cases h
  | infinite negative =>
    cases y with
    | finite b =>
      simp only [mul, scaledInfinity] at h
      split_ifs at h
    | infinite other => cases h
    | nan => cases h
  | nan => cases h

theorem mul_mono {x y u v : Binary64} (hx : Within x u) (hy : Within y v)
    (h : mul u v = .finite value) :
    Representable value ∧ ∃ smaller, mul x y = .finite smaller ∧ Representable smaller ∧
      0 ≤ smaller ∧ smaller ≤ value := by
  obtain ⟨c, d, rfl, rfl, hcd⟩ := mul_finite h
  cases x with
  | infinite negative | nan => exact absurd hx id
  | finite a =>
    cases y with
    | infinite negative | nan => exact absurd hy id
    | finite b =>
      obtain ⟨ha, hac⟩ := hx
      obtain ⟨hb, hbd⟩ := hy
      have hab : 0 ≤ a * b := mul_nonneg ha hb
      have hle : a * b ≤ c * d := mul_le_mul hac hbd hb (ha.trans hac)
      have hvalue := ofRat_finite (hab.trans hle) hcd
      have hround : magnitude (a * b) ≤ magnitude (c * d) := magnitude_mono hab hle
      have hfits : ¬huge ≤ magnitude (c * d) := by
        intro hbig
        rw [ofRat_nonneg (hab.trans hle), if_pos hbig] at hcd
        cases hcd
      refine ⟨hvalue ▸ magnitude_representable (hab.trans hle), magnitude (a * b), ?_,
        magnitude_representable hab, magnitude_nonneg hab, hvalue ▸ hround⟩
      show ofRat (a * b) = _
      rw [ofRat_nonneg hab, if_neg fun hbig => hfits (hbig.trans hround)]

theorem add_finite {x y : Binary64} (h : add x y = .finite value) :
    ∃ a b, x = .finite a ∧ y = .finite b := by
  cases x with
  | finite a =>
    cases y with
    | finite b => exact ⟨a, b, rfl, rfl⟩
    | infinite negative => cases h
    | nan => cases h
  | infinite negative =>
    cases y with
    | finite b => cases h
    | infinite other =>
      simp only [add] at h
      split_ifs at h
    | nan => cases h
  | nan => cases h

theorem sub_finite {x y : Binary64} (h : sub x y = .finite value) :
    ∃ a b, x = .finite a ∧ y = .finite b := by
  obtain ⟨a, b, hx, hy⟩ := add_finite h
  cases y with
  | finite c => exact ⟨a, c, hx, rfl⟩
  | infinite negative => cases hy
  | nan => cases hy

theorem within_clipped {d w : ℚ} (hw : 0 ≤ w) (h : d ≤ w) :
    Within (max (.finite 0) (ofRat d)) (ofRat w) := by
  by_cases hsign : 0 ≤ d
  · have hround := magnitude_mono hsign h
    have hnonneg := magnitude_nonneg hsign
    rw [ofRat_nonneg hsign, ofRat_nonneg hw]
    by_cases hbig : huge ≤ magnitude w
    · rw [if_pos hbig]
      by_cases hover : huge ≤ magnitude d
      · rw [if_pos hover]
        exact ⟨rfl, rfl⟩
      · rw [if_neg hover]
        unfold max
        split_ifs
        · exact ⟨hnonneg, rfl⟩
        · exact ⟨le_refl (0 : ℚ), rfl⟩
    · rw [if_neg hbig, if_neg fun hd => hbig (hd.trans hround)]
      unfold max
      split_ifs
      · exact ⟨hnonneg, hround⟩
      · exact ⟨le_refl _, hnonneg.trans hround⟩
  · -- A negative difference is not larger than zero.
    have hclip : max (.finite 0) (ofRat d) = .finite 0 := by
      have hneg : d < 0 := not_le.mp hsign
      have hmag := magnitude_nonneg (neg_pos.mpr hneg).le
      have hhuge := huge_pos
      unfold max ofRat
      simp only [if_pos hneg]
      rw [if_neg (show ¬huge ≤ -magnitude (-d) by linarith)]
      split_ifs with hsmall hlt hlt
      · cases hlt
      · rfl
      · simp only [lt, decide_eq_true_eq] at hlt
        linarith
      · rfl
    rw [hclip, ofRat_nonneg hw]
    split_ifs
    · exact ⟨le_refl _, rfl⟩
    · exact ⟨le_refl _, magnitude_nonneg hw⟩

theorem eq_zero_of_add_sub {z : ℚ} (hx : Representable x) (hy : Representable y)
    (hz : Representable z) (hpos : 0 ≤ z) (hzx : z ≤ x) (hzy : z ≤ y)
    (h : sub (add (.finite x) (.finite y)) (.finite z) = .finite 0) : x = 0 ∧ y = 0 := by
  have hxy : 0 ≤ x + y := add_nonneg (hpos.trans hzx) (hpos.trans hzy)
  change add (ofRat (x + y)) (.finite (-z)) = .finite 0 at h
  rw [ofRat_nonneg hxy] at h
  by_cases hbig : huge ≤ magnitude (x + y)
  · rw [if_pos hbig] at h
    cases h
  · rw [if_neg hbig] at h
    change ofRat (magnitude (x + y) + -z) = .finite 0 at h
    rw [← sub_eq_add_neg] at h
    have hsum := eq_of_ofRat_sub (magnitude_representable hxy) hz h
    have hlex : x ≤ z := by
      rw [← hsum, ← magnitude_eq_self hx]
      exact magnitude_mono (hpos.trans hzx) (by rw [magnitude_eq_self hx]; linarith)
    have hley : y ≤ z := by
      rw [← hsum, ← magnitude_eq_self hy]
      exact magnitude_mono (hpos.trans hzy) (by rw [magnitude_eq_self hy]; linarith)
    have hxz : x = z := le_antisymm hlex hzx
    have hyz : y = z := le_antisymm hley hzy
    subst hxz
    rw [hyz, magnitude_eq_self hx.double] at hsum
    exact ⟨by linarith, by linarith⟩

end Binary64

end ProofOps.Foundation
