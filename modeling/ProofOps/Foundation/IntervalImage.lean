import Mathlib.Algebra.Order.Field.Basic
import Mathlib.Algebra.Order.BigOperators.Group.List
import Mathlib.Tactic.Linarith
import Mathlib.Tactic.FieldSimp
import Mathlib.Tactic.Ring

/-!
# Exact images of boxes

Which values an arithmetic expression takes while its arguments range over
closed intervals of a linearly ordered field.  A sum of intervals is an interval
(`sum_image`), and a rate `shift + factor * (c / b)` maps a box whose first side
avoids zero onto the interval between its extreme corners (`rate_image`).  No
completeness is used: a linear form that changes sign between two corners has an
explicit zero on the segment that joins them.
-/

namespace ProofOps.Foundation.IntervalImage

variable {K : Type*} [Field K] [LinearOrder K] [IsStrictOrderedRing K]

theorem affine_nonneg {slope offset low high x : K} (hlow : low ≤ x) (hhigh : x ≤ high)
    (hatLow : 0 ≤ slope * low + offset) (hatHigh : 0 ≤ slope * high + offset) :
    0 ≤ slope * x + offset := by
  rcases le_total 0 slope with hslope | hslope
  · have hstep : slope * low ≤ slope * x := mul_le_mul_of_nonneg_left hlow hslope
    linarith
  · have hstep : slope * high ≤ slope * x := mul_le_mul_of_nonpos_left hhigh hslope
    linarith

variable {b c : K}

theorem linear_nonneg_of_corners {p q b₀ b₁ c₀ c₁ : K} (hb₀ : b₀ ≤ b) (hb₁ : b ≤ b₁) (hc₀ : c₀ ≤ c)
    (hc₁ : c ≤ c₁) (h₀₀ : 0 ≤ p * b₀ + q * c₀) (h₀₁ : 0 ≤ p * b₀ + q * c₁)
    (h₁₀ : 0 ≤ p * b₁ + q * c₀) (h₁₁ : 0 ≤ p * b₁ + q * c₁) : 0 ≤ p * b + q * c := by
  have hedge : ∀ corner : K, 0 ≤ p * b₀ + q * corner → 0 ≤ p * b₁ + q * corner →
      0 ≤ p * b + q * corner :=
    fun corner hlow hhigh => affine_nonneg hb₀ hb₁ hlow hhigh
  have hlow := hedge c₀ h₀₀ h₁₀
  have hhigh := hedge c₁ h₀₁ h₁₁
  rw [add_comm] at hlow hhigh ⊢
  exact affine_nonneg hc₀ hc₁ hlow hhigh

theorem exists_linear_zero {p q b₀ b₁ c₀ c₁ b' c' : K} (hb : b ∈ Set.Icc b₀ b₁)
    (hc : c ∈ Set.Icc c₀ c₁) (hb' : b' ∈ Set.Icc b₀ b₁) (hc' : c' ∈ Set.Icc c₀ c₁)
    (hneg : p * b + q * c ≤ 0) (hpos : 0 ≤ p * b' + q * c') :
    ∃ x ∈ Set.Icc b₀ b₁, ∃ y ∈ Set.Icc c₀ c₁, p * x + q * y = 0 := by
  rcases eq_or_lt_of_le hneg with hzero | hneg
  · exact ⟨b, hb, c, hc, hzero⟩
  · -- The zero divides the segment in the ratio of the two values.
    have hgap : 0 < (p * b' + q * c') - (p * b + q * c) := by linarith
    let t := -(p * b + q * c) / ((p * b' + q * c') - (p * b + q * c))
    have ht₀ : 0 ≤ t := div_nonneg (by linarith) hgap.le
    have ht₁ : t ≤ 1 := (div_le_one hgap).mpr (by linarith)
    have hconvex : ∀ {low high x x' : K}, x ∈ Set.Icc low high → x' ∈ Set.Icc low high →
        x + t * (x' - x) ∈ Set.Icc low high := by
      intro low high x x' hx hx'
      have hother : 0 ≤ 1 - t := by linarith
      constructor
      · have h₁ := mul_le_mul_of_nonneg_left hx.1 hother
        have h₂ := mul_le_mul_of_nonneg_left hx'.1 ht₀
        linarith
      · have h₁ := mul_le_mul_of_nonneg_left hx.2 hother
        have h₂ := mul_le_mul_of_nonneg_left hx'.2 ht₀
        linarith
    refine ⟨b + t * (b' - b), hconvex hb hb', c + t * (c' - c), hconvex hc hc', ?_⟩
    have hvalue : t * ((p * b' + q * c') - (p * b + q * c)) = -(p * b + q * c) :=
      div_mul_cancel₀ _ hgap.ne'
    calc p * (b + t * (b' - b)) + q * (c + t * (c' - c))
        = (p * b + q * c) + t * ((p * b' + q * c') - (p * b + q * c)) := by ring
      _ = 0 := by rw [hvalue]; ring

/-! ### Rates -/

section Rates

variable {K : Type*} [Field K]

/-- A rate of change against a base. -/
def rate (shift factor b c : K) : K :=
  shift + factor * (c / b)

theorem rate_sub_mul (shift factor value c : K) {b : K} (hb : b ≠ 0) :
    (rate shift factor b c - value) * b = (shift - value) * b + factor * c := by
  unfold rate
  field_simp
  ring

theorem rate_neg_neg (shift factor b c : K) :
    rate shift factor (-b) (-c) = rate shift factor b c := by
  simp [rate, neg_div_neg_eq]

theorem neg_rate (shift factor b c : K) :
    rate (-shift) (-factor) b c = -rate shift factor b c := by
  unfold rate
  ring

end Rates

def IsCorner (b₀ b₁ c₀ c₁ b c : K) : Prop :=
  (b = b₀ ∨ b = b₁) ∧ (c = c₀ ∨ c = c₁)

variable {shift factor b₀ b₁ c₀ c₁ value : K}

theorem le_rate_of_corners_pos (hpos : 0 < b₀)
    (hcorners : ∀ b c, IsCorner b₀ b₁ c₀ c₁ b c → value ≤ rate shift factor b c) {b c : K}
    (hb : b ∈ Set.Icc b₀ b₁) (hc : c ∈ Set.Icc c₀ c₁) : value ≤ rate shift factor b c := by
  have hcorner : ∀ x y, IsCorner b₀ b₁ c₀ c₁ x y → 0 ≤ (shift - value) * x + factor * y := by
    intro x y hxy
    have hx : 0 < x := by
      rcases hxy.1 with rfl | rfl
      · exact hpos
      · exact hpos.trans_le (hb.1.trans hb.2)
    rw [← rate_sub_mul shift factor value y hx.ne']
    exact mul_nonneg (sub_nonneg.mpr (hcorners x y hxy)) hx.le
  have hform : 0 ≤ (shift - value) * b + factor * c :=
    linear_nonneg_of_corners hb.1 hb.2 hc.1 hc.2
      (hcorner b₀ c₀ ⟨Or.inl rfl, Or.inl rfl⟩) (hcorner b₀ c₁ ⟨Or.inl rfl, Or.inr rfl⟩)
      (hcorner b₁ c₀ ⟨Or.inr rfl, Or.inl rfl⟩) (hcorner b₁ c₁ ⟨Or.inr rfl, Or.inr rfl⟩)
  have hbpos : 0 < b := hpos.trans_le hb.1
  rw [← rate_sub_mul shift factor value c hbpos.ne'] at hform
  exact sub_nonneg.mp (nonneg_of_mul_nonneg_left hform hbpos)

theorem le_rate_of_corners (hzero : 0 < b₀ ∨ b₁ < 0)
    (hcorners : ∀ b c, IsCorner b₀ b₁ c₀ c₁ b c → value ≤ rate shift factor b c) {b c : K}
    (hb : b ∈ Set.Icc b₀ b₁) (hc : c ∈ Set.Icc c₀ c₁) : value ≤ rate shift factor b c := by
  rcases hzero with hpos | hneg
  · exact le_rate_of_corners_pos hpos hcorners hb hc
  · -- Negating both operands keeps the rate and makes the denominators positive.
    rw [← rate_neg_neg]
    refine @le_rate_of_corners_pos _ _ _ _ shift factor (-b₁) (-b₀) (-c₁) (-c₀) value
      (neg_pos.mpr hneg) ?_ (-b) (-c) ⟨neg_le_neg hb.2, neg_le_neg hb.1⟩
      ⟨neg_le_neg hc.2, neg_le_neg hc.1⟩
    rintro x y ⟨hx, hy⟩
    rw [← neg_neg x, ← neg_neg y, rate_neg_neg]
    refine hcorners _ _ ⟨?_, ?_⟩
    · rcases hx with rfl | rfl <;> simp
    · rcases hy with rfl | rfl <;> simp

/-- The same from above. -/
theorem rate_le_of_corners (hzero : 0 < b₀ ∨ b₁ < 0)
    (hcorners : ∀ b c, IsCorner b₀ b₁ c₀ c₁ b c → rate shift factor b c ≤ value)
    (hb : b ∈ Set.Icc b₀ b₁) (hc : c ∈ Set.Icc c₀ c₁) : rate shift factor b c ≤ value := by
  rw [← neg_le_neg_iff, ← neg_rate]
  refine le_rate_of_corners hzero (fun x y hxy => ?_) hb hc
  rw [neg_rate, neg_le_neg_iff]
  exact hcorners x y hxy

/-- Every value between two rates is a rate. -/
theorem exists_rate_eq (hzero : 0 < b₀ ∨ b₁ < 0) {b' c' : K} (hb : b ∈ Set.Icc b₀ b₁)
    (hc : c ∈ Set.Icc c₀ c₁) (hb' : b' ∈ Set.Icc b₀ b₁) (hc' : c' ∈ Set.Icc c₀ c₁)
    (hlow : rate shift factor b c ≤ value) (hhigh : value ≤ rate shift factor b' c') :
    ∃ x ∈ Set.Icc b₀ b₁, ∃ y ∈ Set.Icc c₀ c₁, rate shift factor x y = value := by
  have hne : ∀ x ∈ Set.Icc b₀ b₁, x ≠ 0 := by
    rintro x ⟨hx₀, hx₁⟩ rfl
    rcases hzero with h | h
    · exact absurd (h.trans_le hx₀) (lt_irrefl 0)
    · exact absurd (hx₁.trans_lt h) (lt_irrefl 0)
  have hzeroForm : ∃ x ∈ Set.Icc b₀ b₁, ∃ y ∈ Set.Icc c₀ c₁,
      (shift - value) * x + factor * y = 0 := by
    have hlow' := rate_sub_mul shift factor value c (hne b hb)
    have hhigh' := rate_sub_mul shift factor value c' (hne b' hb')
    rcases hzero with hpos | hneg
    · refine exists_linear_zero hb hc hb' hc' ?_ ?_
      · rw [← hlow']
        exact mul_nonpos_of_nonpos_of_nonneg (sub_nonpos.mpr hlow) (hpos.le.trans hb.1)
      · rw [← hhigh']
        exact mul_nonneg (sub_nonneg.mpr hhigh) (hpos.le.trans hb'.1)
    · refine exists_linear_zero hb' hc' hb hc ?_ ?_
      · rw [← hhigh']
        exact mul_nonpos_of_nonneg_of_nonpos (sub_nonneg.mpr hhigh) (hb'.2.trans hneg.le)
      · rw [← hlow']
        exact mul_nonneg_of_nonpos_of_nonpos (sub_nonpos.mpr hlow) (hb.2.trans hneg.le)
  obtain ⟨x, hx, y, hy, hform⟩ := hzeroForm
  refine ⟨x, hx, y, hy, ?_⟩
  rw [← rate_sub_mul shift factor value y (hne x hx)] at hform
  exact sub_eq_zero.mp ((mul_eq_zero.mp hform).resolve_right (hne x hx))

theorem rate_image (hb : b₀ ≤ b₁) (hc : c₀ ≤ c₁) (hzero : 0 < b₀ ∨ b₁ < 0) {low high : K}
    (hlow : (∀ b c, IsCorner b₀ b₁ c₀ c₁ b c → low ≤ rate shift factor b c) ∧
      ∃ b c, IsCorner b₀ b₁ c₀ c₁ b c ∧ rate shift factor b c = low)
    (hhigh : (∀ b c, IsCorner b₀ b₁ c₀ c₁ b c → rate shift factor b c ≤ high) ∧
      ∃ b c, IsCorner b₀ b₁ c₀ c₁ b c ∧ rate shift factor b c = high) :
    Set.image2 (rate shift factor) (Set.Icc b₀ b₁) (Set.Icc c₀ c₁) = Set.Icc low high := by
  have hmem : ∀ b c, IsCorner b₀ b₁ c₀ c₁ b c → b ∈ Set.Icc b₀ b₁ ∧ c ∈ Set.Icc c₀ c₁ := by
    rintro b c ⟨rfl | rfl, rfl | rfl⟩ <;> simp [hb, hc]
  ext value
  constructor
  · rintro ⟨b, hbmem, c, hcmem, rfl⟩
    exact ⟨le_rate_of_corners hzero hlow.1 hbmem hcmem, rate_le_of_corners hzero hhigh.1 hbmem hcmem⟩
  · rintro ⟨hvalueLow, hvalueHigh⟩
    obtain ⟨b, c, hcorner, hmin⟩ := hlow.2
    obtain ⟨b', c', hcorner', hmax⟩ := hhigh.2
    obtain ⟨x, hx, y, hy, hrate⟩ := exists_rate_eq hzero (hmem b c hcorner).1 (hmem b c hcorner).2
      (hmem b' c' hcorner').1 (hmem b' c' hcorner').2 (hmin.trans_le hvalueLow)
      (hvalueHigh.trans_eq hmax.symm)
    exact ⟨x, hx, y, hy, hrate⟩

theorem sum_image (intervals : List (K × K)) (hordered : ∀ interval ∈ intervals,
    interval.1 ≤ interval.2) (total : K) :
    (∃ members, List.Forall₂ (fun interval x => x ∈ Set.Icc interval.1 interval.2) intervals members ∧
        members.sum = total) ↔
      total ∈ Set.Icc (intervals.map Prod.fst).sum (intervals.map Prod.snd).sum := by
  induction intervals generalizing total with
  | nil =>
    simp only [List.forall₂_nil_left_iff, exists_eq_left, List.map_nil, List.sum_nil,
      Set.Icc_self, Set.mem_singleton_iff]
    exact eq_comm
  | cons head tail ih =>
    have hhead : head.1 ≤ head.2 := hordered head List.mem_cons_self
    have htail := ih fun interval hmem => hordered interval (List.mem_cons_of_mem _ hmem)
    simp only [List.map_cons, List.sum_cons]
    constructor
    · rintro ⟨members, hmembers, rfl⟩
      obtain ⟨x, rest, hx, hrest, rfl⟩ := List.forall₂_cons_left_iff.mp hmembers
      obtain ⟨hlow, hhigh⟩ := (htail rest.sum).mp ⟨rest, hrest, rfl⟩
      exact ⟨add_le_add hx.1 hlow, add_le_add hx.2 hhigh⟩
    · rintro ⟨hlow, hhigh⟩
      -- Take as much from the head as leaves the rest inside its own bounds.
      let x := max head.1 (total - (tail.map Prod.snd).sum)
      have hx : x ∈ Set.Icc head.1 head.2 :=
        ⟨le_max_left _ _, max_le hhead (by linarith)⟩
      have hrest : total - x ∈ Set.Icc (tail.map Prod.fst).sum (tail.map Prod.snd).sum := by
        have htailOrdered : (tail.map Prod.fst).sum ≤ (tail.map Prod.snd).sum :=
          List.sum_le_sum fun interval hmem => hordered interval (List.mem_cons_of_mem _ hmem)
        have hupper : total - (tail.map Prod.snd).sum ≤ x := le_max_right _ _
        have hlower : x ≤ total - (tail.map Prod.fst).sum :=
          max_le (by linarith) (by linarith)
        exact ⟨by linarith, by linarith⟩
      obtain ⟨rest, hmembers, hsum⟩ := (htail (total - x)).mpr hrest
      refine ⟨x :: rest, List.Forall₂.cons hx hmembers, ?_⟩
      rw [List.sum_cons, hsum]
      ring

end ProofOps.Foundation.IntervalImage
