import Mathlib.Data.Real.Basic
import ProofOps.Domain.Numeric.Check
import ProofOps.Foundation.IntervalImage

/-!
# The computed interval

A displayed number stands for every real in its rounding interval.  The interval
that `check_numeric_consistency` computes is the image of the box of observation
intervals under the kind's formula: a Minkowski sum for sums, and the span of the
corner quotients for the rates.  The computed value is the formula of the displayed
values.
-/

namespace ProofOps.Domain.Numeric

open Foundation Foundation.IntervalImage

def kindFormula {K : Type*} [Field K] (kind : CheckKind) (operands : List K) : Option K :=
  match kind, operands with
  | .comparison, [first] => some first
  | .sum, operands => some operands.sum
  | .reduction, [baseline, current] => some ((1 - current / baseline) * 100)
  | .productReduction, [baseline, current] => some ((1 - current / baseline) * 100)
  | .growth, [baseline, current] => some ((current / baseline - 1) * 100)
  | _, _ => none

/-- The reals that a display stands for. -/
def Display.interval (shown : Display) : Set ℝ :=
  Set.Icc (shown.lower : ℝ) shown.upper

def Attainable (kind : CheckKind) (displays : List Display) (reported : Display) : Prop :=
  ∃ r ∈ reported.interval, ∃ operands : List ℝ,
    List.Forall₂ (fun shown x => x ∈ shown.interval) displays operands ∧
      kindFormula kind operands = some r

variable {shown : Display}

theorem display_within {raw : String} {scale : ℚ} (hscale : 0 ≤ scale)
    (h : display raw scale = some shown) :
    shown.lower ≤ shown.value ∧ shown.value ≤ shown.upper := by
  obtain ⟨⟨numeral, unit⟩, -, rfl⟩ := Option.map_eq_some_iff.mp h
  have hstep : 0 ≤ 1 / (2 * 10 ^ numeral.fraction.length) * scale := by positivity
  constructor <;> dsimp only <;> linarith

theorem display_ordered {raw : String} {scale : ℚ} (hscale : 0 ≤ scale)
    (h : display raw scale = some shown) : shown.lower ≤ shown.upper :=
  (display_within hscale h).1.trans (display_within hscale h).2

def itemDisplay (item : NumericObservation) : Option Display :=
  display item.valueRaw (scaleValue (splitScale item.unitRaw).1)

theorem scaleValue_nonneg (scale : String) : 0 ≤ scaleValue scale := by
  unfold scaleValue
  split_ifs <;> norm_num

variable {hash : NumericHash}

theorem observationDisplay_eq {original : NumericSnapshot} {item : NumericObservation}
    (h : observationDisplay hash original item = some shown) : itemDisplay item = some shown := by
  unfold observationDisplay at h
  simp only [bind, Option.bind_eq_some_iff, guard] at h
  obtain ⟨-, -, shown', hshown, -, -, -, -, -, -, hpure⟩ := h
  cases hpure
  exact hshown

variable {items : List NumericObservation}

theorem comparable_ok {binding : ClaimBinding} {claim : Option NumericClaim}
    {original : Option NumericSnapshot} {found : Comparable}
    (h : comparable hash binding items claim original = .ok found) :
    items.length = binding.observationIds.length ∧ ∃ snapshot, original = some snapshot ∧
      items.mapM (observationDisplay hash snapshot) = some found.displays ∧
      display (binding.reportedValue.getD "") 1 = some found.reported := by
  unfold comparable at h
  split_ifs at h with hlength
  refine ⟨not_not.mp hlength, ?_⟩
  cases original with
  | none => cases h
  | some snapshot =>
    refine ⟨snapshot, rfl, ?_⟩
    cases hsource : sourceRefusal hash binding items claim snapshot with
    | some refusal => simp [hsource] at h
    | none =>
      simp only [hsource] at h
      split at h
      · rename_i displays reported hdisplays hreported
        cases hdimension : dimensionRefusal hash binding items claim snapshot with
        | some refusal => simp [hdimension] at h
        | none =>
          simp only [hdimension] at h
          cases h
          exact ⟨hdisplays, hreported⟩
      · cases h

theorem comparable_of_unrefused {hash : NumericHash} {binding : ClaimBinding}
    {claim : Option NumericClaim} {original : NumericSnapshot}
    {displays : List Display} {reported : Display}
    (hcount : items.length = binding.observationIds.length)
    (hsource : sourceRefusal hash binding items claim original = none)
    (hdisplays : items.mapM (observationDisplay hash original) = some displays)
    (hreported : display (binding.reportedValue.getD "") 1 = some reported)
    (hdimension : dimensionRefusal hash binding items claim original = none) :
    comparable hash binding items claim (some original) = .ok ⟨items, displays, reported⟩ := by
  unfold comparable
  rw [if_neg (not_not.mpr hcount)]
  dsimp only
  rw [hsource, hdisplays, hreported]
  rw [hdimension]

variable {displays : List Display}

theorem mapM_display_eq {snapshot : NumericSnapshot}
    (h : items.mapM (observationDisplay hash snapshot) = some displays) :
    items.mapM itemDisplay = some displays := by
  induction items generalizing displays with
  | nil => exact h
  | cons item rest ih =>
    simp only [List.mapM_cons, bind, Option.bind_eq_some_iff] at h ⊢
    obtain ⟨shown, hshown, tail, htail, hpure⟩ := h
    exact ⟨shown, observationDisplay_eq hshown, tail, ih htail, hpure⟩

theorem mapM_display_within (h : items.mapM itemDisplay = some displays) :
    displays.length = items.length ∧
      ∀ shown ∈ displays, shown.lower ≤ shown.value ∧ shown.value ≤ shown.upper := by
  induction items generalizing displays with
  | nil =>
    simp only [List.mapM_nil, pure, Option.some.injEq] at h
    subst h
    simp
  | cons item rest ih =>
    simp only [List.mapM_cons, bind, Option.bind_eq_some_iff, pure, Option.some.injEq] at h
    obtain ⟨shown, hshown, tail, htail, rfl⟩ := h
    obtain ⟨hlength, hwithin⟩ := ih htail
    refine ⟨by simp [hlength], ?_⟩
    intro other hother
    rcases List.mem_cons.mp hother with rfl | hother
    · exact display_within (scaleValue_nonneg _) hshown
    · exact hwithin other hother

/-! ### The computed interval is the image of the box -/

theorem foldl_mem_of_choice {α : Type*} {op : α → α → α} (hop : ∀ a b, op a b = a ∨ op a b = b)
    (first : α) (rest : List α) : rest.foldl op first ∈ first :: rest := by
  induction rest generalizing first with
  | nil => simp
  | cons next rest ih =>
    have hmem := ih (op first next)
    rw [List.foldl_cons]
    rcases List.mem_cons.mp hmem with hhead | htail
    · rw [hhead]
      rcases hop first next with h | h <;> simp [h]
    · exact List.mem_cons_of_mem _ (List.mem_cons_of_mem _ htail)

theorem cornerBounds_spec (rate : ℚ → ℚ → ℚ) (baseline current : Display) :
    ((∀ b c, IntervalImage.IsCorner baseline.lower baseline.upper current.lower current.upper b c →
        (cornerBounds rate baseline current).1 ≤ rate b c) ∧
      ∃ b c, IntervalImage.IsCorner baseline.lower baseline.upper current.lower current.upper b c ∧
        rate b c = (cornerBounds rate baseline current).1) ∧
    ((∀ b c, IntervalImage.IsCorner baseline.lower baseline.upper current.lower current.upper b c →
        rate b c ≤ (cornerBounds rate baseline current).2) ∧
      ∃ b c, IntervalImage.IsCorner baseline.lower baseline.upper current.lower current.upper b c ∧
        rate b c = (cornerBounds rate baseline current).2) := by
  have hattained : ∀ value, value ∈ [rate baseline.lower current.lower,
      rate baseline.lower current.upper, rate baseline.upper current.lower,
      rate baseline.upper current.upper] →
      ∃ b c, IntervalImage.IsCorner baseline.lower baseline.upper current.lower current.upper b c ∧
        rate b c = value := by
    intro value hvalue
    simp only [List.mem_cons, List.not_mem_nil, or_false] at hvalue
    rcases hvalue with rfl | rfl | rfl | rfl
    · exact ⟨_, _, ⟨Or.inl rfl, Or.inl rfl⟩, rfl⟩
    · exact ⟨_, _, ⟨Or.inl rfl, Or.inr rfl⟩, rfl⟩
    · exact ⟨_, _, ⟨Or.inr rfl, Or.inl rfl⟩, rfl⟩
    · exact ⟨_, _, ⟨Or.inr rfl, Or.inr rfl⟩, rfl⟩
  refine ⟨⟨?_, hattained _ (foldl_mem_of_choice min_choice _ _)⟩, ?_,
    hattained _ (foldl_mem_of_choice max_choice _ _)⟩
  · rintro b c ⟨rfl | rfl, rfl | rfl⟩ <;> simp [cornerBounds]
  · rintro b c ⟨rfl | rfl, rfl | rfl⟩ <;> simp [cornerBounds]

theorem growthRate_eq_rate (b c : ℚ) : growthRate b c = rate (-100) 100 b c := by
  unfold growthRate rate
  ring

theorem reductionRate_eq_rate (b c : ℚ) : reductionRate b c = rate 100 (-100) b c := by
  unfold reductionRate rate
  ring

variable {rateOf : ℚ → ℚ → ℚ}

theorem cornerBounds_image {shift factor : ℚ}
    (hrate : ∀ b c, rateOf b c = rate shift factor b c) {baseline current : Display}
    (hbaseline : baseline.lower ≤ baseline.upper) (hcurrent : current.lower ≤ current.upper)
    (hzero : 0 < baseline.lower ∨ baseline.upper < 0) :
    Set.image2 (rate (shift : ℝ) factor) baseline.interval current.interval =
      Set.Icc ((cornerBounds rateOf baseline current).1 : ℝ)
        (cornerBounds rateOf baseline current).2 := by
  have hcast : ∀ b c : ℚ, rate (shift : ℝ) factor b c = (rateOf b c : ℚ) := by
    intro b c
    rw [hrate]
    simp [rate]
  obtain ⟨⟨hlow, bl, cl, hcornerl, hminimal⟩, hhigh, bh, ch, hcornerh, hmaximal⟩ :=
    cornerBounds_spec rateOf baseline current
  have hcornerCast : ∀ {b c : ℚ},
      IntervalImage.IsCorner baseline.lower baseline.upper current.lower current.upper b c →
      IntervalImage.IsCorner (baseline.lower : ℝ) baseline.upper current.lower current.upper b c := by
    rintro b c ⟨rfl | rfl, rfl | rfl⟩ <;> simp [IntervalImage.IsCorner]
  have hcornerRat : ∀ {b c : ℝ},
      IntervalImage.IsCorner (baseline.lower : ℝ) baseline.upper current.lower current.upper b c →
      ∃ b' c' : ℚ, b = b' ∧ c = c' ∧
        IntervalImage.IsCorner baseline.lower baseline.upper current.lower current.upper b' c' := by
    rintro b c ⟨rfl | rfl, rfl | rfl⟩ <;> exact ⟨_, _, rfl, rfl, by simp [IntervalImage.IsCorner]⟩
  refine rate_image (by exact_mod_cast hbaseline) (by exact_mod_cast hcurrent)
    (by exact_mod_cast hzero) ⟨?_, _, _, hcornerCast hcornerl, ?_⟩ ⟨?_, _, _, hcornerCast hcornerh, ?_⟩
  · intro b c hbc
    obtain ⟨b', c', rfl, rfl, hcorner⟩ := hcornerRat hbc
    rw [hcast]
    exact_mod_cast hlow b' c' hcorner
  · rw [hcast, hminimal]
  · intro b c hbc
    obtain ⟨b', c', rfl, rfl, hcorner⟩ := hcornerRat hbc
    rw [hcast]
    exact_mod_cast hhigh b' c' hcorner
  · rw [hcast, hmaximal]

variable {value : ℚ → ℚ → ℚ} {computed : Computed}

theorem rateComputed_ok (h : rateComputed value rateOf displays = .ok computed) :
    ∃ baseline current, displays = [baseline, current] ∧
      ¬(baseline.lower ≤ 0 ∧ 0 ≤ baseline.upper) ∧
      computed.value = value baseline.value current.value ∧
      computed.lower = (cornerBounds rateOf baseline current).1 ∧
      computed.upper = (cornerBounds rateOf baseline current).2 := by
  unfold rateComputed at h
  split at h
  · rename_i baseline current
    split_ifs at h with hzero
    cases h
    exact ⟨baseline, current, rfl, hzero, rfl, rfl, rfl⟩
  · cases h

variable {kind : CheckKind}

theorem rate_attained_iff {shift factor : ℚ} (hrate : ∀ b c, rateOf b c = rate shift factor b c)
    (hformula : ∀ b c : ℝ, kindFormula kind [b, c] = some (rate (shift : ℝ) factor b c))
    (hordered : ∀ shown ∈ displays, shown.lower ≤ shown.upper)
    (h : rateComputed value rateOf displays = .ok computed) (r : ℝ) :
    (∃ operands : List ℝ, List.Forall₂ (fun shown x => x ∈ shown.interval) displays operands ∧
        kindFormula kind operands = some r) ↔
      r ∈ Set.Icc (computed.lower : ℝ) computed.upper := by
  obtain ⟨baseline, current, rfl, hzero, -, hlower, hupper⟩ := rateComputed_ok h
  have hbaseline : baseline.lower ≤ baseline.upper := hordered baseline (by simp)
  have hsign : 0 < baseline.lower ∨ baseline.upper < 0 := by
    by_contra hneither
    rw [not_or, not_lt, not_lt] at hneither
    exact hzero hneither
  rw [hlower, hupper,
    ← cornerBounds_image hrate hbaseline (hordered current (by simp)) hsign, Set.mem_image2]
  constructor
  · rintro ⟨operands, hoperands, hvalue⟩
    obtain ⟨b, rest, hb, hrest, rfl⟩ := List.forall₂_cons_left_iff.mp hoperands
    obtain ⟨c, tail, hc, htail, rfl⟩ := List.forall₂_cons_left_iff.mp hrest
    rw [List.forall₂_nil_left_iff.mp htail, hformula, Option.some.injEq] at hvalue
    exact ⟨b, hb, c, hc, hvalue⟩
  · rintro ⟨b, hb, c, hc, hvalue⟩
    exact ⟨[b, c], .cons hb (.cons hc .nil), by rw [hformula, hvalue]⟩

theorem compute_image (hordered : ∀ shown ∈ displays, shown.lower ≤ shown.upper)
    (hcomparison : kind = .comparison → displays.length = 1)
    (h : compute kind displays = .ok computed) (r : ℝ) :
    (∃ operands : List ℝ, List.Forall₂ (fun shown x => x ∈ shown.interval) displays operands ∧
        kindFormula kind operands = some r) ↔
      r ∈ Set.Icc (computed.lower : ℝ) computed.upper := by
  cases kind with
  | comparison =>
    obtain ⟨shown, rfl⟩ := List.length_eq_one_iff.mp (hcomparison rfl)
    simp only [compute, Except.ok.injEq] at h
    subst h
    constructor
    · rintro ⟨operands, hoperands, hvalue⟩
      obtain ⟨x, rest, hx, hrest, rfl⟩ := List.forall₂_cons_left_iff.mp hoperands
      rw [List.forall₂_nil_left_iff.mp hrest] at hvalue
      cases hvalue
      exact hx
    · intro hr
      exact ⟨[r], .cons hr .nil, rfl⟩
  | sum =>
    simp only [compute, Except.ok.injEq] at h
    subst h
    have himage := sum_image
      (displays.map fun shown => ((shown.lower : ℝ), (shown.upper : ℝ)))
      (by
        intro interval hmem
        obtain ⟨shown, hshown, rfl⟩ := List.mem_map.mp hmem
        exact Rat.cast_le.mpr (hordered shown hshown)) r
    simp only [List.map_map, List.forall₂_map_left_iff] at himage
    have hends : (displays.map (Prod.fst ∘ fun shown =>
          ((shown.lower : ℝ), (shown.upper : ℝ)))).sum = ((displays.map Display.lower).sum : ℚ) ∧
        (displays.map (Prod.snd ∘ fun shown =>
          ((shown.lower : ℝ), (shown.upper : ℝ)))).sum = ((displays.map Display.upper).sum : ℚ) := by
      have hlower := map_list_sum (Rat.castHom ℝ) (displays.map Display.lower)
      have hupper := map_list_sum (Rat.castHom ℝ) (displays.map Display.upper)
      rw [List.map_map] at hlower hupper
      exact ⟨hlower.symm, hupper.symm⟩
    rw [hends.1, hends.2] at himage
    rw [← himage]
    simp [kindFormula, Display.interval]
  | growth =>
    exact rate_attained_iff growthRate_eq_rate
      (fun b c => by simp only [kindFormula, rate, Option.some.injEq]; push_cast; ring)
      hordered h r
  | reduction | productReduction =>
    exact rate_attained_iff reductionRate_eq_rate
      (fun b c => by simp only [kindFormula, rate, Option.some.injEq]; push_cast; ring)
      hordered h r

/-- The bounds of a computed value are in order. -/
theorem compute_ordered (hordered : ∀ shown ∈ displays, shown.lower ≤ shown.upper)
    (h : compute kind displays = .ok computed) : computed.lower ≤ computed.upper := by
  have hrate : ∀ {value rateOf : ℚ → ℚ → ℚ}, rateComputed value rateOf displays = .ok computed →
      computed.lower ≤ computed.upper := by
    intro value rateOf hcomputed
    obtain ⟨baseline, current, -, -, -, hlower, hupper⟩ := rateComputed_ok hcomputed
    obtain ⟨⟨hlow, -⟩, hhigh, -⟩ := cornerBounds_spec rateOf baseline current
    have hcorner : IntervalImage.IsCorner baseline.lower baseline.upper current.lower current.upper
        baseline.lower current.lower := ⟨Or.inl rfl, Or.inl rfl⟩
    rw [hlower, hupper]
    exact (hlow _ _ hcorner).trans (hhigh _ _ hcorner)
  cases kind with
  | comparison =>
    cases displays with
    | nil => cases h
    | cons shown rest =>
      cases h
      exact hordered shown (by simp)
  | sum =>
    cases h
    exact List.sum_le_sum hordered
  | growth | reduction | productReduction => exact hrate h

theorem compute_value
    (hwithin : ∀ shown ∈ displays, shown.lower ≤ shown.value ∧ shown.value ≤ shown.upper)
    (hcomparison : kind = .comparison → displays.length = 1)
    (h : compute kind displays = .ok computed) :
    kindFormula kind (displays.map Display.value) = some computed.value := by
  have hbaseline : ∀ {baseline : Display}, baseline ∈ displays →
      ¬(baseline.lower ≤ 0 ∧ 0 ≤ baseline.upper) → baseline.value ≠ 0 := by
    intro baseline hmem hzero hvalue
    have hbounds := hwithin baseline hmem
    rw [hvalue] at hbounds
    exact hzero hbounds
  cases kind with
  | comparison =>
    obtain ⟨shown, rfl⟩ := List.length_eq_one_iff.mp (hcomparison rfl)
    cases h
    rfl
  | sum =>
    cases h
    rfl
  | growth =>
    obtain ⟨baseline, current, rfl, -, hvalue, -⟩ := rateComputed_ok h
    rw [hvalue]
    rfl
  | reduction | productReduction =>
    obtain ⟨baseline, current, rfl, hzero, hvalue, -⟩ := rateComputed_ok h
    have hnonzero := hbaseline (by simp) hzero
    rw [hvalue]
    simp only [List.map_cons, List.map_nil, kindFormula, reductionValue, Option.some.injEq]
    field_simp

theorem verdict_consistent_iff {reported : Display}
    (hcomputed : computed.lower ≤ computed.upper) (hreported : reported.lower ≤ reported.upper) :
    verdict computed reported = .consistent ↔
      ∃ r ∈ reported.interval, r ∈ Set.Icc (computed.lower : ℝ) computed.upper := by
  unfold verdict
  split_ifs with hmeet
  · simp only [true_iff]
    refine ⟨((max computed.lower reported.lower : ℚ) : ℝ), ⟨?_, ?_⟩, ?_, ?_⟩
    · exact_mod_cast le_max_right _ _
    · exact_mod_cast max_le hmeet.1 hreported
    · exact_mod_cast le_max_left _ _
    · exact_mod_cast max_le hcomputed hmeet.2
  · simp only [false_iff, not_exists, not_and]
    intro r hr hr'
    refine hmeet ⟨?_, ?_⟩
    · exact_mod_cast hr'.1.trans hr.2
    · exact_mod_cast hr.1.trans hr'.2

theorem verdict_cases (computed : Computed) (reported : Display) :
    verdict computed reported = .consistent ∨ verdict computed reported = .inconsistent := by
  unfold verdict
  split_ifs
  · exact Or.inl rfl
  · exact Or.inr rfl

end ProofOps.Domain.Numeric
