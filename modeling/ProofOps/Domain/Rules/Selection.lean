import Mathlib.Data.List.Find
import Mathlib.Order.MinMax
import ProofOps.Domain.Rules.Pinned

/-!
# Selecting a branch

The grade `_select` returns: the grade of the first matching capping branch, and
otherwise the greatest grade of a matching branch.  From it follows what DEC-127
changes: replacing the willingness branch by scoped non-observation of named
means can only move a grade that no other branch reaches, and then to `E0`.
-/

namespace ProofOps.Domain.Rules

open Foundation

theorem matchLt_grade (best next : Grade × String) :
    (if matchLt best next then next else best).1 = max best.1 next.1 := by
  by_cases hlt : best.1 < next.1
  · simp [matchLt, hlt, max_eq_right hlt.le]
  · have hle : next.1 ≤ best.1 := not_lt.mp hlt
    rw [max_eq_left hle]
    split_ifs with hmatch
    · simp only [matchLt, hlt, decide_false, Bool.false_or, Bool.and_eq_true, beq_iff_eq] at hmatch
      exact hmatch.1.symm
    · rfl

theorem maxMatch_grade (matched : List (Grade × String)) :
    (maxMatch matched).map Prod.fst = (matched.map Prod.fst).max? := by
  cases matched with
  | nil => rfl
  | cons head rest =>
    simp only [maxMatch, Option.map_some, List.map_cons, List.max?_cons', Option.some.injEq]
    induction rest generalizing head with
    | nil => rfl
    | cons next rest ih =>
      rw [List.foldl_cons, List.map_cons, List.foldl_cons, ih, matchLt_grade]

/-- The branches that hold of the facts. -/
def matching (branches : List Branch) (facts : PartialValuation String) : List Branch :=
  branches.filter (Branch.holds (withException facts))

theorem select_grade (branches : List Branch) (facts : PartialValuation String) :
    (select branches facts).1 =
      match (matching branches facts).find? Branch.cap with
      | some branch => some branch.grade
      | none => ((matching branches facts).map Branch.grade).max? := by
  have hmax := maxMatch_grade
    ((matching branches facts).map fun branch => (branch.grade, branch.id))
  rw [List.map_map] at hmax
  simp only [select, matching] at hmax ⊢
  cases (branches.filter (Branch.holds (withException facts))).find? Branch.cap with
  | some branch => rfl
  | none =>
    refine Eq.trans ?_ hmax
    cases maxMatch ((branches.filter (Branch.holds (withException facts))).map
      fun branch : Branch => (branch.grade, branch.id)) with
    | some best => rfl
    | none => rfl

/-- The names a ladder reads. -/
theorem mem_ladderNames {track : Track} {branches : List Branch} {name : String} :
    name ∈ ladderNames track branches ↔
      (name ≠ exceptionApplies ∧ ∃ branch ∈ branches, name ∈ branch.names) ∨
        track = .goal ∧ (name = "target_metric" ∨ name = "transition_plan") := by
  unfold ladderNames
  rw [(List.perm_insertionSort _ _).mem_iff, List.mem_dedup, List.mem_append, List.mem_filter,
    List.mem_flatMap, bne_iff_ne, and_comm]
  by_cases htrack : track = .goal <;> simp [htrack]

/-! ### The DEC-127 ladder -/

def noMeans : Branch :=
  Pinned.whenever "MGMT_NO_MEANS_IN_SCOPE_E0" [("named_means_or_concrete_state", false)] .e0

def kept (branches : List Branch) : List Branch :=
  branches.filter fun branch => branch.id != "MGMT_WILLINGNESS"

theorem profileBranches_management (branches : List Branch) :
    profileBranches true .management branches = kept branches ++ [noMeans] :=
  rfl

structure HasWillingness (branches : List Branch) : Prop where
  mem : Pinned.willingness ∈ branches
  unique : ∀ branch ∈ branches, branch.id = "MGMT_WILLINGNESS" → branch = Pinned.willingness

section Replaced

variable {branches : List Branch} {facts facts' : PartialValuation String}

def AgreeOnKept (branches : List Branch) (facts facts' : PartialValuation String) : Prop :=
  ∀ branch ∈ kept branches, branch.holds (withException facts) = branch.holds (withException facts')

theorem mem_matching_kept (hagree : AgreeOnKept branches facts facts') {branch : Branch} :
    branch ∈ matching (kept branches) facts' ↔
      branch ∈ matching branches facts ∧ branch.id ≠ "MGMT_WILLINGNESS" := by
  have hkept : branch ∈ kept branches ↔ branch ∈ branches ∧ branch.id ≠ "MGMT_WILLINGNESS" := by
    simp [kept]
  unfold matching
  rw [List.mem_filter, List.mem_filter]
  constructor
  · rintro ⟨hmem, hholds⟩
    rw [← hagree branch hmem] at hholds
    exact ⟨⟨(hkept.mp hmem).1, hholds⟩, (hkept.mp hmem).2⟩
  · rintro ⟨⟨hmem, hholds⟩, hid⟩
    have hin := hkept.mpr ⟨hmem, hid⟩
    rw [hagree branch hin] at hholds
    exact ⟨hin, hholds⟩

theorem find?_cap_replaced (h : HasWillingness branches)
    (hagree : AgreeOnKept branches facts facts') :
    (matching (kept branches ++ [noMeans]) facts').find? Branch.cap =
      (matching branches facts).find? Branch.cap := by
  have hnoMeans : (matching [noMeans] facts').find? Branch.cap = none := by
    rw [List.find?_eq_none]
    intro branch hbranch
    have hname := List.mem_of_mem_filter hbranch
    rw [List.mem_singleton] at hname
    simp [hname, noMeans, Pinned.whenever]
  have hkept : (matching (kept branches) facts').find? Branch.cap =
      (matching branches facts).find? Branch.cap := by
    unfold matching
    rw [List.find?_filter, List.find?_filter]
    unfold kept
    rw [List.find?_filter]
    apply List.find?_congr
    intro branch hbranch
    by_cases hid : branch.id = "MGMT_WILLINGNESS"
    · simp [h.unique branch hbranch hid, Pinned.willingness, Pinned.whenever]
    · have hin : branch ∈ kept branches := by simp [kept, hbranch, hid]
      simp [hid, hagree branch hin]
  unfold matching at hkept hnoMeans ⊢
  rw [List.filter_append, List.find?_append, hkept, hnoMeans, Option.or_none]

theorem select_replaced (h : HasWillingness branches)
    (hagree : AgreeOnKept branches facts facts') {grade : Grade}
    (hgrade : (select (kept branches ++ [noMeans]) facts').1 = some grade) :
    (select branches facts).1 = some grade ∨
      (select branches facts).1 = none ∧ grade = .e0 := by
  rw [select_grade] at hgrade ⊢
  rw [find?_cap_replaced h hagree] at hgrade
  cases hcap : (matching branches facts).find? Branch.cap with
  | some branch =>
    rw [hcap] at hgrade
    exact Or.inl hgrade
  | none =>
    simp only [hcap] at hgrade ⊢
    obtain ⟨hmem, hbound⟩ := List.max?_eq_some_iff.mp hgrade
    -- Off the kept branches, either ladder only reaches `E0`.
    have hreplaced : ∀ branch ∈ matching (kept branches ++ [noMeans]) facts',
        branch ∈ matching branches facts ∨ branch.grade = .e0 := by
      intro branch hbranch
      unfold matching at hbranch
      rw [List.filter_append, List.mem_append] at hbranch
      rcases hbranch with hbranch | hbranch
      · exact Or.inl ((mem_matching_kept hagree).mp hbranch).1
      · have hname := List.mem_of_mem_filter hbranch
        rw [List.mem_singleton] at hname
        simp [hname, noMeans, Pinned.whenever]
    have horiginal : ∀ branch ∈ matching branches facts,
        branch ∈ matching (kept branches ++ [noMeans]) facts' ∨ branch.grade = .e0 := by
      intro branch hbranch
      by_cases hid : branch.id = "MGMT_WILLINGNESS"
      · rw [h.unique branch (List.mem_of_mem_filter hbranch) hid]
        exact Or.inr rfl
      · have hin := (mem_matching_kept hagree).mpr ⟨hbranch, hid⟩
        unfold matching at hin ⊢
        rw [List.filter_append, List.mem_append]
        exact Or.inl (Or.inl hin)
    obtain ⟨source, hsource, hsourceGrade⟩ := List.mem_map.mp hmem
    cases hbest : ((matching branches facts).map Branch.grade).max? with
    | none =>
      have hempty : matching branches facts = [] := by
        simpa using List.max?_eq_none_iff.mp hbest
      rcases hreplaced source hsource with hin | hzero
      · simp [hempty] at hin
      · exact Or.inr ⟨rfl, hsourceGrade ▸ hzero⟩
    | some best =>
      obtain ⟨hbestMem, hbestBound⟩ := List.max?_eq_some_iff.mp hbest
      obtain ⟨winner, hwinner, hwinnerGrade⟩ := List.mem_map.mp hbestMem
      refine Or.inl (congrArg some (le_antisymm ?_ ?_))
      · rw [← hwinnerGrade]
        rcases horiginal winner hwinner with hin | hzero
        · exact hbound _ (List.mem_map_of_mem hin)
        · rw [hzero]
          exact grade.e0_le
      · rw [← hsourceGrade]
        rcases hreplaced source hsource with hin | hzero
        · exact hbestBound _ (List.mem_map_of_mem hin)
        · rw [hzero]
          exact best.e0_le

end Replaced

theorem withException_eq_of_ne {facts : PartialValuation String} {name : String}
    (h : name ≠ exceptionApplies) : withException facts name = facts name := by
  simp [withException, h]

theorem holds_congr {facts facts' : PartialValuation String} {branch : Branch}
    (hnames : ∀ name ∈ branch.names, name ≠ exceptionApplies → facts name = facts' name)
    (htarget : facts "target_metric" = facts' "target_metric")
    (hplan : facts "transition_plan" = facts' "transition_plan") :
    branch.holds (withException facts) = branch.holds (withException facts') := by
  unfold Branch.holds
  rw [Bool.eq_iff_iff, List.all_eq_true, List.all_eq_true]
  refine forall₂_congr fun condition hcondition => ?_
  have hread : withException facts condition.1 = withException facts' condition.1 := by
    by_cases hname : condition.1 = exceptionApplies
    · rw [hname]
      simp [withException, htarget, hplan]
    · rw [withException_eq_of_ne hname, withException_eq_of_ne hname]
      exact hnames _ (Branch.mem_names_of_mem_conditions hcondition) hname
  rw [hread]

theorem exists_completion_replaced {branches : List Branch} (h : HasWillingness branches)
    {known valuation : PartialValuation String}
    (hsupported : known.SupportedOn (ladderNames .management branches))
    (htotal : valuation.TotalOn (ladderNames .management (kept branches ++ [noMeans])))
    (hvaluation : ∀ name ∈ ladderNames .management (kept branches ++ [noMeans]), ∀ value,
      known name = some value → valuation name = some value) :
    ∃ original : PartialValuation String,
      original.TotalOn (ladderNames .management branches) ∧ known.Extends original ∧
        AgreeOnKept branches original valuation := by
  -- Shared names keep their value; a name only the willingness branch asks for
  -- takes what is known, and `false` otherwise.
  let original : PartialValuation String := fun name =>
    if name ∈ ladderNames .management branches then
      if name ∈ ladderNames .management (kept branches ++ [noMeans]) then valuation name
      else (known name).or (some false)
    else none
  have hshared : ∀ branch ∈ kept branches, ∀ name ∈ branch.names, name ≠ exceptionApplies →
      original name = valuation name := by
    intro branch hbranch name hname hne
    have hin : name ∈ ladderNames .management branches :=
      mem_ladderNames.mpr (Or.inl ⟨hne, branch, List.mem_of_mem_filter hbranch, hname⟩)
    have hin' : name ∈ ladderNames .management (kept branches ++ [noMeans]) :=
      mem_ladderNames.mpr (Or.inl ⟨hne, branch, List.mem_append_left _ hbranch, hname⟩)
    simp only [original, if_pos hin, if_pos hin']
  -- Neither replaced branch names the operands of the derived exception.
  have hoperand : ∀ name, name ≠ exceptionApplies → name ∉ Pinned.willingness.names →
      name ∉ noMeans.names → original name = valuation name := by
    intro name hne hwillingness hnoMeans
    by_cases hkept : ∃ branch ∈ kept branches, name ∈ branch.names
    · obtain ⟨branch, hbranch, hname⟩ := hkept
      exact hshared branch hbranch name hname hne
    · have hout : name ∉ ladderNames .management branches := by
        rw [mem_ladderNames]
        rintro (⟨-, branch, hbranch, hname⟩ | ⟨htrack, -⟩)
        · by_cases hid : branch.id = "MGMT_WILLINGNESS"
          · rw [h.unique branch hbranch hid] at hname
            exact hwillingness hname
          · exact hkept ⟨branch, by simp [kept, hbranch, hid], hname⟩
        · cases htrack
      have hout' : name ∉ ladderNames .management (kept branches ++ [noMeans]) := by
        rw [mem_ladderNames]
        rintro (⟨-, branch, hbranch, hname⟩ | ⟨htrack, -⟩)
        · rcases List.mem_append.mp hbranch with hbranch | hbranch
          · exact hkept ⟨branch, hbranch, hname⟩
          · rw [List.mem_singleton.mp hbranch] at hname
            exact hnoMeans hname
        · cases htrack
      have hundefined := mt (htotal name).mp hout'
      simp only [original, if_neg hout]
      exact (by simpa using hundefined : valuation name = none).symm
  refine ⟨original, ?_, ?_, ?_⟩
  · intro name
    by_cases hin : name ∈ ladderNames .management branches
    · by_cases hin' : name ∈ ladderNames .management (kept branches ++ [noMeans])
      · simp only [original, if_pos hin, if_pos hin', (htotal name).mpr hin', hin]
      · simp only [original, if_pos hin, if_neg hin', hin, iff_true]
        cases known name <;> rfl
    · simp [original, hin]
  · intro name value hknown
    have hin : name ∈ ladderNames .management branches := hsupported name (by simp [hknown])
    by_cases hin' : name ∈ ladderNames .management (kept branches ++ [noMeans])
    · simp only [original, if_pos hin, if_pos hin']
      exact hvaluation name hin' value hknown
    · simp only [original, if_pos hin, if_neg hin', hknown, Option.some_or]
  · intro branch hbranch
    refine holds_congr (hshared branch hbranch) ?_ ?_
    · exact hoperand _ (by decide) (by decide) (by decide)
    · exact hoperand _ (by decide) (by decide) (by decide)

end ProofOps.Domain.Rules
