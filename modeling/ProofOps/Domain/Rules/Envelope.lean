import ProofOps.Domain.Rules.Scope
import ProofOps.Domain.Rules.Selection
import ProofOps.Domain.Rules.Soundness

/-!
# The display envelope contains the engine's grades

`display_grade_range` and the evaluators share the ladder selector and nothing
else.  `displayGradeRange_ok` says what a returned range is; every evaluator's
grade is then shown to be one of the grades it spans, or (where the display only
knows that an exception may still bite) to lie between `E0` and one of them.
-/

namespace ProofOps.Domain.Rules

open Foundation Foundation.Checked

/-! ### The display envelope -/

/-- `display_grade_range`'s result. -/
structure DisplayRange where
  (floor ceiling : Grade)
  openElements : List String
  ruleGap : Bool
  rulePackSha256 : String
  unknownTrack : List Track

variable (pack : RulePackSnapshot)

def displayTrack (state : String → FactState) (track : Track) :
    Except PyError (List (Option Grade) × List String) := do
  let rubric ← pack.rubricFile track
  let names := ladderNames track rubric.branches
  if maxLadderNames < names.length then
    throw (.domainValidation "unsupported ladder ontology size")
  let unknown := (ladderKnown names state).unresolved names
  return ((ladderOutcomes rubric.branches names state).map Prod.fst,
    ((mappings track).filter fun entry => entry.2.any unknown.contains).map Prod.fst)

def wholePackGrades : Except PyError (List Grade) := do
  let rubrics ← [Track.goal, .performance, .management].mapM pack.rubricFile
  return rubrics.flatMap fun rubric => rubric.branches.map Branch.grade

def displayReachable (effect : ExceptionEffect) (reached : List Grade) : List Grade :=
  let capped := match effect.capGrade with
    | some cap => reached.map (min · cap)
    | none => reached
  let overridden := match effect.overrideGrade with
    | some grade => [grade]
    | none => capped
  if effect.unresolvedElements ≠ [] then overridden ++ [.e0] else overridden

abbrev DisplaySubject := Option (ConfirmedTags × RuleContext)

namespace DisplaySubject

def tracks : DisplaySubject → List Track
  | some (tags, _) => [tags.track]
  | none => [.goal, .performance, .management]

def effect : DisplaySubject → Except PyError ExceptionEffect
  | some (tags, context) => applySourceExceptions tags context pack false
  | none => .ok {}

def state (effect : ExceptionEffect) : DisplaySubject → String → FactState
  | some (tags, _) => engineState effect false tags
  | none => fun _ => .unknown

end DisplaySubject

def widening (gap : Bool) : Except PyError (List Grade) :=
  if gap then wholePackGrades pack else .ok []

/-- `display_grade_range`. -/
def displayGradeRange (subject : DisplaySubject) :
    Except PyError DisplayRange := do
  let effect ← subject.effect pack
  let read ← subject.tracks.mapM (displayTrack pack (subject.state effect))
  let grades := read.flatMap Prod.fst
  let ruleGap := grades.contains none
  let wide ← widening pack (ruleGap || !effect.gapIds.isEmpty)
  let reachable := displayReachable effect (grades.filterMap id ++ wide)
  match reachable.min?, reachable.max? with
  | some floor, some ceiling =>
    return {
      floor := floor
      ceiling := ceiling
      openElements := sortedSet (read.flatMap Prod.snd ++ effect.unresolvedElements)
      ruleGap := ruleGap || !effect.gapIds.isEmpty
      rulePackSha256 := pack.sha256
      unknownTrack := subject.tracks }
  | _, _ => throw (.valueError "min() iterable argument is empty")

def DisplayRange.Contains (range : DisplayRange) (grade : Grade) : Prop :=
  range.floor ≤ grade ∧ grade ≤ range.ceiling

def displayGrades (tags : ConfirmedTags) (effect : ExceptionEffect) (rubric : Rubric) :
    List (Option Grade) :=
  (ladderOutcomes rubric.branches (ladderNames tags.track rubric.branches)
    (engineState effect false tags)).map Prod.fst

section Ranges

variable {pack : RulePackSnapshot} {tags : ConfirmedTags} {context : RuleContext}
variable {range : DisplayRange}

theorem displayGradeRange_ok (h : displayGradeRange pack (some (tags, context)) = .ok range) :
    ∃ effect rubric wide, applySourceExceptions tags context pack false = .ok effect ∧
      pack.rubricFile tags.track = .ok rubric ∧
      (none ∈ displayGrades tags effect rubric → wholePackGrades pack = .ok wide) ∧
      let reachable := displayReachable effect
        ((displayGrades tags effect rubric).filterMap id ++ wide)
      reachable.min? = some range.floor ∧ reachable.max? = some range.ceiling := by
  obtain ⟨effect, heffect, h⟩ := bind_ok h
  obtain ⟨read, hread, h⟩ := bind_ok h
  obtain ⟨wide, hwide, h⟩ := bind_ok h
  simp only [DisplaySubject.tracks, List.mapM_cons, List.mapM_nil, bind_ok_iff,
    pure_ok_iff] at hread
  obtain ⟨turn, hturn, -, rfl, rfl⟩ := hread
  obtain ⟨rubric, hrubric, hturn⟩ := bind_ok hturn
  simp only [bind, Except.bind, pure, Except.pure, throw, throwThe, MonadExceptOf.throw] at hturn
  split_ifs at hturn with hnames
  cases hturn
  simp only [List.flatMap_cons, List.flatMap_nil, List.append_nil] at hwide h
  refine ⟨effect, rubric, wide, heffect, hrubric, ?_, ?_⟩
  · intro hnone
    have hgap : (displayGrades tags effect rubric).contains none = true := by simpa using hnone
    simp only [displayGrades] at hgap
    simp only [DisplaySubject.state, hgap, Bool.true_or, widening, if_true] at hwide
    exact hwide
  · split at h
    · rename_i floor ceiling hfloor hceiling
      cases h
      exact ⟨hfloor, hceiling⟩
    · cases h

end Ranges

section Reachable

variable {effect : ExceptionEffect} {reached : List Grade} {grade : Grade}

theorem override_mem_displayReachable (h : effect.overrideGrade = some grade) :
    grade ∈ displayReachable effect reached := by
  unfold displayReachable
  simp only [h]
  split_ifs <;> simp

theorem capped_mem_displayReachable (h : effect.overrideGrade = none)
    {uncapped : Grade} (hreached : uncapped ∈ reached)
    (hgrade : (effect.capGrade = none ∧ grade = uncapped) ∨
      ∃ cap, effect.capGrade = some cap ∧ grade = min uncapped cap) :
    grade ∈ displayReachable effect reached := by
  unfold displayReachable
  simp only [h]
  rcases hgrade with ⟨hcap, rfl⟩ | ⟨cap, hcap, rfl⟩
  · simp only [hcap]
    split_ifs
    · exact List.mem_append_left _ hreached
    · exact hreached
  · have hcapped := List.mem_map_of_mem (f := (min · cap)) hreached
    simp only [hcap]
    split_ifs
    · exact List.mem_append_left _ hcapped
    · exact hcapped

theorem e0_mem_displayReachable (h : effect.unresolvedElements ≠ []) :
    Grade.e0 ∈ displayReachable effect reached := by
  simp [displayReachable, h]

end Reachable

variable {grade : Grade}

theorem contains_of_mem {range : DisplayRange} {reachable : List Grade}
    (hfloor : reachable.min? = some range.floor) (hceiling : reachable.max? = some range.ceiling)
    (h : grade ∈ reachable) : range.Contains grade :=
  ⟨(List.min?_eq_some_iff.mp hfloor).2 grade h, (List.max?_eq_some_iff.mp hceiling).2 grade h⟩

theorem mem_capGrades {cap : Option Grade} {grades : List (Option Grade)} :
    some grade ∈ capGrades cap grades ↔ ∃ uncapped, some uncapped ∈ grades ∧
      ((cap = none ∧ grade = uncapped) ∨ ∃ bound, cap = some bound ∧ grade = min uncapped bound) := by
  cases cap with
  | none => simp [capGrades]
  | some bound =>
    simp only [capGrades, List.mem_map, Option.map_eq_some_iff, reduceCtorEq, false_and,
      Option.some.injEq, false_or, exists_eq_left']
    constructor
    · rintro ⟨-, hmem, uncapped, rfl, rfl⟩
      exact ⟨uncapped, hmem, rfl⟩
    · rintro ⟨uncapped, hmem, rfl⟩
      exact ⟨some uncapped, hmem, uncapped, rfl, rfl⟩

variable {fine state : String → FactState} {wide : List Grade} {shown : ExceptionEffect}
variable {rule : SuperlativeRule}

section Displayed

variable {hash : CanonicalHash} {pack : RulePackSnapshot} {tags : ConfirmedTags}
variable {context : RuleContext} {analysisScope dec127 : Bool}

theorem readState_scoped_refines :
    Refines (readState false tags) (readState analysisScope tags) := by
  intro name hresolved
  exact FactState.scoped_resolved_of_resolved hresolved

theorem mem_ladderGrades {branches : List Branch} {names : List String} {grade : Option Grade} :
    grade ∈ (ladderOutcomes branches names state).map Prod.fst ↔
      ∃ valuation : PartialValuation String, valuation.TotalOn names ∧
        (ladderKnown names state).Extends valuation ∧ (select branches valuation).1 = grade := by
  unfold ladderOutcomes
  simp only [List.mem_map, PartialValuation.mem_outcomes (ladderKnown_supported names state)]
  constructor
  · rintro ⟨outcome, ⟨valuation, htotal, hextends, rfl⟩, rfl⟩
    exact ⟨valuation, htotal, hextends, rfl⟩
  · rintro ⟨valuation, htotal, hextends, rfl⟩
    exact ⟨_, ⟨valuation, htotal, hextends, rfl⟩, rfl⟩

theorem e0_mem_wholePackGrades {rubric : Rubric}
    (hrubric : pack.rubricFile .management = .ok rubric) (h : HasWillingness rubric.branches)
    (hwide : wholePackGrades pack = .ok wide) : Grade.e0 ∈ wide := by
  obtain ⟨rubrics, hrubrics, hwide⟩ := bind_ok hwide
  rw [pure_ok_iff] at hwide
  subst hwide
  have hmem : rubric ∈ rubrics :=
    (mem_of_mapM_ok hrubrics).mpr ⟨.management, by simp, hrubric⟩
  exact List.mem_flatMap.mpr ⟨rubric, hmem, List.mem_map_of_mem h.mem⟩

variable {grade : Grade}

theorem reached_mem_display {run : EngineRun} {rubric : Rubric}
    (hrun : RunOf tags context pack analysisScope dec127 run)
    (hrubric : pack.rubricFile tags.track = .ok rubric)
    (hwide : none ∈ displayGrades tags shown rubric → wholePackGrades pack = .ok wide)
    (hwillingness : dec127 = true → tags.track = .management → HasWillingness rubric.branches)
    (hrefines : Refines (engineState shown false tags) (run.state tags analysisScope))
    (hgrade : some grade ∈ (run.outcomes tags analysisScope dec127).map Prod.fst) :
    grade ∈ (displayGrades tags shown rubric).filterMap id ++ wide := by
  have hsame : run.rubric = rubric := by
    have hread := hrun.rubric_ok
    rw [hrubric, Except.ok.injEq] at hread
    exact hread.symm
  rw [List.mem_append, List.mem_filterMap]
  by_cases hreplaced : dec127 = true ∧ tags.track = .management
  · obtain ⟨rfl, htrack⟩ := hreplaced
    have hhas := hwillingness rfl htrack
    unfold EngineRun.outcomes EngineRun.names EngineRun.branches at hgrade
    rw [hsame, htrack, profileBranches_management, mem_ladderGrades] at hgrade
    obtain ⟨valuation, htotal, hextends, hselect⟩ := hgrade
    have hknown : ∀ name ∈ ladderNames .management (kept rubric.branches ++ [noMeans]), ∀ value,
        ladderKnown (ladderNames .management rubric.branches) (engineState shown false tags) name =
          some value → valuation name = some value := by
      intro name hname value hvalue
      have hstate := (ladderKnown_eq_some_iff.mp hvalue).2
      refine hextends name value (ladderKnown_eq_some_iff.mpr ⟨hname, ?_⟩)
      cases value with
      | true => exact hrefines.present hstate
      | false => exact hrefines.absent hstate
    obtain ⟨original, horiginalTotal, horiginalExtends, hagree⟩ :=
      exists_completion_replaced hhas (ladderKnown_supported _ _) htotal hknown
    have hdisplayed : (select rubric.branches original).1 ∈ displayGrades tags shown rubric := by
      unfold displayGrades
      rw [htrack, mem_ladderGrades]
      exact ⟨original, horiginalTotal, horiginalExtends, rfl⟩
    rcases select_replaced hhas hagree hselect with hreached | ⟨hnone, rfl⟩
    · rw [hreached] at hdisplayed
      exact Or.inl ⟨some grade, hdisplayed, rfl⟩
    · -- The original ladder matches nothing, so the display widens to the pack.
      rw [hnone] at hdisplayed
      rw [htrack] at hrubric
      exact Or.inr (e0_mem_wholePackGrades hrubric hhas (hwide hdisplayed))
  · have hbranches : run.branches tags dec127 = rubric.branches := by
      unfold EngineRun.branches profileBranches
      rw [hsame, if_neg (by simpa using hreplaced)]
    unfold EngineRun.outcomes EngineRun.names at hgrade
    rw [hbranches] at hgrade
    have hdisplayed : some grade ∈ displayGrades tags shown rubric :=
      List.map_subset _ (ladderOutcomes_subset hrefines) hgrade
    exact Or.inl ⟨some grade, hdisplayed, rfl⟩

theorem superlativeReading_override_iff :
    superlativeReading rule tags state = .override ↔
      rule.enabled = true ∧ superlativeSourced tags = true ∧
        ∀ name ∈ superlativeOperands, state name = .absent := by
  unfold superlativeReading
  constructor
  · intro h
    split_ifs at h with hhas hsourced hall
    rw [Bool.and_eq_true] at hhas
    exact ⟨hhas.2, hsourced, by simpa using List.all_eq_true.mp hall⟩
  · rintro ⟨henabled, hsourced, hall⟩
    have hhas : (hasSuperlative tags state && rule.enabled) = true := by
      simp [hasSuperlative_of_sourced hsourced, henabled]
    have hoperands : superlativeOperands.all (fun name => state name == .absent) = true :=
      List.all_eq_true.mpr (by simpa using hall)
    rw [if_pos hhas, if_pos hsourced, if_pos hoperands]

theorem superlativeReading_of_scoped_override (h : Refines (readState false tags) fine)
    (hoverride : superlativeReading rule tags fine = .override) :
    superlativeReading rule tags (readState false tags) = .override ∨
      ∃ elements, superlativeReading rule tags (readState false tags) = .unresolved elements ∧
        elements ≠ [] := by
  obtain ⟨henabled, hsourced, hfine⟩ := superlativeReading_override_iff.mp hoverride
  by_cases hall : ∀ name ∈ superlativeOperands, readState false tags name = .absent
  · exact Or.inl (superlativeReading_override_iff.mpr ⟨henabled, hsourced, hall⟩)
  · have hnotall : ¬superlativeOperands.all
        (fun name => readState false tags name == .absent) = true := by
      intro htrue
      exact hall (by simpa using List.all_eq_true.mp htrue)
    have hnotany : ¬superlativeOperands.any
        (fun name => readState false tags name == .present) = true := by
      intro htrue
      obtain ⟨name, hname, hpresent⟩ := List.any_eq_true.mp htrue
      have habsent := hfine name hname
      rw [h.present (by simpa using hpresent)] at habsent
      cases habsent
    refine Or.inr ⟨superlativeOperands.filter fun name => readState false tags name != .absent,
      ?_, ?_⟩
    · unfold superlativeReading
      rw [if_pos (by simp [hasSuperlative_of_sourced hsourced, henabled]), if_pos hsourced,
        if_neg hnotall, if_neg hnotany]
    · intro hempty
      refine hall fun name hname => ?_
      simpa using List.filter_eq_nil_iff.mp hempty name hname

theorem productReading_scoped {coarse : String → FactState} {product product' : ExceptionEffect}
    (h : Refines coarse fine) (hproduct : productReading tags pack fine = .ok product)
    (hproduct' : productReading tags pack coarse = .ok product') (hclear : product.Clear) :
    product'.capGrade = product.capGrade ∨
      product'.capGrade = none ∧ product'.unresolvedElements ≠ [] := by
  rcases productReading_clear hproduct hclear with
    ⟨hvariant, rfl⟩ | ⟨hvariant, htrack, rule, hrule, habsent, rfl⟩
  · simp only [productReading, hvariant, Bool.false_eq_true, if_false, pure_ok_iff] at hproduct'
    subst hproduct'
    exact Or.inl rfl
  · simp only [productReading, hvariant, htrack, if_true, bne_self_eq_false, Bool.false_eq_true,
      if_false] at hproduct'
    obtain ⟨rule', hrule', hproduct'⟩ := bind_ok hproduct'
    rw [hrule, Except.ok.injEq] at hrule'
    subst hrule'
    cases hstate : coarse rule.e2PlusRequires <;> simp only [hstate, pure_ok_iff] at hproduct' <;>
      subst hproduct'
    case absent => exact Or.inl rfl
    case present =>
      rw [h.present hstate] at habsent
      cases habsent
    all_goals exact Or.inr ⟨rfl, by simp⟩

theorem effect_scoped {effect : ExceptionEffect}
    (hshown : applySourceExceptions tags context pack false = .ok shown)
    (heffect : applySourceExceptions tags context pack true = .ok effect) (hclear : effect.Clear) :
    (effect.overrideGrade = some .e0 ∧
        (shown.overrideGrade = some .e0 ∨ shown.unresolvedElements ≠ [])) ∨
      effect.overrideGrade = none ∧ shown.overrideGrade = none ∧
        OrdinalRefines shown.ordinalState effect.ordinalState ∧
        (shown.capGrade = effect.capGrade ∨
          shown.capGrade = none ∧ shown.unresolvedElements ≠ []) := by
  have hrefines : Refines (readState false tags) (readState true tags) := readState_scoped_refines
  obtain ⟨-, special, hspecial, hcases⟩ := applySourceExceptions_ok heffect
  obtain ⟨-, special', hspecial', hcases'⟩ := applySourceExceptions_ok hshown
  rw [hspecial, Except.ok.injEq] at hspecial'
  subst hspecial'
  rcases hcases with ⟨-, hgaps, -⟩ | ⟨hharbor, hcases⟩
  · exact absurd hclear.1 hgaps
  · rcases hcases' with ⟨hharbor', -⟩ | ⟨-, hcases'⟩
    · rw [hharbor] at hharbor'
      cases hharbor'
    · rcases hcases with ⟨hread, rfl⟩ |
        ⟨elements, ordinal, product, hread, hordinal, hproduct, hover, hcap, hgaps, hun, hord⟩
      · refine Or.inl ⟨rfl, ?_⟩
        rcases hcases' with ⟨-, rfl⟩ | ⟨elements', -, product', hread', -, -, -, -, -, hun', -⟩
        · exact Or.inl rfl
        · rcases superlativeReading_of_scoped_override hrefines hread with
            hsame | ⟨others, hothers, hne⟩
          · rw [hsame] at hread'
            cases hread'
          · rw [hothers] at hread'
            cases hread'
            exact Or.inr (by simp [hun', hne])
      · refine Or.inr ⟨hover, ?_⟩
        have hproductClear : product.Clear := by
          have hunresolved := hclear.2
          rw [hun, List.append_eq_nil_iff] at hunresolved
          exact ⟨hgaps ▸ hclear.1, hunresolved.2⟩
        rcases hcases' with ⟨hread', -⟩ |
          ⟨elements', ordinal', product', hread', hordinal', hproduct', hover', hcap', hgaps',
            hun', hord'⟩
        · -- A plain override is a scoped one.
          obtain ⟨henabled, hsourced, hall⟩ := superlativeReading_override_iff.mp hread'
          have hscoped := superlativeReading_override_iff.mpr
            ⟨henabled, hsourced, fun name hname => hrefines.absent (hall name hname)⟩
          rw [hscoped] at hread
          cases hread
        · refine ⟨hover', ?_, ?_⟩
          · rw [hord, hord', ordinalReading_ok hordinal, ordinalReading_ok hordinal']
            split_ifs
            · exact ordinalState_refines hrefines
            · trivial
          · rw [hcap, hcap', hun']
            rcases productReading_scoped hrefines hproduct hproduct' hproductClear with
              hsame | ⟨hnone, hopen⟩
            · exact Or.inl hsame
            · exact Or.inr ⟨hnone, by simp [hopen]⟩

theorem effect_shown {effect : ExceptionEffect}
    (hshown : applySourceExceptions tags context pack false = .ok shown)
    (heffect : applySourceExceptions tags context pack dec127 = .ok effect)
    (hclear : effect.Clear) :
    (∃ grade, effect.overrideGrade = some grade ∧
        (shown.overrideGrade = some grade ∨ grade = .e0 ∧ shown.unresolvedElements ≠ [])) ∨
      effect.overrideGrade = none ∧ shown.overrideGrade = none ∧
        OrdinalRefines shown.ordinalState effect.ordinalState ∧
        (shown.capGrade = effect.capGrade ∨
          shown.capGrade = none ∧ shown.unresolvedElements ≠ []) := by
  cases dec127 with
  | true =>
    refine (effect_scoped hshown heffect hclear).imp_left fun ⟨hoverride, hdisplay⟩ => ?_
    exact ⟨.e0, hoverride, hdisplay.imp_right fun hopen => ⟨rfl, hopen⟩⟩
  | false =>
    rw [hshown, Except.ok.injEq] at heffect
    subst heffect
    cases hoverride : shown.overrideGrade with
    | some grade => exact Or.inl ⟨grade, rfl, Or.inl rfl⟩
    | none => exact Or.inr ⟨rfl, rfl, OrdinalRefines.refl _, Or.inl rfl⟩

/-! ### Containment -/

variable {range : DisplayRange}

/-- What a run reaches, the display contains. -/
theorem reached_displayed {run : EngineRun}
    (hwillingness : dec127 = true → ∀ rubric, pack.rubricFile .management = .ok rubric →
      HasWillingness rubric.branches) (hrun : RunOf tags context pack analysisScope dec127 run)
    (hclear : run.effect.Clear) (hoverride : run.effect.overrideGrade = none)
    (hgrade : some grade ∈ run.grades tags analysisScope dec127)
    (hrange : displayGradeRange pack (some (tags, context)) = .ok range) :
    range.Contains grade := by
  obtain ⟨shown, rubric, wide, hshown, hrubric, hwide, hfloor, hceiling⟩ :=
    displayGradeRange_ok hrange
  rcases effect_shown hshown hrun.effect_ok hclear with
    ⟨override, hsome, -⟩ | ⟨-, hshownOverride, hordinal, hcap⟩
  · rw [hoverride] at hsome
    cases hsome
  · obtain ⟨uncapped, huncapped, hcapped⟩ := mem_capGrades.mp hgrade
    have hreached : uncapped ∈ (displayGrades tags shown rubric).filterMap id ++ wide := by
      refine reached_mem_display hrun hrubric hwide ?_
        (engineState_refines readState_scoped_refines hordinal) huncapped
      intro hdec127 htrack
      exact hwillingness hdec127 rubric (htrack ▸ hrubric)
    rcases hcap with hsame | ⟨hnone, hopen⟩
    · rw [← hsame] at hcapped
      exact contains_of_mem hfloor hceiling
        (capped_mem_displayReachable hshownOverride hreached hcapped)
    · -- The display does not know the cap, but keeps `E0` and the uncapped grade.
      have hzero := contains_of_mem hfloor hceiling (e0_mem_displayReachable hopen)
      have hwhole := contains_of_mem hfloor hceiling
        (capped_mem_displayReachable hshownOverride hreached (Or.inl ⟨hnone, rfl⟩))
      refine ⟨hzero.1.trans grade.e0_le, le_trans ?_ hwhole.2⟩
      rcases hcapped with ⟨-, rfl⟩ | ⟨cap, -, rfl⟩
      · exact le_rfl
      · exact min_le_left _ _

/-- What is decided, the display contains. -/
theorem decided_displayed {decision : Decision}
    (hwillingness : dec127 = true → ∀ rubric, pack.rubricFile .management = .ok rubric →
      HasWillingness rubric.branches)
    (hcore : evaluateCore hash tags context pack analysisScope dec127 = .ok decision)
    (hdecided : decision.DecidedAs grade)
    (hrange : displayGradeRange pack (some (tags, context)) = .ok range) :
    range.Contains grade := by
  obtain ⟨run, hrun, hclear, hsource⟩ := decidedAs_of_evaluateCore hcore hdecided
  rcases hsource with hoverride | ⟨hoverride, -, honly⟩
  · obtain ⟨shown, rubric, wide, hshown, -, -, hfloor, hceiling⟩ := displayGradeRange_ok hrange
    refine contains_of_mem hfloor hceiling ?_
    rcases effect_shown hshown hrun.effect_ok hclear with ⟨override, hsome, hdisplay⟩ | ⟨hnone, -⟩
    · rw [hoverride, Option.some.injEq] at hsome
      subst hsome
      rcases hdisplay with hsame | ⟨rfl, hopen⟩
      · exact override_mem_displayReachable hsame
      · exact e0_mem_displayReachable hopen
    · rw [hoverride] at hnone
      cases hnone
  · obtain ⟨hne, hall⟩ := theOnly_eq_some_iff.mp honly
    obtain ⟨reached, hreached⟩ := List.exists_mem_of_ne_nil _ hne
    have hgrade : some grade ∈ run.grades tags analysisScope dec127 := hall reached hreached ▸ hreached
    exact reached_displayed hwillingness hrun hclear hoverride hgrade hrange

end Displayed

variable {scopeHash : ScopeHash} {scope : ScopeHeader} {receipt : String} {outcome : ScopeOutcome}
  {hash : CanonicalHash} {tags : ConfirmedTags} {context : RuleContext} {pack}

theorem evaluateScope_decidedAs {absentFacts : List String}
    (h : evaluateScope hash scopeHash tags context pack scope absentFacts receipt = .ok outcome)
    (hdecided : outcome.decision.DecidedAs grade) :
    ∃ decision, evaluateCore hash tags context pack true false = .ok decision ∧
      decision.DecidedAs grade := by
  unfold evaluateScope at h
  simp only [throw, throwThe, MonadExceptOf.throw, bind, Except.bind, pure, Except.pure] at h
  split_ifs at h
  cases hcore : evaluateCore hash tags context pack true false with
  | error error => simp [hcore] at h
  | ok decision =>
    refine ⟨decision, rfl, ?_⟩
    simp only [hcore] at h
    split_ifs at h
    · cases h
      exact hdecided
    · cases hpolicy : scope.confirmationPolicySha256 with
      | none => simp [hpolicy] at h
      | some policy =>
        simp only [hpolicy, Except.ok.injEq] at h
        subst h
        exact hdecided

theorem evaluateCf6Scope_decidedAs {policy : String}
    (h : evaluateCf6Scope hash scopeHash tags context pack scope policy receipt = .ok outcome)
    (hdecided : outcome.decision.DecidedAs grade) :
    ∃ dec127 decision, evaluateCore hash tags context pack true dec127 = .ok decision ∧
      decision.DecidedAs grade := by
  unfold evaluateCf6Scope at h
  cases hselected : selectedPolicy scopeHash scope with
  | none => simp [hselected] at h
  | some selected =>
    simp only [hselected, throw, throwThe, MonadExceptOf.throw, bind, Except.bind, pure,
      Except.pure] at h
    split_ifs at h
    refine ⟨selected == .cf6V2, ?_⟩
    cases hcore : evaluateCore hash tags context pack true (selected == .cf6V2) with
    | error error => simp [hcore] at h
    | ok decision =>
      refine ⟨decision, rfl, ?_⟩
      simp only [hcore] at h
      split_ifs at h <;> cases h <;> exact hdecided

/-- The display envelope never contradicts an evaluator: it spans every grade
that the full-evidence and the analysis-scope profiles decide, every published
bound, and, where the management ladder has the willingness branch, every grade
the cf6 profiles decide. -/
theorem displayGradeRange_contains {hash : CanonicalHash} {scopeHash : ScopeHash}
    {pack : RulePackSnapshot} {tags : ConfirmedTags} {context : RuleContext}
    {range : DisplayRange} (hrange : displayGradeRange pack (some (tags, context)) = .ok range) :
    (∀ decision, evaluate hash tags context pack = .ok decision →
      (∀ grade, decision.DecidedAs grade → range.Contains grade) ∧
        ∀ bound, decision.gradeFloor = some bound ∨ decision.gradeCeiling = some bound →
          range.Contains bound) ∧
    (∀ scope absentFacts receipt outcome,
      evaluateScope hash scopeHash tags context pack scope absentFacts receipt = .ok outcome →
        ∀ grade, outcome.decision.DecidedAs grade → range.Contains grade) ∧
    ((∀ rubric, pack.rubricFile .management = .ok rubric → HasWillingness rubric.branches) →
      ∀ scope policy receipt outcome,
        evaluateCf6Scope hash scopeHash tags context pack scope policy receipt = .ok outcome →
          ∀ grade, outcome.decision.DecidedAs grade → range.Contains grade) := by
  refine ⟨fun decision h => ?_, ?_, ?_⟩
  · obtain ⟨-, hcore⟩ := evaluate_ok h
    refine ⟨fun grade hdecided => decided_displayed (by simp) hcore hdecided hrange, ?_⟩
    intro bound hbound
    obtain ⟨run, hrun, hopen, hmem⟩ := bound_of_evaluateCore hcore hbound
    obtain ⟨hclear, hoverride, -, -⟩ := EngineRun.hasRange_spec hopen
    have hgrade : some bound ∈ run.grades tags false false := by
      simpa [EngineRun.reachable] using hmem
    exact reached_displayed (by simp) hrun hclear hoverride hgrade hrange
  · intro scope absentFacts receipt outcome h grade hdecided
    obtain ⟨decision, hcore, hgrade⟩ := evaluateScope_decidedAs h hdecided
    exact decided_displayed (by simp) hcore hgrade hrange
  · intro hwillingness scope policy receipt outcome h grade hdecided
    obtain ⟨dec127, decision, hcore, hgrade⟩ := evaluateCf6Scope_decidedAs h hdecided
    exact decided_displayed (fun _ => hwillingness) hcore hgrade hrange

def meansNotObserved : ConfirmedTags :=
  Pinned.claim .management
    [Pinned.bareFact "named_means_or_concrete_state" .absentInScope Pinned.means_named (by decide)]
    (by decide)

def scopeDigests : ScopeHash where
  policy := fun policy => match policy with
    | .analysis => "analysis"
    | .cf6V1 => "first"
    | .cf6V2 => "second"
  semantic := fun _ _ _ => ""

def cf6Header : ScopeHeader where
  tenantId := some "tenant"
  documentVersionId := some "document"
  runId := some "run"
  selectedPages := some [1]
  inspectedPages := none
  uninspectedPages := none
  rulePolicySha256 := some "second"
  confirmationPolicySha256 := none

theorem pinned_hasWillingness : HasWillingness Pinned.management.branches where
  mem := by decide
  unique := by decide

theorem displayGradeRange_contains_not_observed :
    Returns (displayGradeRange (Pinned.pack "tenant" "sha" Pinned.rubric)
      (some (meansNotObserved, Pinned.context))) (·.Contains .e0) := by
  obtain ⟨range, hrange, -⟩ : Returns (displayGradeRange
      (Pinned.pack "tenant" "sha" Pinned.rubric) (some (meansNotObserved, Pinned.context)))
      (·.ruleGap = true) := by
    decide +kernel
  obtain ⟨outcome, houtcome, hdecided⟩ : Returns (evaluateCf6Scope Pinned.blankHash scopeDigests
      meansNotObserved Pinned.context (Pinned.pack "tenant" "sha" Pinned.rubric) cf6Header
      "policy" "receipt") (·.decision.DecidedAs .e0) := by
    decide +kernel
  have hwillingness : ∀ rubric,
      (Pinned.pack "tenant" "sha" Pinned.rubric).rubricFile .management = .ok rubric →
        HasWillingness rubric.branches := by
    intro rubric hrubric
    cases hrubric
    exact pinned_hasWillingness
  exact ⟨range, hrange, (@displayGradeRange_contains Pinned.blankHash _ _ _ _ _ hrange).2.2
    hwillingness cf6Header "policy" "receipt" outcome houtcome .e0 hdecided⟩

end ProofOps.Domain.Rules
