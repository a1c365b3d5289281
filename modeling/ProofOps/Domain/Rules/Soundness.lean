import ProofOps.Domain.Rules.Pinned
import ProofOps.Domain.Rules.Settling

/-!
# Three-valued soundness of the ladder

Settling unresolved facts never overturns a decision.  After the exceptions
(`effect_settled`), a closed additional element stays closed and the reached
grades can only shrink, so a decided grade stays decided and a published range
closes on one of its grades.
-/

namespace ProofOps.Domain.Rules

open Foundation Foundation.Checked

def ElementReading.Closed (reading : ElementReading) : Prop :=
  reading = .excluded ∨ reading = .complete

variable {coarse fine : String → FactState} {names : List String}

theorem readElement_closed (h : Refines coarse fine) {trigger : Option String}
    (hclosed : (readElement coarse trigger names).Closed) :
    (readElement fine trigger names).Closed := by
  unfold readElement at hclosed ⊢
  by_cases habsent : (PyText.truthy trigger && coarse (trigger.getD "") == .absent) = true
  · simp only [Bool.and_eq_true, beq_iff_eq] at habsent
    have hfine : fine (trigger.getD "") = .absent := h.absent habsent.2
    exact Or.inl (by simp [habsent.1, hfine])
  · simp only [habsent, Bool.false_eq_true, if_false] at hclosed
    split_ifs at hclosed with hopen hmissing
    · rcases hclosed with hclosed | hclosed <;> cases hclosed
    · rcases hclosed with hclosed | hclosed <;> cases hclosed
    · -- Neither open nor missing: every state the element reads is present.
      simp only [Bool.or_eq_true, not_or, Bool.and_eq_true, bne_iff_ne, ne_eq, not_and, not_not,
        List.any_eq_true, List.mem_map, not_exists, List.contains_eq_mem, decide_eq_true_eq]
        at hopen hmissing
      have hpresent : ∀ name ∈ names, coarse name = .present := by
        intro name hname
        by_contra hne
        exact hmissing name hname (hopen.2 (coarse name) ⟨name, hname, rfl⟩ hne)
      have hfine : ∀ name ∈ names, fine name = .present :=
        fun name hname => h.present (hpresent name hname)
      have hstates : ∀ state ∈ names.map fine, state = .present := by
        intro state hstate
        obtain ⟨name, hname, rfl⟩ := List.mem_map.mp hstate
        exact hfine name hname
      have htrigger : PyText.truthy trigger = true → fine (trigger.getD "") = .present :=
        fun htruthy => h.present (hopen.1 htruthy)
      have hexcluded : ¬(PyText.truthy trigger && fine (trigger.getD "") == .absent) = true := by
        simp only [Bool.and_eq_true, beq_iff_eq, not_and]
        intro htruthy
        simp [htrigger htruthy]
      have hunresolved : ¬((PyText.truthy trigger && fine (trigger.getD "") != .present) ||
          (names.map fine).any fun state => state != .present && state != .absent) = true := by
        simp only [Bool.or_eq_true, not_or, Bool.and_eq_true, bne_iff_ne, ne_eq, not_and, not_not,
          List.any_eq_true, not_exists]
        exact ⟨htrigger, fun state hstate hne => absurd (hstates state hstate) hne⟩
      have hnotMissing : ¬(names.map fine).contains .absent = true := by
        simp only [List.contains_eq_mem, decide_eq_true_eq]
        intro hmem
        exact absurd (hstates _ hmem) (by decide)
      rw [if_neg hexcluded, if_neg hunresolved, if_neg hnotMissing]
      exact Or.inr rfl

variable {state : String → FactState}

theorem additionalOpen_eq_nil_iff {track : Track} {entries : List ElementDefinition}
    {readings : List (ElementDefinition × ElementReading × String)}
    (h : readElements track entries state = .ok readings) :
    additionalOpen readings = [] ↔
      ∀ entry ∈ mappings track, additionalElements.contains entry.1 = true →
        ∀ definition, RulePackSnapshot.definition entries entry.1 = .ok definition →
          (readElement state definition.trigger entry.2).Closed := by
  have hclosed : ∀ reading : ElementReading,
      ¬(reading == .missing || reading == .unresolved) = true ↔ reading.Closed := by
    intro reading
    cases reading <;> simp [ElementReading.Closed]
  have hmem : ∀ item, item ∈ readings ↔ ∃ entry ∈ mappings track, ∃ definition,
      RulePackSnapshot.definition entries entry.1 = .ok definition ∧
        (definition, readElement state definition.trigger entry.2, entry.1) = item := by
    intro item
    rw [mem_of_mapM_ok h]
    simp only [bind_ok_iff, pure_ok_iff]
  simp only [additionalOpen, List.map_eq_nil_iff, List.filter_eq_nil_iff, Bool.and_eq_true, not_and]
  constructor
  · intro hall entry hentry hadditional definition hdefinition
    rw [← hclosed]
    exact hall _ ((hmem _).mpr ⟨entry, hentry, definition, hdefinition, rfl⟩) hadditional
  · intro hall item hitem hadditional
    obtain ⟨entry, hentry, definition, hdefinition, rfl⟩ := (hmem item).mp hitem
    rw [hclosed]
    exact hall entry hentry hadditional definition hdefinition

theorem ladderKnown_supported (names : List String) (state : String → FactState) :
    (ladderKnown names state).SupportedOn names := by
  intro name h
  unfold ladderKnown at h
  by_contra hout
  simp [hout] at h

theorem ladderKnown_eq_some_iff {names : List String} {state : String → FactState}
    {name : String} {value : Bool} :
    ladderKnown names state name = some value ↔
      name ∈ names ∧ state name = if value then .present else .absent := by
  unfold ladderKnown
  by_cases hname : name ∈ names
  · cases state name <;> cases value <;> simp [hname]
  · simp [hname]

theorem ladderKnown_extends (h : Refines coarse fine) :
    (ladderKnown names coarse).Extends (ladderKnown names fine) := by
  intro name value hknown
  rw [ladderKnown_eq_some_iff] at hknown ⊢
  refine ⟨hknown.1, ?_⟩
  cases value with
  | true => exact h.present hknown.2
  | false => exact h.absent hknown.2

theorem ladderKnown_unresolved_eq_nil (h : ∀ name ∈ names, (state name).Resolved) :
    (ladderKnown names state).unresolved names = [] := by
  rw [List.eq_nil_iff_forall_not_mem]
  intro name hname
  obtain ⟨hmem, hnone⟩ := PartialValuation.mem_unresolved.mp hname
  rcases h name hmem with hstate | hstate
  · rw [(@ladderKnown_eq_some_iff _ _ _ true).mpr ⟨hmem, hstate⟩] at hnone
    cases hnone
  · rw [(@ladderKnown_eq_some_iff _ _ _ false).mpr ⟨hmem, hstate⟩] at hnone
    cases hnone

theorem ladderOutcomes_subset {branches : List Branch} (h : Refines coarse fine) :
    ladderOutcomes branches names fine ⊆ ladderOutcomes branches names coarse :=
  PartialValuation.outcomes_subset_of_extends (ladderKnown_supported names coarse)
    (ladderKnown_supported names fine) (ladderKnown_extends h)

/-- A cap is monotone. -/
theorem capGrades_subset {cap : Option Grade} {smaller larger : List (Option Grade)}
    (h : smaller ⊆ larger) : capGrades cap smaller ⊆ capGrades cap larger := by
  cases cap with
  | none => exact h
  | some cap => exact List.map_subset _ h

theorem capGrades_ne_nil {cap : Option Grade} {grades : List (Option Grade)} (h : grades ≠ []) :
    capGrades cap grades ≠ [] := by
  cases cap with
  | none => exact h
  | some cap => simpa [capGrades] using h

theorem EngineRun.grades_ne_nil (run : EngineRun) (tags : ConfirmedTags)
    (analysisScope dec127 : Bool) : run.grades tags analysisScope dec127 ≠ [] :=
  capGrades_ne_nil (by simp [outcomes, ladderOutcomes, PartialValuation.outcomes_ne_nil])

section Runs

variable {pack : RulePackSnapshot} {tags settled : ConfirmedTags}
variable {context context' : RuleContext} {analysisScope dec127 : Bool} {run run' : EngineRun}

theorem run_settled (h : Settles (Neutral pack tags) tags settled)
    (hrun : RunOf tags context pack analysisScope dec127 run)
    (hrun' : RunOf settled context' pack analysisScope dec127 run') (hclear : run.effect.Clear) :
    run'.effect.Clear ∧ run'.effect.overrideGrade = run.effect.overrideGrade ∧
      (run.additionalBlocks = false → run'.additionalBlocks = false) ∧
      run'.grades settled analysisScope dec127 ⊆ run.grades tags analysisScope dec127 := by
  obtain ⟨hclear', hoverride, hcap, hordinal⟩ :=
    effect_settled h hrun.effect_ok hrun'.effect_ok hclear
  have hrefines : Refines (run.state tags analysisScope) (run'.state settled analysisScope) :=
    engineState_refines (h.refines analysisScope) hordinal
  have hrubric : run'.rubric = run.rubric := by
    have hsame := hrun'.rubric_ok
    rw [h.track_eq, hrun.rubric_ok, Except.ok.injEq] at hsame
    exact hsame.symm
  refine ⟨hclear', hoverride, ?_, ?_⟩
  · intro hblocks
    obtain ⟨entries, hentries, hreadings⟩ := hrun.readings_ok
    obtain ⟨entries', hentries', hreadings'⟩ := hrun'.readings_ok
    rw [hentries, Except.ok.injEq] at hentries'
    subst hentries'
    simp only [EngineRun.additionalBlocks, Bool.and_eq_false_iff, Bool.not_eq_false',
      List.isEmpty_iff, hrubric] at hblocks ⊢
    refine hblocks.imp_left fun hnil => ?_
    rw [additionalOpen_eq_nil_iff hreadings] at hnil
    rw [additionalOpen_eq_nil_iff hreadings', h.track_eq]
    intro entry hentry hadditional definition hdefinition
    exact readElement_closed hrefines (hnil entry hentry hadditional definition hdefinition)
  · unfold EngineRun.grades
    rw [hcap]
    refine capGrades_subset (List.map_subset _ ?_)
    simp only [EngineRun.outcomes, EngineRun.names, EngineRun.branches, hrubric, h.track_eq]
    exact ladderOutcomes_subset hrefines

end Runs

def primitiveState (tags : ConfirmedTags) (name : String) : FactState :=
  if tags.track = .performance ∧ (tags.fact? "categorical_ordinal").isSome = true ∧
      name ∈ ordinalPrimitives then
    ordinalState tags.factState
  else
    tags.factState name

/-- Every name of the ladder is settled. -/
def LadderSettled (pack : RulePackSnapshot) (tags : ConfirmedTags) : Prop :=
  ∀ rubric, pack.rubricFile tags.track = .ok rubric →
    ∀ name ∈ ladderNames tags.track rubric.branches, (primitiveState tags name).Resolved

theorem readState_false (tags : ConfirmedTags) : readState false tags = tags.factState := by
  funext name
  simp [readState, FactState.scoped]

theorem engineState_eq_primitiveState {tags : ConfirmedTags} {context : RuleContext}
    {pack : RulePackSnapshot} {effect : ExceptionEffect}
    (heffect : applySourceExceptions tags context pack false = .ok effect)
    (hclear : effect.Clear) (hoverride : effect.overrideGrade = none) :
    engineState effect false tags = primitiveState tags := by
  obtain ⟨-, special, -, hcases⟩ := applySourceExceptions_ok heffect
  rcases hcases with ⟨-, hgaps, -⟩ | ⟨-, ⟨-, rfl⟩ |
    ⟨elements, ordinal, product, -, hordinal, -, -, -, -, -, hstate⟩⟩
  · exact absurd hclear.1 hgaps
  · cases hoverride
  · funext name
    unfold engineState primitiveState
    rw [hstate, ordinalReading_ok hordinal, readState_false]
    by_cases hcarries : tags.track = .performance ∧
        (tags.fact? "categorical_ordinal").isSome = true
    · simp only [hcarries, and_self, if_true, true_and, List.contains_eq_mem, decide_eq_true_eq]
    · rw [if_neg hcarries, if_neg fun h => hcarries ⟨h.1, h.2.1⟩]

/-- Three-valued soundness.  Settling open facts, and adding resolved ones that
are neutral for the exceptions, never overturns a decision; and once every
ladder primitive is settled, a published range has closed on one of its
grades. -/
theorem evaluate_settled {hash : CanonicalHash} {pack : RulePackSnapshot} {context : RuleContext}
    {tags settled : ConfirmedTags} {decision decision' : Decision}
    (hsettles : Settles (Neutral pack tags) tags settled)
    (h : evaluate hash tags context pack = .ok decision)
    (h' : evaluate hash settled context pack = .ok decision') :
    (∀ grade, decision.DecidedAs grade → decision'.DecidedAs grade) ∧
      ∀ floor ceiling, decision.BlockedWithin floor ceiling → LadderSettled pack settled →
        ∃ grade, decision'.DecidedAs grade ∧ floor ≤ grade ∧ grade ≤ ceiling := by
  obtain ⟨-, hcore⟩ := evaluate_ok h
  obtain ⟨-, hcore'⟩ := evaluate_ok h'
  obtain ⟨run', hrun', hdecision'⟩ := evaluateCore_ok hcore'
  have hdecided' : ∀ grade, (run'.status settled false false).1 = .decided ∧
      run'.grade settled false false = some grade → decision'.DecidedAs grade := by
    intro grade hgrade
    rw [hdecision']
    exact hgrade
  constructor
  · intro grade hdecided
    obtain ⟨run, hrun, hclear, hgrade⟩ := decidedAs_of_evaluateCore hcore hdecided
    obtain ⟨hclear', hoverride, hblocks, hsubset⟩ := run_settled hsettles hrun hrun' hclear
    refine hdecided' grade (EngineRun.decided_iff.mpr ⟨hclear', ?_⟩)
    rw [hoverride]
    refine hgrade.imp_right fun ⟨hnone, hclosed, honly⟩ => ⟨hnone, hblocks hclosed, ?_⟩
    exact theOnly_of_subset (run'.grades_ne_nil settled false false) hsubset honly
  · intro floor ceiling hblocked hladder
    obtain ⟨run, hrun, hrange, hfloor, hceiling⟩ :=
      bounds_of_evaluateCore hcore hblocked.2.1 hblocked.2.2
    obtain ⟨hclear, hnone, hclosed, hgap⟩ := EngineRun.hasRange_spec hrange
    obtain ⟨hclear', hoverride, hblocks, hsubset⟩ := run_settled hsettles hrun hrun' hclear
    rw [hnone] at hoverride
    -- With the ladder settled there is one completion, and it reaches a grade.
    have hsettledLadder : ∀ name ∈ run'.names settled false,
        (run'.state settled false name).Resolved := by
      intro name hname
      rw [EngineRun.state, engineState_eq_primitiveState hrun'.effect_ok hclear' hoverride]
      exact hladder run'.rubric hrun'.rubric_ok name hname
    obtain ⟨reached, hreached⟩ : ∃ reached, run'.grades settled false false = [reached] := by
      unfold EngineRun.grades EngineRun.outcomes ladderOutcomes
      rw [PartialValuation.outcomes_eq_singleton_of_resolved
        (ladderKnown_unresolved_eq_nil hsettledLadder)]
      cases run'.effect.capGrade with
      | none | some cap => exact ⟨_, rfl⟩
    have hmem : reached ∈ run.grades tags false false := hsubset (by simp [hreached])
    cases reached with
    | none => exact absurd hmem hgap
    | some grade =>
      have hreachable : grade ∈ run.reachable tags false false := by
        simpa [EngineRun.reachable] using hmem
      refine ⟨grade, hdecided' grade (EngineRun.decided_iff.mpr ⟨hclear', Or.inr
        ⟨hoverride, hblocks hclosed, ?_⟩⟩), ?_, ?_⟩
      · rw [hreached]
        rfl
      · exact (List.min?_eq_some_iff.mp hfloor).2 grade hreachable
      · exact (List.max?_eq_some_iff.mp hceiling).2 grade hreachable

/-! ### Runs on concrete claims -/

def openMeans : ConfirmedTags :=
  Pinned.claim .management
    [Pinned.presentFact "named_means_or_concrete_state" Pinned.means_named,
      Pinned.bareFact "org_boundary" .unknown (by decide) (by decide)] (by decide)

def settledMeans : ConfirmedTags :=
  Pinned.claim .management
    [Pinned.presentFact "named_means_or_concrete_state" Pinned.means_named,
      Pinned.presentFact "org_boundary" (by decide),
      Pinned.bareFact "external_verification" .absent (by decide) (by decide),
      Pinned.bareFact "willingness_only" .absent (by decide) (by decide)] (by decide)

theorem evaluate_settled_means :
    Returns (evaluate Pinned.blankHash settledMeans Pinned.context
        (Pinned.pack "tenant" "sha" Pinned.rubric))
      fun decision => ∃ grade, decision.DecidedAs grade ∧ .e1 ≤ grade ∧ grade ≤ .e3 := by
  obtain ⟨decision, h, hblocked⟩ : Returns (evaluate Pinned.blankHash openMeans Pinned.context
      (Pinned.pack "tenant" "sha" Pinned.rubric)) (·.BlockedWithin .e1 .e3) := by
    decide +kernel
  obtain ⟨decision', h', -⟩ : Returns (evaluate Pinned.blankHash settledMeans Pinned.context
      (Pinned.pack "tenant" "sha" Pinned.rubric)) (·.DecidedAs .e2) := by
    decide +kernel
  have hladder : LadderSettled (Pinned.pack "tenant" "sha" Pinned.rubric) settledMeans := by
    intro rubric hrubric
    cases hrubric
    decide +kernel
  exact ⟨decision', h',
    (evaluate_settled (by decide +kernel) h h').2 .e1 .e3 hblocked hladder⟩

def LadderNamed (pack : RulePackSnapshot) (track : Track) (fact : ConfirmedFact) : Prop :=
  (pack.rubrics track).any (fun rubric =>
    (ladderNames track rubric.branches).contains fact.name) = true

instance (pack : RulePackSnapshot) (track : Track) : DecidablePred (LadderNamed pack track) :=
  fun _ => inferInstanceAs (Decidable (_ = true))

def valueLadder (extra : List Branch) : RulePackSnapshot :=
  Pinned.pack "tenant" "sha" fun _ =>
    { branches := [Pinned.requiring "VALUE" ["quantitative_or_qualified_ordinal"] .e1,
        Pinned.whenever "NO_VALUE" [("quantitative_or_qualified_ordinal", false)] .e0] ++ extra
      additionalElementPolicy := some additionalReportOnly
      productVariant := none }

def alsoAsking (name : String) : Branch :=
  Pinned.requiring "ALSO" [name, "quantitative_or_qualified_ordinal"] .e1

def valueClaim (facts : List ConfirmedFact)
    (facts_nodup : ((Pinned.presentFact "quantitative_or_qualified_ordinal" (by decide) ::
      facts).map ConfirmedFact.name).Nodup) : ConfirmedTags :=
  Pinned.claim .performance
    (Pinned.presentFact "quantitative_or_qualified_ordinal" (by decide) :: facts) facts_nodup

def ordinalFact (state : FactState) (not_present : state ≠ .present) : ConfirmedFact :=
  Pinned.bareFact "categorical_ordinal" state (by decide) not_present

theorem evaluate_settled_fails_for_exceptions :
    (Settles (LadderNamed (valueLadder [alsoAsking "categorical_ordinal"]) .performance)
        (valueClaim [] (by decide)) (valueClaim [ordinalFact .absent (by decide)] (by decide)) ∧
      Returns (evaluate Pinned.blankHash (valueClaim [] (by decide)) Pinned.context
        (valueLadder [alsoAsking "categorical_ordinal"])) (·.DecidedAs .e1) ∧
      Returns (evaluate Pinned.blankHash (valueClaim [ordinalFact .absent (by decide)] (by decide))
        Pinned.context (valueLadder [alsoAsking "categorical_ordinal"])) (·.DecidedAs .e0)) ∧
    (Settles (LadderNamed (valueLadder [alsoAsking "has_superlative"]) .performance)
        (valueClaim [] (by decide))
        (valueClaim [Pinned.presentFact "has_superlative" (by decide)] (by decide)) ∧
      Returns (evaluate Pinned.blankHash (valueClaim [] (by decide)) Pinned.context
        (valueLadder [alsoAsking "has_superlative"])) (·.DecidedAs .e1) ∧
      Returns (evaluate Pinned.blankHash
        (valueClaim [Pinned.presentFact "has_superlative" (by decide)] (by decide))
        Pinned.context (valueLadder [alsoAsking "has_superlative"]))
        (·.decisionStatus = .blockedEvidence)) ∧
    (Settles (LadderNamed (valueLadder []) .performance)
        (valueClaim [ordinalFact .unknown (by decide)] (by decide))
        (valueClaim [ordinalFact .unknown (by decide)] (by decide)) ∧
      (∀ rubric, (valueLadder []).rubrics .performance = some rubric →
        ∀ name ∈ ladderNames .performance rubric.branches,
          ((valueClaim [ordinalFact .unknown (by decide)] (by decide)).factState name).Resolved) ∧
      Returns (evaluate Pinned.blankHash (valueClaim [ordinalFact .unknown (by decide)] (by decide))
        Pinned.context (valueLadder [])) (·.BlockedWithin .e0 .e1)) := by
  refine ⟨⟨by decide +kernel, by decide +kernel, by decide +kernel⟩,
    ⟨by decide +kernel, by decide +kernel, by decide +kernel⟩, by decide +kernel, ?_,
    by decide +kernel⟩
  intro rubric hrubric
  cases hrubric
  decide +kernel

end ProofOps.Domain.Rules
