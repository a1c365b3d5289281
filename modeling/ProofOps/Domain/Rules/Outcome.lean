import Mathlib.Order.MinMax
import ProofOps.Domain.Rules.Engine
import ProofOps.Foundation.Checked

/-!
# What a returned decision says

One specification of `_evaluate`, used by every later result instead of the
function's body: `gather_ok` inverts the reading half, `evaluateCore_ok` says
that a returned decision is filled from such a run, and the characterisations
below turn "decided with grade `g`" and "blocked with range `floor..ceiling`"
into statements about the reached grades.
-/

namespace ProofOps.Domain.Rules

open Foundation Foundation.Checked

structure RunOf (tags : ConfirmedTags) (context : RuleContext) (pack : RulePackSnapshot)
    (analysisScope dec127 : Bool) (run : EngineRun) : Prop where
  effect_ok : applySourceExceptions tags context pack dec127 = .ok run.effect
  readings_ok : ∃ entries, pack.elementsFile = .ok entries ∧
    readElements tags.track entries (run.state tags analysisScope) = .ok run.readings
  rubric_ok : pack.rubricFile tags.track = .ok run.rubric
  names_bounded : (run.names tags dec127).length ≤ maxLadderNames

section Inversion

variable {hash : CanonicalHash} {tags : ConfirmedTags} {context : RuleContext}
variable {pack : RulePackSnapshot} {analysisScope dec127 : Bool}

theorem gather_ok {run : EngineRun} (h : gather tags context pack analysisScope dec127 = .ok run) :
    RunOf tags context pack analysisScope dec127 run := by
  obtain ⟨effect, heffect, h⟩ := bind_ok h
  obtain ⟨entries, hentries, h⟩ := bind_ok h
  obtain ⟨readings, hreadings, h⟩ := bind_ok h
  obtain ⟨rubric, hrubric, h⟩ := bind_ok h
  simp only [bind, Except.bind, pure, Except.pure, throw, throwThe, MonadExceptOf.throw] at h
  split_ifs at h with hpolicy hnames
  cases h
  exact ⟨heffect, ⟨entries, hentries, hreadings⟩, hrubric, not_lt.mp hnames⟩

variable {decision : Decision}

theorem evaluateCore_ok
    (h : evaluateCore hash tags context pack analysisScope dec127 = .ok decision) :
    ∃ run, RunOf tags context pack analysisScope dec127 run ∧
      decision = { run.decision tags analysisScope dec127 hash context pack with
        semanticHash := decision.semanticHash } := by
  obtain ⟨run, hrun, h⟩ := bind_ok h
  rw [pure_ok_iff] at h
  subst h
  exact ⟨run, gather_ok hrun, rfl⟩

theorem evaluate_ok (h : evaluate hash tags context pack = .ok decision) :
    (∀ fact ∈ tags.facts, fact.state ≠ .absentInScope) ∧
      evaluateCore hash tags context pack false false = .ok decision := by
  unfold evaluate at h
  simp only [bind, Except.bind, throw, throwThe, MonadExceptOf.throw] at h
  split_ifs at h with hscoped
  refine ⟨fun fact hfact hstate => hscoped ?_, h⟩
  exact List.any_eq_true.mpr ⟨fact, hfact, by simp [hstate]⟩

end Inversion

def ExceptionEffect.Clear (effect : ExceptionEffect) : Prop :=
  effect.gapIds = [] ∧ effect.unresolvedElements = []

variable {state : String → FactState}

section Exceptions

variable {tags : ConfirmedTags} {context : RuleContext} {pack : RulePackSnapshot}
variable {analysisScope : Bool} {effect : ExceptionEffect}

theorem applySourceExceptions_ok
    (h : applySourceExceptions tags context pack analysisScope = .ok effect) :
    validateInputs tags context pack = .ok () ∧ ∃ special, pack.superlativeRule = .ok special ∧
      (tags.safeHarborCategory.isSome = true ∧
          effect.gapIds ≠ [] ∧ effect.capGrade = none ∧ effect.overrideGrade = none ∧
            effect.unresolvedElements = [] ∧ effect.ordinalState = none ∨
        tags.safeHarborCategory.isSome = false ∧
          (superlativeReading special tags (readState analysisScope tags) = .override ∧
              effect = { overrideGrade := some .e0, ruleIds := ["SUPERLATIVE_E0"] } ∨
            ∃ elements ordinal product,
              superlativeReading special tags (readState analysisScope tags) =
                  .unresolved elements ∧
                ordinalReading tags (readState analysisScope tags) = .ok ordinal ∧
                productReading tags pack (readState analysisScope tags) = .ok product ∧
                effect.overrideGrade = none ∧ effect.capGrade = product.capGrade ∧
                effect.gapIds = product.gapIds ∧
                effect.unresolvedElements = elements ++ product.unresolvedElements ∧
                effect.ordinalState = ordinal)) := by
  obtain ⟨⟨⟩, hvalid, h⟩ := bind_ok h
  obtain ⟨special, hspecial, h⟩ := bind_ok h
  refine ⟨hvalid, special, hspecial, ?_⟩
  by_cases hharbor : tags.safeHarborCategory.isSome = true
  · rw [if_pos hharbor, pure_ok_iff] at h
    subst h
    refine Or.inl ⟨hharbor, ?_, rfl, rfl, rfl, rfl⟩
    split_ifs <;> simp
  · rw [if_neg hharbor] at h
    refine Or.inr ⟨by simpa using hharbor, ?_⟩
    cases hreading : superlativeReading special tags (readState analysisScope tags) with
    | override =>
      simp only [hreading] at h
      exact Or.inl ⟨rfl, (pure_ok h).symm⟩
    | unresolved elements =>
      simp only [hreading] at h
      obtain ⟨ordinal, hordinal, h⟩ := bind_ok h
      obtain ⟨product, hproduct, h⟩ := bind_ok h
      rw [pure_ok_iff] at h
      subst h
      exact Or.inr ⟨elements, ordinal, product, rfl, hordinal, hproduct, rfl, rfl, rfl, rfl, rfl⟩

theorem productReading_clear {product : ExceptionEffect}
    (h : productReading tags pack state = .ok product) (hclear : product.Clear) :
    tags.productVariant = false ∧ product = {} ∨
      tags.productVariant = true ∧ tags.track = .management ∧
        ∃ rule, pack.productVariantRule = .ok rule ∧ state rule.e2PlusRequires = .absent ∧
          product = { capGrade := some rule.specificNamesOnlyCap,
                      ruleIds := ["PRODUCT_NAMES_CAP"] } := by
  unfold productReading at h
  cases hvariant : tags.productVariant with
  | false =>
    simp only [hvariant, Bool.false_eq_true, if_false, pure_ok_iff] at h
    exact Or.inl ⟨rfl, h.symm⟩
  | true =>
    simp only [hvariant, if_true] at h
    by_cases htrack : tags.track = .management
    · simp only [htrack, bne_self_eq_false, Bool.false_eq_true, if_false] at h
      obtain ⟨rule, hrule, h⟩ := bind_ok h
      cases hstate : state rule.e2PlusRequires <;> simp only [hstate, pure_ok_iff] at h
      case absent => exact Or.inr ⟨rfl, htrack, rule, hrule, hstate, h.symm⟩
      all_goals
        subst h
        simp [ExceptionEffect.Clear] at hclear
    · have hne : (tags.track != .management) = true := by simpa using htrack
      simp only [hne, if_true, pure_ok_iff] at h
      subst h
      simp [ExceptionEffect.Clear] at hclear

theorem ordinalReading_ok {ordinal : Option FactState}
    (h : ordinalReading tags state = .ok ordinal) :
    ordinal = if tags.track = .performance ∧ (tags.fact? "categorical_ordinal").isSome = true then
      some (ordinalState state) else none := by
  unfold ordinalReading at h
  by_cases hcarries : tags.track = .performance ∧ (tags.fact? "categorical_ordinal").isSome = true
  · rw [if_pos (by simpa using hcarries)] at h
    obtain ⟨-, -, h⟩ := bind_ok h
    rw [if_pos hcarries, ← pure_ok h]
  · rw [if_neg (by simpa using hcarries), pure_ok_iff] at h
    rw [if_neg hcarries, h]

end Exceptions

theorem ladderStatus_decided_iff {grades : List (Option Grade)} :
    (ladderStatus grades).1 = .decided ↔ ∃ grade, theOnly grades = some (some grade) := by
  unfold ladderStatus
  split <;> simp_all

variable {status : DecisionStatus × List String}

theorem applyEffect_decided_iff {effect : ExceptionEffect} :
    (applyEffect effect status).1 = .decided ↔
      effect.gapIds = [] ∧ effect.unresolvedElements = [] ∧
        (effect.overrideGrade.isSome = true ∨ status.1 = .decided) := by
  by_cases hgaps : effect.gapIds = [] <;> by_cases hunresolved : effect.unresolvedElements = [] <;>
    cases hoverride : effect.overrideGrade <;> simp [applyEffect, hgaps, hunresolved, hoverride]

theorem blockAdditional_decided_iff {blocks : Bool} {additional unresolved : List String}
    :
    (blockAdditional blocks additional unresolved status).1 = .decided ↔
      blocks = false ∧ status.1 = .decided := by
  cases blocks with
  | false => simp [blockAdditional]
  | true =>
    by_cases hopen : additional.any unresolved.contains = true <;>
      simp only [blockAdditional, hopen] <;> simp

namespace EngineRun

variable {run : EngineRun} {tags : ConfirmedTags} {analysisScope dec127 : Bool}

theorem decided_iff {grade : Grade} :
    (run.status tags analysisScope dec127).1 = .decided ∧
        run.grade tags analysisScope dec127 = some grade ↔
      run.effect.Clear ∧
        (run.effect.overrideGrade = some grade ∨
          run.effect.overrideGrade = none ∧ run.additionalBlocks = false ∧
            theOnly (run.grades tags analysisScope dec127) = some (some grade)) := by
  have hstatus : (run.status tags analysisScope dec127).1 = .decided ↔
      run.effect.gapIds = [] ∧ run.effect.unresolvedElements = [] ∧
        (run.effect.overrideGrade.isSome = true ∨ run.additionalBlocks = false ∧
          ∃ grade, theOnly (run.grades tags analysisScope dec127) = some (some grade)) := by
    unfold status
    rw [applyEffect_decided_iff, blockAdditional_decided_iff, ladderStatus_decided_iff]
  constructor
  · rintro ⟨hdecided, hgrade⟩
    simp only [EngineRun.grade, hdecided, if_true] at hgrade
    obtain ⟨hgaps, hunresolved, hsource⟩ := hstatus.mp hdecided
    refine ⟨⟨hgaps, hunresolved⟩, ?_⟩
    cases hoverride : run.effect.overrideGrade with
    | some override =>
      simp only [hoverride, Option.some_or] at hgrade
      exact Or.inl hgrade
    | none =>
      simp only [hoverride, Option.isSome_none, Bool.false_eq_true, false_or] at hsource
      obtain ⟨hblocks, only, honly⟩ := hsource
      simp only [hoverride, honly, Option.none_or, Option.join_some] at hgrade
      exact Or.inr ⟨rfl, hblocks, hgrade ▸ honly⟩
  · rintro ⟨⟨hgaps, hunresolved⟩, hsource⟩
    have hdecided : (run.status tags analysisScope dec127).1 = .decided := by
      rw [hstatus]
      refine ⟨hgaps, hunresolved, ?_⟩
      rcases hsource with hoverride | ⟨-, hblocks, honly⟩
      · exact Or.inl (by simp [hoverride])
      · exact Or.inr ⟨hblocks, grade, honly⟩
    simp only [EngineRun.grade, hdecided, if_true]
    rcases hsource with hoverride | ⟨hoverride, -, honly⟩
    · simp [hoverride]
    · simp [hoverride, honly]

theorem hasRange_spec (h : run.hasRange tags analysisScope dec127 = true) :
    run.effect.Clear ∧ run.effect.overrideGrade = none ∧ run.additionalBlocks = false ∧
      none ∉ run.grades tags analysisScope dec127 := by
  simp only [hasRange, Bool.and_eq_true, beq_iff_eq, List.isEmpty_iff, Bool.not_eq_true',
    List.contains_eq_mem, decide_eq_false_iff_not] at h
  obtain ⟨⟨⟨⟨⟨hblocked, -⟩, hnone⟩, hadditional⟩, hunresolved⟩, hgaps⟩ := h
  refine ⟨⟨hgaps, hunresolved⟩, ?_, hadditional, hnone⟩
  cases hoverride : run.effect.overrideGrade with
  | none => rfl
  | some override =>
    have hdecided : (run.status tags analysisScope dec127).1 = .decided := by
      exact applyEffect_decided_iff.mpr ⟨hgaps, hunresolved, Or.inl (by simp [hoverride])⟩
    rw [hdecided] at hblocked
    cases hblocked

end EngineRun

section Decisions

variable {hash : CanonicalHash} {tags : ConfirmedTags} {context : RuleContext}
variable {pack : RulePackSnapshot} {analysisScope dec127 : Bool} {decision : Decision}

theorem decidedAs_of_evaluateCore {grade : Grade}
    (h : evaluateCore hash tags context pack analysisScope dec127 = .ok decision)
    (hdecided : decision.DecidedAs grade) :
    ∃ run, RunOf tags context pack analysisScope dec127 run ∧ run.effect.Clear ∧
      (run.effect.overrideGrade = some grade ∨
        run.effect.overrideGrade = none ∧ run.additionalBlocks = false ∧
          theOnly (run.grades tags analysisScope dec127) = some (some grade)) := by
  obtain ⟨run, hrun, hdecision⟩ := evaluateCore_ok h
  rw [hdecision] at hdecided
  obtain ⟨hclear, hgrade⟩ := EngineRun.decided_iff.mp hdecided
  exact ⟨run, hrun, hclear, hgrade⟩

theorem bounds_of_evaluateCore {floor ceiling : Grade}
    (h : evaluateCore hash tags context pack analysisScope dec127 = .ok decision)
    (hfloor : decision.gradeFloor = some floor) (hceiling : decision.gradeCeiling = some ceiling) :
    ∃ run, RunOf tags context pack analysisScope dec127 run ∧
      run.hasRange tags analysisScope dec127 = true ∧
      (run.reachable tags analysisScope dec127).min? = some floor ∧
      (run.reachable tags analysisScope dec127).max? = some ceiling := by
  obtain ⟨run, hrun, hdecision⟩ := evaluateCore_ok h
  rw [hdecision] at hfloor hceiling
  simp only [EngineRun.decision] at hfloor hceiling
  by_cases hrange : run.hasRange tags analysisScope dec127 = true
  · rw [if_pos hrange] at hfloor hceiling
    exact ⟨run, hrun, hrange, hfloor, hceiling⟩
  · rw [if_neg hrange] at hfloor
    cases hfloor

/-- A published bound is reached. -/
theorem bound_of_evaluateCore {bound : Grade}
    (h : evaluateCore hash tags context pack analysisScope dec127 = .ok decision)
    (hbound : decision.gradeFloor = some bound ∨ decision.gradeCeiling = some bound) :
    ∃ run, RunOf tags context pack analysisScope dec127 run ∧
      run.hasRange tags analysisScope dec127 = true ∧
      bound ∈ run.reachable tags analysisScope dec127 := by
  obtain ⟨run, hrun, hdecision⟩ := evaluateCore_ok h
  rw [hdecision] at hbound
  simp only [EngineRun.decision] at hbound
  by_cases hrange : run.hasRange tags analysisScope dec127 = true
  · rw [if_pos hrange, if_pos hrange] at hbound
    refine ⟨run, hrun, hrange, ?_⟩
    rcases hbound with hfloor | hceiling
    · exact List.min?_mem hfloor
    · exact List.max?_mem hceiling
  · rw [if_neg hrange, if_neg hrange] at hbound
    rcases hbound with hfloor | hceiling
    · cases hfloor
    · cases hceiling

end Decisions

end ProofOps.Domain.Rules
