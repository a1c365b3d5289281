import ProofOps.Domain.Rules.Exceptions
import ProofOps.Foundation.PartialValuation

/-!
# The explicit-ladder evaluator

`_select`, `_evaluate` and `evaluate`.  A ladder is read on a partial valuation
of its primitive facts: every completion of the unresolved ones is selected on,
and the decision is fixed only when all completions agree.  Caps, the
superlative override, additional elements and rule gaps then move the status.

The digests of the source are `canonical_hash` values; they are a parameter
here, since no rule reads them.
-/

namespace ProofOps.Domain.Rules

open Foundation

/-- `_hash`. -/
structure CanonicalHash where
  tags : ConfirmedTags → String
  semantic : String → ConfirmedTags → RuleContext → String → Decision → String

/-- `ENGINE_VERSION`. -/
def engineVersion : String := "explicit-ladders-exceptions-3"

def maintenanceEngineVersion : String := "qt1-maintenance-baseline-dec93-v1"

def additionalReportOnly : String := "report_without_grade_effect"

def maxLadderNames : Nat := 12

def exceptionApplies : String := "exception_applies"

def matchLt (first second : Grade × String) : Bool :=
  first.1 < second.1 || (first.1 == second.1 && first.2 < second.2)

/-- `max(matches)`. -/
def maxMatch : List (Grade × String) → Option (Grade × String)
  | [] => none
  | head :: rest => some (rest.foldl (fun best next => if matchLt best next then next else best) head)

def withException (facts : PartialValuation String) : PartialValuation String :=
  Function.update facts exceptionApplies
    (some ((facts "target_metric").getD false && (facts "transition_plan").getD false))

def Branch.holds (facts : PartialValuation String) (branch : Branch) : Bool :=
  branch.conditions.all fun condition => facts condition.1 == some condition.2

/-- `_select`. -/
def select (branches : List Branch) (facts : PartialValuation String) : Option Grade × String :=
  let matched := branches.filter (Branch.holds (withException facts))
  match matched.find? Branch.cap with
  | some branch => (some branch.grade, branch.id)
  | none =>
    match maxMatch (matched.map fun branch => (branch.grade, branch.id)) with
    | some (grade, id) => (some grade, id)
    | none => (none, "")

def ladderNames (track : Track) (branches : List Branch) : List String :=
  let mentioned := (branches.flatMap Branch.names).filter (· != exceptionApplies)
  let derived := if track = .goal then ["target_metric", "transition_plan"] else []
  (mentioned ++ derived).dedup.insertionSort (· ≤ ·)

def ladderKnown (names : List String) (state : String → FactState) : PartialValuation String :=
  fun name =>
    if name ∈ names then
      match state name with
      | .present => some true
      | .absent => some false
      | _ => none
    else
      none

def ladderOutcomes (branches : List Branch) (names : List String) (state : String → FactState) :
    List (Option Grade × String) :=
  (ladderKnown names state).outcomes names (select branches)

def capGrades (cap : Option Grade) (grades : List (Option Grade)) : List (Option Grade) :=
  match cap with
  | none => grades
  | some cap => grades.map fun grade => grade.map fun value => min value cap

/-- `_evaluate.state`. -/
def engineState (effect : ExceptionEffect) (analysisScope : Bool) (tags : ConfirmedTags)
    (name : String) : FactState :=
  match effect.ordinalState with
  | some ordinal =>
    if ordinalPrimitives.contains name then ordinal else readState analysisScope tags name
  | none => readState analysisScope tags name

def profileBranches (dec127 : Bool) (track : Track) (branches : List Branch) : List Branch :=
  if dec127 && track == .management then
    (branches.filter fun branch => branch.id != "MGMT_WILLINGNESS") ++
      [{ id := "MGMT_NO_MEANS_IN_SCOPE_E0"
         when? := some [("named_means_or_concrete_state", false)]
         requireAll := []
         grade := .e0
         cap := false }]
  else
    branches

/-! ### Reading the elements -/

/-- How an element is read. -/
inductive ElementReading where
  | excluded
  | unresolved
  | missing
  | complete
  deriving DecidableEq

def readElement (state : String → FactState) (trigger : Option String) (names : List String) :
    ElementReading :=
  let states := names.map state
  let triggered := PyText.truthy trigger
  let triggerState := state (trigger.getD "")
  if triggered && triggerState == .absent then .excluded
  else if (triggered && triggerState != .present) ||
      states.any (fun s => s != .present && s != .absent) then .unresolved
  else if states.contains .absent then .missing
  else .complete

def additionalElements : List String :=
  ["G7", "G8", "P5", "P6", "M4", "M5", "M6"]

def readElements (track : Track) (entries : List ElementDefinition) (state : String → FactState) :
    Except PyError (List (ElementDefinition × ElementReading × String)) :=
  (mappings track).mapM fun entry => do
    let definition ← RulePackSnapshot.definition entries entry.1
    return (definition, readElement state definition.trigger entry.2, entry.1)

variable (readings : List (ElementDefinition × ElementReading × String))

def elementsRead (reading : ElementReading) : List String :=
  (readings.filter fun item => item.2.1 == reading).map fun item => item.2.2

def additionalOpen : List String :=
  (readings.filter fun item =>
    additionalElements.contains item.2.2 &&
      (item.2.1 == .missing || item.2.1 == .unresolved)).map fun item => item.2.2

def ladderStatus (grades : List (Option Grade)) : DecisionStatus × List String :=
  match theOnly grades with
  | none => (.blockedEvidence, [])
  | some none => (.blockedRuleGap, ["GAP-007"])
  | some (some _) => (.decided, [])

def blockAdditional (blocks : Bool) (additional unresolved : List String)
    (status : DecisionStatus × List String) : DecisionStatus × List String :=
  if blocks then
    (if additional.any unresolved.contains then .blockedEvidence else .blockedRuleGap,
      status.2 ++ ["GAP-003"])
  else
    status

def applyEffect (effect : ExceptionEffect) (status : DecisionStatus × List String) :
    DecisionStatus × List String :=
  let status := if effect.overrideGrade.isSome then (.decided, []) else status
  let status := if effect.unresolvedElements ≠ [] then (.blockedEvidence, status.2) else status
  if effect.gapIds ≠ [] then (.blockedRuleGap, status.2 ++ effect.gapIds) else status

def sortedSet (values : List String) : List String :=
  values.dedup.insertionSort (· ≤ ·)

/-! ### The evaluator

`_evaluate` first collects what it reads (`gather`) and then fills the decision
record from it (`EngineRun.decision`). -/

structure EngineRun where
  effect : ExceptionEffect
  readings : List (ElementDefinition × ElementReading × String)
  rubric : Rubric

namespace EngineRun

variable (run : EngineRun) (tags : ConfirmedTags) (analysisScope dec127 : Bool)

def branches : List Branch :=
  profileBranches dec127 tags.track run.rubric.branches

def names : List String :=
  ladderNames tags.track (run.branches tags dec127)

def state : String → FactState :=
  engineState run.effect analysisScope tags

def outcomes : List (Option Grade × String) :=
  ladderOutcomes (run.branches tags dec127) (run.names tags dec127) (run.state tags analysisScope)

def grades : List (Option Grade) :=
  capGrades run.effect.capGrade ((run.outcomes tags analysisScope dec127).map Prod.fst)

def additionalBlocks : Bool :=
  !(additionalOpen run.readings).isEmpty && run.rubric.additionalElementPolicy.isNone

def status : DecisionStatus × List String :=
  applyEffect run.effect
    (blockAdditional run.additionalBlocks (additionalOpen run.readings)
      (elementsRead run.readings .unresolved)
      (ladderStatus (run.grades tags analysisScope dec127)))

def grade : Option Grade :=
  if (run.status tags analysisScope dec127).1 = .decided then
    run.effect.overrideGrade.or (theOnly (run.grades tags analysisScope dec127)).join
  else
    none

def hasRange : Bool :=
  (run.status tags analysisScope dec127).1 == .blockedEvidence &&
    (theOnly (run.grades tags analysisScope dec127)).isNone &&
    !(run.grades tags analysisScope dec127).contains none && !run.additionalBlocks &&
    run.effect.unresolvedElements.isEmpty && run.effect.gapIds.isEmpty

def reachable : List Grade :=
  (run.grades tags analysisScope dec127).filterMap id

def unresolved : List String :=
  elementsRead run.readings .unresolved ++ run.effect.unresolvedElements

def isSample : Prop :=
  tags.track = .goal ∧ run.grade tags analysisScope dec127 = some .e1 ∧
    sortedSet (elementsRead run.readings .missing) = ["G3", "G4", "G5", "G6"] ∧
    (∀ entry ∈ mappings tags.track, entry.1 ∈ elementsRead run.readings .missing →
      ∀ name ∈ entry.2, run.state tags analysisScope name = .absent) ∧
    run.unresolved = [] ∧ sortedSet (elementsRead run.readings .excluded) = ["G7", "G8"]

instance : Decidable (run.isSample tags analysisScope dec127) :=
  inferInstanceAs (Decidable (_ ∧ _ ∧ _ ∧ _ ∧ _ ∧ _))

def finalGaps : List String :=
  (run.status tags analysisScope dec127).2 ++
    if ¬run.isSample tags analysisScope dec127 ∧
        (run.grade tags analysisScope dec127 = some .e1 ∨
          run.grade tags analysisScope dec127 = some .e2) then
      ["GAP-005"]
    else
      []

def ladderElements : List String :=
  ((mappings tags.track).filter fun entry =>
    entry.2.any (run.names tags dec127).contains).map Prod.fst

def decision (hash : CanonicalHash) (context : RuleContext) (pack : RulePackSnapshot) : Decision :=
  { decisionRevision := context.decisionRevision
    tagRevision := tags.tagRevision
    decisionStatus := (run.status tags analysisScope dec127).1
    evidenceGrade := run.grade tags analysisScope dec127
    label := (run.grade tags analysisScope dec127).map gradeLabelMap
    sublabel := if run.isSample tags analysisScope dec127 then some "IMPL" else none
    reviewStatus :=
      if (run.status tags analysisScope dec127).1 = .decided ∧ run.unresolved = [] then
        .autoConfirmed
      else
        .needsReview
    missingElements := elementsRead run.readings .missing
    ruleIds :=
      sortedSet (((run.outcomes tags analysisScope dec127).map Prod.snd).filter (· != "") ++
        run.effect.ruleIds)
    rulePackSha256 := pack.sha256
    semanticHash := ""
    gapIds := sortedSet (run.finalGaps tags analysisScope dec127)
    unresolvedElements := run.unresolved
    excludedElements := elementsRead run.readings .excluded
    ladderCandidate := (theOnly ((run.outcomes tags analysisScope dec127).map Prod.fst)).join
    basisRefs := run.readings.map (fun item => BasisRef.element item.2.2 item.1.basis) ++
      [BasisRef.exceptions run.effect.ruleIds]
    inputTagsSha256 := hash.tags tags
    localSynthetic := context.localSynthetic
    gradeFloor :=
      if run.hasRange tags analysisScope dec127 then
        (run.reachable tags analysisScope dec127).min?
      else
        none
    gradeCeiling :=
      if run.hasRange tags analysisScope dec127 then
        (run.reachable tags analysisScope dec127).max?
      else
        none
    gradeOpenElements :=
      if run.hasRange tags analysisScope dec127 then
        run.unresolved.filter (run.ladderElements tags dec127).contains
      else
        [] }

end EngineRun

def gather (tags : ConfirmedTags) (context : RuleContext) (pack : RulePackSnapshot)
    (analysisScope dec127 : Bool) : Except PyError EngineRun := do
  let effect ← applySourceExceptions tags context pack dec127
  let entries ← pack.elementsFile
  let readings ← readElements tags.track entries (engineState effect analysisScope tags)
  let rubric ← pack.rubricFile tags.track
  let run : EngineRun := { effect, readings, rubric }
  if rubric.additionalElementPolicy ≠ none ∧
      rubric.additionalElementPolicy ≠ some additionalReportOnly then
    throw (.domainValidation "unsupported additional element policy")
  if maxLadderNames < (run.names tags dec127).length then
    throw (.domainValidation "unsupported ladder ontology size")
  return run

def hashedVersion (tags : ConfirmedTags) : String :=
  if tags.facts.any (approvedFact tags.track) then
    engineVersion ++ "+" ++ maintenanceEngineVersion
  else
    engineVersion

/-- `_evaluate`. -/
def evaluateCore (hash : CanonicalHash) (tags : ConfirmedTags) (context : RuleContext)
    (pack : RulePackSnapshot) (analysisScope dec127 : Bool) : Except PyError Decision := do
  let run ← gather tags context pack analysisScope dec127
  let decision := run.decision tags analysisScope dec127 hash context pack
  return { decision with
    semanticHash := hash.semantic (hashedVersion tags) tags context pack.sha256 decision }

/-- `evaluate`. -/
def evaluate (hash : CanonicalHash) (tags : ConfirmedTags) (context : RuleContext)
    (pack : RulePackSnapshot) : Except PyError Decision := do
  if tags.facts.any fun fact => fact.state == .absentInScope then
    throw (.domainValidation "scoped absence requires analysis-scope rule profile")
  evaluateCore hash tags context pack false false

end ProofOps.Domain.Rules
