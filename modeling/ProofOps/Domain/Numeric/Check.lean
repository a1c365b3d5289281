import ProofOps.Domain.Numeric.ExactDecimal
import ProofOps.Domain.Numeric.Lineage

/-!
# The numeric consistency check

`check_numeric_consistency` over accepted bindings.  A binding passes a sequence
of guards (`comparable`), each of which ends it with its own status and reason;
what passes them all gets an interval for the computed value, and the verdict is
whether that interval meets the reported one.  The value is rendered before the
verdict, and a value of more than 4300 digits raises there.
-/

namespace ProofOps.Domain.Numeric

open Foundation Foundation.PyText

/-- `_whole_number`. -/
def wholeNumber (original : NumericSnapshot) (number : SourceRef) : Bool :=
  match original.blocks.find? fun block => block.sourceId == number.sourceId with
  | some block =>
    match block.winning with
    | some candidate =>
      (tokenSpans 0 0 candidate.source.rawText.toList).contains
        (number.charStart, number.charEnd)
    | none => false
  | none => false

def within (span ref : SourceRef) : Bool :=
  span.sourceId == ref.sourceId && ref.charStart ≤ span.charStart &&
    span.charStart < span.charEnd && span.charEnd ≤ ref.charEnd

variable (hash : NumericHash) (binding : ClaimBinding)

/-- `_claim_verified`. -/
def claimVerified (claim : Option NumericClaim) (original : NumericSnapshot) : Bool :=
  match claim, binding.reportedValueRef with
  | some claim, some number =>
    binding.bindingAccepted && claim.identity == original.identity &&
      binding.parseManifestId == some original.identity.parseManifestId &&
      claim.sourceQuality == "verified" && binding.sourceRefs == claim.sourceRefs &&
      !claim.sourceRefs.isEmpty && claim.sourceRefs.all (verified hash original) &&
      claim.quote == " ".intercalate (claim.sourceRefs.map SourceRef.quote) &&
      verified hash original number && some number.quote == binding.reportedValue &&
      claim.sourceRefs.any fun ref => within number ref && wholeNumber original number
  | _, _ => false

def splitScale (unit : Option String) : String × Option String :=
  match unit with
  | some text =>
    if startsWith text "천 " then ("1000", some (strip (String.ofList (text.toList.drop 2))))
    else ("1", some text)
  | none => ("1", none)

/-- `Fraction(scale)`. -/
def scaleValue (scale : String) : ℚ :=
  if scale == "1000" then 1000 else 1

variable (item : NumericObservation)

def unitBound : Bool :=
  (item.parentRelations.any fun relation =>
    relation.name == "unit_raw" && item.sourceRefs.any fun ref =>
      ref.sourceId == relation.target && some (strip ref.quote) == item.unitRaw) ||
    (item.unitRaw.isSome && item.sourceRefs.any fun ref =>
      unitNoteLiteral ref.quote == item.unitRaw)

def sourcedFields : List (String × Option String) :=
  [("metric_raw", some item.metricRaw), ("scope", item.scope), ("subject", item.subject),
    ("scope2_basis", item.scope2Basis), ("organizational_boundary", item.organizationalBoundary),
    ("reporting_period", some item.reportingPeriod), ("denominator", item.denominator)]

variable (original : NumericSnapshot)

def fieldSourced (field : String × Option String) : Bool :=
  match field with
  | (_, none) => true
  | (name, some expected) =>
    let notes := footnoteIds original
    let scopeNotes := (notesOf original (noteTargets item original)).filter notes.contains
    item.parentRelations.any fun relation =>
      let refs := item.sourceRefs.filter fun ref => ref.sourceId == relation.target
      relation.name == name && !refs.isEmpty &&
        if name == "scope" && notes.contains relation.target then
          scopeNotes.contains relation.target &&
            refs.any fun ref => scopeNoteLiteral ref.quote == some expected
        else
          refs.any fun ref => strip ref.quote == expected

def observationVerified : Bool :=
  item.identity == original.identity && item.quality == "verified" && item.valueState == "value" &&
    !item.sourceRefs.isEmpty && item.sourceRefs.all (verified hash original) &&
    !item.sourceBlocks.isEmpty && item.sourceBlocks.all original.blocks.contains &&
    (item.sourceRefs.any fun ref => ref.quote == item.valueRaw) &&
    item.scaleMultiplier == (splitScale item.unitRaw).1 &&
    item.unitCanonical == (splitScale item.unitRaw).2 &&
    (unitBound item || (matchNumber item.valueRaw).any fun found => found.2 == item.unitRaw)

/-- `_observation_display`. -/
def observationDisplay (item : NumericObservation) : Option Display := do
  guard (observationVerified hash item original)
  let shown ← display item.valueRaw (scaleValue (splitScale item.unitRaw).1)
  let parsed ← decimal item.valueDecimal
  guard (shown.value = parsed)
  guard ((sourcedFields item).all (fieldSourced item original))
  return shown

def validatedConditionIds (items : List NumericObservation) : List String :=
  if !binding.bindingAccepted || !(binding.kind == .growth || binding.kind == .productReduction) ||
      items.map NumericObservation.observationId != binding.observationIds || items.isEmpty then
    []
  else
    (binding.conditions.filter fun condition =>
      let ref := condition.sourceRef
      condition.acceptanceState == "accepted" &&
        condition.relation == "same_basis_for_selected_observations" &&
        nonBlank condition.reviewedBy && condition.observationIds == binding.observationIds &&
        condition.bindingSha256 == hash.conditionBinding binding && verified hash original ref &&
        (match lastBlock original.blocks ref.sourceId with
          | some block => block.kind == "footnote" &&
              block.winning.any fun candidate => ref.quote == candidate.source.rawText
          | none => false) &&
        items.all fun item => original.edges.any fun edge =>
          edge.sourceId == ref.sourceId && edge.relation == "footnote_of" &&
            (noteTargets item original).contains edge.targetId).map
      fun condition => condition.sourceRef.sourceId

/-- `_matches_binding`. -/
def matchesBinding (binding : ClaimBinding) (period : Option String)
    (subjectOverride : Option String) : Bool :=
  truthy period && truthy binding.unit && binding.metricRaw != "" &&
    ((binding.quantityKind == some .absolute && binding.denominator.isNone) ||
      (binding.quantityKind == some .intensity && truthy binding.denominator)) &&
    some item.reportingPeriod == period && item.metricRaw == binding.metricRaw &&
    item.scope == binding.scope && item.subject == subjectOverride.or binding.subject &&
    item.scope2Basis == binding.scope2Basis &&
    item.organizationalBoundary == binding.organizationalBoundary &&
    item.unitCanonical == binding.unit && item.denominator == binding.denominator &&
    !(isIn "/" (binding.unit.getD "") && !truthy binding.denominator)

def productSubjectsVerified (claim : Option NumericClaim) (original : NumericSnapshot) : Bool :=
  match claim, binding.subjectRef, binding.baselineSubjectRef with
  | some claim, some current, some baseline =>
    binding.productComparisonAccepted && truthy binding.subject &&
      truthy binding.baselineSubject && binding.subject != binding.baselineSubject &&
      some current.quote == binding.subject && some baseline.quote == binding.baselineSubject &&
      verified hash original current && verified hash original baseline &&
      [current, baseline].all fun span => claim.sourceRefs.any fun ref => within span ref
  | _, _, _ => false

def hasLegacyDefaults : Bool :=
  binding.baselineSubject.isNone && binding.subjectRef.isNone &&
    binding.baselineSubjectRef.isNone && !binding.productComparisonAccepted &&
    binding.conditions.isEmpty

def aggregationHashes : List String :=
  let bare := { binding with aggregation := none }
  hash.aggregationBinding bare ::
    if hasLegacyDefaults binding then [hash.legacyAggregationBinding bare] else []

/-- `_aggregation_verified`. -/
def aggregationVerified (items : List NumericObservation) : Bool :=
  let roots := items.map relationSources
  (roots.all fun root => root.length == 1) && decide roots.Nodup &&
    match binding.aggregation with
    | none => false
    | some relation =>
      relation.acceptanceState == "accepted" &&
        relation.relation == "disjoint_complete_components" &&
        relation.targetClaimId == binding.claimId &&
        relation.observationIds == binding.observationIds &&
        (aggregationHashes hash binding).contains relation.bindingSha256 &&
        !relation.sourceRefs.isEmpty && relation.sourceRefs.all (verified hash original)

/-! ### The guards -/

structure Refusal where
  status : CheckStatus
  reason : String
  items : List NumericObservation := []

structure Comparable where
  items : List NumericObservation
  displays : List Display
  reported : Display

def expectedPeriods (count : Nat) : List (Option String) :=
  match binding.kind with
  | .reduction | .growth => [binding.baselinePeriod, binding.reportingPeriod]
  | _ => List.replicate count binding.reportingPeriod

def subjectOverrides (count : Nat) : List (Option String) :=
  match binding.kind with
  | .productReduction => [binding.baselineSubject, binding.subject]
  | _ => List.replicate count none

def periodsDistinguished : Bool :=
  match binding.kind with
  | .reduction | .growth => binding.baselinePeriod != binding.reportingPeriod
  | .productReduction => binding.baselinePeriod == binding.reportingPeriod
  | _ => true

variable (items : List NumericObservation)

def bindingSources : List String :=
  (binding.sourceRefs.map SourceRef.sourceId ++
    items.flatMap (fun item => item.sourceRefs.map SourceRef.sourceId) ++
    items.map NumericObservation.tableId).dedup

variable (claim : Option NumericClaim)

def sourceRefusal (original : NumericSnapshot) : Option Refusal :=
  if !claimVerified hash binding claim original then
    some { status := .notComputable, reason := "claim_source_unresolved" }
  else if unresolvedSourceIssueIds original (bindingSources binding items) ≠ [] then
    some { status := .notComputable, reason := "source_issue_unresolved", items := items }
  else if items.any fun item => unresolvedFootnotes hash item original
      (validatedConditionIds hash binding original items) then
    some { status := .notComputable, reason := "footnote_conditions_unresolved", items := items }
  else
    none

def dimensionRefusal (original : NumericSnapshot) : Option Refusal :=
  let periods := expectedPeriods binding items.length
  if !periods.all isSupportedPeriod then
    some { status := .notComparable, reason := "reporting_period_unresolved" }
  else if binding.kind == .productReduction &&
      !productSubjectsVerified hash binding claim original then
    some { status := .notComparable, reason := "product_comparison_unaccepted" }
  else if !periodsDistinguished binding ||
      !(items.zip (periods.zip (subjectOverrides binding items.length))).all
        fun entry => matchesBinding entry.1 binding entry.2.1 entry.2.2 then
    some { status := .notComparable, reason := "dimension_mismatch" }
  else if binding.kind == .sum && !aggregationVerified hash binding original items then
    some { status := .notComparable, reason := "aggregation_relation_unresolved" }
  else
    none

def comparable (original : Option NumericSnapshot) : Except Refusal Comparable :=
  if items.length ≠ binding.observationIds.length then
    .error { status := .notComputable, reason := "observation_missing" }
  else
    match original with
    | none => .error { status := .notComputable, reason := "claim_source_unresolved" }
    | some original =>
      match sourceRefusal hash binding items claim original with
      | some refusal => .error refusal
      | none =>
        match items.mapM (observationDisplay hash original),
            display (binding.reportedValue.getD "") 1 with
        | some displays, some reported =>
          match dimensionRefusal hash binding items claim original with
          | some refusal => .error refusal
          | none => .ok { items, displays, reported }
        | _, _ => .error { status := .notComputable, reason := "value_missing_or_unresolved" }

/-! ### The verdict -/

structure Computed where
  (value lower upper : ℚ)

def cornerBounds (rate : ℚ → ℚ → ℚ) (baseline current : Display) : ℚ × ℚ :=
  let first := rate baseline.lower current.lower
  let rest := [rate baseline.lower current.upper, rate baseline.upper current.lower,
    rate baseline.upper current.upper]
  (rest.foldl min first, rest.foldl max first)

variable (baseline current : ℚ)

def growthRate : ℚ :=
  (current / baseline - 1) * 100

def reductionRate : ℚ :=
  (1 - current / baseline) * 100

def reductionValue : ℚ :=
  (baseline - current) / baseline * 100

def rateComputed (value rate : ℚ → ℚ → ℚ) : List Display → Except Refusal Computed
  | [baseline, current] =>
    if baseline.lower ≤ 0 ∧ 0 ≤ baseline.upper then
      .error { status := .notComputable, reason := "zero_baseline_interval" }
    else
      let bounds := cornerBounds rate baseline current
      .ok { value := value baseline.value current.value, lower := bounds.1, upper := bounds.2 }
  | _ => .error { status := .notComputable, reason := "value_missing_or_unresolved" }

def compute (kind : CheckKind) (displays : List Display) : Except Refusal Computed :=
  match kind with
  | .comparison =>
    match displays with
    | first :: _ => .ok { value := first.value, lower := first.lower, upper := first.upper }
    | [] => .error { status := .notComputable, reason := "value_missing_or_unresolved" }
  | .sum =>
    .ok { value := (displays.map Display.value).sum
          lower := (displays.map Display.lower).sum
          upper := (displays.map Display.upper).sum }
  | .growth => rateComputed growthRate growthRate displays
  | .reduction | .productReduction => rateComputed reductionValue reductionRate displays

def verdict (computed : Computed) (reported : Display) : CheckStatus :=
  if computed.lower ≤ reported.upper ∧ reported.lower ≤ computed.upper then .consistent
  else .inconsistent

/-- `_result`. -/
def result (status : CheckStatus) (computed reason : Option String)
    (items : List NumericObservation) (exactRatio : Option (String × String)) : CheckResult :=
  let refs := binding.sourceRefs ++ items.flatMap NumericObservation.sourceRefs ++
    (binding.aggregation.map AggregationRelation.sourceRefs).getD []
  { claimId := binding.claimId
    kind := binding.kind
    status := status
    reportedValue := binding.reportedValue
    computedValue := computed
    observationIds := binding.observationIds
    sourceRefs := refs.eraseDups
    reason := reason
    exactRatio := exactRatio }

def refused (refusal : Refusal) : CheckResult :=
  result binding refusal.status none (some refusal.reason) refusal.items none

def strSigned (n : Int) : Except PyError String :=
  (strInt n.natAbs).map fun _ => toString n

def exactRatio (rendered : Option String) (value : ℚ) :
    Except PyError (Option (String × String)) :=
  match rendered with
  | some _ => .ok none
  | none => do
    let numerator ← strSigned value.num
    let denominator ← strInt value.den
    return some (numerator, denominator)

def judged (found : Comparable) (computed : Computed) : Except PyError CheckResult := do
  let rendered ← exactDecimalText computed.value
  let ratio ← exactRatio rendered computed.value
  return result binding (verdict computed found.reported) rendered
    (if rendered.isNone then some "non_terminating_decimal" else none) found.items ratio

variable (observations : List NumericObservation)

def selectedItems (binding : ClaimBinding) : List NumericObservation :=
  binding.observationIds.filterMap fun id =>
    observations.find? fun item => item.observationId == id

def mismatched (binding : ClaimBinding) : Bool :=
  (selectedItems observations binding).any fun item =>
    item.identity.documentVersionId != binding.documentVersionId

def checkBinding
    (claims : List NumericClaim) (original : Option NumericSnapshot) (binding : ClaimBinding) :
    Except PyError CheckResult :=
  let items := selectedItems observations binding
  let claim := claims.find? fun claim => claim.claimId == binding.claimId
  if mismatched observations binding then
    .error (.valueError "binding document version mismatch")
  else
    match comparable hash binding items claim original with
    | .error refusal => .ok (refused binding refusal)
    | .ok found =>
      match compute binding.kind found.displays with
      | .error refusal => .ok (refused binding refusal)
      | .ok computed => judged binding found computed

def checkInputs
    (bindings : List ClaimBinding) (tenantId : String) (claims : List NumericClaim)
    (original : Option NumericSnapshot) : Except PyError Unit := do
  if !decide (observations.map NumericObservation.observationId).Nodup ||
      !decide (claims.map NumericClaim.claimId).Nodup then
    throw (.valueError "duplicate observation or claim")
  if (observations.any fun item => item.identity.tenantId != tenantId) ||
      (bindings.any fun binding => binding.tenantId != tenantId) ||
      (claims.any fun claim => claim.identity.tenantId != tenantId) ||
      original.any fun snapshot => snapshot.identity.tenantId != tenantId then
    throw (.valueError "numeric tenant mismatch")
  if !decide (bindings.map ClaimBinding.claimId).Nodup then
    throw (.valueError "duplicate claim binding")

def checkNumericConsistency
    (bindings : List ClaimBinding) (tenantId : String) (claims : List NumericClaim)
    (original : Option NumericSnapshot) : Except PyError (List CheckResult) := do
  checkInputs observations bindings tenantId claims original
  bindings.mapM (checkBinding hash observations claims original)

end ProofOps.Domain.Numeric
