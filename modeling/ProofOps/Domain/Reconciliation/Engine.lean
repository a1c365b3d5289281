import ProofOps.Domain.Reconciliation.Packet

/-!
# The reconciliation engine

The four item modules over a validated packet, the policy gate before them and the
projection of their outcome.  An outcome is completed with a status or blocked without
one; the search is read by `resolveDifference` and by the fourth item only.
-/

namespace ProofOps.Domain.Reconciliation

open Foundation Numeric

/-! ### Outcomes -/

/-- The statuses of a completed item. -/
inductive Status where
  | matched
  | needsExplanation
  | notApplicable
  deriving DecidableEq

/-- The reason codes of the engine. -/
inductive Reason where
  | policyUnapproved
  | stageNotSupported
  | syntheticPolicyRealPacket
  | itemNotEnabled
  | notComparable
  | comparabilityUnknown
  | kindMismatch
  | valueUnresolved
  | c1PeriodUnresolved
  | c1PeriodMismatch
  | c1ConsolidationUnknown
  | entitySetEmpty
  | sameVerifiedEntitySet
  | differenceExplained
  | periodOutOfScope
  | samePeriod
  | periodDifferenceExplained
  | c3TriggerAbsent
  | c3CurrencyMismatch
  | c3PolicyUnapproved
  | c3PeriodUnresolved
  | c3CapexPeriodMismatch
  | c3CommitmentNotPositive
  | c3CapexNotPositive
  | commitmentDisclosed
  | capexWithinThreshold
  | definitionNotFound
  | calculationBasisNotFound
  | classificationBasisPresent
  | explanationNotFound
  | searchIncomplete
  deriving DecidableEq

/-- Whether an item was carried through. -/
inductive ExecutionState where
  | completed
  | blocked
  deriving DecidableEq

/-- `Outcome`. -/
inductive Outcome where
  | completed (status : Status) (reasons : List Reason) (sources : List String)
      (explanation : Option String)
  | blocked (reasons : List Reason) (sources : List String)

namespace Outcome

def executionState : Outcome → ExecutionState
  | .completed _ _ _ _ => .completed
  | .blocked _ _ => .blocked

def status : Outcome → Option Status
  | .completed status _ _ _ => some status
  | .blocked _ _ => none

def reasonCodes : Outcome → List Reason
  | .completed _ reasons _ _ => reasons
  | .blocked reasons _ => reasons

def extraSourceIds : Outcome → List String
  | .completed _ _ sources _ => sources
  | .blocked _ sources => sources

def explanationSourceId : Outcome → Option String
  | .completed _ _ _ explanation => explanation
  | .blocked _ _ => none

/-- `_with_sources`. -/
def withSources (extra : List String) : Outcome → Outcome
  | .completed status reasons sources explanation =>
    .completed status reasons (extra ++ sources) explanation
  | .blocked reasons sources => .blocked reasons (extra ++ sources)

end Outcome

/-- `Context`. -/
structure Context where
  packet : Packet
  policy : Policy

namespace Context

variable (context : Context)

def searchComplete : Bool :=
  context.packet.search.state = .complete

/-- `Context.require_kind`. -/
def requireKind (allowed : List Kind) : Option Outcome :=
  if context.packet.sustainability.kind ∈ allowed then none
  else some (.blocked [.kindMismatch] [])

def unresolvedValues : Option Outcome :=
  if context.packet.sustainability.normalized = none ∨ context.packet.financial.normalized = none
  then some (.blocked [.valueUnresolved] [])
  else none

def resolveDifference (explainedReason : Reason) : Outcome :=
  match context.packet.explanation.sourceId with
  | some source => .completed .matched [explainedReason] [source] (some source)
  | none =>
    if context.searchComplete then .completed .needsExplanation [.explanationNotFound] [] none
    else .blocked [.searchIncomplete] []

def sustainabilityValue : String :=
  context.packet.sustainability.normalized.getD ""

def financialValue : String :=
  context.packet.financial.normalized.getD ""

end Context

/-! ### The items -/

namespace C1

def compareSets (rules : EngineRules) (context : Context) : Except EngineError Outcome := do
  let sustainability ← parseEntitySet rules context.sustainabilityValue "sustainability.normalized"
  let financial ← parseEntitySet rules context.financialValue "financial.normalized"
  if sustainability = ∅ ∨ financial = ∅ then
    .ok (.blocked [.entitySetEmpty] [])
  else if sustainability = financial then
    .ok (.completed .matched [.sameVerifiedEntitySet] [] none)
  else
    .ok (context.resolveDifference .differenceExplained)

/-- `evaluate`. -/
def evaluate (rules : EngineRules) (context : Context) : Except EngineError Outcome :=
  match context.requireKind [.entitySet, .facilitySet], context.unresolvedValues with
  | some mismatch, _ => .ok mismatch
  | none, some unresolved => .ok unresolved
  | none, none =>
    let identity := context.packet.identity
    if identity.periodStart = none ∨ identity.periodEnd = none ∨
        identity.financialPeriodStart = none ∨ identity.financialPeriodEnd = none then
      .ok (.blocked [.c1PeriodUnresolved] [])
    else if (identity.periodStart, identity.periodEnd) ≠
        (identity.financialPeriodStart, identity.financialPeriodEnd) then
      .ok (.blocked [.c1PeriodMismatch] [])
    else if identity.consolidation = .unknown then
      .ok (.blocked [.c1ConsolidationUnknown] [])
    else
      compareSets rules context

end C1

namespace C2

/-- `_reporting_window`. -/
def reportingWindow (context : Context) : Except EngineError (Option (Date × Date)) :=
  match context.packet.identity.periodStart, context.packet.identity.periodEnd with
  | some start, some finish =>
    (parsePeriod (start ++ "/" ++ finish) "identity reporting period").map some
  | _, _ => .ok none

def outside (measured : Date × Date) (window : Option (Date × Date)) : Bool :=
  window.any fun window => !window.1.le measured.2 || !measured.1.le window.2

/-- `evaluate`. -/
def evaluate (context : Context) : Except EngineError Outcome :=
  match context.requireKind [.period], context.unresolvedValues with
  | some mismatch, _ => .ok mismatch
  | none, some unresolved => .ok unresolved
  | none, none => do
    let sustainability ← parsePeriod context.sustainabilityValue "sustainability.normalized"
    let financial ← parsePeriod context.financialValue "financial.normalized"
    let window ← reportingWindow context
    if outside sustainability window then
      .ok (.completed .notApplicable [.periodOutOfScope] [] none)
    else if sustainability = financial then
      .ok (.completed .matched [.samePeriod] [] none)
    else
      .ok (context.resolveDifference .periodDifferenceExplained)

end C2

namespace C3

def digitCount (value : Decimal) : Nat :=
  Nat.log 10 value.coefficient + 1

def wideContext (digits : Nat) : Decimal.Context where
  precision := digits + 1
  tiny := -999999 - (digits : Int)

/-- `_within_threshold`. -/
def withinThreshold (commitment threshold capex : Decimal) : Except EngineError Bool :=
  let product : Decimal :=
    ⟨threshold.coefficient * capex.coefficient, threshold.exponent + capex.exponent⟩
  if product.coefficient ≠ 0 ∧ 999999 < product.exponent + Nat.log 10 product.coefficient then
    .error .overflow
  else
    let digits := digitCount commitment + digitCount threshold + digitCount capex
    .ok !((Decimal.round (wideContext digits) product).lt commitment)

/-- `value <= 0`. -/
def notPositive (value : Bool × Decimal) : Bool :=
  value.1 || value.2.coefficient = 0

def accountMappingResolved (policy : Policy) (c3Context : C3Context) : Bool :=
  policy.c3AccountMappingApproved && policy.allowedCapexAccountIds ≠ [] &&
    c3Context.capexAccountIds ≠ [] &&
    c3Context.capexAccountIds.all fun account => policy.allowedCapexAccountIds.contains account

variable (context : Context) (c3Context : C3Context)

def extra : List String :=
  c3Context.commitmentSourceId.toList ++ c3Context.fundingPlanSourceId.toList

def periodsMissing (identity : Identity) (c3Context : C3Context) : Bool :=
  c3Context.targetPeriodStart = none || c3Context.targetPeriodEnd = none ||
    c3Context.capexPeriodStart = none || c3Context.capexPeriodEnd = none ||
    identity.financialPeriodStart = none || identity.financialPeriodEnd = none

def compareThreshold (commitment capex : Decimal) : Except EngineError Outcome :=
  match context.policy.c3Threshold with
  | none => .ok (.blocked [.c3PolicyUnapproved] [])
  | some threshold => do
    let (_, threshold) ← parseDecimal threshold "policy.c3_threshold"
    let within ← withinThreshold commitment threshold capex
    if within then
      .ok (.completed .matched [.capexWithinThreshold] [] none)
    else
      .ok (context.resolveDifference .differenceExplained)

def compareAmounts : Except EngineError Outcome := do
  let commitment ← parseDecimal context.sustainabilityValue "sustainability.normalized"
  let capex ← parseDecimal context.financialValue "financial.normalized"
  if notPositive commitment then
    .ok (.blocked [.c3CommitmentNotPositive] [])
  else if notPositive capex then
    .ok (.blocked [.c3CapexNotPositive] [])
  else if c3Context.commitmentSourceId ≠ none then
    .ok (.completed .matched [.commitmentDisclosed] [] none)
  else
    compareThreshold context commitment.2 capex.2

def judge : Except EngineError Outcome :=
  match context.requireKind [.currencyAmount], context.unresolvedValues with
  | some mismatch, _ => .ok mismatch
  | none, some unresolved => .ok unresolved
  | none, none =>
    let identity := context.packet.identity
    if context.packet.sustainability.unit ≠ some c3Context.currency ∨
        context.packet.financial.unit ≠ some c3Context.currency then
      .ok (.blocked [.c3CurrencyMismatch] [])
    else if !accountMappingResolved context.policy c3Context then
      .ok (.blocked [.c3PolicyUnapproved] [])
    else if periodsMissing identity c3Context then
      .ok (.blocked [.c3PeriodUnresolved] [])
    else if (c3Context.capexPeriodStart, c3Context.capexPeriodEnd) ≠
        (identity.financialPeriodStart, identity.financialPeriodEnd) then
      .ok (.blocked [.c3CapexPeriodMismatch] [])
    else
      compareAmounts context c3Context

/-- `evaluate`. -/
def evaluate : Except EngineError Outcome :=
  if context.packet.claim.track ≠ .goal ∨
      "currency_amount" ∉ context.packet.claim.triggerElements then
    .ok (.completed .notApplicable [.c3TriggerAbsent] [] none)
  else
    match context.packet.c3Context with
    | none => .error (.keyError "c3_context")
    | some c3Context => (judge context c3Context).map (Outcome.withSources (extra c3Context))

end C3

namespace C4

def basis (c4Context : C4Context) (explanation : String) :
    Except EngineError (List String × Reason) :=
  if explanation = "definition" then .ok (c4Context.definitionSourceIds, .definitionNotFound)
  else if explanation = "calculation_basis" then
    .ok (c4Context.calculationSourceIds, .calculationBasisNotFound)
  else .error (.keyError explanation)

def collect (c4Context : C4Context) :
    List String → Except EngineError (List String × List Reason)
  | [] => .ok ([], [])
  | explanation :: explanations => do
    let (sources, reason) ← basis c4Context explanation
    let (cited, missing) ← collect c4Context explanations
    if sources ≠ [] then return (sources ++ cited, missing)
    else return (cited, reason :: missing)

def firsts (values : List String) : List String :=
  values.foldl (fun kept value => if value ∈ kept then kept else kept ++ [value]) []

/-- `evaluate`. -/
def evaluate (context : Context) : Except EngineError Outcome :=
  match context.requireKind [.classification], context.unresolvedValues with
  | some mismatch, _ => .ok mismatch
  | none, some unresolved => .ok unresolved
  | none, none =>
    match context.packet.c4Context with
    | none => .error (.keyError "c4_context")
    | some c4Context => do
      let (cited, missing) ← collect c4Context context.policy.c4RequiredExplanations
      if missing = [] then
        return .completed .matched [.classificationBasisPresent] (firsts cited) none
      else if !context.searchComplete then
        return .blocked [.searchIncomplete] (firsts cited)
      else
        return .completed .needsExplanation missing (firsts cited) none

end C4

variable (rules : EngineRules)

/-- `_ITEM_EVALUATORS`. -/
def evaluateItem (context : Context) : Except EngineError Outcome :=
  match context.packet.item with
  | .c1 => C1.evaluate rules context
  | .c2 => C2.evaluate context
  | .c3 => C3.evaluate context
  | .c4 => C4.evaluate context
  | .c5 => .error (.keyError "C5")

variable (packet : Packet) (policy : Policy)

/-- `_policy_gate`. -/
def policyGate : Option Outcome :=
  if !policy.approved then some (.blocked [.policyUnapproved] [])
  else if policy.currentStage ≠ 1 then some (.blocked [.stageNotSupported] [])
  else if policy.syntheticOnly && !packet.synthetic then
    some (.blocked [.syntheticPolicyRealPacket] [])
  else if packet.item ∉ policy.enabledItems then some (.blocked [.itemNotEnabled] [])
  else none

/-- `_decide`. -/
def decideOutcome : Except EngineError Outcome :=
  match policyGate packet policy, packet.comparability with
  | some gate, _ => .ok gate
  | none, .notComparable => .ok (.completed .notApplicable [.notComparable] [] none)
  | none, .unknown => .ok (.blocked [.comparabilityUnknown] [])
  | none, .comparable =>
    if packet.sustainability.kind ≠ packet.financial.kind then .ok (.blocked [.kindMismatch] [])
    else if packet.sustainability.kind = .unknown then .ok (.blocked [.valueUnresolved] [])
    else evaluateItem rules ⟨packet, policy⟩

def listSources : List (Option String) → List String → List String
  | [], ordered => ordered
  | none :: candidates, ordered => listSources candidates ordered
  | some sourceId :: candidates, ordered =>
    if sourceId ∈ ordered then listSources candidates ordered
    else listSources candidates (ordered ++ [sourceId])

/-- `_source_ids`. -/
def sourceIds (outcome : Outcome) : List String :=
  listSources (packet.sustainability.sourceId :: packet.financial.sourceId ::
    outcome.extraSourceIds.map some) []

/-- The output record of the engine. -/
structure Output where
  (schemaVersion claimId : String)
  item : Item
  executionState : ExecutionState
  status : Option Status
  reviewRequired : Bool
  reasonCodes : List Reason
  sourceIds : List String
  (explanationSourceId sustainabilityValue financialValue : Option String)
  (packetSha256 policySha256 : String)
  synthetic : Bool
  engineVersion : String
  deriving DecidableEq

/-- `_project`. -/
def project (outcome : Outcome) : Output where
  schemaVersion := schemaVersion
  claimId := packet.identity.claimId
  item := packet.item
  executionState := outcome.executionState
  status := outcome.status
  reviewRequired := outcome.executionState ≠ .completed
  reasonCodes := outcome.reasonCodes
  sourceIds := sourceIds packet outcome
  explanationSourceId := outcome.explanationSourceId
  sustainabilityValue := packet.sustainability.raw
  financialValue := packet.financial.raw
  packetSha256 := rules.packetSha256 packet
  policySha256 := rules.policySha256 policy
  synthetic := packet.synthetic
  engineVersion := "reconciliation-engine-1.2.0"

/-- `evaluate`. -/
def evaluate : Except EngineError Output :=
  if packet.item = .c5 then
    .error (.notImplemented ("stage 1 does not implement accounting-judgement reconciliation; " ++
      "the dispatcher must record not_run with stage_disabled instead of calling the engine"))
  else do
    validatePolicy policy
    validatePacket rules packet
    let outcome ← decideOutcome rules packet policy
    return project rules packet policy outcome

end ProofOps.Domain.Reconciliation
