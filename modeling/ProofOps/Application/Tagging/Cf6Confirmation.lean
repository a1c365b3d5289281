import ProofOps.Application.Evidence.Citations
import ProofOps.Application.Tagging.Consensus
import ProofOps.Domain.Rules.Scope

/-!
# Three-replica confirmation

`confirmation_result`: the facts of a claim are assembled from the element votes and from
the consensus of the three runs, the scoped engine decides on them, and the decision is
published only when no step found a reason against it.  `reasons` is the whole list of
these; the two halves of the body below it are the facts the engine reads and the receipt.
-/

namespace ProofOps.Application.Tagging.Cf6

open Foundation Foundation.Checked Domain Domain.Rules Evidence

/-! ### Element votes of the three-replica gate -/

/-- `policy`. -/
structure Policy where
  requiredVotes : Nat
  revised : Bool
  threshold_known : requiredVotes = 2 ∨ requiredVotes = 3
  deriving DecidableEq

inductive PolicyEntry where
  | missing
  | foreign
  | registered (policy : Policy)
  deriving DecidableEq

structure AnalysisPolicy where
  sha256 : String
  confirmation : PolicyEntry

structure AtomicClaim where
  (tenantId documentVersionId claimId : String)
  sourceRefs : List SourceRef
  sourceQuality : String

inductive Scalar where
  | null
  | text (value : String)
  | flag (value : Bool)
  | number (value : Int)
  | other
  deriving DecidableEq

def Scalar.ofText : Option String → Scalar
  | none => .null
  | some value => .text value

structure TransportBinding where
  (requestId requestSignature tenantId packetSha256 : Scalar)
  (replica modelSha256 promptSha256 analysisPolicySha256 : Scalar)
  otherKeys : List String
  deriving DecidableEq

/-- `response["cf6_transport_receipt"]`. -/
structure TransportReceipt where
  (schemaName authenticated freshModelCall replay responseSha256 expandedSha256 : Scalar)
  providerRequestId : Scalar
  binding : Option TransportBinding

structure ProviderResponse where
  receipt : Option TransportReceipt
  sha256 : String
  (providerRequestId requestId : Scalar)
  simulated : Option Scalar
  (responseReuse savedResponseOrigin : Bool)

inductive RawRefs where
  | absent
  | malformed
  | refs (refs : List SourceRef)

/-- An element entry of the raw reply. -/
structure RawElement where
  state : Scalar
  evidenceRefs : RawRefs

structure VoteRules where
  citations : CitationRules
  decodeResponse : String → Option ProviderResponse
  replySha256 : Option String → String
  rawElement : Option String → String → Option RawElement

def expectedBinding (run : TagRun) (analysisPolicy : AnalysisPolicy) : TransportBinding where
  requestId := .text run.request.requestId
  requestSignature := .text run.request.requestSignature
  tenantId := .text run.tenantId
  packetSha256 := .text run.packetSha256
  replica := .number run.replicateId
  modelSha256 := .text run.modelSha256
  promptSha256 := .text run.promptSha256
  analysisPolicySha256 := .text analysisPolicy.sha256
  otherKeys := []

variable (rules : VoteRules)

def receiptCurrent (run : TagRun) (analysisPolicy : AnalysisPolicy) (usage : TokenUsage)
    (response : ProviderResponse) (receipt : TransportReceipt) : Bool :=
  !run.isSynthetic && receipt.schemaName == .text "cf6-authenticated-transport-v1" &&
    receipt.authenticated == .flag true && receipt.freshModelCall == .flag true &&
    receipt.replay == .flag false && receipt.responseSha256 == .text response.sha256 &&
    receipt.expandedSha256 == .text (rules.replySha256 run.rawResponseJson) &&
    receipt.providerRequestId == .ofText usage.providerRequestId &&
    response.providerRequestId == .ofText usage.providerRequestId &&
    response.requestId == .text run.request.requestId &&
    response.simulated.getD (.flag false) == .flag false && !response.responseReuse &&
    !response.savedResponseOrigin && receipt.binding == some (expectedBinding run analysisPolicy)

/-- `response_bound`. -/
def responseBound (run : TagRun) (analysisPolicy : AnalysisPolicy) : Bool :=
  match run.usage, rules.decodeResponse (run.providerResponseJson.getD "{}") with
  | some usage, some response =>
    response.receipt.any (receiptCurrent rules run analysisPolicy usage response)
  | _, _ => false

inductive VoteState where
  | tagged (state : ElementState)
  | missing
  | unreadable
  deriving DecidableEq

/-- One vote as the agreement counts it. -/
structure ElementVote where
  state : VoteState
  (isVerified negativeSource : Bool)
  (value binding : Option String)
  scope : String
  refs : List SourceRef
  replica : Nat

variable (original : OriginalGraph)

def verifyFor (tenantId : String) (ref : SourceRef) : Except PyError SourceRef :=
  if tenantId ≠ original.graph.identity.tenantId then
    .error (.domainValidation "tenant mismatch")
  else
    .ok (verifySourceRef rules.citations original ref)

def allVerified (rules : VoteRules) (original : OriginalGraph) (tenantId : String)
    (early late : SourceRef → Bool) : List SourceRef → Except PyError Bool
  | [] => .ok true
  | ref :: refs =>
    if early ref then do
      let checked ← verifyFor rules original tenantId ref
      if isVerified checked && late ref then allVerified rules original tenantId early late refs
      else return false
    else
      .ok false

variable (claim : AtomicClaim)

def insideClaim (ref : SourceRef) : Bool :=
  claim.sourceRefs.any fun own =>
    own.sourceId == ref.sourceId && own.charStart ≤ ref.charStart && ref.charEnd ≤ own.charEnd

def readRaw (run : TagRun) (elementId : String) (state : VoteState) : VoteState × Bool :=
  match rules.rawElement run.rawResponseJson elementId with
  | none => (.missing, false)
  | some raw =>
    if raw.state = .text "conflict" then (.tagged .conflict, false)
    else if raw.state = .text "absent" then
      match raw.evidenceRefs with
      | .absent => (state, false)
      | .malformed => (.missing, false)
      | .refs refs =>
        match allVerified rules original claim.tenantId (fun _ => true) (insideClaim claim) refs with
        | .error _ => (.missing, false)
        | .ok negative => (state, negative)
    else (state, false)

def evidenceVerified (vote : Option Vote) (binding : Option String) : Except PyError Bool :=
  match vote with
  | none => .ok false
  | some vote =>
    if vote.element.evidenceRefs ≠ [] ∧ PyText.truthy binding then
      allVerified rules original claim.tenantId isVerified (fun _ => true)
        vote.element.evidenceRefs
    else
      .ok false

def castVote (elementId : String) (run : TagRun) :
    Except PyError ElementVote := do
  let vote := run.vote elementId
  let binding := lastValue run.bindingHashes elementId
  let evidence ← evidenceVerified rules original claim vote binding
  let guarded := match vote with
    | none => VoteState.missing
    | some vote => .tagged vote.element.state
  let (state, negative) := readRaw rules original claim run elementId guarded
  let isPresent := state == .tagged .present
  return {
    state := state
    isVerified := isPresent && evidence
    negativeSource := negative
    value := if isPresent then vote.bind fun vote => vote.element.normalizedValue else none
    binding := if isPresent then binding else none
    scope := (lastValue run.sourceScopes elementId).getD "local_claim"
    refs := (vote.map fun vote => vote.element.evidenceRefs).getD []
    replica := run.replicateId }

/-! ### Agreement -/

/-- What the votes have to agree in. -/
structure BallotKey where
  state : VoteState
  (value binding : Option String)
  scope : String
  deriving DecidableEq

namespace ElementVote

variable (vote : ElementVote)

def key : BallotKey where
  state := vote.state
  value := vote.value
  binding := vote.binding
  scope := vote.scope

def isValid : Bool :=
  (vote.state == .tagged .present || vote.state == .tagged .absent) && vote.isVerified

def supports : Bool :=
  vote.state == .tagged .present && vote.isVerified

def isLost : Bool :=
  vote.state == .missing || vote.state == .unreadable

end ElementVote

def wonState (vote : ElementVote) : FactState :=
  if vote.state = .tagged .present then .present else .absent

/-- `resolve_votes`. -/
def resolveVotes (votes : List ElementVote) (required : Nat) : FactState × List ElementVote :=
  let valid := votes.filter ElementVote.isValid
  if votes.any fun vote => vote.state == .tagged .conflict then (.conflict, [])
  else if votes.length ≠ 3 ∨ votes.any ElementVote.isLost then (.unknown, [])
  else if 1 < (valid.map ElementVote.key).dedup.length then (.conflict, [])
  else
    match valid with
    | [] => (.unknown, [])
    | first :: _ => if required ≤ valid.length then (wonState first, valid) else (.unknown, [])

def vetoed (votes : List ElementVote) : Bool :=
  (votes.any ElementVote.negativeSource) && votes.any ElementVote.supports

def settleVotes (required : Nat) (completed validScope : Bool) (votes : List ElementVote) :
    FactState × List ElementVote :=
  let resolved := if vetoed votes then (.conflict, []) else resolveVotes votes required
  if resolved.1 = .unknown ∧ completed ∧ validScope ∧ !votes.any ElementVote.isLost then
    (.absentInScope, resolved.2)
  else
    resolved

/-! ### Inputs -/

structure Packet extends EvidencePacket where
  analysisPolicySha256 : Option String
  confirmation : PolicyEntry
  selectedPages : List Nat

structure Projection where
  gapIds : List String
  gradeBasis : Option String

structure Request where
  runs : List TagRun
  packet : Packet
  pack : RulePackSnapshot
  context : RuleContext
  claim : AtomicClaim
  original : OriginalGraph
  analysisPolicy : AnalysisPolicy
  priorProjection : Projection
  holdReason : Option String

/-- One entry of `elements`. -/
structure ElementRecord where
  elementId : String
  state : FactState
  votes : Nat
  replicateIds : List Nat
  evidenceRefs : List SourceRef
  absenceBasis : Option String

/-- `gap_details` of one gap. -/
structure GapDetail where
  (gapId branch : String)
  track : Track
  safeHarborCategory : Option SafeHarborCategory
  facts : List (String × FactState)
  rubricBranches : List Branch

structure Body where
  policy : Policy
  (policySha256 analysisPolicySha256 packetSha256 claimId : String)
  replicateHashes : List String
  elements : List ElementRecord
  reasons : List String
  engineDecision : ScopeOutcome
  confirmationScope : ScopeHeader
  (rulePackSha256 modelSha256 promptSha256 priorProjectionSha256 : String)
  ruleGapDetails : Option (List GapDetail)
  auxiliaryFacts : Option (List ConfirmedFact)

structure Rules extends VoteRules where
  canonicalHash : CanonicalHash
  scopeHash : ScopeHash
  semanticHash : TagRun → String
  graphSha256 : OriginalGraph → String
  policySha256 : Policy → String
  projectionSha256 : Projection → String
  scopedReceiptSha256 : ScopeHeader → List ElementRecord → String
  bodySha256 : Body → String

structure Confirmation where
  decision : ScopeOutcome
  (confirmationDisplay confirmationBasis confirmationPolicySha256 cf6ReceiptSha256 : String)
  confirmationScope : ScopeHeader
  (modelSha256 promptSha256 analysisPolicySha256 reviewStatus : String)

structure Result where
  body : Body
  receiptSha256 : String
  cf6Confirmation : Option Confirmation

/-! ### Reasons found on the runs and the claim -/

def isCompleted (run : TagRun) : Bool :=
  run.guarded.isSome && (run.usage.any fun usage => usage.status == "succeeded") &&
    run.errors.all isReviewNote

def allCompleted (ordered : List TagRun) : Bool :=
  ordered.all isCompleted

def reasonUnless (test : Bool) (reason : String) : List String :=
  if test then [] else [reason]

def headersAgree (request : Request) (ordered : List TagRun) : Bool :=
  match ordered.filterMap TagRun.header with
  | [first, second, third] =>
    second == first && third == first &&
      (some first.track, first.safeHarborCategory) ==
        (request.packet.track, request.packet.safeHarborCategory)
  | _ => false

def validScope (request : Request) : Bool :=
  let pages := request.packet.selectedPages
  !pages.isEmpty && pages == pages.dedup.insertionSort (· ≤ ·) && pages.all (0 < ·) &&
    request.claim.sourceRefs.all fun ref => pages.contains ref.pageNum

def providersDistinct (ordered : List TagRun) : Bool :=
  decide (((ordered.filter fun run => run.usage.isSome).map fun run =>
    run.usage.bind TokenUsage.providerRequestId).dedup.length = 3) &&
    (ordered.filter fun run => run.usage.isSome).all fun run => run.providerRequestId.isSome

def packetPolicyMatches (request : Request) (policy : Policy) : Bool :=
  request.packet.analysisPolicySha256 == some request.analysisPolicy.sha256 &&
    request.packet.confirmation == .registered policy

variable (rules : Rules) (request : Request)

def claimSourceVerified : Except PyError Bool :=
  if request.claim.sourceRefs = [] ∨ request.claim.sourceQuality ≠ "verified" then .ok false
  else
    allVerified rules.toVoteRules request.original request.claim.tenantId (fun _ => true)
      (fun _ => true) request.claim.sourceRefs

def ruleGapHeld : Bool :=
  (request.priorProjection.gapIds.any (· != "GAP-005")) ||
    request.holdReason == some "blocked_rule_gap"

def safetyHolds : List String :=
  ["estimate_hold", "retag_required", "scope3_calculation_hold"]

variable (policy : Policy) (ordered : List TagRun)

def exceptionReview : Bool :=
  !policy.revised &&
    (((ordered.filterMap TagRun.header).any fun header =>
        header.safeHarborCategory.isSome || PyText.truthy header.superlativeQuote) ||
      ordered.any TagRun.productVariant)

def openingReasons (claimVerified : Bool) : List String :=
  reasonUnless (allCompleted ordered) "CF6_REPLICAS_UNRESOLVED" ++
    reasonUnless (ordered.all fun run => responseBound rules.toVoteRules run request.analysisPolicy)
      "CF6_CURRENT_RESPONSES_REQUIRED" ++
    reasonUnless (headersAgree request ordered) "CF6_TRACK_CATEGORY_UNANIMITY_REQUIRED" ++
    reasonUnless claimVerified "CF6_CLAIM_SOURCE_UNVERIFIED" ++
    reasonUnless (packetPolicyMatches request policy) "CF6_PACKET_POLICY_MISMATCH" ++
    reasonUnless (validScope request) "CF6_SELECTED_SCOPE_REQUIRED" ++
    reasonUnless (!ruleGapHeld request) "CF6_RULE_GAP" ++
    reasonUnless (!request.holdReason.any fun reason => PyText.isIn "TIME_BUDGET" reason)
      "CF6_TIME_BUDGET" ++
    reasonUnless (!request.priorProjection.gradeBasis.any safetyHolds.contains)
      "CF6_EXISTING_SAFETY_HOLD" ++
    reasonUnless (!exceptionReview policy ordered) "CF6_EXCEPTION_REVIEW_REQUIRED" ++
    reasonUnless (providersDistinct ordered) "CF6_PROVIDER_REPLAY"

/-! ### Elements and facts -/

def ladder : Track → List String
  | .management => ["M1", "M2", "M3"]
  | .performance => ["P1", "P2", "P3", "P4"]
  | .goal => ["G1", "G2", "G3", "G4", "G5", "G6"]

/-- What the gate finds on one element. -/
structure Assessment where
  record : ElementRecord
  facts : List ConfirmedFact
  reasons : List String

def wonRefs (state : FactState) (winners : List ElementVote) : List SourceRef :=
  if state = .present then (winners.flatMap ElementVote.refs).eraseDups else []

def settledFact (tenantId : String) (state : FactState) (winners : List ElementVote) (name : String) :
    Except PyError ConfirmedFact :=
  let refs := wonRefs state winners
  ConfirmedFact.make name state refs (if refs ≠ [] then some tenantId else none)
    (decide (refs ≠ [])) (decide (refs ≠ [])) (state == .absent)
    ((winners.head?.map ElementVote.scope).getD "local_claim")
    (if state = .present then winners.head?.bind ElementVote.value else none)

def elementReasons (track : Track) (elementId : String) (state : FactState) : List String :=
  reasonUnless (!(ladder track).contains elementId || state == .present || state == .absentInScope)
      ("CF6_LADDER_UNRESOLVED:" ++ elementId) ++
    reasonUnless (state != .conflict) ("CF6_CONFLICT:" ++ elementId)

def castVotes (elementId : String) : Except PyError (List ElementVote) :=
  ordered.mapM (castVote rules.toVoteRules request.original request.claim elementId)

def settleElement (votes : List ElementVote) : FactState × List ElementVote :=
  settleVotes policy.requiredVotes (allCompleted ordered) (validScope request) votes

def assessElement (track : Track) (ordered : List TagRun)
    (entry : String × List String) : Except PyError Assessment := do
  let votes ← castVotes rules request ordered entry.1
  let settled := settleElement request policy ordered votes
  let facts ← entry.2.mapM (settledFact request.claim.tenantId settled.1 settled.2)
  return {
    record :=
      { elementId := entry.1
        state := settled.1
        votes := settled.2.length
        replicateIds := settled.2.map ElementVote.replica
        evidenceRefs := wonRefs settled.1 settled.2
        absenceBasis :=
          if settled.1 = .absentInScope then some "DEC127_SYSTEM_NON_OBSERVATION" else none }
    facts := facts
    reasons := elementReasons track entry.1 settled.1 }

def otherFacts (baseline : ConsensusResult) (facts : List ConfirmedFact) : List ConfirmedFact :=
  match baseline.confirmedTags with
  | none => []
  | some tags => tags.facts.filter fun fact => !(facts.map ConfirmedFact.name).contains fact.name

def buildTags (track : Track) (ordered : List TagRun)
    (facts : List ConfirmedFact) : Except PyError ConfirmedTags :=
  match ordered with
  | [] => .error (.valueError "ordered")
  | first :: _ =>
    ConfirmedTags.make request.claim.tenantId request.claim.documentVersionId
      request.claim.claimId track facts 1 request.packet.packetSha256 first.modelSha256
      first.promptSha256 (ordered.map rules.semanticHash) request.pack.ontologyVersion
      request.packet.safeHarborCategory
      ((ordered.filterMap TagRun.header).head?.bind Header.superlativeQuote) first.productVariant

def factNamed (facts : List ConfirmedFact) (name : String) : Option ConfirmedFact :=
  facts.find? fun fact => fact.name == name

variable (tags : ConfirmedTags) (claimSourceRefs : List SourceRef)

def superlativeRefs : List SourceRef :=
  match tags.superlativeQuote with
  | none => []
  | some quote =>
    claimSourceRefs.filter fun ref =>
      isVerified ref && ref.documentVersionId == tags.documentVersionId &&
        PyText.nonBlank quote && PyText.isIn quote ref.quote

def addSuperlative : Except PyError (List ConfirmedFact) :=
  if PyText.truthy tags.superlativeQuote ∧ (factNamed tags.facts "has_superlative").isNone ∧
      superlativeRefs tags claimSourceRefs ≠ [] then do
    let fact ← ConfirmedFact.make "has_superlative" .present
      (superlativeRefs tags claimSourceRefs) (some tags.tenantId) true true false "local_claim" none
    return tags.facts ++ [fact]
  else
    .ok tags.facts

variable (facts : List ConfirmedFact)

def exceptionOperands : List String :=
  ((if PyText.truthy tags.superlativeQuote then ["comparison_basis", "external_verification"]
      else []) ++
    (if tags.productVariant then ["direct_product_material_ratio_or_target"] else []) ++
    (if (factNamed facts "categorical_ordinal").isSome then
      ["categorical_ordinal", "certification_provider"] else [])).dedup.insertionSort (· ≤ ·)

def putFact (fact : ConfirmedFact) : List ConfirmedFact :=
  if (factNamed facts fact.name).isSome then
    facts.map fun old => if old.name = fact.name then fact else old
  else
    facts ++ [fact]

def closeOperand (name : String) : Except PyError (List ConfirmedFact) :=
  match factNamed facts name with
  | some fact =>
    if fact.state = .unknown then
      (ConfirmedFact.make name .absentInScope [] none false false false "local_claim" none).map
        (putFact facts)
    else
      .ok facts
  | none =>
    (ConfirmedFact.make name .absentInScope [] none false false false "local_claim" none).map
      (putFact facts)

def replaceFacts : Except PyError ConfirmedTags :=
  ConfirmedTags.make tags.tenantId tags.documentVersionId tags.claimId tags.track facts
    tags.tagRevision tags.packetSha256 tags.modelSha256 tags.promptSha256 tags.replicateHashes
    tags.ontologyVersion tags.safeHarborCategory tags.superlativeQuote tags.productVariant

def resolveExceptionFacts : Except PyError ConfirmedTags := do
  let facts ← addSuperlative tags claimSourceRefs
  let closed ← (exceptionOperands tags facts).foldlM closeOperand facts
  replaceFacts tags closed

def reopenFact (fact : ConfirmedFact) : Except PyError ConfirmedFact :=
  if fact.state = .absentInScope then
    ConfirmedFact.make fact.name .unknown fact.evidenceRefs fact.sourceTenantId
      fact.citationVerified fact.bindingAccepted fact.searchCoverageVerified fact.sourceScope
      fact.normalizedValue
  else
    .ok fact

def confirmationScope : ScopeHeader where
  tenantId := some request.packet.tenantId
  documentVersionId := some request.packet.documentVersionId
  runId := some request.packet.runId
  selectedPages := some request.packet.selectedPages
  inspectedPages := none
  uninspectedPages := none
  rulePolicySha256 := some (rules.scopeHash.policy (if policy.revised then .cf6V2 else .cf6V1))
  confirmationPolicySha256 := none

def hasConflict : Bool :=
  tags.facts.any fun fact => fact.state == .conflict

def decideTags (elements : List ElementRecord)
    (tags : ConfirmedTags) : Except PyError ScopeOutcome :=
  if scopedAbsences tags ≠ [] then
    if hasConflict tags then do
      let facts ← tags.facts.mapM reopenFact
      let reopened ← replaceFacts tags facts
      (evaluate rules.canonicalHash reopened request.context request.pack).map ScopeOutcome.plain
    else
      let scope := confirmationScope rules request policy
      evaluateCf6Scope rules.canonicalHash rules.scopeHash tags request.context request.pack scope
        (rules.policySha256 policy) (rules.scopedReceiptSha256 scope elements)
  else
    (evaluate rules.canonicalHash tags request.context request.pack).map ScopeOutcome.plain

def gapBranch (gapId : String) : String :=
  if gapId = "GAP-001" then "original §4.6 safe-harbor category has no E0–E3 mapping"
  else if gapId = "GAP-003" then
    "pinned pack lacks additional_element_policy=report_without_grade_effect"
  else if gapId = "GAP-006" then "superlative plus safe-harbor precedence has no grade mapping"
  else if gapId = "GAP-007" then
    if tags.productVariant ∧ tags.track = .management then
      "product ratio/target present: generic management boundary interaction undefined"
    else if tags.productVariant then "product variant outside management is undefined"
    else "no " ++ Rules.Track.stem tags.track ++ " ladder branch matches resolved primitive facts"
  else "pinned rule gap"

/-- `gap_details`. -/
def gapDetails (pack : RulePackSnapshot) (decision : Decision) : Except PyError (List GapDetail) :=
  if decision.decisionStatus ≠ .blockedRuleGap then .ok []
  else
    decision.gapIds.mapM fun gapId => do
      let rubric ← pack.rubricFile tags.track
      return {
        gapId := gapId
        branch := gapBranch tags gapId
        track := tags.track
        safeHarborCategory := tags.safeHarborCategory
        facts := tags.facts.map fun fact => (fact.name, fact.state)
        rubricBranches := rubric.branches }

def auxiliaryFacts : List ConfirmedFact :=
  tags.facts.filter fun fact => !((mappings tags.track).flatMap Prod.snd).contains fact.name

/-! ### The whole function -/

/-- `selected_policy`. -/
def selectPolicy (analysisPolicy : AnalysisPolicy) : Except PyError Policy :=
  match analysisPolicy.confirmation with
  | .registered policy => .ok policy
  | .foreign => .error (.valueError "CF6_POLICY_MISMATCH")
  | .missing => .error (.valueError "CF6_POLICY_REQUIRED")

def checkSource : Except PyError Unit :=
  refuse (request.claim.claimId ≠ request.packet.claimId ∨
      request.claim.documentVersionId ≠ request.packet.documentVersionId ∨
      request.claim.tenantId ≠ request.packet.tenantId ∨
      rules.graphSha256 request.original ≠ request.packet.graphSha256)
    (.valueError "CF6_SOURCE_IDENTITY_MISMATCH")

structure Assembly where
  policy : Policy
  track : Track
  ordered : List TagRun
  claimVerified : Bool
  assessments : List Assessment
  tags : ConfirmedTags

namespace Assembly

variable (assembly : Assembly)

def elements : List ElementRecord :=
  assembly.assessments.map Assessment.record

def conflictReasons : List String :=
  (assembly.tags.facts.filter fun fact => fact.state == .conflict).map
    fun fact => "CF6_CONFLICT:" ++ fact.name

end Assembly

def readsExceptions : Bool :=
  policy.revised && allCompleted ordered && validScope request

def packetTrack (packet : EvidencePacket) : Except PyError Track :=
  match packet.track with
  | some track => .ok track
  | none => .error (.keyError "track")

def assemble : Except PyError Assembly := do
  let policy ← selectPolicy request.analysisPolicy
  let baseline ← formConsensus rules.semanticHash request.runs request.packet.toEvidencePacket
    request.pack request.context.tenantId 1 [] "grade-relevant-unanimity-v3"
  let ordered := sortByReplica request.runs
  checkSource rules request
  let claimVerified ← claimSourceVerified rules request
  let track ← packetTrack request.packet.toEvidencePacket
  let assessments ← (mappings track).mapM (assessElement rules request policy track ordered)
  let facts := assessments.flatMap Assessment.facts
  let tags ← buildTags rules request track ordered (facts ++ otherFacts baseline facts)
  if readsExceptions request policy ordered then do
    let resolved ← resolveExceptionFacts tags
      (if claimVerified then request.claim.sourceRefs else [])
    return { policy, track, ordered, claimVerified, assessments, tags := resolved }
  else
    return { policy, track, ordered, claimVerified, assessments, tags }

def statusName : DecisionStatus → String
  | .decided => "decided"
  | .blockedEvidence => "blocked_evidence"
  | .blockedRuleGap => "blocked_rule_gap"

variable (assembly : Assembly)

def allReasons (decision : Decision) : List String :=
  openingReasons rules request assembly.policy assembly.ordered assembly.claimVerified ++
    assembly.assessments.flatMap Assessment.reasons ++
    (if readsExceptions request assembly.policy assembly.ordered then assembly.conflictReasons
      else []) ++
    reasonUnless (decision.decisionStatus == .decided)
      ("CF6_ENGINE:" ++ statusName decision.decisionStatus)

variable (outcome : ScopeOutcome)

def buildBody (gaps : List GapDetail) (first : TagRun) : Body where
  policy := assembly.policy
  policySha256 := rules.policySha256 assembly.policy
  analysisPolicySha256 := request.analysisPolicy.sha256
  packetSha256 := request.packet.packetSha256
  claimId := request.claim.claimId
  replicateHashes := assembly.ordered.map rules.semanticHash
  elements := assembly.elements
  reasons := sortedReasons (allReasons rules request assembly outcome.decision)
  engineDecision := outcome
  confirmationScope := confirmationScope rules request assembly.policy
  rulePackSha256 := request.pack.sha256
  modelSha256 := first.modelSha256
  promptSha256 := first.promptSha256
  priorProjectionSha256 := rules.projectionSha256 request.priorProjection
  ruleGapDetails := if assembly.policy.revised then some gaps else none
  auxiliaryFacts := if assembly.policy.revised then some (auxiliaryFacts assembly.tags) else none

def confirm (body : Body) : Option Confirmation :=
  if allReasons rules request assembly outcome.decision = [] then
    some
      { decision := outcome
        confirmationDisplay := "확정"
        confirmationBasis := "cf6_element_agreement"
        confirmationPolicySha256 := rules.policySha256 assembly.policy
        cf6ReceiptSha256 := rules.bodySha256 body
        confirmationScope := confirmationScope rules request assembly.policy
        modelSha256 := body.modelSha256
        promptSha256 := body.promptSha256
        analysisPolicySha256 := request.analysisPolicy.sha256
        reviewStatus := "auto_confirmed" }
  else
    none

def revisedGaps : Except PyError (List GapDetail) :=
  if assembly.policy.revised then gapDetails assembly.tags request.pack outcome.decision else .ok []

def closeResult (body : Body) : Result where
  body := body
  receiptSha256 := rules.bodySha256 body
  cf6Confirmation := confirm rules request assembly outcome body

/-- `confirmation_result`. -/
def confirmationResult : Except PyError Result := do
  let assembly ← assemble rules request
  let outcome ← decideTags rules request assembly.policy assembly.elements assembly.tags
  let gaps ← revisedGaps request assembly outcome
  match assembly.ordered with
  | [] => .error (.valueError "ordered")
  | first :: _ =>
    .ok (closeResult rules request assembly outcome
      (buildBody rules request assembly outcome gaps first))

end ProofOps.Application.Tagging.Cf6
