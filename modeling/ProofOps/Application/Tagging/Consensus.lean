import Mathlib.Data.List.ReduceOption
import ProofOps.Application.Tagging.Runs

/-!
# Forming a consensus

`form_consensus`: the checks on the packet and the three runs, and the two ways
to assemble facts from the votes.  `_partial_facts` records every element with
the state its votes agree on; the strict profile counts votes and confirms only
when no reason for a review was found.
-/

namespace ProofOps.Application.Tagging

open Domain Domain.Rules Foundation.PyText

/-- The ids of `MAPPINGS[track]`. -/
def mappedElements (track : Track) : List String :=
  (mappings track).map Prod.fst

variable (packet : EvidencePacket) (policy : PartialPolicy) (pack : RulePackSnapshot)

def checkPacket : Except PyError Track :=
  match packet.retrievalPacketSha256, packet.track with
  | some _, some track => do
    let entries ← pack.elementsFile
    let listed := (entries.map ElementDefinition.id).filter (mappedElements track).contains
    if packet.allowedElements = listed ∧ mappedElements track ⊆ packet.allowedElements ∧
        packet.allowedElements ⊆ mappedElements track then
      .ok track
    else
      .error (.domainValidation "complete frozen track packet required")
  | _, _ => .error (.domainValidation "complete frozen track packet required")

variable (tenantId : String)

def checkRun (run : TagRun) : Except PyError Unit :=
  if (run.tenantId, run.claimId, run.runId, run.packetSha256, run.graphSha256, run.ruleSha256) ≠
      (tenantId, packet.claimId, packet.runId, packet.packetSha256, packet.graphSha256,
        pack.sha256) then
    .error (.domainValidation "replicate packet/provenance mismatch")
  else if run.guarded.any fun tags =>
      (tags.replicateId, tags.packetSha256, tags.claimId) !=
        (run.replicateId, run.packetSha256, run.claimId) then
    .error (.domainValidation "guarded vote identity mismatch")
  else
    .ok ⟨⟩

def TagRun.settings (run : TagRun) : String × String × Nat × Bool :=
  (run.modelSha256, run.promptSha256, run.request.extractionEpoch, run.productVariant)

def sortByReplica (runs : List TagRun) : List TagRun :=
  runs.insertionSort fun first second => first.replicateId ≤ second.replicateId

variable (ordered : List TagRun)

def checkRequests : Except PyError Unit :=
  if (ordered.map fun run => run.request.requestId).dedup.length ≠ 3 ∨
      (ordered.map fun run => run.request.requestSignature).dedup.length ≠ 3 then
    .error (.domainValidation "independent request identities required")
  else if (ordered.map TagRun.settings).dedup.length ≠ 1 then
    .error (.domainValidation "replicate model/prompt/epoch mismatch")
  else
    .ok ⟨⟩

def checkRuns (runs : List TagRun) : Except PyError (List TagRun) :=
  if runs.length ≠ 3 ∨ ¬([1, 2, 3] ⊆ runs.map TagRun.replicateId) then
    .error (.domainValidation "exactly one run per replicate required")
  else if packet.tenantId ≠ tenantId ∨ pack.tenantId ≠ tenantId then
    .error (.domainValidation "tenant mismatch")
  else do
    (sortByReplica runs).forM (checkRun packet pack tenantId)
    checkRequests (sortByReplica runs)
    return sortByReplica runs

variable (track : Track) (elementId : String)

def primitives? : Option (List String) :=
  ((mappings track).find? fun entry => entry.1 == elementId).map Prod.snd

def pickScope : String :=
  let scopes := (ordered.filter fun run => run.guarded.isSome).map fun run =>
    lastValue run.sourceScopes elementId
  (["qt1_maintenance_baseline_v1", "global_bound", "same_table", "local_claim"].find?
    fun name => scopes.contains (some name)).getD "local_claim"

def replaceElement (base : LlmElement) (state : ElementState) (refs : List SourceRef)
    (normalizedValue creditedFrom : Option String) : Except PyError LlmElement :=
  LlmElement.make base.elementId state refs normalizedValue creditedFrom base.reasonCode

variable (state : ElementState)

def voteFact (refs : List SourceRef) (scope : String)
    (normalizedValue : Option String) (name : String) : Except PyError ConfirmedFact :=
  if state = .present then
    ConfirmedFact.make name .present refs (some tenantId) true true false scope normalizedValue
  else
    ConfirmedFact.make name (FactState.ofElement state) [] none false false false "local_claim" none

def sortedReasons (reasons : List String) : List String :=
  reasons.dedup.insertionSort (· ≤ ·)

def providerReplay : Bool :=
  !decide (ordered.filterMap TagRun.providerRequestId).Nodup

def soleHeader : Option Header :=
  match (ordered.filterMap TagRun.header).dedup with
  | [header] => some header
  | _ => none

variable (hashes : List String)

def assembleTags (packet : EvidencePacket) (pack : RulePackSnapshot)
    (tenantId : String) (tagRevision : Nat) (header : Header) (facts : List ConfirmedFact)
    (first : TagRun) : Except PyError ConfirmedTags :=
  ConfirmedTags.make tenantId packet.documentVersionId packet.claimId header.track facts
    tagRevision packet.packetSha256 first.modelSha256 first.promptSha256 hashes
    pack.ontologyVersion header.safeHarborCategory header.superlativeQuote first.productVariant

/-! ### Partial facts -/

def isReviewNote (error : String) : Bool :=
  error == "DETERMINISTIC_CHECK_REQUIRED:P6" || startsWith error "UNRESOLVED:"

def isTolerated (run : TagRun) (error : String) : Bool :=
  run.guarded.isNone &&
    (["MODEL_UNAVAILABLE", "BUDGET_EXHAUSTED", "TAGGING_INPUT_COUNT_INVALID"].contains error ||
      (policy.citationUnavailable && run.status == "citation_unresolved" &&
        startsWith error "TAGGING_EVIDENCE_ID_"))

/-- The local `fatal`. -/
def isFatal : Bool :=
  ordered.any fun run => run.errors.any fun error =>
    !isReviewNote error && !isTolerated policy run error

def elementState (votes : List (Option Vote)) : ElementState :=
  let cast := votes.reduceOption
  if 1 < (cast.map Vote.key).dedup.length then
    .conflict
  else if policy.preserveSurvivingConflict &&
      cast.any fun vote => vote.element.state == .conflict then
    .conflict
  else if votes.any Option.isNone then
    .unknown
  else
    match cast with
    | [] => .unknown
    | first :: _ =>
      if first.element.state = .present ∧ (cast.all fun vote => vote.binding.isSome) ∧
          cast.all Vote.refsVerified then
        .present
      else if first.element.state = .unknown ∨
          (policy.preserveConflict ∧ first.element.state = .conflict) then
        first.element.state
      else
        .unknown

def agreementCount (keys : List VoteKey) : Nat :=
  ((keys.map fun key => keys.count key).max?).getD 0

structure ElementOutcome where
  elementId : String
  agreement : Nat
  element : LlmElement
  facts : List ConfirmedFact

def presentRefs (cast : List Vote) : List SourceRef :=
  if state = .present then (cast.flatMap fun vote => vote.element.evidenceRefs).eraseDups else []

def candidateElement (refs : List SourceRef) (cast : List Vote) : Except PyError LlmElement :=
  match cast with
  | [] => LlmElement.make elementId .unknown [] none none (some "UNSEARCHED")
  | base :: _ =>
    replaceElement base.element state refs
      (if state = .present then base.element.normalizedValue else none)
      (if state = .present then base.element.creditedFrom else none)

def presentValue (cast : List Vote) : Option String :=
  if state = .present then cast.head?.bind fun base => base.element.normalizedValue else none

def assembleVotes (scope : String) (elementId : String)
    (votes : List (Option Vote)) : Except PyError ElementOutcome := do
  let cast := votes.reduceOption
  let state := elementState policy votes
  let refs := presentRefs state cast
  let element ← candidateElement elementId state refs cast
  match primitives? track elementId with
  | none => .error (.keyError elementId)
  | some names => do
    let facts ← names.mapM (voteFact tenantId state refs scope (presentValue state cast))
    return { elementId, agreement := agreementCount (cast.map Vote.key), element, facts }

def assembleElement (ordered : List TagRun) (elementId : String) : Except PyError ElementOutcome :=
  assembleVotes policy tenantId track (pickScope ordered elementId) elementId
    (ordered.map fun run => run.vote elementId)

def requiredNames (entries : List ElementDefinition) (branches : List Branch) : List String :=
  let triggers := (entries.filter fun entry => (mappedElements track).contains entry.id).filterMap
    ElementDefinition.trigger
  ((triggers.filter fun name => name != "" && name != exceptionApplies) ++
    ladderNames track branches).dedup.insertionSort (· ≤ ·)

def unsafeResult : ConsensusResult where
  candidateElements := []
  agreement := []
  reviewStatus := .needsReview
  confirmedTags := none
  reasons := ["PARTIAL_FACTS_UNSAFE"]
  replicateHashes := hashes

def missingNames (entries : List ElementDefinition) (branches : List Branch)
    (facts : List ConfirmedFact) : List String :=
  (requiredNames track entries branches).filter fun name =>
    !(facts.map ConfirmedFact.name).contains name

def reviewReasons (outcomes : List ElementOutcome) : List String :=
  (outcomes.filter fun outcome => outcome.element.state != .present).map
    fun outcome => "REVIEW:" ++ outcome.elementId

def partialResult (packet : EvidencePacket) (pack : RulePackSnapshot)
    (tenantId : String) (tagRevision : Nat) (ruleGaps : List String) (ordered : List TagRun)
    (header : Header) (outcomes : List ElementOutcome) (facts : List ConfirmedFact) :
    Except PyError ConsensusResult :=
  let elements := outcomes.map ElementOutcome.element
  let agreement := outcomes.map fun outcome => (outcome.elementId, outcome.agreement)
  if elements.all fun element => element.state == .present then
    .ok {
      candidateElements := elements
      agreement := agreement
      reviewStatus := .needsReview
      confirmedTags := none
      reasons := ["PARTIAL_FACTS_REVIEW_REQUIRED"]
      replicateHashes := hashes }
  else
    match ordered with
    | [] => .error (.valueError "ordered")
    | first :: _ => do
      let tags ← assembleTags hashes packet pack tenantId tagRevision header facts first
      return {
        candidateElements := elements
        agreement := agreement
        reviewStatus := .needsReview
        confirmedTags := some tags
        reasons := sortedReasons (ruleGaps ++ reviewReasons outcomes)
        replicateHashes := hashes }

def partialTags (packet : EvidencePacket) (pack : RulePackSnapshot)
    (tenantId : String) (tagRevision : Nat) (ruleGaps : List String) (ordered : List TagRun)
    (header : Header) : Except PyError ConsensusResult := do
  let outcomes ← packet.allowedElements.mapM
    (assembleElement policy tenantId header.track ordered)
  let entries ← pack.elementsFile
  let rubric ← pack.rubricFile header.track
  let facts := outcomes.flatMap ElementOutcome.facts
  let unvoted ← (missingNames header.track entries rubric.branches facts).mapM
    (voteFact tenantId .unknown [] "local_claim" none)
  partialResult hashes packet pack tenantId tagRevision ruleGaps ordered header outcomes
    (facts ++ unvoted)

/-- `_partial_facts`. -/
def partialFacts (packet : EvidencePacket) (pack : RulePackSnapshot)
    (tenantId : String) (tagRevision : Nat) (ruleGaps : List String) (ordered : List TagRun) :
    Except PyError ConsensusResult :=
  match soleHeader ordered with
  | some header =>
    if (some header.track, header.safeHarborCategory) ≠ (packet.track, packet.safeHarborCategory) ∨
        providerReplay ordered ∨ isFatal policy ordered then
      .ok (unsafeResult hashes)
    else
      partialTags policy hashes packet pack tenantId tagRevision ruleGaps ordered header
  | none => .ok (unsafeResult hashes)

/-! ### The strict profile -/

structure StrictKey where
  state : ElementState
  (normalizedValue binding : Option String)
  deriving DecidableEq

def Vote.strictKey (vote : Vote) : StrictKey where
  state := vote.element.state
  normalizedValue := vote.element.normalizedValue
  binding := vote.binding

def mostCommon {κ : Type*} [DecidableEq κ] (keys : List κ) : Option (κ × Nat) :=
  match keys.eraseDups.map fun key => (key, keys.count key) with
  | [] => none
  | head :: rest =>
    some (rest.foldl (fun best next => if best.2 < next.2 then next else best) head)

/-- What the strict loop records of one element. -/
structure StrictOutcome where
  elementId : String
  agreement : Nat
  candidate : Option LlmElement
  facts : List ConfirmedFact
  reasons : List String

def strictMajority (track : Option Track) (ordered : List TagRun)
    (elementId : String) (count : Nat) (winners : List Vote) : Except PyError StrictOutcome :=
  match winners with
  | [] => .error (.valueError "winners")
  | winner :: _ => do
    let refs := (winners.flatMap fun vote => vote.element.evidenceRefs).eraseDups
    let candidate ← replaceElement winner.element winner.element.state refs
      winner.element.normalizedValue winner.element.creditedFrom
    let review := if count ≠ 3 ∨ candidate.state = .unknown ∨ candidate.state = .conflict then
        ["REVIEW:" ++ elementId]
      else []
    match track with
    | none =>
      return { elementId, agreement := count, candidate := some candidate, facts := []
               reasons := review }
    | some track =>
      match primitives? track elementId with
      | none =>
        return { elementId, agreement := count, candidate := some candidate, facts := []
                 reasons := review ++ ["ELEMENT_TRACK_MISMATCH:" ++ elementId] }
      | some names => do
        let facts ← names.mapM (voteFact tenantId candidate.state refs
          (pickScope ordered elementId) candidate.normalizedValue)
        return { elementId, agreement := count, candidate := some candidate, facts
                 reasons := review }

def strictElement (track : Option Track) (ordered : List TagRun)
    (elementId : String) : Except PyError StrictOutcome :=
  let votes := ordered.flatMap fun run => run.votes elementId
  let noMajority := fun count : Nat =>
    { elementId, agreement := count, candidate := none, facts := []
      reasons := ["NO_MAJORITY:" ++ elementId] : StrictOutcome }
  match mostCommon (votes.map Vote.strictKey) with
  | none => .ok (noMajority 0)
  | some (key, count) =>
    if count < 2 then
      .ok (noMajority count)
    else
      strictMajority tenantId track ordered elementId count
        (votes.filter fun vote => vote.strictKey == key)

def strictReasons (ruleGaps : List String) (ordered : List TagRun) : List String :=
  let headers := (ordered.filterMap TagRun.header).dedup
  ruleGaps ++
    (if providerReplay ordered then ["PROVIDER_RESPONSE_REPLAY"] else []) ++
    (if ordered.any fun run => run.status != "succeeded" || !run.errors.isEmpty ||
        run.guarded.isNone then ["REPLICA_UNRESOLVED"] else []) ++
    (if headers.length ≠ 1 then ["TRACK_CATEGORY_SUPERLATIVE_DISAGREEMENT"] else []) ++
    (if headers.any fun header => (some header.track, header.safeHarborCategory) !=
        (packet.track, packet.safeHarborCategory) then ["PACKET_TRACK_MISMATCH"] else [])

def strictTags (packet : EvidencePacket) (pack : RulePackSnapshot)
    (tenantId : String) (tagRevision : Nat) (ordered : List TagRun) (reasons : List String)
    (facts : List ConfirmedFact) : Except PyError (Option ConfirmedTags) :=
  match reasons, soleHeader ordered, ordered with
  | [], some header, first :: _ => do
    let tags ← assembleTags hashes packet pack tenantId tagRevision header facts first
    return some tags
  | _, _, _ => .ok none

def strictFacts (packet : EvidencePacket) (pack : RulePackSnapshot)
    (tenantId : String) (tagRevision : Nat) (ruleGaps : List String) (ordered : List TagRun) :
    Except PyError ConsensusResult := do
  let track := (soleHeader ordered).map Header.track
  let outcomes ← packet.allowedElements.mapM (strictElement tenantId track ordered)
  let reasons := strictReasons packet ruleGaps ordered ++ outcomes.flatMap StrictOutcome.reasons
  let confirmed ← strictTags hashes packet pack tenantId tagRevision ordered reasons
    (outcomes.flatMap StrictOutcome.facts)
  return {
    candidateElements := outcomes.filterMap StrictOutcome.candidate
    agreement := outcomes.map fun outcome => (outcome.elementId, outcome.agreement)
    reviewStatus := if confirmed.isSome then .autoConfirmed else .needsReview
    confirmedTags := confirmed
    reasons := sortedReasons reasons
    replicateHashes := hashes }

/-- `form_consensus`. -/
def formConsensus (semanticHash : TagRun → String) (runs : List TagRun) (packet : EvidencePacket)
    (pack : RulePackSnapshot) (tenantId : String) (tagRevision : Nat) (ruleGaps : List String)
    (profileName : String) : Except PyError ConsensusResult := do
  let profile ← Profile.parse profileName
  let _ ← checkPacket packet pack
  let ordered ← checkRuns packet pack tenantId runs
  let hashes := ordered.map semanticHash
  match profile.partialPolicy with
  | some policy =>
    partialFacts policy hashes packet pack tenantId tagRevision ruleGaps ordered
  | none => strictFacts hashes packet pack tenantId tagRevision ruleGaps ordered

end ProofOps.Application.Tagging
