import ProofOps.Domain.Rules.Engine

/-!
# Tagging runs

What `form_consensus` reads: the three replica receipts of one packet, the
packet's own data and the fact assembly profile.  A receipt holds the guarded
tags of its replica when the replica answered; its vote on an element is the
guarded element together with the binding hash and the scope the guard recorded.
-/

namespace ProofOps.Application.Tagging

open Domain Domain.Rules Foundation.PyText

def IsReplica (replica : Nat) : Prop :=
  replica = 1 ∨ replica = 2 ∨ replica = 3

instance (replica : Nat) : Decidable (IsReplica replica) :=
  inferInstanceAs (Decidable (_ ∨ _ ∨ _))

theorem replica_one : IsReplica 1 :=
  Or.inl rfl

theorem replica_two : IsReplica 2 :=
  Or.inr (Or.inl rfl)

/-- The third replica is one of the three. -/
theorem replica_three : IsReplica 3 :=
  Or.inr (Or.inr rfl)

structure CacheRequest where
  (cacheNamespace requestId requestSignature : String)
  (replicateId extractionEpoch : Nat)
  replicate_known : IsReplica replicateId
  epoch_pos : 1 ≤ extractionEpoch

structure TokenUsage where
  (inputTokens outputTokens cacheReadTokens cacheWriteTokens : Option Nat)
  latencyMs : Nat
  status : String
  (providerRequestId errorCode : Option String)

/-- `TagRun`. -/
structure TagRun where
  request : CacheRequest
  (tenantId runId claimId packetSha256 graphSha256 ruleSha256 modelSha256 promptSha256 : String)
  rawResponseJson : Option String
  usage : Option TokenUsage
  guarded : Option LlmTags
  status : String
  errors : List String
  (sourceScopes bindingHashes : List (String × String))
  (isSynthetic productVariant recovered : Bool)
  (providerResponseJson diagnosticDetail : Option String)

variable (run : TagRun)

/-- The replica a run is of. -/
def TagRun.replicateId : Nat :=
  run.request.replicateId

structure Header where
  track : Track
  safeHarborCategory : Option SafeHarborCategory
  superlativeQuote : Option String
  deriving DecidableEq

def TagRun.header : Option Header :=
  run.guarded.map fun tags =>
    { track := tags.track
      safeHarborCategory := tags.safeHarborCategory
      superlativeQuote := tags.superlativeQuote }

def TagRun.providerRequestId : Option String :=
  (run.usage.bind TokenUsage.providerRequestId).filter fun id => id != ""

def lastValue (entries : List (String × String)) (key : String) : Option String :=
  (entries.reverse.find? fun entry => entry.1 == key).map Prod.snd

structure VoteKey where
  state : ElementState
  (normalizedValue binding sourceScope : Option String)
  deriving DecidableEq

structure Vote where
  element : LlmElement
  (binding sourceScope : Option String)
  deriving DecidableEq

namespace Vote

def key (vote : Vote) : VoteKey where
  state := vote.element.state
  normalizedValue := vote.element.normalizedValue
  binding := vote.binding
  sourceScope := vote.sourceScope

def refsVerified (vote : Vote) : Bool :=
  vote.element.evidenceRefs.all fun ref => ref.verificationState == .verified

end Vote

def TagRun.votes (elementId : String) : List Vote :=
  match run.guarded with
  | none => []
  | some tags =>
    (tags.elements.filter fun element => element.elementId == elementId).map fun element =>
      { element
        binding := lastValue run.bindingHashes elementId
        sourceScope := lastValue run.sourceScopes elementId }

def TagRun.vote (elementId : String) : Option Vote :=
  (run.votes elementId).head?

structure EvidencePacket where
  packetSha256 : String
  retrievalPacketSha256 : Option String
  track : Option Track
  allowedElements : List String
  (tenantId claimId runId graphSha256 documentVersionId : String)
  safeHarborCategory : Option SafeHarborCategory

inductive Profile where
  | strictV1
  | partialFactsV1
  | partialFactsV2
  | gradeRelevantUnanimityV1
  | gradeRelevantUnanimityV2
  | gradeRelevantUnanimityV3
  deriving DecidableEq

def Profile.parse (name : String) : Except PyError Profile :=
  match name with
  | "strict-v1" => .ok .strictV1
  | "partial-facts-v1" => .ok .partialFactsV1
  | "partial-facts-v2" => .ok .partialFactsV2
  | "grade-relevant-unanimity-v1" => .ok .gradeRelevantUnanimityV1
  | "grade-relevant-unanimity-v2" => .ok .gradeRelevantUnanimityV2
  | "grade-relevant-unanimity-v3" => .ok .gradeRelevantUnanimityV3
  | _ => .error (.domainValidation "unknown fact assembly profile")

structure PartialPolicy where
  (citationUnavailable preserveConflict preserveSurvivingConflict : Bool)

def Profile.partialPolicy : Profile → Option PartialPolicy
  | .strictV1 => none
  | profile =>
    some
      { citationUnavailable := profile == .partialFactsV2
        preserveConflict :=
          profile == .gradeRelevantUnanimityV2 || profile == .gradeRelevantUnanimityV3
        preserveSurvivingConflict := profile == .gradeRelevantUnanimityV3 }

/-- `ConsensusResult`. -/
structure ConsensusResult where
  candidateElements : List LlmElement
  agreement : List (String × Nat)
  reviewStatus : ReviewStatus
  confirmedTags : Option ConfirmedTags
  (reasons replicateHashes : List String)

end ProofOps.Application.Tagging
