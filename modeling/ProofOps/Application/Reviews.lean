import ProofOps.Domain.Audit

/-!
# Reviews

The values that `ReviewService` hands to its store: the inputs of a review, the review
that is opened on them, and the tag and the decision that a resolution builds.  The
checks of the facts themselves are parameters; which revision a result gets is not.
-/

namespace ProofOps.Application.Reviews

open Domain.Audit

/-- `ReviewRejected`. -/
inductive ReviewError where
  | rejected (code : String) (status : Nat)
  | keyError
  | valueError (message : String)
  | integrity
  | audit (error : AuditError)
  deriving DecidableEq

structure Decision where
  decisionRevision : Nat
  (decisionStatus decision api : String)

/-- `ReviewInputs`. -/
structure ReviewInputs where
  (tenantId runId claimId documentVersionId : String)
  (localSynthetic rulepackApproved : Bool)
  tagRevision : Nat
  reasons : List String
  confirmedTags : Option String
  candidateElements : String
  decision : Option Decision
  (factAssembly reportLevelLink : Option String)
  (reportLevelReview content : String)

inductive ReviewStatus where
  | opened
  | resolved
  deriving DecidableEq

structure Review where
  (tenantId runId reviewId claimId : String)
  status : ReviewStatus
  (revision baseTagRevision : Nat)
  reasonCodes : List String
  deriving DecidableEq

/-- `(tenant, run, claim)`. -/
abbrev ClaimKey := String × String × String

/-- `(tenant, run, review)`. -/
abbrev ReviewKey := String × String × String

def ReviewInputs.claimKey (inputs : ReviewInputs) : ClaimKey :=
  (inputs.tenantId, inputs.runId, inputs.claimId)

def Review.key (review : Review) : ReviewKey :=
  (review.tenantId, review.runId, review.reviewId)

def Review.claimKey (review : Review) : ClaimKey :=
  (review.tenantId, review.runId, review.claimId)

structure TagRecord where
  (tenantId runId claimId : String)
  tagRevision : Nat
  confirmedTags : Option String
  (elements origin : String)
  (inputs inputSnapshotSha256 reviewerSub reviewReason createdAt : Option String)
  attachments : List (String × String)

def TagRecord.key (tag : TagRecord) : ClaimKey × Nat :=
  ((tag.tenantId, tag.runId, tag.claimId), tag.tagRevision)

/-- A `decision_revision` row. -/
structure DecisionRecord where
  (tenantId runId claimId : String)
  decision : Decision
  factAssembly : Option String

def DecisionRecord.key (record : DecisionRecord) : ClaimKey × Nat :=
  ((record.tenantId, record.runId, record.claimId), record.decision.decisionRevision)

structure ResolutionBody where
  baseTagRevision : Nat
  (track elements reason : String)
  trusted : Option String

structure Provenance where
  (origin reviewStatus : String)
  reviewerSub : Option String
  extraTag : List (String × String)

/-- What the rules made of confirmed tags. -/
structure Judgement where
  (confirmedTags elements decisionStatus decision api : String)
  attachments : List (String × String)

structure ReviewRules where
  validate : ReviewInputs → Except ReviewError Unit
  isUuid : String → Bool
  snapshot : ReviewInputs → String
  canonicalHash : String → String
  uuid5 : String → String
  hashTag : TagRecord → String
  hashChange : TagRecord → DecisionRecord → String
  replayKey : String → String → String
  requestHash : String → ResolutionBody → Nat → Bool → String
  validateLive : ReviewInputs → Bool → Except ReviewError Unit
  judge : ReviewInputs → Review → TagRecord → ResolutionBody → Provenance → Bool → Nat →
    Except ReviewError Judgement
  audit : AuditRules

def approvalReasons (inputs : ReviewInputs) : List String :=
  if inputs.localSynthetic || inputs.rulepackApproved then []
  else ["RULEPACK_APPROVAL_REQUIRED"]

/-- `ReviewService._review`. -/
def makeReview (rules : ReviewRules) (inputs : ReviewInputs) (reviewId : Option String) :
    Except ReviewError Review := do
  rules.validate inputs
  let reviewId :=
    match reviewId with
    | some given => given
    | none => rules.uuid5 (rules.canonicalHash (rules.snapshot inputs))
  if rules.isUuid reviewId then
    return {
      tenantId := inputs.tenantId
      runId := inputs.runId
      reviewId := reviewId
      claimId := inputs.claimId
      status := .opened
      revision := 1
      baseTagRevision := inputs.tagRevision
      reasonCodes := inputs.reasons ++ approvalReasons inputs }
  else
    .error (.valueError "review_id")

def pinnedSnapshot (rules : ReviewRules) (initial : TagRecord) : Option String :=
  match initial.inputs with
  | some snapshot => some (rules.canonicalHash snapshot)
  | none => initial.inputSnapshotSha256

/-- What the service hands to `resolve`. -/
structure ResolveRequest where
  (tenantId userSub reviewId : String)
  body : ResolutionBody
  expected : Nat
  key : String
  reopen : Bool
  inputs : ReviewInputs
  provenance : Provenance
  (eventId now : String)

def build (rules : ReviewRules) (request : ResolveRequest) (review : Review) (initial : TagRecord)
    (decisionRevision : Nat) : Except ReviewError (TagRecord × DecisionRecord) := do
  rules.validate request.inputs
  let snapshot := rules.canonicalHash (rules.snapshot request.inputs)
  if pinnedSnapshot rules initial ≠ some snapshot then
    .error (.rejected "REVIEW_INPUT_MISMATCH" 409)
  else do
    let judgement ← rules.judge request.inputs review initial request.body request.provenance
      request.reopen decisionRevision
    let tag : TagRecord := {
      tenantId := request.tenantId
      runId := review.runId
      claimId := review.claimId
      tagRevision := request.body.baseTagRevision + 1
      confirmedTags := some judgement.confirmedTags
      elements := judgement.elements
      origin := request.provenance.origin
      inputs := none
      inputSnapshotSha256 := some snapshot
      reviewerSub := some (request.provenance.reviewerSub.getD request.userSub)
      reviewReason := some request.body.reason
      createdAt := none
      attachments := judgement.attachments ++ request.provenance.extraTag }
    let decision : DecisionRecord := {
      tenantId := request.tenantId
      runId := review.runId
      claimId := review.claimId
      decision := {
        decisionRevision := decisionRevision
        decisionStatus := judgement.decisionStatus
        decision := judgement.decision
        api := judgement.api }
      factAssembly := (judgement.attachments.find? fun entry => entry.1 = "fact_assembly").map
        Prod.snd }
    return (tag, decision)

/-- Building a resolution takes the tag and the decision one revision further. -/
theorem build_ok {rules : ReviewRules} {request : ResolveRequest} {review : Review}
    {initial : TagRecord} {decisionRevision : Nat} {tag : TagRecord} {decision : DecisionRecord}
    (h : build rules request review initial decisionRevision = .ok (tag, decision)) :
    tag.key = ((request.tenantId, review.runId, review.claimId), request.body.baseTagRevision + 1) ∧
      decision.key = ((request.tenantId, review.runId, review.claimId), decisionRevision) := by
  obtain ⟨⟨⟩, -, h⟩ := Foundation.Checked.bind_ok h
  simp only at h
  split_ifs at h
  obtain ⟨judgement, -, h⟩ := Foundation.Checked.bind_ok h
  cases Foundation.Checked.pure_ok h
  exact ⟨rfl, rfl⟩

end ProofOps.Application.Reviews
