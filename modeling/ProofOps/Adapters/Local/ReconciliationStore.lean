import ProofOps.Application.Reconciliation.Service
import ProofOps.Foundation.PyJson
import ProofOps.Foundation.Revisions
import ProofOps.Foundation.Sorting

/-!
# The reconciliation case store

`LocalReconciliationStore`: a case is registered once, and reviewed, approved and evaluated
through one compare-and-set of its head with replay.  Every call is one transaction, which an
exception rolls back; what a call reads from elsewhere (the evidence of the claim, the
imported originals, the files, the clock) is part of the call.
-/

namespace ProofOps.Adapters.Local.Reconciliations

open Foundation Domain.Reconciliation Application.Reconciliation Foundation.Checked
open Foundation.PyJson

section

/-- `ReconciliationRejected`. -/
inductive StoreError where
  | rejected (code : String) (status : Nat)
  | service (error : ServiceError)
  | valueError
  | attributeError

structure Auth where
  (tenantId userSub : Option String)
  capabilities : List String

structure CaseKey where
  (tenantId caseId : String)
  deriving DecidableEq

/-! ### Snapshots -/

abbrev Documents := List (String × Slot DocumentEntry)

abbrev Coverage := List (String × Slot CoverageEntry)

structure ArtifactEntry where
  (path format sha256 : String)

abbrev Artifacts := List (String × ArtifactEntry)

def slotOf {α : Type} (registry : List (String × Slot α)) (key : String) : Slot α :=
  (registry.lookup key).getD .missing

structure Provenance where
  (tenantId runId claimId documentVersionId companyId : String)
  (tagRevision mutationEpoch : Nat)
  claimSourceQuality : String
  claimTrack : Track
  (importedBy importedAt packetSha256 policySha256 documentsSha256 artifactsSha256 : String)

structure Snapshot where
  (caseId runId claimId : String)
  item : Item
  synthetic : Bool
  packet : Packet
  policy : Policy
  documents : Documents
  artifacts : Artifacts
  coverage : Coverage
  provenance : Provenance

/-- A row of `reconciliation_case`. -/
structure CaseRow where
  key : CaseKey
  (createdAt createdBy : String)
  snapshot : Snapshot

/-- A row of `reconciliation_source`. -/
structure SourceRow where
  case : CaseKey
  source : Source
  (format storedPath : String)
  byteSize : Nat

def SourceRow.key (row : SourceRow) : CaseKey × String :=
  (row.case, row.source.sourceId)

inductive ReviewState where
  | pending
  | reviewed
  deriving DecidableEq

structure ReviewEvent where
  (actor createdAt reason : String)
  (confirmSourceBindings confirmDecisionBindings confirmSearchCoverage : Bool)
  (documentsSha256 packetSha256 coverageSha256 : String)

structure ApprovalEvent where
  (actor createdAt : String)
  approved : Bool
  (reason policySha256 policyVersion sourcePolicySha256 : String)
  syntheticOnly : Bool

structure Evaluation (Projection : Type) where
  result : Application.Reconciliation.Reply
  projection : Projection
  provenance : Provenance
  (evaluatedBy evaluatedAt : String)
  reviewState : ReviewState
  policyApproved : Bool

/-- What a revision of a case records. -/
inductive Payload (Projection : Type) where
  | registration (provenance : Provenance) (actor : String)
  | review (event : ReviewEvent)
  | policyApproval (event : ApprovalEvent)
  | evaluation (record : Evaluation Projection)

variable {Projection : Type}

/-- A row of `reconciliation_revision`. -/
structure RevisionRow (Projection : Type) where
  case : CaseKey
  revision : Nat
  (actor createdAt : String)
  payload : Payload Projection
  payloadSha256 : String

def RevisionRow.key (row : RevisionRow Projection) : CaseKey × Nat :=
  (row.case, row.revision)

/-- A row of `reconciliation_head`. -/
structure HeadRow where
  case : CaseKey
  revision : Nat
  reviewState : ReviewState
  (policyApproved coverageConfirmed : Bool)
  approval : Option ApprovalEvent
  latestResultRevision : Option Nat
  updatedAt : String

structure SourceView where
  source : Source
  format : String
  byteSize : Nat
  bindingState : String
  documentRole : Option DocumentRole

structure LatestResult (Projection : Type) where
  revision : Nat
  result : Option Application.Reconciliation.Reply
  projection : Option Projection
  createdAt : String

/-- A case as it is shown to its tenant. -/
structure Detail (Projection : Type) where
  (caseId runId claimId : String)
  item : Item
  revision : Nat
  synthetic : Bool
  reviewState : ReviewState
  policyApproved : Bool
  packet : Packet
  policy : Policy
  sources : List SourceView
  latestResult : Option (LatestResult Projection)
  provenance : Provenance
  coverageConfirmed : Bool
  policyApproval : Option ApprovalEvent

/-- The mutations of a registered case. -/
inductive Operation where
  | review
  | policyApproval
  | evaluation
  deriving DecidableEq

/-- A row of `reconciliation_idempotency`. -/
structure IdempotencyRow (Projection : Type) where
  case : CaseKey
  operation : Operation
  (idempotencyKey requestSha256 : String)
  response : Detail Projection

def IdempotencyRow.key (row : IdempotencyRow Projection) : CaseKey × Operation × String :=
  (row.case, row.operation, row.idempotencyKey)

/-- `LocalReconciliationStore`. -/
structure Store (Projection : Type) where
  cases : Table CaseRow CaseRow.key
  heads : Table HeadRow HeadRow.case
  revisions : Table (RevisionRow Projection) RevisionRow.key
  sources : Table SourceRow SourceRow.key
  idempotency : Table (IdempotencyRow Projection) IdempotencyRow.key

def Store.initial : Store Projection where
  cases := Table.empty
  heads := Table.empty
  revisions := Table.empty
  sources := Table.empty
  idempotency := Table.empty

/-! ### Reads -/

def notFound : StoreError := .rejected "RESOURCE_NOT_FOUND" 404

variable (store : Store Projection)

def caseRow (key : CaseKey) : Except StoreError CaseRow :=
  match store.cases.find key with
  | some row => .ok row
  | none => .error notFound

def headRow (key : CaseKey) : Except StoreError HeadRow :=
  match store.heads.find key with
  | some row => .ok row
  | none => .error notFound

def sourcesOf (key : CaseKey) : List SourceRow :=
  Sorting.sortedBy (fun row => row.source.sourceId)
    (store.sources.rows.filter fun row => row.case = key)

def documentRole (documents : Documents) (documentId : String) :
    Except StoreError (Option DocumentRole) :=
  match slotOf documents documentId with
  | .missing => .ok none
  | .malformed => .error .attributeError
  | .entry entry => .ok entry.documentRole

def sourceView (documents : Documents) (confirmed : Bool) (row : SourceRow) :
    Except StoreError SourceView := do
  let role ← documentRole documents row.source.documentId
  return ⟨row.source, row.format, row.byteSize, if confirmed then "confirmed" else "draft", role⟩

def Payload.result : Payload Projection → Option Application.Reconciliation.Reply
  | .evaluation record => some record.result
  | _ => none

def Payload.projection : Payload Projection → Option Projection
  | .evaluation record => some record.projection
  | _ => none

def latestResult (head : HeadRow) :
    Option (LatestResult Projection) := do
  let revision ← head.latestResultRevision
  let row ← store.revisions.find (head.case, revision)
  return ⟨revision, row.payload.result, row.payload.projection, row.createdAt⟩

def detail (key : CaseKey) :
    Except StoreError (Detail Projection) := do
  let row ← caseRow store key
  let head ← headRow store key
  let snapshot := row.snapshot
  let sources ← (sourcesOf store key).mapM
    (sourceView snapshot.documents (head.reviewState = .reviewed))
  return {
    caseId := key.caseId
    runId := snapshot.runId
    claimId := snapshot.claimId
    item := snapshot.item
    revision := head.revision
    synthetic := snapshot.synthetic
    reviewState := head.reviewState
    policyApproved := head.policyApproved
    packet := snapshot.packet
    policy := snapshot.policy
    sources := sources
    latestResult := latestResult store head
    provenance := snapshot.provenance
    coverageConfirmed := head.coverageConfirmed
    policyApproval := head.approval }

end

/-- A validated request body. -/
inductive Request where
  | review (reason : String) (confirmSearchCoverage : Bool)
  | approval (approved : Bool) (reason : String)
  | evaluation

def Request.operation : Request → Operation
  | .review _ _ => .review
  | .approval _ _ => .policyApproval
  | .evaluation => .evaluation

def Request.capability : Request → String
  | .review _ _ => "reviewer"
  | .approval _ _ => "admin"
  | .evaluation => "editor"

structure StoreRules (Projection : Type) where
  service : ServiceRules
  projectResult : Application.Reconciliation.Reply → Packet → Documents → Except StoreError Projection
  documentsSha256 : Documents → String
  artifactsSha256 : Artifacts → String
  coverageSha256 : Coverage → String
  payloadSha256 : Payload Projection → String
  requestSha256 : Request → String
  isDigits : String → Bool
  intOf : String → Option Nat

variable {Projection : Type}

def validationError : StoreError := .rejected "VALIDATION_ERROR" 422

def forbidden : StoreError := .rejected "FORBIDDEN" 403

/-- `_require`. -/
def requireCapability (auth : Auth) (capability : String) : Except StoreError Unit :=
  refuse (capability ∉ auth.capabilities) forbidden

/-- `_text`. -/
def textOr (error : StoreError) : Option String → Except StoreError String
  | some text => if text = "" then .error error else .ok text
  | none => .error error

/-- `_tenant`. -/
def tenantOf (auth : Auth) : Except StoreError String :=
  textOr forbidden auth.tenantId

variable (rules : StoreRules Projection)

def expectedRevision : Json → Except StoreError Nat
  | .null => .error (.rejected "IF_MATCH_REQUIRED" 400)
  | .str text => do
    let value := (PyText.strip text).toList
    let digits := (value.drop 1).dropLast
    refuse (value.length < 3 ∨ value.head? ≠ some '"' ∨ value.getLast? ≠ some '"')
      (.rejected "IF_MATCH_INVALID" 400)
    refuse (rules.isDigits (String.ofList digits) = false ∨ digits.head? = some '0')
      (.rejected "IF_MATCH_INVALID" 400)
    match rules.intOf (String.ofList digits) with
    | some revision => .ok revision
    | none => .error .valueError
  | _ => .error (.rejected "IF_MATCH_INVALID" 400)

def idempotencyKey : Json → Except StoreError String
  | .str key =>
    if 16 ≤ key.length ∧ key.length ≤ 128 then .ok key
    else .error (.rejected "IDEMPOTENCY_KEY_INVALID" 400)
  | _ => .error (.rejected "IDEMPOTENCY_KEY_INVALID" 400)

def mapping : Json → Except StoreError Dict
  | .obj fields => .ok fields
  | _ => .error validationError

def reasonOf (fields : Dict) : Except StoreError String :=
  match Fields.get fields "reason" with
  | some (.str text) =>
    let reason := PyText.strip text
    if 1 ≤ reason.length ∧ reason.length ≤ 2000 then .ok reason else .error validationError
  | _ => .error validationError

def boolOf (fields : Dict) (field : String) : Except StoreError Bool :=
  match Fields.get fields field with
  | some (.bool value) => .ok value
  | _ => .error validationError

def validateReview (body : Json) : Except StoreError Request := do
  let fields ← mapping body
  refuse (Fields.keysAre fields ["reason", "confirm_source_bindings",
    "confirm_decision_bindings", "confirm_search_coverage"] = false) validationError
  let reason ← reasonOf fields
  refuse (Fields.get fields "confirm_source_bindings" ≠ some (.bool true)) validationError
  refuse (Fields.get fields "confirm_decision_bindings" ≠ some (.bool true)) validationError
  let coverage ← boolOf fields "confirm_search_coverage"
  return .review reason coverage

def validateApproval (body : Json) : Except StoreError Request := do
  let fields ← mapping body
  refuse (Fields.keysAre fields ["approved", "reason"] = false) validationError
  let approved ← boolOf fields "approved"
  let reason ← reasonOf fields
  return .approval approved reason

def validateEvaluation (body : Json) : Except StoreError Request := do
  let fields ← mapping body
  refuse (fields ≠ []) validationError
  return .evaluation

/-! ### Registration -/

structure Bundle where
  keys : List String
  packet : Option Packet
  policy : Option Policy
  documents : Option Documents
  artifacts : Option Artifacts
  coverage : Option Coverage

def valueOr {α : Type} (error : StoreError) : Option α → Except StoreError α
  | some value => .ok value
  | none => .error error

def unapproved (policy : Policy) : Policy :=
  { policy with approved := false, approvedBy := none, approvedOn := none }

structure Draft where
  packet : Packet
  policy : Policy
  documents : Documents
  artifacts : Artifacts
  coverage : Coverage

def validateBundle (bundle : Option Bundle) : Except StoreError Draft := do
  let supplied ← valueOr validationError bundle
  refuse (¬(["packet", "policy", "documents", "artifacts"] ⊆ supplied.keys ∧
    supplied.keys ⊆ ["packet", "policy", "documents", "artifacts", "coverage", "policies"]))
    validationError
  let packet ← valueOr validationError supplied.packet
  let policy ← valueOr validationError supplied.policy
  let documents ← valueOr validationError supplied.documents
  let artifacts ← valueOr validationError supplied.artifacts
  let coverage ← valueOr validationError supplied.coverage
  refuse (packet.item = .c5) (.rejected "C5_DISABLED" 422)
  refuse (rules.service.inputSchema packet = false) validationError
  refuse (rules.service.policySchema policy = false) validationError
  refuse (documents = [] ∨ artifacts = []) validationError
  refuse (∃ source ∈ packet.sources,
    (documents.lookup source.documentId).isNone ∨ (artifacts.lookup source.documentId).isNone)
    (.rejected "DOCUMENT_BINDING_MISSING" 422)
  return ⟨packet, unapproved policy, documents, artifacts, coverage⟩

structure ClaimEvidence where
  (tenantId sourceQuality : Option String)
  (documentVersionId quote companyId : String)
  localSynthetic : Bool
  mutationEpoch : Nat
  tagHead : Except StoreError (Nat × Track)

structure Anchor where
  (documentVersionId companyId : String)
  (tagRevision mutationEpoch : Nat)
  sourceQuality : String
  track : Track
  synthetic : Bool

def verifiedClaim (tenantId claimId : String) (evidence : Option ClaimEvidence) (draft : Draft) :
    Except StoreError Anchor := do
  let claim ← valueOr notFound evidence
  refuse (claim.tenantId ≠ some tenantId) notFound
  refuse (claim.sourceQuality ≠ some "verified") (.rejected "CLAIM_NOT_VERIFIED" 422)
  let (tagRevision, track) ← claim.tagHead
  let identity := draft.packet.identity
  refuse (identity.tenantId ≠ tenantId ∨ identity.claimId ≠ claimId ∨
    identity.companyId ≠ claim.companyId ∨
    identity.sustainabilityDocumentVersion ≠ claim.documentVersionId)
    (.rejected "CASE_IDENTITY_MISMATCH" 422)
  refuse (draft.packet.claim.quote ≠ claim.quote) (.rejected "CLAIM_BINDING_MISMATCH" 422)
  refuse (draft.packet.claim.track ≠ track) (.rejected "CLAIM_BINDING_MISMATCH" 422)
  refuse (draft.packet.synthetic ≠ claim.localSynthetic)
    (.rejected "SYNTHETIC_SCOPE_MISMATCH" 422)
  refuse (draft.policy.syntheticOnly = true ∧ claim.localSynthetic = false)
    (.rejected "SYNTHETIC_SCOPE_MISMATCH" 422)
  return ⟨claim.documentVersionId, claim.companyId, tagRevision, claim.mutationEpoch, "verified",
    track, claim.localSynthetic⟩

structure ImportedSource where
  source : Source
  (format storedPath : String)
  byteSize : Nat

/-- A call of `register_case`. -/
structure Registration where
  auth : Auth
  (runId claimId : String)
  bundle : Option Bundle
  evidence : Option ClaimEvidence
  imported : Except StoreError (List ImportedSource)
  (caseId now : String)

def provenanceOf (call : Registration) (tenantId actor : String) (draft : Draft) (anchor : Anchor) :
    Provenance where
  tenantId := tenantId
  runId := call.runId
  claimId := call.claimId
  documentVersionId := anchor.documentVersionId
  companyId := anchor.companyId
  tagRevision := anchor.tagRevision
  mutationEpoch := anchor.mutationEpoch
  claimSourceQuality := anchor.sourceQuality
  claimTrack := anchor.track
  importedBy := actor
  importedAt := call.now
  packetSha256 := rules.service.engine.packetSha256 draft.packet
  policySha256 := rules.service.engine.policySha256 draft.policy
  documentsSha256 := rules.documentsSha256 draft.documents
  artifactsSha256 := rules.artifactsSha256 draft.artifacts

def registrationConflict : StoreError := .rejected "RECONCILIATION_CONFLICT" 409

def insertSources (key : CaseKey) :
    List ImportedSource → Table SourceRow SourceRow.key →
      Except StoreError (Table SourceRow SourceRow.key)
  | [], sources => .ok sources
  | source :: rest, sources => do
    let sources ← sources.insertOr registrationConflict
      ⟨key, source.source, source.format, source.storedPath, source.byteSize⟩
    insertSources key rest sources

/-- The row of a revision. -/
def revisionRow (key : CaseKey) (revision : Nat) (actor createdAt : String)
    (payload : Payload Projection) : RevisionRow Projection :=
  ⟨key, revision, actor, createdAt, payload, rules.payloadSha256 payload⟩

def firstHead (key : CaseKey) (now : String) : HeadRow where
  case := key
  revision := 1
  reviewState := .pending
  policyApproved := false
  coverageConfirmed := false
  approval := none
  latestResultRevision := none
  updatedAt := now

variable (snapshot : Snapshot) (store : Store Projection)

def insertCase (call : Registration) (key : CaseKey) (actor : String) (snapshot : Snapshot)
    (imported : List ImportedSource) :
    Except StoreError (Detail Projection × Store Projection) := do
  let cases ← store.cases.insertOr registrationConflict ⟨key, call.now, actor, snapshot⟩
  let sources ← insertSources key imported store.sources
  let revisions ← store.revisions.insertOr registrationConflict
    (revisionRow rules key 1 actor call.now (.registration snapshot.provenance actor))
  let heads ← store.heads.insertOr registrationConflict (firstHead key call.now)
  let made := { store with cases, sources, revisions, heads }
  let response ← detail made key
  return (response, made)

def registerCase (call : Registration) :
    Except StoreError (Detail Projection × Store Projection) := do
  requireCapability call.auth "admin"
  let tenantId ← tenantOf call.auth
  let draft ← validateBundle rules call.bundle
  let anchor ← verifiedClaim tenantId call.claimId call.evidence draft
  let actor ← textOr forbidden call.auth.userSub
  let imported ← call.imported
  insertCase rules store call ⟨tenantId, call.caseId⟩ actor
    { caseId := call.caseId
      runId := call.runId
      claimId := call.claimId
      item := draft.packet.item
      synthetic := anchor.synthetic
      packet := draft.packet
      policy := draft.policy
      documents := draft.documents
      artifacts := draft.artifacts
      coverage := draft.coverage
      provenance := provenanceOf rules call tenantId actor draft anchor } imported

structure Files where
  read : Source → Option (List UInt8)
  validate : Source → List UInt8 → Bool

def policyRegistry (policy : Policy) (head : HeadRow) : Option (String → Slot PolicyEntry) :=
  if head.policyApproved then
    head.approval.map fun approval sha256 =>
      if sha256 = rules.service.engine.policySha256 policy then
        .entry
          { approved := true
            version := some policy.version
            sourcePolicySha256 := some policy.sourcePolicySha256
            syntheticOnly := some policy.syntheticOnly
            approvedBy := some approval.actor
            approvedOn := some (String.ofList (approval.createdAt.toList.take 10)) }
      else .missing
  else none

variable (head : HeadRow)

def registriesOf : Registries where
  policies := policyRegistry rules snapshot.policy head
  coverage :=
    if head.reviewState = .reviewed ∧ head.coverageConfirmed = true then
      some (slotOf snapshot.coverage)
    else none
  documents := if head.reviewState = .reviewed then some (slotOf snapshot.documents) else none

/-- `_no_candidates`. -/
def serviceOver (files : Files) : ServiceRules :=
  { rules.service with
    sourceReader := files.read
    validator := some files.validate
    explanationSearch := fun _ => some [] }

/-- `_reconcile`. -/
def reconcileCase (files : Files) : Except StoreError Application.Reconciliation.Reply :=
  (reconcile (serviceOver rules files) (registriesOf rules snapshot head) snapshot.packet
    snapshot.policy).mapError .service

/-! ### Mutations -/

structure Mutation where
  auth : Auth
  caseId : String
  (body ifMatch idempotencyKey : Json)
  now : String
  files : Files

structure Change (Projection : Type) where
  payload : Payload Projection
  reviewState : ReviewState
  (policyApproved coverageConfirmed : Bool)
  approval : Option ApprovalEvent
  latestResultRevision : Option Nat

variable (actor now reason : String)

/-- `apply` of a review. -/
def applyReview (confirmSearchCoverage : Bool) : Change Projection where
  payload := .review
    { actor := actor
      createdAt := now
      reason := reason
      confirmSourceBindings := true
      confirmDecisionBindings := true
      confirmSearchCoverage := confirmSearchCoverage
      documentsSha256 := rules.documentsSha256 snapshot.documents
      packetSha256 := rules.service.engine.packetSha256 snapshot.packet
      coverageSha256 := rules.coverageSha256 snapshot.coverage }
  reviewState := .reviewed
  policyApproved := head.policyApproved
  coverageConfirmed := confirmSearchCoverage
  approval := head.approval
  latestResultRevision := head.latestResultRevision

def approvalEvent (approved : Bool) : ApprovalEvent where
  actor := actor
  createdAt := now
  approved := approved
  reason := reason
  policySha256 := rules.service.engine.policySha256 snapshot.policy
  policyVersion := snapshot.policy.version
  sourcePolicySha256 := snapshot.policy.sourcePolicySha256
  syntheticOnly := snapshot.policy.syntheticOnly

/-- `apply` of an approval. -/
def applyApproval (approved : Bool) : Change Projection where
  payload := .policyApproval (approvalEvent rules snapshot actor now reason approved)
  reviewState := head.reviewState
  policyApproved := approved
  coverageConfirmed := head.coverageConfirmed
  approval :=
    if approved then some (approvalEvent rules snapshot actor now reason approved) else none
  latestResultRevision := head.latestResultRevision

def applyEvaluation (revision : Nat) (actor now : String) (files : Files) :
    Except StoreError (Change Projection) := do
  let result ← reconcileCase rules snapshot head files
  let projection ← rules.projectResult result snapshot.packet snapshot.documents
  return {
    payload := .evaluation
      { result := result
        projection := projection
        provenance := snapshot.provenance
        evaluatedBy := actor
        evaluatedAt := now
        reviewState := head.reviewState
        policyApproved := head.policyApproved }
    reviewState := head.reviewState
    policyApproved := head.policyApproved
    coverageConfirmed := head.coverageConfirmed
    approval := head.approval
    latestResultRevision := some revision }

def applyRequest (revision : Nat) (actor now : String) (files : Files) :
    Request → Except StoreError (Change Projection)
  | .review reason coverage => .ok (applyReview rules snapshot head actor now reason coverage)
  | .approval approved reason => .ok (applyApproval rules snapshot head actor now reason approved)
  | .evaluation => applyEvaluation rules snapshot head revision actor now files

def revisionConflict : StoreError := .rejected "REVISION_CONFLICT" 409

def nextHead (change : Change Projection) (now : String) : HeadRow where
  case := head.case
  revision := head.revision + 1
  reviewState := change.reviewState
  policyApproved := change.policyApproved
  coverageConfirmed := change.coverageConfirmed
  approval := change.approval
  latestResultRevision := change.latestResultRevision
  updatedAt := now

structure Attempt where
  key : CaseKey
  (actor idempotencyKey : String)
  expected : Nat
  request : Request
  now : String
  files : Files

def Attempt.idempotency (attempt : Attempt) : CaseKey × Operation × String :=
  (attempt.key, attempt.request.operation, attempt.idempotencyKey)

def advance (rules : StoreRules Projection) (store : Store Projection) (attempt : Attempt)
    (snapshot : Snapshot) : Except StoreError (Detail Projection × Store Projection) := do
  let head ← headRow store attempt.key
  refuse (head.revision ≠ attempt.expected) revisionConflict
  let change ← applyRequest rules snapshot head (head.revision + 1) attempt.actor attempt.now
    attempt.files attempt.request
  let revisions ← store.revisions.insertOr revisionConflict
    (revisionRow rules attempt.key (head.revision + 1) attempt.actor attempt.now change.payload)
  let moved := { store with
    revisions
    heads := store.heads.put (nextHead head change attempt.now) }
  let response ← detail moved attempt.key
  let idempotency ← moved.idempotency.insertOr revisionConflict
    { case := attempt.key
      operation := attempt.request.operation
      idempotencyKey := attempt.idempotencyKey
      requestSha256 := rules.requestSha256 attempt.request
      response := response }
  return (response, { moved with idempotency })

def transact (attempt : Attempt) : Except StoreError (Detail Projection × Store Projection) := do
  refuse (attempt.key.caseId = "") notFound
  let row ← caseRow store attempt.key
  match store.idempotency.find attempt.idempotency with
  | some replay => do
    refuse (replay.requestSha256 ≠ rules.requestSha256 attempt.request)
      (.rejected "IDEMPOTENCY_CONFLICT" 409)
    return (replay.response, store)
  | none => advance rules store attempt row.snapshot

def attemptOf (call : Mutation) (request : Request) : Except StoreError Attempt := do
  requireCapability call.auth request.capability
  let tenantId ← tenantOf call.auth
  let key ← idempotencyKey call.idempotencyKey
  let expected ← expectedRevision rules call.ifMatch
  let actor ← textOr forbidden call.auth.userSub
  return ⟨⟨tenantId, call.caseId⟩, actor, key, expected, request, call.now, call.files⟩

def requestOf (operation : Operation) (body : Json) : Except StoreError Request :=
  match operation with
  | .review => validateReview body
  | .policyApproval => validateApproval body
  | .evaluation => validateEvaluation body

def mutate (operation : Operation) (call : Mutation) :
    Except StoreError (Detail Projection × Store Projection) := do
  let request ← requestOf operation call.body
  let attempt ← attemptOf rules call request
  transact rules store attempt

/-- The calls that write to the store. -/
inductive Call where
  | register (call : Registration)
  | mutate (operation : Operation) (call : Mutation)

def answer :
    Call → Except StoreError (Detail Projection × Store Projection)
  | .register call => registerCase rules store call
  | .mutate operation call => mutate rules store operation call

def next (call : Call) : Store Projection :=
  match answer rules store call with
  | .ok (_, store) => store
  | .error _ => store

end ProofOps.Adapters.Local.Reconciliations
