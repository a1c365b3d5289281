import ProofOps.Adapters.Local.AuditStore
import ProofOps.Adapters.Local.JobStore
import ProofOps.Application.Reviews

/-!
# The local review store

`LocalSQLiteReviewStore` keeps reviews, tags and decisions as further kinds of job
records.  Revisions, inputs and replays are insert-only; the two heads of a claim and of
a review are replaced.  A publication joins the transaction of its caller, a resolution
is one of its own.
-/

namespace ProofOps.Adapters.Local.ReviewStore

open Foundation Application.Reviews Domain.Audit

/-! ### Records -/

/-- A `claim_head` row. -/
structure ClaimHead where
  (tenantId runId claimId : String)
  (tagRevision decisionRevision : Nat)
  deriving DecidableEq

def ClaimHead.key (head : ClaimHead) : ClaimKey :=
  (head.tenantId, head.runId, head.claimId)

/-- A `review_inputs` row. -/
structure InputsRow where
  (tenantId runId reviewId snapshot : String)

def InputsRow.key (row : InputsRow) : ReviewKey :=
  (row.tenantId, row.runId, row.reviewId)

/-- What `resolve` answers. -/
structure Response where
  review : Review
  decisionApi : String
  newTagRevision : Nat
  deriving DecidableEq

structure Resolution where
  response : Response
  (resolvedBy resolvedAt : String)

/-- A `review_revision` row. -/
structure ReviewRevision where
  review : Review
  resolution : Option Resolution

def ReviewRevision.key (row : ReviewRevision) : ReviewKey × Nat :=
  (row.review.key, row.review.revision)

/-- A `review_idempotency` row. -/
structure Replay where
  (tenantId runId recordId requestHash : String)
  response : Response

def Replay.key (replay : Replay) : String × String × String :=
  (replay.tenantId, replay.runId, replay.recordId)

/-- `LocalSQLiteReviewStore`. -/
structure Reviews where
  heads : Table Review Review.key
  inputs : Table InputsRow InputsRow.key
  tags : Table TagRecord TagRecord.key
  decisions : Table DecisionRecord DecisionRecord.key
  claimHeads : Table ClaimHead ClaimHead.key
  revisions : Table ReviewRevision ReviewRevision.key
  replays : Table Replay Replay.key
  audit : AuditStore.AuditDatabase

def Reviews.initial (audit : AuditStore.AuditDatabase) : Reviews where
  heads := Table.empty
  inputs := Table.empty
  tags := Table.empty
  decisions := Table.empty
  claimHeads := Table.empty
  revisions := Table.empty
  replays := Table.empty
  audit := audit

variable (rules : ReviewRules) (reviews : Reviews)

def decidedHeads (key : RunKey) : Nat :=
  (reviews.claimHeads.rows.filter fun head =>
    (head.tenantId, head.runId) = key ∧
      (reviews.decisions.find (head.key, head.decisionRevision)).any fun record =>
        record.decision.decisionStatus = "decided").length

variable (hooks : Hooks Reviews)

def reviewHooks (deleted : String → String → Bool) : Hooks Reviews :=
  { hooks with versionDeleted := fun _ => deleted, decidedHeads := decidedHeads }

abbrev Store := JobStore Reviews

def ofRefusal : Refusal → ReviewError
  | .notFound => .keyError
  | .conflict message => .valueError message
  | .leaseLost message => .valueError message
  | .valueError message => .valueError message
  | .integrity => .integrity

variable (store : Store)

/-- `_run`. -/
def findRun (key : RunKey) : Except ReviewError RunRecord :=
  match getRun hooks store key with
  | .ok run => .ok run
  | .error _ => .error (.rejected "RESOURCE_NOT_FOUND" 404)

def named (tenantId reviewId : String) : List Review :=
  store.rest.heads.rows.filter fun review => review.tenantId = tenantId ∧ review.reviewId = reviewId

def lookup (tenantId reviewId : String) : Except ReviewError Review :=
  match named store tenantId reviewId with
  | [review] => (findRun hooks store (tenantId, review.runId)).map fun _ => review
  | _ => .error (.rejected "RESOURCE_NOT_FOUND" 404)

/-- `_get` of a record. -/
def getRecord {α κ : Type} [DecidableEq κ] {key : α → κ} (table : Table α key) (k : κ) :
    Except ReviewError α :=
  match table.find k with
  | some row => .ok row
  | none => .error .keyError

def putImmutable {α κ : Type} [DecidableEq κ] {key : α → κ} (table : Table α key) (row : α) :
    Except ReviewError (Table α key) :=
  table.insertOr .integrity row

def appendAudit (audit : AuditStore.AuditDatabase) (change : ChangeSet)
    (eventId timestamp : String) : Except ReviewError AuditStore.AuditDatabase :=
  match AuditStore.appendTransaction rules.audit audit
      ⟨change, AuditStore.readHead audit change.stream, eventId, timestamp⟩ with
  | (.ok _, after) => .ok after
  | (.error error, _) => .error (.audit error)

def bump (key : RunKey) (refresh : Bool) : Except ReviewError Store := do
  let run ← findRun hooks store key
  match bumpRun hooks store run none refresh with
  | .ok (_, bumped) => .ok bumped
  | .error refusal => .error (ofRefusal refusal)

/-! ### Publishing -/

variable (inputs : ReviewInputs)

def publishedTag : TagRecord where
  tenantId := inputs.tenantId
  runId := inputs.runId
  claimId := inputs.claimId
  tagRevision := inputs.tagRevision
  confirmedTags := inputs.confirmedTags
  elements := inputs.candidateElements
  origin := "consensus"
  inputs := some (rules.snapshot inputs)
  inputSnapshotSha256 := none
  reviewerSub := none
  reviewReason := none
  createdAt := none
  attachments :=
    (inputs.factAssembly.toList.map fun assembly => ("fact_assembly", assembly)) ++
      inputs.reportLevelLink.toList.flatMap fun link =>
        [("report_level_link", link), ("report_level_review", inputs.reportLevelReview)]

def publishedDecision (decision : Decision) : DecisionRecord where
  tenantId := inputs.tenantId
  runId := inputs.runId
  claimId := inputs.claimId
  decision := decision
  factAssembly := inputs.factAssembly

def putDecision (decisions : Table DecisionRecord DecisionRecord.key) (inputs : ReviewInputs) :
    Except ReviewError (Table DecisionRecord DecisionRecord.key) :=
  match inputs.decision with
  | some decision => putImmutable decisions (publishedDecision inputs decision)
  | none => .ok decisions

def publishedHead : ClaimHead where
  tenantId := inputs.tenantId
  runId := inputs.runId
  claimId := inputs.claimId
  tagRevision := inputs.tagRevision
  decisionRevision := (inputs.decision.map Decision.decisionRevision).getD 0

def publishedChange (review : Review) : ChangeSet where
  tenantId := inputs.tenantId
  runId := inputs.runId
  actorSub := "system:tagger"
  action := "review_opened"
  targetId := review.reviewId
  beforeHash := none
  afterHash := rules.hashTag (publishedTag rules inputs)
  revision := 1
  reason := some "Tagging queued for human review."

def writePublication (review : Review) (eventId now : String) : Except ReviewError Reviews := do
  let rows ← putImmutable reviews.inputs
    ⟨inputs.tenantId, inputs.runId, review.reviewId, rules.snapshot inputs⟩
  let tags ← putImmutable reviews.tags (publishedTag rules inputs)
  let decisions ← putDecision reviews.decisions inputs
  let revisions ← putImmutable reviews.revisions ⟨review, none⟩
  let audit ← appendAudit rules reviews.audit (publishedChange rules inputs review) eventId now
  return {
    heads := reviews.heads.put review
    inputs := rows
    tags := tags
    decisions := decisions
    claimHeads := reviews.claimHeads.put (publishedHead inputs)
    revisions := revisions
    replays := reviews.replays
    audit := audit }

def checkLive : Except ReviewError Unit :=
  if inputs.localSynthetic then .ok ()
  else rules.validateLive inputs (store.rest.claimHeads.find inputs.claimKey).isSome

def publishTransaction (review : Review) (eventId now : String) :
    Except ReviewError (Review × Store) := do
  let run ← findRun hooks store (inputs.tenantId, inputs.runId)
  if run.documentVersionId ≠ inputs.documentVersionId then
    .error (.rejected "REVIEW_INPUT_MISMATCH" 409)
  else do
    checkLive rules store inputs
    match store.rest.heads.find (inputs.tenantId, inputs.runId, review.reviewId) with
    | some prior => do
      let stored ← getRecord store.rest.inputs (inputs.tenantId, inputs.runId, review.reviewId)
      if rules.canonicalHash stored.snapshot ≠ rules.canonicalHash (rules.snapshot inputs) then
        .error (.rejected "REVIEW_PUBLICATION_CONFLICT" 409)
      else
        return (prior, store)
    | none =>
      match store.rest.claimHeads.find inputs.claimKey with
      | some _ => .error (.rejected "REVIEW_ALREADY_PUBLISHED" 409)
      | none => do
        let rest ← writePublication rules store.rest inputs review eventId now
        return (review, { store with rest := rest })

inductive Bumps where
  | forNew
  | always
  | never

structure Publication where
  inputs : ReviewInputs
  reviewId : Option String
  bumps : Bumps
  (eventId now : String)

def Publication.moves (publication : Publication) (store : Store) (review : Review) : Bool :=
  match publication.bumps with
  | .forNew =>
    (store.rest.heads.find
      (publication.inputs.tenantId, publication.inputs.runId, review.reviewId)).isNone
  | .always => true
  | .never => false

def publish (publication : Publication) : Except ReviewError Store := do
  let review ← makeReview rules publication.inputs publication.reviewId
  let (_, published) ← publishTransaction rules hooks store publication.inputs review
    publication.eventId publication.now
  if publication.moves store review then
    bump hooks published (publication.inputs.tenantId, publication.inputs.runId) false
  else
    .ok published

def publishAll (rules : ReviewRules) (hooks : Hooks Reviews) :
    Store → List Publication → Except ReviewError Store
  | store, [] => .ok store
  | store, publication :: publications => do
    let published ← publish rules hooks store publication
    publishAll rules hooks published publications

/-! ### Resolving -/

def findReplay (tenantId recordId : String) : Option Replay :=
  store.rest.replays.rows.find? fun replay =>
    replay.tenantId = tenantId ∧ replay.recordId = recordId

variable (request : ResolveRequest) (review : Review)

def valid (head : ClaimHead) : Bool :=
  if request.reopen then
    review.revision = request.expected && review.status = .resolved &&
      request.body.baseTagRevision = head.tagRevision
  else
    review.revision = request.expected && review.status = .opened &&
      request.body.baseTagRevision = review.baseTagRevision &&
      head.tagRevision = request.body.baseTagRevision

def resolvedReview : Review :=
  { review with status := .resolved, revision := request.expected + 1 }

def makeResponse (tag : TagRecord) (decision : DecisionRecord) : Response where
  review := resolvedReview request review
  decisionApi := decision.decision.api
  newTagRevision := tag.tagRevision

def resolvedChange (initial tag : TagRecord) (decision : DecisionRecord) : ChangeSet where
  tenantId := request.tenantId
  runId := review.runId
  actorSub := request.userSub
  action := if request.reopen then "review_rereviewed" else "review_resolved"
  targetId := request.reviewId
  beforeHash := some (rules.hashTag initial)
  afterHash := rules.hashChange tag decision
  revision := request.expected + 1
  reason := some request.body.reason

def writeRevisions (tag : TagRecord) (decision : DecisionRecord) : Except ReviewError Reviews := do
  let tags ← putImmutable reviews.tags tag
  let decisions ← putImmutable reviews.decisions decision
  let revisions ← putImmutable reviews.revisions
    ⟨resolvedReview request review,
      some ⟨makeResponse request review tag decision, request.userSub, request.now⟩⟩
  return { reviews with
    heads := reviews.heads.put (resolvedReview request review)
    tags := tags
    decisions := decisions
    claimHeads := reviews.claimHeads.put
      ⟨request.tenantId, review.runId, review.claimId, tag.tagRevision,
        decision.decision.decisionRevision⟩
    revisions := revisions }

def replayRow (response : Response) : Replay where
  tenantId := request.tenantId
  runId := review.runId
  recordId := rules.replayKey request.userSub request.key
  requestHash := rules.requestHash request.reviewId request.body request.expected request.reopen
  response := response

def resolveFresh : Except ReviewError (Response × Store) := do
  let head ← getRecord store.rest.claimHeads (request.tenantId, review.runId, review.claimId)
  if !valid request review head then
    .error (.rejected "STALE_REVIEW_REVISION" 412)
  else do
    let initial ← getRecord store.rest.tags
      ((request.tenantId, review.runId, review.claimId), head.tagRevision)
    let (built, decision) ← build rules request review initial (head.decisionRevision + 1)
    let tag := { built with createdAt := some request.now }
    let written ← writeRevisions store.rest request review tag decision
    let bumped ← bump hooks { store with rest := written } (request.tenantId, review.runId) true
    let audit ← appendAudit rules written.audit
      (resolvedChange rules request review initial tag decision) request.eventId request.now
    let response := makeResponse request review tag decision
    let replays ← putImmutable written.replays (replayRow rules request review response)
    return (response, { bumped with rest := { written with audit := audit, replays := replays } })

inductive Answer where
  | accepted (response : Response)
  | replayed (response : Response)
  deriving DecidableEq

def resolve : Except ReviewError (Answer × Store) := do
  let review ← lookup hooks store request.tenantId request.reviewId
  match findReplay store request.tenantId (rules.replayKey request.userSub request.key) with
  | some previous =>
    if previous.requestHash ≠
        rules.requestHash request.reviewId request.body request.expected request.reopen then
      .error (.rejected "IDEMPOTENCY_CONFLICT" 409)
    else
      return (.replayed previous.response, store)
  | none => do
    let (response, after) ← resolveFresh rules hooks store request review
    return (.accepted response, after)

inductive Call where
  | publish (publications : List Publication) (commits : Bool)
  | resolve (request : ResolveRequest)

def next : Call → Store
  | .publish publications commits =>
    match publishAll rules hooks store publications with
    | .ok after => if commits then after else store
    | .error _ => store
  | .resolve request =>
    match resolve rules hooks store request with
    | .ok (_, after) => after
    | .error _ => store

def start (runs : Table RunRecord RunRecord.key) (audit : AuditStore.AuditDatabase) : Store :=
  { JobStore.initial (Reviews.initial audit) with runs := runs }

end ProofOps.Adapters.Local.ReviewStore
