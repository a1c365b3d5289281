import Mathlib.Algebra.Order.Field.Rat
import Mathlib.Data.List.Sort
import ProofOps.Foundation.Machine
import ProofOps.Foundation.PyText
import ProofOps.Foundation.Table

/-!
# The local job store

`LocalSQLiteJobStore`: every public method is one immediate transaction, so a
method is a function from the store to its reply and the next store, and a
refusal leaves the store as it was.  The caller's clock is an argument of every
call, and so are the seconds a transaction waited for the writer.
-/

namespace ProofOps.Adapters.Local

open Foundation Foundation.PyText

/-! ### Records of the job store -/

/-- `JobConflict`. -/
inductive Refusal where
  | notFound
  | conflict (message : String)
  | leaseLost (message : String)
  | valueError (message : String)
  | integrity

abbrev Bytes := List UInt8

/-- `JobMessage`. -/
structure JobMessage where
  (tenantId runId documentVersionId jobId stage shard inputHash : String)
  deriving DecidableEq

/-- The states of a job. -/
inductive JobStatus where
  | pending
  | leased
  | succeeded
  | failed
  | cancelled
  | superseded
  deriving DecidableEq

def JobStatus.Settled (status : JobStatus) : Prop :=
  status = .succeeded ∨ status = .cancelled ∨ status = .superseded

structure ArtifactRef where
  (key sha256 : String)
  byteSize : Nat
  deriving DecidableEq

/-- A `job` row. -/
structure JobRecord where
  message : JobMessage
  status : JobStatus
  (attempt retryAttempt fencingToken : Nat)
  leaseOwner : Option String
  (leaseUntil heartbeatAt : Option Int)
  artifactRef : Option ArtifactRef
  errorCode : Option String
  nextAttemptAt : ℚ
  deriving DecidableEq

/-- `(tenant, run, job)`. -/
abbrev JobKey := String × String × String

def JobMessage.key (message : JobMessage) : JobKey :=
  (message.tenantId, message.runId, message.jobId)

def JobRecord.key (job : JobRecord) : JobKey :=
  job.message.key

/-- `JobLease`. -/
structure JobLease where
  message : JobMessage
  owner : String
  (fencingToken attempt : Nat)
  leaseUntil : Int
  deriving DecidableEq

def JobLease.key (lease : JobLease) : String × String × Nat × String :=
  (lease.message.tenantId, lease.message.runId, lease.fencingToken, lease.message.jobId)

structure Coverage where
  (pagesTotal pagesProcessed pagesUnreadable pagesUnprocessed chunksDiscovered : Nat)
  (chunksProcessed claimsDiscovered claimsDecided claimsNeedsReview : Nat)
  (fullScope complete : Bool)
  deriving DecidableEq

inductive RunStatus where
  | queued
  | running
  | partially
  | failed
  | completed
  | cancelled
  deriving DecidableEq

/-- The `run` row, record `META`. -/
structure RunRecord where
  (tenantId runId documentVersionId : String)
  status : RunStatus
  (revision mutationEpoch : Nat)
  cancellationRequested : Bool
  currentStage : Option String
  coverage : Option Coverage
  (parseJob extractJob tagJob : Option JobMessage)
  (tagStageStatus claimSnapshotSha256 tagSnapshotSha256 : Option String)
  deriving DecidableEq

/-- `(tenant, run)`. -/
abbrev RunKey := String × String

def RunRecord.key (run : RunRecord) : RunKey :=
  (run.tenantId, run.runId)

def JobMessage.runKey (message : JobMessage) : RunKey :=
  (message.tenantId, message.runId)

def JobRecord.runKey (job : JobRecord) : RunKey :=
  job.message.runKey

/-- The states of a message. -/
inductive EventStatus where
  | pending
  | sent
  | superseded
  deriving DecidableEq

/-- An `outbox` row. -/
structure OutboxEvent where
  eventId : String
  message : JobMessage
  status : EventStatus
  nextAttemptAt : ℚ
  attempts : Nat

variable (event : OutboxEvent)

def OutboxEvent.key : String × String × String :=
  (event.message.tenantId, event.message.runId, event.eventId)

/-- An `artifact` row. -/
structure Artifact where
  (tenantId runId name : String)
  payload : Bytes

def Artifact.key (artifact : Artifact) : String × String × String :=
  (artifact.tenantId, artifact.runId, artifact.name)

/-- What a user may do to a run. -/
inductive Action where
  | cancel
  | retry

structure IdempotencyRecord where
  (tenantId runId recordId requestHash : String)
  response : RunRecord
  expiresAt : Int

def IdempotencyRecord.key (record : IdempotencyRecord) : String × String × String :=
  (record.tenantId, record.runId, record.recordId)

structure ActionRecord where
  (tenantId runId : String)
  revision : Nat
  action : Action
  (actorSub reason : String)
  (before after : RunRecord × List JobRecord)

def ActionRecord.key (record : ActionRecord) : String × String × Nat :=
  (record.tenantId, record.runId, record.revision)

/-- `LocalSQLiteJobStore`. -/
structure JobStore (ρ : Type) where
  runs : Table RunRecord RunRecord.key
  jobs : Table JobRecord JobRecord.key
  events : Table OutboxEvent OutboxEvent.key
  leases : Table JobLease JobLease.key
  artifacts : Table Artifact Artifact.key
  idempotency : Table IdempotencyRecord IdempotencyRecord.key
  actions : Table ActionRecord ActionRecord.key
  rest : ρ

def JobStore.initial {ρ : Type} (rest : ρ) : JobStore ρ where
  runs := Table.empty
  jobs := Table.empty
  events := Table.empty
  leases := Table.empty
  artifacts := Table.empty
  idempotency := Table.empty
  actions := Table.empty
  rest := rest

structure Envelope where
  isObject : Bool
  (schema stageStatus : String)
  pipelineProfile : Option String
  coverage : Option Coverage

/-- `ChangeSet`: what an audit event says. -/
structure AuditChange where
  (tenantId runId actorSub action targetId : String)
  (before after : RunRecord)
  reason : String

/-- `version_is_deleted`. -/
structure Hooks (ρ : Type) where
  versionDeleted : ρ → String → String → Bool
  eventId : JobMessage → String → String
  sha256 : Bytes → String
  actionKey : Action → String → String
  requestHash : Action → Nat → String → String
  decidedHeads : ρ → RunKey → Nat
  headsPublished : ρ → RunKey → Bool
  decode : Bytes → Envelope
  checkParsePins : ρ → JobMessage → Bytes → Except Refusal Unit
  checkParse : ρ → JobMessage → Bytes → Except Refusal Unit
  checkExtract : JobStore ρ → RunRecord → JobMessage → Bytes → Except Refusal Unit
  checkTag : JobStore ρ → RunRecord → JobMessage → Bytes → Option JobMessage → Except Refusal Coverage
  audit : ρ → AuditChange → Except Refusal ρ

variable {ρ : Type}

/-- `_time`. -/
def checkTime (now duration : Int) : Except Refusal Unit :=
  if now < 0 then .error (.valueError "now must be non-negative")
  else if duration < 1 then .error (.valueError "duration must be positive")
  else .ok ()

variable (hooks : Hooks ρ) (store : JobStore ρ)

def getRun (key : RunKey) : Except Refusal RunRecord :=
  match store.runs.find key with
  | none => .error .notFound
  | some run =>
    if hooks.versionDeleted store.rest run.tenantId run.documentVersionId then .error .notFound
    else .ok run

def getJob (message : JobMessage) : Except Refusal JobRecord :=
  match store.jobs.find message.key with
  | none => .error .notFound
  | some job => if job.message = message then .ok job else .error .notFound

/-- `_all(..., "job")`. -/
def jobsOf (key : RunKey) : List JobRecord :=
  store.jobs.rows.filter fun job => job.runKey = key

variable (job : JobRecord)

def JobRecord.expired (now : Int) : Bool :=
  job.leaseUntil.any fun stop => stop ≤ now

def owned (lease : JobLease) (now : Int) : Option (JobRecord × RunRecord) :=
  match getJob store lease.message, getRun hooks store lease.message.runKey with
  | .ok job, .ok run =>
    if run.cancellationRequested ∨ job.status ≠ .leased ∨ job.fencingToken ≠ lease.fencingToken ∨
        job.leaseOwner ≠ some lease.owner ∨ job.attempt ≠ lease.attempt ∨ job.expired now then
      none
    else
      some (job, run)
  | _, _ => none

def activeRunCount (tenantId : String) : Nat :=
  (store.runs.rows.filter fun run =>
    run.tenantId = tenantId ∧ (run.status = .queued ∨ run.status = .running) ∧
      ¬hooks.versionDeleted store.rest run.tenantId run.documentVersionId).length

/-! ### Writing -/

def refreshCoverage (run : RunRecord) (refresh : Bool) : Except Refusal RunRecord :=
  match refresh, run.coverage with
  | true, some coverage =>
    let processed := coverage.claimsDecided + coverage.claimsNeedsReview
    let decided := hooks.decidedHeads store.rest run.key
    if processed < decided then
      .error (.valueError "decided claims exceed processed coverage")
    else
      .ok { run with
        coverage := some
          { coverage with claimsDecided := decided, claimsNeedsReview := processed - decided } }
  | _, _ => .ok run

def RunRecord.bumped (run : RunRecord) (status : Option RunStatus) : RunRecord :=
  { run with
    revision := run.revision + 1
    mutationEpoch := run.mutationEpoch + 1
    status := status.getD run.status }

def bumpRun (run : RunRecord) (status : Option RunStatus) (refresh : Bool) :
    Except Refusal (RunRecord × JobStore ρ) := do
  let run ← refreshCoverage hooks store run refresh
  return (run.bumped status, { store with runs := store.runs.put (run.bumped status) })

def insertRow {α κ : Type} [DecidableEq κ] {key : α → κ} (table : Table α key) (row : α) :
    Except Refusal (Table α key) :=
  table.insertOr .integrity row

variable (message : JobMessage)

def addEvent (now : ℚ) (cause : String) : Except Refusal (JobStore ρ) := do
  let events ← insertRow store.events
    { eventId := hooks.eventId message cause, message := message, status := .pending
      nextAttemptAt := now, attempts := 0 }
  return { store with events := events }

def JobRecord.fresh (now : Int) : JobRecord where
  message := message
  status := .pending
  attempt := 0
  retryAttempt := 0
  fencingToken := 0
  leaseOwner := none
  leaseUntil := none
  heartbeatAt := none
  artifactRef := none
  errorCode := none
  nextAttemptAt := now

def occupant : Option JobRecord :=
  (jobsOf store message.runKey).find? fun job =>
    job.message.jobId = message.jobId ∨
      (job.message.stage = message.stage ∧ job.message.shard = message.shard)

/-- `enqueue`. -/
def enqueue (now : Int) : Except Refusal (JobStore ρ) := do
  let run ← getRun hooks store message.runKey
  if run.cancellationRequested ∨ run.documentVersionId ≠ message.documentVersionId then
    .error (.conflict "run is cancelled or document version differs")
  else
    match occupant store message with
    | some existing =>
      if existing.message = message then .ok store
      else .error (.conflict "immutable stage/shard/input identity conflict")
    | none =>
      addEvent hooks { store with jobs := store.jobs.put (JobRecord.fresh message now) } message
        now "initial"

def createRun (tenantId runId documentVersionId : String) : Except Refusal (JobStore ρ) := do
  let runs ← insertRow store.runs
    { tenantId, runId, documentVersionId, status := .queued, revision := 1, mutationEpoch := 0
      cancellationRequested := false, currentStage := none, coverage := none, parseJob := none
      extractJob := none, tagJob := none, tagStageStatus := none, claimSnapshotSha256 := none
      tagSnapshotSha256 := none }
  return { store with runs := runs }

/-! ### Claiming -/

def isTagJob (key : RunKey) (job : JobRecord) : Bool :=
  job.runKey = key ∧ job.message.stage = "tag"

def isOpenTagJob (key : RunKey) (job : JobRecord) : Bool :=
  isTagJob key job && (job.status == .pending || job.status == .leased)

def isOpenTagEvent (key : RunKey) (event : OutboxEvent) : Bool :=
  event.message.runKey = key ∧ event.status = .pending ∧ event.message.stage = "tag"

def JobRecord.superseded : JobRecord :=
  { job with status := .superseded, fencingToken := job.fencingToken + 1 }

theorem JobRecord.superseded_key : job.superseded.key = job.key := rfl

def OutboxEvent.superseded : OutboxEvent :=
  { event with status := .superseded }

theorem OutboxEvent.superseded_key : event.superseded.key = event.key := rfl

def supersedeTags (key : RunKey) : JobStore ρ :=
  { store with
    jobs := store.jobs.modify (isOpenTagJob key) JobRecord.superseded JobRecord.superseded_key
    events := store.events.modify (isOpenTagEvent key) OutboxEvent.superseded
      OutboxEvent.superseded_key }

variable (run : RunRecord)

def guardExtractContinuation (now : Int) : Except Refusal (JobStore ρ) :=
  if run.tagJob.isSome ∨ run.tagStageStatus.isSome ∨ run.status = .partially ∨
      run.status = .completed ∨ hooks.headsPublished store.rest run.key then
    .error (.valueError "TAG_PUBLICATION_CONFLICT")
  else if store.jobs.rows.any fun job =>
      isTagJob run.key job && job.status == .leased && !job.expired now then
    .error (.valueError "TAG_LEASE_CONFLICT")
  else
    .ok (supersedeTags store run.key)

def claimable (now : Int) : Option (JobRecord × RunRecord) :=
  match getJob store message, getRun hooks store message.runKey with
  | .ok job, .ok run =>
    if run.cancellationRequested ∨ (now : ℚ) < job.nextAttemptAt then none
    else if job.status = .pending ∨ (job.status = .leased ∧ job.expired now) then some (job, run)
    else none
  | _, _ => none

def claimGuard (now : Int) : Except Refusal (JobStore ρ) :=
  if message.stage = "extract" ∧ run.extractJob.isSome then
    guardExtractContinuation hooks store run now
  else
    .ok store

def JobRecord.claimed (owner : String) (now leaseSeconds : Int) : JobRecord :=
  { job with
    status := .leased
    leaseOwner := some owner
    leaseUntil := some (now + leaseSeconds)
    heartbeatAt := some now
    attempt := job.attempt + 1
    fencingToken := job.fencingToken + 1
    retryAttempt := job.retryAttempt + 1 }

def newLease (owner : String) (now leaseSeconds : Int) : JobLease where
  message := message
  owner := owner
  fencingToken := job.fencingToken + 1
  attempt := job.attempt + 1
  leaseUntil := now + leaseSeconds

def grantLease (message : JobMessage) (owner : String)
    (now leaseSeconds : Int) : Except Refusal (Option JobLease × JobStore ρ) := do
  let leases ← insertRow store.leases (newLease job message owner now leaseSeconds)
  let (_, store) ← bumpRun hooks
    { store with jobs := store.jobs.put (job.claimed owner now leaseSeconds), leases := leases }
    run (some .running) false
  return (some (newLease job message owner now leaseSeconds), store)

/-- `claim_job`. -/
def claimJob (owner : String) (now leaseSeconds : Int) :
    Except Refusal (Option JobLease × JobStore ρ) := do
  checkTime now leaseSeconds
  if !nonBlank owner then
    .error (.valueError "owner must be non-empty")
  else
    match claimable hooks store message now with
    | none => .ok (none, store)
    | some (job, run) =>
      match claimGuard hooks store message run now with
      | .error _ => .ok (none, store)
      | .ok guarded => grantLease hooks guarded job run message owner now leaseSeconds

variable (lease : JobLease) (now : Int)

def heartbeat (elapsed : Nat) (leaseSeconds : Int) : Except Refusal (JobLease × JobStore ρ) := do
  checkTime now leaseSeconds
  let current := now + elapsed
  match owned hooks store lease current with
  | none => .error (.leaseLost "LEASE_LOST")
  | some (job, _) =>
    let heartbeatAt := max (job.heartbeatAt.getD current) current
    let leaseUntil := max (job.leaseUntil.getD (current + leaseSeconds)) (current + leaseSeconds)
    let renewed := { job with heartbeatAt := some heartbeatAt, leaseUntil := some leaseUntil }
    -- An identical record is not written again; putting it changes nothing.
    return ({ lease with leaseUntil := leaseUntil }, { store with jobs := store.jobs.put renewed })

/-! ### Committing -/

abbrev Publish (ρ : Type) :=
  ρ → Table OutboxEvent OutboxEvent.key → Except Refusal (ρ × Table OutboxEvent OutboxEvent.key)

variable (payload : Bytes)

def checkPins : Except Refusal Unit :=
  if message.stage = "parse" then hooks.checkParsePins store.rest message payload else .ok ()

def checkParsed (next : Option JobMessage) : Except Refusal Unit :=
  if message.stage = "parse" ∧ next.any fun job =>
      job.stage = "extract" ∧ job.inputHash = message.inputHash then
    hooks.checkParse store.rest message payload
  else
    .error (.valueError "invalid local parse stage checkpoint")

def parseUpdate (message : JobMessage) (payload : Bytes)
    (next : Option JobMessage) : Except Refusal RunRecord := do
  checkPins hooks store message payload
  let envelope := hooks.decode payload
  if envelope.isObject && startsWith envelope.schema "local_parser_checkpoint_" then do
    checkParsed hooks store message payload next
    return { run with
      currentStage := some "extract", coverage := envelope.coverage, parseJob := some message }
  else
    return run

def isExtractSchema (envelope : Envelope) : Bool :=
  envelope.isObject && (envelope.schema == "local_extract_checkpoint_v1" ||
    envelope.schema == "local_extract_checkpoint_v2")

def checkExtracted (message : JobMessage) (payload : Bytes)
    (next : Option JobMessage) : Except Refusal Unit := do
  hooks.checkExtract store run message payload
  if message.stage = "extract" ∧ next.any fun job =>
      job.stage = "tag" ∧ job.inputHash = message.inputHash then
    .ok ()
  else
    .error (.valueError "invalid local extract checkpoint")

def RunRecord.extracted (message : JobMessage) (coverage : Option Coverage)
    (digest : String) : RunRecord :=
  { run with
    currentStage := some "tag"
    coverage := coverage
    extractJob := some message
    claimSnapshotSha256 := some digest }

def extractUpdate (message : JobMessage) (payload : Bytes)
    (next : Option JobMessage) (now : Int) : Except Refusal (RunRecord × JobStore ρ) :=
  let envelope := hooks.decode payload
  if isExtractSchema envelope then do
    checkExtracted hooks store run message payload next
    let store ← guardExtractContinuation hooks store run now
    return (run.extracted message envelope.coverage (hooks.sha256 payload), store)
  else if message.stage = "extract" ∧ run.parseJob.isSome then
    .error (.valueError "local extract requires versioned claim snapshot")
  else
    .ok (run, store)

def RunRecord.tagged (message : JobMessage) (envelope : Envelope)
    (coverage : Coverage) (digest : String) : RunRecord :=
  { run with
    currentStage := some (if envelope.stageStatus = "blocked" then "tag" else "review")
    status := if envelope.pipelineProfile = some "unattended-v1" then .completed else .partially
    coverage := some coverage
    tagJob := some message
    tagStageStatus := some envelope.stageStatus
    tagSnapshotSha256 := some digest }

/-- `validate_tag_commit`. -/
def tagUpdate (message : JobMessage) (payload : Bytes) (next : Option JobMessage)
    (publishes : Bool) : Except Refusal RunRecord :=
  let envelope := hooks.decode payload
  if message.stage = "tag" ∧ run.extractJob.isSome then
    if !envelope.isObject || !publishes then
      .error (.valueError "tag stage requires fenced versioned publication")
    else do
      let coverage ← hooks.checkTag store run message payload next
      return run.tagged message envelope coverage (hooks.sha256 payload)
  else if publishes then
    .error (.valueError "publication hook is restricted to local tag checkpoints")
  else
    .ok run

def checkpointUpdate (message : JobMessage) (payload : Bytes)
    (next : Option JobMessage) (publishes : Bool) (now : Int) :
    Except Refusal (RunRecord × JobStore ρ) := do
  let run ← parseUpdate hooks store run message payload next
  let (run, store) ← extractUpdate hooks store run message payload next now
  let run ← tagUpdate hooks store run message payload next publishes
  return (run, store)

def checkpointName : String :=
  "job/" ++ lease.message.jobId ++ "/attempt/" ++ toString lease.fencingToken ++ "/checkpoint"

def checkpointRef : ArtifactRef where
  key := checkpointName lease
  sha256 := hooks.sha256 payload
  byteSize := payload.length

def JobRecord.committed (ref : ArtifactRef) : JobRecord :=
  { job with status := .succeeded, artifactRef := some ref }

def writeCheckpoint : Except Refusal (JobStore ρ) := do
  let artifacts ← insertRow store.artifacts
    { tenantId := lease.message.tenantId, runId := lease.message.runId
      name := checkpointName lease, payload := payload }
  return { store with
    artifacts := artifacts, jobs := store.jobs.put (job.committed (checkpointRef hooks lease payload)) }

def enqueueNext (next : Option JobMessage) (now : Int) : Except Refusal (JobStore ρ) :=
  match next with
  | none => .ok store
  | some message => enqueue hooks store message now

def runPublish (publish : Option (Publish ρ)) : Except Refusal (JobStore ρ) :=
  match publish with
  | none => .ok store
  | some hook => do
    let (rest, events) ← hook store.rest store.events
    return { store with rest := rest, events := events }

def auditPublish (before after : RunRecord) (message : JobMessage) (stageStatus : String)
    (publishes : Bool) : Except Refusal (JobStore ρ) :=
  if publishes then do
    let rest ← hooks.audit store.rest
      { tenantId := message.tenantId, runId := message.runId, actorSub := "local-tag-worker"
        action := "tag_stage_published", targetId := message.jobId, before := before, after := after
        reason := stageStatus }
    return { store with rest := rest }
  else
    .ok store

def commitOwned (now : Int) (next : Option JobMessage) (publish : Option (Publish ρ)) :
    Except Refusal (JobStore ρ) := do
  let (updated, checked) ← checkpointUpdate hooks store run lease.message payload next
    publish.isSome now
  let written ← writeCheckpoint hooks checked job lease payload
  let queued ← enqueueNext hooks written next now
  let published ← runPublish queued publish
  let (bumped, saved) ← bumpRun hooks published updated none publish.isSome
  auditPublish hooks saved run bumped lease.message (hooks.decode payload).stageStatus
    publish.isSome

def commitJob (now : Int) (wait : Nat) (next : Option JobMessage) (publish : Option (Publish ρ)) :
    Except Refusal (Bool × JobStore ρ) := do
  checkTime now 1
  if next.any fun job => (job.tenantId, job.runId, job.documentVersionId) !=
      (lease.message.tenantId, lease.message.runId, lease.message.documentVersionId) then
    .error (.valueError "next job must belong to the same tenant/run/document version")
  else
    match owned hooks store lease (now + wait) with
    | none => .ok (false, store)
    | some (job, run) => do
      let store ← commitOwned hooks store job run lease payload now next publish
      return (true, store)

def readCheckpoint : Except Refusal (Option Bytes) := do
  let job ← getJob store message
  match job.artifactRef with
  | none => .ok none
  | some ref =>
    match store.artifacts.find (message.tenantId, message.runId, ref.key) with
    | none => .error (.conflict "checkpoint corruption")
    | some artifact =>
      if hooks.sha256 artifact.payload = ref.sha256 ∧ artifact.payload.length = ref.byteSize then
        .ok (some artifact.payload)
      else
        .error (.conflict "checkpoint corruption")

variable (errorCode : String)

def isTransient : Bool :=
  ["MODEL_THROTTLED", "PROVIDER_5XX", "MODEL_TIMEOUT", "NOTE_ACCOUNTING_PENDING"].contains errorCode

def retryDelay (jitter : ℚ) (retryAfter : Option Int) : ℚ :=
  match retryAfter with
  | some seconds => min 60 seconds
  | none => 2 ^ job.retryAttempt * jitter

/-- The job after a failure. -/
def JobRecord.afterFailure (retry : Bool) (errorCode : String) (nextAttemptAt : ℚ) : JobRecord :=
  { job with
    status := if retry then .pending else .failed
    errorCode := some errorCode
    nextAttemptAt := nextAttemptAt }

def statusAfterFailure (key : RunKey) (retry : Bool) : RunStatus :=
  if retry then .running
  else if (jobsOf store key).any fun job => job.status == .succeeded then .partially
  else .failed

def JobRecord.retries : Bool :=
  isTransient errorCode && decide (job.retryAttempt < 3)

def signalRetry (due : ℚ) (retry : Bool) : Except Refusal (JobStore ρ) :=
  if retry then
    addEvent hooks store lease.message due ("retry:" ++ toString lease.fencingToken)
  else
    .ok store

def failOwned (due : ℚ) : Except Refusal (JobRecord × JobStore ρ) := do
  let failed := job.afterFailure (job.retries errorCode) errorCode due
  let signalled ← signalRetry hooks { store with jobs := store.jobs.put failed } lease due
    (job.retries errorCode)
  let (_, bumped) ← bumpRun hooks signalled run
    (some (statusAfterFailure signalled lease.message.runKey (job.retries errorCode))) false
  return (failed, bumped)

/-- `fail_job`. -/
def failJob (now : Int) (wait : Nat) (jitter : ℚ)
    (retryAfter : Option Int) : Except Refusal (JobRecord × JobStore ρ) := do
  checkTime now 1
  if jitter < 0 ∨ 1 < jitter then
    .error (.valueError "jitter must be in [0, 1]")
  else if errorCode = "" then
    .error (.valueError "error_code required")
  else if retryAfter.any fun seconds => seconds < 0 then
    .error (.valueError "now must be non-negative")
  else
    match owned hooks store lease (now + wait) with
    | none => .error (.leaseLost "LEASE_LOST")
    | some (job, run) =>
      failOwned hooks store job run lease errorCode (now + retryDelay job jitter retryAfter)

/-! ### Actions on a run -/

/-- What a user asks to be done to a run. -/
structure ActionRequest where
  (tenantId runId : String)
  expectedRevision : Nat
  (idempotencyKey reason actorSub : String)
  now : Int

def ActionRequest.key (request : ActionRequest) : RunKey :=
  (request.tenantId, request.runId)

def checkAction (request : ActionRequest) : Except Refusal Unit := do
  checkTime request.now 1
  if request.expectedRevision < 1 then
    .error (.conflict "revision must be positive")
  else if request.idempotencyKey.length < 16 ∨ 128 < request.idempotencyKey.length then
    .error (.valueError "invalid idempotency key")
  else if !nonBlank request.reason then
    .error (.valueError "reason required")
  else if !nonBlank request.actorSub then
    .error (.valueError "server actor_sub required")
  else
    .ok ()

variable (action : Action)

def storedAnswer (request : ActionRequest) : Option IdempotencyRecord :=
  (store.idempotency.find (request.tenantId, request.runId,
    hooks.actionKey action request.idempotencyKey)).filter fun stored =>
      request.now < stored.expiresAt

def isCancellable (key : RunKey) (job : JobRecord) : Bool :=
  job.runKey = key ∧ (job.status = .pending ∨ job.status = .leased ∨ job.status = .failed)

def JobRecord.cancelled : JobRecord :=
  { job with status := .cancelled }

theorem JobRecord.cancelled_key : job.cancelled.key = job.key := rfl

def cancelBranch : Except Refusal (RunRecord × JobStore ρ) :=
  if run.status = .completed then
    .error (.conflict "completed run cannot be cancelled")
  else
    bumpRun hooks
      { store with
        jobs := store.jobs.modify (isCancellable run.key) JobRecord.cancelled
          JobRecord.cancelled_key }
      { run with cancellationRequested := true } (some .cancelled) false

def isRetryable (key : RunKey) (job : JobRecord) : Bool :=
  job.runKey = key ∧ job.status = .failed

def JobRecord.putBack (job : JobRecord) : JobRecord :=
  { job with status := .pending, nextAttemptAt := now, retryAttempt := 0 }

theorem JobRecord.putBack_key (job : JobRecord) : (job.putBack now).key = job.key := rfl

/-- The messages of a retry. -/
def addRetryEvents (messages : List JobMessage) (now : Int) (revision : Nat) :
    Except Refusal (JobStore ρ) :=
  messages.foldlM (fun store message =>
    addEvent hooks store message now ("manual:" ++ toString revision)) store

def retryBranch (revision : Nat) : Except Refusal (RunRecord × JobStore ρ) :=
  if (run.status ≠ .partially ∧ run.status ≠ .failed) ∨ run.cancellationRequested then
    .error (.conflict "run is not retryable")
  else if 2 ≤ activeRunCount hooks store run.tenantId then
    .error (.conflict "tenant run limit")
  else do
    let messages := (store.jobs.rows.filter (isRetryable run.key)).map JobRecord.message
    let reset := { store with
      jobs := store.jobs.modify (isRetryable run.key) (JobRecord.putBack now)
        (JobRecord.putBack_key now) }
    let signalled ← addRetryEvents hooks reset messages now revision
    bumpRun hooks signalled run (some .running) false

def actionBranch (run : RunRecord) (request : ActionRequest) :
    Except Refusal (RunRecord × JobStore ρ) :=
  match action with
  | .cancel => cancelBranch hooks store run
  | .retry => retryBranch hooks store run request.now request.expectedRevision

def Action.name : Action → String
  | .cancel => "cancel"
  | .retry => "retry"

def recordAction (before after : JobStore ρ) (action : Action) (run answered : RunRecord)
    (request : ActionRequest) : Except Refusal (JobStore ρ) := do
  let idempotency := after.idempotency.put
    { tenantId := request.tenantId, runId := request.runId
      recordId := hooks.actionKey action request.idempotencyKey
      requestHash := hooks.requestHash action request.expectedRevision request.reason
      response := answered, expiresAt := request.now + 86400 }
  let actions ← insertRow after.actions
    { tenantId := request.tenantId, runId := request.runId, revision := answered.revision
      action := action, actorSub := request.actorSub, reason := request.reason
      before := (run, jobsOf before request.key), after := (answered, jobsOf after request.key) }
  let rest ← hooks.audit after.rest
    { tenantId := request.tenantId, runId := request.runId, actorSub := request.actorSub
      action := action.name, targetId := request.runId, before := run, after := answered
      reason := request.reason }
  return { after with idempotency := idempotency, actions := actions, rest := rest }

def freshAction (run : RunRecord) (request : ActionRequest) :
    Except Refusal (RunRecord × JobStore ρ) :=
  if run.revision ≠ request.expectedRevision then
    .error (.conflict "stale revision")
  else do
    let (answered, acted) ← actionBranch hooks store action run request
    let recorded ← recordAction hooks store acted action run answered request
    return (answered, recorded)

def runAction (request : ActionRequest) : Except Refusal (RunRecord × JobStore ρ) := do
  checkAction request
  let run ← getRun hooks store request.key
  match storedAnswer hooks store action request with
  | some stored =>
    if stored.requestHash ≠ hooks.requestHash action request.expectedRevision request.reason then
      .error (.conflict "idempotency key reused with different request")
    else
      .ok (stored.response, store)
  | none => freshAction hooks store action run request

def pendingOutbox (key : RunKey) (now : Int) : Except Refusal (List OutboxEvent) := do
  checkTime now 1
  let run ← getRun hooks store key
  if run.cancellationRequested then
    return []
  else
    return (store.events.rows.filter fun event =>
      event.message.runKey = key ∧ event.status = .pending ∧ event.nextAttemptAt ≤ (now : ℚ)).insertionSort
        fun first second => first.nextAttemptAt < second.nextAttemptAt ∨
          (first.nextAttemptAt = second.nextAttemptAt ∧ first.eventId ≤ second.eventId)

def OutboxEvent.marked (sent : Bool) (attempts : Nat) : OutboxEvent :=
  { event with
    status := if sent then .sent else .pending
    attempts := attempts + 1
    nextAttemptAt := now + min 60 (2 ^ min (attempts + 1) 6) }

/-- `mark_outbox`. -/
def markOutbox (key : RunKey) (eventId : String) (now : Int) (sent : Bool) (expectedAttempts : Nat) :
    Except Refusal (Bool × JobStore ρ) := do
  checkTime now 1
  match store.events.find (key.1, key.2, eventId) with
  | none => .error .notFound
  | some event =>
    if event.status ≠ .pending ∨ event.attempts ≠ expectedAttempts then
      return (false, store)
    else
      return (true, { store with
        events := store.events.put (event.marked now sent expectedAttempts) })

inductive Call (ρ : Type) where
  | createRun (tenantId runId documentVersionId : String)
  | enqueue (message : JobMessage) (now : Int)
  | claimJob (message : JobMessage) (owner : String) (now leaseSeconds : Int)
  | heartbeat (lease : JobLease) (now : Int) (elapsed : Nat) (leaseSeconds : Int)
  | commitJob (lease : JobLease) (payload : Bytes) (now : Int) (wait : Nat)
      (next : Option JobMessage) (publish : Option (Publish ρ))
  | failJob (lease : JobLease) (errorCode : String) (now : Int) (wait : Nat) (jitter : ℚ)
      (retryAfter : Option Int)
  | cancelRun (request : ActionRequest)
  | retryRun (request : ActionRequest)
  | markOutbox (key : RunKey) (eventId : String) (now : Int) (sent : Bool) (expectedAttempts : Nat)
  | reviseRun (key : RunKey) (refresh : Bool) (change : ρ → ρ)
  | elsewhere (change : ρ → ρ)

/-- What the calls answer. -/
inductive Reply where
  | done
  | claimed (lease : Option JobLease)
  | renewed (lease : JobLease)
  | committed (accepted : Bool)
  | failed (job : JobRecord)
  | acted (run : RunRecord)
  | marked (changed : Bool)
  deriving DecidableEq

def reviseRun (key : RunKey) (refresh : Bool) (change : ρ → ρ) : Except Refusal (JobStore ρ) := do
  let run ← getRun hooks store key
  let (_, store) ← bumpRun hooks { store with rest := change store.rest } run none refresh
  return store

def execute (call : Call ρ) : Except Refusal (Reply × JobStore ρ) :=
  match call with
  | .createRun tenantId runId documentVersionId =>
    (createRun store tenantId runId documentVersionId).map fun store => (.done, store)
  | .enqueue message now => do
    checkTime now 1
    let store ← enqueue hooks store message now
    return (.done, store)
  | .claimJob message owner now leaseSeconds =>
    (claimJob hooks store message owner now leaseSeconds).map fun made => (.claimed made.1, made.2)
  | .heartbeat lease now elapsed leaseSeconds =>
    (heartbeat hooks store lease now elapsed leaseSeconds).map fun made => (.renewed made.1, made.2)
  | .commitJob lease payload now wait next publish =>
    (commitJob hooks store lease payload now wait next publish).map
      fun made => (.committed made.1, made.2)
  | .failJob lease errorCode now wait jitter retryAfter =>
    (failJob hooks store lease errorCode now wait jitter retryAfter).map
      fun made => (.failed made.1, made.2)
  | .cancelRun request =>
    (runAction hooks store .cancel request).map fun made => (.acted made.1, made.2)
  | .retryRun request =>
    (runAction hooks store .retry request).map fun made => (.acted made.1, made.2)
  | .markOutbox key eventId now sent expectedAttempts =>
    (markOutbox store key eventId now sent expectedAttempts).map
      fun made => (.marked made.1, made.2)
  | .reviseRun key refresh change =>
    (reviseRun hooks store key refresh change).map fun store => (.done, store)
  | .elsewhere change => .ok (.done, { store with rest := change store.rest })

def next (call : Call ρ) : JobStore ρ :=
  match execute hooks store call with
  | .ok (_, store) => store
  | .error _ => store

def answer (call : Call ρ) : Option Reply :=
  match execute hooks store call with
  | .ok (reply, _) => some reply
  | .error _ => none

theorem execute_of_answer {hooks : Hooks ρ} {store : JobStore ρ} {call : Call ρ} {reply : Reply}
    (h : answer hooks store call = some reply) :
    execute hooks store call = .ok (reply, next hooks store call) := by
  unfold answer at h
  unfold next
  cases hexecute : execute hooks store call with
  | error error => simp [hexecute] at h
  | ok made =>
    simp only [hexecute, Option.some.injEq] at h
    rw [← h]

def Reachable : Prop :=
  ∃ rest calls, store = Machine.after (next hooks) (JobStore.initial rest) calls

end ProofOps.Adapters.Local
