import Mathlib.Algebra.Order.Field.Rat
import Mathlib.Data.List.Sort
import ProofOps.Foundation.Checked
import ProofOps.Foundation.PyText
import ProofOps.Foundation.Totals

/-!
# The hosted store

`HostedStore`: one function for each body under `transaction()`, from the two
databases to what they hold when the body commits; an error rolls the body back.
What a body reads outside the databases, the clock, the document's directory and
the identifiers of `uuid4`, is an argument.
-/

namespace ProofOps.Api.Hosted

open Foundation Foundation.PyText

/-! ### Records of the hosted store -/

/-- `HostedError`. -/
structure HostedError where
  code : String
  status : Nat

def HostedError.integrity : HostedError := ⟨"IntegrityError", 500⟩

/-- `RESOURCE_NOT_FOUND`. -/
def HostedError.notFound : HostedError := ⟨"RESOURCE_NOT_FOUND", 404⟩

/-- `HostedSettings`. -/
structure HostedSettings where
  eventId : String
  acceptUploads : Bool
  (consentVersion backend : String)
  acceptRuns : Bool
  (activeDays auditDays runUsd dayUsd eventUsd userDailyRuns maxActiveRuns userActiveRuns : Nat)
  (dailyRuns guestFreshRunsPerDay : Nat)
  rc1ReuseEnabled : Bool

/-- `digest`. -/
structure Deployment where
  settings : HostedSettings
  userHash : String → String
  day : ℚ → String
  /-- `digest`. -/
  digest : String → String
  isPublicCode : String → Bool

structure Auth where
  (tenantId userSub : String)
  (editor reviewer admin showcase : Bool)

/-- `(tenant, document)`. -/
abbrev DocumentKey := String × String

/-- A `documents` row. -/
structure DocumentRow where
  (tenantId documentId sha256 : String)
  pageCount : Nat
  (created expires : ℚ)

def DocumentRow.key (row : DocumentRow) : DocumentKey :=
  (row.tenantId, row.documentId)

/-- A `document_owners` row. -/
structure OwnerRow where
  (tenantId documentId userHash : String)

def OwnerRow.key (row : OwnerRow) : DocumentKey :=
  (row.tenantId, row.documentId)

/-- The states of a run. -/
inductive RunStatus where
  | queued
  | running
  | accountingPending
  | partialBlocked
  | completed
  | cancelled
  | failed
  deriving DecidableEq

def RunStatus.Terminal : RunStatus → Prop
  | .partialBlocked | .completed | .cancelled | .failed => True
  | .queued | .running | .accountingPending => False

instance : DecidablePred RunStatus.Terminal := fun status =>
  match status with
  | .partialBlocked | .completed | .cancelled | .failed => isTrue trivial
  | .queued | .running | .accountingPending => isFalse id

def RunStatus.Published (status : RunStatus) : Prop :=
  status = .completed ∨ status = .partialBlocked

instance (status : RunStatus) : Decidable status.Published :=
  inferInstanceAs (Decidable (_ ∨ _))

theorem RunStatus.Published.terminal {status : RunStatus} (h : status.Published) :
    status.Terminal := by
  rcases h with rfl | rfl <;> exact trivial

/-- A `runs` row. -/
structure RunRow where
  (tenantId runId documentId userHash : String)
  pages : List Nat
  status : RunStatus
  created : ℚ
  (day eventId : String)
  (envelope fence : Nat)
  leaseUntil : ℚ
  errorCode : Option String

variable (row : RunRow)

def RunRow.key : String :=
  row.runId

def RunRow.document : DocumentKey :=
  (row.tenantId, row.documentId)

structure Job where
  (tenantId runId : String)
  fence : Nat
  deriving DecidableEq

/-- A `run_progress` row. -/
structure ProgressRow where
  (runId stage : String)
  progress : Nat
  resultReady : Bool

def ProgressRow.key (row : ProgressRow) : String :=
  row.runId

/-- A `result_snapshots` row. -/
structure SnapshotRow where
  runId : String
  revision : Nat
  sha256 : String

def SnapshotRow.key (row : SnapshotRow) : String × Nat :=
  (row.runId, row.revision)

/-- An `idempotency` row. -/
structure IdempotencyRow where
  (tenantId userHash route keyHash requestHash resourceId documentId : String)
  created : ℚ

def IdempotencyRow.key (row : IdempotencyRow) : String × String × String × String :=
  (row.tenantId, row.userHash, row.route, row.keyHash)

/-- A `rc1_reuse_audit` row. -/
structure ReuseAudit where
  (runId sourceRunId : String)
  created : ℚ

def ReuseAudit.key (row : ReuseAudit) : String :=
  row.runId

/-- The states of a call's cost. -/
inductive CostStatus where
  | reserved
  | accountingPending
  | settled
  deriving DecidableEq

/-- `(run, call)`. -/
abbrev CallKey := String × String

/-- A `deletion.costs` row. -/
structure CostRow where
  (runId callId requestId provider inputSha256 : String)
  bound : Nat
  actual : Option Nat
  status : CostStatus
  created : ℚ

def CostRow.key (row : CostRow) : CallKey :=
  (row.runId, row.callId)

inductive SpendStatus where
  | reserved
  | accountingPending
  | settled
  deriving DecidableEq

/-- A `deletion.spend` row. -/
structure SpendRow where
  (runId userHash day eventId : String)
  amount : Nat
  created : ℚ
  status : SpendStatus

def SpendRow.key (row : SpendRow) : String :=
  row.runId

/-- A `deletion.event_totals` row. -/
structure EventTotal where
  eventId : String
  amount : Nat

def EventTotal.key (row : EventTotal) : String :=
  row.eventId

/-- A `deletion.tombstones` row. -/
structure Tombstone where
  (tenantId documentId : String)
  created : ℚ
  keyHash : String

def Tombstone.key (row : Tombstone) : DocumentKey :=
  (row.tenantId, row.documentId)

/-- A `deletion.attempts` row. -/
structure Attempt where
  (tenantId documentId : String)
  completed : Bool
  updated : ℚ

def Attempt.key (row : Attempt) : DocumentKey :=
  (row.tenantId, row.documentId)

/-- `HostedStore`. -/
structure HostedStore where
  documents : Table DocumentRow DocumentRow.key
  owners : Table OwnerRow OwnerRow.key
  runs : Table RunRow RunRow.key
  progress : Table ProgressRow ProgressRow.key
  snapshots : Table SnapshotRow SnapshotRow.key
  idempotency : Table IdempotencyRow IdempotencyRow.key
  reuseAudit : Table ReuseAudit ReuseAudit.key
  draining : Bool
  costs : Table CostRow CostRow.key
  spend : Table SpendRow SpendRow.key
  eventTotals : Table EventTotal EventTotal.key
  tombstones : Table Tombstone Tombstone.key
  attempts : Table Attempt Attempt.key

def HostedStore.initial : HostedStore where
  documents := Table.empty
  owners := Table.empty
  runs := Table.empty
  progress := Table.empty
  snapshots := Table.empty
  idempotency := Table.empty
  reuseAudit := Table.empty
  draining := false
  costs := Table.empty
  spend := Table.empty
  eventTotals := Table.empty
  tombstones := Table.empty
  attempts := Table.empty

/-! ### Reading -/

variable (deployment : Deployment) (store : HostedStore) (document : DocumentKey)

/-- `_deleted`. -/
def isDeleted : Bool :=
  (store.tombstones.find document).isSome

/-- `HostedStore._document`. -/
def getDocument : Except HostedError DocumentRow :=
  match store.documents.find document with
  | none => .error .notFound
  | some row => if isDeleted store document then .error .notFound else .ok row

/-- `HostedStore._run`. -/
def getRun (tenantId runId : String) : Except HostedError RunRow :=
  match store.runs.find runId with
  | none => .error .notFound
  | some row =>
    if row.tenantId = tenantId then
      (getDocument store row.document).map fun _ => row
    else
      .error .notFound

def RunRow.holds (job : Job) (now : ℚ) : Bool :=
  row.status = .running ∧ row.fence = job.fence ∧ now < row.leaseUntil

variable (job : Job)

/-- `_fenced`. -/
def fenced (now : ℚ) : Except HostedError RunRow := do
  let row ← getRun store job.tenantId job.runId
  if row.holds job now then .ok row else .error ⟨"LEASE_LOST", 409⟩

variable (runId : String)

def isRun (row : RunRow) : Bool :=
  row.runId = runId

def isCostOf (cost : CostRow) : Bool :=
  cost.runId = runId

def isSpendOf (spend : SpendRow) : Bool :=
  spend.runId = runId

def CostRow.charge (cost : CostRow) : Nat :=
  if cost.status = .settled then cost.actual.getD 0 else cost.bound

def charges : Nat :=
  store.costs.total (isCostOf runId) CostRow.charge

def receipts : Nat :=
  store.costs.total (isCostOf runId) fun cost => cost.actual.getD 0

def hasUnsettled : Bool :=
  store.costs.rows.any fun cost => isCostOf runId cost && cost.status != .settled

def hasCost : Bool :=
  store.costs.rows.any (isCostOf runId)

def runningCount (test : RunRow → Bool) : Nat :=
  store.runs.count fun row => row.status = .running ∧ test row

def daySpend (day : String) : Nat :=
  store.spend.total (fun row => row.day = day) SpendRow.amount

def archived (eventId : String) : Nat :=
  ((store.eventTotals.find eventId).map EventTotal.amount).getD 0

def eventSpend (eventId : String) : Nat :=
  store.spend.total (fun row => row.eventId = eventId) SpendRow.amount + archived store eventId

def SpendRow.pending (row : SpendRow) : SpendRow :=
  { row with status := .accountingPending }

theorem SpendRow.pending_key (row : SpendRow) : row.pending.key = row.key := rfl

def SpendRow.settled (amount : Nat) (row : SpendRow) : SpendRow :=
  { row with amount := amount, status := .settled }

theorem SpendRow.settled_key (amount : Nat) (row : SpendRow) : (row.settled amount).key = row.key :=
  rfl

def pendSpend : HostedStore :=
  { store with spend := store.spend.modify (isSpendOf runId) SpendRow.pending SpendRow.pending_key }

def settleEnvelope : HostedStore :=
  if hasUnsettled store runId then
    pendSpend store runId
  else
    { store with
      spend := store.spend.modify (isSpendOf runId) (SpendRow.settled (receipts store runId))
        (SpendRow.settled_key _) }

variable (now : ℚ)

def isExpired (row : RunRow) : Bool :=
  (row.status = .running ∧ row.leaseUntil ≤ now) ∨
    (row.status = .accountingPending ∧ row.errorCode = some "LEASE_EXPIRED")

def RunRow.unsent : RunRow :=
  { row with
    status := .failed, fence := row.fence + 1, leaseUntil := 0
    errorCode := some "LEASE_EXPIRED_NO_DISPATCH" }

theorem RunRow.unsent_key : row.unsent.key = row.key := rfl

def RunRow.lost : RunRow :=
  { row with
    status := .accountingPending, fence := row.fence + 1, errorCode := some "LEASE_EXPIRED" }

theorem RunRow.lost_key : row.lost.key = row.key := rfl

def expireOne : HostedStore :=
  if (store.spend.find runId).isSome && !hasCost store runId then
    settleEnvelope
      { store with runs := store.runs.modify (isRun runId) RunRow.unsent RunRow.unsent_key } runId
  else
    pendSpend { store with runs := store.runs.modify (isRun runId) RunRow.lost RunRow.lost_key } runId

def expiredRuns : List String :=
  (store.runs.rows.filter (isExpired now)).map RunRow.runId

def expireRunning : HostedStore :=
  (expiredRuns store now).foldl expireOne store

/-! ### Claiming -/

/-- The seconds of a lease. -/
def runLeaseSeconds : ℚ := 1900

def isEligible (row : RunRow) : Bool :=
  row.status = .queued ∧ runningCount store (fun other => other.document = row.document) = 0 ∧
    runningCount store (fun other => other.userHash = row.userHash) <
      deployment.settings.userActiveRuns

def RunRow.before (first second : RunRow) : Prop :=
  first.created < second.created ∨ (first.created = second.created ∧ first.runId ≤ second.runId)

instance : DecidableRel RunRow.before := fun _ _ => inferInstanceAs (Decidable (_ ∨ _))

def nextQueued : Option RunRow :=
  ((store.runs.rows.filter (isEligible deployment store)).insertionSort RunRow.before).head?

def RunRow.started (row : RunRow) : RunRow :=
  { row with status := .running, fence := row.fence + 1, leaseUntil := now + runLeaseSeconds }

theorem RunRow.started_key (row : RunRow) : (row.started now).key = row.key := rfl

def startRun (row : RunRow) : Except HostedError (Option RunRow × HostedStore) := do
  let _ ← getDocument store row.document
  let started := { store with
    runs := store.runs.modify (isRun row.runId) (RunRow.started now) (RunRow.started_key now) }
  return (started.runs.find row.runId, started)

/-- `claim`. -/
def claim : Except HostedError (Option RunRow × HostedStore) :=
  let current := expireRunning store now
  if current.draining ∨
      deployment.settings.maxActiveRuns ≤ runningCount current (fun _ => true) then
    .ok (none, current)
  else
    match nextQueued deployment current with
    | none => .ok (none, current)
    | some row => startRun current now row

def RunRow.renewed (leaseUntil : ℚ) (row : RunRow) : RunRow :=
  { row with leaseUntil := leaseUntil }

theorem RunRow.renewed_key (leaseUntil : ℚ) (row : RunRow) : (row.renewed leaseUntil).key = row.key :=
  rfl

def renewRun (leaseUntil : ℚ) : HostedStore :=
  { store with
    runs := store.runs.modify (isRun runId) (RunRow.renewed leaseUntil)
      (RunRow.renewed_key leaseUntil) }

def renewLease (now : ℚ) : Except HostedError HostedStore := do
  let row ← fenced store job now
  return renewRun store job.runId (max row.leaseUntil (now + runLeaseSeconds))

/-! ### Progress and publication -/

def putProgress (stage : String) (progress : Nat) : HostedStore :=
  let ready := ((store.progress.find runId).map ProgressRow.resultReady).getD false
  { store with
    progress := store.progress.put
      { runId := runId, stage := stage, progress := progress, resultReady := ready } }

/-- `update_progress`. -/
def updateProgress (stage : String) (progress : Nat) (now : ℚ) :
    Except HostedError HostedStore := do
  let _ ← fenced store job now
  return putProgress (renewRun store job.runId (now + runLeaseSeconds)) job.runId stage progress

variable (status : RunStatus) (errorCode : Option String)

/-- The run as it ends. -/
def RunRow.finished (row : RunRow) : RunRow :=
  { row with status := status, leaseUntil := 0, errorCode := errorCode }

theorem RunRow.finished_key (row : RunRow) :
    (row.finished status errorCode).key = row.key := rfl

def finishRun : HostedStore :=
  { store with
    runs := store.runs.modify (isRun runId) (RunRow.finished status errorCode)
      (RunRow.finished_key status errorCode) }

def finishCode : Option String :=
  if status = .partialBlocked then some "LIVE_BINDING_UNAVAILABLE" else none

/-- `HostedStore.finish`. -/
def finish (now : ℚ) : Except HostedError HostedStore :=
  if ¬status.Terminal ∨ status = .completed then
    .error ⟨"ANALYSIS_RESULT_UNAVAILABLE", 409⟩
  else do
    let _ ← fenced store job now
    return settleEnvelope (finishRun store job.runId status (finishCode status)) job.runId

def publishRows (sha256 : String) : Except HostedError HostedStore := do
  let snapshots ← store.snapshots.insertOr .integrity
    { runId := runId, revision := 1, sha256 := sha256 }
  return { store with
    snapshots := snapshots
    progress := store.progress.put
      { runId := runId, stage := "result", progress := 100, resultReady := true } }

def checkUnpublished : Except HostedError Unit :=
  if store.snapshots.rows.any fun row => row.runId = runId then
    .error ⟨"ANALYSIS_RESULT_UNAVAILABLE", 409⟩
  else
    .ok ()

def publishAnalysis (sha256 : String) (now : ℚ) : Except HostedError HostedStore :=
  if ¬status.Published then
    .error ⟨"ANALYSIS_RESULT_UNAVAILABLE", 409⟩
  else do
    let _ ← fenced store job now
    checkUnpublished store job.runId
    let published ← publishRows store job.runId sha256
    return settleEnvelope (finishRun published job.runId status errorCode) job.runId

/-- `HostedStore.tick`. -/
def failTick (code : String) : HostedStore :=
  match store.runs.find job.runId with
  | none => store
  | some row =>
    if row.status = .running ∧ row.fence = job.fence then
      let shown := (row.errorCode.filter deployment.isPublicCode).getD code
      settleEnvelope (finishRun store job.runId .failed (some shown)) job.runId
    else
      store

/-! ### Dispatching -/

structure DispatchRequest where
  (provider callId requestId inputSha256 : String)
  bound : Nat

def checkDispatch (request : DispatchRequest) : Except HostedError Unit :=
  if request.provider = "" ∨ request.callId = "" ∨ request.inputSha256.length ≠ 64 ∨
      ¬request.inputSha256.toList.all (fun c => "0123456789abcdef".toList.contains c) ∨
      request.bound = 0 then
    .error ⟨"DISPATCH_INVALID", 422⟩
  else
    .ok ()

def DispatchRequest.cost (request : DispatchRequest) (runId : String) (created : ℚ) : CostRow where
  runId := runId
  callId := request.callId
  requestId := request.requestId
  provider := request.provider
  inputSha256 := request.inputSha256
  bound := request.bound
  actual := none
  status := .reserved
  created := created

def reserve (store : HostedStore) (job : Job) (request : DispatchRequest) (now created : ℚ) :
    Except HostedError HostedStore := do
  checkDispatch request
  let row ← fenced store job now
  if (store.costs.find (job.runId, request.callId)).isSome then
    .error ⟨"DISPATCH_ALREADY_RECORDED", 409⟩
  else if row.envelope < charges store job.runId + request.bound then
    .error ⟨"BUDGET_EXCEEDED", 429⟩
  else do
    let costs ← store.costs.insertOr .integrity (request.cost job.runId created)
    return { store with costs := costs }

def isReserved (key : CallKey) (cost : CostRow) : Bool :=
  cost.key = key ∧ cost.status = .reserved

def CostRow.priced (actual : Nat) (cost : CostRow) : CostRow :=
  { cost with actual := some actual, status := .settled }

theorem CostRow.priced_key (actual : Nat) (cost : CostRow) : (cost.priced actual).key = cost.key :=
  rfl

def CostRow.unpriced (cost : CostRow) : CostRow :=
  { cost with status := .accountingPending }

theorem CostRow.unpriced_key (cost : CostRow) : cost.unpriced.key = cost.key := rfl

def priceCall (key : CallKey) (actual : Nat) : HostedStore :=
  { store with
    costs := store.costs.modify (isReserved key) (CostRow.priced actual) (CostRow.priced_key actual) }

def isClosed : Bool :=
  (store.runs.find runId).all fun row => decide row.status.Terminal

def settleReceipt (key : CallKey) (actual : Nat) : HostedStore :=
  let priced := priceCall store key actual
  if isClosed priced key.1 then settleEnvelope priced key.1 else priced

structure DispatchFailure where
  code : String
  cause : Option String
  (quotaBlocked ops2Failure networkFailure transientDenial isolatedFailure : Bool)

variable (failure : DispatchFailure)

def DispatchFailure.holdsRun : Bool :=
  !failure.ops2Failure && !failure.networkFailure && !failure.transientDenial &&
    !failure.isolatedFailure

variable (row : RunRow)

def RunRow.held : RunRow :=
  { row with
    status := if failure.quotaBlocked then .failed else .accountingPending
    fence := row.fence + 1
    errorCode := some
      (if failure.quotaBlocked then failure.code else failure.cause.getD "ACCOUNTING_PENDING")
    leaseUntil := 0 }

theorem RunRow.held_key :
    (row.held failure).key = row.key := rfl

def isHeldBy : Bool :=
  row.runId = job.runId ∧ row.status = .running ∧ row.fence = job.fence

def holdRun : HostedStore :=
  if failure.holdsRun then
    { store with
      runs := store.runs.modify (isHeldBy job) (RunRow.held failure) (RunRow.held_key failure) }
  else
    store

def settleFailure (callId : String) (failure : DispatchFailure) : HostedStore :=
  let unpriced := { store with
    costs := store.costs.modify (isReserved (job.runId, callId)) CostRow.unpriced
      CostRow.unpriced_key }
  pendSpend (holdRun unpriced job failure) job.runId

/-! ### Cancelling and deleting -/

def RunRow.cancelled : RunRow :=
  { row with status := .cancelled, fence := row.fence + 1, leaseUntil := 0 }

theorem RunRow.cancelled_key : row.cancelled.key = row.key := rfl

/-- `HostedStore.cancel`. -/
def cancel (auth : Auth) (runId : String) : Except HostedError HostedStore := do
  let row ← getRun store auth.tenantId runId
  if row.userHash ≠ deployment.userHash auth.userSub ∧ ¬auth.admin then
    .error ⟨"FORBIDDEN", 403⟩
  else
    .ok (settleEnvelope
      { store with runs := store.runs.modify (isRun runId) RunRow.cancelled RunRow.cancelled_key }
      runId)

def isRunOf : Bool :=
  row.document = document

def checkDelete (auth : Auth) (documentId : String) : Except HostedError Unit :=
  let owner := store.owners.find (auth.tenantId, documentId)
  if auth.admin ∨ owner.any fun row => row.userHash = deployment.userHash auth.userSub then
    .ok ()
  else do
    let _ ← getDocument store (auth.tenantId, documentId)
    .error ⟨"FORBIDDEN", 403⟩

def buryDocument (key : String) (now : ℚ) : Except HostedError HostedStore := do
  let _ ← getDocument store document
  let tombstones ← store.tombstones.insertOr .integrity
    { tenantId := document.1, documentId := document.2, created := now
      keyHash := deployment.digest key }
  return { store with
    tombstones := tombstones
    runs := store.runs.modify (isRunOf document) RunRow.cancelled RunRow.cancelled_key }

def deleteDocument (auth : Auth) (documentId key : String) (now : ℚ) :
    Except HostedError HostedStore :=
  if key.length < 16 ∨ 128 < key.length then
    .error ⟨"IDEMPOTENCY_KEY_INVALID", 400⟩
  else do
    checkDelete deployment store auth documentId
    if isDeleted store (auth.tenantId, documentId) then .ok store
    else buryDocument deployment store (auth.tenantId, documentId) key now

/-- The runs of a document. -/
def runsOf : List String :=
  (store.runs.rows.filter (isRunOf document)).map RunRow.runId

/-- `HostedStore._purge`. -/
def purge (store : HostedStore) (document : DocumentKey) : Except HostedError HostedStore :=
  if !isDeleted store document then
    .error ⟨"TOMBSTONE_REQUIRED", 409⟩
  else
    let runs := runsOf store document
    let settled := runs.foldl settleEnvelope store
    .ok { settled with
      progress := store.progress.delete fun row => runs.contains row.runId
      snapshots := store.snapshots.delete fun row => runs.contains row.runId
      owners := store.owners.delete fun row => row.key = document
      runs := store.runs.delete (isRunOf document)
      documents := store.documents.delete fun row => row.key = document
      idempotency := store.idempotency.delete fun row => (row.tenantId, row.documentId) = document }

def recordAttempt (attempt : Attempt) : HostedStore :=
  { store with attempts := store.attempts.put attempt }

/-! ### Maintenance -/

def auditCutoff : ℚ :=
  now - deployment.settings.auditDays * 86400

def buryExpired (store : HostedStore) (document : DocumentKey) : HostedStore :=
  if isDeleted store document then
    store
  else
    { store with
      tombstones := store.tombstones.put
        { tenantId := document.1, documentId := document.2, created := now
          keyHash := deployment.digest "expiry" } }

def expiredDocuments : List DocumentKey :=
  (store.documents.rows.filter fun row => row.expires ≤ now).map DocumentRow.key

def isArchivable (cutoff : ℚ) (row : SpendRow) : Bool :=
  row.created < cutoff ∧ row.status = .settled

def archiveSpend (row : SpendRow) : HostedStore :=
  { store with
    eventTotals := store.eventTotals.put
      { eventId := row.eventId, amount := archived store row.eventId + row.amount }
    costs := store.costs.delete (isCostOf row.runId)
    spend := store.spend.delete (isSpendOf row.runId) }

/-- `HostedStore.maintain`. -/
def maintain : HostedStore :=
  let current := expireRunning store now
  let buried := (expiredDocuments current now).foldl (buryExpired deployment now) current
  let cutoff := auditCutoff deployment now
  let pruned := { buried with reuseAudit := buried.reuseAudit.delete fun row => row.created < cutoff }
  (pruned.spend.rows.filter (isArchivable cutoff)).foldl archiveSpend pruned

def isForgettable (cutoff : ℚ) (row : Tombstone) : Bool :=
  row.created ≤ cutoff ∧ (store.attempts.find row.key).any Attempt.completed

def forgetTombstones : HostedStore :=
  let forgettable := isForgettable store (auditCutoff deployment now)
  let keys := (store.tombstones.rows.filter forgettable).map Tombstone.key
  { store with
    tombstones := store.tombstones.delete forgettable
    attempts := store.attempts.delete fun row => keys.contains row.key }

/-- `HostedStore.__init__`. -/
def restart : HostedStore :=
  { store with
    spend := store.spend.modify
      (fun row => row.status = .reserved ∧ (store.runs.find row.runId).isNone) SpendRow.pending
      SpendRow.pending_key }

end ProofOps.Api.Hosted
