import ProofOps.Api.Hosted.Store

/-!
# Admission

How documents and runs enter the hosted store: uploads, the quota and budget
checks of `create_run`, the copy of an earlier publication, and what a run looks
like from outside.
-/

namespace ProofOps.Api.Hosted

open Foundation Foundation.PyText Foundation.Checked

/-! ### The projection of a run -/

structure Projection where
  (runId documentId : String)
  status : RunStatus
  selectedPages : List Nat
  stage : String
  progress : ℚ
  queuePosition : Option Nat
  (userActiveCount userProcessingCount : Nat)
  (resultUrl errorCode : Option String)

def RunStatus.name : RunStatus → String
  | .queued => "queued"
  | .running => "running"
  | .accountingPending => "accounting_pending"
  | .partialBlocked => "partial_blocked"
  | .completed => "completed"
  | .cancelled => "cancelled"
  | .failed => "failed"

variable (deployment : Deployment) (store : HostedStore)

def isReady (row : RunRow) : Bool :=
  ((store.progress.find row.runId).any ProgressRow.resultReady) && decide row.status.Published

def queuePosition (row : RunRow) : Nat :=
  store.runs.count fun other => other.status = .queued ∧ other.before row

def projectRun (row : RunRow) : Projection where
  runId := row.runId
  documentId := row.documentId
  status := row.status
  selectedPages := row.pages
  stage := ((store.progress.find row.runId).map ProgressRow.stage).getD row.status.name
  progress := (((store.progress.find row.runId).map ProgressRow.progress).getD 0 : ℚ) / 100
  queuePosition := if row.status = .queued then some (queuePosition store row) else none
  userActiveCount := store.runs.count fun other => other.userHash = row.userHash ∧
    (other.status = .queued ∨ other.status = .running ∨ other.status = .accountingPending)
  userProcessingCount := runningCount store fun other => other.userHash = row.userHash
  resultUrl := if isReady store row then some ("/v1/runs/" ++ row.runId ++ "/result") else none
  errorCode := row.errorCode

/-- `get_run`. -/
def viewRun (tenantId runId : String) : Except HostedError Projection :=
  (getRun store tenantId runId).map (projectRun store)

variable (auth : Auth)

/-- `HostedStore._replay`. -/
def replay (route key bodyHash : String) : Except HostedError (Option String) :=
  if key.length < 16 ∨ 128 < key.length then
    .error ⟨"IDEMPOTENCY_KEY_INVALID", 400⟩
  else
    match store.idempotency.find
        (auth.tenantId, deployment.userHash auth.userSub, route, deployment.digest key) with
    | none => .ok none
    | some row =>
      if row.requestHash ≠ bodyHash then .error ⟨"IDEMPOTENCY_CONFLICT", 409⟩
      else (getDocument store (auth.tenantId, row.documentId)).map fun _ => some row.resourceId

/-- `HostedStore._remember`. -/
def remember (route key bodyHash resource document : String) (now : ℚ) :
    Except HostedError HostedStore := do
  let idempotency ← store.idempotency.insertOr .integrity
    { tenantId := auth.tenantId, userHash := deployment.userHash auth.userSub, route := route
      keyHash := deployment.digest key, requestHash := bodyHash, resourceId := resource
      documentId := document, created := now }
  return { store with idempotency := idempotency }

structure UploadRequest where
  (documentId sha256 : String)
  pageCount : Nat
  key : String
  now : ℚ

def insertDocument (request : UploadRequest) : Except HostedError HostedStore := do
  let documents ← store.documents.insertOr .integrity
    { tenantId := auth.tenantId, documentId := request.documentId, sha256 := request.sha256
      pageCount := request.pageCount, created := request.now
      expires := request.now + deployment.settings.activeDays * 86400 }
  let owners ← store.owners.insertOr .integrity
    { tenantId := auth.tenantId, documentId := request.documentId
      userHash := deployment.userHash auth.userSub }
  remember deployment { store with documents := documents, owners := owners } auth "upload"
    request.key request.sha256 request.documentId request.documentId request.now

def checkUpload : Except HostedError Unit :=
  if !auth.editor then .error ⟨"FORBIDDEN", 403⟩
  else if !deployment.settings.acceptUploads || deployment.settings.consentVersion == "" then
    .error ⟨"UPLOAD_DISABLED", 503⟩
  else .ok ()

/-- `HostedStore.upload`. -/
def upload (deployment : Deployment) (store : HostedStore) (auth : Auth) (request : UploadRequest) :
    Except HostedError HostedStore := do
  checkUpload deployment auth
  let replayed ← replay deployment store auth "upload" request.key request.sha256
  match replayed with
  | some document => (getDocument store (auth.tenantId, document)).map fun _ => store
  | none => insertDocument deployment store auth request

/-! ### Runs -/

structure Selection where
  pages : List Nat
  hasOptions : Bool
  bodyHash : String

inductive ReuseCheck where
  | miss
  | busy
  | hit (sha256 : String)
  deriving DecidableEq

structure RunRequest where
  (documentId key : String)
  now : ℚ
  forceFresh : Bool
  runId : String
  select : DocumentRow → Except HostedError Selection
  (sourceAvailable sourceIntact : Bool)
  reuseCheck : RunRow → ReuseCheck

variable (request : RunRequest)

def checkCreate : Except HostedError Unit :=
  if !auth.editor || (request.forceFresh && !auth.admin) then .error ⟨"FORBIDDEN", 403⟩
  else if !deployment.settings.acceptRuns || deployment.settings.backend != "r108" then
    .error ⟨"ANALYSIS_DISABLED", 503⟩
  else .ok ()

def requireOwner (documentId : String) : Except HostedError Unit :=
  if auth.userSub = "access-password:organizer" ∧ ¬auth.showcase ∧
      ¬(store.owners.find (auth.tenantId, documentId)).any
        fun row => row.userHash = deployment.userHash auth.userSub then
    .error .notFound
  else
    .ok ()

variable (document : DocumentRow) (selection : Selection)

def checkPages : Except HostedError Unit :=
  if selection.pages = [] ∨ (if selection.hasOptions then 30 else 2) < selection.pages.length ∨
      (selection.pages.any fun page => page = 0 ∨ document.pageCount < page) ∨
      ¬selection.pages.Nodup then
    .error ⟨"PAGE_SELECTION_INVALID", 422⟩
  else
    .ok ()

def readRequest : Except HostedError (DocumentRow × Selection) := do
  checkCreate deployment auth request
  let document ← getDocument store (auth.tenantId, request.documentId)
  requireOwner deployment store auth request.documentId
  if document.expires ≤ request.now then
    .error ⟨"SOURCE_EXPIRED", 409⟩
  else do
    let selection ← request.select document
    checkPages document selection
    return (document, selection)

def newRun (status : RunStatus) (envelope : Nat) (errorCode : Option String) : RunRow where
  tenantId := auth.tenantId
  runId := request.runId
  documentId := request.documentId
  userHash := deployment.userHash auth.userSub
  pages := selection.pages
  status := status
  created := request.now
  day := deployment.day request.now
  eventId := deployment.settings.eventId
  envelope := envelope
  fence := 0
  leaseUntil := 0
  errorCode := errorCode

def checkQuota (now : ℚ) : Except HostedError Unit :=
  let today := deployment.day now
  let user := deployment.userHash auth.userSub
  let own := store.spend.count fun row => row.day = today ∧ row.userHash = user
  if startsWith auth.userSub "guest:" ∧ deployment.settings.guestFreshRunsPerDay ≤ own then
    .error ⟨"GUEST_DAILY_LIMIT", 429⟩
  else if 8 ≤ store.runs.count (fun row => row.status = .queued) then
    .error ⟨"QUEUE_FULL", 429⟩
  else if deployment.settings.userDailyRuns ≤ own ∨
      deployment.settings.dailyRuns ≤ store.spend.count (fun row => row.day = today) then
    .error ⟨"DAILY_RUN_LIMIT", 429⟩
  else
    .ok ()

def checkBudget (now : ℚ) : Except HostedError Unit :=
  let settings := deployment.settings
  if settings.dayUsd < daySpend store (deployment.day now) + settings.runUsd ∨
      settings.eventUsd < eventSpend store settings.eventId + settings.runUsd then
    .error ⟨"BUDGET_EXCEEDED", 429⟩
  else
    .ok ()

def newSpend : SpendRow where
  runId := request.runId
  userHash := deployment.userHash auth.userSub
  day := deployment.day request.now
  eventId := deployment.settings.eventId
  amount := deployment.settings.runUsd
  created := request.now
  status := .reserved

def admitRun : Except HostedError HostedStore := do
  checkQuota deployment store auth request.now
  checkBudget deployment store request.now
  let runs ← store.runs.insertOr .integrity
    (newRun deployment auth request selection .queued deployment.settings.runUsd none)
  let spend ← store.spend.insertOr .integrity (newSpend deployment auth request)
  remember deployment { store with runs := runs, spend := spend } auth "run" request.key
    selection.bodyHash request.runId request.documentId request.now

def isCandidate (now : ℚ) (row : RunRow) : Bool :=
  isReady store row &&
    (store.documents.find row.document).any (fun other =>
      other.sha256 = document.sha256 ∧ now < other.expires) &&
    !isDeleted store row.document

def RunRow.newer (first second : RunRow) : Prop :=
  second.created < first.created ∨ (first.created = second.created ∧ first.runId ≤ second.runId)

instance : DecidableRel RunRow.newer := fun _ _ => inferInstanceAs (Decidable (_ ∨ _))

def findReusable (request : RunRequest) : Option (RunRow × ReuseCheck) :=
  (((store.runs.rows.filter (isCandidate store document request.now)).insertionSort
    RunRow.newer).map fun row => (row, request.reuseCheck row)).find? fun found => found.2 ≠ .miss

def copyRun (source : RunRow) (sha256 : String) : Except HostedError HostedStore := do
  let runs ← store.runs.insertOr .integrity
    (newRun deployment auth request selection source.status 0 source.errorCode)
  let snapshots ← store.snapshots.insertOr .integrity
    { runId := request.runId, revision := 1, sha256 := sha256 }
  let progress ← store.progress.insertOr .integrity
    { runId := request.runId, stage := "result", progress := 100, resultReady := true }
  let origin := ((store.reuseAudit.find source.runId).map ReuseAudit.sourceRunId).getD source.runId
  let reuseAudit ← store.reuseAudit.insertOr .integrity
    { runId := request.runId, sourceRunId := origin, created := request.now }
  remember deployment
    { store with
      runs := runs, snapshots := snapshots, progress := progress, reuseAudit := reuseAudit }
    auth "run" request.key selection.bodyHash request.runId request.documentId request.now

/-- `try_reuse`. -/
def reuseOrAdmit
    : Except HostedError HostedStore :=
  if !deployment.settings.rc1ReuseEnabled then
    admitRun deployment store auth request selection
  else if !request.sourceIntact then
    .error ⟨"UPLOAD_INTEGRITY_MISMATCH", 422⟩
  else if request.forceFresh then
    admitRun deployment store auth request selection
  else
    match findReusable store document request with
    | none => admitRun deployment store auth request selection
    | some (source, .hit sha256) => copyRun deployment store auth request selection source sha256
    | some (_, _) => .error ⟨"REUSE_COORDINATES_BUSY", 429⟩

/-- `HostedStore.create_run`. -/
def createRun : Except HostedError (Projection × HostedStore) := do
  let (document, selection) ← readRequest deployment store auth request
  let replayed ← replay deployment store auth "run" request.key selection.bodyHash
  match replayed with
  | some runId => (viewRun store auth.tenantId runId).map fun shown => (shown, store)
  | none =>
    if store.draining then
      .error ⟨"MAINTENANCE", 503⟩
    else if !request.sourceAvailable then
      .error ⟨"SOURCE_UNAVAILABLE", 409⟩
    else do
      let created ← reuseOrAdmit deployment store auth request document selection
      let shown ← viewRun created auth.tenantId request.runId
      return (shown, created)

def openReview (runId : String) : Except HostedError Unit :=
  if !auth.reviewer then
    .error ⟨"FORBIDDEN", 403⟩
  else do
    let row ← getRun store auth.tenantId runId
    if ¬row.status.Published then .error ⟨"ANALYSIS_RESULT_UNAVAILABLE", 409⟩
    else if (store.reuseAudit.find runId).isSome then .error ⟨"REUSED_RESULT_READ_ONLY", 409⟩
    else .ok ()

def nextRevision (runId : String) : Nat :=
  (store.snapshots.rows.filter fun row => row.runId = runId).foldl
    (fun revision row => max revision row.revision) 0 + 1

def publishReview (tenantId runId sha256 : String) : Except HostedError HostedStore := do
  let _ ← getRun store tenantId runId
  let snapshots ← store.snapshots.insertOr .integrity
    { runId := runId, revision := nextRevision store runId, sha256 := sha256 }
  return { store with snapshots := snapshots }

end ProofOps.Api.Hosted
