import ProofOps.Api.Hosted.Admission
import ProofOps.Foundation.Machine

/-!
# The hosted system

The store and what is under way outside it: dispatches between their reservation
and their settlement, purges and reviews between their two bodies.  Any number of
workers and sessions make the calls, so a run of the system is any list of calls.
-/

namespace ProofOps.Api.Hosted

open Foundation

structure Dispatch where
  job : Job
  (provider callId : String)
  bound : Nat
  sent : Bool
  deriving DecidableEq

def Dispatch.key (dispatch : Dispatch) : CallKey :=
  (dispatch.job.runId, dispatch.callId)

structure System where
  store : HostedStore
  dispatches : List Dispatch
  purges : List (DocumentKey × Bool)
  reviews : List (String × String)
  sent : List CallKey
  issued : List String

def System.initial : System where
  store := HostedStore.initial
  dispatches := []
  purges := []
  reviews := []
  sent := []
  issued := []

/-- What becomes of a call that was sent. -/
inductive Outcome where
  | received (matching : Bool) (actual : Nat) (failure : DispatchFailure)
  | notSent (failure : DispatchFailure)
  | failed (failure : DispatchFailure)

inductive Call where
  | upload (auth : Auth) (request : UploadRequest)
  | createRun (auth : Auth) (request : RunRequest)
  | drain (draining : Bool)
  | controlState (now : ℚ)
  | claim (now : ℚ)
  | renewLease (job : Job) (now : ℚ)
  | updateProgress (job : Job) (stage : String) (progress : Nat) (now : ℚ)
  | reserve (job : Job) (request : DispatchRequest) (now created : ℚ)
  | transport (dispatch : Dispatch)
  | settle (dispatch : Dispatch) (outcome : Outcome)
  | finish (job : Job) (status : RunStatus) (now : ℚ)
  | publishAnalysis (job : Job) (status : RunStatus) (errorCode : Option String) (sha256 : String)
      (now : ℚ)
  | failTick (job : Job) (code : String)
  | cancel (auth : Auth) (runId : String)
  | deleteDocument (auth : Auth) (documentId key : String) (now : ℚ)
  | purge (document : DocumentKey) (completed : Bool)
  | recordAttempt (document : DocumentKey) (completed : Bool) (now : ℚ)
  | maintain (now : ℚ)
  | forgetTombstones (now : ℚ)
  | openReview (auth : Auth) (runId : String)
  | publishReview (tenantId runId sha256 : String)
  | restart

/-- What a call answers. -/
inductive Reply where
  | done
  | claimed (row : Option RunRow)
  | shown (projection : Projection)

variable (deployment : Deployment) (system : System)

def issue (identifier : String) : Except HostedError (List String) :=
  if identifier ∈ system.issued then .error .integrity else .ok (system.issued ++ [identifier])

def System.commit (body : Except HostedError HostedStore) : Except HostedError (Reply × System) :=
  body.map fun store => (.done, { system with store := store })

/-- `HostedStore.dispatch`. -/
def reserveDispatch (job : Job) (request : DispatchRequest) (now created : ℚ) :
    Except HostedError (Reply × System) := do
  let store ← reserve system.store job request now created
  return (.done, { system with
    store := store
    dispatches := system.dispatches ++
      [{ job := job, provider := request.provider, callId := request.callId, bound := request.bound
         sent := false }] })

variable (dispatch : Dispatch)

def Dispatch.markSent : Dispatch :=
  { dispatch with sent := true }

/-- `transport(request)`. -/
def callTransport : Except HostedError (Reply × System) :=
  if dispatch ∈ system.dispatches ∧ dispatch.sent = false then
    .ok (.done, { system with
      dispatches := system.dispatches.erase dispatch ++ [dispatch.markSent]
      sent := system.sent ++ [dispatch.key] })
  else
    .error .notFound

def settleStore (store : HostedStore) (dispatch : Dispatch) (outcome : Outcome) : HostedStore :=
  match outcome with
  | .received matching actual failure =>
    if matching ∧ actual ≤ dispatch.bound then
      settleReceipt store dispatch.key actual
    else
      settleFailure store dispatch.job dispatch.callId failure
  | .notSent failure =>
    if dispatch.provider = "openai" then priceCall store dispatch.key 0
    else settleFailure store dispatch.job dispatch.callId failure
  | .failed failure => settleFailure store dispatch.job dispatch.callId failure

def settleDispatch (outcome : Outcome) : Except HostedError (Reply × System) :=
  if dispatch ∈ system.dispatches ∧ dispatch.sent = true then
    .ok (.done, { system with
      store := settleStore system.store dispatch outcome
      dispatches := system.dispatches.erase dispatch })
  else
    .error .notFound

def uploadHosted (auth : Auth) (request : UploadRequest) : Except HostedError (Reply × System) := do
  let issued ← issue system request.documentId
  let store ← upload deployment system.store auth request
  return (.done, { system with store := store, issued := issued })

def createHosted (auth : Auth) (request : RunRequest) : Except HostedError (Reply × System) := do
  let issued ← issue system request.runId
  let (shown, store) ← createRun deployment system.store auth request
  return (.shown shown, { system with store := store, issued := issued })

def startPurge (document : DocumentKey) (completed : Bool) :
    Except HostedError (Reply × System) := do
  let purged ← purge system.store document
  return (.done, { system with
    store := if completed then purged else system.store
    purges := system.purges ++ [(document, completed)] })

def finishPurge (document : DocumentKey) (completed : Bool) (now : ℚ) :
    Except HostedError (Reply × System) :=
  if (document, completed) ∈ system.purges then
    .ok (.done, { system with
      store := recordAttempt system.store
        { tenantId := document.1, documentId := document.2, completed := completed, updated := now }
      purges := system.purges.erase (document, completed) })
  else
    .error .notFound

def startReview (auth : Auth) (runId : String) : Except HostedError (Reply × System) := do
  openReview system.store auth runId
  return (.done, { system with reviews := system.reviews ++ [(auth.tenantId, runId)] })

def finishReview (tenantId runId sha256 : String) : Except HostedError (Reply × System) :=
  if (tenantId, runId) ∈ system.reviews then do
    let store ← publishReview system.store tenantId runId sha256
    return (.done, { system with
      store := store, reviews := system.reviews.erase (tenantId, runId) })
  else
    .error .notFound

/-- One call to the system. -/
def perform (call : Call) : Except HostedError (Reply × System) :=
  let store := system.store
  match call with
  | .upload auth request => uploadHosted deployment system auth request
  | .createRun auth request => createHosted deployment system auth request
  | .drain draining => system.commit (.ok { store with draining := draining })
  | .controlState now => system.commit (.ok (expireRunning store now))
  | .claim now =>
    (claim deployment store now).map fun made => (.claimed made.1, { system with store := made.2 })
  | .renewLease job now => system.commit (renewLease store job now)
  | .updateProgress job stage progress now =>
    system.commit (updateProgress store job stage progress now)
  | .reserve job request now created => reserveDispatch system job request now created
  | .transport dispatch => callTransport system dispatch
  | .settle dispatch outcome => settleDispatch system dispatch outcome
  | .finish job status now => system.commit (finish store job status now)
  | .publishAnalysis job status errorCode sha256 now =>
    system.commit (publishAnalysis store job status errorCode sha256 now)
  | .failTick job code => system.commit (.ok (failTick deployment store job code))
  | .cancel auth runId => system.commit (cancel deployment store auth runId)
  | .deleteDocument auth documentId key now =>
    system.commit (deleteDocument deployment store auth documentId key now)
  | .purge document completed => startPurge system document completed
  | .recordAttempt document completed now => finishPurge system document completed now
  | .maintain now => system.commit (.ok (maintain deployment store now))
  | .forgetTombstones now => system.commit (.ok (forgetTombstones deployment store now))
  | .openReview auth runId => startReview system auth runId
  | .publishReview tenantId runId sha256 => finishReview system tenantId runId sha256
  | .restart => system.commit (.ok (restart store))

def next (call : Call) : System :=
  match perform deployment system call with
  | .ok (_, system) => system
  | .error _ => system

/-- A call that succeeds moves the system on. -/
theorem next_ok {deployment : Deployment} {system after : System} {call : Call} {reply : Reply}
    (h : perform deployment system call = .ok (reply, after)) : next deployment system call = after := by
  rw [next, h]

theorem next_error {deployment : Deployment} {system : System} {call : Call} {error : HostedError}
    (h : perform deployment system call = .error error) : next deployment system call = system := by
  rw [next, h]

def reached (calls : List Call) : System :=
  Machine.after (next deployment) System.initial calls

def sampleDeployment : Deployment where
  settings :=
    { eventId := "event", acceptUploads := true, consentVersion := "v1", backend := "r108"
      acceptRuns := true, activeDays := 7, auditDays := 30, runUsd := 100, dayUsd := 100
      eventUsd := 100, userDailyRuns := 1, maxActiveRuns := 1, userActiveRuns := 1, dailyRuns := 1
      guestFreshRunsPerDay := 1, rc1ReuseEnabled := false }
  userHash := id
  day := fun _ => "2026-01-01"
  digest := id
  isPublicCode := fun _ => false

def sampleAuth : Auth where
  tenantId := "tenant"
  userSub := "user"
  editor := true
  reviewer := false
  admin := false
  showcase := false

def sampleUpload : UploadRequest where
  documentId := "document"
  sha256 := "source"
  pageCount := 2
  key := "upload-key-00001"
  now := 0

def sampleRun : RunRequest where
  documentId := "document"
  key := "run-key-00000001"
  now := 0
  forceFresh := false
  runId := "run"
  select := fun _ => .ok { pages := [1], hasOptions := false, bodyHash := "body" }
  sourceAvailable := true
  sourceIntact := true
  reuseCheck := fun _ => .miss

def sampleJob : Job where
  tenantId := "tenant"
  runId := "run"
  fence := 1

def sampleCalls : List Call :=
  [.upload sampleAuth sampleUpload, .createRun sampleAuth sampleRun, .claim 1]

end ProofOps.Api.Hosted
