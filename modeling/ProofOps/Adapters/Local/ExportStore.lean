import ProofOps.Foundation.Machine
import ProofOps.Foundation.Table

/-!
# Freezing an export

`LocalExportStore` and `ExportService.get`: any number of polls of the same exports run at
once.  A poll captures a run in many reads, freezes the capture in two transactions and
completes or defers the export in another one; a worker's step is one transaction, and the
run changes between them.

What a capture reads, how a manifest is put together and how it is rendered are rules: a
function of what was read.  The epochs in `readAt` stand beside a capture; nothing reads them.
-/

namespace ProofOps.Adapters.Local.Exports

open Foundation

def busy : String := "EXPORT_SNAPSHOT_BUSY"

def maxAttempts : Nat := 4

def maxExportBytes : Nat := 32 * 1024 * 1024

/-! ### Records -/

structure RunKey where
  (tenantId runId : String)
  deriving DecidableEq

structure RunRecord (Content : Type) where
  key : RunKey
  mutationEpoch : Nat
  deleted : Bool
  content : Content

structure ExportKey where
  (tenantId exportId : String)
  deriving DecidableEq

/-- The formats of an archive. -/
inductive Format where
  | json
  | csv
  | html

/-- `response.state`. -/
inductive ExportStatus where
  | queued
  | building
  | ready
  | failed
  deriving DecidableEq

/-- What a user asks to be exported. -/
structure ExportRequest where
  runId : String
  formats : List Format
  allowPartial : Bool
  actor : String

/-- A record `export_state`. -/
structure ExportState where
  key : ExportKey
  request : ExportRequest
  status : ExportStatus
  snapshotEpoch : Nat
  isPartial : Bool
  manifestSha256 : Option String
  retryAt : Nat
  errors : List String
  (snapshotSha256 artifactSha256 : Option String)

structure Manifest (Body : Type) where
  (tenantId runId : String)
  mutationEpoch : Nat
  body : Body

/-- A record `export_snapshot`. -/
structure SnapshotRow (Body : Type) where
  key : ExportKey
  manifest : Manifest Body
  readAt : List Nat

/-- A record `export_artifact`. -/
structure ArtifactRow (Bytes : Type) where
  key : ExportKey
  content : Bytes

/-- `LocalExportStore`. -/
structure Store (Content Body Bytes : Type) where
  runs : Table (RunRecord Content) RunRecord.key
  exports : Table ExportState ExportState.key
  snapshots : Table (SnapshotRow Body) SnapshotRow.key
  artifacts : Table (ArtifactRow Bytes) ArtifactRow.key

/-- What `build_export` returns. -/
structure Archive (Bytes : Type) where
  content : Bytes
  manifestSha256 : String
  isPartial : Bool

/-- `ExportRejected`. -/
inductive Failure where
  | rejected (code : String)
  | other

/-- `create_snapshot`. -/
structure ExportRules (Content Datum Body Bytes : Type) where
  oversized : Content → Bool
  nextRead : Content → List Datum → Option (Content → Except Failure Datum)
  claimsRead : List Datum → List String
  claimIds : Content → Except Failure (List String)
  assemble : ExportState → Content → List Datum → Except Failure Body
  bytes : Manifest Body → Nat
  sha256 : Manifest Body → String
  report : Manifest Body → Except String Bool
  build : Manifest Body → List Format → Except Failure (Archive Bytes)
  contentSha256 : Bytes → String

variable {Content Datum Body Bytes : Type}

namespace Store

def getRun (store : Store Content Body Bytes) (key : RunKey) : Option (RunRecord Content) :=
  (store.runs.find key).filter fun run => !run.deleted

def state (store : Store Content Body Bytes) (key : ExportKey) : Option ExportState :=
  (store.exports.find key).filter fun state =>
    (store.getRun ⟨key.tenantId, state.request.runId⟩).isSome

end Store

def reserve (store : Store Content Body Bytes) (key : ExportKey) (request : ExportRequest) :
    Store Content Body Bytes :=
  match store.getRun ⟨key.tenantId, request.runId⟩ with
  | none => store
  | some run =>
    match store.exports.insert?
      { key, request, status := .queued, snapshotEpoch := run.mutationEpoch, isPartial := true
        manifestSha256 := none, retryAt := 0, errors := [], snapshotSha256 := none
        artifactSha256 := none } with
    | none => store
    | some exports => { store with exports }

def frozen (rules : ExportRules Content Datum Body Bytes) (store : Store Content Body Bytes)
    (key : ExportKey) : Except String (Option (Manifest Body)) :=
  match store.state key with
  | none => .error "RESOURCE_NOT_FOUND"
  | some state =>
    match store.snapshots.find key with
    | none => .ok none
    | some row =>
      if state.snapshotSha256 = some (rules.sha256 row.manifest) then .ok (some row.manifest)
      else .error "EXPORT_INTEGRITY_FAILED"

variable (rules : ExportRules Content Datum Body Bytes) (store : Store Content Body Bytes)

def publish (state : ExportState) (run : RunRecord Content) (manifest : Manifest Body)
    (readAt : List Nat) : Store Content Body Bytes :=
  match store.snapshots.insert? ⟨state.key, manifest, readAt⟩ with
  | none => store
  | some snapshots =>
    { store with
      snapshots
      exports := store.exports.put
        { state with
          snapshotSha256 := some (rules.sha256 manifest)
          status := .building
          snapshotEpoch := run.mutationEpoch } }

def complete (state : ExportState) (archive : Archive Bytes) : Store Content Body Bytes :=
  match store.artifacts.insert? ⟨state.key, archive.content⟩ with
  | none => store
  | some artifacts =>
    { store with
      artifacts
      exports := store.exports.put
        { state with
          artifactSha256 := some (rules.contentSha256 archive.content)
          errors := []
          retryAt := 0
          status := .ready
          manifestSha256 := some archive.manifestSha256
          isPartial := archive.isPartial } }

def defer (state : ExportState) (code : String) (now : Nat) : Store Content Body Bytes :=
  { store with
    exports := store.exports.put
      { state with
        errors := [code]
        retryAt := now + 5
        status := if code = busy then .queued else .failed } }

/-! ### Workers -/

/-- What `capture` returns. -/
inductive Captured (Body : Type) where
  | stale (mutationEpoch : Nat)
  | full (manifest : Manifest Body) (readAt : List Nat)

def Captured.mutationEpoch : Captured Body → Nat
  | .stale mutationEpoch => mutationEpoch
  | .full manifest _ => manifest.mutationEpoch

structure Stamped (Datum : Type) where
  datum : Datum
  epoch : Nat

inductive Task (Content Datum Body Bytes : Type) where
  | check (attempt : Nat)
  | capture (attempt : Nat)
  | initial (attempt : Nat)
  | read (attempt : Nat) (initial : RunRecord Content) (gathered : List (Stamped Datum))
  | freeze (attempt : Nat) (captured : Captured Body)
  | commit (attempt : Nat) (manifest : Manifest Body) (readAt : List Nat)
      (verdict : Except String Bool)
  | restore
  | build (manifest : Manifest Body)
  | complete (archive : Archive Bytes)
  | defer (code : String)

/-- A poll: `ExportService.get`. -/
inductive Phase (Content Datum Body Bytes : Type) where
  | polling
  | working (polled : ExportState) (task : Task Content Datum Body Bytes)
  | finished

structure Worker (Content Datum Body Bytes : Type) where
  key : ExportKey
  now : Nat
  phase : Phase Content Datum Body Bytes

/-- `freeze` returned false. -/
def retry (attempt : Nat) : Task Content Datum Body Bytes :=
  if attempt + 1 < maxAttempts then .check (attempt + 1) else .defer busy

def failWith (polled : ExportState) : Failure → Phase Content Datum Body Bytes
  | .rejected code => .working polled (.defer code)
  | .other => .finished

section Work

variable (rules : ExportRules Content Datum Body Bytes) (store : Store Content Body Bytes)
  (key : ExportKey) (now : Nat) (polled : ExportState)

def poll : Phase Content Datum Body Bytes :=
  match store.state key with
  | none => .finished
  | some state =>
    if state.status = .ready ∨ state.status = .failed ∨ now < state.retryAt then .finished
    else .working state (.check 0)

variable (attempt : Nat)

def check : Task Content Datum Body Bytes :=
  match frozen rules store key with
  | .error code => .defer code
  | .ok none => .capture attempt
  | .ok (some manifest) => .build manifest

def restore : Task Content Datum Body Bytes :=
  match frozen rules store key with
  | .error code => .defer code
  | .ok none => .defer "EXPORT_INTEGRITY_FAILED"
  | .ok (some manifest) => .build manifest

def capture : Task Content Datum Body Bytes :=
  match store.state key with
  | none => .defer "RESOURCE_NOT_FOUND"
  | some _ => .initial attempt

def initial : Phase Content Datum Body Bytes :=
  match store.getRun ⟨key.tenantId, polled.request.runId⟩ with
  | none => .finished
  | some run =>
    if rules.oversized run.content then .working polled (.defer "EXPORT_SIZE_LIMIT")
    else .working polled (.read attempt run [])

def assembled (initial run : RunRecord Content) (gathered : List (Stamped Datum)) :
    Except Failure (Captured Body) := do
  let data := gathered.map Stamped.datum
  let ids ← rules.claimIds run.content
  if initial.mutationEpoch = run.mutationEpoch ∧ ids ⊆ rules.claimsRead data ∧
      rules.claimsRead data ⊆ ids then do
    let body ← rules.assemble polled run.content data
    return .full ⟨key.tenantId, polled.request.runId, run.mutationEpoch, body⟩
      (gathered.map Stamped.epoch ++ [run.mutationEpoch])
  else
    return .stale initial.mutationEpoch

def read (initial : RunRecord Content) (gathered : List (Stamped Datum)) :
    Phase Content Datum Body Bytes :=
  match store.getRun ⟨key.tenantId, polled.request.runId⟩ with
  | none => .finished
  | some run =>
    match rules.nextRead initial.content (gathered.map Stamped.datum) with
    | some reader =>
      match reader run.content with
      | .error failure => failWith polled failure
      | .ok datum =>
        .working polled (.read attempt initial (gathered ++ [⟨datum, run.mutationEpoch⟩]))
    | none =>
      match assembled rules key polled initial run gathered with
      | .error failure => failWith polled failure
      | .ok captured => .working polled (.freeze attempt captured)

def freezable (epoch : Nat) :
    Except (Task Content Datum Body Bytes) (ExportState × RunRecord Content) :=
  match store.state key with
  | none => .error (.defer "RESOURCE_NOT_FOUND")
  | some state =>
    if state.status = .failed then .error (.defer (state.errors.headD ""))
    else if (store.snapshots.find key).isSome then .error (retry attempt)
    else
      match store.getRun ⟨key.tenantId, state.request.runId⟩ with
      | none => .error (.defer "RESOURCE_NOT_FOUND")
      | some run =>
        if run.mutationEpoch ≠ epoch then .error (retry attempt) else .ok (state, run)

def freeze (captured : Captured Body) : Phase Content Datum Body Bytes :=
  match freezable store key attempt captured.mutationEpoch with
  | .error task => .working polled task
  | .ok (state, _) =>
    match captured with
    | .stale _ => .finished
    | .full manifest readAt =>
      if maxExportBytes < rules.bytes manifest then .working polled (.defer "EXPORT_SIZE_LIMIT")
      else if manifest.tenantId ≠ key.tenantId ∨ manifest.runId ≠ state.request.runId then
        .working polled (.defer "EXPORT_INTEGRITY_FAILED")
      else .working polled (.commit attempt manifest readAt (rules.report manifest))

def commit (manifest : Manifest Body) (readAt : List Nat) (verdict : Except String Bool) :
    Store Content Body Bytes × Task Content Datum Body Bytes :=
  match freezable store key attempt manifest.mutationEpoch with
  | .error task => (store, task)
  | .ok (state, run) =>
    match verdict with
    | .error code => (store, .defer code)
    | .ok isPartial =>
      if isPartial ∧ !state.request.allowPartial then (store, .defer "REPORT_NOT_FINALIZABLE")
      else (publish rules store state run manifest readAt, .restore)

def build (manifest : Manifest Body) : Phase Content Datum Body Bytes :=
  match rules.build manifest polled.request.formats with
  | .error failure => failWith polled failure
  | .ok archive =>
    if archive.isPartial ∧ !polled.request.allowPartial then
      .working polled (.defer "REPORT_NOT_FINALIZABLE")
    else .working polled (.complete archive)

/-- `complete`. -/
def completing (archive : Archive Bytes) :
    Store Content Body Bytes × Phase Content Datum Body Bytes :=
  match store.state key with
  | none => (store, .working polled (.defer "RESOURCE_NOT_FOUND"))
  | some state =>
    if state.status = .ready then (store, .finished)
    else (complete rules store state archive, .finished)

/-- `defer`. -/
def deferring (code : String) : Store Content Body Bytes :=
  match store.state key with
  | none => store
  | some state => if state.status = .ready then store else defer store state code now

def work : Task Content Datum Body Bytes →
    Store Content Body Bytes × Phase Content Datum Body Bytes
  | .check attempt => (store, .working polled (check rules store key attempt))
  | .capture attempt => (store, .working polled (capture store key attempt))
  | .initial attempt => (store, initial rules store key polled attempt)
  | .read attempt first gathered => (store, read rules store key polled attempt first gathered)
  | .freeze attempt captured => (store, freeze rules store key polled attempt captured)
  | .commit attempt manifest readAt verdict =>
    let (store, task) := commit rules store key attempt manifest readAt verdict
    (store, .working polled task)
  | .restore => (store, .working polled (restore rules store key))
  | .build manifest => (store, build rules polled manifest)
  | .complete archive => completing rules store key polled archive
  | .defer code => (deferring store key now code, .finished)

end Work

/-- One step of a worker. -/
def stepWorker (worker : Worker Content Datum Body Bytes) :
    Store Content Body Bytes × Worker Content Datum Body Bytes :=
  match worker.phase with
  | .polling => (store, { worker with phase := poll store worker.key worker.now })
  | .finished => (store, worker)
  | .working polled task =>
    let (store, phase) := work rules store worker.key worker.now polled task
    (store, { worker with phase })

structure System (Content Datum Body Bytes : Type) where
  store : Store Content Body Bytes
  workers : List (Worker Content Datum Body Bytes)

def System.initial : System Content Datum Body Bytes where
  store := ⟨Table.empty, Table.empty, Table.empty, Table.empty⟩
  workers := []

/-- What may happen next. -/
inductive Event (Content : Type) where
  | createRun (key : RunKey) (content : Content)
  | changeRun (key : RunKey) (raised : Bool) (content : Content)
  | deleteRun (key : RunKey)
  | reserve (key : ExportKey) (request : ExportRequest)
  | poll (key : ExportKey) (now : Nat)
  | step (index : Nat)
  | crash (index : Nat)

def changeRun (key : RunKey) (change : RunRecord Content → RunRecord Content) :
    Store Content Body Bytes :=
  match store.runs.find key with
  | none => store
  | some run => { store with runs := store.runs.put { change run with key := run.key } }

def next (system : System Content Datum Body Bytes) :
    Event Content → System Content Datum Body Bytes
  | .createRun key content =>
    match system.store.runs.insert? ⟨key, 0, false, content⟩ with
    | none => system
    | some runs => { system with store := { system.store with runs } }
  | .changeRun key raised content =>
    { system with
      store := changeRun system.store key fun run =>
        { run with
          mutationEpoch := if raised then run.mutationEpoch + 1 else run.mutationEpoch
          content } }
  | .deleteRun key =>
    { system with store := changeRun system.store key fun run => { run with deleted := true } }
  | .reserve key request => { system with store := reserve system.store key request }
  | .poll key now => { system with workers := system.workers ++ [⟨key, now, .polling⟩] }
  | .step index =>
    match system.workers[index]? with
    | none => system
    | some worker =>
      let (store, worker) := stepWorker rules system.store worker
      { store, workers := system.workers.set index worker }
  | .crash index =>
    match system.workers[index]? with
    | none => system
    | some worker =>
      { system with workers := system.workers.set index { worker with phase := .finished } }

end ProofOps.Adapters.Local.Exports
