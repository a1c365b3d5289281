import Mathlib.Data.String.Basic
import ProofOps.Adapters.Local.JobStore
import ProofOps.Foundation.Checked
import ProofOps.Foundation.Sorting

/-!
# Raster OCR requests

`raster_job_store`: the immutable records of authorized raster OCR requests and of what the
provider answered, and the checks of a request, of a receipt and of a checkpoint against them.
The frozen snapshot of the run authorizes a request; the lease of the parse job fences it.

Canonical hashes, the lexical checks of identifiers and the composition of the live policy are
parameters.
-/

namespace ProofOps.Adapters.Local.Raster

open Foundation Foundation.Checked

/-! ### Records -/

structure Policy where
  mode : String
  (maxPages maxCalls : Int)
  nativePolicySha256 : String

/-- `raster_ocr_runtime`. -/
structure Grant where
  (rasterPolicySha256 mode : Option String)
  (maxPages maxCalls : Option Int)

structure Snapshot where
  (tenantId runId inputHash extractionMode mode scope : Option String)
  (documentVersionId documentSha256 : String)
  selectedPages : List Int
  rasterOcrPolicy : Option Policy
  rasterOcrPolicyHash : Option String
  rasterOcrRuntime : Option Grant
  rasterOcrRuntimeArtifactHash : Option String
  hasOtherRaster : Bool

/-- A `run_snapshots` row. -/
structure SnapshotRow where
  (tenantId runId : String)
  payload : Snapshot

def SnapshotRow.key (row : SnapshotRow) : RunKey :=
  (row.tenantId, row.runId)

structure Row where
  sourceId : Option String
  (submittedPage physicalPage : Option Int)
  deriving DecidableEq

structure Correspondence where
  (schema tenantId documentVersionId parseManifestId sourceSha256 inputPdfSha256 : Option String)
  inputBytes : Option Int
  graphSha256 : Option String
  rows : Option (List Row)
  deriving DecidableEq

structure Request where
  (schema tenantId runId jobId documentVersionId parseManifestId inputHash sourceSha256 : String)
  selectedPages : List Int
  mode : String
  (maxPages maxCalls submittedPages : Int)
  (eligibleSourceIds requestedSourceIds : List String)
  (policySha256 nativeAttestationSha256 : String)
  correspondence : Correspondence
  requestId : String
  deriving DecidableEq

structure Registered where
  request : Request
  (requestSha256 owner : String)
  fencingToken : Nat

/-- `(tenant, run, record)`. -/
abbrev RecordKey := String × String × String

/-- A `raster_request` row. -/
structure RequestRow where
  (tenantId runId recordId : String)
  value : Registered

def RequestRow.key (row : RequestRow) : RecordKey :=
  (row.tenantId, row.runId, row.recordId)

/-- The pages that were billed. -/
inductive Billed where
  | missing
  | pages (numbers : List Int)
  | other
  deriving DecidableEq

/-- What a response says of its use. -/
structure Usage where
  pages : Option Int
  (standard enhanced : Billed)
  deriving DecidableEq

structure RawResponse where
  model : Option String
  usage : Option Usage
  deriving DecidableEq

/-- What is stored of a response. -/
structure Receipt where
  (model providerModel mode : Option String)
  pages : Option Int
  (requestSha256 responseSha256 : Option String)
  rawResponse : Option RawResponse
  deriving DecidableEq

structure Wrapper where
  requestSha256 : String
  receipt : Receipt
  receiptSha256 : String
  deriving DecidableEq

/-- A `raster_receipt` row. -/
structure ReceiptRow where
  (tenantId runId recordId : String)
  value : Wrapper

def ReceiptRow.key (row : ReceiptRow) : RecordKey :=
  (row.tenantId, row.runId, row.recordId)

/-- The three tables of the registry. -/
structure Tables where
  snapshots : Table SnapshotRow SnapshotRow.key
  requests : Table RequestRow RequestRow.key
  receipts : Table ReceiptRow ReceiptRow.key

/-- A reading of a page by the parser. -/
structure NativeRecord where
  (sourceId status reason : String)
  rendered : Option (String × String)

/-- The readings of a document. -/
structure Native where
  inputGraphSha256 : String
  records : List NativeRecord

structure Ref where
  (requestId requestSha256 receiptSha256 : String)
  deriving DecidableEq

/-- `raster_ocr_coverage`. -/
structure Coverage where
  (eligibleSourceIds requestedSourceIds corroboratedSourceIds unresolvedSourceIds : List String)
  failedSourceIds : List String

structure Envelope where
  schema : String
  rasterOcrPolicySha256 : Option String
  rasterOcrArtifacts : Option (List Ref)
  rasterOcrCoverage : Option Coverage
  hasOtherRaster : Bool
  nativeParagraphPolicySha256 : Option String
  native : Option Native

/-- The body whose hash a receipt carries. -/
structure Body where
  mode : String
  pdfSha256 : Option String
  pages : Int
  bytesLen : Option Int

structure Rules (ρ : Type) where
  hooks : Hooks ρ
  parseModelPinned : String
  requireUuid : String → String → Except Refusal Unit
  requireSha256 : String → String → Except Refusal Unit
  snapshotHash : Snapshot → String
  validatePolicy : Policy → Except Refusal Unit
  policyHash : Policy → String
  grantHash : Grant → String
  manifestId : String → String → String
  requestId : String → Request → String
  requestHash : Request → String
  receiptHash : Receipt → String
  bodyHash : Body → String
  responseHash : RawResponse → String
  nativeHash : Native → String
  receiptSize : Receipt → Option Nat
  policyAccepted : Policy → Bool
  envelope : Bytes → Envelope

variable {ρ : Type}

def grantCovers (policy : Policy) (hash : String) (grant : Grant) : Prop :=
  grant.rasterPolicySha256 = some hash ∧ grant.mode = some policy.mode ∧
    (grant.maxPages.any fun pages => policy.maxPages ≤ pages && pages ≤ 10) = true ∧
    (grant.maxCalls.any fun calls => policy.maxCalls ≤ calls && calls ≤ 20) = true

instance (policy : Policy) (hash : String) (grant : Grant) :
    Decidable (grantCovers policy hash grant) :=
  inferInstanceAs (Decidable (_ ∧ _ ∧ _ ∧ _))

variable (rules : Rules ρ)

def validateRasterSnapshot (snapshot : Snapshot) : Except Refusal Unit :=
  match snapshot.rasterOcrPolicy, snapshot.rasterOcrPolicyHash, snapshot.rasterOcrRuntime,
    snapshot.rasterOcrRuntimeArtifactHash with
  | none, none, none, none =>
    refuse (snapshot.hasOtherRaster = true) (.valueError "RASTER_SNAPSHOT_INVALID")
  | some policy, some hash, some grant, some grantHash => do
    refuse (snapshot.hasOtherRaster = true ∨ snapshot.extractionMode ≠ some "upstage_probe" ∨
      snapshot.mode ≠ some "disclosure" ∨ snapshot.scope ≠ some "declared_subset")
      (.valueError "RASTER_SNAPSHOT_INVALID")
    rules.validatePolicy policy
    refuse (rules.policyHash policy ≠ hash ∨ rules.grantHash grant ≠ grantHash ∨
      ¬grantCovers policy hash grant) (.valueError "RASTER_SNAPSHOT_INVALID")
  | _, _, _, _ => .error (.valueError "RASTER_SNAPSHOT_INVALID")

variable (jobs : JobStore ρ) (tables : Tables) (message : JobMessage)

/-- `_snapshot`. -/
def frozenSnapshot : Except Refusal Snapshot :=
  match tables.snapshots.find message.runKey with
  | none => .error (.valueError "RASTER_RUN_SNAPSHOT_MISSING")
  | some row => do
    let snapshot := row.payload
    refuse (snapshot.tenantId ≠ some message.tenantId ∨ snapshot.runId ≠ some message.runId ∨
      snapshot.inputHash ≠ some message.inputHash ∨
      rules.snapshotHash snapshot ≠ message.inputHash) (.valueError "RASTER_RUN_INPUT_MISMATCH")
    validateRasterSnapshot rules snapshot
    return snapshot

/-! ### A request -/

variable (request : Request)

/-- The names in a request. -/
def checkNames : Except Refusal Unit := do
  rules.requireUuid "request_id" request.requestId
  rules.requireUuid "tenant_id" request.tenantId
  rules.requireUuid "run_id" request.runId
  rules.requireUuid "job_id" request.jobId
  rules.requireUuid "document_version_id" request.documentVersionId
  rules.requireUuid "parse_manifest_id" request.parseManifestId
  rules.requireSha256 "input_hash" request.inputHash
  rules.requireSha256 "source_sha256" request.sourceSha256
  rules.requireSha256 "policy_sha256" request.policySha256
  rules.requireSha256 "native_attestation_sha256" request.nativeAttestationSha256

variable (snapshot : Snapshot)

def InScope (policy : Policy) (request : Request) : Prop :=
  request.schema = "local_raster_ocr_request_v1" ∧
    (request.tenantId, request.runId, request.jobId, request.inputHash) =
      (message.tenantId, message.runId, message.jobId, message.inputHash) ∧
    request.documentVersionId = snapshot.documentVersionId ∧
    request.parseManifestId = rules.manifestId message.runId message.inputHash ∧
    request.sourceSha256 = snapshot.documentSha256 ∧
    request.selectedPages = snapshot.selectedPages ∧
    (request.mode, request.maxPages, request.maxCalls) =
      (policy.mode, policy.maxPages, policy.maxCalls) ∧
    some request.policySha256 = snapshot.rasterOcrPolicyHash

instance (message : JobMessage) (snapshot : Snapshot) (policy : Policy) (request : Request) :
    Decidable (InScope rules message snapshot policy request) :=
  inferInstanceAs (Decidable (_ ∧ _ ∧ _ ∧ _ ∧ _ ∧ _ ∧ _ ∧ _))

def rowInPlace (row : Row × Nat) : Bool :=
  row.1.submittedPage = some (row.2 + 1 : Int) &&
    row.1.physicalPage.any fun page => request.selectedPages.contains page

def RowsMatch (rows : List Row) : Prop :=
  request.submittedPages = rows.length ∧ (rows.length : Int) ≤ request.maxPages ∧
    request.requestedSourceIds.Nodup ∧ request.eligibleSourceIds.Nodup ∧
    request.requestedSourceIds ⊆ request.eligibleSourceIds ∧
    rows.map Row.sourceId = request.requestedSourceIds.map some ∧
    rows.zipIdx.all (rowInPlace request) = true

instance (request : Request) (rows : List Row) : Decidable (RowsMatch request rows) :=
  inferInstanceAs (Decidable (_ ∧ _ ∧ _ ∧ _ ∧ _ ∧ _ ∧ _))

def Corresponds : Prop :=
  let correspondence := request.correspondence
  correspondence.schema = some "raster_ocr_correspondence_v1" ∧
    correspondence.tenantId = some request.tenantId ∧
    correspondence.documentVersionId = some request.documentVersionId ∧
    correspondence.parseManifestId = some request.parseManifestId ∧
    correspondence.sourceSha256 = some request.sourceSha256 ∧
    (∃ rows ∈ correspondence.rows, RowsMatch request rows) ∧
    correspondence.inputPdfSha256.isSome ∧
    correspondence.inputBytes.any (fun bytes => 1 ≤ bytes) = true

instance (request : Request) : Decidable (Corresponds request) :=
  inferInstanceAs (Decidable (_ ∧ _ ∧ _ ∧ _ ∧ _ ∧ _ ∧ _ ∧ _))

variable (lease : JobLease)

/-- `_request`. -/
def checkRequest (given : Option Request) (now : Int) (wait : Nat) : Except Refusal Request := do
  checkTime now 1
  let message := lease.message
  refuse (message.stage ≠ "parse" ∨ (owned rules.hooks jobs lease (now + wait)).isNone)
    (.leaseLost "LEASE_LOST")
  match given with
  | none => .error (.valueError "RASTER_REQUEST_INVALID")
  | some request => do
    let snapshot ← frozenSnapshot rules tables message
    match snapshot.rasterOcrPolicy with
    | none => .error .notFound
    | some policy => do
      checkNames rules request
      refuse (¬InScope rules message snapshot policy request)
        (.valueError "RASTER_REQUEST_SCOPE_MISMATCH")
      refuse (request.maxPages < 1 ∨ request.maxCalls < 1 ∨ request.submittedPages < 1)
        (.valueError "RASTER_REQUEST_LIMIT_INVALID")
      refuse (¬Corresponds request) (.valueError "RASTER_REQUEST_CORRESPONDENCE_INVALID")
      rules.requireSha256 "input_pdf_sha256"
        (request.correspondence.inputPdfSha256.getD "")
      refuse (request.requestId ≠ rules.requestId message.jobId { request with requestId := "" })
        (.valueError "RASTER_REQUEST_ID_INVALID")
      return request

/-- The requests of a run. -/
def requestsOf (key : RunKey) : List RequestRow :=
  tables.requests.rows.filter fun row => (row.tenantId, row.runId) = key

/-- The row of a request. -/
def requestRow (request : Request) : RequestRow where
  tenantId := lease.message.tenantId
  runId := lease.message.runId
  recordId := request.requestId
  value :=
    { request := request
      requestSha256 := rules.requestHash request
      owner := lease.owner
      fencingToken := lease.fencingToken }

def registerRasterRequest (given : Option Request) (now : Int) (wait : Nat) :
    Except Refusal (Bool × Tables) := do
  let request ← checkRequest rules jobs tables lease given now wait
  let row := requestRow rules lease request
  match tables.requests.find row.key with
  | some stored => do
    refuse (stored.value.request ≠ request) (.valueError "RASTER_REQUEST_IMMUTABLE_MISMATCH")
    return (false, tables)
  | none => do
    refuse (request.maxCalls ≤ (requestsOf tables lease.message.runKey).length)
      (.valueError "RASTER_MAX_CALLS_EXCEEDED")
    let requests ← insertRow tables.requests row
    return (true, { tables with requests := requests })

/-! ### A receipt -/

/-- `_registered`. -/
def checkRegistered (value : Registered) : Except Refusal Registered := do
  refuse (value.requestSha256 ≠ rules.requestHash value.request)
    (.valueError "RASTER_REQUEST_INTEGRITY_MISMATCH")
  return value

def bills (pages : Int) : Billed → Prop
  | .pages numbers => (Sorting.sortedBy id numbers) =
      (List.range pages.toNat).map fun index => (index + 1 : Int)
  | _ => False

instance (pages : Int) : (billed : Billed) → Decidable (bills pages billed)
  | .pages _ => inferInstanceAs (Decidable (_ = _))
  | .missing => .isFalse id
  | .other => .isFalse id

def validateRasterBilling (usage : Usage) (mode : String) (pages : Int) : Except Refusal Unit := do
  refuse ((mode ≠ "standard" ∧ mode ≠ "enhanced") ∨ pages < 1 ∨ 10 < pages)
    (.valueError "RASTER_BILLING_PAGES_INVALID")
  let (billed, unbilled) :=
    if mode = "standard" then (usage.standard, usage.enhanced) else (usage.enhanced, usage.standard)
  refuse (¬bills pages billed ∨ (unbilled ≠ .missing ∧ unbilled ≠ .pages []))
    (.valueError "RASTER_BILLING_PAGES_INVALID")

def bodyOf : Body where
  mode := request.mode
  pdfSha256 := request.correspondence.inputPdfSha256
  pages := request.submittedPages
  bytesLen := request.correspondence.inputBytes

/-- `_receipt`. -/
def checkReceipt (receipt : Receipt) : Except Refusal Unit := do
  refuse ((rules.receiptSize receipt).all (fun size => 2 * 1024 * 1024 < size) = true)
    (.valueError "RASTER_RECEIPT_INVALID")
  match receipt.rawResponse.bind fun raw => raw.usage.map fun usage => (raw, usage) with
  | none => .error (.valueError "RASTER_PROVIDER_RECEIPT_INVALID")
  | some (raw, usage) => do
    refuse (receipt.model ≠ some rules.parseModelPinned ∨
      receipt.providerModel ≠ some rules.parseModelPinned ∨ receipt.mode ≠ some request.mode ∨
      receipt.pages ≠ some request.submittedPages ∨ raw.model ≠ some rules.parseModelPinned ∨
      usage.pages ≠ some request.submittedPages ∨
      receipt.requestSha256 ≠ some (rules.bodyHash (bodyOf request)) ∨
      receipt.responseSha256 ≠ some (rules.responseHash raw))
      (.valueError "RASTER_PROVIDER_RECEIPT_INVALID")
    validateRasterBilling usage request.mode request.submittedPages

variable (requestId : String)

/-- `_get` of a request row. -/
def getRequest : Except Refusal RequestRow :=
  match tables.requests.find (message.tenantId, message.runId, requestId) with
  | none => .error .notFound
  | some row => .ok row

variable (registered : Registered)

/-- The row of a receipt. -/
def receiptRow (receipt : Receipt) : ReceiptRow where
  tenantId := message.tenantId
  runId := message.runId
  recordId := requestId
  value :=
    { requestSha256 := registered.requestSha256
      receipt := receipt
      receiptSha256 := rules.receiptHash receipt }

/-- `finish_raster_request`. -/
def finishRasterRequest (receipt : Receipt) : Except Refusal Tables := do
  rules.requireUuid "request_id" requestId
  let message := lease.message
  let _ ← getJob jobs message
  let row ← getRequest tables message requestId
  let registered ← checkRegistered rules row.value
  refuse (registered.request.jobId ≠ message.jobId ∨
    (registered.owner, registered.fencingToken) ≠ (lease.owner, lease.fencingToken))
    (.leaseLost "unknown raster request owner")
  checkReceipt rules registered.request receipt
  let made := receiptRow rules message requestId registered receipt
  match tables.receipts.find made.key with
  | some stored => do
    refuse (stored.value ≠ made.value) (.valueError "RASTER_RECEIPT_IMMUTABLE_MISMATCH")
    return tables
  | none => do
    let receipts ← insertRow tables.receipts made
    return { tables with receipts := receipts }

/-! ### A checkpoint -/

/-- `sorted(set(values))`. -/
def sortedSet (values : List String) : List String :=
  Sorting.sortedBy id values.dedup

def Coverage.Consistent (coverage : Coverage) : Prop :=
  (∀ values ∈ [coverage.eligibleSourceIds, coverage.requestedSourceIds,
      coverage.corroboratedSourceIds, coverage.unresolvedSourceIds, coverage.failedSourceIds],
    "" ∉ values ∧ values = sortedSet values) ∧
    coverage.corroboratedSourceIds ⊆ coverage.requestedSourceIds ∧
    coverage.requestedSourceIds ⊆ coverage.eligibleSourceIds ∧
    (∀ id ∈ coverage.unresolvedSourceIds,
      id ∈ coverage.eligibleSourceIds ∧ id ∉ coverage.corroboratedSourceIds) ∧
    (∀ id ∈ coverage.eligibleSourceIds,
      id ∉ coverage.corroboratedSourceIds → id ∈ coverage.unresolvedSourceIds) ∧
    coverage.failedSourceIds = []

instance (coverage : Coverage) : Decidable coverage.Consistent :=
  inferInstanceAs (Decidable (_ ∧ _ ∧ _ ∧ _ ∧ _ ∧ _))

def checkpointInvalid : Refusal :=
  .valueError "RASTER_OCR_CHECKPOINT_INVALID"

def checkRef (ref : Ref) : Except Refusal Unit := do
  rules.requireUuid "request_id" ref.requestId
  rules.requireSha256 "request_sha256" ref.requestSha256
  rules.requireSha256 "receipt_sha256" ref.receiptSha256

variable (envelope : Envelope)

/-- `checkpoint_raster`. -/
def checkpointRaster : Except Refusal (Option (List Ref × Coverage)) :=
  if envelope.schema ≠ "local_parser_checkpoint_v5" then
    if envelope.rasterOcrPolicySha256.isSome ∨ envelope.rasterOcrArtifacts.isSome ∨
        envelope.rasterOcrCoverage.isSome ∨ envelope.hasOtherRaster = true then
      .error (.valueError "RASTER_OCR_CHECKPOINT_UNSUPPORTED")
    else .ok none
  else
    match envelope.rasterOcrPolicySha256, envelope.rasterOcrArtifacts,
      envelope.rasterOcrCoverage with
    | some policy, some refs, some coverage => do
      refuse (envelope.hasOtherRaster = true) checkpointInvalid
      (rules.requireSha256 "raster_ocr_policy_sha256" policy).mapError fun _ => checkpointInvalid
      refuse (20 < refs.length ∨ ¬coverage.Consistent) checkpointInvalid
      (refs.forM (checkRef rules)).mapError fun _ => checkpointInvalid
      refuse (refs.map Ref.requestId ≠ sortedSet (refs.map Ref.requestId)) checkpointInvalid
      return some (refs, coverage)
    | _, _, _ => .error checkpointInvalid

def eligibleRasterSources (native : Native) : List String :=
  sortedSet ((native.records.filter fun record =>
    record.status = "unresolved" && record.reason = "rendered_text_unresolved" &&
      record.rendered.any fun rendered =>
        rendered.1 = "read" && PyText.strip rendered.2 != "").map NativeRecord.sourceId)

def jobRequests : List RequestRow :=
  Sorting.sortedBy RequestRow.recordId
    ((requestsOf tables message.runKey).filter fun row =>
      row.value.request.jobId = message.jobId)

def refOf (wrapper : Wrapper) : Ref where
  requestId := registered.request.requestId
  requestSha256 := registered.requestSha256
  receiptSha256 := wrapper.receiptSha256

def Bound (native : Native) (requested : List String) (request : Request) : Prop :=
  request.nativeAttestationSha256 = rules.nativeHash native ∧
    request.correspondence.graphSha256 = some native.inputGraphSha256 ∧
    request.inputHash = message.inputHash ∧
    some request.policySha256 = snapshot.rasterOcrPolicyHash ∧
    request.eligibleSourceIds = eligibleRasterSources native ∧
    ∀ id ∈ request.requestedSourceIds, id ∉ requested

instance (message : JobMessage) (snapshot : Snapshot) (native : Native) (requested : List String)
    (request : Request) : Decidable (Bound rules message snapshot native requested request) :=
  inferInstanceAs (Decidable (_ ∧ _ ∧ _ ∧ _ ∧ _ ∧ _))

def storedReceipt : Except Refusal Wrapper :=
  match tables.receipts.find (message.tenantId, message.runId, registered.request.requestId) with
  | none => .error .notFound
  | some stored => do
    refuse (stored.value.requestSha256 ≠ registered.requestSha256 ∨
      stored.value.receiptSha256 ≠ rules.receiptHash stored.value.receipt)
      (.valueError "RASTER_RECEIPT_INTEGRITY_MISMATCH")
    checkReceipt rules registered.request stored.value.receipt
    return stored.value

def bindRequest (native : Native) (made : List String × List Ref) (row : RequestRow) :
    Except Refusal (List String × List Ref) := do
  let registered ← checkRegistered rules row.value
  refuse (¬Bound rules message snapshot native made.1 registered.request)
    (.valueError "RASTER_CHECKPOINT_REQUEST_MISMATCH")
  let wrapper ← storedReceipt rules tables message registered
  return (made.1 ++ registered.request.requestedSourceIds, made.2 ++ [refOf registered wrapper])

def validateEnabled (policy : Policy) (envelope : Envelope) : Except Refusal Unit := do
  validateRasterSnapshot rules snapshot
  match ← checkpointRaster rules envelope, envelope.native with
  | some (refs, coverage), some native => do
    refuse (rules.policyAccepted policy = false ∨
      envelope.rasterOcrPolicySha256 ≠ snapshot.rasterOcrPolicyHash ∨
      envelope.nativeParagraphPolicySha256 ≠ some policy.nativePolicySha256)
      (.valueError "RASTER_CHECKPOINT_POLICY_MISMATCH")
    refuse (coverage.eligibleSourceIds ≠ eligibleRasterSources native)
      (.valueError "RASTER_CHECKPOINT_COVERAGE_MISMATCH")
    let made ← (jobRequests tables message).foldlM
      (bindRequest rules tables message snapshot native) ([], [])
    refuse (refs ≠ made.2 ∨ policy.maxCalls < refs.length ∨
      coverage.requestedSourceIds ≠ sortedSet made.1)
      (.valueError "RASTER_CHECKPOINT_INPUT_MISMATCH")
  | _, _ => .error .notFound

def validateRasterCheckpointBindings
    : Except Refusal Unit :=
  match snapshot.rasterOcrPolicy with
  | none => refuse (envelope.schema = "local_parser_checkpoint_v5")
      (.valueError "RASTER_CHECKPOINT_POLICY_MISMATCH")
  | some policy => do
    refuse (envelope.schema ≠ "local_parser_checkpoint_v5")
      (.valueError "RASTER_CHECKPOINT_POLICY_MISMATCH")
    validateEnabled rules tables message snapshot policy envelope

/-- The check of a commit. -/
def checkCheckpoint : Except Refusal Unit := do
  let _ ← checkpointRaster rules envelope
  match tables.snapshots.find message.runKey with
  | none => .error (.valueError "parse checkpoint requires a frozen run snapshot")
  | some row => validateRasterCheckpointBindings rules tables message row.payload envelope

end ProofOps.Adapters.Local.Raster
