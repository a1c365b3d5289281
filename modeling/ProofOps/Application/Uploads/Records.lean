import Mathlib.Data.Prod.Lex
import Mathlib.Data.String.Basic
import ProofOps.Application.Uploads.AuditLog

/-!
# Upload records

The records of the upload service, what it checks in a request body, and the store that its
transactions read and write.  A record of any kind is read and written under one guard: the
document that it names must not be deleted.

The limits of an upload keep what the service reads of them; a company and the metadata of an
inspection are values that are only passed on.
-/

namespace ProofOps.Application.Uploads

open Foundation Foundation.Checked

inductive UploadError where
  | rejected (code : String)
  | integrity
  | missingFile
  | keyError

def notFound : UploadError := .rejected "NOT_FOUND"

def validationError : UploadError := .rejected "VALIDATION_ERROR"

def versionConflict : UploadError := .rejected "VERSION_CONFLICT"

/-- The content of a file. -/
abbrev Bytes := List UInt8

/-- The payload of a new document. -/
structure DocumentPayload where
  (companyId title documentType : String)

/-- The content a client states. -/
structure CompletePayload where
  sha256 : String
  sizeBytes : Int
  deriving DecidableEq

/-- The payload of a new upload. -/
structure VersionPayload where
  filename : String
  content : CompletePayload
  reportYear : Int
  (industrySystem periodStart periodEnd rightsProfileId : String)
  (industryCode consolidationScope : Option String)

def hostedMaxUploadBytes : Int := 150 * 1024 * 1024

/-- What `PdfLimits` says to the service. -/
structure Limits where
  policyProfile : String
  maxBytes : Nat

/-! ### Records -/

/-- The public record of a document. -/
structure Document where
  documentId : String
  payload : DocumentPayload
  latestVersionId : Option String
  revision : Nat
  createdAt : Int

structure StoredDocument (Json : Type) where
  document : Document
  company : Json

/-- The key of a document. -/
structure DocumentKey where
  (tenantId documentId : String)
  deriving DecidableEq

/-- A row of kind `document`. -/
structure DocumentRow (Json : Type) where
  tenantId : String
  data : StoredDocument Json

def DocumentRow.key {Json : Type} (row : DocumentRow Json) : DocumentKey :=
  ⟨row.tenantId, row.data.document.documentId⟩

/-- What an initiated upload answers. -/
structure Ticket where
  (uploadId documentId postUrl postTicket : String)
  expiresAt : Int

/-- The states of a validation job. -/
inductive JobStatus where
  | queued
  | running
  | ready
  | failed

/-- The validation of an upload's content. -/
structure ValidationJob where
  (jobId uploadId tenantId objectVersionId versionId : String)
  status : JobStatus
  attempt : Nat
  (resultVersionId errorCode : Option String)
  createdAt : Int

inductive UploadStatus where
  | pending
  | accepted
  | rejected
  deriving DecidableEq

/-- The key of an upload. -/
structure UploadKey where
  (tenantId uploadId : String)
  deriving DecidableEq

structure UploadRow (Json : Type) where
  key : UploadKey
  ticket : Ticket
  metadata : VersionPayload
  document : StoredDocument Json
  (versionId objectVersionId : String)
  status : UploadStatus
  (createdAt expires : Int)
  received : Bool
  limits : Limits
  validationJob : Option ValidationJob
  uploadSecurity : Option Json

structure VersionResult where
  (versionId documentId sha256 : String)
  reportYear : Int
  pageCount : Nat
  status : String
  createdAt : Int

def VersionResult.rank (result : VersionResult) : ℤ ×ₗ String :=
  toLex (result.createdAt, result.versionId)

/-- The key of a version. -/
structure VersionKey where
  (tenantId versionId : String)
  deriving DecidableEq

inductive Security (Json : Type) where
  | inspected (metadata : Json)
  | policy (limits : Limits)

/-- A row of kind `version`. -/
structure VersionRow (Json : Type) where
  tenantId : String
  result : VersionResult
  metadata : VersionPayload
  company : Json
  (documentType objectVersionId : String)
  uploadSecurity : Security Json

def VersionRow.key {Json : Type} (row : VersionRow Json) : VersionKey :=
  ⟨row.tenantId, row.result.versionId⟩

/-- A row of `upload_records`. -/
inductive StoredRecord (Json : Type) where
  | document (row : DocumentRow Json)
  | upload (row : UploadRow Json)
  | version (row : VersionRow Json)

def StoredRecord.documentId {Json : Type} : StoredRecord Json → Option String
  | .document row => some row.data.document.documentId
  | .upload _ => none
  | .version row => some row.result.documentId

/-! ### Responses and deletions -/

/-- A stored response. -/
inductive Response where
  | document (document : Document)
  | ticket (ticket : Ticket)
  | version (result : VersionResult)

inductive Route where
  | documents
  | versions (documentId : String)
  | complete (uploadId : String)
  deriving DecidableEq

structure IdempotencyKey where
  tenantId : String
  route : Route
  key : String
  deriving DecidableEq

/-- A row of `upload_idempotency`. -/
structure IdempotencyRow where
  key : IdempotencyKey
  fingerprint : String
  response : Response
  expires : Int

/-- The kinds of upload records. -/
inductive RecordKind where
  | document
  | upload
  | version
  deriving DecidableEq

structure ManifestEntry where
  kind : RecordKind
  (resourceId sha256 : String)

structure DeletionManifest where
  (tenantId documentId executionProfile policyStatus physicalDeletionStatus : String)
  documentVersionIds : List String
  categories : List (String × String)
  uploadRecords : List ManifestEntry

/-- A row of `retention_tombstones`. -/
structure Tombstone where
  key : DocumentKey
  deletionId : String
  requestedAt : Int
  (requestedBy requestKey requestHash : String)
  manifest : DeletionManifest

/-- `LocalRetentionStore`. -/
structure Store (Json : Type) where
  documents : Table (DocumentRow Json) DocumentRow.key
  uploads : Table (UploadRow Json) UploadRow.key
  versions : Table (VersionRow Json) VersionRow.key
  idempotency : Table IdempotencyRow IdempotencyRow.key
  audit : AuditLog
  tombstones : Table Tombstone Tombstone.key

structure ServiceRules (Json : Type) where
  isUuid : String → Bool
  isIsoDate : String → Bool
  sha256 : Bytes → String
  limits : Limits
  documentFingerprint : DocumentPayload → String
  versionFingerprint : VersionPayload → String
  completeFingerprint : CompletePayload → String
  documentHash : Document → String
  snapshotHash : VersionRow Json → String
  deletionHash : String → String → DeletionManifest → String
  recordHash : StoredRecord Json → String
  requestHash : String → String
  requestKey : String → String → String → String
  hashEvent : EventBody → String

variable {Json : Type}

/-- A store without rows. -/
def Store.initial : Store Json where
  documents := Table.empty
  uploads := Table.empty
  versions := Table.empty
  idempotency := Table.empty
  audit := Table.empty
  tombstones := Table.empty

/-- `_text`. -/
def checkText (maximum : Nat) (value : String) : Except UploadError Unit :=
  refuse (¬(1 ≤ value.length ∧ value.length ≤ maximum)) validationError

variable (rules : ServiceRules Json)

/-- `_uuid`. -/
def checkUuid (value : String) : Except UploadError Unit :=
  refuse (rules.isUuid value = false) validationError

def isSha256 (value : String) : Bool :=
  value.length = 64 && value.toList.all fun c => ('0' ≤ c && c ≤ '9') || ('a' ≤ c && c ≤ 'f')

/-- `validate_payload`. -/
def validateDocument (payload : DocumentPayload) : Except UploadError Unit := do
  checkUuid rules payload.companyId
  checkText 200 payload.title
  refuse (payload.documentType ≠ "sustainability_report" ∧
    payload.documentType ≠ "annual_report_section") validationError

def validateComplete (payload : CompletePayload) : Except UploadError Unit := do
  refuse (payload.sizeBytes < 1 ∨ isSha256 payload.sha256 = false) validationError
  refuse (hostedMaxUploadBytes < payload.sizeBytes) (.rejected "UPLOAD_LIMIT_EXCEEDED")

def validateVersion (payload : VersionPayload) : Except UploadError Unit := do
  validateComplete payload.content
  checkText 200 payload.filename
  checkUuid rules payload.rightsProfileId
  refuse (¬(1900 ≤ payload.reportYear ∧ payload.reportYear ≤ 2200) ∨
    payload.industrySystem ∉ ["gics", "sasb", "custom", "unknown"]) validationError
  refuse (rules.isIsoDate payload.periodStart = false ∨ rules.isIsoDate payload.periodEnd = false ∨
    payload.periodEnd < payload.periodStart) validationError

/-! ### Reading and writing -/

variable (store : Store Json) (tenantId : String)

/-- `document_is_deleted`. -/
def documentIsDeleted (documentId : Option String) : Bool :=
  documentId.any fun documentId => (store.tombstones.find ⟨tenantId, documentId⟩).isSome

/-- `UploadService._get`. -/
def guarded {Row : Type} (rules : ServiceRules Json) (store : Store Json)
    (tenantId identifier : String) (record : Row → StoredRecord Json) (found : Option Row) :
    Except UploadError Row := do
  checkUuid rules tenantId
  checkUuid rules identifier
  match found with
  | none => .error notFound
  | some row => do
    refuse (documentIsDeleted store tenantId (record row).documentId = true) notFound
    return row

/-- `get` of a document. -/
def getDocument (documentId : String) : Except UploadError (DocumentRow Json) :=
  guarded rules store tenantId documentId .document (store.documents.find ⟨tenantId, documentId⟩)

/-- `get` of an upload. -/
def getUpload (uploadId : String) : Except UploadError (UploadRow Json) :=
  guarded rules store tenantId uploadId .upload (store.uploads.find ⟨tenantId, uploadId⟩)

/-- `get` of a version. -/
def getVersion (versionId : String) : Except UploadError (VersionRow Json) :=
  guarded rules store tenantId versionId .version (store.versions.find ⟨tenantId, versionId⟩)

/-- The guard of `_put`. -/
def checkPut (record : StoredRecord Json) : Except UploadError Unit :=
  refuse (documentIsDeleted store tenantId record.documentId = true) notFound

def updateUpload (row : UploadRow Json) : Except UploadError (Store Json) := do
  checkPut store row.key.tenantId (.upload row)
  return { store with uploads := store.uploads.put row }

def checkResponse :
    Response → Except UploadError Unit
  | .document document => do
    let _ ← getDocument rules store tenantId document.documentId
    return ()
  | .ticket ticket => do
    let _ ← getDocument rules store tenantId ticket.documentId
    let _ ← getUpload rules store tenantId ticket.uploadId
    return ()
  | .version result => do
    let _ ← getDocument rules store tenantId result.documentId
    let _ ← getVersion rules store tenantId result.versionId
    return ()

/-- `UploadService._replay`. -/
def replay (key : IdempotencyKey)
    (fingerprint : String) (now : Int) : Except UploadError (Option Response) := do
  checkUuid rules key.tenantId
  checkText 128 key.key
  refuse (key.key.length < 16) (.rejected "IDEMPOTENCY_KEY_INVALID")
  match store.idempotency.find key with
  | none => return none
  | some row =>
    if now < row.expires then do
      refuse (row.fingerprint ≠ fingerprint) (.rejected "IDEMPOTENCY_CONFLICT")
      checkResponse rules store key.tenantId row.response
      return some row.response
    else return none

def remember (key : IdempotencyKey) (fingerprint : String) (response : Response)
    (now : Int) : Store Json :=
  { store with
    idempotency := store.idempotency.put ⟨key, fingerprint, response, now + 86400⟩ }

/-- `_audit`. -/
def auditChange (change : Change) (eventId : String)
    (timestamp : Int) : Except UploadError (Store Json) := do
  let log ← audit .integrity rules.hashEvent store.audit change eventId timestamp
  return { store with audit := log }

end ProofOps.Application.Uploads
