import Mathlib.Data.List.Sort
import ProofOps.Application.Uploads.Service
import ProofOps.Foundation.PyText

/-!
# Deletion requests

`LocalRetentionStore.request` commits the tombstone of a document: from then on the guard of
the upload records hides whatever names the document.  The manifest lists the records that
name it at that moment.
-/

namespace ProofOps.Adapters.Local.Retention

open Foundation Foundation.Checked Application.Uploads

/-- `RetentionRejected`. -/
inductive RetentionError where
  | rejected (code : String) (status : Nat)
  | invalidIdentifier
  | integrity

structure DeletionRequest where
  (tenantId userSub : String)
  isAdmin : Bool
  (documentId reason key : String)
  now : Int
  deletionId : String
  inputs : Inputs

def DeletionRequest.document (request : DeletionRequest) : DocumentKey :=
  ⟨request.tenantId, request.documentId⟩

/-- `_response`. -/
structure DeletionResponse where
  (deletionId status : String)
  requestedAt : Int

def response (tombstone : Tombstone) : DeletionResponse :=
  ⟨tombstone.deletionId, "blocked_retention", tombstone.requestedAt⟩

variable {Json : Type}

structure InventoryRow (Json : Type) where
  kind : RecordKind
  identifier : String
  value : StoredRecord Json

def inventory (store : Store Json) (tenantId : String) : List (InventoryRow Json) :=
  ((store.documents.rows.filter fun row => row.tenantId = tenantId).map fun row =>
      ⟨.document, row.data.document.documentId, .document row⟩) ++
    ((store.uploads.rows.filter fun row => row.key.tenantId = tenantId).map fun row =>
      ⟨.upload, row.key.uploadId, .upload row⟩) ++
    ((store.versions.rows.filter fun row => row.tenantId = tenantId).map fun row =>
      ⟨.version, row.result.versionId, .version row⟩)

/-- `RESOURCE_KINDS`, sorted. -/
def resourceKinds : List String :=
  ["backup", "cache", "derived", "export", "memory", "original", "review", "search"]

variable (rules : ServiceRules Json)

def manifest (store : Store Json) (key : DocumentKey) : DeletionManifest :=
  let named := (inventory store key.tenantId).filter fun row =>
    row.value.documentId = some key.documentId
  { tenantId := key.tenantId
    documentId := key.documentId
    executionProfile := "local-synthetic-only"
    policyStatus := "requires_customer_approval"
    physicalDeletionStatus := "not_run"
    documentVersionIds :=
      ((named.filter fun row => row.kind = .version).map InventoryRow.identifier).insertionSort
        (· ≤ ·)
    categories := resourceKinds.map fun kind => (kind, "not_run")
    uploadRecords := named.map fun row => ⟨row.kind, row.identifier, rules.recordHash row.value⟩ }

def checkRequest (request : DeletionRequest) : Except RetentionError Unit := do
  refuse (request.isAdmin = false) (.rejected "FORBIDDEN" 403)
  refuse (rules.isUuid request.documentId = false ∨ rules.isUuid request.tenantId = false)
    .invalidIdentifier
  refuse (¬(5 ≤ request.reason.length ∧ request.reason.length ≤ 1000) ∨
    (PyText.strip request.reason).length < 5) (.rejected "VALIDATION_ERROR" 422)
  refuse (¬(16 ≤ request.key.length ∧ request.key.length ≤ 128))
    (.rejected "IDEMPOTENCY_KEY_INVALID" 400)
  refuse (request.now < 0) (.rejected "VALIDATION_ERROR" 422)

def tombstone (store : Store Json) (request : DeletionRequest) : Tombstone where
  key := request.document
  deletionId := request.deletionId
  requestedAt := request.now
  requestedBy := request.userSub
  requestKey := rules.requestKey request.userSub request.documentId request.key
  requestHash := rules.requestHash request.reason
  manifest := manifest rules store request.document

def liftError : UploadError → RetentionError
  | _ => .integrity

def request (rules : ServiceRules Json) (store : Store Json) (request : DeletionRequest) :
    Except RetentionError (DeletionResponse × Store Json) := do
  checkRequest rules request
  match store.tombstones.find request.document with
  | some old => do
    refuse (old.requestHash ≠ rules.requestHash request.reason)
      (.rejected "IDEMPOTENCY_CONFLICT" 409)
    return (response old, store)
  | none => do
    let _ ← (getDocument rules store request.tenantId request.documentId).mapError fun _ =>
      .rejected "RESOURCE_NOT_FOUND" 404
    let made := tombstone rules store request
    let tombstones ← store.tombstones.insertOr .integrity made
    let store ← (auditChange rules { store with tombstones }
      { stream := ⟨request.tenantId, request.documentId⟩
        action := "document.deletion_requested", actorSub := request.userSub, beforeHash := none
        afterHash := rules.deletionHash made.deletionId made.requestHash made.manifest
        uploadId := none, versionId := none, jobId := none, sourceSha256 := none }
      request.inputs.eventId request.inputs.auditAt).mapError liftError
    return (response made, store)

end ProofOps.Adapters.Local.Retention
