import ProofOps.Application.Uploads.Records

/-!
# The upload service

The transactions of `UploadService`.  An upload is initiated, received into quarantine, queued
for validation and completed; a completion reads the upload in one transaction, verifies its
content outside of any, and accepts or rejects it in another one.

Files are not rolled back: what a call links stays linked when it raises.  Identifiers, readings
of the clock, what the registry answers and what the parser child reports are inputs.
-/

namespace ProofOps.Application.Uploads

open Foundation Foundation.Checked

variable {Json : Type}

/-- The files an accepted upload leaves. -/
inductive OriginalKind where
  | source
  | display
  | decrypted
  deriving DecidableEq

abbrev FileTable (κ : Type) [DecidableEq κ] := Table (κ × Bytes) Prod.fst

/-- The two directories of the service. -/
structure Files where
  quarantine : FileTable UploadKey
  originals : FileTable (VersionKey × OriginalKind)

def Files.initial : Files where
  quarantine := Table.empty
  originals := Table.empty

def link {κ : Type} [DecidableEq κ] (files : FileTable κ) (key : κ) (content : Bytes) :
    Option (FileTable κ) :=
  match files.insert? (key, content) with
  | some files => some files
  | none => if files.find key = some (key, content) then some files else none

def linkAll {κ : Type} [DecidableEq κ] (files : FileTable κ) : List (κ × Bytes) → Bool × FileTable κ
  | [] => (true, files)
  | (key, content) :: rest =>
    match link files key content with
    | some files => linkAll files rest
    | none => (false, files)

/-- `_json`. -/
structure Inputs where
  (recordId versionId objectId postTicket eventId : String)
  (replayAt pendingAt expiresFrom createdAt ticketExpiresAt auditAt rememberedAt : Int)

/-- A call of `create_document`. -/
structure CreateCall where
  tenantId : String
  payload : DocumentPayload
  (key actorSub : String)

/-- A call of `initiate_upload`. -/
structure InitiateCall where
  (tenantId documentId : String)
  payload : VersionPayload
  (key actorSub : String)

/-- A call of `receive_content`. -/
structure ReceiveCall where
  (tenantId uploadId : String)
  content : Bytes
  mediaType : String

/-- A call of `complete_upload`. -/
structure CompleteCall where
  (tenantId uploadId : String)
  payload : CompletePayload
  (key actorSub : String)

def CompleteCall.upload (call : CompleteCall) : UploadKey :=
  ⟨call.tenantId, call.uploadId⟩

def CompleteCall.idempotency (call : CompleteCall) : IdempotencyKey :=
  ⟨call.tenantId, .complete call.uploadId, call.key⟩

variable (rules : ServiceRules Json) (store : Store Json)

def createDocument (call : CreateCall) (company : Option Json) (inputs : Inputs) :
    Except UploadError (Response × Store Json) := do
  checkText 200 call.actorSub
  validateDocument rules call.payload
  match company with
  | none => .error notFound
  | some company => do
    let key : IdempotencyKey := ⟨call.tenantId, .documents, call.key⟩
    let fingerprint := rules.documentFingerprint call.payload
    let replayed ← replay rules store key fingerprint inputs.replayAt
    match replayed with
    | some response => return (response, store)
    | none => do
      let document : Document :=
        { documentId := inputs.recordId, payload := call.payload, latestVersionId := none
          revision := 1, createdAt := inputs.createdAt }
      let row : DocumentRow Json := ⟨call.tenantId, ⟨document, company⟩⟩
      checkPut store call.tenantId (.document row)
      let documents ← store.documents.insertOr .integrity row
      let store ← auditChange rules { store with documents }
        { stream := ⟨call.tenantId, document.documentId⟩, action := "document.created"
          actorSub := call.actorSub, beforeHash := none
          afterHash := rules.documentHash document, uploadId := none, versionId := none
          jobId := none, sourceSha256 := none }
        inputs.eventId inputs.auditAt
      return (.document document,
        remember store key fingerprint (.document document) inputs.rememberedAt)

def initiateRead (call : InitiateCall) : Except UploadError (StoredDocument Json) := do
  checkText 200 call.actorSub
  validateVersion rules call.payload
  let row ← getDocument rules store call.tenantId call.documentId
  return row.data

def newUpload (call : InitiateCall) (document : StoredDocument Json) (inputs : Inputs) :
    UploadRow Json where
  key := ⟨call.tenantId, inputs.recordId⟩
  ticket :=
    { uploadId := inputs.recordId, documentId := call.documentId
      postUrl := "/local/uploads/" ++ inputs.recordId ++ "/content"
      postTicket := inputs.postTicket, expiresAt := inputs.ticketExpiresAt }
  metadata := call.payload
  document := document
  versionId := inputs.versionId
  objectVersionId := "local-synthetic:" ++ inputs.objectId
  status := .pending
  createdAt := inputs.createdAt
  expires := inputs.expiresFrom + 600
  received := false
  limits := rules.limits
  validationJob := none
  uploadSecurity := none

def initiateCommit (call : InitiateCall) (document : StoredDocument Json) (registered : Bool)
    (inputs : Inputs) : Except UploadError (Response × Store Json) := do
  let key : IdempotencyKey := ⟨call.tenantId, .versions call.documentId, call.key⟩
  let fingerprint := rules.versionFingerprint call.payload
  let replayed ← replay rules store key fingerprint inputs.replayAt
  match replayed with
  | some response => return (response, store)
  | none => do
    refuse (registered = false) notFound
    refuse ((rules.limits.maxBytes : Int) < call.payload.content.sizeBytes)
      (.rejected "UPLOAD_LIMIT_EXCEEDED")
    let row := newUpload rules call document inputs
    checkPut store call.tenantId (.upload row)
    let uploads ← store.uploads.insertOr .integrity row
    let store ← auditChange rules { store with uploads }
      { stream := ⟨call.tenantId, call.documentId⟩, action := "upload.initiated"
        actorSub := call.actorSub, beforeHash := none, afterHash := fingerprint
        uploadId := some inputs.recordId, versionId := none, jobId := none
        sourceSha256 := some call.payload.content.sha256 }
      inputs.eventId inputs.auditAt
    return (.ticket row.ticket,
      remember store key fingerprint (.ticket row.ticket) inputs.rememberedAt)

variable (row : UploadRow Json)

/-- `_pending`. -/
def checkPending (now : Int) : Except UploadError Unit := do
  refuse (row.status ≠ .pending) versionConflict
  refuse (row.expires ≤ now) (.rejected "UPLOAD_EXPIRED")

def receivable (call : ReceiveCall) (now : Int) : Except UploadError (UploadRow Json) := do
  let item ← getUpload rules store call.tenantId call.uploadId
  checkPending item now
  refuse (item.received = true) versionConflict
  refuse (call.mediaType ≠ "application/pdf") (.rejected "PDF_INVALID")
  refuse (item.limits.maxBytes < call.content.length) (.rejected "UPLOAD_LIMIT_EXCEEDED")
  refuse ((call.content.length : Int) ≠ item.metadata.content.sizeBytes ∨
    rules.sha256 call.content ≠ item.metadata.content.sha256)
    (.rejected "UPLOAD_INTEGRITY_MISMATCH")
  return item

def receiveContent (files : Files) (call : ReceiveCall) (now : Int) :
    Except UploadError Unit × Store Json × Files :=
  match receivable rules store call now with
  | .error error => (.error error, store, files)
  | .ok item =>
    match link files.quarantine ⟨call.tenantId, call.uploadId⟩ call.content with
    | none => (.error versionConflict, store, files)
    | some quarantine =>
      match updateUpload store { item with received := true } with
      | .error error => (.error error, store, { files with quarantine })
      | .ok store => (.ok (), store, { files with quarantine })

def jobOf : Except UploadError ValidationJob :=
  match row.validationJob with
  | some job => .ok job
  | none => .error .keyError

def checkContent (payload : CompletePayload) : Except UploadError Unit :=
  refuse (payload ≠ row.metadata.content) (.rejected "UPLOAD_INTEGRITY_MISMATCH")

def newJob (inputs : Inputs) : ValidationJob where
  jobId := inputs.recordId
  uploadId := row.key.uploadId
  tenantId := row.key.tenantId
  objectVersionId := row.objectVersionId
  versionId := row.versionId
  status := .queued
  attempt := 0
  resultVersionId := none
  errorCode := none
  createdAt := inputs.createdAt

variable (call : CompleteCall)

def enqueueValidation (inputs : Inputs) : Except UploadError (ValidationJob × Store Json) := do
  validateComplete call.payload
  let item ← getUpload rules store call.tenantId call.uploadId
  let _ ← replay rules store call.idempotency (rules.completeFingerprint call.payload)
    inputs.replayAt
  checkContent item call.payload
  if item.status = .accepted then do
    let job ← jobOf item
    return (job, store)
  else do
    checkPending item inputs.pendingAt
    refuse (item.received = false) (.rejected "UPLOAD_NOT_READY")
    match item.validationJob with
    | some job => return (job, store)
    | none => do
      let job := newJob item inputs
      let store ← updateUpload store { item with validationJob := some job }
      return (job, store)

inductive Begun (Json : Type) where
  | answered (response : Response)
  | running (item : UploadRow Json)

def completeBegin (inputs : Inputs) : Except UploadError (Begun Json × Store Json) := do
  let fingerprint := rules.completeFingerprint call.payload
  let item ← getUpload rules store call.tenantId call.uploadId
  let replayed ← replay rules store call.idempotency fingerprint inputs.replayAt
  match replayed with
  | some response => return (.answered response, store)
  | none => do
    checkContent item call.payload
    if item.status = .accepted then do
      let version ← getVersion rules store call.tenantId item.versionId
      let response : Response := .version version.result
      return (.answered response,
        remember store call.idempotency fingerprint response inputs.rememberedAt)
    else do
      checkPending item inputs.pendingAt
      refuse (item.received = false) (.rejected "UPLOAD_NOT_READY")
      let job ← jobOf item
      let running : UploadRow Json :=
        { item with
          validationJob := some { job with status := .running, attempt := job.attempt + 1 } }
      let store ← updateUpload store running
      return (.running running, store)

/-- `VerifiedPdf`. -/
structure Verified (Json : Type) where
  pageCount : Nat
  displayContent : Option Bytes
  securityMetadata : Option Json
  analysisContent : Option Bytes

/-- What the verifying child answers. -/
inductive Verdict (Json : Type) where
  | refused (code : String) (security : Option Json)
  | verified (verified : Verified Json)

def isPdf : Bytes → Bool
  | 37 :: 80 :: 68 :: 70 :: 45 :: major :: 46 :: minor :: ending :: _ =>
    ((major == 49 && 48 ≤ minor && minor ≤ 55) || (major == 50 && minor == 48)) &&
      (ending == 13 || ending == 10)
  | _ => false

variable (item : UploadRow Json)

def refusal (content : Bytes) : Option String :=
  if rules.isUuid item.key.tenantId = false ∨ rules.isUuid item.versionId = false then
    some "PDF_INVALID"
  else if ¬(1 ≤ item.objectVersionId.length ∧ item.objectVersionId.length ≤ 1024) ∨
      item.objectVersionId.toList.any (fun c => c.toNat < 32) = true then
    some "PDF_INVALID"
  else if item.limits.maxBytes < content.length then some "UPLOAD_LIMIT_EXCEEDED"
  else if item.metadata.content.sizeBytes ≠ content.length ∨
      rules.sha256 content ≠ item.metadata.content.sha256 then
    some "UPLOAD_INTEGRITY_MISMATCH"
  else if isPdf content = false then some "PDF_INVALID"
  else none

def promoted (content : Bytes) (verified : Verified Json) :
    List ((VersionKey × OriginalKind) × Bytes) :=
  let version : VersionKey := ⟨item.key.tenantId, item.versionId⟩
  ((version, .source), content) ::
    ((verified.displayContent.map fun bytes => ((version, OriginalKind.display), bytes)).toList ++
      (verified.analysisContent.map fun bytes => ((version, OriginalKind.decrypted), bytes)).toList)

inductive Verification (Json : Type) where
  | missing
  | refused (code : String) (security : Option Json)
  | verified (verified : Verified Json)

def verifyAndPromote (files : Files) (item : UploadRow Json) (verdict : Verdict Json) :
    Verification Json × Files :=
  match files.quarantine.find item.key with
  | none => (.missing, files)
  | some (_, stored) =>
    let content := stored.take (item.limits.maxBytes + 1)
    match refusal rules item content, verdict with
    | some code, _ => (.refused code none, files)
    | none, .refused code security => (.refused code security, files)
    | none, .verified verified =>
      match linkAll files.originals (promoted item content verified) with
      | (true, originals) => (.verified verified, { files with originals })
      | (false, originals) => (.refused "VERSION_CONFLICT" none, { files with originals })

def completeReject (code : String) (security : Option Json) : Except UploadError (Store Json) := do
  let current ← getUpload rules store call.tenantId call.uploadId
  if current.status = .pending then do
    let job ← jobOf current
    updateUpload store
      { current with
        status := .rejected
        uploadSecurity := security.or current.uploadSecurity
        validationJob := some { job with status := .failed, errorCode := some code } }
  else return store

def newVersion (verified : Verified Json) : VersionRow Json where
  tenantId := call.tenantId
  result :=
    { versionId := item.versionId, documentId := item.document.document.documentId
      sha256 := item.metadata.content.sha256, reportYear := item.metadata.reportYear
      pageCount := verified.pageCount, status := "ready", createdAt := item.createdAt }
  metadata := item.metadata
  company := item.document.company
  documentType := item.document.document.payload.documentType
  objectVersionId := item.objectVersionId
  uploadSecurity := (verified.securityMetadata.map Security.inspected).getD (.policy item.limits)

def advanceDocument (row : DocumentRow Json) (result : VersionResult) :
    Except UploadError (Store Json) := do
  let document := row.data.document
  let advanced : DocumentRow Json :=
    ⟨row.tenantId, ⟨{ document with
      latestVersionId := some result.versionId, revision := document.revision + 1 },
      row.data.company⟩⟩
  match document.latestVersionId with
  | none => do
    checkPut store row.tenantId (.document advanced)
    return { store with documents := store.documents.put advanced }
  | some latestId => do
    let latest ← getVersion rules store row.tenantId latestId
    if latest.result.rank < result.rank then do
      checkPut store row.tenantId (.document advanced)
      return { store with documents := store.documents.put advanced }
    else return store

def acceptUpload (current : UploadRow Json) (verified : Verified Json) (inputs : Inputs) :
    Except UploadError (VersionResult × Store Json) := do
  checkPending current inputs.pendingAt
  let version := newVersion call item verified
  let before ← getDocument rules store call.tenantId version.result.documentId
  let job ← jobOf current
  let store ← auditChange rules store
    { stream := ⟨call.tenantId, version.result.documentId⟩, action := "upload.accepted"
      actorSub := call.actorSub, beforeHash := some (rules.documentHash before.data.document)
      afterHash := rules.snapshotHash version, uploadId := some call.uploadId
      versionId := some item.versionId, jobId := some job.jobId
      sourceSha256 := some item.metadata.content.sha256 }
    inputs.eventId inputs.auditAt
  checkPut store call.tenantId (.version version)
  let versions ← store.versions.insertOr .integrity version
  let store : Store Json := { store with versions }
  let document ← getDocument rules store call.tenantId version.result.documentId
  let store ← advanceDocument rules store document version.result
  let store ← updateUpload store
    { current with
      status := .accepted
      validationJob := some { job with
        status := .ready, resultVersionId := some item.versionId, errorCode := none } }
  return (version.result, store)

def readOrAccept (current : UploadRow Json) (verified : Verified Json) (inputs : Inputs) :
    Except UploadError (VersionResult × Store Json) :=
  if current.status = .accepted then do
    let version ← getVersion rules store call.tenantId current.versionId
    return (version.result, store)
  else acceptUpload rules store call item current verified inputs

def completeAccept (verified : Verified Json)
    (inputs : Inputs) : Except UploadError (VersionResult × Store Json) := do
  let current ← getUpload rules store call.tenantId call.uploadId
  let (result, store) ← readOrAccept rules store call item current verified inputs
  return (result, remember store call.idempotency (rules.completeFingerprint call.payload)
    (.version result) inputs.rememberedAt)

end ProofOps.Application.Uploads
