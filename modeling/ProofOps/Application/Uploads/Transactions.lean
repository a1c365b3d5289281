import ProofOps.Adapters.Local.RetentionStore
import ProofOps.Application.Uploads.Lifecycle
import ProofOps.Foundation.Machine

/-!
# The transactions of the upload service

What each transaction leaves.  Only an initiation adds an upload, and only a deletion request
adds a tombstone.
-/

namespace ProofOps.Application.Uploads

open Foundation Adapters.Local.Retention Foundation.Checked Foundation.Table Adapters.Local

/-! ### Concurrent uploads -/

section

variable {Json : Type}

inductive Stage (Json : Type) where
  | initiating (call : InitiateCall) (document : StoredDocument Json)
  | queued (call : CompleteCall)
  | verifying (call : CompleteCall) (item : UploadRow Json)
  | accepting (call : CompleteCall) (item : UploadRow Json) (verified : Verified Json)
  | rejecting (call : CompleteCall) (code : String) (security : Option Json)
  | finished (result : Except UploadError Response)

/-- What a worker works on. -/
inductive Target where
  | document (key : DocumentKey)
  | upload (key : UploadKey)

/-- A running call. -/
structure Worker (Json : Type) where
  target : Target
  stage : Stage Json

structure System (Json : Type) where
  store : Store Json
  files : Files
  workers : List (Worker Json)

def System.initial : System Json where
  store := Store.initial
  files := Files.initial
  workers := []

structure StepInputs (Json : Type) where
  inputs : Inputs
  registered : Bool
  verdict : Verdict Json

/-- What can happen to the system. -/
inductive Event (Json : Type) where
  | createDocument (call : CreateCall) (company : Option Json) (inputs : Inputs)
  | initiate (call : InitiateCall)
  | receive (call : ReceiveCall) (now : Int)
  | enqueue (call : CompleteCall) (inputs : Inputs)
  | complete (call : CompleteCall) (inputs : Inputs)
  | step (index : Nat) (given : StepInputs Json)
  | requestDeletion (request : DeletionRequest)

def committed {ε α : Type} (store : Store Json) : Except ε (α × Store Json) → Store Json
  | .ok (_, store) => store
  | .error _ => store

def advance (rules : ServiceRules Json) (store : Store Json) (files : Files)
    (given : StepInputs Json) : Stage Json → Stage Json × Store Json × Files
  | .initiating call document =>
    let result := initiateCommit rules store call document given.registered given.inputs
    (.finished (result.map Prod.fst), committed store result, files)
  | .queued call =>
    match completeBegin rules store call given.inputs with
    | .error error => (.finished (.error error), store, files)
    | .ok (.answered response, store) => (.finished (.ok response), store, files)
    | .ok (.running item, store) => (.verifying call item, store, files)
  | .verifying call item =>
    match verifyAndPromote rules files item given.verdict with
    | (.missing, files) => (.finished (.error .missingFile), store, files)
    | (.refused code security, files) => (.rejecting call code security, store, files)
    | (.verified verified, files) => (.accepting call item verified, store, files)
  | .accepting call item verified =>
    let result := completeAccept rules store call item verified given.inputs
    (.finished (result.map fun answer => .version answer.1), committed store result, files)
  | .rejecting call code security =>
    match completeReject rules store call code security with
    | .error error => (.finished (.error error), store, files)
    | .ok store => (.finished (.error (.rejected code)), store, files)
  | .finished result => (.finished result, store, files)

def startComplete (rules : ServiceRules Json) (store : Store Json) (call : CompleteCall)
    (inputs : Inputs) : Except UploadError (ValidationJob × Store Json) := do
  checkText 200 call.actorSub
  enqueueValidation rules store call inputs

def started {α : Type} (target : Target) (stage : α → Stage Json) :
    Except UploadError α → Worker Json
  | .ok value => ⟨target, stage value⟩
  | .error error => ⟨target, .finished (.error error)⟩

def next (rules : ServiceRules Json) (system : System Json) : Event Json → System Json
  | .createDocument call company inputs =>
    { system with store := committed system.store (createDocument rules system.store call company inputs) }
  | .initiate call =>
    { system with
      workers := system.workers ++ [started (.document ⟨call.tenantId, call.documentId⟩)
        (.initiating call) (initiateRead rules system.store call)] }
  | .receive call now =>
    let (_, store, files) := receiveContent rules system.store system.files call now
    { system with store, files }
  | .enqueue call inputs =>
    { system with store := committed system.store (enqueueValidation rules system.store call inputs) }
  | .complete call inputs =>
    let result := startComplete rules system.store call inputs
    { system with
      store := committed system.store result
      workers := system.workers ++ [started (.upload call.upload) (fun _ => .queued call) result] }
  | .step index given =>
    match system.workers[index]? with
    | none => system
    | some worker =>
      let (stage, store, files) := advance rules system.store system.files given worker.stage
      { store, files, workers := system.workers.set index { worker with stage } }
  | .requestDeletion deletion =>
    { system with store := committed system.store (request rules system.store deletion) }

end

variable {Json : Type} {rules : ServiceRules Json} {store after : Store Json}

structure Progress (rules : ServiceRules Json) (store after : Store Json) : Prop where
  grown : Extends rules store after
  origin : ∀ row ∈ after.uploads, ∃ old ∈ store.uploads, Continues old row
  tombstones : after.tombstones = store.tombstones

theorem Progress.refl (hsound : Sound rules store) : Progress rules store store where
  grown := Extends.refl hsound
  origin := fun row hrow => ⟨row, hrow, Continues.refl row⟩
  tombstones := rfl

theorem Progress.trans {first second third : Store Json} (h : Progress rules first second)
    (h' : Progress rules second third) : Progress rules first third where
  grown := h.grown.trans h'.grown
  origin := fun row hrow => by
    obtain ⟨mid, hmid, hmidContinues⟩ := h'.origin row hrow
    obtain ⟨old, hold, holdContinues⟩ := h.origin mid hmid
    exact ⟨old, hold, holdContinues.trans hmidContinues⟩
  tombstones := h'.tombstones.trans h.tombstones

theorem Extends.progress (h : Extends rules store after) (huploads : after.uploads = store.uploads)
    (htombstones : after.tombstones = store.tombstones) : Progress rules store after where
  grown := h
  origin := fun row hrow => ⟨row, huploads ▸ hrow, Continues.refl row⟩
  tombstones := htombstones

variable {later : UploadRow Json} {current : UploadRow Json}

theorem put_origin {table : Table (UploadRow Json) UploadRow.key} (hcurrent : current ∈ table)
    (hcontinues : Continues current later) :
    ∀ row ∈ table.put later, ∃ old ∈ table, Continues old row := by
  intro row hrow
  rcases mem_put.mp hrow with rfl | ⟨hold, -⟩
  · exact ⟨current, hcurrent, hcontinues⟩
  · exact ⟨row, hold, Continues.refl row⟩

theorem updateUpload_progress (hsound : Sound rules store)
    (h : updateUpload store later = .ok after) (hcurrent : current ∈ store.uploads)
    (hcontinues : Continues current later) (hopen : later.status ≠ .accepted) :
    Progress rules store after ∧ later ∈ after.uploads := by
  obtain ⟨hextends, hmem⟩ := updateUpload_extends hsound h hcurrent hcontinues hopen
  refine ⟨⟨hextends, ?_, ?_⟩, hmem⟩
  · rw [updateUpload_ok h]
    exact put_origin hcurrent hcontinues
  · rw [updateUpload_ok h]

/-- Auditing is progress. -/
theorem auditChange_progress (hsound : Sound rules store) {change : Change} {eventId : String}
    {timestamp : Int} (h : auditChange rules store change eventId timestamp = .ok after) :
    Progress rules store after := by
  obtain ⟨hextends, log, rfl⟩ := auditChange_extends hsound h
  exact hextends.progress rfl rfl

/-- Remembering is progress. -/
theorem remember_progress (hsound : Sound rules store) {key : IdempotencyKey} {fingerprint : String}
    {response : Response} {now : Int}
    (hfits : ∀ uploadId, key.route = .complete uploadId → ∃ result, response = .version result ∧
      Completed store ⟨key.tenantId, uploadId⟩ result) :
    Progress rules store (remember store key fingerprint response now) :=
  (remember_extends hsound hfits).progress rfl rfl

variable {response : Response}

theorem fits_of_ne {key : IdempotencyKey} (hroute : ∀ uploadId, key.route ≠ .complete uploadId) :
    ∀ uploadId, key.route = .complete uploadId → ∃ result, response = .version result ∧
      Completed store ⟨key.tenantId, uploadId⟩ result :=
  fun uploadId h => absurd h (hroute uploadId)

variable {inputs : Inputs}

/-- Creating a document is progress. -/
theorem createDocument_progress (hsound : Sound rules store) {call : CreateCall}
    {company : Option Json}
    (h : createDocument rules store call company inputs = .ok (response, after)) :
    Progress rules store after := by
  replace h := rest_ok h
  replace h := rest_ok h
  cases company with
  | none => cases h
  | some company =>
    obtain ⟨replayed, -, h⟩ := bind_ok h
    cases replayed with
    | some response =>
      cases pure_ok h
      exact Progress.refl hsound
    | none =>
      replace h := rest_ok h
      obtain ⟨documents, hdocuments, h⟩ := bind_ok h
      obtain ⟨audited, haudit, h⟩ := bind_ok h
      cases pure_ok h
      have hinserted := insertDocument_extends hsound (insertOr_ok hdocuments) rfl
      have haudited := auditChange_progress hinserted.sound haudit
      have hremembered := @remember_progress _ rules audited haudited.grown.sound
        ⟨call.tenantId, .documents, call.key⟩ (rules.documentFingerprint call.payload)
        (.document ⟨inputs.recordId, call.payload, none, 1, inputs.createdAt⟩)
        inputs.rememberedAt (fits_of_ne fun _ => by simp)
      exact ((hinserted.progress rfl rfl).trans haudited).trans hremembered

def UploadRow.home (row : UploadRow Json) : DocumentKey :=
  ⟨row.key.tenantId, row.document.document.documentId⟩

variable {row : UploadRow Json}

theorem Continues.home (h : Continues row later) :
    later.home = row.home := by
  unfold UploadRow.home
  rw [h.key, h.document]

theorem initiateCommit_ok (hsound : Sound rules store) {call : InitiateCall}
    {document : StoredDocument Json} {registered : Bool}
    (h : initiateCommit rules store call document registered inputs = .ok (response, after)) :
    Extends rules store after ∧ after.tombstones = store.tombstones ∧
      ∀ row ∈ after.uploads, (∃ old ∈ store.uploads, Continues old row) ∨
        row.home = ⟨call.tenantId, document.document.documentId⟩ := by
  obtain ⟨replayed, -, h⟩ := bind_ok h
  cases replayed with
  | some response =>
    cases pure_ok h
    exact ⟨Extends.refl hsound, rfl, fun row hrow => Or.inl ⟨row, hrow, Continues.refl row⟩⟩
  | none =>
    replace h := rest_ok h
    replace h := rest_ok h
    replace h := rest_ok h
    obtain ⟨uploads, huploads, h⟩ := bind_ok h
    obtain ⟨audited, haudit, h⟩ := bind_ok h
    cases pure_ok h
    have hinsert := insertOr_ok huploads
    have hinserted := insertUpload_extends hsound hinsert rfl
    have haudited := auditChange_progress hinserted.sound haudit
    have hremembered := @remember_progress _ rules audited haudited.grown.sound
      ⟨call.tenantId, .versions call.documentId, call.key⟩ (rules.versionFingerprint call.payload)
      (.ticket (newUpload rules call document inputs).ticket) inputs.rememberedAt
      (fits_of_ne fun _ => by simp)
    have hrest := haudited.trans hremembered
    refine ⟨hinserted.trans hrest.grown, hrest.tombstones, fun row hrow => ?_⟩
    obtain ⟨old, hold, hcontinues⟩ := hrest.origin row hrow
    rcases (mem_insert? hinsert).mp hold with hstored | rfl
    · exact Or.inl ⟨old, hstored, hcontinues⟩
    · exact Or.inr hcontinues.home

theorem receiveContent_progress (hsound : Sound rules store) {files : Files} {call : ReceiveCall}
    {now : Int} : Progress rules store (receiveContent rules store files call now).2.1 := by
  unfold receiveContent
  cases hreceivable : receivable rules store call now with
  | error error => exact Progress.refl hsound
  | ok item =>
    obtain ⟨found, hfound, h⟩ := bind_ok hreceivable
    obtain ⟨⟨⟩, hpending, h⟩ := bind_ok h
    replace h := rest_ok h
    replace h := rest_ok h
    replace h := rest_ok h
    replace h := rest_ok h
    cases pure_ok h
    dsimp only
    cases link files.quarantine ⟨call.tenantId, call.uploadId⟩ call.content with
    | none => exact Progress.refl hsound
    | some quarantine =>
      cases hupdate : updateUpload store { item with received := true } with
      | error error => exact Progress.refl hsound
      | ok updated =>
        have hopen : item.status ≠ .accepted := by
          rw [checkPending_ok hpending]
          decide
        exact (updateUpload_progress hsound hupdate (getUpload_ok hfound).1
          ⟨rfl, rfl, rfl, rfl, rfl, fun _ => rfl⟩ hopen).1

variable {call : CompleteCall}

/-- Enqueuing a validation is progress. -/
theorem enqueueValidation_progress (hsound : Sound rules store) {job : ValidationJob}
    (h : enqueueValidation rules store call inputs = .ok (job, after)) :
    Progress rules store after := by
  replace h := rest_ok h
  obtain ⟨item, hitem, h⟩ := bind_ok h
  obtain ⟨replayed, -, h⟩ := bind_ok h
  replace h := rest_ok h
  by_cases haccepted : item.status = .accepted
  · rw [if_pos haccepted] at h
    obtain ⟨stored, -, h⟩ := bind_ok h
    cases pure_ok h
    exact Progress.refl hsound
  · rw [if_neg haccepted] at h
    replace h := rest_ok h
    replace h := rest_ok h
    cases hjob : item.validationJob with
    | some stored =>
      rw [hjob] at h
      cases pure_ok h
      exact Progress.refl hsound
    | none =>
      rw [hjob] at h
      obtain ⟨updated, hupdate, h⟩ := bind_ok h
      cases pure_ok h
      exact (updateUpload_progress hsound hupdate (getUpload_ok hitem).1
        ⟨rfl, rfl, rfl, rfl, rfl, fun _ => rfl⟩ haccepted).1

def BegunSound (store : Store Json) (call : CompleteCall) : Begun Json → Prop
  | .answered response => ∃ result, response = .version result ∧ Completed store call.upload result
  | .running item => ∃ row ∈ store.uploads, row.key = call.upload ∧ Continues item row

theorem completed_of_read (hsound : Sound rules store)
    {version : VersionRow Json} (hrow : row ∈ store.uploads) (hkey : row.key = call.upload)
    (hstatus : row.status = .accepted)
    (hread : getVersion rules store call.tenantId row.versionId = .ok version) :
    Completed store call.upload version.result := by
  obtain ⟨hversion, hversionKey⟩ := getVersion_ok hread
  obtain ⟨found, hfound, hof⟩ := hsound.accepted row hrow hstatus
  have hsame : found = version := by
    refine eq_of_key_eq hfound hversion ?_
    rw [hof.key, hversionKey, hkey]
    rfl
  exact ⟨row, hrow, hkey, hstatus, version, hversion, hsame ▸ hof, rfl⟩

theorem completeBegin_ok (hsound : Sound rules store)
    {begun : Begun Json} (h : completeBegin rules store call inputs = .ok (begun, after)) :
    Progress rules store after ∧ BegunSound after call begun := by
  obtain ⟨item, hitem, h⟩ := bind_ok h
  obtain ⟨replayed, hreplay, h⟩ := bind_ok h
  obtain ⟨hitemMem, hitemKey⟩ := getUpload_ok hitem
  cases replayed with
  | some response =>
    cases pure_ok h
    obtain ⟨row, hrow, hkey, rfl, -⟩ := replay_some hreplay
    have hroute : row.key.route = .complete call.uploadId := by rw [hkey]; rfl
    obtain ⟨result, hresponse, hcompleted⟩ := hsound.responses row hrow call.uploadId hroute
    rw [hkey] at hcompleted
    exact ⟨Progress.refl hsound, result, hresponse, hcompleted⟩
  | none =>
    replace h := rest_ok h
    by_cases haccepted : item.status = .accepted
    · rw [if_pos haccepted] at h
      obtain ⟨version, hversion, h⟩ := bind_ok h
      cases pure_ok h
      have hcompleted := completed_of_read hsound hitemMem hitemKey haccepted hversion
      have hremembered := @remember_progress _ rules store hsound call.idempotency
        (rules.completeFingerprint call.payload) (.version version.result) inputs.rememberedAt
        fun uploadId hroute => by
          cases hroute
          exact ⟨version.result, rfl, hcompleted⟩
      exact ⟨hremembered, version.result, rfl, hcompleted.kept hremembered.grown.kept⟩
    · rw [if_neg haccepted] at h
      replace h := rest_ok h
      replace h := rest_ok h
      obtain ⟨job, -, h⟩ := bind_ok h
      obtain ⟨updated, hupdate, h⟩ := bind_ok h
      cases pure_ok h
      obtain ⟨hprogress, hmem⟩ := updateUpload_progress hsound hupdate hitemMem
        ⟨rfl, rfl, rfl, rfl, rfl, fun _ => rfl⟩ haccepted
      exact ⟨hprogress, _, hmem, hitemKey, Continues.refl _⟩

theorem completeReject_progress (hsound : Sound rules store) {code : String}
    {security : Option Json} (h : completeReject rules store call code security = .ok after) :
    Progress rules store after := by
  obtain ⟨current, hcurrent, h⟩ := bind_ok h
  by_cases hpending : current.status = .pending
  · rw [if_pos hpending] at h
    obtain ⟨job, -, h⟩ := bind_ok h
    exact (updateUpload_progress hsound h (getUpload_ok hcurrent).1
      ⟨rfl, rfl, rfl, rfl, rfl, fun hne => absurd hpending hne⟩ (by simp)).1
  · rw [if_neg hpending] at h
    cases pure_ok h
    exact Progress.refl hsound

theorem completeAccept_ok (hsound : Sound rules store)
    {item : UploadRow Json} {verified : Verified Json}
    {result : VersionResult} (hrow : row ∈ store.uploads) (hkey : row.key = call.upload)
    (hcontinues : Continues item row)
    (h : completeAccept rules store call item verified inputs = .ok (result, after)) :
    Progress rules store after ∧ Completed after call.upload result := by
  obtain ⟨current, hread, h⟩ := bind_ok h
  obtain ⟨⟨answer, written⟩, hanswer, h⟩ := bind_ok h
  cases pure_ok h
  obtain ⟨hcurrent, hcurrentKey⟩ := getUpload_ok hread
  obtain rfl : current = row := eq_of_key_eq hcurrent hrow (hcurrentKey.trans hkey.symm)
  have hwritten : Progress rules store written ∧ Completed written call.upload result := by
    unfold readOrAccept at hanswer
    by_cases haccepted : current.status = .accepted
    · rw [if_pos haccepted] at hanswer
      obtain ⟨version, hversion, hpair⟩ := bind_ok hanswer
      cases pure_ok hpair
      exact ⟨Progress.refl hsound, completed_of_read hsound hcurrent hcurrentKey haccepted hversion⟩
    · rw [if_neg haccepted] at hanswer
      obtain ⟨hextends, hcompleted, -, htombstones, later, hlater, huploads⟩ :=
        acceptUpload_ok hsound hcurrent hcurrentKey hcontinues hanswer
      refine ⟨⟨hextends, ?_, htombstones⟩, hcompleted⟩
      rw [huploads]
      exact put_origin hcurrent hlater
  obtain ⟨hprogress, hcompleted⟩ := hwritten
  have hremembered := @remember_progress _ rules written hprogress.grown.sound call.idempotency
    (rules.completeFingerprint call.payload) (.version result) inputs.rememberedAt
    fun uploadId hroute => by
      cases hroute
      exact ⟨result, rfl, hcompleted⟩
  exact ⟨hprogress.trans hremembered, hcompleted.kept hremembered.grown.kept⟩

theorem request_ok (hsound : Sound rules store) {deletion : Retention.DeletionRequest}
    {answer : Retention.DeletionResponse}
    (h : Retention.request rules store deletion = .ok (answer, after)) :
    Extends rules store after ∧ after.uploads = store.uploads ∧
      ∀ tombstone ∈ after.tombstones, tombstone ∈ store.tombstones ∨
        tombstone = Retention.tombstone rules store deletion := by
  replace h := rest_ok h
  cases hfind : store.tombstones.find deletion.document with
  | some old =>
    simp only [hfind] at h
    replace h := rest_ok h
    cases pure_ok h
    exact ⟨Extends.refl hsound, rfl, fun _ h => Or.inl h⟩
  | none =>
    simp only [hfind] at h
    obtain ⟨document, -, h⟩ := bind_ok h
    obtain ⟨tombstones, htombstones, h⟩ := bind_ok h
    obtain ⟨audited, haudit, h⟩ := bind_ok h
    cases pure_ok h
    have hinsert := insertOr_ok htombstones
    have hburied : Extends rules store { store with tombstones } :=
      ⟨⟨hsound.accepted, hsound.owned, hsound.single, hsound.homes, hsound.latest,
        hsound.responses, hsound.audit⟩, ⟨(Kept.refl store).documents, (Kept.refl store).uploads,
        fun _ h => h, fun _ h => h, fun row hrow => (mem_insert? hinsert).mpr (Or.inl hrow)⟩⟩
    have haudited := auditChange_progress hburied.sound (mapError_ok_iff.mp haudit)
    obtain ⟨-, log, hlog⟩ := auditChange_extends hburied.sound (mapError_ok_iff.mp haudit)
    refine ⟨hburied.trans haudited.grown, by rw [hlog], fun tombstone hmem => ?_⟩
    rw [haudited.tombstones] at hmem
    exact (mem_insert? hinsert).mp hmem

end ProofOps.Application.Uploads
