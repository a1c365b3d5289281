import ProofOps.Application.Uploads.Completion

/-!
# Deletion and the uploads of a document

The guard of the upload records reads `document_id` of the record itself, where documents and
versions have it and uploads do not.  A deletion is effective as long as its document has no
upload, and as long as no initiation that read the document before is committed after.
-/

namespace ProofOps.Adapters.Local.Retention

open Foundation Foundation.Checked Foundation.Table Application.Uploads

section Deletion

variable {Json : Type} {rules : ServiceRules Json} {store : Store Json} {key : DocumentKey}

structure Lists (manifest : DeletionManifest) (store : Store Json) (key : DocumentKey) : Prop where
  uploads : ∀ row ∈ store.uploads, row.home = key →
    ∃ entry ∈ manifest.uploadRecords, entry.kind = .upload ∧ entry.resourceId = row.key.uploadId
  versions : ∀ row ∈ store.versions, row.document = key →
    row.result.versionId ∈ manifest.documentVersionIds ∧
      ∃ entry ∈ manifest.uploadRecords, entry.kind = .version ∧
        entry.resourceId = row.result.versionId

theorem mem_inventory {tenantId : String} {row : InventoryRow Json} :
    row ∈ inventory store tenantId ↔
      (∃ document ∈ store.documents, document.tenantId = tenantId ∧
        ⟨.document, document.data.document.documentId, .document document⟩ = row) ∨
      (∃ upload ∈ store.uploads, upload.key.tenantId = tenantId ∧
        ⟨.upload, upload.key.uploadId, .upload upload⟩ = row) ∨
      ∃ version ∈ store.versions, version.tenantId = tenantId ∧
        ⟨.version, version.result.versionId, .version version⟩ = row := by
  unfold inventory
  simp only [List.mem_append, List.mem_map, List.mem_filter, decide_eq_true_eq, mem_rows, and_assoc,
    or_assoc]

theorem upload_not_listed {entry : ManifestEntry}
    (hentry : entry ∈ (manifest rules store key).uploadRecords) : entry.kind ≠ .upload := by
  obtain ⟨row, hrow, rfl⟩ := List.mem_map.mp hentry
  obtain ⟨hmem, hnamed⟩ := List.mem_filter.mp hrow
  rcases mem_inventory.mp hmem with ⟨document, -, -, rfl⟩ | ⟨upload, -, -, rfl⟩ |
    ⟨version, -, -, rfl⟩
  · simp
  · cases hnamed
  · simp

theorem manifest_lists_iff :
    Lists (manifest rules store key) store key ↔ ∀ row ∈ store.uploads, row.home ≠ key := by
  constructor
  · intro h row hrow hhome
    obtain ⟨entry, hentry, hkind, -⟩ := h.uploads row hrow hhome
    exact upload_not_listed hentry hkind
  · intro h
    refine ⟨fun row hrow hhome => absurd hhome (h row hrow), fun row hrow hdocument => ?_⟩
    have hnamed : (⟨.version, row.result.versionId, .version row⟩ : InventoryRow Json) ∈
        (inventory store key.tenantId).filter fun row =>
          row.value.documentId = some key.documentId := by
      refine List.mem_filter.mpr ⟨mem_inventory.mpr (Or.inr (Or.inr ⟨row, hrow, ?_, rfl⟩)), ?_⟩
      · exact congrArg DocumentKey.tenantId hdocument
      · rw [decide_eq_true_eq]
        exact congrArg (some ∘ DocumentKey.documentId) hdocument
    constructor
    · refine (List.perm_insertionSort _ _).mem_iff.mpr (List.mem_map.mpr
        ⟨_, List.mem_filter.mpr ⟨hnamed, by simp⟩, rfl⟩)
    · exact ⟨_, List.mem_map.mpr ⟨_, hnamed, rfl⟩, rfl, rfl⟩

def uploadHome (store : Store Json) (key : UploadKey) : Option DocumentKey :=
  (store.uploads.find key).map UploadRow.home

def targetDocument (store : Store Json) : Target → Option DocumentKey
  | .document key => some key
  | .upload key => uploadHome store key

/-- The document that an event operates on. -/
def operationOn (system : System Json) : Event Json → Option DocumentKey
  | .createDocument _ _ _ => none
  | .initiate call => some ⟨call.tenantId, call.documentId⟩
  | .receive call _ => uploadHome system.store ⟨call.tenantId, call.uploadId⟩
  | .enqueue call _ => uploadHome system.store call.upload
  | .complete call _ => uploadHome system.store call.upload
  | .step index _ => system.workers[index]?.bind fun worker =>
    targetDocument system.store worker.target
  | .requestDeletion _ => none

def returned : Stage Json → Bool
  | .finished (.ok _) => true
  | _ => false

def succeeds (rules : ServiceRules Json) (system : System Json) : Event Json → Bool
  | .createDocument call company inputs =>
    (createDocument rules system.store call company inputs).isOk
  | .initiate call => (initiateRead rules system.store call).isOk
  | .receive call now => (receiveContent rules system.store system.files call now).1.isOk
  | .enqueue call inputs => (enqueueValidation rules system.store call inputs).isOk
  | .complete call inputs => (startComplete rules system.store call inputs).isOk
  | .step index given => system.workers[index]?.any fun worker =>
    !returned worker.stage &&
      returned (advance rules system.store system.files given worker.stage).1
  | .requestDeletion deletion => (request rules system.store deletion).isOk

structure Denied (rules : ServiceRules Json) (system : System Json) (event : Event Json) : Prop where
  fails : succeeds rules system event = false
  store : (Application.Uploads.next rules system event).store = system.store
  files : (Application.Uploads.next rules system event).files = system.files

/-! ### Where a deletion is effective -/

def initiates : Stage Json → Option DocumentKey
  | .initiating call _ => some ⟨call.tenantId, call.documentId⟩
  | _ => none

def Orderly (system : System Json) : Event Json → Prop
  | .requestDeletion deletion => ∀ row ∈ system.store.uploads.rows, row.home ≠ deletion.document
  | .step index _ => ∀ worker ∈ system.workers[index]?, ∀ key ∈ initiates worker.stage,
      (system.store.tombstones.find key).isSome = false
  | _ => True

instance (system : System Json) (event : Event Json) : Decidable (Orderly system event) :=
  match event with
  | .createDocument _ _ _ => .isTrue trivial
  | .initiate _ => .isTrue trivial
  | .receive _ _ => .isTrue trivial
  | .enqueue _ _ => .isTrue trivial
  | .complete _ _ => .isTrue trivial
  | .step index _ => inferInstanceAs (Decidable (∀ worker ∈ system.workers[index]?,
      ∀ key ∈ initiates worker.stage, (system.store.tombstones.find key).isSome = false))
  | .requestDeletion deletion => inferInstanceAs
      (Decidable (∀ row ∈ system.store.uploads.rows, row.home ≠ deletion.document))

structure Buried (rules : ServiceRules Json) (system : System Json) : Prop where
  sound : SystemSound rules system
  uploads : ∀ tombstone ∈ system.store.tombstones, ∀ row ∈ system.store.uploads,
    row.home ≠ tombstone.key

variable {system : System Json}

theorem next_buried (hburied : Buried rules system) {event : Event Json}
    (horderly : Orderly system event) :
    Buried rules (Application.Uploads.next rules system event) := by
  have hmoved := next_moved hburied.sound event
  refine ⟨hmoved.sound, fun tombstone htombstone row hrow hhome => ?_⟩
  -- Where the tombstone is an old one, so is the upload.
  rcases hmoved.tombstones tombstone htombstone with hold | ⟨deletion, rfl, rfl⟩
  · rcases hmoved.origin row hrow with ⟨old, holdRow, hcontinues⟩ |
      ⟨index, given, worker, call, document, rfl, hworker, hstage, hnew⟩
    · exact hburied.uploads tombstone hold old holdRow (hcontinues.home.symm.trans hhome)
    · have hheld := hburied.sound.workers worker (List.mem_of_getElem? hworker)
      rw [hstage] at hheld
      have hopen := horderly worker hworker ⟨call.tenantId, call.documentId⟩ (by rw [hstage]; rfl)
      have hkey : tombstone.key = ⟨call.tenantId, call.documentId⟩ := by
        rw [← hhome, hnew, hheld.2]
      rw [← hkey, find_of_mem hold] at hopen
      cases hopen
  · rcases hmoved.origin row hrow with ⟨old, holdRow, hcontinues⟩ |
      ⟨index, given, worker, call, document, hevent, -, -, -⟩
    · exact horderly old holdRow (hcontinues.home.symm.trans hhome)
    · cases hevent

/-- So does a run of orderly events. -/
theorem after_buried (hburied : Buried rules system) {events : List (Event Json)}
    (horderly : Machine.EachStep (Application.Uploads.next rules) Orderly system events) :
    Buried rules (Machine.after (Application.Uploads.next rules) system events) := by
  induction events generalizing system with
  | nil => exact hburied
  | cons event events ih => exact ih (next_buried hburied horderly.1) horderly.2

theorem initial_buried : Buried rules System.initial :=
  ⟨initial_systemSound, fun _ h => absurd h not_mem_empty⟩

variable {tombstone : Tombstone}

theorem Buried.uploadHome (hburied : Buried rules system)
    (htombstone : tombstone ∈ system.store.tombstones) {upload : UploadKey}
    (h : uploadHome system.store upload = some tombstone.key) : False := by
  obtain ⟨row, hrow, hhome⟩ := Option.map_eq_some_iff.mp h
  exact hburied.uploads tombstone htombstone row (find_eq_some_iff.mp hrow).1 hhome

theorem Buried.denied (hburied : Buried rules system)
    (htombstone : tombstone ∈ system.store.tombstones) {event : Event Json}
    (horderly : Orderly system event) (hon : operationOn system event = some tombstone.key) :
    Denied rules system event := by
  have hdeleted : (system.store.tombstones.find tombstone.key).isSome = true := by
    rw [find_of_mem htombstone]
    rfl
  cases event with
  | createDocument call company inputs => cases hon
  | requestDeletion deletion => cases hon
  | receive call now | enqueue call inputs | complete call inputs =>
    exact (hburied.uploadHome htombstone hon).elim
  | initiate call =>
    refine ⟨?_, rfl, rfl⟩
    have hkey : (⟨call.tenantId, call.documentId⟩ : DocumentKey) = tombstone.key :=
      Option.some.inj hon
    show (initiateRead rules system.store call).isOk = false
    cases hread : initiateRead rules system.store call with
    | error error => rfl
    | ok document =>
      obtain ⟨⟨⟩, -, h⟩ := bind_ok hread
      replace h := rest_ok h
      obtain ⟨row, hrow, -⟩ := bind_ok h
      rw [← hkey, (getDocument_ok hrow).2.2] at hdeleted
      cases hdeleted
  | step index given =>
    obtain ⟨worker, hworker, htarget⟩ := Option.bind_eq_some_iff.mp hon
    have hheld := hburied.sound.workers worker (List.mem_of_getElem? hworker)
    cases hworkerTarget : worker.target with
    | upload upload =>
      rw [hworkerTarget] at htarget
      exact (hburied.uploadHome htombstone htarget).elim
    | document document =>
      rw [hworkerTarget] at htarget hheld
      obtain rfl : document = tombstone.key := Option.some.inj htarget
      -- A worker on a document is an initiation, or has finished.
      cases hstage : worker.stage with
      | initiating call read =>
        rw [hstage] at hheld
        have hkey := Target.document.inj hheld.1
        have hopen := horderly worker hworker _ (by rw [hstage]; rfl)
        rw [← hkey, hdeleted] at hopen
        cases hopen
      | queued call | rejecting call code security =>
        rw [hstage] at hheld
        cases hheld
      | verifying call item | accepting call item verified =>
        rw [hstage] at hheld
        cases hheld.1
      | finished result =>
        have hadvance : advance rules system.store system.files given worker.stage =
            (worker.stage, system.store, system.files) := by
          rw [hstage]
          rfl
        refine ⟨?_, ?_, ?_⟩
        · show system.workers[index]?.any _ = false
          rw [hworker, Option.any_some, hadvance]
          exact Bool.not_and_self _
        · simp only [Application.Uploads.next, hworker, hadvance]
        · simp only [Application.Uploads.next, hworker, hadvance]

structure DeletionSafe (rules : ServiceRules Json) (system later : System Json) : Prop where
  kept : ∀ tombstone ∈ system.store.tombstones, tombstone ∈ later.store.tombstones
  denied : ∀ tombstone ∈ system.store.tombstones, ∀ event, Orderly later event →
    operationOn later event = some tombstone.key → Denied rules later event
  listed : ∀ deletion, ∀ tombstone ∈ (Application.Uploads.next rules later (.requestDeletion deletion)).store.tombstones,
    tombstone ∈ later.store.tombstones ∨
      (Lists tombstone.manifest later.store tombstone.key ↔
        Orderly later (.requestDeletion deletion))

/-- **Deletion.**  In every run whose deletions meet no upload of their document, and whose
initiations are not committed for a deleted one: no later operation on a deleted document goes
through or stores anything, and a manifest is complete exactly under that condition. -/
theorem deletion_effective (rules : ServiceRules Json) {front back : List (Event Json)}
    (horderly : Machine.EachStep (Application.Uploads.next rules) Orderly System.initial (front ++ back)) :
    DeletionSafe rules (Machine.after (Application.Uploads.next rules) System.initial front)
      (Machine.after (Application.Uploads.next rules) System.initial (front ++ back)) := by
  have hlater : Buried rules (Machine.after (Application.Uploads.next rules) System.initial (front ++ back)) :=
    after_buried initial_buried horderly
  have hkept : Kept (Machine.after (Application.Uploads.next rules) System.initial front).store
      (Machine.after (Application.Uploads.next rules) System.initial (front ++ back)).store := by
    rw [Machine.after_append]
    exact after_kept (after_systemSound initial_systemSound front) back
  refine
    { kept := hkept.tombstones
      denied := fun tombstone hmem event hevent hon =>
        hlater.denied (hkept.tombstones tombstone hmem) hevent hon
      listed := fun deletion tombstone hmem => ?_ }
  rcases (next_moved hlater.sound (.requestDeletion deletion)).tombstones tombstone hmem with
    hold | ⟨made, hmade, rfl⟩
  · exact Or.inl hold
  · cases hmade
    exact Or.inr manifest_lists_iff

end Deletion

/-! ### An upload that is pending at the deletion -/

namespace Sample

def sha : String := "0000000000000000000000000000000000000000000000000000000000000000"

def rules : ServiceRules Unit where
  isUuid := fun _ => true
  isIsoDate := fun _ => true
  sha256 := fun _ => sha
  limits := ⟨"strict-v1", 1000⟩
  documentFingerprint := fun payload => payload.title
  versionFingerprint := fun payload => payload.filename
  completeFingerprint := fun payload => payload.sha256
  documentHash := fun document => document.documentId
  snapshotHash := fun version => version.result.versionId
  deletionHash := fun deletionId _ _ => deletionId
  recordHash := fun _ => "record"
  requestHash := id
  requestKey := fun user document key => user ++ document ++ key
  hashEvent := fun body => body.eventId

def content : Application.Uploads.Bytes := [37, 80, 68, 70, 45, 49, 46, 52, 10]

def inputs (recordId eventId : String) : Inputs where
  recordId := recordId
  versionId := "version"
  objectId := "object"
  postTicket := "ticket"
  eventId := eventId
  replayAt := 1
  pendingAt := 1
  expiresFrom := 1
  createdAt := 1
  ticketExpiresAt := 601
  auditAt := 1
  rememberedAt := 1

def document₁ : DocumentKey := ⟨"tenant", "document"⟩

def upload₁ : UploadKey := ⟨"tenant", "upload"⟩

def create : Event Unit :=
  .createDocument ⟨"tenant", ⟨"company", "Report", "sustainability_report"⟩, "document-key-0001",
    "actor"⟩ (some ()) (inputs "document" "event-1")

def initiate : Event Unit :=
  .initiate ⟨"tenant", "document", ⟨"report.pdf", ⟨sha, 9⟩, 2025, "gics", "2025-01-01",
    "2025-12-31", "rights", none, none⟩, "version-key-00001", "actor"⟩

def commit : Event Unit :=
  .step 0 ⟨inputs "upload" "event-2", true, .refused "PDF_INVALID" none⟩

def delete : Event Unit :=
  .requestDeletion ⟨"tenant", "admin", true, "document", "requested deletion", "deletion-key-0001",
    2, "deletion", inputs "unused" "event-3"⟩

def receive : Event Unit :=
  .receive ⟨"tenant", "upload", content, "application/pdf"⟩ 3

def deleted : System Unit :=
  Machine.after (Application.Uploads.next rules) System.initial [create, initiate, commit, delete]

end Sample

theorem upload_outlives_deletion :
    (Sample.deleted.store.tombstones.find Sample.document₁).map (fun tombstone =>
        tombstone.manifest.uploadRecords.map ManifestEntry.kind) = some [.document] ∧
      operationOn Sample.deleted Sample.receive = some Sample.document₁ ∧
      succeeds Sample.rules Sample.deleted Sample.receive = true ∧
      Sample.deleted.files.quarantine.find Sample.upload₁ = none ∧
      (Application.Uploads.next Sample.rules Sample.deleted Sample.receive).files.quarantine.find Sample.upload₁ =
        some (Sample.upload₁, Sample.content) := by
  decide +kernel

theorem deletion_effective_without_uploads :
    DeletionSafe Sample.rules
        (Machine.after (Application.Uploads.next Sample.rules) System.initial [Sample.create, Sample.delete])
        (Machine.after (Application.Uploads.next Sample.rules) System.initial
          ([Sample.create, Sample.delete] ++ [Sample.initiate])) ∧
      succeeds Sample.rules
        (Machine.after (Application.Uploads.next Sample.rules) System.initial [Sample.create, Sample.delete])
        Sample.initiate = false := by
  refine ⟨deletion_effective Sample.rules ?_, by decide +kernel⟩
  decide +kernel

end ProofOps.Adapters.Local.Retention
