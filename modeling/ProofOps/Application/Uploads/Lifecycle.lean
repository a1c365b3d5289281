import ProofOps.Application.Uploads.Service

/-!
# The life of an upload

An upload is pending until one completion accepts or rejects it.  An accepted upload owns one
version, and the latest version of a document is the greatest one of its accepted uploads.  Each
write of the service keeps this.
-/

namespace ProofOps.Application.Uploads

open Foundation Foundation.Checked Foundation.Table

variable {Json : Type} {rules : ServiceRules Json} {store after : Store Json}

variable {tenantId : String}

theorem guarded_ok {Row : Type} {identifier : String} {record : Row → StoredRecord Json}
    {found : Option Row} {row : Row}
    (h : guarded rules store tenantId identifier record found = .ok row) :
    found = some row ∧ documentIsDeleted store tenantId (record row).documentId = false := by
  replace h := rest_ok h
  replace h := rest_ok h
  cases found with
  | none => cases h
  | some given =>
    obtain ⟨⟨⟩, hdeleted, h⟩ := bind_ok h
    cases pure_ok h
    rw [refuse_ok_iff, Bool.not_eq_true] at hdeleted
    exact ⟨rfl, hdeleted⟩

theorem getDocument_ok {documentId : String} {row : DocumentRow Json}
    (h : getDocument rules store tenantId documentId = .ok row) :
    row ∈ store.documents ∧ row.key = ⟨tenantId, documentId⟩ ∧
      store.tombstones.find ⟨tenantId, documentId⟩ = none := by
  obtain ⟨hfound, hdeleted⟩ := guarded_ok h
  obtain ⟨hmem, hkey⟩ := find_eq_some_iff.mp hfound
  refine ⟨hmem, hkey, ?_⟩
  have hid : row.data.document.documentId = documentId := congrArg DocumentKey.documentId hkey
  have hnone : (store.tombstones.find ⟨tenantId, row.data.document.documentId⟩).isSome = false :=
    hdeleted
  rw [hid] at hnone
  exact Option.isSome_eq_false_iff.mp hnone |> Option.isNone_iff_eq_none.mp

variable {row : UploadRow Json}

theorem getUpload_ok {uploadId : String} (h : getUpload rules store tenantId uploadId = .ok row) :
    row ∈ store.uploads ∧ row.key = ⟨tenantId, uploadId⟩ :=
  find_eq_some_iff.mp (guarded_ok h).1

theorem getVersion_ok {versionId : String} {row : VersionRow Json}
    (h : getVersion rules store tenantId versionId = .ok row) :
    row ∈ store.versions ∧ row.key = ⟨tenantId, versionId⟩ :=
  find_eq_some_iff.mp (guarded_ok h).1

variable {now : Int} {key : IdempotencyKey} {fingerprint : String} {response : Response}

theorem replay_some (h : replay rules store key fingerprint now = .ok (some response)) :
    ∃ row ∈ store.idempotency, row.key = key ∧ row.response = response ∧
      checkResponse rules store key.tenantId response = .ok () := by
  replace h := rest_ok h
  replace h := rest_ok h
  replace h := rest_ok h
  cases hfind : store.idempotency.find key with
  | none =>
    rw [hfind] at h
    cases h
  | some row =>
    simp only [hfind] at h
    by_cases hlive : now < row.expires
    · rw [if_pos hlive] at h
      replace h := rest_ok h
      obtain ⟨⟨⟩, hcheck, h⟩ := bind_ok h
      cases pure_ok h
      obtain ⟨hmem, hkey⟩ := find_eq_some_iff.mp hfind
      exact ⟨row, hmem, hkey, rfl, hcheck⟩
    · rw [if_neg hlive] at h
      cases h

structure Continues (row later : UploadRow Json) : Prop where
  key : later.key = row.key
  metadata : later.metadata = row.metadata
  document : later.document = row.document
  versionId : later.versionId = row.versionId
  createdAt : later.createdAt = row.createdAt
  status : row.status ≠ .pending → later.status = row.status

theorem Continues.refl (row : UploadRow Json) : Continues row row where
  key := rfl
  metadata := rfl
  document := rfl
  versionId := rfl
  createdAt := rfl
  status := fun _ => rfl

theorem Continues.trans {first second third : UploadRow Json} (h : Continues first second)
    (h' : Continues second third) : Continues first third where
  key := h'.key.trans h.key
  metadata := h'.metadata.trans h.metadata
  document := h'.document.trans h.document
  versionId := h'.versionId.trans h.versionId
  createdAt := h'.createdAt.trans h.createdAt
  status := fun hstatus => by
    have hsecond := h.status hstatus
    exact (h'.status (by rw [hsecond]; exact hstatus)).trans hsecond

structure Kept (store later : Store Json) : Prop where
  documents : ∀ row ∈ store.documents, ∃ other ∈ later.documents, other.key = row.key
  uploads : ∀ row ∈ store.uploads, ∃ other ∈ later.uploads, Continues row other
  versions : ∀ row ∈ store.versions, row ∈ later.versions
  audit : ∀ event ∈ store.audit, event ∈ later.audit
  tombstones : ∀ row ∈ store.tombstones, row ∈ later.tombstones

theorem Kept.refl (store : Store Json) : Kept store store where
  documents := fun row h => ⟨row, h, rfl⟩
  uploads := fun row h => ⟨row, h, Continues.refl row⟩
  versions := fun _ h => h
  audit := fun _ h => h
  tombstones := fun _ h => h

variable {first second third : Store Json}

theorem Kept.trans (h : Kept first second) (h' : Kept second third) : Kept first third where
  documents := fun row hrow => by
    obtain ⟨mid, hmid, hkey⟩ := h.documents row hrow
    obtain ⟨last, hlast, hlastKey⟩ := h'.documents mid hmid
    exact ⟨last, hlast, hlastKey.trans hkey⟩
  uploads := fun row hrow => by
    obtain ⟨mid, hmid, hcontinues⟩ := h.uploads row hrow
    obtain ⟨last, hlast, hrest⟩ := h'.uploads mid hmid
    exact ⟨last, hlast, hcontinues.trans hrest⟩
  versions := fun row hrow => h'.versions row (h.versions row hrow)
  audit := fun event hevent => h'.audit event (h.audit event hevent)
  tombstones := fun row hrow => h'.tombstones row (h.tombstones row hrow)

/-! ### The invariant -/

def VersionRow.document (version : VersionRow Json) : DocumentKey :=
  ⟨version.tenantId, version.result.documentId⟩

structure VersionOf (row : UploadRow Json) (version : VersionRow Json) : Prop where
  key : version.key = ⟨row.key.tenantId, row.versionId⟩
  documentId : version.result.documentId = row.document.document.documentId
  sha256 : version.result.sha256 = row.metadata.content.sha256
  createdAt : version.result.createdAt = row.createdAt

variable {later : UploadRow Json} {version : VersionRow Json}

theorem VersionOf.continues
    (h : VersionOf row version) (hlater : Continues row later) : VersionOf later version where
  key := by rw [hlater.key, hlater.versionId, h.key]
  documentId := by rw [hlater.document, h.documentId]
  sha256 := by rw [hlater.metadata, h.sha256]
  createdAt := by rw [hlater.createdAt, h.createdAt]

def Completed (store : Store Json) (key : UploadKey) (result : VersionResult) : Prop :=
  ∃ row ∈ store.uploads, row.key = key ∧ row.status = .accepted ∧
    ∃ version ∈ store.versions, VersionOf row version ∧ version.result = result

variable {result : VersionResult}

/-- A completed upload stays completed, with its result. -/
theorem Completed.kept {key : UploadKey} (h : Completed store key result)
    (hkept : Kept store after) : Completed after key result := by
  obtain ⟨row, hrow, rfl, hstatus, version, hversion, hof, rfl⟩ := h
  obtain ⟨later, hlater, hcontinues⟩ := hkept.uploads row hrow
  have hpending : row.status ≠ .pending := by
    rw [hstatus]
    decide
  exact ⟨later, hlater, hcontinues.key, (hcontinues.status hpending).trans hstatus, version,
    hkept.versions version hversion, hof.continues hcontinues, rfl⟩

/-- A completed upload has one result. -/
theorem Completed.unique {key : UploadKey} {first second : VersionResult}
    (h : Completed store key first) (h' : Completed store key second) : first = second := by
  obtain ⟨row, hrow, rfl, -, version, hversion, hof, rfl⟩ := h
  obtain ⟨other, hother, hkey, -, found, hfound, hfoundOf, rfl⟩ := h'
  obtain rfl := eq_of_key_eq hother hrow hkey
  rw [eq_of_key_eq hversion hfound (hof.key.trans hfoundOf.key.symm)]

def Latest (versions : Table (VersionRow Json) VersionRow.key) (row : DocumentRow Json) : Prop :=
  match row.data.document.latestVersionId with
  | none => ∀ version ∈ versions, version.document ≠ row.key
  | some versionId => ∃ version ∈ versions, version.key = ⟨row.tenantId, versionId⟩ ∧
      version.document = row.key ∧
      ∀ other ∈ versions, other.document = row.key → other.result.rank ≤ version.result.rank

/-- The invariant of the store. -/
structure Sound (rules : ServiceRules Json) (store : Store Json) : Prop where
  accepted : ∀ row ∈ store.uploads, row.status = .accepted →
    ∃ version ∈ store.versions, VersionOf row version
  owned : ∀ version ∈ store.versions, ∃ row ∈ store.uploads, row.status = .accepted ∧
    VersionOf row version
  single : ∀ row ∈ store.uploads, ∀ other ∈ store.uploads, row.status = .accepted →
    other.status = .accepted → row.key.tenantId = other.key.tenantId →
      row.versionId = other.versionId → row = other
  homes : ∀ version ∈ store.versions, ∃ row ∈ store.documents, row.key = version.document
  latest : ∀ row ∈ store.documents, Latest store.versions row
  responses : ∀ row ∈ store.idempotency, ∀ uploadId, row.key.route = .complete uploadId →
    ∃ result, row.response = .version result ∧
      Completed store ⟨row.key.tenantId, uploadId⟩ result
  audit : Chained rules.hashEvent store.audit

theorem sound_initial : Sound rules Store.initial where
  accepted := fun _ h => absurd h not_mem_empty
  owned := fun _ h => absurd h not_mem_empty
  single := fun _ h => absurd h not_mem_empty
  homes := fun _ h => absurd h not_mem_empty
  latest := fun _ h => absurd h not_mem_empty
  responses := fun _ h => absurd h not_mem_empty
  audit := chained_empty

structure Extends (rules : ServiceRules Json) (store later : Store Json) : Prop where
  sound : Sound rules later
  kept : Kept store later

theorem Extends.refl (hsound : Sound rules store) : Extends rules store store :=
  ⟨hsound, Kept.refl store⟩

theorem Extends.trans (h : Extends rules first second)
    (h' : Extends rules second third) : Extends rules first third :=
  ⟨h'.sound, h.kept.trans h'.kept⟩

/-! ### The writes -/

theorem remember_extends (hsound : Sound rules store)
    (hfits : ∀ uploadId, key.route = .complete uploadId → ∃ result, response = .version result ∧
      Completed store ⟨key.tenantId, uploadId⟩ result) :
    Extends rules store (remember store key fingerprint response now) where
  sound :=
    { hsound with
      responses := fun row hrow uploadId hroute => by
        rcases mem_put.mp hrow with rfl | ⟨hold, -⟩
        · exact hfits uploadId hroute
        · exact hsound.responses row hold uploadId hroute }
  kept := ⟨(Kept.refl store).documents, (Kept.refl store).uploads, fun _ h => h, fun _ h => h,
    fun _ h => h⟩

theorem auditChange_extends (hsound : Sound rules store) {change : Change} {eventId : String}
    {timestamp : Int} (h : auditChange rules store change eventId timestamp = .ok after) :
    Extends rules store after ∧ ∃ log, after = { store with audit := log } := by
  obtain ⟨log, hlog, h⟩ := bind_ok h
  cases pure_ok h
  obtain ⟨hchained, hkept⟩ := audit_ok hsound.audit hlog
  exact ⟨⟨{ hsound with audit := hchained }, ⟨(Kept.refl store).documents, (Kept.refl store).uploads,
    fun _ h => h, hkept, fun _ h => h⟩⟩, log, rfl⟩

variable {documents : Table (DocumentRow Json) DocumentRow.key}

/-- A new document has no version yet. -/
theorem insertDocument_extends (hsound : Sound rules store) {row : DocumentRow Json}
    (hinsert : store.documents.insert? row = some documents)
    (hnone : row.data.document.latestVersionId = none) :
    Extends rules store { store with documents } where
  sound :=
    { hsound with
      homes := fun version hversion => by
        obtain ⟨home, hhome, hkey⟩ := hsound.homes version hversion
        exact ⟨home, (mem_insert? hinsert).mpr (Or.inl hhome), hkey⟩
      latest := fun other hother => by
        rcases (mem_insert? hinsert).mp hother with hold | rfl
        · exact hsound.latest other hold
        · unfold Latest
          rw [hnone]
          intro version hversion hdocument
          obtain ⟨home, hhome, hkey⟩ := hsound.homes version hversion
          have hfree := find_eq_none_iff.mp (find_of_insert? hinsert) home hhome
          exact hfree (hkey.trans hdocument) }
  kept := ⟨fun other hother => ⟨other, (mem_insert? hinsert).mpr (Or.inl hother), rfl⟩,
    (Kept.refl store).uploads, fun _ h => h, fun _ h => h, fun _ h => h⟩

variable {uploads : Table (UploadRow Json) UploadRow.key}

theorem uploads_extends (hsound : Sound rules store)
    (hkept : ∀ row ∈ store.uploads, ∃ other ∈ uploads, Continues row other)
    (haccepted : ∀ row ∈ uploads, row.status = .accepted → row ∈ store.uploads) :
    Extends rules store { store with uploads } := by
  have hlater : Kept store { store with uploads } :=
    ⟨(Kept.refl store).documents, hkept, fun _ h => h, fun _ h => h, fun _ h => h⟩
  refine ⟨{ hsound with accepted := ?_, owned := ?_, single := ?_, responses := ?_ }, hlater⟩
  · exact fun row hrow hstatus => hsound.accepted row (haccepted row hrow hstatus) hstatus
  · intro version hversion
    obtain ⟨row, hrow, hstatus, hof⟩ := hsound.owned version hversion
    obtain ⟨other, hother, hcontinues⟩ := hkept row hrow
    have hpending : row.status ≠ .pending := by
      rw [hstatus]
      decide
    exact ⟨other, hother, (hcontinues.status hpending).trans hstatus, hof.continues hcontinues⟩
  · intro row hrow other hother hstatus hotherStatus
    exact hsound.single row (haccepted row hrow hstatus) other
      (haccepted other hother hotherStatus) hstatus hotherStatus
  · intro row hrow uploadId hroute
    obtain ⟨result, hresponse, hcompleted⟩ := hsound.responses row hrow uploadId hroute
    exact ⟨result, hresponse, hcompleted.kept hlater⟩

theorem insertUpload_extends (hsound : Sound rules store)
    (hinsert : store.uploads.insert? row = some uploads) (hpending : row.status = .pending) :
    Extends rules store { store with uploads } := by
  refine uploads_extends hsound (fun old hold =>
    ⟨old, (mem_insert? hinsert).mpr (Or.inl hold), Continues.refl old⟩) fun other hother hstatus => ?_
  rcases (mem_insert? hinsert).mp hother with hold | rfl
  · exact hold
  · rw [hpending] at hstatus
    cases hstatus

variable {current : UploadRow Json}

theorem put_continues {table : Table (UploadRow Json) UploadRow.key}
    (hcurrent : current ∈ table) (hcontinues : Continues current later) :
    ∀ row ∈ table, ∃ other ∈ table.put later, Continues row other := by
  intro row hrow
  by_cases hkey : row.key = later.key
  · obtain rfl : row = current := eq_of_key_eq hrow hcurrent (hkey.trans hcontinues.key)
    exact ⟨later, mem_put.mpr (Or.inl rfl), hcontinues⟩
  · exact ⟨row, mem_put.mpr (Or.inr ⟨hrow, hkey⟩), Continues.refl row⟩

theorem updateUpload_ok (h : updateUpload store row = .ok after) :
    after = { store with uploads := store.uploads.put row } := by
  exact (pure_ok h).symm

theorem updateUpload_extends (hsound : Sound rules store)
    (h : updateUpload store later = .ok after) (hcurrent : current ∈ store.uploads)
    (hcontinues : Continues current later) (hopen : later.status ≠ .accepted) :
    Extends rules store after ∧ later ∈ after.uploads := by
  rw [updateUpload_ok h]
  refine ⟨uploads_extends hsound (put_continues hcurrent hcontinues) fun row hrow hstatus => ?_,
    mem_put.mpr (Or.inl rfl)⟩
  rcases mem_put.mp hrow with rfl | ⟨hold, -⟩
  · exact absurd hstatus hopen
  · exact hold

theorem advanceDocument_ok {old : Table (VersionRow Json) VersionRow.key} {row : DocumentRow Json}
    (hinsert : old.insert? version = some store.versions)
    (hrow : row ∈ store.documents) (hkey : row.key = version.document)
    (hlatest : ∀ other ∈ store.documents, Latest old other)
    (h : advanceDocument rules store row version.result = .ok after) :
    ∃ documents, after = { store with documents } ∧
      (∀ other ∈ documents, Latest store.versions other) ∧
      ∀ other ∈ store.documents, ∃ later ∈ documents, later.key = other.key := by
  have htenant : row.tenantId = version.tenantId := congrArg DocumentKey.tenantId hkey
  -- The version is of no other document.
  have hothers : ∀ other ∈ store.documents, other.key ≠ row.key → Latest store.versions other := by
    intro other hother hne
    have hold := hlatest other hother
    unfold Latest at hold ⊢
    cases hid : other.data.document.latestVersionId with
    | none =>
      simp only [hid] at hold ⊢
      intro candidate hcandidate hdocument
      rcases (mem_insert? hinsert).mp hcandidate with hmem | rfl
      · exact hold candidate hmem hdocument
      · exact hne (hdocument.symm.trans hkey.symm)
    | some versionId =>
      simp only [hid] at hold ⊢
      obtain ⟨found, hfound, hfoundKey, hdocument, hgreatest⟩ := hold
      refine ⟨found, (mem_insert? hinsert).mpr (Or.inl hfound), hfoundKey, hdocument,
        fun candidate hcandidate hsame => ?_⟩
      rcases (mem_insert? hinsert).mp hcandidate with hmem | rfl
      · exact hgreatest candidate hmem hsame
      · exact absurd (hsame.symm.trans hkey.symm) hne
  have hnew : version ∈ store.versions := (mem_insert? hinsert).mpr (Or.inr rfl)
  -- The document names the version, once it is the greatest one.
  have hadvanced : ∀ {revision : Nat} {later : DocumentRow Json},
      later = ⟨row.tenantId, ⟨{ row.data.document with
        latestVersionId := some version.result.versionId, revision }, row.data.company⟩⟩ →
      (∀ other ∈ store.versions, other.document = row.key →
        other.result.rank ≤ version.result.rank) →
      (∀ other ∈ store.documents.put later, Latest store.versions other) ∧
        ∀ other ∈ store.documents, ∃ found ∈ store.documents.put later, found.key = other.key := by
    rintro revision later rfl hgreatest
    refine ⟨fun other hother => ?_, fun other hother => ?_⟩
    · rcases mem_put.mp hother with rfl | ⟨hold, hne⟩
      · refine ⟨version, hnew, ?_, hkey.symm, hgreatest⟩
        rw [htenant]
        rfl
      · exact hothers other hold hne
    · by_cases hsame : other.key = row.key
      · exact ⟨_, mem_put.mpr (Or.inl rfl), hsame.symm⟩
      · exact ⟨other, mem_put.mpr (Or.inr ⟨hother, hsame⟩), rfl⟩
  have hrowLatest := hlatest row hrow
  unfold Latest at hrowLatest
  unfold advanceDocument at h
  cases hid : row.data.document.latestVersionId with
  | none =>
    simp only [hid] at h hrowLatest
    replace h := rest_ok h
    cases pure_ok h
    obtain ⟨hall, hkept⟩ := hadvanced rfl fun other hother hdocument => by
      rcases (mem_insert? hinsert).mp hother with hmem | rfl
      · exact absurd hdocument (hrowLatest other hmem)
      · exact le_refl _
    exact ⟨_, rfl, hall, hkept⟩
  | some latestId =>
    simp only [hid] at h hrowLatest
    obtain ⟨latest, hread, h⟩ := bind_ok h
    obtain ⟨hlatestMem, hlatestKey⟩ := getVersion_ok hread
    obtain ⟨found, hfound, hfoundKey, hdocument, hgreatest⟩ := hrowLatest
    obtain rfl : found = latest := eq_of_key_eq ((mem_insert? hinsert).mpr (Or.inl hfound))
      hlatestMem (hfoundKey.trans hlatestKey.symm)
    by_cases hgreater : found.result.rank < version.result.rank
    · rw [if_pos hgreater] at h
      replace h := rest_ok h
      cases pure_ok h
      obtain ⟨hall, hkept⟩ := hadvanced rfl fun other hother hsame => by
        rcases (mem_insert? hinsert).mp hother with hmem | rfl
        · exact (hgreatest other hmem hsame).trans (le_of_lt hgreater)
        · exact le_refl _
      exact ⟨_, rfl, hall, hkept⟩
    · rw [if_neg hgreater] at h
      cases pure_ok h
      refine ⟨store.documents, rfl, fun other hother => ?_, fun other hother => ⟨other, hother, rfl⟩⟩
      by_cases hsame : other.key = row.key
      · obtain rfl := eq_of_key_eq hother hrow hsame
        unfold Latest
        simp only [hid]
        refine ⟨found, (mem_insert? hinsert).mpr (Or.inl hfound), hfoundKey, hdocument,
          fun candidate hcandidate hcandidateDocument => ?_⟩
        rcases (mem_insert? hinsert).mp hcandidate with hmem | rfl
        · exact hgreatest candidate hmem hcandidateDocument
        · exact not_lt.mp hgreater
      · exact hothers other hother hsame

theorem checkPending_ok (h : checkPending row now = .ok ()) :
    row.status = .pending := by
  obtain ⟨⟨⟩, hpending, -⟩ := bind_ok h
  rwa [refuse_ok_iff, not_not] at hpending

structure Accepts (current later : UploadRow Json) : Prop where
  continues : Continues current later
  before : current.status = .pending
  status : later.status = .accepted

theorem accept_extends (hsound : Sound rules store)
    {versions : Table (VersionRow Json) VersionRow.key} (hcurrent : current ∈ store.uploads)
    (haccepts : Accepts current later) (hof : VersionOf later version)
    (hinsert : store.versions.insert? version = some versions)
    (hhome : ∃ row ∈ documents, row.key = version.document)
    (hlatest : ∀ row ∈ documents, Latest versions row)
    (hdocuments : ∀ row ∈ store.documents, ∃ other ∈ documents, other.key = row.key) :
    Extends rules store
      { store with versions, documents, uploads := store.uploads.put later } := by
  have hkept : Kept store { store with versions, documents, uploads := store.uploads.put later } :=
    ⟨hdocuments, put_continues hcurrent haccepts.continues,
      fun row hrow => (mem_insert? hinsert).mpr (Or.inl hrow), fun _ h => h, fun _ h => h⟩
  have hnew : version ∈ versions := (mem_insert? hinsert).mpr (Or.inr rfl)
  -- Another accepted upload has another version.
  have hfresh : ∀ row ∈ store.uploads, row.status = .accepted →
      row.key.tenantId = later.key.tenantId → row.versionId ≠ later.versionId := by
    intro row hrow hstatus htenant hsame
    obtain ⟨old, hold, holdOf⟩ := hsound.accepted row hrow hstatus
    apply find_eq_none_iff.mp (find_of_insert? hinsert) old hold
    rw [holdOf.key, hof.key, htenant, hsame]
  refine ⟨⟨?_, ?_, ?_, ?_, hlatest, ?_, hsound.audit⟩, hkept⟩
  · intro row hrow hstatus
    rcases mem_put.mp hrow with rfl | ⟨hold, -⟩
    · exact ⟨version, hnew, hof⟩
    · obtain ⟨found, hfound, hfoundOf⟩ := hsound.accepted row hold hstatus
      exact ⟨found, (mem_insert? hinsert).mpr (Or.inl hfound), hfoundOf⟩
  · intro candidate hcandidate
    rcases (mem_insert? hinsert).mp hcandidate with hold | rfl
    · obtain ⟨row, hrow, hstatus, hrowOf⟩ := hsound.owned candidate hold
      refine ⟨row, mem_put.mpr (Or.inr ⟨hrow, fun hkey => ?_⟩), hstatus, hrowOf⟩
      obtain rfl := eq_of_key_eq hrow hcurrent (hkey.trans haccepts.continues.key)
      rw [haccepts.before] at hstatus
      cases hstatus
    · exact ⟨later, mem_put.mpr (Or.inl rfl), haccepts.status, hof⟩
  · intro row hrow other hother hstatus hotherStatus htenant hversion
    rcases mem_put.mp hrow with rfl | ⟨hold, -⟩
    · rcases mem_put.mp hother with rfl | ⟨hotherOld, -⟩
      · rfl
      · exact absurd hversion.symm (hfresh other hotherOld hotherStatus htenant.symm)
    · rcases mem_put.mp hother with rfl | ⟨hotherOld, -⟩
      · exact absurd hversion (hfresh row hold hstatus htenant)
      · exact hsound.single row hold other hotherOld hstatus hotherStatus htenant hversion
  · intro candidate hcandidate
    rcases (mem_insert? hinsert).mp hcandidate with hold | rfl
    · obtain ⟨row, hrow, hkey⟩ := hsound.homes candidate hold
      obtain ⟨other, hother, hotherKey⟩ := hdocuments row hrow
      exact ⟨other, hother, hotherKey.trans hkey⟩
    · exact hhome
  · intro row hrow uploadId hroute
    obtain ⟨result, hresponse, hcompleted⟩ := hsound.responses row hrow uploadId hroute
    exact ⟨result, hresponse, hcompleted.kept hkept⟩

theorem acceptUpload_ok (hsound : Sound rules store) {call : CompleteCall}
    {item : UploadRow Json} {verified : Verified Json} {inputs : Inputs}
    (hcurrent : current ∈ store.uploads) (hkey : current.key = call.upload)
    (hcontinues : Continues item current)
    (h : acceptUpload rules store call item current verified inputs = .ok (result, after)) :
    Extends rules store after ∧ Completed after call.upload result ∧
      store.tombstones.find ⟨call.tenantId, item.document.document.documentId⟩ = none ∧
      after.tombstones = store.tombstones ∧
      ∃ later, Continues current later ∧ after.uploads = store.uploads.put later := by
  obtain ⟨⟨⟩, hpending, h⟩ := bind_ok h
  obtain ⟨before, hbefore, h⟩ := bind_ok h
  obtain ⟨job, -, h⟩ := bind_ok h
  obtain ⟨audited, haudit, h⟩ := bind_ok h
  replace h := rest_ok h
  obtain ⟨versions, hversions, h⟩ := bind_ok h
  obtain ⟨document, hdocument, h⟩ := bind_ok h
  obtain ⟨advanced, hadvance, h⟩ := bind_ok h
  obtain ⟨updated, hupdate, h⟩ := bind_ok h
  cases pure_ok h
  obtain ⟨-, -, hexists⟩ := getDocument_ok hbefore
  obtain ⟨hextends, log, rfl⟩ := auditChange_extends hsound haudit
  obtain ⟨hdocumentMem, hdocumentKey, -⟩ := getDocument_ok hdocument
  have hinsert := insertOr_ok hversions
  have hversionDocument : document.key = (newVersion call item verified).document := hdocumentKey
  obtain ⟨documents, rfl, hlatest, hdocuments⟩ :=
    advanceDocument_ok hinsert hdocumentMem hversionDocument hextends.sound.latest hadvance
  obtain rfl := updateUpload_ok hupdate
  have haccepts : Accepts current { current with
      status := .accepted
      validationJob := some { job with
        status := .ready, resultVersionId := some item.versionId, errorCode := none } } :=
    { continues := ⟨rfl, rfl, rfl, rfl, rfl, fun hne => absurd (checkPending_ok hpending) hne⟩
      before := checkPending_ok hpending
      status := rfl }
  have hof : VersionOf item (newVersion call item verified) :=
    { key := by
        rw [← hcontinues.key, hkey]
        rfl
      documentId := rfl
      sha256 := rfl
      createdAt := rfl }
  have hlaterOf := (hof.continues hcontinues).continues haccepts.continues
  have hhome : ∃ row ∈ documents, row.key = (newVersion call item verified).document := by
    obtain ⟨row, hrow, hrowKey⟩ := hdocuments document hdocumentMem
    exact ⟨row, hrow, hrowKey.trans hdocumentKey⟩
  refine ⟨hextends.trans (accept_extends hextends.sound hcurrent haccepts hlaterOf hinsert hhome
    hlatest hdocuments), ?_, hexists, rfl, _, haccepts.continues, rfl⟩
  exact ⟨_, mem_put.mpr (Or.inl rfl), hkey, rfl, _, (mem_insert? hinsert).mpr (Or.inr rfl),
    hlaterOf, rfl⟩

end ProofOps.Application.Uploads
