import ProofOps.Api.Hosted.Custody

/-!
# Papers

The documents, their tombstones and what was published of them.  Most bodies leave
all papers as they are; here is what each of the others writes, and that a document
that was purged never has rows again.
-/

namespace ProofOps.Api.Hosted

open Foundation Foundation.Checked

/-- The tables that a body without papers leaves. -/
structure Papers where
  documents : Table DocumentRow DocumentRow.key
  progress : Table ProgressRow ProgressRow.key
  snapshots : Table SnapshotRow SnapshotRow.key
  tombstones : Table Tombstone Tombstone.key
  attempts : Table Attempt Attempt.key

def HostedStore.papers (store : HostedStore) : Papers where
  documents := store.documents
  progress := store.progress
  snapshots := store.snapshots
  tombstones := store.tombstones
  attempts := store.attempts

variable {deployment : Deployment}

/-! ### Bodies without papers -/

theorem settleEnvelope_papers (store : HostedStore) (runId : String) :
    (settleEnvelope store runId).papers = store.papers := by
  rcases settleEnvelope_cases store runId with h | ⟨-, h⟩
  · rw [h]
    rfl
  · rw [h]
    rfl

theorem settleAll_papers (store : HostedStore) (runIds : List String) :
    (runIds.foldl settleEnvelope store).papers = store.papers := by
  induction runIds generalizing store with
  | nil => rfl
  | cons runId rest ih => exact (ih (settleEnvelope store runId)).trans (settleEnvelope_papers _ _)

theorem expireOne_papers (store : HostedStore) (runId : String) :
    (expireOne store runId).papers = store.papers := by
  unfold expireOne
  split_ifs
  · exact settleEnvelope_papers _ runId
  · rfl

theorem expireRunning_papers (store : HostedStore) (now : ℚ) :
    (expireRunning store now).papers = store.papers := by
  unfold expireRunning
  generalize expiredRuns store now = runIds
  induction runIds generalizing store with
  | nil => rfl
  | cons runId rest ih => exact (ih (expireOne store runId)).trans (expireOne_papers _ _)

variable {store after : HostedStore} {now : ℚ}

theorem claim_papers {claimed : Option RunRow}
    (h : claim deployment store now = .ok (claimed, after)) : after.papers = store.papers := by
  unfold claim at h
  dsimp only at h
  split_ifs at h
  · cases h
    exact expireRunning_papers store now
  · cases hnext : nextQueued deployment (expireRunning store now) with
    | none =>
      simp only [hnext] at h
      cases h
      exact expireRunning_papers store now
    | some row =>
      simp only [hnext] at h
      rw [startRun_ok h]
      exact expireRunning_papers store now

variable {job : Job}

theorem renewLease_papers (h : renewLease store job now = .ok after) :
    after.papers = store.papers := by
  obtain ⟨row, -, h⟩ := bind_ok h
  cases pure_ok h
  rfl

theorem finish_papers {status : RunStatus} (h : finish store job status now = .ok after) :
    after.papers = store.papers := by
  unfold finish at h
  split_ifs at h
  obtain ⟨row, -, h⟩ := bind_ok h
  cases pure_ok h
  exact settleEnvelope_papers _ _

theorem failTick_papers (store : HostedStore) (job : Job) (code : String) :
    (failTick deployment store job code).papers = store.papers := by
  unfold failTick
  cases store.runs.find job.runId with
  | none => rfl
  | some row =>
    dsimp only
    split_ifs
    · exact settleEnvelope_papers _ _
    · rfl

theorem settleFailure_papers (store : HostedStore) (job : Job) (callId : String)
    (failure : DispatchFailure) : (settleFailure store job callId failure).papers = store.papers := by
  unfold settleFailure holdRun
  split_ifs <;> rfl

theorem settleStore_papers (store : HostedStore) (dispatch : Dispatch) (outcome : Outcome) :
    (settleStore store dispatch outcome).papers = store.papers := by
  cases outcome with
  | received matching actual failure =>
    unfold settleStore settleReceipt
    dsimp only
    split_ifs
    · exact settleEnvelope_papers _ _
    · rfl
    · exact settleFailure_papers _ _ _ _
  | notSent failure =>
    unfold settleStore
    split_ifs
    · rfl
    · exact settleFailure_papers _ _ _ _
  | failed failure => exact settleFailure_papers _ _ _ _

variable {auth : Auth}

theorem cancel_papers {runId : String} (h : cancel deployment store auth runId = .ok after) :
    after.papers = store.papers := by
  obtain ⟨-, rfl⟩ := cancel_ok h
  exact settleEnvelope_papers _ _

theorem archiveAll_papers (store : HostedStore) (rows : List SpendRow) :
    (rows.foldl archiveSpend store).papers = store.papers := by
  induction rows generalizing store with
  | nil => rfl
  | cons row rest ih => exact ih (archiveSpend store row)

/-! ### Bodies with papers -/

def PurgesKept (system after : System) : Prop :=
  ∀ document, (document, true) ∈ after.purges → (document, true) ∈ system.purges

inductive PaperStep (system : System) : Call → System → Prop
  | kept {call : Call} {after : System} (h : after.store.papers = system.store.papers)
      (hpurges : PurgesKept system after) : PaperStep system call after
  | upload {auth : Auth} {request : UploadRequest} {after : System}
      {documents : Table DocumentRow DocumentRow.key} {row : DocumentRow}
      (hnew : request.documentId ∉ system.issued) (hissued : request.documentId ∈ after.issued)
      (hrow : row.documentId = request.documentId)
      (hdocuments : system.store.documents.insert? row = some documents)
      (h : after.store.papers = { system.store.papers with documents := documents })
      (hpurges : PurgesKept system after) : PaperStep system (.upload auth request) after
  | copy {auth : Auth} {request : RunRequest} {after : System} {sha256 : String}
      {snapshots : Table SnapshotRow SnapshotRow.key} {progress : Table ProgressRow ProgressRow.key}
      (hsnapshots : system.store.snapshots.insert?
        { runId := request.runId, revision := 1, sha256 := sha256 } = some snapshots)
      (hprogress : system.store.progress.insert?
        { runId := request.runId, stage := "result", progress := 100, resultReady := true } =
          some progress)
      (h : after.store.papers =
        { system.store.papers with snapshots := snapshots, progress := progress })
      (hpurges : PurgesKept system after) : PaperStep system (.createRun auth request) after
  | progress {job : Job} {stage : String} {progress : Nat} {now : ℚ} {after : System}
      {row : RunRow} {ready : Bool} (hrow : Fenced system.store job now row)
      (h : after.store.papers = { system.store.papers with
        progress := system.store.progress.put
          { runId := job.runId, stage := stage, progress := progress, resultReady := ready } })
      (hpurges : PurgesKept system after) :
      PaperStep system (.updateProgress job stage progress now) after
  | publish {job : Job} {status : RunStatus} {errorCode : Option String} {sha256 : String} {now : ℚ}
      {after : System} {row : RunRow} {snapshots : Table SnapshotRow SnapshotRow.key}
      (hrow : Fenced system.store job now row)
      (hsnapshots : system.store.snapshots.insert?
        { runId := job.runId, revision := 1, sha256 := sha256 } = some snapshots)
      (h : after.store.papers = { system.store.papers with
        snapshots := snapshots
        progress := system.store.progress.put
          { runId := job.runId, stage := "result", progress := 100, resultReady := true } })
      (hpurges : PurgesKept system after) :
      PaperStep system (.publishAnalysis job status errorCode sha256 now) after
  | review {tenantId runId sha256 : String} {after : System} {row : SnapshotRow}
      {snapshots : Table SnapshotRow SnapshotRow.key}
      (hsnapshots : system.store.snapshots.insert? row = some snapshots)
      (h : after.store.papers = { system.store.papers with snapshots := snapshots })
      (hpurges : PurgesKept system after) : PaperStep system (.publishReview tenantId runId sha256) after
  | bury {auth : Auth} {documentId key : String} {now : ℚ} {after : System} {row : Tombstone}
      {tombstones : Table Tombstone Tombstone.key}
      (hdocument : ∃ document ∈ system.store.documents, document.key = row.key)
      (hrow : row.key = (auth.tenantId, documentId))
      (htombstones : system.store.tombstones.insert? row = some tombstones)
      (h : after.store.papers = { system.store.papers with tombstones := tombstones })
      (hpurges : PurgesKept system after) :
      PaperStep system (.deleteDocument auth documentId key now) after
  | expire {now : ℚ} {after : System} {tombstones : Table Tombstone Tombstone.key}
      (hold : ∀ row ∈ system.store.tombstones, row ∈ tombstones)
      (hnew : ∀ row ∈ tombstones, row ∈ system.store.tombstones ∨
        ∃ document ∈ system.store.documents, document.key = row.key ∧ document.expires ≤ now)
      (h : after.store.papers = { system.store.papers with tombstones := tombstones })
      (hpurges : PurgesKept system after) : PaperStep system (.maintain now) after
  | purge {document : DocumentKey} {after : System} (hdeleted : isDeleted system.store document = true)
      (h : after.store.papers = { system.store.papers with
        documents := system.store.documents.delete fun row => row.key = document
        progress := system.store.progress.delete fun row =>
          (runsOf system.store document).contains row.runId
        snapshots := system.store.snapshots.delete fun row =>
          (runsOf system.store document).contains row.runId })
      (hruns : ∀ row ∈ after.store.runs, row.document ≠ document)
      (hpurges : after.purges = system.purges ++ [(document, true)]) :
      PaperStep system (.purge document true) after
  | record {document : DocumentKey} {completed : Bool} {now : ℚ} {after : System}
      (hmem : (document, completed) ∈ system.purges)
      (h : after.store.papers = { system.store.papers with
        attempts := system.store.attempts.put
          { tenantId := document.1, documentId := document.2, completed := completed
            updated := now } })
      (hpurges : PurgesKept system after) : PaperStep system (.recordAttempt document completed now) after
  | forget {now : ℚ} {after : System} {forgettable : Tombstone → Bool} {forgotten : Attempt → Bool}
      (hforgettable : ∀ row, forgettable row = true →
        (system.store.attempts.find row.key).any Attempt.completed = true)
      (h : after.store.papers = { system.store.papers with
        tombstones := system.store.tombstones.delete forgettable
        attempts := system.store.attempts.delete forgotten })
      (hpurges : PurgesKept system after) : PaperStep system (.forgetTombstones now) after

variable {system : System}

theorem PaperStep.of_papers {call : Call} (h : store.papers = system.store.papers) :
    PaperStep system call { system with store := store } :=
  PaperStep.kept h fun _ => id

variable {request : RunRequest}

theorem admitRun_papers {selection : Selection}
    (h : admitRun deployment store auth request selection = .ok after) :
    after.papers = store.papers := by
  replace h := rest_ok h
  replace h := rest_ok h
  obtain ⟨runs, -, h⟩ := bind_ok h
  obtain ⟨spend, -, h⟩ := bind_ok h
  obtain ⟨idempotency, rfl⟩ := remember_ok h
  rfl

variable {reply : Reply}

theorem createHosted_papers {after : System}
    (h : createHosted deployment system auth request = .ok (reply, after)) :
    PaperStep system (.createRun auth request) after := by
  obtain ⟨issued, hissued, h⟩ := bind_ok h
  obtain ⟨⟨shown, store⟩, hcreated, h⟩ := bind_ok h
  obtain ⟨-, rfl⟩ := h
  rcases createRun_ok hcreated with rfl | ⟨document, selection, -, hmade⟩
  · exact PaperStep.kept rfl fun _ => id
  · rcases reuseOrAdmit_ok hmade with hadmitted | ⟨source, sha256, -, hcopied⟩
    · exact PaperStep.kept (admitRun_papers hadmitted) fun _ => id
    · obtain ⟨-, hsnapshots, hprogress, hrest⟩ := copyRun_ok hcopied
      refine PaperStep.copy hsnapshots hprogress ?_ fun _ => id
      rw [hrest]
      rfl

variable {request : UploadRequest}

theorem upload_documents (h : upload deployment store auth request = .ok after) :
    after.papers = store.papers ∨ ∃ row, row.documentId = request.documentId ∧
      store.documents.insert? row = some after.documents ∧
      after.papers = { store.papers with documents := after.documents } := by
  replace h := rest_ok h
  obtain ⟨replayed, -, h⟩ := bind_ok h
  cases replayed with
  | some document =>
    obtain ⟨row, -, rfl⟩ := map_ok_iff.mp h
    exact Or.inl rfl
  | none =>
    obtain ⟨documents, hdocuments, h⟩ := bind_ok h
    obtain ⟨owners, -, h⟩ := bind_ok h
    obtain ⟨idempotency, rfl⟩ := remember_ok h
    exact Or.inr ⟨_, rfl, Table.insertOr_ok hdocuments, rfl⟩

theorem uploadHosted_papers {after : System}
    (h : uploadHosted deployment system auth request = .ok (reply, after)) :
    PaperStep system (.upload auth request) after := by
  obtain ⟨issued, hissued, h⟩ := bind_ok h
  obtain ⟨store, hstore, h⟩ := bind_ok h
  obtain ⟨-, rfl⟩ := h
  obtain ⟨hnew, rfl⟩ := issue_ok hissued
  rcases upload_documents hstore with hkept | ⟨row, hrow, hdocuments, hpapers⟩
  · exact PaperStep.kept hkept fun _ => id
  · exact PaperStep.upload hnew (List.mem_append_right _ (List.mem_singleton_self _)) hrow hdocuments
      hpapers fun _ => id

theorem updateProgress_papers {stage : String} {progress : Nat}
    (h : updateProgress store job stage progress now = .ok after) :
    ∃ row ready, Fenced store job now row ∧ after.papers = { store.papers with
      progress := store.progress.put
        { runId := job.runId, stage := stage, progress := progress, resultReady := ready } } := by
  obtain ⟨row, hrow, h⟩ := bind_ok h
  cases pure_ok h
  exact ⟨row, _, fenced_ok hrow, rfl⟩

theorem publishAnalysis_papers {status : RunStatus} {errorCode : Option String} {sha256 : String}
    (h : publishAnalysis store job status errorCode sha256 now = .ok after) :
    ∃ row snapshots, Fenced store job now row ∧
      store.snapshots.insert? { runId := job.runId, revision := 1, sha256 := sha256 } =
        some snapshots ∧
      after.papers = { store.papers with
        snapshots := snapshots
        progress := store.progress.put
          { runId := job.runId, stage := "result", progress := 100, resultReady := true } } := by
  obtain ⟨row, published, hrow, -, hpublished, rfl⟩ := publishAnalysis_ok h
  obtain ⟨hrest, hsnapshots, hprogress⟩ := publishRows_ok hpublished
  refine ⟨row, published.snapshots, hrow, hsnapshots, ?_⟩
  rw [settleEnvelope_papers, ← hprogress]
  rw [hrest]
  rfl

theorem deleteDocument_papers {documentId key : String}
    (h : deleteDocument deployment store auth documentId key now = .ok after) :
    after = store ∨ ∃ row : Tombstone, row.key = (auth.tenantId, documentId) ∧
      (∃ document ∈ store.documents, document.key = row.key) ∧
      store.tombstones.insert? row = some after.tombstones ∧
      after.papers = { store.papers with tombstones := after.tombstones } := by
  unfold deleteDocument at h
  split_ifs at h
  · replace h := rest_ok h
    cases h
    exact Or.inl rfl
  · replace h := rest_ok h
    obtain ⟨document, hdocument, h⟩ := bind_ok h
    obtain ⟨tombstones, htombstones, h⟩ := bind_ok h
    cases pure_ok h
    obtain ⟨hmem, hkey⟩ := Table.find_eq_some_iff.mp (getDocument_ok hdocument).1
    refine Or.inr ⟨_, ?_, ⟨document, hmem, ?_⟩, Table.insertOr_ok htombstones, rfl⟩
    · rfl
    · exact hkey

variable {document : DocumentKey}

theorem isDeleted_iff :
    isDeleted store document = true ↔ ∃ row ∈ store.tombstones, row.key = document := by
  unfold isDeleted
  rw [Option.isSome_iff_exists]
  simp only [Table.find_eq_some_iff]

theorem buryAll_tombstones (deployment : Deployment) (now : ℚ) (store : HostedStore)
    (documents : List DocumentKey) :
    (∀ row ∈ store.tombstones,
        row ∈ (documents.foldl (buryExpired deployment now) store).tombstones) ∧
      ∀ row ∈ (documents.foldl (buryExpired deployment now) store).tombstones,
        row ∈ store.tombstones ∨ row.key ∈ documents := by
  induction documents generalizing store with
  | nil => exact ⟨fun _ => id, fun _ => Or.inl⟩
  | cons document rest ih =>
    obtain ⟨hold, hnew⟩ := ih (buryExpired deployment now store document)
    have hone : ∀ row, row ∈ (buryExpired deployment now store document).tombstones →
        row ∈ store.tombstones ∨ row.key = document := by
      intro row hrow
      unfold buryExpired at hrow
      split_ifs at hrow
      · exact Or.inl hrow
      · rcases Table.mem_put.mp hrow with rfl | ⟨hkept, -⟩
        · exact Or.inr rfl
        · exact Or.inl hkept
    have hkept : ∀ row ∈ store.tombstones,
        row ∈ (buryExpired deployment now store document).tombstones := by
      intro row hrow
      unfold buryExpired
      split_ifs with hdeleted
      · exact hrow
      · refine Table.mem_put.mpr (Or.inr ⟨hrow, fun hkey => hdeleted ?_⟩)
        exact isDeleted_iff.mpr ⟨row, hrow, hkey⟩
    refine ⟨fun row hrow => hold row (hkept row hrow), fun row hrow => ?_⟩
    rcases hnew row hrow with hthere | hlater
    · rcases hone row hthere with hbefore | rfl
      · exact Or.inl hbefore
      · exact Or.inr List.mem_cons_self
    · exact Or.inr (List.mem_cons_of_mem document hlater)

theorem maintain_papers (store : HostedStore) (now : ℚ) :
    ∃ tombstones : Table Tombstone Tombstone.key,
      (∀ row ∈ store.tombstones, row ∈ tombstones) ∧
      (∀ row ∈ tombstones, row ∈ store.tombstones ∨
        ∃ document ∈ store.documents, document.key = row.key ∧ document.expires ≤ now) ∧
      (maintain deployment store now).papers = { store.papers with tombstones := tombstones } := by
  have hpapers := expireRunning_papers store now
  have hdocuments : (expireRunning store now).documents = store.documents :=
    congrArg Papers.documents hpapers
  have htombstones : (expireRunning store now).tombstones = store.tombstones :=
    congrArg Papers.tombstones hpapers
  obtain ⟨hold, hnew⟩ := buryAll_tombstones deployment now (expireRunning store now)
    (expiredDocuments (expireRunning store now) now)
  obtain ⟨tombstones, hburied⟩ := buryAll_rest deployment now (expireRunning store now)
    (expiredDocuments (expireRunning store now) now)
  rw [hburied, htombstones] at hold hnew
  refine ⟨tombstones, hold, fun row hrow => ?_, ?_⟩
  · rcases hnew row hrow with hbefore | hexpired
    · exact Or.inl hbefore
    · obtain ⟨document, hmem, hkey⟩ := List.mem_map.mp hexpired
      obtain ⟨hthere, htest⟩ := List.mem_filter.mp hmem
      rw [Table.mem_rows, hdocuments] at hthere
      exact Or.inr ⟨document, hthere, hkey, of_decide_eq_true htest⟩
  · unfold maintain
    dsimp only
    rw [hburied, archiveAll_papers]
    have hprogress : (expireRunning store now).progress = store.progress :=
      congrArg Papers.progress hpapers
    have hsnapshots : (expireRunning store now).snapshots = store.snapshots :=
      congrArg Papers.snapshots hpapers
    have hattempts : (expireRunning store now).attempts = store.attempts :=
      congrArg Papers.attempts hpapers
    simp only [hdocuments, hprogress, hsnapshots, hattempts]
    rfl

theorem startPurge_papers {after : System} {completed : Bool}
    (h : startPurge system document completed = .ok (reply, after)) :
    PaperStep system (.purge document completed) after := by
  obtain ⟨purged, hpurged, h⟩ := bind_ok h
  obtain ⟨-, rfl⟩ := h
  cases completed with
  | false =>
    refine PaperStep.kept rfl fun other hother => ?_
    rcases List.mem_append.mp hother with hold | hlast
    · exact hold
    · simp at hlast
  | true =>
    unfold purge at hpurged
    split_ifs at hpurged with hdeleted
    simp only [Except.ok.injEq] at hpurged
    subst hpurged
    refine PaperStep.purge (by simpa using hdeleted) ?_ (fun row hrow hdocument => ?_) rfl
    swap
    · obtain ⟨-, hother⟩ := Table.mem_delete.mp hrow
      rw [isRunOf_iff.mpr hdocument] at hother
      cases hother
    have hsettled := settleAll_papers system.store (runsOf system.store document)
    have htombstones := congrArg Papers.tombstones hsettled
    have hattempts := congrArg Papers.attempts hsettled
    dsimp only [HostedStore.papers] at *
    simp only [if_true, htombstones, hattempts]

theorem finishPurge_papers {after : System} {completed : Bool}
    (h : finishPurge system document completed now = .ok (reply, after)) :
    PaperStep system (.recordAttempt document completed now) after := by
  unfold finishPurge at h
  split_ifs at h with hmem
  cases h
  exact PaperStep.record hmem rfl fun _ hother => List.mem_of_mem_erase hother

theorem forgetTombstones_papers (system : System) (now : ℚ) :
    PaperStep system (.forgetTombstones now)
      { system with store := forgetTombstones deployment system.store now } := by
  refine PaperStep.forget (fun row hrow => ?_) rfl fun _ => id
  unfold isForgettable at hrow
  rw [decide_eq_true_eq] at hrow
  exact hrow.2

theorem finishReview_papers {after : System} {tenantId runId sha256 : String}
    (h : finishReview system tenantId runId sha256 = .ok (reply, after)) :
    PaperStep system (.publishReview tenantId runId sha256) after := by
  unfold finishReview at h
  split_ifs at h
  obtain ⟨store, hstore, h⟩ := bind_ok h
  obtain ⟨-, rfl⟩ := h
  obtain ⟨row, hsnapshots, hrest⟩ := publishReview_ok hstore
  refine PaperStep.review hsnapshots ?_ fun _ => id
  rw [hrest]
  rfl

/-- Every call that succeeds is a step of the papers. -/
theorem perform_papers {after : System} {call : Call}
    (h : perform deployment system call = .ok (reply, after)) : PaperStep system call after := by
  cases call with
  | upload auth request => exact uploadHosted_papers h
  | createRun auth request => exact createHosted_papers h
  | drain draining | restart =>
    obtain ⟨store, hstore, rfl⟩ := commit_ok h
    cases hstore
    exact PaperStep.of_papers rfl
  | controlState now =>
    obtain ⟨store, hstore, rfl⟩ := commit_ok h
    cases hstore
    exact PaperStep.of_papers (expireRunning_papers _ now)
  | claim now =>
    obtain ⟨⟨claimed, store⟩, hclaimed, h⟩ := map_ok_iff.mp h
    cases h
    exact PaperStep.of_papers (claim_papers hclaimed)
  | renewLease job now =>
    obtain ⟨store, hstore, rfl⟩ := commit_ok h
    exact PaperStep.of_papers (renewLease_papers hstore)
  | updateProgress job stage progress now =>
    obtain ⟨store, hstore, rfl⟩ := commit_ok h
    obtain ⟨row, ready, hrow, hpapers⟩ := updateProgress_papers hstore
    exact PaperStep.progress hrow hpapers fun _ => id
  | reserve job request now created =>
    obtain ⟨store, hstore, h⟩ := bind_ok h
    obtain ⟨-, rfl⟩ := h
    refine PaperStep.kept ?_ fun _ => id
    rw [(reserve_ok hstore).rest]
    rfl
  | transport dispatch =>
    change callTransport system dispatch = _ at h
    unfold callTransport at h
    split_ifs at h
    cases h
    exact PaperStep.kept rfl fun _ => id
  | settle dispatch outcome =>
    change settleDispatch system dispatch outcome = _ at h
    unfold settleDispatch at h
    split_ifs at h
    cases h
    exact PaperStep.kept (settleStore_papers _ dispatch outcome) fun _ => id
  | finish job status now =>
    obtain ⟨store, hstore, rfl⟩ := commit_ok h
    exact PaperStep.of_papers (finish_papers hstore)
  | publishAnalysis job status errorCode sha256 now =>
    obtain ⟨store, hstore, rfl⟩ := commit_ok h
    obtain ⟨row, snapshots, hrow, hsnapshots, hpapers⟩ := publishAnalysis_papers hstore
    exact PaperStep.publish hrow hsnapshots hpapers fun _ => id
  | failTick job code =>
    obtain ⟨store, hstore, rfl⟩ := commit_ok h
    cases hstore
    exact PaperStep.of_papers (failTick_papers _ job code)
  | cancel auth runId =>
    obtain ⟨store, hstore, rfl⟩ := commit_ok h
    exact PaperStep.of_papers (cancel_papers hstore)
  | deleteDocument auth documentId key now =>
    obtain ⟨store, hstore, rfl⟩ := commit_ok h
    rcases deleteDocument_papers hstore with rfl | ⟨row, hrow, hdocument, htombstones, hpapers⟩
    · exact PaperStep.of_papers rfl
    · exact PaperStep.bury hdocument hrow htombstones hpapers fun _ => id
  | purge document completed => exact startPurge_papers h
  | recordAttempt document completed now => exact finishPurge_papers h
  | maintain now =>
    obtain ⟨store, hstore, rfl⟩ := commit_ok h
    cases hstore
    obtain ⟨tombstones, hold, hnew, hpapers⟩ := maintain_papers system.store now
    exact PaperStep.expire hold hnew hpapers fun _ => id
  | forgetTombstones now =>
    obtain ⟨store, hstore, rfl⟩ := commit_ok h
    cases hstore
    exact forgetTombstones_papers system now
  | openReview auth runId =>
    replace h := rest_ok h
    obtain ⟨-, rfl⟩ := h
    exact PaperStep.kept rfl fun _ => id
  | publishReview tenantId runId sha256 => exact finishReview_papers h

theorem next_step {system : System} (h : Custody deployment system) (call : Call) :
    next deployment system call = system ∨
      (Step deployment system call (next deployment system call) ∧
        PaperStep system call (next deployment system call)) := by
  unfold next
  cases hperform : perform deployment system call with
  | error error => exact Or.inl rfl
  | ok made =>
    exact Or.inr ⟨perform_step h.ids.costs hperform, perform_papers hperform⟩

end ProofOps.Api.Hosted
