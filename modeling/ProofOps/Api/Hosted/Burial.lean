import ProofOps.Api.Hosted.Papers

/-!
# Halted runs

A run halts when it is cancelled, expired, finished or dropped, or when its document
is deleted.  No status leads back to the queue, and a tombstone is forgotten only
once the rows of its document are gone for good, so a halted run stays halted.
-/

namespace ProofOps.Api.Hosted

open Foundation Foundation.Checked

/-- A run that may still be charged. -/
def RunRow.Active (row : RunRow) : Prop :=
  row.status = .queued ∨ row.status = .running

def RunsFrom (fresh : String → Prop) (store after : HostedStore) : Prop :=
  ∀ row ∈ after.runs, ¬fresh row.runId →
    ∃ old ∈ store.runs, old.runId = row.runId ∧ old.document = row.document ∧
      (row.Active → old.Active)

variable {deployment : Deployment} {fresh : String → Prop} {ends : RunRow → Prop}
  {prices : CallKey → Prop} {store after : HostedStore}

theorem RunsFrom.refl (store : HostedStore) : RunsFrom fresh store store :=
  fun row hrow _ => ⟨row, hrow, rfl, rfl, id⟩

theorem RunsFrom.trans {first second third : HostedStore} (hfirst : RunsFrom fresh first second)
    (hsecond : RunsFrom fresh second third) : RunsFrom fresh first third := by
  intro row hrow hfresh
  obtain ⟨mid, hmid, hkey, hdocument, hactive⟩ := hsecond row hrow hfresh
  obtain ⟨old, hold, hkeyOld, hdocumentOld, hactiveOld⟩ := hfirst mid hmid (hkey ▸ hfresh)
  exact ⟨old, hold, hkeyOld.trans hkey, hdocumentOld.trans hdocument,
    fun hrowActive => hactiveOld (hactive hrowActive)⟩

theorem RunsFrom.modify {test : RunRow → Bool} {change : RunRow → RunRow}
    (keeps : ∀ row, RunRow.key (change row) = RunRow.key row)
    (hdocument : ∀ row ∈ store.runs, test row = true → (change row).document = row.document)
    (hactive : ∀ row ∈ store.runs, test row = true → (change row).Active → row.Active) :
    RunsFrom fresh store { store with runs := store.runs.modify test change keeps } := by
  intro row hrow _
  obtain ⟨old, hold, rfl⟩ := (@Table.mem_modify _ _ _ _ _ keeps _ _).mp hrow
  refine ⟨old, hold, ?_⟩
  split_ifs with htest
  · exact ⟨(keeps old).symm, (hdocument old hold htest).symm, hactive old hold htest⟩
  · exact ⟨rfl, rfl, id⟩

theorem Move.runsFrom (hmove : Move deployment fresh ends prices store after) :
    RunsFrom fresh store after := by
  have hinserted : ∀ {row : RunRow} {runs : Table RunRow RunRow.key},
      store.runs.insert? row = some runs → fresh row.runId → ∀ other ∈ runs,
        ¬fresh other.runId → other ∈ store.runs := by
    intro row runs hinsert hnew other hother hold
    rcases (Table.mem_insert? hinsert).mp hother with hthere | rfl
    · exact hthere
    · exact absurd hnew hold
  cases hmove with
  | elsewhere hruns => exact fun row hrow _ => ⟨row, hruns ▸ hrow, rfl, rfl, id⟩
  | admission hruns _ hnew | copy hruns hnew =>
    exact fun row hrow hold => ⟨row, hinserted hruns hnew row hrow hold, rfl, rfl, id⟩
  | start hrow hqueued =>
    refine RunsFrom.modify (RunRow.started_key _) (fun _ _ _ => rfl) fun other hother htest _ => ?_
    rw [run_eq hother hrow (isRun_iff.mp htest)]
    exact Or.inl hqueued
  | @rewrite test change keeps hrewrites =>
    refine RunsFrom.modify keeps (fun row hrow htest => (hrewrites row hrow htest).document)
      fun row hrow htest hactive => ?_
    have hsame := (hrewrites row hrow htest).active hactive
    unfold RunRow.Active at hactive ⊢
    rw [← hsame]
    exact hactive
  | drop => exact fun row hrow _ => ⟨row, (Table.mem_delete.mp hrow).1, rfl, rfl, id⟩
  | settle => exact fun row hrow _ => ⟨row, settleEnvelope_runs _ _ ▸ hrow, rfl, rfl, id⟩
  | _ => exact RunsFrom.refl _

theorem Moves.runsFrom (hmoves : Moves deployment fresh ends prices store after) :
    RunsFrom fresh store after :=
  hmoves.related RunsFrom.refl RunsFrom.trans Move.runsFrom

variable {system : System} {call : Call} {row : RunRow}

theorem Step.runsFrom {after : System} (h : Custody deployment system)
    (hstep : Step deployment system call after) (hrow : row ∈ after.store.runs)
    (hissued : row.runId ∈ system.issued) :
    ∃ old ∈ system.store.runs, old.runId = row.runId ∧ old.document = row.document ∧
      (row.Active → old.Active) :=
  (hstep.moves h).runsFrom row hrow fun hdrawn => hdrawn.1 hissued

/-! ### Documents that are gone -/

structure Gone (system : System) (document : DocumentKey) : Prop where
  issued : document.2 ∈ system.issued
  rows : ∀ row ∈ system.store.documents, row.key ≠ document

structure Burials (system : System) : Prop where
  documents : ∀ row ∈ system.store.documents, row.documentId ∈ system.issued
  tombstones : ∀ row ∈ system.store.tombstones, row.documentId ∈ system.issued
  runs : ∀ row ∈ system.store.runs, ∃ document ∈ system.store.documents,
    document.key = row.document
  purges : ∀ document, (document, true) ∈ system.purges → Gone system document
  attempts : ∀ attempt ∈ system.store.attempts, attempt.completed = true → Gone system attempt.key

theorem burials_initial : Burials System.initial where
  documents := nofun
  tombstones := nofun
  runs := nofun
  purges := nofun
  attempts := nofun

variable {auth : Auth} {request : RunRequest} {selection : Selection}

theorem readRequest_document {document : DocumentRow}
    (h : readRequest deployment store auth request = .ok (document, selection)) :
    ∃ row ∈ store.documents, row.key = (auth.tenantId, request.documentId) := by
  replace h := rest_ok h
  obtain ⟨row, hrow, h⟩ := bind_ok h
  exact ⟨row, Table.find_eq_some_iff.mp (getDocument_ok hrow).1⟩

theorem admitRun_runs (h : admitRun deployment store auth request selection = .ok after) :
    store.runs.insert?
        (newRun deployment auth request selection .queued deployment.settings.runUsd none) =
      some after.runs := by
  replace h := rest_ok h
  replace h := rest_ok h
  obtain ⟨runs, hruns, h⟩ := bind_ok h
  obtain ⟨spend, -, h⟩ := bind_ok h
  obtain ⟨idempotency, rfl⟩ := remember_ok h
  exact Table.insertOr_ok hruns

theorem createRun_runs {shown : Projection}
    (h : createRun deployment store auth request = .ok (shown, after)) (hrow : row ∈ after.runs) :
    row ∈ store.runs ∨ ∃ document ∈ store.documents, document.key = row.document := by
  rcases createRun_ok h with rfl | ⟨document, selection, hread, hmade⟩
  · exact Or.inl hrow
  · have hplaced : ∀ {status : RunStatus} {envelope : Nat} {errorCode : Option String},
        store.runs.insert? (newRun deployment auth request selection status envelope errorCode) =
          some after.runs →
        row ∈ store.runs ∨ ∃ document ∈ store.documents, document.key = row.document := by
      intro status envelope errorCode hinsert
      rcases (Table.mem_insert? hinsert).mp hrow with hold | rfl
      · exact Or.inl hold
      · exact Or.inr (readRequest_document hread)
    rcases reuseOrAdmit_ok hmade with hadmitted | ⟨source, sha256, -, hcopied⟩
    · exact hplaced (admitRun_runs hadmitted)
    · exact hplaced (copyRun_ok hcopied).1

variable {reply : Reply}

/-- Identifiers grow in a request for a run only. -/
theorem perform_issued {after : System} (h : perform deployment system call = .ok (reply, after)) :
    after.issued = system.issued ∨ after.store.runs = system.store.runs ∨
      ∃ auth request shown,
        createRun deployment system.store auth request = .ok (shown, after.store) := by
  cases call with
  | upload auth request =>
    obtain ⟨issued, -, h⟩ := bind_ok h
    obtain ⟨store, hstore, h⟩ := bind_ok h
    obtain ⟨-, rfl⟩ := h
    obtain ⟨documents, owners, idempotency, rfl⟩ := upload_ok hstore
    exact Or.inr (Or.inl rfl)
  | createRun auth request =>
    obtain ⟨issued, -, h⟩ := bind_ok h
    obtain ⟨⟨shown, store⟩, hcreated, h⟩ := bind_ok h
    obtain ⟨-, rfl⟩ := h
    exact Or.inr (Or.inr ⟨auth, request, shown, hcreated⟩)
  | claim now =>
    obtain ⟨made, -, h⟩ := map_ok_iff.mp h
    cases h
    exact Or.inl rfl
  | reserve job request now created =>
    obtain ⟨store, -, h⟩ := bind_ok h
    obtain ⟨-, rfl⟩ := h
    exact Or.inl rfl
  | transport dispatch =>
    change callTransport system dispatch = _ at h
    unfold callTransport at h
    split_ifs at h
    cases h
    exact Or.inl rfl
  | settle dispatch outcome =>
    change settleDispatch system dispatch outcome = _ at h
    unfold settleDispatch at h
    split_ifs at h
    cases h
    exact Or.inl rfl
  | purge document completed =>
    obtain ⟨purged, -, h⟩ := bind_ok h
    obtain ⟨-, rfl⟩ := h
    exact Or.inl rfl
  | recordAttempt document completed now =>
    change finishPurge system document completed now = _ at h
    unfold finishPurge at h
    split_ifs at h
    cases h
    exact Or.inl rfl
  | openReview auth runId =>
    replace h := rest_ok h
    obtain ⟨-, rfl⟩ := h
    exact Or.inl rfl
  | publishReview tenantId runId sha256 =>
    change finishReview system tenantId runId sha256 = _ at h
    unfold finishReview at h
    split_ifs at h
    obtain ⟨store, -, h⟩ := bind_ok h
    obtain ⟨-, rfl⟩ := h
    exact Or.inl rfl
  | _ =>
    obtain ⟨store, -, rfl⟩ := commit_ok h
    exact Or.inl rfl

theorem perform_placed {after : System} (hcustody : Custody deployment system)
    (h : perform deployment system call = .ok (reply, after)) (hrow : row ∈ after.store.runs) :
    row.runId ∈ system.issued ∨ ∃ document ∈ system.store.documents,
      document.key = row.document := by
  rcases perform_issued h with hissued | hruns | ⟨auth, request, shown, hcreated⟩
  · have hids := (hcustody.step (perform_step hcustody.ids.costs h)).ids
    exact Or.inl (hissued ▸ hids.runs row hrow)
  · exact Or.inl (hcustody.ids.runs row (hruns ▸ hrow))
  · rcases createRun_runs hcreated hrow with hold | hplaced
    · exact Or.inl (hcustody.ids.runs row hold)
    · exact Or.inr hplaced

theorem PaperStep.documents {after : System} (hstep : PaperStep system call after) :
    after.store.documents = system.store.documents ∨
      (∃ row : DocumentRow, row.documentId ∉ system.issued ∧ row.documentId ∈ after.issued ∧
        system.store.documents.insert? row = some after.store.documents) ∨
      ∃ document, (∀ row ∈ after.store.runs, row.document ≠ document) ∧
        after.store.documents = system.store.documents.delete fun row => row.key = document := by
  cases hstep with
  | upload hnew hissued hrow hinsert hpapers =>
    refine Or.inr (Or.inl ⟨_, hrow ▸ hnew, hrow ▸ hissued, hinsert.trans ?_⟩)
    exact congrArg some (congrArg Papers.documents hpapers).symm
  | purge _ hpapers hruns =>
    exact Or.inr (Or.inr ⟨_, hruns, congrArg Papers.documents hpapers⟩)
  | kept hpapers | copy _ _ hpapers | progress _ hpapers | publish _ _ hpapers | review _ hpapers
  | bury _ _ _ hpapers | expire _ _ hpapers | record _ hpapers | forget _ hpapers =>
    exact Or.inl (congrArg Papers.documents hpapers)

theorem PaperStep.tombstones {after : System} (hstep : PaperStep system call after) {row : Tombstone}
    (hrow : row ∈ after.store.tombstones) :
    row ∈ system.store.tombstones ∨ ∃ document ∈ system.store.documents, document.key = row.key := by
  have htables : ∀ {papers : Papers}, after.store.papers = papers → row ∈ papers.tombstones :=
    fun hpapers => congrArg Papers.tombstones hpapers ▸ hrow
  cases hstep with
  | bury hdocument _ hinsert hpapers =>
    rcases (Table.mem_insert? hinsert).mp (htables hpapers) with hold | rfl
    · exact Or.inl hold
    · exact Or.inr hdocument
  | expire _ hnew hpapers =>
    refine (hnew row (htables hpapers)).imp_right ?_
    rintro ⟨document, hthere, hkey, -⟩
    exact ⟨document, hthere, hkey⟩
  | forget _ hpapers => exact Or.inl (Table.mem_delete.mp (htables hpapers)).1
  | kept hpapers | upload _ _ _ _ hpapers | copy _ _ hpapers | progress _ hpapers
  | publish _ _ hpapers | review _ hpapers | purge _ hpapers | record _ hpapers =>
    exact Or.inl (htables hpapers)

theorem Gone.step {after : System} {document : DocumentKey}
    (hissued : system.issued ⊆ after.issued) (hstep : PaperStep system call after)
    (h : Gone system document) : Gone after document := by
  refine ⟨hissued h.issued, fun row hrow => ?_⟩
  rcases hstep.documents with hsame | ⟨placed, hnew, -, hinsert⟩ | ⟨purged, -, hsame⟩
  · exact h.rows row (hsame ▸ hrow)
  · rcases (Table.mem_insert? hinsert).mp hrow with hold | rfl
    · exact h.rows row hold
    · rintro rfl
      exact hnew h.issued
  · rw [hsame] at hrow
    exact h.rows row (Table.mem_delete.mp hrow).1

theorem PaperStep.issued {after : System} (h : Burials system)
    (hissued : system.issued ⊆ after.issued) (hstep : PaperStep system call after) :
    (∀ row ∈ after.store.documents, row.documentId ∈ after.issued) ∧
      ∀ row ∈ after.store.tombstones, row.documentId ∈ after.issued := by
  constructor
  · intro row hrow
    rcases hstep.documents with hsame | ⟨placed, -, hplaced, hinsert⟩ | ⟨purged, -, hsame⟩
    · exact hissued (h.documents row (hsame ▸ hrow))
    · rcases (Table.mem_insert? hinsert).mp hrow with hold | rfl
      · exact hissued (h.documents row hold)
      · exact hplaced
    · rw [hsame] at hrow
      exact hissued (h.documents row (Table.mem_delete.mp hrow).1)
  · intro row hrow
    rcases hstep.tombstones hrow with hold | ⟨document, hthere, hkey⟩
    · exact hissued (h.tombstones row hold)
    · have hsame : document.documentId = row.documentId := congrArg Prod.snd hkey
      exact hissued (hsame ▸ h.documents document hthere)

theorem PaperStep.document {after : System} (hstep : PaperStep system call after)
    (hrow : row ∈ after.store.runs)
    (h : ∃ document ∈ system.store.documents, document.key = row.document) :
    ∃ document ∈ after.store.documents, document.key = row.document := by
  obtain ⟨document, hthere, hkey⟩ := h
  rcases hstep.documents with hsame | ⟨placed, -, -, hinsert⟩ | ⟨purged, hruns, hsame⟩
  · exact ⟨document, hsame ▸ hthere, hkey⟩
  · exact ⟨document, (Table.mem_insert? hinsert).mpr (Or.inl hthere), hkey⟩
  · rw [hsame]
    refine ⟨document, Table.mem_delete.mpr ⟨hthere, decide_eq_false ?_⟩, hkey⟩
    rw [hkey]
    exact hruns row hrow

/-- A purge that is over leaves nothing of its document. -/
theorem PaperStep.gone {after : System} (h : Burials system)
    (hissued : system.issued ⊆ after.issued) (hstep : PaperStep system call after) :
    (∀ document, (document, true) ∈ after.purges → Gone after document) ∧
      ∀ attempt ∈ after.store.attempts, attempt.completed = true → Gone after attempt.key := by
  have hgone : ∀ document, Gone system document → Gone after document :=
    fun document hgone => hgone.step hissued hstep
  have hpurged : PurgesKept system after →
      ∀ document, (document, true) ∈ after.purges → Gone after document :=
    fun hpurges document hmem => hgone document (h.purges document (hpurges document hmem))
  have hkept : ∀ {papers : Papers}, after.store.papers = papers →
      papers.attempts = system.store.attempts →
      ∀ attempt ∈ after.store.attempts, attempt.completed = true → Gone after attempt.key := by
    intro papers hpapers hattempts attempt hmem hcompleted
    have hsame : after.store.attempts = system.store.attempts :=
      (congrArg Papers.attempts hpapers).trans hattempts
    exact hgone _ (h.attempts attempt (hsame ▸ hmem) hcompleted)
  cases hstep with
  | @purge document _ hdeleted hpapers hruns hpurges =>
    refine ⟨fun other hmem => ?_, hkept hpapers rfl⟩
    rw [hpurges] at hmem
    rcases List.mem_append.mp hmem with hold | hlast
    · exact hgone other (h.purges other hold)
    · rw [List.mem_singleton, Prod.mk.injEq] at hlast
      obtain ⟨rfl, -⟩ := hlast
      obtain ⟨tombstone, htombstone, hkey⟩ := isDeleted_iff.mp hdeleted
      refine ⟨hissued (hkey ▸ h.tombstones tombstone htombstone), fun row hrow => ?_⟩
      have hsame := congrArg Papers.documents hpapers
      change after.store.documents = _ at hsame
      rw [hsame] at hrow
      exact of_decide_eq_false (Table.mem_delete.mp hrow).2
  | record hmem hpapers hpurges =>
    refine ⟨hpurged hpurges, fun attempt hattempt hcompleted => ?_⟩
    have hsame := congrArg Papers.attempts hpapers
    change after.store.attempts = _ at hsame
    rw [hsame] at hattempt
    rcases Table.mem_put.mp hattempt with rfl | ⟨hold, -⟩
    · refine hgone _ (h.purges _ ?_)
      dsimp only at hcompleted
      rw [hcompleted] at hmem
      exact hmem
    · exact hgone _ (h.attempts attempt hold hcompleted)
  | forget _ hpapers hpurges =>
    refine ⟨hpurged hpurges, fun attempt hattempt hcompleted => ?_⟩
    have hsame := congrArg Papers.attempts hpapers
    change after.store.attempts = _ at hsame
    rw [hsame] at hattempt
    exact hgone _ (h.attempts attempt (Table.mem_delete.mp hattempt).1 hcompleted)
  | kept hpapers hpurges | upload _ _ _ _ hpapers hpurges | copy _ _ hpapers hpurges
  | progress _ hpapers hpurges | publish _ _ hpapers hpurges | review _ hpapers hpurges
  | bury _ _ _ hpapers hpurges | expire _ _ hpapers hpurges =>
    exact ⟨hpurged hpurges, hkept hpapers rfl⟩

theorem Burials.perform {after : System} (hcustody : Custody deployment system)
    (h : Burials system) (hperform : Hosted.perform deployment system call = .ok (reply, after)) :
    Burials after := by
  have hstep := perform_step hcustody.ids.costs hperform
  have hpapers : PaperStep system call after := perform_papers hperform
  obtain ⟨hdocuments, htombstones⟩ := hpapers.issued h hstep.issued
  obtain ⟨hpurges, hattempts⟩ := hpapers.gone h hstep.issued
  refine ⟨hdocuments, htombstones, fun row hrow => hpapers.document hrow ?_, hpurges, hattempts⟩
  rcases perform_placed hcustody hperform hrow with hissued | hplaced
  · obtain ⟨old, hold, -, hdocument, -⟩ := hstep.runsFrom hcustody hrow hissued
    rw [← hdocument]
    exact h.runs old hold
  · exact hplaced

def Halted (store : HostedStore) (runId : String) : Prop :=
  ∀ row ∈ store.runs, row.runId = runId → ¬row.Active ∨ isDeleted store row.document = true

theorem PaperStep.deleted {after : System} (h : Burials system)
    (hstep : PaperStep system call after) {document : DocumentKey}
    (hthere : ∃ row ∈ system.store.documents, row.key = document)
    (hdeleted : isDeleted system.store document = true) :
    isDeleted after.store document = true := by
  obtain ⟨tombstone, htombstone, hkey⟩ := isDeleted_iff.mp hdeleted
  refine isDeleted_iff.mpr ⟨tombstone, ?_, hkey⟩
  have htables : ∀ {papers : Papers}, after.store.papers = papers →
      tombstone ∈ papers.tombstones → tombstone ∈ after.store.tombstones := by
    rintro papers rfl hmem
    exact hmem
  cases hstep with
  | bury _ _ hinsert hpapers =>
    exact htables hpapers ((Table.mem_insert? hinsert).mpr (Or.inl htombstone))
  | expire hold _ hpapers => exact htables hpapers (hold tombstone htombstone)
  | @forget _ _ forgettable _ hforgettable hpapers =>
    refine htables hpapers (Table.mem_delete.mpr ⟨htombstone, ?_⟩)
    cases htest : forgettable tombstone with
    | false => rfl
    | true =>
      -- Its purge was completed, so the document has no row.
      have hcompleted := hforgettable tombstone htest
      rw [Option.any_eq_true] at hcompleted
      obtain ⟨attempt, hattempt, hdone⟩ := hcompleted
      obtain ⟨hmem, hsameKey⟩ := Table.find_eq_some_iff.mp hattempt
      obtain ⟨row, hrow, hrowKey⟩ := hthere
      exact absurd (hrowKey.trans (hkey.symm.trans hsameKey.symm))
        ((h.attempts attempt hmem hdone).rows row hrow)
  | kept hpapers | upload _ _ _ _ hpapers | copy _ _ hpapers | progress _ hpapers
  | publish _ _ hpapers | review _ hpapers | purge _ hpapers | record _ hpapers =>
    exact htables hpapers htombstone

theorem Halted.perform {after : System} {runId : String} (hcustody : Custody deployment system)
    (hburials : Burials system) (hissued : runId ∈ system.issued) (h : Halted system.store runId)
    (hperform : Hosted.perform deployment system call = .ok (reply, after)) :
    Halted after.store runId := by
  intro row hrow hrun
  have hstep := perform_step hcustody.ids.costs hperform
  obtain ⟨old, hold, hkey, hdocument, hactive⟩ := hstep.runsFrom hcustody hrow (hrun ▸ hissued)
  rcases h old hold (hkey.trans hrun) with hidle | hdeleted
  · exact Or.inl fun hnow => hidle (hactive hnow)
  · right
    rw [← hdocument]
    exact (perform_papers hperform).deleted hburials (hburials.runs old hold) hdeleted

theorem Halted.not_fenced {runId : String} (h : Halted store runId) {job : Job} {now : ℚ}
    (hjob : job.runId = runId) : ¬Fenced store job now row := by
  intro hfenced
  obtain ⟨hrow, hrun⟩ := hfenced.mem
  rcases h row hrow (hrun.trans hjob) with hidle | hdeleted
  · exact hidle (Or.inr hfenced.running)
  · rw [hfenced.visible] at hdeleted
    cases hdeleted

end ProofOps.Api.Hosted
