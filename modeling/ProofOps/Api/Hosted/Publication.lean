import ProofOps.Api.Hosted.Dispatch

/-!
# Published analyses

A publication stays as it was made while its document stays: no call but a
cancellation rewrites a terminal run, and only a purge takes its papers away.  The
cancellation does not ask whether the run is terminal, so a cancelled publication is
no longer shown.
-/

namespace ProofOps.Api.Hosted

open Foundation Foundation.Checked

def ShowsPublication (store : HostedStore) (job : Job) (status : RunStatus) (sha256 : String) :
    Prop :=
  (∃ row, store.runs.find job.runId = some row ∧ row.status = status) ∧
    store.snapshots.find (job.runId, 1) =
      some { runId := job.runId, revision := 1, sha256 := sha256 } ∧
    ∃ shown, viewRun store job.tenantId job.runId = .ok shown ∧ shown.status = status ∧
      shown.resultUrl = some ("/v1/runs/" ++ job.runId ++ "/result")

def Call.Removes (system : System) (document : DocumentKey) (call : Call) : Prop :=
  match call with
  | .deleteDocument auth documentId _ _ => (auth.tenantId, documentId) = document
  | .maintain now => ∃ row ∈ system.store.documents, row.key = document ∧ row.expires ≤ now
  | _ => False

/-- The call cancels the run. -/
def Call.Cancels (runId : String) (call : Call) : Prop :=
  match call with
  | .cancel _ other => other = runId
  | _ => False

def Accepted (deployment : Deployment) (system : System) (call : Call) : Prop :=
  ∃ reply after, perform deployment system call = .ok (reply, after)

structure Publication (store : HostedStore) (run : RunRow) (sha256 : String) : Prop where
  row : ∃ row ∈ store.runs, row.runId = run.runId ∧ row.status = run.status ∧
    row.document = run.document
  published : run.status.Published
  snapshot : ({ runId := run.runId, revision := 1, sha256 := sha256 } : SnapshotRow) ∈
    store.snapshots
  ready : ∃ progress ∈ store.progress, progress.runId = run.runId ∧ progress.resultReady = true
  document : ∃ document ∈ store.documents, document.key = run.document
  visible : isDeleted store run.document = false

variable {deployment : Deployment} {fresh : String → Prop} {ends : RunRow → Prop}
  {prices : CallKey → Prop} {store after : HostedStore} {run : RunRow} {sha256 : String}

variable {job : Job}

theorem Publication.shows (h : Publication store run sha256)
    (hrun : job.runId = run.runId) (htenant : job.tenantId = run.tenantId) :
    ShowsPublication store job run.status sha256 := by
  obtain ⟨⟨row, hrow, hkey, hstatus, hdocument⟩, hpublished, hsnapshot, hready, hthere, hvisible⟩ := h
  obtain ⟨progress, hprogress, hprogressRun, hresult⟩ := hready
  obtain ⟨document, hmem, hdocumentKey⟩ := hthere
  rw [ShowsPublication, hrun, htenant]
  have hfind : store.runs.find run.runId = some row := Table.find_eq_some_iff.mpr ⟨hrow, hkey⟩
  have hfindProgress : store.progress.find row.runId = some progress :=
    Table.find_eq_some_iff.mpr ⟨hprogress, hprogressRun.trans hkey.symm⟩
  have hgetDocument : getDocument store row.document = .ok document := by
    have hfindDocument : store.documents.find row.document = some document :=
      Table.find_eq_some_iff.mpr ⟨hmem, hdocumentKey.trans hdocument.symm⟩
    rw [getDocument, hfindDocument, hdocument]
    simp [hvisible]
  have hisReady : isReady store row = true := by
    unfold isReady
    rw [hfindProgress, Option.any_some, hresult, hstatus, Bool.true_and, decide_eq_true_eq]
    exact hpublished
  refine ⟨⟨row, hfind, hstatus⟩, Table.find_eq_some_iff.mpr ⟨hsnapshot, rfl⟩, projectRun store row,
    ?_, hstatus, ?_⟩
  · have hsame : row.tenantId = run.tenantId := congrArg Prod.fst hdocument
    rw [viewRun, getRun, hfind]
    simp [hsame, hgetDocument, Except.map]
  · simp only [projectRun]
    rw [if_pos hisReady, hkey]

theorem Move.keepsTerminal (hmove : Move deployment fresh ends prices store after)
    (hterminal : run.status.Terminal)
    (hends : ∀ row, row.runId = run.runId → row.document = run.document → ¬ends row)
    (h : ∃ row ∈ store.runs, row.runId = run.runId ∧ row.status = run.status ∧
      row.document = run.document) :
    ∃ row ∈ after.runs, row.runId = run.runId ∧ row.status = run.status ∧
      row.document = run.document := by
  obtain ⟨row, hrow, hkey, hstatus, hdocument⟩ := h
  cases hmove with
  | elsewhere hruns => exact ⟨row, hruns ▸ hrow, hkey, hstatus, hdocument⟩
  | admission hruns | copy hruns =>
    exact ⟨row, (Table.mem_insert? hruns).mpr (Or.inl hrow), hkey, hstatus, hdocument⟩
  | @start started now hstarted hqueued =>
    refine ⟨row, (@Table.mem_modify _ _ _ _ _ (RunRow.started_key now) _ _).mpr
      ⟨row, hrow, if_neg fun htest => ?_⟩, hkey, hstatus, hdocument⟩
    have hsame := run_eq hrow hstarted (isRun_iff.mp htest)
    rw [← hstatus, hsame, hqueued] at hterminal
    exact hterminal
  | @rewrite test change keeps hrewrites =>
    cases htest : test row with
    | false =>
      refine ⟨row, (@Table.mem_modify _ _ _ _ _ keeps _ _).mpr ⟨row, hrow, ?_⟩, hkey, hstatus,
        hdocument⟩
      rw [if_neg (by simp [htest])]
    | true =>
      have hrewrite := hrewrites row hrow htest
      refine ⟨change row, (@Table.mem_modify _ _ _ _ _ keeps _ _).mpr ⟨row, hrow, if_pos htest⟩,
        (keeps row).trans hkey, ?_, hrewrite.document.trans hdocument⟩
      rcases hrewrite.published (hstatus ▸ hterminal) with hsame | hended
      · exact hsame.trans hstatus
      · exact absurd hended (hends row hkey hdocument)
  | @drop test hdropped =>
    refine ⟨row, Table.mem_delete.mpr ⟨hrow, ?_⟩, hkey, hstatus, hdocument⟩
    cases htest : test row with
    | false => rfl
    | true => exact absurd (hdropped row hrow htest) (hends row hkey hdocument)
  | settle =>
    refine ⟨row, ?_, hkey, hstatus, hdocument⟩
    rw [settleEnvelope_runs]
    exact hrow
  | _ => exact ⟨row, hrow, hkey, hstatus, hdocument⟩

variable {after system : System} {reply : Reply} {document : DocumentKey}

theorem purge_deleted {completed : Bool}
    (h : perform deployment system (.purge document completed) = .ok (reply, after)) :
    isDeleted system.store document = true := by
  obtain ⟨purged, hpurged, -⟩ := bind_ok h
  unfold purge at hpurged
  split_ifs at hpurged with hdeleted
  simpa using hdeleted

theorem Publication.not_fenced (h : Publication store run sha256) {now : ℚ}
    {row : RunRow} (hfenced : Fenced store job now row) : job.runId ≠ run.runId := by
  intro hsame
  obtain ⟨published, hmem, hkey, hstatus, -⟩ := h.row
  have hrunning := hfenced.running_of_run hmem (hkey.trans hsame.symm)
  have hterminal := h.published.terminal
  rw [← hstatus, hrunning] at hterminal
  exact hterminal

structure PublishedPapers (papers : Papers) (run : RunRow) (sha256 : String) : Prop where
  snapshot : ({ runId := run.runId, revision := 1, sha256 := sha256 } : SnapshotRow) ∈
    papers.snapshots
  ready : ∃ progress ∈ papers.progress, progress.runId = run.runId ∧ progress.resultReady = true
  document : ∃ document ∈ papers.documents, document.key = run.document
  visible : ∀ row ∈ papers.tombstones, row.key ≠ run.document

theorem not_isDeleted_iff :
    isDeleted store document = false ↔ ∀ row ∈ store.tombstones, row.key ≠ document := by
  rw [Bool.eq_false_iff, ne_eq, isDeleted_iff]
  simp

theorem Publication.papers (h : Publication store run sha256) :
    PublishedPapers store.papers run sha256 :=
  ⟨h.snapshot, h.ready, h.document, not_isDeleted_iff.mp h.visible⟩

theorem PublishedPapers.putProgress {papers : Papers} (h : PublishedPapers papers run sha256)
    {row : ProgressRow} (hother : row.runId ≠ run.runId) :
    PublishedPapers { papers with progress := papers.progress.put row } run sha256 := by
  obtain ⟨progress, hprogress, hkey, hready⟩ := h.ready
  refine ⟨h.snapshot, ⟨progress, Table.mem_put.mpr (Or.inr ⟨hprogress, fun hsame => ?_⟩), hkey,
    hready⟩, h.document, h.visible⟩
  exact hother (hsame.symm.trans hkey)

theorem PublishedPapers.insertSnapshot {papers : Papers} (h : PublishedPapers papers run sha256)
    {row : SnapshotRow} {snapshots : Table SnapshotRow SnapshotRow.key}
    (hinsert : papers.snapshots.insert? row = some snapshots) :
    PublishedPapers { papers with snapshots := snapshots } run sha256 :=
  ⟨(Table.mem_insert? hinsert).mpr (Or.inl h.snapshot), h.ready, h.document, h.visible⟩

variable {call : Call}

theorem PaperStep.keepsPublication
    (hstep : PaperStep system call after) (h : Publication system.store run sha256)
    (hstays : ¬call.Removes system run.document) :
    PublishedPapers after.store.papers run sha256 := by
  have hpapers := h.papers
  cases hstep with
  | kept hsame => exact hsame ▸ hpapers
  | upload _ _ _ hinsert hsame =>
    rw [hsame]
    obtain ⟨document, hmem, hkey⟩ := hpapers.document
    exact ⟨hpapers.snapshot, hpapers.ready,
      ⟨document, (Table.mem_insert? hinsert).mpr (Or.inl hmem), hkey⟩, hpapers.visible⟩
  | copy hsnapshots hprogress hsame =>
    rw [hsame]
    obtain ⟨progress, hmem, hkey, hready⟩ := hpapers.ready
    exact ⟨(Table.mem_insert? hsnapshots).mpr (Or.inl hpapers.snapshot),
      ⟨progress, (Table.mem_insert? hprogress).mpr (Or.inl hmem), hkey, hready⟩,
      hpapers.document, hpapers.visible⟩
  | progress hrow hsame =>
    rw [hsame]
    exact hpapers.putProgress (h.not_fenced hrow)
  | publish hrow hsnapshots hsame =>
    rw [hsame]
    exact (hpapers.insertSnapshot hsnapshots).putProgress (h.not_fenced hrow)
  | review hsnapshots hsame =>
    rw [hsame]
    exact hpapers.insertSnapshot hsnapshots
  | bury _ hkey hinsert hsame =>
    rw [hsame]
    refine ⟨hpapers.snapshot, hpapers.ready, hpapers.document, fun row hrow => ?_⟩
    rcases (Table.mem_insert? hinsert).mp hrow with hold | rfl
    · exact hpapers.visible row hold
    · exact fun hdocument => hstays (hkey.symm.trans hdocument)
  | expire _ hnew hsame =>
    rw [hsame]
    refine ⟨hpapers.snapshot, hpapers.ready, hpapers.document, fun row hrow hdocument => ?_⟩
    rcases hnew row hrow with hold | ⟨expired, hmem, hkey, hover⟩
    · exact hpapers.visible row hold hdocument
    · exact hstays ⟨expired, hmem, hkey.trans hdocument, hover⟩
  | @purge document _ hdeleted hsame =>
    -- The purged document is deleted, so it is another one.
    have hother : document ≠ run.document := by
      rintro rfl
      rw [h.visible] at hdeleted
      cases hdeleted
    have hspared : (runsOf system.store document).contains run.runId = false := by
      rw [Bool.eq_false_iff, ne_eq, List.contains_iff_mem]
      intro hmem
      obtain ⟨row, hrow, hkey⟩ := List.mem_map.mp hmem
      obtain ⟨hthere, htest⟩ := List.mem_filter.mp hrow
      obtain ⟨published, hpublished, hrun, -, hdocument⟩ := h.row
      have heq : row = published := run_eq hthere hpublished (hkey.trans hrun.symm)
      rw [heq, isRunOf_iff] at htest
      exact hother (htest.symm.trans hdocument)
    rw [hsame]
    obtain ⟨progress, hprogress, hkey, hready⟩ := hpapers.ready
    obtain ⟨kept, hkept, hkeptKey⟩ := hpapers.document
    refine ⟨Table.mem_delete.mpr ⟨hpapers.snapshot, hspared⟩,
      ⟨progress, Table.mem_delete.mpr ⟨hprogress, ?_⟩, hkey, hready⟩,
      ⟨kept, Table.mem_delete.mpr ⟨hkept, decide_eq_false ?_⟩, hkeptKey⟩, hpapers.visible⟩
    · rw [hkey]
      exact hspared
    · rw [hkeptKey]
      exact fun hdocument => hother hdocument.symm
  | record _ hsame =>
    rw [hsame]
    exact ⟨hpapers.snapshot, hpapers.ready, hpapers.document, hpapers.visible⟩
  | forget _ hsame =>
    rw [hsame]
    exact ⟨hpapers.snapshot, hpapers.ready, hpapers.document,
      fun row hrow => hpapers.visible row (Table.mem_delete.mp hrow).1⟩

theorem Publication.perform
    (hcustody : Custody deployment system) (h : Publication system.store run sha256)
    (hperform : Hosted.perform deployment system call = .ok (reply, after))
    (hstays : ¬call.Removes system run.document) (hspares : ¬call.Cancels run.runId) :
    Publication after.store run sha256 := by
  have hstep := perform_step hcustody.ids.costs hperform
  have hends : ∀ row : RunRow, row.runId = run.runId → row.document = run.document →
      ¬call.ends row := by
    intro row hrun hdocument hends
    cases call with
    | cancel auth runId => exact hspares (hends.symm.trans hrun)
    | deleteDocument auth documentId key now => exact hstays (hends.symm.trans hdocument)
    | purge document completed =>
      have hdeleted := purge_deleted hperform
      rw [← hends, hdocument, h.visible] at hdeleted
      cases hdeleted
    | _ => exact hends
  have hrow := (hstep.moves hcustody).invariant
    (fun hmove hbefore => hmove.keepsTerminal h.published.terminal hends hbefore) h.row
  have hpapers := (perform_papers hperform).keepsPublication h hstays
  exact ⟨hrow, h.published, hpapers.snapshot, hpapers.ready, hpapers.document,
    not_isDeleted_iff.mpr hpapers.visible⟩

/-! ### From the publication on -/

def publishedRun (row : RunRow) (status : RunStatus) (errorCode : Option String) : RunRow :=
  row.finished status errorCode

/-- An accepted publication is there after its call. -/
theorem publishAnalysis_publication {status : RunStatus}
    {errorCode : Option String} {now : ℚ} (hburials : Burials system)
    (h : perform deployment system (.publishAnalysis job status errorCode sha256 now) =
      .ok (reply, after)) :
    ∃ row, Fenced system.store job now row ∧ row.tenantId = job.tenantId ∧
      Publication after.store (publishedRun row status errorCode) sha256 := by
  obtain ⟨made, hmade, rfl⟩ := commit_ok h
  obtain ⟨row, published, hfenced, hstatus, hrows, hafter⟩ := publishAnalysis_ok hmade
  obtain ⟨hrest, hsnapshots, hprogress⟩ := publishRows_ok hrows
  obtain ⟨hmem, hrun⟩ := hfenced.mem
  have htenant : row.tenantId = job.tenantId := by
    unfold publishAnalysis at hmade
    split_ifs at hmade
    obtain ⟨found, hfound, -⟩ := bind_ok hmade
    obtain ⟨looked, hlooked, hfound⟩ := bind_ok hfound
    have hsame : row = looked :=
      Option.some.inj (hfenced.found.symm.trans (getRun_ok hlooked).1)
    rw [hsame]
    exact (getRun_ok hlooked).2.1
  have hpapersAfter : made.papers = published.papers := by
    rw [hafter, settleEnvelope_papers]
    rfl
  have hruns : made.runs = published.runs.modify (isRun job.runId)
      (RunRow.finished status errorCode) (RunRow.finished_key status errorCode) := by
    rw [hafter, settleEnvelope_runs]
    rfl
  have hthere : row ∈ published.runs := by
    rw [hrest]
    exact hmem
  refine ⟨row, hfenced, htenant, ?_, hstatus, ?_, ?_, ?_, ?_⟩
  · refine ⟨publishedRun row status errorCode, ?_, rfl, rfl, rfl⟩
    rw [hruns]
    exact Table.mem_modify.mpr ⟨row, hthere, if_pos (isRun_iff.mpr hrun)⟩
  · have hsame : made.snapshots = published.snapshots := congrArg Papers.snapshots hpapersAfter
    rw [hsame, show (publishedRun row status errorCode).runId = job.runId from hrun]
    exact (Table.mem_insert? hsnapshots).mpr (Or.inr rfl)
  · have hsame : made.progress = published.progress := congrArg Papers.progress hpapersAfter
    rw [hsame, hprogress]
    exact ⟨_, Table.mem_put.mpr (Or.inl rfl), hrun.symm, rfl⟩
  · have hsame : made.documents = published.documents := congrArg Papers.documents hpapersAfter
    rw [hsame, hrest]
    exact hburials.runs row hmem
  · have hsame : made.tombstones = published.tombstones := congrArg Papers.tombstones hpapersAfter
    have hbefore : published.tombstones = system.store.tombstones := by rw [hrest]
    have hdeleted : isDeleted made row.document = isDeleted system.store row.document := by
      rw [isDeleted, isDeleted, hsame, hbefore]
    exact hdeleted.trans hfenced.visible

theorem cancel_unpublishes {auth : Auth} {runId : String}
    {row : RunRow} (h : perform deployment system (.cancel auth runId) = .ok (reply, after))
    (hrow : after.store.runs.find runId = some row) : row.status = .cancelled := by
  obtain ⟨made, hmade, rfl⟩ := commit_ok h
  obtain ⟨-, rfl⟩ := cancel_ok hmade
  have hmem := (Table.find_eq_some_iff.mp hrow)
  rw [settleEnvelope_runs] at hmem
  rcases mem_modify_run RunRow.cancelled_key hmem.1 with ⟨old, -, -, rfl⟩ | ⟨-, hne⟩
  · rfl
  · exact absurd hmem.2 hne

def KeepsDocument (deployment : Deployment) (calls : List Call) (document : DocumentKey)
    (later : List Call) : Prop :=
  ∀ front call back, later = front ++ call :: back →
    Accepted deployment (reached deployment (calls ++ front)) call →
      ¬call.Removes (reached deployment (calls ++ front)) document

def SparesRun (deployment : Deployment) (calls : List Call) (runId : String) (later : List Call) :
    Prop :=
  ∀ front call back, later = front ++ call :: back →
    Accepted deployment (reached deployment (calls ++ front)) call → ¬call.Cancels runId

def ShownThroughout (deployment : Deployment) (calls : List Call) (job : Job) (status : RunStatus)
    (sha256 : String) (later : List Call) : Prop :=
  ∀ front back, later = front ++ back →
    ShowsPublication (reached deployment (calls ++ front)).store job status sha256

theorem reached_snoc (deployment : Deployment) (calls : List Call) (call : Call) :
    reached deployment (calls ++ [call]) = next deployment (reached deployment calls) call :=
  Machine.after_append _ _ _

theorem Publication.later {calls later : List Call}
    (h : Publication (reached deployment calls).store run sha256)
    (hdocument : KeepsDocument deployment calls run.document later)
    (hspares : SparesRun deployment calls run.runId later) :
    ∀ front back, later = front ++ back →
      Publication (reached deployment (calls ++ front)).store run sha256 := by
  intro front
  induction front using List.reverseRecOn with
  | nil =>
    intro back _
    rw [List.append_nil]
    exact h
  | append_singleton front call ih =>
    intro back hlater
    have hcut : later = front ++ call :: back := by rw [hlater]; simp
    have hcurrent := ih (call :: back) hcut
    rw [← List.append_assoc, reached_snoc]
    cases hmade : Hosted.perform deployment (reached deployment (calls ++ front)) call with
    | error error =>
      rw [next_error hmade]
      exact hcurrent
    | ok made =>
      obtain ⟨reply, after⟩ := made
      rw [next_ok hmade]
      have haccepted : Accepted deployment (reached deployment (calls ++ front)) call :=
        ⟨reply, after, hmade⟩
      exact hcurrent.perform (custody_reached deployment _) hmade
        (hdocument front call back hcut haccepted) (hspares front call back hcut haccepted)

theorem not_shows_of_cancel {calls : List Call} {status : RunStatus}
    (hstatus : status.Published) (haccepted : Accepted deployment (reached deployment calls) call)
    (hcancels : call.Cancels job.runId) :
    ¬ShowsPublication (reached deployment (calls ++ [call])).store job status sha256 := by
  rintro ⟨⟨row, hrow, rfl⟩, -⟩
  obtain ⟨reply, made, hmade⟩ := haccepted
  rw [reached_snoc, next_ok hmade] at hrow
  cases call with
  | cancel auth runId =>
    have hrun : runId = job.runId := hcancels
    subst hrun
    rw [cancel_unpublishes hmade hrow] at hstatus
    rcases hstatus with hwrong | hwrong <;> cases hwrong
  | _ => exact hcancels

/-- A published analysis stays published, in every run of calls that keeps its
document, exactly when no cancellation of the run is accepted. -/
theorem publication_kept_iff (deployment : Deployment) (calls later : List Call) (job : Job)
    (status : RunStatus) (errorCode : Option String) (sha256 : String) (now : ℚ) (row : RunRow)
    (hrow : (reached deployment calls).store.runs.find job.runId = some row)
    (hpublished : Accepted deployment (reached deployment calls)
      (.publishAnalysis job status errorCode sha256 now))
    (hdocument : KeepsDocument deployment
      (calls ++ [.publishAnalysis job status errorCode sha256 now]) row.document later) :
    ShownThroughout deployment (calls ++ [.publishAnalysis job status errorCode sha256 now]) job
        status sha256 later ↔
      SparesRun deployment (calls ++ [.publishAnalysis job status errorCode sha256 now]) job.runId
        later := by
  obtain ⟨reply, published, hperform⟩ := hpublished
  obtain ⟨run, hfenced, htenant, hpublication⟩ :=
    publishAnalysis_publication (orderly_reached deployment calls).burials hperform
  have hsame : row = run := Option.some.inj (hrow.symm.trans hfenced.found)
  subst hsame
  constructor
  · intro hshown front call back hlater haccepted hcancels
    have hthere := hshown (front ++ [call]) back (by rw [hlater]; simp)
    rw [← List.append_assoc] at hthere
    exact not_shows_of_cancel hpublication.published haccepted hcancels hthere
  · intro hspares front back hlater
    have hbegin : Publication (reached deployment
        (calls ++ [.publishAnalysis job status errorCode sha256 now])).store
          (publishedRun row status errorCode) sha256 := by
      rw [reached_snoc, next_ok hperform]
      exact hpublication
    have hrun : job.runId = (publishedRun row status errorCode).runId := hfenced.mem.2.symm
    rw [hrun] at hspares
    exact (hbegin.later hdocument hspares front back hlater).shows hrun htenant.symm

def samplePublish : Call :=
  .publishAnalysis sampleJob .completed none "result" 2

theorem samplePublish_accepted :
    Accepted sampleDeployment (reached sampleDeployment sampleCalls) samplePublish := by
  have hok : (perform sampleDeployment (reached sampleDeployment sampleCalls)
      samplePublish).isOk = true := by decide +kernel
  cases hperform : perform sampleDeployment (reached sampleDeployment sampleCalls) samplePublish with
  | error error =>
    rw [hperform] at hok
    cases hok
  | ok made => exact ⟨made.1, made.2, hperform⟩

theorem publication_kept_claim :
    ShownThroughout sampleDeployment (sampleCalls ++ [samplePublish]) sampleJob .completed "result"
      [.claim 3] := by
  have hrow : ((reached sampleDeployment sampleCalls).store.runs.find sampleJob.runId).isSome =
      true := by decide +kernel
  obtain ⟨row, hrow⟩ := Option.isSome_iff_exists.mp hrow
  refine (publication_kept_iff sampleDeployment sampleCalls [.claim 3] sampleJob .completed none
    "result" 2 row hrow samplePublish_accepted ?_).mpr ?_
  · intro front call back hlater _ hremoves
    cases front with
    | nil =>
      obtain ⟨rfl, -⟩ := List.cons_eq_cons.mp hlater
      exact hremoves
    | cons first rest => simp at hlater
  · intro front call back hlater _ hcancels
    cases front with
    | nil =>
      obtain ⟨rfl, -⟩ := List.cons_eq_cons.mp hlater
      exact hcancels
    | cons first rest => simp at hlater

theorem publication_cancelled :
    Accepted sampleDeployment (reached sampleDeployment sampleCalls) samplePublish ∧
      KeepsDocument sampleDeployment (sampleCalls ++ [samplePublish]) ("tenant", "document")
        [.cancel sampleAuth "run"] ∧
      ¬ShownThroughout sampleDeployment (sampleCalls ++ [samplePublish]) sampleJob .completed
        "result" [.cancel sampleAuth "run"] := by
  refine ⟨samplePublish_accepted, ?_, fun hshown => ?_⟩
  · intro front call back hlater _ hremoves
    cases front with
    | nil =>
      obtain ⟨rfl, -⟩ := List.cons_eq_cons.mp hlater
      exact hremoves
    | cons first rest => simp at hlater
  · obtain ⟨⟨row, hrow, hstatus⟩, -⟩ := hshown [.cancel sampleAuth "run"] [] rfl
    have hcancelled : ((reached sampleDeployment (sampleCalls ++ [samplePublish] ++
        [.cancel sampleAuth "run"])).store.runs.find sampleJob.runId).map RunRow.status =
          some .cancelled := by decide +kernel
    rw [hrow, Option.map_some, hstatus] at hcancelled
    cases hcancelled

end ProofOps.Api.Hosted
