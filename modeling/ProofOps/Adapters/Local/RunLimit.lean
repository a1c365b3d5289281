import ProofOps.Adapters.Local.JobFencing
import ProofOps.Foundation.Totals

/-!
# The limit on active runs

A run is created, and retried, only while the tenant has fewer than two active
runs.  A claim and a retried failure set their run running without counting: a run
that is already active stays one run, but a failed or partial run whose jobs are
still open becomes active again.  Apart from these two, every transaction keeps
the limit, and it holds along every run in which they do not overrun it.
-/

namespace ProofOps.Adapters.Local

open Foundation Foundation.Checked Foundation.PyText

section

variable {ρ : Type}

/-- `LocalSQLiteRunStore._replay`. -/
structure CreateRequest (ρ : Type) where
  (tenantId runId documentVersionId jobId shard inputHash : String)
  now : Int
  replay : ρ → Except Refusal (Option RunRecord)
  checkSnapshot : ρ → Except Refusal Unit
  record : ρ → Except Refusal ρ

def CreateRequest.parseJob (request : CreateRequest ρ) : JobMessage where
  tenantId := request.tenantId
  runId := request.runId
  documentVersionId := request.documentVersionId
  jobId := request.jobId
  stage := "parse"
  shard := request.shard
  inputHash := request.inputHash

variable (hooks : Hooks ρ) (store : JobStore ρ)

def writeRun (request : CreateRequest ρ) : Except Refusal (JobStore ρ) := do
  let created ← createRun store request.tenantId request.runId request.documentVersionId
  checkTime request.now 1
  let queued ← enqueue hooks created request.parseJob request.now
  let rest ← request.record queued.rest
  return { queued with rest := rest }

def create (request : CreateRequest ρ) : Except Refusal (JobStore ρ) := do
  match ← request.replay store.rest with
  | some _ => return store
  | none => do
    request.checkSnapshot store.rest
    if 2 ≤ activeRunCount hooks store request.tenantId then
      .error (.conflict "TENANT_RUN_LIMIT")
    else
      writeRun hooks store request

inductive RunCall (ρ : Type) where
  | create (request : CreateRequest ρ)
  | onJobs (call : Call ρ)

def nextRun : RunCall ρ → JobStore ρ
  | .create request =>
    match create hooks store request with
    | .ok store => store
    | .error _ => store
  | .onJobs call => next hooks store call

def RunStatus.Active (status : RunStatus) : Prop :=
  status = .queued ∨ status = .running

instance (status : RunStatus) : Decidable status.Active :=
  inferInstanceAs (Decidable (_ ∨ _))

def isActive (rest : ρ) (tenantId : String) (run : RunRecord) : Bool :=
  run.tenantId = tenantId ∧ (run.status = .queued ∨ run.status = .running) ∧
    ¬hooks.versionDeleted rest run.tenantId run.documentVersionId

theorem isActive_iff {hooks : Hooks ρ} {rest : ρ} {tenantId : String} {run : RunRecord} :
    isActive hooks rest tenantId run = true ↔
      run.tenantId = tenantId ∧ run.status.Active ∧
        hooks.versionDeleted rest run.tenantId run.documentVersionId = false := by
  simp [isActive, RunStatus.Active]

theorem activeRunCount_eq_count (tenantId : String) :
    activeRunCount hooks store tenantId =
      store.runs.count (isActive hooks store.rest tenantId) :=
  (Table.count_eq_length _ _).symm

def KeepsDeletions (before after : ρ) : Prop :=
  ∀ tenantId version, hooks.versionDeleted before tenantId version = true →
    hooks.versionDeleted after tenantId version = true

theorem KeepsDeletions.refl (rest : ρ) : KeepsDeletions hooks rest rest :=
  fun _ _ => id

/-! ### Steps that pass the limit by -/

def reopened : Call ρ → Option RunRecord
  | .claimJob message owner now leaseSeconds =>
    ((claimable hooks store message now).map Prod.snd).filter fun run =>
      (checkTime now leaseSeconds).isOk && nonBlank owner &&
        (claimGuard hooks store message run now).isOk && !decide run.status.Active
  | .failJob lease errorCode now wait jitter retryAfter =>
    ((owned hooks store lease (now + wait)).filter fun found =>
      (checkTime now 1).isOk && decide (0 ≤ jitter ∧ jitter ≤ 1) &&
        !retryAfter.any (fun seconds => seconds < 0) && found.1.retries errorCode &&
        !decide found.2.status.Active).map Prod.snd
  | _ => none

def uncounted : Call ρ → Option String
  | .createRun tenantId _ _ => some tenantId
  | call => (reopened hooks store call).map RunRecord.tenantId

def Call.Overruns (call : Call ρ) : Prop :=
  ((uncounted hooks store call).any fun tenantId => 2 ≤ activeRunCount hooks store tenantId) = true

instance (call : Call ρ) : Decidable (call.Overruns hooks store) :=
  inferInstanceAs (Decidable (_ = true))

/-- `create` never overruns. -/
def RunCall.Overruns : RunCall ρ → Prop
  | .create _ => False
  | .onJobs call => call.Overruns hooks store

instance : (call : RunCall ρ) → Decidable (call.Overruns hooks store)
  | .create _ => inferInstanceAs (Decidable False)
  | .onJobs call => inferInstanceAs (Decidable (call.Overruns hooks store))

def Call.KeepsDeletions : Call ρ → Prop
  | .commitJob _ _ _ _ _ publish => ∀ hook ∈ publish, ∀ rest events made,
      hook rest events = .ok made → Local.KeepsDeletions hooks rest made.1
  | .reviseRun _ _ change => ∀ rest, Local.KeepsDeletions hooks rest (change rest)
  | .elsewhere change => ∀ rest, Local.KeepsDeletions hooks rest (change rest)
  | _ => True

def RunCall.KeepsDeletions : RunCall ρ → Prop
  | .create request => ∀ rest made,
      request.record rest = .ok made → Local.KeepsDeletions hooks rest made
  | .onJobs call => call.KeepsDeletions hooks

def Hooks.AuditKeepsDeletions : Prop :=
  ∀ rest change made, hooks.audit rest change = .ok made → KeepsDeletions hooks rest made

end

variable {ρ : Type} {hooks : Hooks ρ} {store after : JobStore ρ}

/-! ### Counting -/

def Settles (hooks : Hooks ρ) (before after : JobStore ρ) : Prop :=
  ∀ tenantId, activeRunCount hooks after tenantId ≤ activeRunCount hooks before tenantId

def Starts (hooks : Hooks ρ) (before after : JobStore ρ) (tenantId : String) : Prop :=
  ∀ other, activeRunCount hooks after other ≤
    activeRunCount hooks before other + if other = tenantId then 1 else 0

def WithinLimit (hooks : Hooks ρ) (store : JobStore ρ) : Prop :=
  ∀ tenantId, activeRunCount hooks store tenantId ≤ 2

variable {middle : JobStore ρ}

theorem Settles.trans (h : Settles hooks store middle) (h' : Settles hooks middle after) :
    Settles hooks store after :=
  fun tenantId => (h' tenantId).trans (h tenantId)

variable {tenantId : String}

theorem Settles.starts (h : Settles hooks store middle) (h' : Starts hooks middle after tenantId) :
    Starts hooks store after tenantId :=
  fun other => (h' other).trans (Nat.add_le_add_right (h other) _)

theorem Starts.settles (h : Starts hooks store middle tenantId) (h' : Settles hooks middle after) :
    Starts hooks store after tenantId :=
  fun other => (h' other).trans (h other)

theorem WithinLimit.settles (h : WithinLimit hooks store) (hsettles : Settles hooks store after) :
    WithinLimit hooks after :=
  fun tenantId => (hsettles tenantId).trans (h tenantId)

theorem WithinLimit.starts (h : WithinLimit hooks store)
    (hroom : activeRunCount hooks store tenantId < 2) (hstarts : Starts hooks store after tenantId)
    : WithinLimit hooks after := by
  intro other
  have hcount := hstarts other
  split_ifs at hcount with hsame
  · subst hsame
    omega
  · have := h other
    omega

theorem Settles.of_runs_eq (hruns : after.runs = store.runs)
    (hkeeps : KeepsDeletions hooks store.rest after.rest) : Settles hooks store after := by
  intro tenantId
  rw [activeRunCount_eq_count, activeRunCount_eq_count, hruns]
  refine Table.total_le_total fun run _ => ?_
  unfold Table.share
  split_ifs with hafter hbefore
  · exact le_rfl
  · rw [isActive_iff] at hafter
    rw [isActive_iff, not_and, not_and] at hbefore
    have hdeleted := hkeeps _ _ (by simpa using hbefore hafter.1 hafter.2.1)
    rw [hafter.2.2] at hdeleted
    cases hdeleted
  · exact Nat.zero_le _
  · exact le_rfl

theorem Settles.of_eq (hruns : after.runs = store.runs) (hrest : after.rest = store.rest) :
    Settles hooks store after :=
  Settles.of_runs_eq hruns (hrest ▸ KeepsDeletions.refl hooks store.rest)

theorem Settles.refl (hooks : Hooks ρ) (store : JobStore ρ) : Settles hooks store store :=
  Settles.of_eq rfl rfl

section Put

variable {old row : RunRecord}

theorem activeRunCount_put (hold : store.runs.find row.key = some old) (tenantId : String) :
    activeRunCount hooks { store with runs := store.runs.put row } tenantId +
        Table.share (isActive hooks store.rest tenantId) (fun _ => 1) old =
      activeRunCount hooks store tenantId +
        Table.share (isActive hooks store.rest tenantId) (fun _ => 1) row := by
  obtain ⟨hmem, hkey⟩ := Table.find_eq_some_iff.mp hold
  rw [activeRunCount_eq_count, activeRunCount_eq_count]
  exact Table.total_put hmem hkey

theorem Settles.put (hold : store.runs.find row.key = some old)
    (hdocument : row.documentVersionId = old.documentVersionId)
    (hstatus : row.status.Active → old.status.Active) :
    Settles hooks store { store with runs := store.runs.put row } := by
  intro tenantId
  have htenant : old.tenantId = row.tenantId := congrArg Prod.fst (run_key hold)
  have hcount := @activeRunCount_put _ hooks _ _ _ hold tenantId
  have hshare : Table.share (isActive hooks store.rest tenantId) (fun _ => 1) row ≤
      Table.share (isActive hooks store.rest tenantId) (fun _ => 1) old := by
    unfold Table.share
    split_ifs with hrow holdActive
    · exact le_rfl
    · rw [isActive_iff] at hrow
      refine absurd (isActive_iff.mpr ⟨htenant.trans hrow.1, hstatus hrow.2.1, ?_⟩) holdActive
      rw [htenant, ← hdocument]
      exact hrow.2.2
    · exact Nat.zero_le _
    · exact le_rfl
  omega

theorem Starts.put (hold : store.runs.find row.key = some old) :
    Starts hooks store { store with runs := store.runs.put row } row.tenantId := by
  intro other
  have hcount := @activeRunCount_put _ hooks _ _ _ hold other
  have hshare : Table.share (isActive hooks store.rest other) (fun _ => 1) row ≤
      if other = row.tenantId then 1 else 0 := by
    unfold Table.share
    split_ifs with hrow hsame
    · exact le_rfl
    · exact absurd (isActive_iff.mp hrow).1.symm hsame
    · exact Nat.zero_le _
    · exact le_rfl
  omega

end Put

variable {run : RunRecord} {refresh : Bool} {bumped : RunRecord} {status : Option RunStatus}

theorem bumpRun_settles {old : RunRecord}
    (h : bumpRun hooks store run status refresh = .ok (bumped, after))
    (hold : store.runs.find run.key = some old)
    (hdocument : run.documentVersionId = old.documentVersionId)
    (hstatus : (status.getD run.status).Active → old.status.Active) :
    Settles hooks store after := by
  obtain ⟨rfl, hkey, hdocument', hstatus', -⟩ := bumpRun_ok h
  exact Settles.put (hkey ▸ hold) (hdocument'.trans hdocument) fun hactive => hstatus (hstatus' ▸ hactive)

theorem bumpRun_starts {old : RunRecord}
    (h : bumpRun hooks store run status refresh = .ok (bumped, after))
    (hold : store.runs.find run.key = some old) : Starts hooks store after run.tenantId := by
  obtain ⟨rfl, hkey, -⟩ := bumpRun_ok h
  have hstarts := @Starts.put _ hooks store _ _ (hkey ▸ hold)
  rwa [show bumped.tenantId = run.tenantId from congrArg Prod.fst hkey] at hstarts

theorem createRun_starts {tenantId runId documentVersionId : String}
    (h : createRun store tenantId runId documentVersionId = .ok after) :
    Starts hooks store after tenantId := by
  obtain ⟨runs, hruns, h⟩ := bind_ok h
  cases pure_ok h
  intro other
  rw [activeRunCount_eq_count, activeRunCount_eq_count]
  refine (Table.total_insert? (insertRow_ok hruns)).le.trans (Nat.add_le_add_left ?_ _)
  unfold Table.share
  split_ifs with hrow hsame
  · exact le_rfl
  · exact absurd (isActive_iff.mp hrow).1.symm hsame
  · exact Nat.zero_le _
  · exact le_rfl

/-! ### One lemma a method -/

variable {publish : Option (Publish ρ)}

theorem runPublish_settles
    (hkeeps : ∀ hook ∈ publish, ∀ rest events made, hook rest events = .ok made →
      KeepsDeletions hooks rest made.1)
    (h : runPublish store publish = .ok after) : Settles hooks store after := by
  cases publish with
  | none =>
    cases h
    exact Settles.refl hooks store
  | some hook =>
    obtain ⟨⟨rest, events⟩, hmade, h⟩ := bind_ok h
    cases pure_ok h
    exact Settles.of_runs_eq rfl (hkeeps hook rfl _ _ _ hmade)

variable {message : JobMessage}

theorem auditPublish_settles {before saved : RunRecord}
    {stageStatus : String} {publishes : Bool} (haudit : hooks.AuditKeepsDeletions)
    (h : auditPublish hooks store before saved message stageStatus publishes = .ok after) :
    Settles hooks store after := by
  unfold auditPublish at h
  split_ifs at h
  · obtain ⟨rest, hrest, h⟩ := bind_ok h
    cases pure_ok h
    exact Settles.of_runs_eq rfl (haudit _ _ _ hrest)
  · cases h
    exact Settles.refl hooks store

variable {answered : RunRecord} {request : ActionRequest}

theorem recordAction_settles {before : JobStore ρ} {action : Action}
    (haudit : hooks.AuditKeepsDeletions)
    (h : recordAction hooks before store action run answered request = .ok after) :
    Settles hooks store after := by
  obtain ⟨actions, -, h⟩ := bind_ok h
  obtain ⟨rest, hrest, h⟩ := bind_ok h
  cases pure_ok h
  exact Settles.of_runs_eq rfl (haudit _ _ _ hrest)

/-- A cancellation settles. -/
theorem cancelBranch_settles (hrun : store.runs.find run.key = some run)
    (h : cancelBranch hooks store run = .ok (answered, after)) : Settles hooks store after := by
  unfold cancelBranch at h
  split_ifs at h
  have hjobs : Settles hooks store
      { store with
        jobs := store.jobs.modify (isCancellable run.key) JobRecord.cancelled
          JobRecord.cancelled_key } := Settles.of_eq rfl rfl
  have hold : store.runs.find ({ run with cancellationRequested := true } : RunRecord).key =
      some run := hrun
  refine hjobs.trans (bumpRun_settles h hold rfl fun hactive => ?_)
  rcases hactive with hactive | hactive <;> cases hactive

variable {now : Int}

theorem retryBranch_starts {revision : Nat} (hrun : store.runs.find run.key = some run)
    (h : retryBranch hooks store run now revision = .ok (answered, after)) :
    activeRunCount hooks store run.tenantId < 2 ∧ Starts hooks store after run.tenantId := by
  unfold retryBranch at h
  split_ifs at h with _ hfull
  obtain ⟨signalled, hsignalled, h⟩ := bind_ok h
  have hevents := addRetryEvents_ok hsignalled
  have hold : signalled.runs.find run.key = some run := by
    rw [hevents.runs]
    exact hrun
  refine ⟨by omega, Settles.starts ?_ (bumpRun_starts h hold)⟩
  exact Settles.of_eq hevents.runs hevents.rest

theorem create_withinLimit {request : CreateRequest ρ} (h : WithinLimit hooks store)
    (hkeeps : (RunCall.create request).KeepsDeletions hooks)
    (hmade : create hooks store request = .ok after) : WithinLimit hooks after := by
  obtain ⟨replayed, -, hmade⟩ := bind_ok hmade
  cases replayed with
  | some stored =>
    cases pure_ok hmade
    exact h
  | none =>
    replace hmade := rest_ok hmade
    split_ifs at hmade with hfull
    obtain ⟨created, hcreated, hmade⟩ := bind_ok hmade
    replace hmade := rest_ok hmade
    obtain ⟨queued, hqueued, hmade⟩ := bind_ok hmade
    obtain ⟨rest, hrest, hmade⟩ := bind_ok hmade
    cases pure_ok hmade
    obtain ⟨-, hruns, hsame, -⟩ := enqueue_ok hqueued
    have hstarts := @createRun_starts _ hooks _ _ _ _ _ hcreated
    refine h.starts (by omega) ((hstarts.settles (Settles.of_eq hruns hsame)).settles ?_)
    exact Settles.of_runs_eq rfl (hkeeps _ _ hrest)

variable {leaseSeconds : Int}

theorem claimJob_counts {owner : String} {granted : Option JobLease}
    (h : claimJob hooks store message owner now leaseSeconds = .ok (granted, after)) :
    Settles hooks store after ∨
      ∃ run ∈ reopened hooks store (.claimJob message owner now leaseSeconds),
        Starts hooks store after run.tenantId := by
  rcases claimJob_inv h with ⟨-, rfl⟩ |
    ⟨job, run, guarded, leases, bumped, htime, howner, hclaimable, hguard, -, hbump⟩
  · exact Or.inl (Settles.refl hooks after)
  obtain ⟨-, -, hrun, -⟩ := claimable_some hclaimable
  obtain ⟨-, hruns, hrest, -⟩ := claimGuard_ok hguard
  have hwritten : Settles hooks store
      { guarded with
        jobs := guarded.jobs.put (job.claimed owner now leaseSeconds), leases := leases } :=
    Settles.of_eq hruns hrest
  have hfound : guarded.runs.find run.key = some run := by
    rw [hruns, run_key hrun]
    exact hrun
  by_cases hactive : run.status.Active
  · exact Or.inl (hwritten.trans (bumpRun_settles hbump hfound rfl fun _ => hactive))
  · refine Or.inr ⟨run, ?_, hwritten.starts (bumpRun_starts hbump hfound)⟩
    simp [reopened, hclaimable, htime, howner, hguard, hactive, Except.isOk, Except.toBool]

variable {lease : JobLease}

theorem failJob_counts {errorCode : String} {wait : Nat} {jitter : ℚ} {retryAfter : Option Int}
    {failed : JobRecord}
    (h : failJob hooks store lease errorCode now wait jitter retryAfter = .ok (failed, after)) :
    Settles hooks store after ∨
      ∃ run ∈ reopened hooks store (.failJob lease errorCode now wait jitter retryAfter),
        Starts hooks store after run.tenantId := by
  obtain ⟨job, run, signalled, bumped, htime, hjitter, hafter, howned, hevents, hbump⟩ :=
    failJob_inv h
  have howns := owned_some howned
  have hwritten : Settles hooks store signalled := Settles.of_eq hevents.runs hevents.rest
  have hfound : signalled.runs.find run.key = some run := by
    rw [hevents.runs, run_key howns.run_found]
    exact howns.run_found
  by_cases hactive : run.status.Active
  · exact Or.inl (hwritten.trans (bumpRun_settles hbump hfound rfl fun _ => hactive))
  · cases hretry : job.retries errorCode with
    | true =>
      refine Or.inr ⟨run, ?_, hwritten.starts (bumpRun_starts hbump hfound)⟩
      simp [reopened, howned, htime, hjitter, hafter, hretry, hactive, Except.isOk, Except.toBool]
    | false =>
      -- Without a next attempt the run ends partial or failed.
      refine Or.inl (hwritten.trans (bumpRun_settles hbump hfound rfl fun hnow => ?_))
      rw [hretry] at hnow
      unfold statusAfterFailure at hnow
      simp only [Bool.false_eq_true, if_false, Option.getD_some] at hnow
      split_ifs at hnow <;> rcases hnow with hnow | hnow <;> cases hnow

/-- A commit settles. -/
theorem commitJob_settles {payload : Bytes} {wait : Nat} {next : Option JobMessage}
    {accepted : Bool} (haudit : hooks.AuditKeepsDeletions)
    (hkeeps : (Call.commitJob lease payload now wait next publish).KeepsDeletions hooks)
    (h : commitJob hooks store lease payload now wait next publish = .ok (accepted, after)) :
    Settles hooks store after := by
  rcases commitJob_inv h with ⟨-, rfl⟩ | ⟨-, job, run, howned, hcommitted⟩
  · exact Settles.refl hooks after
  have howns := owned_some howned
  obtain ⟨⟨updated, checked⟩, hchecked, h⟩ := bind_ok hcommitted
  obtain ⟨written, hwritten, h⟩ := bind_ok h
  obtain ⟨queued, hqueued, h⟩ := bind_ok h
  obtain ⟨published, hpublished, h⟩ := bind_ok h
  obtain ⟨⟨bumped, saved⟩, hbumped, h⟩ := bind_ok h
  obtain ⟨hkey, hdocument, hstatus, hcheck⟩ := checkpointUpdate_ok hchecked
  have hwrite := writeCheckpoint_ok (hcheck.kept howns.found howns.message) howns.message
    howns.not_settled hwritten
  obtain ⟨-, hqueuedRuns, hqueuedRest⟩ := enqueueNext_ok hqueued
  have hbefore : queued.runs = store.runs :=
    hqueuedRuns.trans (hwrite.runs.trans hcheck.runs)
  have hqueuedSettles : Settles hooks store queued :=
    Settles.of_eq hbefore (hqueuedRest.trans (hwrite.rest.trans hcheck.rest))
  have hpublishedSettles : Settles hooks queued published := runPublish_settles hkeeps hpublished
  have hrun : published.runs.find updated.key = some run := by
    rw [(runPublish_ok hpublished).2.1, hbefore, hkey, run_key howns.run_found]
    exact howns.run_found
  refine hqueuedSettles.trans (hpublishedSettles.trans
    ((bumpRun_settles hbumped hrun hdocument fun hactive => ?_).trans
      (auditPublish_settles haudit h)))
  rcases hstatus with ⟨hsame, -⟩ | ⟨hended | hended, -⟩
  · exact hsame ▸ hactive
  · rw [hended] at hactive
    rcases hactive with hactive | hactive <;> cases hactive
  · rw [hended] at hactive
    rcases hactive with hactive | hactive <;> cases hactive

theorem runAction_withinLimit {action : Action}
    (haudit : hooks.AuditKeepsDeletions) (hlimit : WithinLimit hooks store)
    (h : runAction hooks store action request = .ok (answered, after)) :
    WithinLimit hooks after := by
  rcases runAction_ok h with ⟨rfl, -⟩ | ⟨-, run, acted, hrun, hacted, hrecorded⟩
  · exact hlimit
  have hfound : store.runs.find run.key = some run := by rwa [run_key hrun]
  refine WithinLimit.settles ?_ (recordAction_settles haudit hrecorded)
  cases action with
  | cancel => exact hlimit.settles (cancelBranch_settles hfound hacted)
  | retry =>
    obtain ⟨hroom, hstarts⟩ := retryBranch_starts hfound hacted
    exact hlimit.starts hroom hstarts

theorem heartbeat_settles {renewed : JobLease} {elapsed : Nat}
    (h : heartbeat hooks store lease now elapsed leaseSeconds = .ok (renewed, after)) :
    Settles hooks store after := by
  obtain ⟨job, run, heartbeatAt, leaseUntil, -, rfl⟩ := heartbeat_inv h
  exact Settles.of_eq rfl rfl

theorem reviseRun_settles {key : RunKey} {change : ρ → ρ}
    (hkeeps : ∀ rest, KeepsDeletions hooks rest (change rest))
    (h : reviseRun hooks store key refresh change = .ok after) : Settles hooks store after := by
  obtain ⟨run, hrun, h⟩ := bind_ok h
  obtain ⟨⟨bumped, saved⟩, hbump, h⟩ := bind_ok h
  cases pure_ok h
  have hold : store.runs.find run.key = some run := by
    rw [run_key (getRun_ok hrun)]
    exact getRun_ok hrun
  have hchanged : Settles hooks store { store with rest := change store.rest } :=
    Settles.of_runs_eq rfl (hkeeps store.rest)
  exact hchanged.trans (bumpRun_settles hbump hold rfl id)

/-! ### Transactions and runs -/

variable {call : Call ρ}

theorem room_of_not_overruns
    (huncounted : uncounted hooks store call = (reopened hooks store call).map RunRecord.tenantId)
    (hroom : ¬call.Overruns hooks store) :
    ∀ run ∈ reopened hooks store call, ¬2 ≤ activeRunCount hooks store run.tenantId := by
  intro run hrun hfull
  refine hroom ?_
  unfold Call.Overruns
  rw [huncounted, Option.mem_def.mp hrun]
  simpa using hfull

theorem WithinLimit.counts (h : WithinLimit hooks store)
    (hroom : ∀ run ∈ reopened hooks store call, ¬2 ≤ activeRunCount hooks store run.tenantId)
    (hcounts : Settles hooks store after ∨
      ∃ run ∈ reopened hooks store call, Starts hooks store after run.tenantId) :
    WithinLimit hooks after := by
  rcases hcounts with hsettles | ⟨run, hrun, hstarts⟩
  · exact h.settles hsettles
  · exact h.starts (not_le.mp (hroom run hrun)) hstarts

theorem execute_withinLimit {reply : Reply} (haudit : hooks.AuditKeepsDeletions)
    (hkeeps : call.KeepsDeletions hooks) (hroom : ¬call.Overruns hooks store)
    (h : WithinLimit hooks store) (hexecute : execute hooks store call = .ok (reply, after)) :
    WithinLimit hooks after := by
  cases call with
  | createRun tenantId runId documentVersionId =>
    obtain ⟨made, hmade, hsame⟩ := map_ok_iff.mp hexecute
    cases hsame
    exact h.starts (by simpa [Call.Overruns, uncounted] using hroom) (createRun_starts hmade)
  | enqueue message now =>
    obtain ⟨⟨⟩, -, hrest⟩ := bind_ok hexecute
    obtain ⟨made, hmade, hsame⟩ := bind_ok hrest
    cases pure_ok hsame
    obtain ⟨-, hruns, hrest, -⟩ := enqueue_ok hmade
    exact h.settles (Settles.of_eq hruns hrest)
  | claimJob message owner now leaseSeconds =>
    obtain ⟨⟨granted, made⟩, hmade, hsame⟩ := map_ok_iff.mp hexecute
    cases hsame
    exact h.counts (room_of_not_overruns rfl hroom) (claimJob_counts hmade)
  | heartbeat lease now elapsed leaseSeconds =>
    obtain ⟨⟨renewed, made⟩, hmade, hsame⟩ := map_ok_iff.mp hexecute
    cases hsame
    exact h.settles (heartbeat_settles hmade)
  | commitJob lease payload now wait next publish =>
    obtain ⟨⟨accepted, made⟩, hmade, hsame⟩ := map_ok_iff.mp hexecute
    cases hsame
    exact h.settles (commitJob_settles haudit hkeeps hmade)
  | failJob lease errorCode now wait jitter retryAfter =>
    obtain ⟨⟨failed, made⟩, hmade, hsame⟩ := map_ok_iff.mp hexecute
    cases hsame
    exact h.counts (room_of_not_overruns rfl hroom) (failJob_counts hmade)
  | cancelRun request | retryRun request =>
    obtain ⟨⟨answered, made⟩, hmade, hsame⟩ := map_ok_iff.mp hexecute
    cases hsame
    exact runAction_withinLimit haudit h hmade
  | markOutbox key eventId now sent expectedAttempts =>
    obtain ⟨⟨changed, made⟩, hmade, hsame⟩ := map_ok_iff.mp hexecute
    cases hsame
    have hevents := markOutbox_ok hmade
    exact h.settles (Settles.of_eq hevents.runs hevents.rest)
  | reviseRun key refresh change =>
    obtain ⟨made, hmade, hsame⟩ := map_ok_iff.mp hexecute
    cases hsame
    exact h.settles (reviseRun_settles hkeeps hmade)
  | elsewhere change =>
    cases hexecute
    exact h.settles (Settles.of_runs_eq rfl (hkeeps store.rest))

theorem nextRun_withinLimit {call : RunCall ρ} (haudit : hooks.AuditKeepsDeletions)
    (hkeeps : call.KeepsDeletions hooks) (hroom : ¬call.Overruns hooks store)
    (h : WithinLimit hooks store) : WithinLimit hooks (nextRun hooks store call) := by
  cases call with
  | create request =>
    simp only [nextRun]
    cases hmade : create hooks store request with
    | error error => exact h
    | ok made => exact create_withinLimit h hkeeps hmade
  | onJobs call =>
    show WithinLimit hooks (next hooks store call)
    unfold next
    cases hmade : execute hooks store call with
    | error error => exact h
    | ok made => exact execute_withinLimit haudit hkeeps hroom h hmade

/-- **The limit on active runs.**  In every run from a fresh database whose steps do
not overrun the limit, no state has a tenant with more than two active runs. -/
theorem active_runs_within_limit (hooks : Hooks ρ) (haudit : hooks.AuditKeepsDeletions) (rest : ρ)
    (calls : List (RunCall ρ)) (hkeeps : ∀ call ∈ calls, call.KeepsDeletions hooks)
    (hroom : Machine.EachStep (nextRun hooks) (fun store call => ¬call.Overruns hooks store)
      (JobStore.initial rest) calls) :
    ∀ store ∈ Machine.states (nextRun hooks) (JobStore.initial rest) calls,
      ∀ tenantId, activeRunCount hooks store tenantId ≤ 2 := by
  have hinitial : WithinLimit hooks (JobStore.initial rest) := fun tenantId => Nat.zero_le 2
  have hstep : ∀ store, ∀ call ∈ calls, WithinLimit hooks store → ¬call.Overruns hooks store →
      WithinLimit hooks (nextRun hooks store call) := by
    intro store call hcall hlimit hfits
    exact nextRun_withinLimit haudit (hkeeps call hcall) hfits hlimit
  exact hroom.invariant hstep hinitial

def sampleCreate (runId : String) : CreateRequest Unit where
  tenantId := "tenant"
  runId := runId
  documentVersionId := "version"
  jobId := "job/" ++ runId
  shard := "full"
  inputHash := "input"
  now := 0
  replay := fun _ => .ok none
  checkSnapshot := fun _ => .ok ()
  record := fun _ => .ok ()

def sampleShard : JobMessage :=
  { (sampleCreate "first").parseJob with jobId := "job/shard", stage := "extract", shard := "1" }

def refilledCalls : List (RunCall Unit) :=
  [.create (sampleCreate "first"), .onJobs (.enqueue sampleShard 0),
    .onJobs (.claimJob (sampleCreate "first").parseJob "worker" 0 10),
    .onJobs (.failJob
      { message := (sampleCreate "first").parseJob, owner := "worker", fencingToken := 1
        attempt := 1, leaseUntil := 10 } "PARSER_REJECTED" 1 0 0 none),
    .create (sampleCreate "second"), .create (sampleCreate "third")]

theorem active_runs_within_limit_refilled :
    activeRunCount sampleHooks
      (Machine.after (nextRun sampleHooks) (JobStore.initial ()) refilledCalls) "tenant" ≤ 2 := by
  have hlast : Machine.after (nextRun sampleHooks) (JobStore.initial ()) refilledCalls ∈
      Machine.states (nextRun sampleHooks) (JobStore.initial ()) refilledCalls :=
    Machine.mem_states_iff.mpr ⟨refilledCalls, [], (List.append_nil _).symm, rfl⟩
  refine active_runs_within_limit sampleHooks (fun _ _ _ _ => KeepsDeletions.refl _ _) ()
    refilledCalls ?_ (by decide +kernel) _ hlast "tenant"
  intro call hcall
  simp only [refilledCalls, List.mem_cons, List.not_mem_nil, or_false] at hcall
  rcases hcall with rfl | rfl | rfl | rfl | rfl | rfl
  · exact fun _ _ _ => KeepsDeletions.refl _ _
  · trivial
  · trivial
  · trivial
  · exact fun _ _ _ => KeepsDeletions.refl _ _
  · exact fun _ _ _ => KeepsDeletions.refl _ _

theorem active_runs_overrun :
    activeRunCount sampleHooks
      (Machine.after (nextRun sampleHooks) (JobStore.initial ())
        (refilledCalls ++ [.onJobs (.claimJob sampleShard "worker" 2 10)])) "tenant" = 3 := by
  decide +kernel

end ProofOps.Adapters.Local
