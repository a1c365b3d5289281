import ProofOps.Adapters.Local.JobFencing

/-!
# Cancelled runs

A cancellation settles every job of its run and flags the run.  Every writer looks
at the flag, so nothing of the run moves again: no job is claimed, renewed,
committed, failed, enqueued or put back.  A retry may still be answered, from the
idempotency row of an earlier retry, and changes nothing then.
-/

namespace ProofOps.Adapters.Local

open Foundation Foundation.Checked

variable {ρ : Type}

structure Cancelled (store : JobStore ρ) (key : RunKey) : Prop where
  run : ∃ run, store.runs.find key = some run ∧ run.cancellationRequested = true ∧
    run.status = .cancelled
  jobs : ∀ {jobKey job}, store.jobs.find jobKey = some job → job.runKey = key → job.status.Settled

variable {store : JobStore ρ} {key : RunKey}

theorem Cancelled.closed (h : Cancelled store key) {run : RunRecord}
    (hrun : store.runs.find key = some run) : run.cancellationRequested ≠ false := by
  obtain ⟨found, hfound, hflag, -⟩ := h.run
  rw [hrun] at hfound
  cases hfound
  simp [hflag]

variable {after : JobStore ρ} {job : JobRecord}

theorem Cancelled.job_unchanged (h : Cancelled store key) (hevolves : Evolves store after)
    {jobKey : JobKey} (hjob : after.jobs.find jobKey = some job) (hkey : job.runKey = key) :
    store.jobs.find jobKey = some job := by
  cases hold : store.jobs.find jobKey with
  | none =>
    obtain ⟨run, hrun, hflag, -⟩ := h.run
    rw [← hkey] at hrun
    have hopen := hevolves.created hjob hold hrun
    rw [hflag] at hopen
    cases hopen
  | some old =>
    obtain ⟨later, hlater, hjobEvolves⟩ := hevolves.jobs hold
    rw [hjob] at hlater
    cases hlater
    rw [hjobEvolves.settled (h.jobs hold (hjobEvolves.runKey.symm.trans hkey))]

theorem Cancelled.evolves (h : Cancelled store key) (hevolves : Evolves store after) :
    Cancelled after key where
  run := by
    obtain ⟨run, hrun, hflag, hstatus⟩ := h.run
    obtain ⟨later, hlater, hrunEvolves⟩ := hevolves.runs hrun
    exact ⟨later, hlater, hrunEvolves.cancelled hflag, hrunEvolves.status hflag hstatus⟩
  jobs := fun hjob hkey => h.jobs (h.job_unchanged hevolves hjob hkey) hkey

/-- A cancelled run gets no further jobs. -/
theorem Cancelled.find_job (h : Cancelled store key) (hevolves : Evolves store after)
    (jobId : String) :
    after.jobs.find (key.1, key.2, jobId) = store.jobs.find (key.1, key.2, jobId) := by
  have hrunKey : ∀ {table : Table JobRecord JobRecord.key} {job : JobRecord},
      table.find (key.1, key.2, jobId) = some job → job.runKey = key := by
    intro table job hjob
    have hkey : (job.message.tenantId, job.message.runId, job.message.jobId) =
        (key.1, key.2, jobId) := (Table.find_eq_some_iff.mp hjob).2
    simp only [Prod.mk.injEq] at hkey
    exact Prod.ext hkey.1 hkey.2.1
  cases hold : store.jobs.find (key.1, key.2, jobId) with
  | some job =>
    obtain ⟨later, hlater, hjobEvolves⟩ := hevolves.jobs hold
    rw [hlater, hjobEvolves.settled (h.jobs hold (hrunKey hold))]
  | none =>
    cases hnew : after.jobs.find (key.1, key.2, jobId) with
    | none => rfl
    | some job =>
      have hsame := h.job_unchanged hevolves hnew (hrunKey hnew)
      rw [hold] at hsame
      cases hsame

def Cancels (hooks : Hooks ρ) (store : JobStore ρ) (request : ActionRequest) : Prop :=
  storedAnswer hooks store .cancel request = none ∧
    (answer hooks store (.cancelRun request)).isSome

instance (hooks : Hooks ρ) (store : JobStore ρ) (request : ActionRequest) :
    Decidable (Cancels hooks store request) :=
  inferInstanceAs (Decidable (_ ∧ _))

theorem settled_of_not_cancellable (hkey : job.runKey = key) (h : isCancellable key job = false) :
    job.status.Settled := by
  unfold isCancellable at h
  unfold JobStatus.Settled
  cases hstatus : job.status <;> simp [hkey, hstatus] at h ⊢

variable {hooks : Hooks ρ}

theorem Cancels.cancelled {request : ActionRequest} (h : Cancels hooks store request) :
    Cancelled (next hooks store (.cancelRun request)) request.key := by
  obtain ⟨hfresh, hanswered⟩ := h
  obtain ⟨reply, hanswer⟩ := Option.isSome_iff_exists.mp hanswered
  have hexecute := execute_of_answer hanswer
  generalize next hooks store (.cancelRun request) = after at hexecute ⊢
  obtain ⟨⟨answered, made⟩, hmade, hreply⟩ := map_ok_iff.mp hexecute
  cases hreply
  rcases runAction_ok hmade with ⟨-, stored, hstored, -⟩ |
    ⟨-, found, acted, hfound, hacted, hrecorded⟩
  · rw [hfresh] at hstored
    cases hstored
  · obtain ⟨hjobs, hruns, -, -⟩ := recordAction_ok hrecorded
    have hkey := run_key hfound
    obtain ⟨-, hafter, hflag, hstatus, hmodified⟩ := cancelBranch_ok (hkey.symm ▸ hfound) hacted
    refine ⟨⟨answered, ?_, hflag, hstatus⟩, fun {jobKey job} hjob hjobKey => ?_⟩
    · rw [hruns, ← hkey]
      exact hafter
    · rw [hjobs, hmodified, Table.find_modify, Option.map_eq_some_iff] at hjob
      obtain ⟨old, -, rfl⟩ := hjob
      split_ifs at hjobKey ⊢ with hopen
      · exact Or.inr (Or.inl rfl)
      · exact settled_of_not_cancellable (hjobKey.trans hkey.symm) (by simpa using hopen)

/-! ### What a cancelled run answers -/

/-- The run that a call is about. -/
def Call.On (call : Call ρ) (key : RunKey) : Prop :=
  match call with
  | .enqueue message _ => message.runKey = key
  | .claimJob message _ _ _ => message.runKey = key
  | .heartbeat lease _ _ _ => lease.message.runKey = key
  | .commitJob lease _ _ _ _ _ => lease.message.runKey = key
  | .failJob lease _ _ _ _ _ => lease.message.runKey = key
  | .retryRun request => request.key = key
  | _ => False

def Replays (hooks : Hooks ρ) (store : JobStore ρ) (call : Call ρ) (reply : Reply) : Prop :=
  ∃ request stored, call = .retryRun request ∧
    storedAnswer hooks store .retry request = some stored ∧
    stored.requestHash = hooks.requestHash .retry request.expectedRevision request.reason ∧
    reply = .acted stored.response

theorem Cancelled.not_owns {lease : JobLease} {run : RunRecord}
    (h : Cancelled store lease.message.runKey) : ¬Owns store lease job run :=
  fun howns => h.closed howns.run_found howns.open_run

theorem Cancelled.execute_ok {call : Call ρ} {reply : Reply} (h : Cancelled store key)
    (hon : call.On key) (hexecute : execute hooks store call = .ok (reply, after)) :
    after = store ∧ (reply = .claimed none ∨ reply = .committed false ∨
      Replays hooks store call reply) := by
  cases call with
  | enqueue message now =>
    cases hon
    replace hexecute := rest_ok hexecute
    obtain ⟨made, hmade, -⟩ := bind_ok hexecute
    obtain ⟨-, -, -, run, hrun, hopen⟩ := enqueue_ok hmade
    exact absurd hopen (h.closed hrun)
  | claimJob message owner now leaseSeconds =>
    cases hon
    obtain ⟨⟨granted, made⟩, hmade, hreply⟩ := map_ok_iff.mp hexecute
    cases hreply
    obtain ⟨-, hnone, hsome⟩ := claimJob_ok hmade
    cases granted with
    | none => exact ⟨hnone rfl, Or.inl rfl⟩
    | some lease =>
      obtain ⟨-, job, run, -, hrun, hopen, -⟩ := hsome lease rfl
      exact absurd hopen (h.closed hrun)
  | heartbeat lease now elapsed leaseSeconds =>
    cases hon
    obtain ⟨⟨renewed, made⟩, hmade, -⟩ := map_ok_iff.mp hexecute
    obtain ⟨-, job, run, howns⟩ := heartbeat_ok hmade
    exact absurd howns h.not_owns
  | commitJob lease payload now wait following publish =>
    cases hon
    obtain ⟨⟨accepted, made⟩, hmade, hreply⟩ := map_ok_iff.mp hexecute
    cases hreply
    rcases commitJob_ok hmade with ⟨rfl, hsame⟩ | ⟨-, job, run, howned, -⟩
    · exact ⟨hsame, Or.inr (Or.inl rfl)⟩
    · exact absurd (owned_some howned) h.not_owns
  | failJob lease errorCode now wait jitter retryAfter =>
    cases hon
    obtain ⟨⟨failed, made⟩, hmade, -⟩ := map_ok_iff.mp hexecute
    obtain ⟨-, job, run, howns⟩ := failJob_ok hmade
    exact absurd howns h.not_owns
  | retryRun request =>
    cases hon
    obtain ⟨⟨answered, made⟩, hmade, hreply⟩ := map_ok_iff.mp hexecute
    cases hreply
    rcases runAction_ok hmade with ⟨hsame, stored, hstored, hhash, hresponse⟩ |
      ⟨-, run, acted, hrun, hacted, -⟩
    · refine ⟨hsame, Or.inr (Or.inr ⟨request, stored, rfl, hstored, hhash, ?_⟩)⟩
      rw [hresponse]
    · have hkey := run_key hrun
      exact absurd (retryBranch_ok (hkey.symm ▸ hrun) hacted).2 (h.closed hrun)
  | _ => exact absurd hon id

theorem Cancelled.call {call : Call ρ} (h : Cancelled store key) (hon : call.On key) :
    next hooks store call = store ∧ ∀ reply, answer hooks store call = some reply →
      reply = .claimed none ∨ reply = .committed false ∨ Replays hooks store call reply := by
  constructor
  · unfold next
    cases hexecute : execute hooks store call with
    | error error => rfl
    | ok made => exact (h.execute_ok hon hexecute).1
  · intro reply hanswer
    exact (h.execute_ok hon (execute_of_answer hanswer)).2

theorem Cancelled.pendingOutbox {now : Int} {events : List OutboxEvent} (h : Cancelled store key)
    (hevents : pendingOutbox hooks store key now = .ok events) : events = [] := by
  replace hevents := rest_ok hevents
  obtain ⟨run, hrun, hevents⟩ := bind_ok hevents
  have hclosed := h.closed (getRun_ok hrun)
  rw [if_pos (by simpa using hclosed), pure_ok_iff] at hevents
  exact hevents.symm

/-- After a committed cancellation, whatever is called: the jobs of the run are
settled rows that stay as they are, the run stays cancelled, every later call on it
declines, is refused or replays an earlier retry's answer and changes nothing, and
its outbox yields nothing. -/
theorem cancellation_absorbing (hooks : Hooks ρ) (store : JobStore ρ) (request : ActionRequest)
    (calls : List (Call ρ)) (h : Cancels hooks store request) :
    let cancelled := next hooks store (.cancelRun request)
    let current := Machine.after (next hooks) cancelled calls
    (∀ jobId, current.jobs.find (request.tenantId, request.runId, jobId) =
      cancelled.jobs.find (request.tenantId, request.runId, jobId)) ∧
    (∀ job ∈ jobsOf current request.key, job.status.Settled) ∧
    (∃ run, current.runs.find request.key = some run ∧ run.cancellationRequested = true ∧
      run.status = .cancelled) ∧
    (∀ late, Call.On late request.key → next hooks current late = current ∧
      ∀ reply, answer hooks current late = some reply →
        reply = .claimed none ∨ reply = .committed false ∨ Replays hooks current late reply) ∧
    (∀ now events, pendingOutbox hooks current request.key now = .ok events → events = []) := by
  intro cancelled current
  have hcancelled : Cancelled cancelled request.key := h.cancelled
  have hevolves : Evolves cancelled current := after_evolves hooks cancelled calls
  have hcurrent := hcancelled.evolves hevolves
  refine ⟨fun jobId => hcancelled.find_job hevolves jobId, fun job hjob => ?_, hcurrent.run,
    fun late hon => hcurrent.call hon, fun now events hevents => hcurrent.pendingOutbox hevents⟩
  obtain ⟨hmem, hkey⟩ := List.mem_filter.mp hjob
  exact hcurrent.jobs (Table.find_of_mem hmem) (by simpa using hkey)

def sampleRequest (idempotencyKey : String) (revision : Nat) (now : Int) : ActionRequest where
  tenantId := "tenant"
  runId := "run"
  expectedRevision := revision
  idempotencyKey := idempotencyKey
  reason := "operator"
  actorSub := "admin"
  now := now

theorem cancellation_absorbing_queued :
    ¬HandsOut sampleHooks
      (next sampleHooks queuedStore (.cancelRun (sampleRequest "cancel-0000000001" 1 5)))
      (.claimJob sampleMessage "late" 6 10) (sampleLease "late" 1 6) := by
  intro hclaimed
  have hlate := (cancellation_absorbing sampleHooks queuedStore
    (sampleRequest "cancel-0000000001" 1 5) [] (by decide +kernel)).2.2.2.1
      (.claimJob sampleMessage "late" 6 10) rfl
  rcases hlate.2 _ hclaimed with hreply | hreply | ⟨_, _, hcall, -⟩
  · cases hreply
  · cases hreply
  · cases hcall

def retriedStore : JobStore Unit :=
  Machine.after (next sampleHooks) queuedStore
    [.claimJob sampleMessage "first" 0 10, .failJob (sampleLease "first" 1 0) "PARSE_FAILED" 1 0 0 none,
      .retryRun (sampleRequest "retry-00000000001" 3 2)]

theorem cancelled_retry_replayed :
    ¬∀ (store : JobStore Unit) (request late : ActionRequest), Cancels sampleHooks store request →
      late.key = request.key →
        answer sampleHooks (next sampleHooks store (.cancelRun request)) (.retryRun late) = none := by
  intro h
  have hreplayed := h retriedStore (sampleRequest "cancel-0000000001" 4 5)
    (sampleRequest "retry-00000000001" 3 6) (by decide +kernel) rfl
  revert hreplayed
  decide +kernel

end ProofOps.Adapters.Local
