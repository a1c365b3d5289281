import ProofOps.Adapters.Local.JobFencing

/-!
# What a retry leaves to do

A retry puts the failed jobs of a run back and reports the run as running.  In every reachable store
a failed run has a failed job, and a partial run has one unless its tags were published
(`Accounted`).  So a retry makes work unless it is asked for a published run without a failed job
(`retry_makes_work`).
-/

namespace ProofOps.Adapters.Local

open Foundation Foundation.Checked

variable {ρ : Type} {hooks : Hooks ρ} {store after : JobStore ρ}

/-- The run has a job that failed. -/
def HasFailed (store : JobStore ρ) (key : RunKey) : Prop :=
  ∃ job ∈ store.jobs, job.runKey = key ∧ job.status = .failed

def HasWork (store : JobStore ρ) (key : RunKey) : Prop :=
  ∃ job ∈ store.jobs, job.runKey = key ∧ job.status = .pending ∧
    ∃ event ∈ store.events, event.message = job.message ∧ event.status = .pending

instance (store : JobStore ρ) (key : RunKey) : Decidable (HasFailed store key) :=
  inferInstanceAs (Decidable (∃ job ∈ store.jobs.rows, job.runKey = key ∧ job.status = .failed))

instance (store : JobStore ρ) (key : RunKey) : Decidable (HasWork store key) :=
  inferInstanceAs (Decidable (∃ job ∈ store.jobs.rows, job.runKey = key ∧ job.status = .pending ∧
    ∃ event ∈ store.events.rows, event.message = job.message ∧ event.status = .pending))

/-! ### Failed jobs stay -/

def FailuresKept (before after : JobStore ρ) : Prop :=
  ∀ key, HasFailed before key → HasFailed after key

namespace FailuresKept

theorem of_jobs_eq (h : after.jobs = store.jobs) : FailuresKept store after := by
  intro key hfailed
  unfold HasFailed
  rw [h]
  exact hfailed

theorem refl (store : JobStore ρ) : FailuresKept store store :=
  of_jobs_eq rfl

theorem trans {middle : JobStore ρ} (h : FailuresKept store middle)
    (h' : FailuresKept middle after) : FailuresKept store after :=
  fun key hfailed => h' key (h key hfailed)

theorem put {job : JobRecord} (hjobs : after.jobs = store.jobs.put job)
    (hopen : ∀ old, store.jobs.find job.key = some old → old.status ≠ .failed) :
    FailuresKept store after := by
  rintro key ⟨failed, hmem, hkey, hstatus⟩
  refine ⟨failed, ?_, hkey, hstatus⟩
  rw [hjobs, Table.mem_put]
  right
  refine ⟨hmem, ?_⟩
  intro hsame
  have hfound := Table.find_of_mem hmem
  rw [hsame] at hfound
  exact hopen failed hfound hstatus

theorem modify {test : JobRecord → Bool} {change : JobRecord → JobRecord}
    {keeps : ∀ job, (change job).key = job.key}
    (hjobs : after.jobs = store.jobs.modify test change keeps)
    (hopen : ∀ job, test job = true → job.status ≠ .failed) : FailuresKept store after := by
  rintro key ⟨failed, hmem, hkey, hstatus⟩
  refine ⟨failed, ?_, hkey, hstatus⟩
  rw [hjobs, Table.mem_modify]
  refine ⟨failed, hmem, ?_⟩
  rw [if_neg]
  intro htest
  exact hopen failed htest hstatus

end FailuresKept

variable {message : JobMessage} {now : Int}

theorem enqueue_keeps (h : enqueue hooks store message now = .ok after) :
    FailuresKept store after := by
  obtain ⟨run, -, h⟩ := bind_ok h
  split_ifs at h
  cases hoccupant : occupant store message with
  | some existing =>
    simp only [hoccupant] at h
    split_ifs at h
    cases h
    exact FailuresKept.refl store
  | none =>
    simp only [hoccupant] at h
    apply FailuresKept.put (addEvent_ok h).jobs
    intro old hold
    have hnone := occupant_none hoccupant
    change store.jobs.find message.key = some old at hold
    rw [hold] at hnone
    cases hnone

variable {run : RunRecord}

theorem guardExtractContinuation_keeps
    (h : guardExtractContinuation hooks store run now = .ok after) : FailuresKept store after := by
  unfold guardExtractContinuation at h
  split_ifs at h
  cases h
  refine @FailuresKept.modify ρ store _ (isOpenTagJob run.key) _ JobRecord.superseded_key rfl ?_
  intro job htest hfailed
  simp [isOpenTagJob, hfailed] at htest

theorem claimGuard_keeps (h : claimGuard hooks store message run now = .ok after)
    : FailuresKept store after := by
  unfold claimGuard at h
  split_ifs at h
  · exact guardExtractContinuation_keeps h
  · cases h
    exact FailuresKept.refl store

variable {payload : Bytes} {updated : RunRecord}

theorem extractUpdate_keeps {next : Option JobMessage}
    (h : extractUpdate hooks store run message payload next now = .ok (updated, after)) :
    FailuresKept store after := by
  unfold extractUpdate at h
  dsimp only at h
  split_ifs at h
  · replace h := rest_ok h
    obtain ⟨guarded, hguard, h⟩ := bind_ok h
    obtain ⟨-, rfl⟩ := h
    exact guardExtractContinuation_keeps hguard
  · cases h
    exact FailuresKept.refl _

variable {job : JobRecord}

structure Explained (store : JobStore ρ) (run : RunRecord) : Prop where
  failed : run.status = .failed → HasFailed store run.key
  partially : run.status = .partially → HasFailed store run.key ∨ run.tagJob.isSome = true

def Accounted (store : JobStore ρ) : Prop :=
  ∀ run ∈ store.runs, Explained store run

theorem Explained.keeps (h : Explained store run)
    (hkept : HasFailed store run.key → HasFailed after run.key) : Explained after run := by
  constructor
  case failed => exact fun hstatus => hkept (h.failed hstatus)
  case partially => exact fun hstatus => (h.partially hstatus).imp_left hkept

theorem explained_of_status (hfailed : run.status ≠ .failed)
    (hpartially : run.status ≠ .partially) : Explained store run := by
  constructor
  case failed => exact fun hstatus => absurd hstatus hfailed
  case partially => exact fun hstatus => absurd hstatus hpartially

theorem Accounted.of_runs_eq (h : Accounted store) (hruns : after.runs = store.runs)
    (hkept : FailuresKept store after) : Accounted after := by
  intro run hrun
  rw [hruns] at hrun
  exact (h run hrun).keeps (hkept run.key)

theorem Accounted.put (h : Accounted store) {run : RunRecord}
    (hruns : after.runs = store.runs.put run)
    (hkept : ∀ key, key ≠ run.key → HasFailed store key → HasFailed after key)
    (hrun : Explained after run) : Accounted after := by
  intro other hother
  rw [hruns, Table.mem_put] at hother
  rcases hother with rfl | ⟨hmem, hkey⟩
  · exact hrun
  · exact (h other hmem).keeps (hkept other.key hkey)

/-! ### One lemma a method -/

theorem createRun_accounted {tenantId runId documentVersionId : String} (h : Accounted store)
    (hcreate : createRun store tenantId runId documentVersionId = .ok after) : Accounted after := by
  obtain ⟨runs, hruns, hcreate⟩ := bind_ok hcreate
  cases pure_ok hcreate
  intro run hrun
  rcases (Table.mem_insert? (insertRow_ok hruns)).mp hrun with hold | rfl
  · exact (h run hold).keeps id
  · exact explained_of_status (by simp) (by simp)

variable {leaseSeconds : Int}

theorem claimJob_accounted {owner : String} {granted : Option JobLease} (h : Accounted store)
    (hclaim : claimJob hooks store message owner now leaseSeconds = .ok (granted, after)) :
    Accounted after := by
  rcases claimJob_inv hclaim with ⟨-, rfl⟩ |
    ⟨job, run, guarded, leases, bumped, -, -, hclaimable, hguard, -, hbump⟩
  · exact h
  obtain ⟨hjob, hmessage, -, -, hopen, -⟩ := claimable_some hclaimable
  obtain ⟨hafter, -, -, hstatus, -⟩ := bumpRun_ok hbump
  have hguarded := (claimGuard_ok hguard).2.2.2 hjob hmessage
  have hjobs : after.jobs = guarded.jobs.put (job.claimed owner now leaseSeconds) := by
    rw [hafter]
  have hruns : after.runs = store.runs.put bumped := by
    rw [hafter]
    exact congrArg (fun runs => runs.put bumped) (claimGuard_ok hguard).2.1
  have hput : FailuresKept guarded after := by
    apply FailuresKept.put hjobs
    intro old hold
    change guarded.jobs.find job.message.key = some old at hold
    rw [hmessage, hguarded] at hold
    cases hold
    exact hopen
  apply h.put hruns
  · exact fun key _ => (claimGuard_keeps hguard).trans hput key
  · apply explained_of_status
    · rw [hstatus, Option.getD_some]
      decide
    · rw [hstatus, Option.getD_some]
      decide

variable {lease : JobLease}

theorem Owns.put_keeps {written : JobRecord}
    (howns : Owns store lease job run) (hjobs : after.jobs = store.jobs.put written)
    (hkey : written.key = job.key) : FailuresKept store after := by
  apply FailuresKept.put hjobs
  intro old hold hfailed
  rw [hkey, howns.found_key] at hold
  cases hold
  rw [howns.leased] at hfailed
  cases hfailed

theorem heartbeat_accounted {renewed : JobLease} {elapsed : Nat} (h : Accounted store)
    (hbeat : heartbeat hooks store lease now elapsed leaseSeconds = .ok (renewed, after)) :
    Accounted after := by
  obtain ⟨job, run, heartbeatAt, leaseUntil, howns, rfl⟩ := heartbeat_inv hbeat
  exact h.of_runs_eq rfl (howns.put_keeps rfl rfl)

theorem checkpointUpdate_keeps {next : Option JobMessage} {publishes : Bool}
    (h : checkpointUpdate hooks store run message payload next publishes now = .ok (updated, after))
    : FailuresKept store after := by
  obtain ⟨parsed, -, h⟩ := bind_ok h
  obtain ⟨⟨extracted, guarded⟩, hextracted, h⟩ := bind_ok h
  obtain ⟨tagged, -, h⟩ := bind_ok h
  obtain ⟨rfl, rfl⟩ := h
  exact extractUpdate_keeps hextracted

theorem enqueueNext_keeps {next : Option JobMessage}
    (h : enqueueNext hooks store next now = .ok after) : FailuresKept store after := by
  cases next with
  | none =>
    cases h
    exact FailuresKept.refl store
  | some message => exact enqueue_keeps h

variable {publish : Option (Publish ρ)}

theorem commitOwned_accounted {next : Option JobMessage}
    (h : Accounted store) (howns : Owns store lease job run)
    (hcommit : commitOwned hooks store job run lease payload now next publish = .ok after) :
    Accounted after := by
  obtain ⟨⟨updated, checked⟩, hchecked, hcommit⟩ := bind_ok hcommit
  obtain ⟨written, hwritten, hcommit⟩ := bind_ok hcommit
  obtain ⟨queued, hqueued, hcommit⟩ := bind_ok hcommit
  obtain ⟨published, hpublished, hcommit⟩ := bind_ok hcommit
  obtain ⟨⟨bumped, saved⟩, hbumped, hcommit⟩ := bind_ok hcommit
  obtain ⟨hkey, -, htagged, hcheck⟩ := checkpointUpdate_ok hchecked
  have hfound := hcheck.kept howns.found howns.message
  have hwrite := writeCheckpoint_ok hfound howns.message howns.not_settled hwritten
  have hwriteKept : FailuresKept checked written := by
    obtain ⟨artifacts, -, hwritten⟩ := bind_ok hwritten
    cases pure_ok hwritten
    apply FailuresKept.put rfl
    intro old hold hfailed
    change checked.jobs.find job.message.key = some old at hold
    rw [howns.message, hfound] at hold
    cases hold
    rw [howns.leased] at hfailed
    cases hfailed
  obtain ⟨-, hqueuedRuns, -⟩ := enqueueNext_ok hqueued
  obtain ⟨hjobs, hruns, -⟩ := runPublish_ok hpublished
  obtain ⟨hjobs', hruns', -⟩ := auditPublish_ok hcommit
  obtain ⟨hsaved, hbumpedKey, -, hbumpedStatus, hbumpedTag, -⟩ := bumpRun_ok hbumped
  have hkept : FailuresKept store after := by
    apply (checkpointUpdate_keeps hchecked).trans
    apply hwriteKept.trans
    apply (enqueueNext_keeps hqueued).trans
    apply FailuresKept.of_jobs_eq
    rw [hjobs', hsaved]
    exact hjobs
  have hafter : after.runs = store.runs.put bumped := by
    rw [hruns', hsaved]
    rw [hruns, hqueuedRuns, hwrite.runs, hcheck.runs]
  apply h.put hafter
  · exact fun key _ => hkept key
  · have hold : Explained store run := h run (Table.find_eq_some_iff.mp howns.run_found).1
    have hsame : bumped.key = run.key := hbumpedKey.trans hkey
    rw [Option.getD_none] at hbumpedStatus
    rcases htagged with ⟨hstatus, htag⟩ | htagged
    · constructor
      case failed =>
        intro hfailed
        rw [hsame]
        exact hkept _ (hold.failed (by rw [← hstatus, ← hbumpedStatus, hfailed]))
      case partially =>
        intro hpartially
        rw [hsame, hbumpedTag, htag]
        exact (hold.partially (by rw [← hstatus, ← hbumpedStatus, hpartially])).imp_left
          (hkept _)
    · constructor
      case failed =>
        intro hfailed
        rcases htagged.status with hstatus | hstatus
        · rw [hbumpedStatus, hstatus] at hfailed
          cases hfailed
        · rw [hbumpedStatus, hstatus] at hfailed
          cases hfailed
      case partially =>
        intro _
        right
        rw [hbumpedTag]
        exact htagged.tagJob

theorem commitJob_accounted {wait : Nat} {next : Option JobMessage}
    {accepted : Bool} (h : Accounted store)
    (hcommit : commitJob hooks store lease payload now wait next publish = .ok (accepted, after)) :
    Accounted after := by
  rcases commitJob_inv hcommit with ⟨-, rfl⟩ | ⟨-, job, run, howned, hcommitted⟩
  · exact h
  · exact commitOwned_accounted h (owned_some howned) hcommitted

theorem failJob_accounted {errorCode : String} {wait : Nat} {jitter : ℚ} {retryAfter : Option Int}
    {failed : JobRecord} (h : Accounted store)
    (hfail : failJob hooks store lease errorCode now wait jitter retryAfter = .ok (failed, after)) :
    Accounted after := by
  obtain ⟨job, run, signalled, bumped, -, -, -, howned, hevents, hbump⟩ := failJob_inv hfail
  have howns := owned_some howned
  obtain ⟨hafter, hkey, -, hstatus, -⟩ := bumpRun_ok hbump
  have hjobs : after.jobs = store.jobs.put (job.afterFailure (job.retries errorCode) errorCode
      (now + retryDelay job jitter retryAfter)) := by
    rw [hafter]
    exact hevents.jobs
  have hruns : after.runs = store.runs.put bumped := by
    rw [hafter]
    exact congrArg (fun runs => runs.put bumped) hevents.runs
  apply h.put hruns
  · exact fun key _ => howns.put_keeps hjobs rfl key
  · rw [Option.getD_some] at hstatus
    cases hretries : job.retries errorCode with
    | true =>
      rw [hretries, statusAfterFailure, if_pos rfl] at hstatus
      apply explained_of_status
      · rw [hstatus]
        decide
      · rw [hstatus]
        decide
    | false =>
      have hgave : HasFailed after bumped.key := by
        rw [hretries] at hjobs
        refine ⟨job.afterFailure false errorCode (now + retryDelay job jitter retryAfter),
          ?_, ?_, rfl⟩
        · rw [hjobs]
          exact Table.mem_put.mpr (Or.inl rfl)
        · rw [hkey, run_key howns.run_found]
          show job.message.runKey = lease.message.runKey
          rw [howns.message]
      constructor
      case failed => exact fun _ => hgave
      case partially => exact fun _ => Or.inl hgave

/-! ### Actions -/

variable {answered : RunRecord}

theorem cancelBranch_accounted (h : Accounted store)
    (hcancel : cancelBranch hooks store run = .ok (answered, after)) : Accounted after := by
  unfold cancelBranch at hcancel
  split_ifs at hcancel
  obtain ⟨rfl, hkey, -, hstatus, -⟩ := bumpRun_ok hcancel
  apply h.put rfl
  · rintro key hother ⟨failed, hmem, hfailedKey, hfailed⟩
    refine ⟨failed, ?_, hfailedKey, hfailed⟩
    rw [Table.mem_modify]
    refine ⟨failed, hmem, ?_⟩
    rw [if_neg]
    intro htest
    simp only [isCancellable, decide_eq_true_eq] at htest
    rw [hkey] at hother
    exact hother (hfailedKey.symm.trans htest.1)
  · rw [Option.getD_some] at hstatus
    apply explained_of_status
    · rw [hstatus]
      decide
    · rw [hstatus]
      decide

structure Retried (store after : JobStore ρ) (run answered : RunRecord) (now : Int) : Prop where
  stands : (run.status = .partially ∨ run.status = .failed) ∧ run.cancellationRequested = false
  jobs : after.jobs = store.jobs.modify (isRetryable run.key) (JobRecord.putBack now)
    (JobRecord.putBack_key now)
  events : ∀ event, event ∈ after.events → event ∈ store.events ∨
    ∃ job ∈ store.jobs, isRetryable run.key job = true ∧ event.message = job.message
  kept : ∀ event ∈ store.events, event ∈ after.events
  signalled : ∀ job ∈ store.jobs, isRetryable run.key job = true →
    ∃ event ∈ after.events, event.message = job.message ∧ event.status = .pending
  runs : after.runs = store.runs.put answered
  key : answered.key = run.key
  status : answered.status = .running

/-- Each message of a retry is on its way. -/
theorem addRetryEvents_events {messages : List JobMessage} {revision : Nat}
    (h : addRetryEvents hooks store messages now revision = .ok after) :
    (∀ event, event ∈ after.events →
      event ∈ store.events ∨ ∃ message ∈ messages, event.message = message) ∧
    (∀ event ∈ store.events, event ∈ after.events) ∧
    ∀ message ∈ messages, ∃ event ∈ after.events,
      event.message = message ∧ event.status = .pending := by
  induction messages generalizing store with
  | nil =>
    cases pure_ok h
    exact ⟨fun event hevent => Or.inl hevent, fun event hevent => hevent, by rintro message ⟨⟩⟩
  | cons message messages ih =>
    obtain ⟨middle, hmiddle, h⟩ := bind_ok h
    obtain ⟨hfrom, hkept, hadded⟩ := ih h
    obtain ⟨events, hevents, hmiddle⟩ := bind_ok hmiddle
    cases pure_ok hmiddle
    have hmem := fun event => @Table.mem_insert? _ _ _ _ _ _ _ event (insertRow_ok hevents)
    refine ⟨?_, ?_, ?_⟩
    · intro event hevent
      rcases hfrom event hevent with hmid | ⟨other, hother, hmessage⟩
      · rcases (hmem event).mp hmid with hold | rfl
        · exact Or.inl hold
        · exact Or.inr ⟨message, List.mem_cons_self, rfl⟩
      · exact Or.inr ⟨other, List.mem_cons_of_mem _ hother, hmessage⟩
    · intro event hevent
      exact hkept event ((hmem event).mpr (Or.inl hevent))
    · intro other hother
      rcases List.mem_cons.mp hother with rfl | hrest
      · exact ⟨_, hkept _ ((hmem _).mpr (Or.inr rfl)), rfl, rfl⟩
      · exact hadded other hrest

theorem retryBranch_retried {revision : Nat}
    (h : retryBranch hooks store run now revision = .ok (answered, after)) :
    Retried store after run answered now := by
  unfold retryBranch at h
  split_ifs at h with hclosed
  obtain ⟨signalled, hsignalled, h⟩ := bind_ok h
  have hevents := addRetryEvents_ok hsignalled
  obtain ⟨hfrom, hkept, hadded⟩ := addRetryEvents_events hsignalled
  obtain ⟨rfl, hkey, -, hstatus, -⟩ := bumpRun_ok h
  constructor
  case stands =>
    rw [not_or, not_and_or, not_not, not_not, Bool.not_eq_true] at hclosed
    exact hclosed
  case jobs => exact hevents.jobs
  case events =>
    intro event hevent
    refine (hfrom event hevent).imp_right ?_
    rintro ⟨message, hmessage, rfl⟩
    obtain ⟨job, hjob, hsame⟩ := List.mem_map.mp hmessage
    rw [List.mem_filter] at hjob
    exact ⟨job, hjob.1, hjob.2, hsame.symm⟩
  case kept => exact hkept
  case signalled =>
    intro job hjob hretryable
    apply hadded
    exact List.mem_map_of_mem (List.mem_filter.mpr ⟨hjob, hretryable⟩)
  case runs => exact congrArg (fun runs => runs.put answered) hevents.runs
  case key => exact hkey
  case status => exact hstatus

theorem isRetryable_iff {key : RunKey} :
    isRetryable key job = true ↔ job.runKey = key ∧ job.status = .failed := by
  rw [isRetryable, decide_eq_true_eq]

theorem Retried.hasWork_iff (h : Retried store after run answered now) :
    HasWork after run.key ↔ HasFailed store run.key ∨ HasWork store run.key := by
  constructor
  · rintro ⟨job, hjob, hkey, hstatus, event, hevent, hmessage, hpending⟩
    rw [h.jobs, Table.mem_modify] at hjob
    obtain ⟨old, hold, hchanged⟩ := hjob
    cases hretryable : isRetryable run.key old with
    | true => exact Or.inl ⟨old, hold, isRetryable_iff.mp hretryable⟩
    | false =>
      rw [hretryable, if_neg Bool.false_ne_true] at hchanged
      subst hchanged
      rcases h.events event hevent with hbefore | ⟨failed, hfailed, hfailing, -⟩
      · exact Or.inr ⟨old, hold, hkey, hstatus, event, hbefore, hmessage, hpending⟩
      · exact Or.inl ⟨failed, hfailed, isRetryable_iff.mp hfailing⟩
  · rintro (⟨job, hjob, hfailed⟩ | ⟨job, hjob, hkey, hstatus, event, hevent, hwork⟩)
    · have hretryable := isRetryable_iff.mpr hfailed
      refine ⟨job.putBack now, ?_, hfailed.1, rfl, h.signalled job hjob hretryable⟩
      rw [h.jobs, Table.mem_modify]
      exact ⟨job, hjob, if_pos hretryable⟩
    · refine ⟨job, ?_, hkey, hstatus, event, h.kept event hevent, hwork⟩
      rw [h.jobs, Table.mem_modify]
      refine ⟨job, hjob, if_neg ?_⟩
      intro hretryable
      rw [(isRetryable_iff.mp hretryable).2] at hstatus
      cases hstatus

theorem Retried.accounted (h : Accounted store)
    (hretried : Retried store after run answered now) : Accounted after := by
  apply h.put hretried.runs
  · rintro key hother ⟨failed, hmem, hkey, hfailed⟩
    refine ⟨failed, ?_, hkey, hfailed⟩
    rw [hretried.jobs, Table.mem_modify]
    refine ⟨failed, hmem, if_neg ?_⟩
    intro htest
    rw [hretried.key] at hother
    exact hother (hkey.symm.trans (isRetryable_iff.mp htest).1)
  · apply explained_of_status
    · rw [hretried.status]
      decide
    · rw [hretried.status]
      decide

variable {request : ActionRequest}

theorem runAction_accounted {action : Action}
    (h : Accounted store) (haction : runAction hooks store action request = .ok (answered, after)) :
    Accounted after := by
  rcases runAction_ok haction with ⟨rfl, -⟩ | ⟨-, run, acted, -, hacted, hrecorded⟩
  · exact h
  · obtain ⟨hjobs, hruns, -, -⟩ := recordAction_ok hrecorded
    have hbranch : Accounted acted := by
      cases action with
      | cancel => exact cancelBranch_accounted h hacted
      | retry => exact (retryBranch_retried hacted).accounted h
    exact hbranch.of_runs_eq hruns (FailuresKept.of_jobs_eq hjobs)

theorem reviseRun_accounted {key : RunKey} {refresh : Bool} {change : ρ → ρ} (h : Accounted store)
    (hrevise : reviseRun hooks store key refresh change = .ok after) : Accounted after := by
  obtain ⟨run, hrun, hrevise⟩ := bind_ok hrevise
  obtain ⟨⟨bumped, saved⟩, hbump, hrevise⟩ := bind_ok hrevise
  cases pure_ok hrevise
  obtain ⟨rfl, hkey, -, hstatus, htag, -⟩ := bumpRun_ok hbump
  have hold := h run (Table.find_eq_some_iff.mp (getRun_ok hrun)).1
  apply h.put rfl
  · exact fun _ _ hfailed => hfailed
  · constructor
    case failed =>
      intro hfailed
      rw [hkey]
      exact hold.failed (hstatus.symm.trans hfailed)
    case partially =>
      intro hpartially
      rw [hkey, htag]
      exact hold.partially (hstatus.symm.trans hpartially)

/-- Every call leaves states with reasons. -/
theorem execute_accounted {call : Call ρ} {reply : Reply} (h : Accounted store)
    (hexecute : execute hooks store call = .ok (reply, after)) : Accounted after := by
  cases call with
  | createRun tenantId runId documentVersionId =>
    obtain ⟨made, hmade, hexecute⟩ := map_ok_iff.mp hexecute
    cases hexecute
    exact createRun_accounted h hmade
  | enqueue message now =>
    replace hexecute := rest_ok hexecute
    obtain ⟨made, hmade, hexecute⟩ := bind_ok hexecute
    cases pure_ok hexecute
    exact h.of_runs_eq (enqueue_ok hmade).2.1 (enqueue_keeps hmade)
  | claimJob message owner now leaseSeconds =>
    obtain ⟨made, hmade, hexecute⟩ := map_ok_iff.mp hexecute
    cases hexecute
    exact claimJob_accounted h hmade
  | heartbeat lease now elapsed leaseSeconds =>
    obtain ⟨made, hmade, hexecute⟩ := map_ok_iff.mp hexecute
    cases hexecute
    exact heartbeat_accounted h hmade
  | commitJob lease payload now wait next publish =>
    obtain ⟨made, hmade, hexecute⟩ := map_ok_iff.mp hexecute
    cases hexecute
    exact commitJob_accounted h hmade
  | failJob lease errorCode now wait jitter retryAfter =>
    obtain ⟨made, hmade, hexecute⟩ := map_ok_iff.mp hexecute
    cases hexecute
    exact failJob_accounted h hmade
  | cancelRun request | retryRun request =>
    obtain ⟨made, hmade, hexecute⟩ := map_ok_iff.mp hexecute
    cases hexecute
    exact runAction_accounted h hmade
  | markOutbox key eventId now sent expectedAttempts =>
    obtain ⟨made, hmade, hexecute⟩ := map_ok_iff.mp hexecute
    cases hexecute
    have hevents := markOutbox_ok hmade
    exact h.of_runs_eq hevents.runs (FailuresKept.of_jobs_eq hevents.jobs)
  | reviseRun key refresh change =>
    obtain ⟨made, hmade, hexecute⟩ := map_ok_iff.mp hexecute
    cases hexecute
    exact reviseRun_accounted h hmade
  | elsewhere change =>
    cases hexecute
    exact h.of_runs_eq rfl (FailuresKept.refl store)

theorem reachable_accounted (h : Reachable hooks store) : Accounted store := by
  obtain ⟨rest, calls, rfl⟩ := h
  apply Machine.after_invariant
  · intro store call hstore
    unfold next
    cases hexecute : execute hooks store call with
    | error error => exact hstore
    | ok made => exact execute_accounted hstore hexecute
  · intro run hrun
    exact absurd hrun Table.not_mem_empty

/-- A run stands still for a reason: after every list of calls a failed run has a failed job, and
a partial one has a failed job or a published tag job. -/
theorem runs_stopped_by_jobs (hooks : Hooks ρ) (rest : ρ) (calls : List (Call ρ)) :
    (∀ run ∈ (Machine.after (next hooks) (JobStore.initial rest) calls).runs,
      run.status = .failed →
        HasFailed (Machine.after (next hooks) (JobStore.initial rest) calls) run.key) ∧
    ∀ run ∈ (Machine.after (next hooks) (JobStore.initial rest) calls).runs,
      run.status = .partially →
        HasFailed (Machine.after (next hooks) (JobStore.initial rest) calls) run.key ∨
          run.tagJob.isSome = true := by
  have haccounted := reachable_accounted (⟨rest, calls, rfl⟩ :
    Reachable hooks (Machine.after (next hooks) (JobStore.initial rest) calls))
  exact ⟨fun run hrun => (haccounted run hrun).failed,
    fun run hrun => (haccounted run hrun).partially⟩

/-- A retry that is not replayed makes work exactly if a job of the run had failed or work was left;
it leaves none only to a partial run whose tags were published. -/
theorem retry_makes_work (hooks : Hooks ρ) (store after : JobStore ρ) (request : ActionRequest)
    (answered : RunRecord) (hreachable : Reachable hooks store)
    (hfresh : storedAnswer hooks store .retry request = none)
    (hretry : runAction hooks store .retry request = .ok (answered, after)) :
    answered.status = .running ∧
    (HasWork after request.key ↔ HasFailed store request.key ∨ HasWork store request.key) ∧
    (¬HasWork after request.key →
      ∃ run, store.runs.find request.key = some run ∧ run.status = .partially ∧
        run.tagJob.isSome = true) := by
  obtain ⟨-, stored, hstored, -⟩ | ⟨-, run, acted, hrun, hacted, hrecorded⟩ := runAction_ok hretry
  · rw [hfresh] at hstored
    cases hstored
  obtain ⟨hjobs, -, -, hevents⟩ := recordAction_ok hrecorded
  have hretried := retryBranch_retried hacted
  have hkey : run.key = request.key := run_key hrun
  have hwork : HasWork after request.key ↔
      HasFailed store request.key ∨ HasWork store request.key := by
    rw [← hkey, ← hretried.hasWork_iff]
    unfold HasWork
    rw [hjobs, hevents]
  refine ⟨hretried.status, hwork, ?_⟩
  intro hidle
  rw [hwork, not_or] at hidle
  have hexplained := reachable_accounted hreachable run (Table.find_eq_some_iff.mp hrun).1
  refine ⟨run, hrun, ?_⟩
  rcases hretried.stands.1 with hpartially | hfailed
  · have hcause := hexplained.partially hpartially
    rw [hkey] at hcause
    exact ⟨hpartially, hcause.resolve_left hidle.1⟩
  · have hcause := hexplained.failed hfailed
    rw [hkey] at hcause
    exact absurd hcause hidle.1

/-! ### A published run -/

def publishingHooks : Hooks Unit :=
  { sampleHooks with
    decode := fun payload =>
      { isObject := true
        schema := if payload = [1] then "local_extract_checkpoint_v1" else "local_tag_checkpoint_v1"
        stageStatus := "complete", pipelineProfile := none, coverage := none }
    checkTag := fun _ _ _ _ _ => .ok
      { pagesTotal := 1, pagesProcessed := 1, pagesUnreadable := 0, pagesUnprocessed := 0
        chunksDiscovered := 1, chunksProcessed := 1, claimsDiscovered := 1, claimsDecided := 0
        claimsNeedsReview := 1, fullScope := true, complete := true } }

def stageMessage (stage : String) : JobMessage :=
  { sampleMessage with jobId := stage, stage := stage }

def stageLease (stage : String) (start : Int) : JobLease :=
  { sampleLease "worker" 1 start with message := stageMessage stage }

def publishedCalls : List (Call Unit) :=
  [.createRun "tenant" "run" "version", .enqueue (stageMessage "extract") 0,
    .claimJob (stageMessage "extract") "worker" 0 10,
    .commitJob (stageLease "extract" 0) [1] 1 0 (some (stageMessage "tag")) none,
    .claimJob (stageMessage "tag") "worker" 2 10,
    .commitJob (stageLease "tag" 2) [2] 3 0 none (some fun rest events => .ok (rest, events))]

def publishedStore : JobStore Unit :=
  Machine.after (next publishingHooks) (JobStore.initial ()) publishedCalls

def retryRequest (revision : Nat) (now : Int) : ActionRequest where
  tenantId := "tenant"
  runId := "run"
  expectedRevision := revision
  idempotencyKey := "retry-key-000001"
  reason := "try again"
  actorSub := "reviewer"
  now := now

theorem retry_published_idle :
    Reachable publishingHooks publishedStore ∧
    storedAnswer publishingHooks publishedStore .retry (retryRequest 5 4) = none ∧
    ∃ answered after,
      runAction publishingHooks publishedStore .retry (retryRequest 5 4) = .ok (answered, after) ∧
      answered.status = .running ∧ ¬HasWork after ("tenant", "run") := by
  have hreturns : Checked.Returns
      (runAction publishingHooks publishedStore .retry (retryRequest 5 4)) fun made =>
        made.1.status = .running ∧ ¬HasWork made.2 ("tenant", "run") := by
    decide +kernel
  obtain ⟨made, hretry, hidle⟩ := hreturns
  exact ⟨⟨(), publishedCalls, rfl⟩, by decide +kernel, made.1, made.2, hretry, hidle⟩

def failedCalls : List (Call Unit) :=
  [.createRun "tenant" "run" "version", .enqueue sampleMessage 0,
    .claimJob sampleMessage "worker" 0 10,
    .failJob (sampleLease "worker" 1 0) "PARSE_FAILED" 1 0 0 none]

def failedStore : JobStore Unit :=
  Machine.after (next sampleHooks) (JobStore.initial ()) failedCalls

theorem retry_makes_work_failed :
    ∃ answered after,
      runAction sampleHooks failedStore .retry (retryRequest 3 4) = .ok (answered, after) ∧
      answered.status = .running ∧ HasWork after ("tenant", "run") := by
  have haccepted : Checked.Returns
      (runAction sampleHooks failedStore .retry (retryRequest 3 4)) fun _ => True := by
    decide +kernel
  obtain ⟨made, hretry, -⟩ := haccepted
  have hwork := retry_makes_work sampleHooks failedStore made.2 (retryRequest 3 4) made.1
    ⟨(), failedCalls, rfl⟩ (by decide +kernel) hretry
  exact ⟨made.1, made.2, hretry, hwork.1, hwork.2.1.mpr (Or.inl (by decide +kernel))⟩

end ProofOps.Adapters.Local
