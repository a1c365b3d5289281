import ProofOps.Adapters.Local.JobStore
import ProofOps.Foundation.Checked

/-!
# What a transaction can do

Every transaction moves the store along one preorder: fencing tokens only grow,
a lease is entered only under a new token, a settled job is never written again,
a cancelled run stays cancelled and gets no new job, and a stored artifact stays
what it is.  All later statements about runs are read off this preorder.
-/

namespace ProofOps.Adapters.Local

open Foundation Foundation.Checked

variable {ρ : Type}

/-! ### The preorder -/

structure JobEvolves (before after : JobRecord) : Prop where
  message : after.message = before.message
  token : before.fencingToken ≤ after.fencingToken
  settled : before.status.Settled → after = before
  lease : after.status = .leased → after.fencingToken = before.fencingToken →
    before.status = .leased

structure RunEvolves (before after : RunRecord) : Prop where
  key : after.key = before.key
  document : after.documentVersionId = before.documentVersionId
  cancelled : before.cancellationRequested = true → after.cancellationRequested = true
  status : before.cancellationRequested = true → before.status = .cancelled →
    after.status = .cancelled

/-- What a store keeps over the calls. -/
structure Evolves (before after : JobStore ρ) : Prop where
  jobs : ∀ {key job}, before.jobs.find key = some job →
    ∃ later, after.jobs.find key = some later ∧ JobEvolves job later
  created : ∀ {key job run}, after.jobs.find key = some job → before.jobs.find key = none →
    before.runs.find job.runKey = some run → run.cancellationRequested = false
  runs : ∀ {key run}, before.runs.find key = some run →
    ∃ later, after.runs.find key = some later ∧ RunEvolves run later
  artifacts : ∀ {key artifact}, before.artifacts.find key = some artifact →
    after.artifacts.find key = some artifact

theorem JobEvolves.refl (job : JobRecord) : JobEvolves job job :=
  ⟨rfl, le_rfl, fun _ => rfl, fun h _ => h⟩

theorem JobEvolves.trans {first second third : JobRecord} (h : JobEvolves first second)
    (h' : JobEvolves second third) : JobEvolves first third where
  message := h'.message.trans h.message
  token := h.token.trans h'.token
  settled := by
    intro hsettled
    have hsecond := h.settled hsettled
    rw [h'.settled (by rwa [hsecond]), hsecond]
  lease := by
    intro hleased htoken
    -- The token never fell, so it is the same in the middle.
    have hmiddle : third.fencingToken = second.fencingToken := by
      have := h.token
      have := h'.token
      omega
    exact h.lease (h'.lease hleased hmiddle) (hmiddle.symm.trans htoken)

theorem RunEvolves.refl (run : RunRecord) : RunEvolves run run :=
  ⟨rfl, rfl, id, fun _ h => h⟩

theorem RunEvolves.trans {first second third : RunRecord} (h : RunEvolves first second)
    (h' : RunEvolves second third) : RunEvolves first third where
  key := h'.key.trans h.key
  document := h'.document.trans h.document
  cancelled := fun hflag => h'.cancelled (h.cancelled hflag)
  status := fun hflag hstatus => h'.status (h.cancelled hflag) (h.status hflag hstatus)

theorem JobEvolves.runKey {before after : JobRecord} (h : JobEvolves before after) :
    after.runKey = before.runKey := by
  unfold JobRecord.runKey
  rw [h.message]

variable {before first second store third : JobStore ρ} {job : JobRecord} {run : RunRecord}

namespace Evolves

theorem refl (store : JobStore ρ) : Evolves store store where
  jobs := fun {_ job} h => ⟨job, h, JobEvolves.refl job⟩
  created := fun h hnone => by simp [h] at hnone
  runs := fun {_ run} h => ⟨run, h, RunEvolves.refl run⟩
  artifacts := id

theorem trans (h : Evolves first second) (h' : Evolves second third) : Evolves first third where
  jobs := by
    intro key job hjob
    obtain ⟨later, hlater, hevolves⟩ := h.jobs hjob
    obtain ⟨last, hlast, hevolves'⟩ := h'.jobs hlater
    exact ⟨last, hlast, hevolves.trans hevolves'⟩
  created := by
    intro key job run hjob hnone hrun
    cases hmiddle : second.jobs.find key with
    | none =>
      obtain ⟨later, hlater, hevolves⟩ := h.runs hrun
      have hopen := h'.created hjob hmiddle hlater
      by_contra hflag
      have hcancelled := hevolves.cancelled (by simpa using hflag)
      rw [hopen] at hcancelled
      cases hcancelled
    | some middle =>
      obtain ⟨last, hlast, hevolves⟩ := h'.jobs hmiddle
      rw [hjob] at hlast
      cases hlast
      rw [hevolves.runKey] at hrun
      exact h.created hmiddle hnone hrun
  runs := by
    intro key run hrun
    obtain ⟨later, hlater, hevolves⟩ := h.runs hrun
    obtain ⟨last, hlast, hevolves'⟩ := h'.runs hlater
    exact ⟨last, hlast, hevolves.trans hevolves'⟩
  artifacts := fun hartifact => h'.artifacts (h.artifacts hartifact)

theorem of_eq {after : JobStore ρ} (hjobs : after.jobs = before.jobs)
    (hruns : after.runs = before.runs) (hartifacts : after.artifacts = before.artifacts) :
    Evolves before after where
  jobs := fun {_ job} h => ⟨job, hjobs ▸ h, JobEvolves.refl job⟩
  created := fun h hnone => by
    rw [hjobs, hnone] at h
    cases h
  runs := fun {_ run} h => ⟨run, hruns ▸ h, RunEvolves.refl run⟩
  artifacts := fun h => hartifacts ▸ h

theorem put (hold : ∀ old, store.jobs.find job.key = some old → JobEvolves old job)
    (hnew : store.jobs.find job.key = none → ∀ run, store.runs.find job.runKey = some run →
      run.cancellationRequested = false) :
    Evolves store { store with jobs := store.jobs.put job } where
  jobs := by
    intro key other hother
    rw [Table.find_put]
    by_cases hkey : job.key = key
    · subst hkey
      exact ⟨job, if_pos rfl, hold other hother⟩
    · exact ⟨other, by rw [if_neg hkey, hother], JobEvolves.refl other⟩
  created := by
    intro key made run hmade hnone hrun
    rw [Table.find_put] at hmade
    split_ifs at hmade with hkey
    · subst hkey
      cases hmade
      exact hnew hnone run hrun
    · rw [hnone] at hmade
      cases hmade
  runs := fun {_ run} h => ⟨run, h, RunEvolves.refl run⟩
  artifacts := id

theorem putJob {old : JobRecord} (hold : store.jobs.find job.key = some old)
    (hevolves : JobEvolves old job) : Evolves store { store with jobs := store.jobs.put job } := by
  refine put (fun other hother => ?_) fun hnone => ?_
  · rw [hold] at hother
    cases hother
    exact hevolves
  · rw [hold] at hnone
    cases hnone

theorem newJob (hfree : store.jobs.find job.key = none)
    (hopen : ∀ run, store.runs.find job.runKey = some run → run.cancellationRequested = false) :
    Evolves store { store with jobs := store.jobs.put job } := by
  refine put (fun old hold => ?_) fun _ => hopen
  rw [hfree] at hold
  cases hold

theorem modifyJobs {test : JobRecord → Bool} {change : JobRecord → JobRecord}
    {keeps : ∀ job, JobRecord.key (change job) = JobRecord.key job}
    (hevolves : ∀ job, test job = true → JobEvolves job (change job)) :
    Evolves store { store with jobs := store.jobs.modify test change keeps } where
  jobs := by
    intro key job hjob
    rw [Table.find_modify, hjob, Option.map_some]
    refine ⟨_, rfl, ?_⟩
    split_ifs with htest
    · exact hevolves job htest
    · exact JobEvolves.refl job
  created := by
    intro key made run hmade hnone _
    rw [Table.find_modify, hnone] at hmade
    cases hmade
  runs := fun {_ run} h => ⟨run, h, RunEvolves.refl run⟩
  artifacts := id

theorem putRun {old : RunRecord} (hold : store.runs.find run.key = some old)
    (hevolves : RunEvolves old run) : Evolves store { store with runs := store.runs.put run } where
  jobs := fun {_ job} h => ⟨job, h, JobEvolves.refl job⟩
  created := fun h hnone => by
    simp [h] at hnone
  runs := by
    intro key other hother
    rw [Table.find_put]
    by_cases hkey : run.key = key
    · subst hkey
      rw [hold] at hother
      cases hother
      exact ⟨run, if_pos rfl, hevolves⟩
    · exact ⟨other, by rw [if_neg hkey, hother], RunEvolves.refl other⟩
  artifacts := id

end Evolves

variable {hooks : Hooks ρ} {key : RunKey}

theorem getRun_ok_iff : getRun hooks store key = .ok run ↔ store.runs.find key = some run ∧
    hooks.versionDeleted store.rest run.tenantId run.documentVersionId = false := by
  unfold getRun
  cases hfound : store.runs.find key with
  | none => simp
  | some found =>
    cases hdeleted : hooks.versionDeleted store.rest found.tenantId found.documentVersionId with
    | false =>
      simp only [hdeleted, Bool.false_eq_true, if_false, Except.ok.injEq, Option.some.injEq]
      constructor
      · rintro rfl
        exact ⟨rfl, hdeleted⟩
      · exact And.left
    | true =>
      simp only [hdeleted, if_true, reduceCtorEq, Option.some.injEq, false_iff, not_and]
      rintro rfl
      rw [hdeleted]
      exact Bool.noConfusion

theorem getRun_ok (h : getRun hooks store key = .ok run) : store.runs.find key = some run :=
  (getRun_ok_iff.mp h).1

variable {message : JobMessage}

theorem getJob_ok (h : getJob store message = .ok job) :
    store.jobs.find message.key = some job ∧ job.message = message := by
  unfold getJob at h
  cases hfound : store.jobs.find message.key with
  | none => simp [hfound] at h
  | some found =>
    simp only [hfound] at h
    split_ifs at h with hmessage
    cases h
    exact ⟨rfl, hmessage⟩

theorem run_key (h : store.runs.find key = some run) : run.key = key :=
  (Table.find_eq_some_iff.mp h).2

structure Owns (store : JobStore ρ) (lease : JobLease) (job : JobRecord) (run : RunRecord) : Prop
    where
  found : store.jobs.find lease.message.key = some job
  message : job.message = lease.message
  run_found : store.runs.find lease.message.runKey = some run
  open_run : run.cancellationRequested = false
  leased : job.status = .leased
  token : job.fencingToken = lease.fencingToken

variable {lease : JobLease}

theorem Owns.found_key (h : Owns store lease job run) : store.jobs.find job.key = some job := by
  unfold JobRecord.key
  rw [h.message]
  exact h.found

theorem Owns.not_settled (h : Owns store lease job run) : ¬job.status.Settled := by
  rintro (hstatus | hstatus | hstatus) <;> rw [h.leased] at hstatus <;> cases hstatus

variable {now : Int}

/-- What is owned matches its lease. -/
theorem owned_some
    (h : owned hooks store lease now = some (job, run)) : Owns store lease job run := by
  unfold owned at h
  cases hjob : getJob store lease.message with
  | error error => simp [hjob] at h
  | ok found =>
    cases hrun : getRun hooks store lease.message.runKey with
    | error error => simp [hjob, hrun] at h
    | ok foundRun =>
      simp only [hjob, hrun] at h
      split_ifs at h with hrefused
      cases h
      rw [not_or, not_or, not_or, not_not, not_not] at hrefused
      obtain ⟨hopen, hleased, htoken, -⟩ := hrefused
      exact
        { found := (getJob_ok hjob).1
          message := (getJob_ok hjob).2
          run_found := getRun_ok hrun
          open_run := by simpa using hopen
          leased := hleased
          token := htoken }

theorem claimable_some (h : claimable hooks store message now = some (job, run)) :
    store.jobs.find message.key = some job ∧ job.message = message ∧
      store.runs.find message.runKey = some run ∧ run.cancellationRequested = false ∧
      job.status ≠ .failed ∧ ¬job.status.Settled := by
  unfold claimable at h
  cases hjob : getJob store message with
  | error error => simp [hjob] at h
  | ok found =>
    cases hrun : getRun hooks store message.runKey with
    | error error => simp [hjob, hrun] at h
    | ok foundRun =>
      simp only [hjob, hrun] at h
      split_ifs at h with hclosed hready
      cases h
      rw [not_or] at hclosed
      refine ⟨(getJob_ok hjob).1, (getJob_ok hjob).2, getRun_ok hrun, by simpa using hclosed.1,
        fun hstatus => ?_, ?_⟩
      · simp [hstatus] at hready
      · rintro (hstatus | hstatus | hstatus) <;> simp [hstatus] at hready

/-! ### Writing -/

variable {refresh : Bool}

theorem refreshCoverage_ok {refreshed : RunRecord}
    (h : refreshCoverage hooks store run refresh = .ok refreshed) :
    refreshed.key = run.key ∧ refreshed.documentVersionId = run.documentVersionId ∧
      refreshed.status = run.status ∧ refreshed.tagJob = run.tagJob ∧
      refreshed.cancellationRequested = run.cancellationRequested := by
  unfold refreshCoverage at h
  split at h
  · dsimp only at h
    split_ifs at h
    cases h
    exact ⟨rfl, rfl, rfl, rfl, rfl⟩
  · cases h
    exact ⟨rfl, rfl, rfl, rfl, rfl⟩

variable {bumped : RunRecord} {status : Option RunStatus} {after : JobStore ρ}

/-- A revision of a run is the next one. -/
theorem bumpRun_ok (h : bumpRun hooks store run status refresh = .ok (bumped, after)) :
    after = { store with runs := store.runs.put bumped } ∧ bumped.key = run.key ∧
      bumped.documentVersionId = run.documentVersionId ∧
      bumped.status = status.getD run.status ∧ bumped.tagJob = run.tagJob ∧
      bumped.cancellationRequested = run.cancellationRequested := by
  obtain ⟨refreshed, hrefreshed, h⟩ := bind_ok h
  cases pure_ok h
  obtain ⟨hkey, hdocument, hstatus, hkept⟩ := refreshCoverage_ok hrefreshed
  refine ⟨rfl, hkey, hdocument, ?_, hkept⟩
  show status.getD refreshed.status = status.getD run.status
  rw [hstatus]

theorem bumpRun_evolves {old : RunRecord}
    (h : bumpRun hooks store run status refresh = .ok (bumped, after))
    (hold : store.runs.find run.key = some old)
    (hdocument : run.documentVersionId = old.documentVersionId)
    (hopen : old.cancellationRequested = false) : Evolves store after := by
  obtain ⟨rfl, hkey, hbumpedDocument, -⟩ := bumpRun_ok h
  refine Evolves.putRun (hkey ▸ hold) ?_
  exact
    { key := hkey.trans (run_key hold).symm
      document := hbumpedDocument.trans hdocument
      cancelled := fun hflag => by
        rw [hopen] at hflag
        cases hflag
      status := fun hflag => by
        rw [hopen] at hflag
        cases hflag }

theorem insertRow_ok {α κ : Type} [DecidableEq κ] {key : α → κ} {table after : Table α key} {row : α}
    (h : insertRow table row = .ok after) : table.insert? row = some after :=
  Table.insertOr_ok h

structure OnlyEvents (before after : JobStore ρ) : Prop where
  jobs : after.jobs = before.jobs
  runs : after.runs = before.runs
  artifacts : after.artifacts = before.artifacts
  rest : after.rest = before.rest

theorem OnlyEvents.refl (store : JobStore ρ) : OnlyEvents store store :=
  ⟨rfl, rfl, rfl, rfl⟩

theorem OnlyEvents.trans (h : OnlyEvents first second)
    (h' : OnlyEvents second third) : OnlyEvents first third :=
  ⟨h'.jobs.trans h.jobs, h'.runs.trans h.runs, h'.artifacts.trans h.artifacts, h'.rest.trans h.rest⟩

theorem OnlyEvents.evolves (h : OnlyEvents before after) : Evolves before after :=
  Evolves.of_eq h.jobs h.runs h.artifacts

theorem addEvent_ok {now : ℚ} {cause : String}
    (h : addEvent hooks store message now cause = .ok after) : OnlyEvents store after := by
  obtain ⟨events, -, h⟩ := bind_ok h
  cases pure_ok h
  exact ⟨rfl, rfl, rfl, rfl⟩

/-- A retry adds events only. -/
theorem addRetryEvents_ok {messages : List JobMessage} {revision : Nat}
    (h : addRetryEvents hooks store messages now revision = .ok after) :
    OnlyEvents store after := by
  induction messages generalizing store with
  | nil =>
    cases pure_ok h
    exact OnlyEvents.refl _
  | cons message messages ih =>
    obtain ⟨middle, hmiddle, h⟩ := bind_ok h
    exact (addEvent_ok hmiddle).trans (ih h)

theorem createRun_evolves {tenantId runId documentVersionId : String}
    (h : createRun store tenantId runId documentVersionId = .ok after) : Evolves store after := by
  obtain ⟨runs, hruns, h⟩ := bind_ok h
  cases pure_ok h
  have hinsert := insertRow_ok hruns
  exact
    { jobs := fun {_ job} hjob => ⟨job, hjob, JobEvolves.refl job⟩
      created := fun hjob hnone => by
        simp [hjob] at hnone
      runs := by
        intro key run hrun
        refine ⟨run, ?_, RunEvolves.refl run⟩
        rw [Table.find_insert? hinsert]
        -- The inserted key was free, so it is not the key of an old run.
        split_ifs with hkey
        · have hfree := Table.find_of_insert? hinsert
          rw [hkey, hrun] at hfree
          cases hfree
        · exact hrun
      artifacts := id }

theorem occupant_none (h : occupant store message = none) :
    store.jobs.find message.key = none := by
  rw [Table.find_eq_none_iff]
  intro job hjob hkey
  unfold occupant at h
  rw [List.find?_eq_none] at h
  simp only [JobRecord.key, JobMessage.key, Prod.mk.injEq] at hkey
  obtain ⟨htenant, hrun, hid⟩ := hkey
  have hmem : job ∈ jobsOf store message.runKey := by
    refine List.mem_filter.mpr ⟨hjob, ?_⟩
    simp [JobRecord.runKey, JobMessage.runKey, htenant, hrun]
  exact h job hmem (by simp [hid])

theorem enqueue_ok (h : enqueue hooks store message now = .ok after) :
    Evolves store after ∧ after.runs = store.runs ∧ after.rest = store.rest ∧
      ∃ run, store.runs.find message.runKey = some run ∧ run.cancellationRequested = false := by
  obtain ⟨run, hrun, h⟩ := bind_ok h
  have hfound := getRun_ok hrun
  split_ifs at h with hclosed
  have hopen : run.cancellationRequested = false := by
    rw [not_or] at hclosed
    simpa using hclosed.1
  cases hoccupant : occupant store message with
  | some existing =>
    simp only [hoccupant] at h
    split_ifs at h
    cases h
    exact ⟨Evolves.refl store, rfl, rfl, run, hfound, hopen⟩
  | none =>
    simp only [hoccupant] at h
    have hevent := addEvent_ok h
    have hnew : Evolves store
        { store with jobs := store.jobs.put (JobRecord.fresh message now) } := by
      refine Evolves.newJob (occupant_none hoccupant) fun other hother => ?_
      change store.runs.find message.runKey = some other at hother
      rw [hfound] at hother
      cases hother
      exact hopen
    exact ⟨hnew.trans hevent.evolves, hevent.runs, hevent.rest, run, hfound, hopen⟩

theorem supersedeTags_evolves (store : JobStore ρ) (key : RunKey) :
    Evolves store (supersedeTags store key) := by
  refine Evolves.trans (Evolves.modifyJobs fun job htest => ?_) (Evolves.of_eq rfl rfl rfl)
  have hopen : job.status = .pending ∨ job.status = .leased := by
    simp only [isOpenTagJob, Bool.and_eq_true, Bool.or_eq_true, beq_iff_eq] at htest
    exact htest.2
  exact
    { message := rfl
      token := Nat.le_succ _
      settled := fun hsettled => by
        rcases hopen with hstatus | hstatus <;> simp [JobStatus.Settled, hstatus] at hsettled
      lease := fun hleased => by cases hleased }

theorem guardExtractContinuation_ok (h : guardExtractContinuation hooks store run now = .ok after) :
    Evolves store after ∧ after.runs = store.runs ∧ after.artifacts = store.artifacts ∧
      after.rest = store.rest ∧ ∀ {key job}, store.jobs.find key = some job → job.message.stage ≠ "tag" →
        after.jobs.find key = some job := by
  unfold guardExtractContinuation at h
  split_ifs at h
  cases h
  refine ⟨supersedeTags_evolves store run.key, rfl, rfl, rfl, fun {key job} hjob hstage => ?_⟩
  unfold supersedeTags
  rw [Table.find_modify, hjob, Option.map_some, if_neg]
  simp [isOpenTagJob, isTagJob, hstage]

theorem claimGuard_ok (h : claimGuard hooks store message run now = .ok after) :
    Evolves store after ∧ after.runs = store.runs ∧ after.rest = store.rest ∧
      ∀ {job}, store.jobs.find message.key = some job → job.message = message →
        after.jobs.find message.key = some job := by
  unfold claimGuard at h
  split_ifs at h with hextract
  · obtain ⟨hevolves, hruns, -, hrest, hkept⟩ := guardExtractContinuation_ok h
    refine ⟨hevolves, hruns, hrest, fun hjob hmessage => hkept hjob ?_⟩
    rw [hmessage, hextract.1]
    decide
  · cases h
    exact ⟨Evolves.refl store, rfl, rfl, fun hjob _ => hjob⟩

variable {leaseSeconds : Int} {granted : Option JobLease}

theorem claimJob_inv {owner : String}
    (h : claimJob hooks store message owner now leaseSeconds = .ok (granted, after)) :
    (granted = none ∧ after = store) ∨
      ∃ job run guarded leases bumped, checkTime now leaseSeconds = .ok ⟨⟩ ∧
        PyText.nonBlank owner = true ∧ claimable hooks store message now = some (job, run) ∧
        claimGuard hooks store message run now = .ok guarded ∧
        granted = some (newLease job message owner now leaseSeconds) ∧
        bumpRun hooks
            { guarded with
              jobs := guarded.jobs.put (job.claimed owner now leaseSeconds), leases := leases }
            run (some .running) false = .ok (bumped, after) := by
  obtain ⟨⟨⟩, htime, h⟩ := bind_ok h
  split_ifs at h with howner
  cases hclaimable : claimable hooks store message now with
  | none =>
    simp only [hclaimable, Except.ok.injEq, Prod.mk.injEq] at h
    exact Or.inl ⟨h.1.symm, h.2.symm⟩
  | some found =>
    obtain ⟨job, run⟩ := found
    simp only [hclaimable] at h
    cases hguard : claimGuard hooks store message run now with
    | error error =>
      simp only [hguard, Except.ok.injEq, Prod.mk.injEq] at h
      exact Or.inl ⟨h.1.symm, h.2.symm⟩
    | ok guarded =>
      simp only [hguard] at h
      obtain ⟨leases, -, h⟩ := bind_ok h
      obtain ⟨⟨bumped, saved⟩, hbump, h⟩ := bind_ok h
      obtain ⟨rfl, rfl⟩ := h
      exact Or.inr ⟨job, run, guarded, leases, bumped, htime, by simpa using howner, rfl, hguard,
        rfl, hbump⟩

theorem claimJob_ok {owner : String}
    (h : claimJob hooks store message owner now leaseSeconds = .ok (granted, after)) :
    Evolves store after ∧ (granted = none → after = store) ∧ ∀ lease, granted = some lease →
      lease.message = message ∧ ∃ job run, store.jobs.find message.key = some job ∧
        store.runs.find message.runKey = some run ∧ run.cancellationRequested = false ∧
        after.jobs.find message.key = some (job.claimed owner now leaseSeconds) ∧
        lease.fencingToken = job.fencingToken + 1 := by
  rcases claimJob_inv h with ⟨rfl, rfl⟩ |
    ⟨job, run, guarded, leases, bumped, -, -, hclaimable, hguard, rfl, hbump⟩
  · exact ⟨Evolves.refl after, fun _ => rfl, nofun⟩
  obtain ⟨hjob, hmessage, hrun, hopen, -, hunsettled⟩ := claimable_some hclaimable
  obtain ⟨hguarded, hguardedRuns, -, hkept⟩ := claimGuard_ok hguard
  have hheld := hkept hjob hmessage
  have hkey : (job.claimed owner now leaseSeconds).key = message.key := by
    show job.message.key = message.key
    rw [hmessage]
  have hclaimed : JobEvolves job (job.claimed owner now leaseSeconds) :=
    { message := rfl
      token := Nat.le_succ _
      settled := fun hsettled => absurd hsettled hunsettled
      lease := fun _ htoken => by
        have : job.fencingToken + 1 = job.fencingToken := htoken
        omega }
  have hput : Evolves guarded
      { guarded with
        jobs := guarded.jobs.put (job.claimed owner now leaseSeconds), leases := leases } :=
    (Evolves.putJob (hkey ▸ hheld) hclaimed).trans (Evolves.of_eq rfl rfl rfl)
  have hfound : guarded.runs.find run.key = some run := by
    rw [hguardedRuns, run_key hrun]
    exact hrun
  refine ⟨hguarded.trans (hput.trans (bumpRun_evolves hbump hfound rfl hopen)), nofun, ?_⟩
  rintro lease hlease
  cases hlease
  refine ⟨rfl, job, run, hjob, hrun, hopen, ?_, rfl⟩
  rw [(bumpRun_ok hbump).1]
  rw [Table.find_put, if_pos hkey]

theorem heartbeat_inv {renewed : JobLease} {elapsed : Nat}
    (h : heartbeat hooks store lease now elapsed leaseSeconds = .ok (renewed, after)) :
    ∃ job run heartbeatAt leaseUntil, Owns store lease job run ∧
      after = { store with jobs := store.jobs.put { job with heartbeatAt, leaseUntil } } := by
  replace h := rest_ok h
  cases howned : owned hooks store lease (now + elapsed) with
  | none => simp [howned] at h
  | some found =>
    simp only [howned, pure_ok_iff, Prod.mk.injEq] at h
    exact ⟨found.1, found.2, _, _, owned_some howned, h.2.symm⟩

theorem heartbeat_ok {renewed : JobLease} {elapsed : Nat}
    (h : heartbeat hooks store lease now elapsed leaseSeconds = .ok (renewed, after)) :
    Evolves store after ∧ ∃ job run, Owns store lease job run := by
  obtain ⟨job, run, heartbeatAt, leaseUntil, howns, rfl⟩ := heartbeat_inv h
  refine ⟨Evolves.putJob howns.found_key ?_, job, run, howns⟩
  exact
    { message := rfl
      token := le_rfl
      settled := fun hsettled => absurd hsettled howns.not_settled
      lease := fun _ _ => howns.leased }

/-! ### Committing -/

variable {updated : RunRecord} {payload : Bytes}

theorem parseUpdate_ok {next : Option JobMessage}
    (h : parseUpdate hooks store run message payload next = .ok updated) :
    updated.key = run.key ∧ updated.documentVersionId = run.documentVersionId ∧
      updated.status = run.status ∧ updated.tagJob = run.tagJob := by
  replace h := rest_ok h
  dsimp only at h
  split_ifs at h
  · replace h := rest_ok h
    cases pure_ok h
    exact ⟨rfl, rfl, rfl, rfl⟩
  · cases pure_ok h
    exact ⟨rfl, rfl, rfl, rfl⟩

structure Checked (store checked : JobStore ρ) (message : JobMessage) : Prop where
  evolves : Evolves store checked
  runs : checked.runs = store.runs
  artifacts : checked.artifacts = store.artifacts
  rest : checked.rest = store.rest
  kept : ∀ {job}, store.jobs.find message.key = some job → job.message = message →
    checked.jobs.find message.key = some job

theorem checkExtracted_ok {next : Option JobMessage}
    (h : checkExtracted hooks store run message payload next = .ok ()) :
    message.stage = "extract" := by
  replace h := rest_ok h
  split_ifs at h with hstage
  exact hstage.1

variable {checked : JobStore ρ}

theorem extractUpdate_ok {next : Option JobMessage}
    (h : extractUpdate hooks store run message payload next now = .ok (updated, checked)) :
    updated.key = run.key ∧ updated.documentVersionId = run.documentVersionId ∧
      (updated.status = run.status ∧ updated.tagJob = run.tagJob) ∧
      Checked store checked message := by
  unfold extractUpdate at h
  dsimp only at h
  split_ifs at h with hschema hparsed
  · obtain ⟨⟨⟩, hstage, h⟩ := bind_ok h
    obtain ⟨guarded, hguard, h⟩ := bind_ok h
    obtain ⟨rfl, rfl⟩ := h
    obtain ⟨hevolves, hruns, hartifacts, hrest, hkept⟩ := guardExtractContinuation_ok hguard
    refine ⟨rfl, rfl, ⟨rfl, rfl⟩, hevolves, hruns, hartifacts, hrest, fun hjob hmessage =>
      hkept hjob ?_⟩
    rw [hmessage, checkExtracted_ok hstage]
    decide
  · cases h
    exact ⟨rfl, rfl, ⟨rfl, rfl⟩, Evolves.refl _, rfl, rfl, rfl, fun hjob _ => hjob⟩

variable {publishes : Bool}

structure Tagged (updated : RunRecord) : Prop where
  status : updated.status = .completed ∨ updated.status = .partially
  tagJob : updated.tagJob.isSome = true

theorem tagUpdate_ok {next : Option JobMessage}
    (h : tagUpdate hooks store run message payload next publishes = .ok updated) :
    updated.key = run.key ∧ updated.documentVersionId = run.documentVersionId ∧
      (updated.status = run.status ∧ updated.tagJob = run.tagJob ∨ Tagged updated) := by
  unfold tagUpdate at h
  dsimp only at h
  split_ifs at h
  · obtain ⟨coverage, -, h⟩ := bind_ok h
    cases pure_ok h
    refine ⟨rfl, rfl, Or.inr ⟨?_, rfl⟩⟩
    unfold RunRecord.tagged
    dsimp only
    split_ifs
    · exact Or.inl rfl
    · exact Or.inr rfl
  · cases h
    exact ⟨rfl, rfl, Or.inl ⟨rfl, rfl⟩⟩

theorem checkpointUpdate_ok {next : Option JobMessage}
    (h : checkpointUpdate hooks store run message payload next publishes now =
      .ok (updated, checked)) :
    updated.key = run.key ∧ updated.documentVersionId = run.documentVersionId ∧
      (updated.status = run.status ∧ updated.tagJob = run.tagJob ∨ Tagged updated) ∧
      Checked store checked message := by
  obtain ⟨parsed, hparsed, h⟩ := bind_ok h
  obtain ⟨⟨extracted, guarded⟩, hextracted, h⟩ := bind_ok h
  obtain ⟨tagged, htagged, h⟩ := bind_ok h
  obtain ⟨rfl, rfl⟩ := h
  obtain ⟨hkey, hdocument, hstatus, htag⟩ := parseUpdate_ok hparsed
  obtain ⟨hkey', hdocument', ⟨hstatus', htag'⟩, hchecked⟩ := extractUpdate_ok hextracted
  obtain ⟨hkey'', hdocument'', hstatus''⟩ := tagUpdate_ok htagged
  rw [hstatus', hstatus, htag', htag] at hstatus''
  exact ⟨hkey''.trans (hkey'.trans hkey), hdocument''.trans (hdocument'.trans hdocument),
    hstatus'', hchecked⟩

structure Written (hooks : Hooks ρ) (store written : JobStore ρ) (job : JobRecord) (lease : JobLease)
    (payload : Bytes) : Prop where
  evolves : Evolves store written
  runs : written.runs = store.runs
  rest : written.rest = store.rest
  job : written.jobs.find lease.message.key =
    some (job.committed (checkpointRef hooks lease payload))
  artifact : written.artifacts.find
      (lease.message.tenantId, lease.message.runId, checkpointName lease) = some
    { tenantId := lease.message.tenantId, runId := lease.message.runId
      name := checkpointName lease, payload := payload }

theorem writeCheckpoint_ok {written : JobStore ρ}
    (hfound : store.jobs.find lease.message.key = some job)
    (hmessage : job.message = lease.message) (hopen : ¬job.status.Settled)
    (h : writeCheckpoint hooks store job lease payload = .ok written) :
    Written hooks store written job lease payload := by
  obtain ⟨artifacts, hartifacts, h⟩ := bind_ok h
  cases pure_ok h
  have hinsert := insertRow_ok hartifacts
  have hkey : (job.committed (checkpointRef hooks lease payload)).key = lease.message.key := by
    show job.message.key = lease.message.key
    rw [hmessage]
  have hcommitted : JobEvolves job (job.committed (checkpointRef hooks lease payload)) :=
    { message := rfl
      token := le_rfl
      settled := fun hsettled => absurd hsettled hopen
      lease := fun hleased => by cases hleased }
  have hput := Evolves.putJob (hkey ▸ hfound) hcommitted
  refine ⟨{ hput with artifacts := fun {key artifact} hold => ?_ }, rfl, rfl, ?_, ?_⟩
  · show artifacts.find key = some artifact
    rw [Table.find_insert? hinsert]
    split_ifs with hsame
    · have hfree := Table.find_of_insert? hinsert
      rw [hsame] at hfree
      rw [hfree] at hold
      cases hold
    · exact hold
  · show (store.jobs.put _).find lease.message.key = _
    rw [Table.find_put, if_pos hkey]
  · show artifacts.find _ = _
    rw [Table.find_insert? hinsert]
    exact if_pos rfl

theorem enqueueNext_ok {next : Option JobMessage} (h : enqueueNext hooks store next now = .ok after) :
    Evolves store after ∧ after.runs = store.runs ∧ after.rest = store.rest := by
  cases next with
  | none =>
    cases h
    exact ⟨Evolves.refl store, rfl, rfl⟩
  | some message =>
    obtain ⟨hevolves, hruns, hrest, -⟩ := enqueue_ok h
    exact ⟨hevolves, hruns, hrest⟩

variable {publish : Option (Publish ρ)}

theorem runPublish_ok (h : runPublish store publish = .ok after) :
    after.jobs = store.jobs ∧ after.runs = store.runs ∧ after.artifacts = store.artifacts := by
  cases publish with
  | none =>
    cases h
    exact ⟨rfl, rfl, rfl⟩
  | some hook =>
    obtain ⟨⟨rest, events⟩, -, h⟩ := bind_ok h
    cases pure_ok h
    exact ⟨rfl, rfl, rfl⟩

theorem auditPublish_ok {saved : JobStore ρ} {before after : RunRecord} {stageStatus : String}
    (h : auditPublish hooks store before after message stageStatus publishes = .ok saved) :
    saved.jobs = store.jobs ∧ saved.runs = store.runs ∧ saved.artifacts = store.artifacts := by
  unfold auditPublish at h
  split_ifs at h
  · obtain ⟨rest, -, h⟩ := bind_ok h
    cases pure_ok h
    exact ⟨rfl, rfl, rfl⟩
  · cases h
    exact ⟨rfl, rfl, rfl⟩

theorem commitOwned_ok {next : Option JobMessage} (howns : Owns store lease job run)
    (h : commitOwned hooks store job run lease payload now next publish = .ok after) :
    ∃ checked written, Evolves store checked ∧ Written hooks checked written job lease payload ∧
      Evolves written after := by
  obtain ⟨⟨updated, checked⟩, hchecked, h⟩ := bind_ok h
  obtain ⟨written, hwritten, h⟩ := bind_ok h
  obtain ⟨queued, hqueued, h⟩ := bind_ok h
  obtain ⟨published, hpublished, h⟩ := bind_ok h
  obtain ⟨⟨bumped, saved⟩, hbumped, h⟩ := bind_ok h
  obtain ⟨hkey, hdocument, -, hcheck⟩ := checkpointUpdate_ok hchecked
  have hwrite := writeCheckpoint_ok (hcheck.kept howns.found howns.message) howns.message
    howns.not_settled hwritten
  obtain ⟨hqueuedEvolves, hqueuedRuns, -⟩ := enqueueNext_ok hqueued
  obtain ⟨hjobs, hruns, hartifacts⟩ := runPublish_ok hpublished
  obtain ⟨hjobs', hruns', hartifacts'⟩ := auditPublish_ok h
  have hrun : published.runs.find updated.key = some run := by
    rw [hruns, hqueuedRuns, hwrite.runs, hcheck.runs, hkey, run_key howns.run_found]
    exact howns.run_found
  have hbump := bumpRun_evolves hbumped hrun hdocument howns.open_run
  refine ⟨checked, written, hcheck.evolves, hwrite, ?_⟩
  exact hqueuedEvolves.trans ((Evolves.of_eq hjobs hruns hartifacts).trans
    (hbump.trans (Evolves.of_eq hjobs' hruns' hartifacts')))

variable {wait : Nat} {accepted : Bool}

theorem commitJob_inv {next : Option JobMessage}
    (h : commitJob hooks store lease payload now wait next publish = .ok (accepted, after)) :
    (accepted = false ∧ after = store) ∨
      (accepted = true ∧ ∃ job run, owned hooks store lease (now + wait) = some (job, run) ∧
        commitOwned hooks store job run lease payload now next publish = .ok after) := by
  replace h := rest_ok h
  split_ifs at h
  cases howned : owned hooks store lease (now + wait) with
  | none =>
    simp only [howned, Except.ok.injEq, Prod.mk.injEq] at h
    exact Or.inl ⟨h.1.symm, h.2.symm⟩
  | some found =>
    obtain ⟨job, run⟩ := found
    simp only [howned] at h
    obtain ⟨committed, hcommitted, h⟩ := bind_ok h
    obtain ⟨rfl, rfl⟩ := h
    exact Or.inr ⟨rfl, job, run, rfl, hcommitted⟩

theorem commitJob_ok {next : Option JobMessage}
    (h : commitJob hooks store lease payload now wait next publish = .ok (accepted, after)) :
    (accepted = false ∧ after = store) ∨
      (accepted = true ∧ ∃ job run, owned hooks store lease (now + wait) = some (job, run) ∧
        ∃ checked written, Evolves store checked ∧
          Written hooks checked written job lease payload ∧ Evolves written after) := by
  refine (commitJob_inv h).imp_right ?_
  rintro ⟨haccepted, job, run, howned, hcommitted⟩
  exact ⟨haccepted, job, run, howned, commitOwned_ok (owned_some howned) hcommitted⟩

theorem commitJob_evolves {next : Option JobMessage}
    (h : commitJob hooks store lease payload now wait next publish = .ok (accepted, after)) :
    Evolves store after := by
  rcases commitJob_ok h with ⟨-, rfl⟩ | ⟨-, job, run, -, checked, written, hchecked, hwritten, hrest⟩
  · exact Evolves.refl after
  · exact hchecked.trans (hwritten.evolves.trans hrest)

/-! ### Failing and acting -/

theorem signalRetry_ok {due : ℚ} {retry : Bool}
    (h : signalRetry hooks store lease due retry = .ok after) : OnlyEvents store after := by
  unfold signalRetry at h
  split_ifs at h
  · exact addEvent_ok h
  · cases h
    exact OnlyEvents.refl _

variable {failed : JobRecord} {errorCode : String} {retryAfter : Option Int}

theorem failJob_inv {jitter : ℚ}
    (h : failJob hooks store lease errorCode now wait jitter retryAfter = .ok (failed, after)) :
    ∃ job run signalled bumped, checkTime now 1 = .ok ⟨⟩ ∧ (0 ≤ jitter ∧ jitter ≤ 1) ∧
      ¬(retryAfter.any fun seconds => seconds < 0) = true ∧
      owned hooks store lease (now + wait) = some (job, run) ∧
      OnlyEvents
        { store with
          jobs := store.jobs.put (job.afterFailure (job.retries errorCode) errorCode
            (now + retryDelay job jitter retryAfter)) } signalled ∧
      bumpRun hooks signalled run
        (some (statusAfterFailure signalled lease.message.runKey (job.retries errorCode))) false =
          .ok (bumped, after) := by
  obtain ⟨⟨⟩, htime, h⟩ := bind_ok h
  split_ifs at h with hjitter _ hafter
  rw [not_or, not_lt, not_lt] at hjitter
  cases howned : owned hooks store lease (now + wait) with
  | none => simp [howned] at h
  | some found =>
    obtain ⟨job, run⟩ := found
    simp only [howned] at h
    obtain ⟨signalled, hsignalled, h⟩ := bind_ok h
    obtain ⟨⟨bumped, saved⟩, hbump, h⟩ := bind_ok h
    obtain ⟨-, rfl⟩ := h
    exact ⟨job, run, signalled, bumped, htime, hjitter, hafter, rfl, signalRetry_ok hsignalled, hbump⟩

theorem failJob_ok {jitter : ℚ}
    (h : failJob hooks store lease errorCode now wait jitter retryAfter = .ok (failed, after)) :
    Evolves store after ∧ ∃ job run, Owns store lease job run := by
  obtain ⟨job, run, signalled, bumped, -, -, -, howned, hevents, hbump⟩ := failJob_inv h
  have howns := owned_some howned
  have hfailed : JobEvolves job (job.afterFailure (job.retries errorCode) errorCode
      (now + retryDelay job jitter retryAfter)) :=
    { message := rfl
      token := le_rfl
      settled := fun hsettled => absurd hsettled howns.not_settled
      lease := fun _ _ => howns.leased }
  have hrun : signalled.runs.find run.key = some run := by
    rw [hevents.runs, run_key howns.run_found]
    exact howns.run_found
  refine ⟨(Evolves.putJob ?_ hfailed).trans (hevents.evolves.trans
    (bumpRun_evolves hbump hrun rfl howns.open_run)), job, run, howns⟩
  exact howns.found_key

variable {answered : RunRecord}

theorem cancelBranch_ok (hrun : store.runs.find run.key = some run)
    (h : cancelBranch hooks store run = .ok (answered, after)) :
    Evolves store after ∧ after.runs.find run.key = some answered ∧
      answered.cancellationRequested = true ∧ answered.status = .cancelled ∧
      after.jobs = store.jobs.modify (isCancellable run.key) JobRecord.cancelled
        JobRecord.cancelled_key := by
  unfold cancelBranch at h
  split_ifs at h
  obtain ⟨rfl, hkey, hdocument, hstatus, -, hflag⟩ := bumpRun_ok h
  have hstore : Evolves store
      { store with
        jobs := store.jobs.modify (isCancellable run.key) JobRecord.cancelled
          JobRecord.cancelled_key } := by
    refine Evolves.modifyJobs fun job htest => ?_
    simp only [isCancellable, decide_eq_true_eq] at htest
    exact
      { message := rfl
        token := le_rfl
        settled := fun hsettled => by
          rcases htest.2 with hopen | hopen | hopen <;>
            simp [JobStatus.Settled, hopen] at hsettled
        lease := fun hleased => by cases hleased }
  have hanswered : RunEvolves run answered :=
    { key := hkey
      document := hdocument
      cancelled := fun _ => hflag
      status := fun _ _ => hstatus }
  refine ⟨hstore.trans (Evolves.putRun (hkey ▸ hrun) hanswered), ?_, hflag, hstatus, rfl⟩
  rw [Table.find_put]
  exact if_pos hkey

theorem retryBranch_ok {revision : Nat} (hrun : store.runs.find run.key = some run)
    (h : retryBranch hooks store run now revision = .ok (answered, after)) :
    Evolves store after ∧ run.cancellationRequested = false := by
  unfold retryBranch at h
  split_ifs at h with hclosed
  have hopen : run.cancellationRequested = false := by
    rw [not_or] at hclosed
    simpa using hclosed.2
  obtain ⟨signalled, hsignalled, h⟩ := bind_ok h
  have hevents := addRetryEvents_ok hsignalled
  have hstore : Evolves store
      { store with
        jobs := store.jobs.modify (isRetryable run.key) (JobRecord.putBack now)
          (JobRecord.putBack_key now) } := by
    refine Evolves.modifyJobs fun job htest => ?_
    simp only [isRetryable, decide_eq_true_eq] at htest
    exact
      { message := rfl
        token := le_rfl
        settled := fun hsettled => by simp [JobStatus.Settled, htest.2] at hsettled
        lease := fun hleased => by cases hleased }
  have hfound : signalled.runs.find run.key = some run := by
    rw [hevents.runs]
    exact hrun
  exact ⟨hstore.trans (hevents.evolves.trans
    (bumpRun_evolves h hfound rfl hopen)), hopen⟩

variable {action : Action} {request : ActionRequest}

theorem recordAction_ok {recorded : JobStore ρ}
    (h : recordAction hooks before after action run answered request = .ok recorded) :
    recorded.jobs = after.jobs ∧ recorded.runs = after.runs ∧
      recorded.artifacts = after.artifacts ∧ recorded.events = after.events := by
  obtain ⟨actions, -, h⟩ := bind_ok h
  obtain ⟨rest, -, h⟩ := bind_ok h
  cases pure_ok h
  exact ⟨rfl, rfl, rfl, rfl⟩

theorem runAction_ok (h : runAction hooks store action request = .ok (answered, after)) :
    (after = store ∧ ∃ stored, storedAnswer hooks store action request = some stored ∧
        stored.requestHash = hooks.requestHash action request.expectedRevision request.reason ∧
        stored.response = answered) ∨
      (storedAnswer hooks store action request = none ∧
        ∃ run acted, store.runs.find request.key = some run ∧
          actionBranch hooks store action run request = .ok (answered, acted) ∧
          recordAction hooks store acted action run answered request = .ok after) := by
  replace h := rest_ok h
  obtain ⟨run, hrun, h⟩ := bind_ok h
  cases hstored : storedAnswer hooks store action request with
  | some stored =>
    simp only [hstored] at h
    split_ifs at h with hother
    cases h
    exact Or.inl ⟨rfl, stored, rfl, not_not.mp hother, rfl⟩
  | none =>
    simp only [hstored] at h
    unfold freshAction at h
    split_ifs at h
    obtain ⟨⟨made, acted⟩, hacted, h⟩ := bind_ok h
    obtain ⟨recorded, hrecorded, h⟩ := bind_ok h
    obtain ⟨rfl, rfl⟩ := h
    exact Or.inr ⟨rfl, run, acted, getRun_ok hrun, hacted, hrecorded⟩

theorem runAction_evolves (h : runAction hooks store action request = .ok (answered, after)) :
    Evolves store after := by
  rcases runAction_ok h with ⟨rfl, -⟩ | ⟨-, run, acted, hrun, hacted, hrecorded⟩
  · exact Evolves.refl after
  · obtain ⟨hjobs, hruns, hartifacts, -⟩ := recordAction_ok hrecorded
    have hfound : store.runs.find run.key = some run := by rwa [run_key hrun]
    refine Evolves.trans ?_ (Evolves.of_eq hjobs hruns hartifacts)
    cases action with
    | cancel => exact (cancelBranch_ok hfound hacted).1
    | retry => exact (retryBranch_ok hfound hacted).1

theorem markOutbox_ok {eventId : String} {sent : Bool} {expectedAttempts : Nat} {changed : Bool}
    (h : markOutbox store key eventId now sent expectedAttempts = .ok (changed, after)) :
    OnlyEvents store after := by
  replace h := rest_ok h
  cases hevent : store.events.find (key.1, key.2, eventId) with
  | none => simp [hevent] at h
  | some event =>
    simp only [hevent] at h
    split_ifs at h
    · cases h
      exact ⟨rfl, rfl, rfl, rfl⟩
    · cases h
      exact ⟨rfl, rfl, rfl, rfl⟩

theorem reviseRun_evolves {change : ρ → ρ}
    (h : reviseRun hooks store key refresh change = .ok after) : Evolves store after := by
  obtain ⟨run, hrun, h⟩ := bind_ok h
  obtain ⟨⟨bumped, saved⟩, hbump, h⟩ := bind_ok h
  cases pure_ok h
  have hfound := getRun_ok hrun
  obtain ⟨rfl, hkey, hdocument, hstatus, -, hflag⟩ := bumpRun_ok hbump
  have hkeys : bumped.key = key := hkey.trans (run_key hfound)
  have hbumped : RunEvolves run bumped :=
    { key := hkey
      document := hdocument
      cancelled := fun hold => hflag.trans hold
      status := fun _ hold => hstatus.trans hold }
  have hput : Evolves { store with rest := change store.rest }
      { store with rest := change store.rest, runs := store.runs.put bumped } :=
    Evolves.putRun (hkeys ▸ hfound) hbumped
  have hrest : Evolves store { store with rest := change store.rest } := Evolves.of_eq rfl rfl rfl
  exact hrest.trans hput

/-- Every call that succeeds keeps the store. -/
theorem execute_evolves {call : Call ρ} {reply : Reply}
    (h : execute hooks store call = .ok (reply, after)) : Evolves store after := by
  cases call with
  | createRun tenantId runId documentVersionId =>
    obtain ⟨made, hmade, h⟩ := map_ok_iff.mp h
    cases h
    exact createRun_evolves hmade
  | enqueue message now =>
    replace h := rest_ok h
    obtain ⟨made, hmade, h⟩ := bind_ok h
    cases pure_ok h
    exact (enqueue_ok hmade).1
  | claimJob message owner now leaseSeconds =>
    obtain ⟨⟨granted, made⟩, hmade, h⟩ := map_ok_iff.mp h
    cases h
    exact (claimJob_ok hmade).1
  | heartbeat lease now elapsed leaseSeconds =>
    obtain ⟨⟨renewed, made⟩, hmade, h⟩ := map_ok_iff.mp h
    cases h
    exact (heartbeat_ok hmade).1
  | commitJob lease payload now wait next publish =>
    obtain ⟨⟨accepted, made⟩, hmade, h⟩ := map_ok_iff.mp h
    cases h
    exact commitJob_evolves hmade
  | failJob lease errorCode now wait jitter retryAfter =>
    obtain ⟨⟨failed, made⟩, hmade, h⟩ := map_ok_iff.mp h
    cases h
    exact (failJob_ok hmade).1
  | cancelRun request | retryRun request =>
    obtain ⟨⟨answered, made⟩, hmade, h⟩ := map_ok_iff.mp h
    cases h
    exact runAction_evolves hmade
  | markOutbox key eventId now sent expectedAttempts =>
    obtain ⟨⟨changed, made⟩, hmade, h⟩ := map_ok_iff.mp h
    cases h
    exact (markOutbox_ok hmade).evolves
  | reviseRun key refresh change =>
    obtain ⟨made, hmade, h⟩ := map_ok_iff.mp h
    cases h
    exact reviseRun_evolves hmade
  | elsewhere change =>
    cases h
    exact Evolves.of_eq rfl rfl rfl

theorem next_evolves (hooks : Hooks ρ) (store : JobStore ρ) (call : Call ρ) :
    Evolves store (next hooks store call) := by
  unfold next
  cases hexecute : execute hooks store call with
  | error error => exact Evolves.refl store
  | ok made => exact execute_evolves hexecute

theorem after_evolves (hooks : Hooks ρ) (store : JobStore ρ) (calls : List (Call ρ)) :
    Evolves store (Machine.after (next hooks) store calls) :=
  @Machine.after_related _ _ _ (fun _ => True) Evolves (fun _ _ _ => trivial) Evolves.refl
    Evolves.trans (fun store call _ => next_evolves hooks store call) store trivial calls

end ProofOps.Adapters.Local
