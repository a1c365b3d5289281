import ProofOps.Adapters.Local.JobEvolution

/-!
# Fenced commits

A lease is worth something only while its job is leased under the lease's own
token.  Once a later claim succeeded, or the job was not leased for a moment, the
token is retired for good: the row carries a larger token or is not leased, and no
transaction brings the old token back.  A commit settles its job, so it is the
last one, and its checkpoint stays readable.
-/

namespace ProofOps.Adapters.Local

open Foundation Foundation.Checked

variable {ρ : Type}

/-! ### Leases in a run -/

variable (hooks : Hooks ρ) (store : JobStore ρ)

def HandsOut (call : Call ρ) (lease : JobLease) : Prop :=
  answer hooks store call = some (.claimed (some lease))

instance (hooks : Hooks ρ) (store : JobStore ρ) (call : Call ρ) (lease : JobLease) :
    Decidable (HandsOut hooks store call lease) :=
  inferInstanceAs (Decidable (_ = _))

def Call.Uses (call : Call ρ) (lease : JobLease) : Prop :=
  match call with
  | .heartbeat used _ _ _ => used = lease
  | .commitJob used _ _ _ _ _ => used = lease
  | .failJob used _ _ _ _ _ => used = lease
  | _ => False

def Commits (call : Call ρ) (lease : JobLease) (payload : Bytes) : Prop :=
  (∃ now wait next publish, call = .commitJob lease payload now wait next publish) ∧
    answer hooks store call = some (.committed true)

/-- Somebody holds the job. -/
def IsLeased (key : JobKey) : Prop :=
  ∃ job, store.jobs.find key = some job ∧ job.status = .leased

def Overtaken (calls : List (Call ρ)) (key : JobKey) : Prop :=
  ∃ front back, calls = front ++ back ∧
    (¬IsLeased (Machine.after (next hooks) store front) key ∨
      ∃ call rest lease, back = call :: rest ∧ lease.message.key = key ∧
        HandsOut hooks (Machine.after (next hooks) store front) call lease)

def Issued (key : JobKey) (token : Nat) : Prop :=
  ∃ job, store.jobs.find key = some job ∧ token ≤ job.fencingToken

def Retired (key : JobKey) (token : Nat) : Prop :=
  ∃ job, store.jobs.find key = some job ∧ token ≤ job.fencingToken ∧
    (job.status = .leased → token < job.fencingToken)

def Committed (lease : JobLease) (payload : Bytes) : Prop :=
  (∃ job, store.jobs.find lease.message.key = some job ∧ job.message = lease.message ∧
      job.status = .succeeded ∧ job.artifactRef = some (checkpointRef hooks lease payload)) ∧
    store.artifacts.find (lease.message.tenantId, lease.message.runId, checkpointName lease) = some
      { tenantId := lease.message.tenantId, runId := lease.message.runId
        name := checkpointName lease, payload := payload }

variable {after store : JobStore ρ} {key : JobKey}

theorem Issued.evolves {token : Nat}
    (h : Issued store key token) (hevolves : Evolves store after) : Issued after key token := by
  obtain ⟨job, hjob, htoken⟩ := h
  obtain ⟨later, hlater, hjobEvolves⟩ := hevolves.jobs hjob
  exact ⟨later, hlater, htoken.trans hjobEvolves.token⟩

theorem Retired.evolves {token : Nat}
    (h : Retired store key token) (hevolves : Evolves store after) : Retired after key token := by
  obtain ⟨job, hjob, htoken, hleased⟩ := h
  obtain ⟨later, hlater, hjobEvolves⟩ := hevolves.jobs hjob
  refine ⟨later, hlater, htoken.trans hjobEvolves.token, fun hlaterLeased => ?_⟩
  rcases hjobEvolves.token.lt_or_eq with hgrown | hsame
  · omega
  · have hbefore := hleased (hjobEvolves.lease hlaterLeased hsame.symm)
    omega

theorem Issued.retired {token : Nat}
    (h : Issued store key token) (hfree : ¬IsLeased store key) : Retired store key token := by
  obtain ⟨job, hjob, htoken⟩ := h
  exact ⟨job, hjob, htoken, fun hleased => absurd ⟨job, hjob, hleased⟩ hfree⟩

variable {hooks : Hooks ρ} {lease : JobLease} {payload : Bytes}

theorem Committed.evolves (h : Committed hooks store lease payload)
    (hevolves : Evolves store after) : Committed hooks after lease payload := by
  obtain ⟨⟨job, hjob, hmessage, hstatus, href⟩, hartifact⟩ := h
  obtain ⟨later, hlater, hjobEvolves⟩ := hevolves.jobs hjob
  have hsame : later = job := hjobEvolves.settled (Or.inl hstatus)
  subst hsame
  exact ⟨⟨later, hlater, hmessage, hstatus, href⟩, hevolves.artifacts hartifact⟩

/-! ### What the calls do with leases -/

variable {call : Call ρ}

theorem HandsOut.claims (h : HandsOut hooks store call lease) :
    ∃ message owner now leaseSeconds,
      claimJob hooks store message owner now leaseSeconds =
        .ok (some lease, next hooks store call) := by
  have hexecute := execute_of_answer h
  cases call with
  | claimJob message owner now leaseSeconds =>
    obtain ⟨⟨granted, made⟩, hmade, hreply⟩ := map_ok_iff.mp hexecute
    cases hreply
    exact ⟨message, owner, now, leaseSeconds, hmade⟩
  | enqueue message now =>
    replace hexecute := rest_ok hexecute
    obtain ⟨made, -, hexecute⟩ := bind_ok hexecute
    cases pure_ok hexecute
  | elsewhere change => cases hexecute
  | _ =>
    obtain ⟨made, -, hreply⟩ := map_ok_iff.mp hexecute
    cases hreply

theorem HandsOut.token (h : HandsOut hooks store call lease) :
    (∀ token, Issued store lease.message.key token → token < lease.fencingToken) ∧
      Issued (next hooks store call) lease.message.key lease.fencingToken := by
  obtain ⟨message, owner, now, leaseSeconds, hclaim⟩ := h.claims
  obtain ⟨-, -, hgranted⟩ := claimJob_ok hclaim
  obtain ⟨rfl, job, run, hjob, -, -, hafter, htoken⟩ := hgranted lease rfl
  constructor
  · rintro token ⟨other, hother, hle⟩
    rw [hjob] at hother
    cases hother
    omega
  · exact ⟨_, hafter, htoken.le⟩

theorem HandsOut.retires (h : HandsOut hooks store call lease)
    {token : Nat} (hissued : Issued store lease.message.key token) :
    Retired (next hooks store call) lease.message.key token := by
  obtain ⟨hlarger, job, hjob, htoken⟩ := h.token
  have hlt := hlarger token hissued
  exact ⟨job, hjob, by omega, fun _ => by omega⟩

theorem Overtaken.retired {calls : List (Call ρ)} {token : Nat}
    (h : Overtaken hooks store calls key) (hissued : Issued store key token) :
    Retired (Machine.after (next hooks) store calls) key token := by
  obtain ⟨front, back, rfl, hwhen⟩ := h
  have hfront := hissued.evolves (after_evolves hooks store front)
  rw [Machine.after_append]
  rcases hwhen with hfree | ⟨call, rest, lease, rfl, rfl, hclaimed⟩
  · exact (hfront.retired hfree).evolves (after_evolves hooks _ back)
  · rw [Machine.after_cons]
    exact (hclaimed.retires hfront).evolves (after_evolves hooks _ rest)

theorem Retired.not_owns {token : Nat} {job : JobRecord} {run : RunRecord}
    (h : Retired store lease.message.key token) (hle : lease.fencingToken ≤ token) :
    ¬Owns store lease job run := by
  intro howns
  obtain ⟨found, hfound, -, hleased⟩ := h
  rw [howns.found] at hfound
  cases hfound
  have hlt := hleased howns.leased
  rw [howns.token] at hlt
  omega

/-- A call under a lost lease changes nothing. -/
theorem Call.Uses.unchanged (huses : call.Uses lease)
    (hlost : ∀ job run, ¬Owns store lease job run) : next hooks store call = store := by
  unfold next
  cases hexecute : execute hooks store call with
  | error error => rfl
  | ok made =>
    cases call with
    | heartbeat used now elapsed leaseSeconds =>
      cases huses
      obtain ⟨⟨renewed, made⟩, hmade, -⟩ := map_ok_iff.mp hexecute
      obtain ⟨-, job, run, howns⟩ := heartbeat_ok hmade
      exact absurd howns (hlost job run)
    | commitJob used payload now wait next publish =>
      cases huses
      obtain ⟨⟨accepted, made⟩, hmade, hreply⟩ := map_ok_iff.mp hexecute
      cases hreply
      rcases commitJob_ok hmade with ⟨-, hsame⟩ | ⟨-, job, run, howned, -⟩
      · exact hsame
      · exact absurd (owned_some howned) (hlost job run)
    | failJob used errorCode now wait jitter retryAfter =>
      cases huses
      obtain ⟨⟨failed, made⟩, hmade, -⟩ := map_ok_iff.mp hexecute
      obtain ⟨-, job, run, howns⟩ := failJob_ok hmade
      exact absurd howns (hlost job run)
    | _ => exact absurd huses id

theorem Commits.committed (h : Commits hooks store call lease payload) :
    (∃ job run, Owns store lease job run) ∧ Committed hooks (next hooks store call) lease payload := by
  obtain ⟨⟨now, wait, following, publish, rfl⟩, hanswer⟩ := h
  have hexecute := execute_of_answer hanswer
  obtain ⟨⟨accepted, made⟩, hmade, hreply⟩ := map_ok_iff.mp hexecute
  cases hreply
  rcases commitJob_ok hmade with ⟨hrefused, -⟩ | ⟨-, job, run, howned, checked, written, -, hwritten,
    hrest⟩
  · cases hrefused
  · have howns := owned_some howned
    have hcommitted : Committed hooks written lease payload :=
      ⟨⟨_, hwritten.job, howns.message, rfl, rfl⟩, hwritten.artifact⟩
    exact ⟨⟨job, run, howns⟩, hcommitted.evolves hrest⟩

theorem Committed.not_owns {other : JobLease} {job : JobRecord}
    {run : RunRecord} (h : Committed hooks store lease payload)
    (hkey : other.message.key = lease.message.key) : ¬Owns store other job run := by
  intro howns
  obtain ⟨⟨found, hfound, -, hstatus, -⟩, -⟩ := h
  have hsame := howns.found
  rw [hkey, hfound] at hsame
  cases hsame
  rw [howns.leased] at hstatus
  cases hstatus

theorem Committed.read (h : Committed hooks store lease payload) :
    readCheckpoint hooks store lease.message = .ok (some payload) := by
  obtain ⟨⟨job, hjob, hmessage, -, href⟩, hartifact⟩ := h
  have hget : getJob store lease.message = .ok job := by
    simp [getJob, hjob, hmessage]
  unfold readCheckpoint
  rw [bind_ok_iff]
  refine ⟨job, hget, ?_⟩
  simp [href, checkpointRef, hartifact]

/-- Fencing and exactly-once commit, over every run from every store: tokens
grow, an overtaken lease changes nothing, and an accepted commit is the last one,
with its row and its bytes as they were written. -/
theorem commits_fenced (hooks : Hooks ρ) (store : JobStore ρ) :
    (∀ claim lease calls, HandsOut hooks store claim lease →
      let current := Machine.after (next hooks) (next hooks store claim) calls
      (∀ later other, HandsOut hooks current later other →
        other.message.key = lease.message.key → lease.fencingToken < other.fencingToken) ∧
      (Overtaken hooks (next hooks store claim) calls lease.message.key →
        ∀ late used, Call.Uses late used → used.message.key = lease.message.key →
          used.fencingToken ≤ lease.fencingToken → next hooks current late = current)) ∧
    (∀ commit lease payload calls, Commits hooks store commit lease payload →
      let current := Machine.after (next hooks) (next hooks store commit) calls
      (∀ later other bytes, other.message.key = lease.message.key →
        ¬Commits hooks current later other bytes) ∧
      Committed hooks current lease payload ∧
      readCheckpoint hooks current lease.message = .ok (some payload)) := by
  constructor
  · intro claim lease calls hclaim
    have hissued := hclaim.token.2
    constructor
    · intro later other hlater hkey
      refine hlater.token.1 _ ?_
      rw [hkey]
      exact hissued.evolves (after_evolves hooks _ calls)
    · intro hovertaken late used huses hkey hle
      have hretired := hovertaken.retired hissued
      rw [← hkey] at hretired
      exact huses.unchanged fun job run => hretired.not_owns hle
  · intro commit lease payload calls hcommit
    have hcommitted := hcommit.committed.2.evolves (after_evolves hooks _ calls)
    refine ⟨fun later other bytes hkey hagain => ?_, hcommitted, hcommitted.read⟩
    obtain ⟨job, run, howns⟩ := hagain.committed.1
    exact hcommitted.not_owns hkey howns

def sampleHooks : Hooks Unit where
  versionDeleted := fun _ _ _ => false
  eventId := fun message cause => message.jobId ++ "/" ++ cause
  sha256 := fun payload => toString (payload.map UInt8.toNat)
  actionKey := fun action key => action.name ++ "/" ++ key
  requestHash := fun action revision reason =>
    action.name ++ "/" ++ toString revision ++ "/" ++ reason
  decidedHeads := fun _ _ => 0
  headsPublished := fun _ _ => false
  decode := fun _ =>
    { isObject := false, schema := "", stageStatus := "", pipelineProfile := none, coverage := none }
  checkParsePins := fun _ _ _ => .ok ()
  checkParse := fun _ _ _ => .ok ()
  checkExtract := fun _ _ _ _ => .ok ()
  checkTag := fun _ _ _ _ _ => .error (.valueError "no tag snapshot")
  audit := fun _ _ => .ok ()

def sampleMessage : JobMessage where
  tenantId := "tenant"
  runId := "run"
  documentVersionId := "version"
  jobId := "job"
  stage := "parse"
  shard := "0"
  inputHash := "input"

def queuedStore : JobStore Unit :=
  Machine.after (next sampleHooks) (JobStore.initial ())
    [.createRun "tenant" "run" "version", .enqueue sampleMessage 0]

def sampleLease (owner : String) (attempt : Nat) (start : Int) : JobLease where
  message := sampleMessage
  owner := owner
  fencingToken := attempt
  attempt := attempt
  leaseUntil := start + 10

def reclaimedStore : JobStore Unit :=
  Machine.after (next sampleHooks) queuedStore
    [.claimJob sampleMessage "first" 0 10, .claimJob sampleMessage "second" 20 10]

theorem commits_fenced_second_worker :
    next sampleHooks reclaimedStore
        (.commitJob (sampleLease "first" 1 0) [3] 5 0 none none) = reclaimedStore ∧
      readCheckpoint sampleHooks (next sampleHooks reclaimedStore
        (.commitJob (sampleLease "second" 2 20) [1, 2] 21 0 none none)) sampleMessage =
          .ok (some [1, 2]) := by
  constructor
  · have hlate := (commits_fenced sampleHooks queuedStore).1
      (.claimJob sampleMessage "first" 0 10) (sampleLease "first" 1 0)
      [.claimJob sampleMessage "second" 20 10] (by decide +kernel)
    refine hlate.2 ⟨[], _, rfl, Or.inr ⟨_, [], sampleLease "second" 2 20, rfl, rfl, ?_⟩⟩ _
      (sampleLease "first" 1 0) rfl rfl le_rfl
    decide +kernel
  · have hcommit := (commits_fenced sampleHooks reclaimedStore).2
      (.commitJob (sampleLease "second" 2 20) [1, 2] 21 0 none none) (sampleLease "second" 2 20)
      [1, 2] [] ⟨⟨21, 0, none, none, rfl⟩, by decide +kernel⟩
    exact hcommit.2.2

end ProofOps.Adapters.Local
