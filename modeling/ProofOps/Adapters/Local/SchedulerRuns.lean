import ProofOps.Adapters.Local.SchedulerLines
import ProofOps.Foundation.Machine

/-!
# Runs of the scheduler

Over any calls of any attempts the slots in use are those that are held, and the tickets are served
in the order of their roles' queues, with a bound on overtaking (`scheduler_fair`).
-/

namespace ProofOps.Adapters.Local.ProviderScheduler

open Foundation Machine Overtaking

/-- The gate's queues seen as a line. -/
def System.line (state : System) : Line where
  queues := state.gate.queues
  sequence := state.gate.sequence
  now := state.now
  admitted := state.admitted
  withdrawn := state.withdrawn

section Calls

variable {state : System}

structure SameQueues (before after : Gate) : Prop where
  queues : after.queues = before.queues
  sequence : after.sequence = before.sequence
  policy : after.policy = before.policy
  active : after.active = before.active

theorem Gate.observe_same (gate : Gate) (code : Option String) (uncertain written : Bool) :
    SameQueues gate (gate.observe code uncertain written) ∧
      (gate.observe code uncertain written).limit = gate.limit := by
  unfold Gate.observe
  split_ifs
  · exact ⟨⟨rfl, rfl, rfl, rfl⟩, rfl⟩
  · exact ⟨⟨rfl, rfl, rfl, rfl⟩, rfl⟩
  · exact ⟨⟨rfl, rfl, rfl, rfl⟩, rfl⟩

theorem Gate.failed_same (gate : Gate) (failure : Failure) (now : ℚ) :
    SameQueues gate (gate.failed failure now) ∧
      (gate.failed failure now).limit ≤ max 1 gate.limit := by
  unfold Gate.failed
  split_ifs
  · unfold Gate.rateLimited
    dsimp only
    split_ifs
    · exact ⟨⟨rfl, rfl, rfl, rfl⟩, max_le_max_left 1 (Nat.div_le_self _ _)⟩
    · exact ⟨⟨rfl, rfl, rfl, rfl⟩, max_le_max_left 1 (Nat.div_le_self _ _)⟩
  · exact ⟨⟨rfl, rfl, rfl, rfl⟩, le_max_right _ _⟩

theorem System.ticket_waiting {sequence : Nat} {ticket : Ticket}
    (h : state.ticket sequence = some ticket) : ticket ∈ state.line.queues.waiting :=
  List.mem_of_find?_eq_some h

theorem System.line_pass (state : System) :
    LineStep state.gate.policy.maxPriorityBypass state.line state.line :=
  .pass (le_refl state.now)

theorem step_line (state : System) (call : Call) :
    LineStep state.gate.policy.maxPriorityBypass state.line (step state call).line := by
  cases call with
  | pass elapsed => exact .pass (le_add_of_nonneg_right elapsed.2)
  | enqueue role => exact .arrive role
  | poll sequence =>
    unfold step
    dsimp only
    split
    · rename_i ticket hticket
      have hwaits := System.ticket_waiting hticket
      unfold System.poll
      split_ifs with hcircuit hdeferred hadmits
      · exact .leave hwaits
      · exact .leave hwaits
      · unfold Gate.admits at hadmits
        rw [Bool.and_eq_true, Bool.and_eq_true, decide_eq_true_eq] at hadmits
        exact .serve hadmits.1.1
      · exact state.line_pass
    · exact state.line_pass
  | interrupt sequence =>
    unfold step
    dsimp only
    split
    · rename_i ticket hticket
      exact .leave (System.ticket_waiting hticket)
    · exact state.line_pass
  | succeed sequence =>
    unfold step
    dsimp only
    split
    · exact state.line_pass
    · exact state.line_pass
  | fail sequence failure =>
    unfold step
    dsimp only
    split
    · obtain ⟨hsame, -⟩ := state.gate.failed_same failure state.now
      unfold System.line
      rw [hsame.queues, hsame.sequence]
      exact state.line_pass
    · exact state.line_pass
  | observe sequence written =>
    unfold step
    dsimp only
    split
    · rename_i code uncertain _
      obtain ⟨hsame, -⟩ := state.gate.observe_same code uncertain written
      unfold System.line
      rw [hsame.queues, hsame.sequence]
      exact state.line_pass
    · exact state.line_pass
  | release sequence =>
    unfold step
    dsimp only
    split
    · split
      · exact state.line_pass
      · exact state.line_pass
    · exact state.line_pass

structure Slots (workers : Nat) (state : System) : Prop where
  pos : 1 ≤ workers
  limit_le : state.gate.limit ≤ workers
  active_le : state.gate.active ≤ workers
  active_eq : state.gate.active = state.held.length

theorem length_setPhase (sequence : Nat) (phase : Phase) (held : List Held) :
    (setPhase sequence phase held).length = held.length :=
  List.length_map _

theorem length_eraseP_heldBy {sequence : Nat} {attempt : Held}
    (h : state.heldBy sequence = some attempt) :
    (state.held.eraseP fun other => other.ticket.sequence = attempt.ticket.sequence).length =
      state.held.length - 1 := by
  have hmem := List.mem_of_find?_eq_some h
  exact List.length_eraseP_of_mem hmem (decide_eq_true rfl)

variable {workers : Nat}

theorem Slots.withdraw (h : Slots workers state) (ticket : Ticket) :
    Slots workers (state.withdraw ticket) :=
  ⟨h.pos, h.limit_le, h.active_le, h.active_eq⟩

theorem Slots.poll (h : Slots workers state) (ticket : Ticket) :
    Slots workers (state.poll ticket) := by
  unfold System.poll
  split_ifs with hcircuit hdeferred hadmits
  · exact ⟨h.pos, h.limit_le, h.active_le, h.active_eq⟩
  · exact h.withdraw ticket
  · unfold Gate.admits at hadmits
    rw [Bool.and_eq_true, Bool.and_eq_true, decide_eq_true_eq, decide_eq_true_eq] at hadmits
    have hlimit := h.limit_le
    constructor
    · exact h.pos
    · exact h.limit_le
    · show state.gate.active + 1 ≤ workers
      omega
    · show state.gate.active + 1 = (state.held ++ [_]).length
      rw [List.length_append, List.length_singleton, h.active_eq]
  · exact h

/-- So does every call. -/
theorem Slots.step (h : Slots workers state) (call : Call) :
    Slots workers (ProviderScheduler.step state call) := by
  cases call with
  | pass elapsed | enqueue role => exact ⟨h.pos, h.limit_le, h.active_le, h.active_eq⟩
  | poll sequence =>
    unfold ProviderScheduler.step
    dsimp only
    split
    · exact h.poll _
    · exact h
  | interrupt sequence =>
    unfold ProviderScheduler.step
    dsimp only
    split
    · exact h.withdraw _
    · exact h
  | succeed sequence =>
    unfold ProviderScheduler.step
    dsimp only
    split
    · exact ⟨h.pos, h.limit_le, h.active_le, (length_setPhase _ _ _).symm ▸ h.active_eq⟩
    · exact h
  | fail sequence failure =>
    unfold ProviderScheduler.step
    dsimp only
    split
    · obtain ⟨hsame, hlimit⟩ := state.gate.failed_same failure state.now
      constructor
      · exact h.pos
      · exact hlimit.trans (max_le h.pos h.limit_le)
      · rw [hsame.active]
        exact h.active_le
      · rw [hsame.active, length_setPhase]
        exact h.active_eq
    · exact h
  | observe sequence written =>
    unfold ProviderScheduler.step
    dsimp only
    split
    · rename_i code uncertain _
      obtain ⟨hsame, hlimit⟩ := state.gate.observe_same code uncertain written
      constructor
      · exact h.pos
      · rw [hlimit]
        exact h.limit_le
      · rw [hsame.active]
        exact h.active_le
      · rw [hsame.active, length_setPhase]
        exact h.active_eq
    · exact h
  | release sequence =>
    unfold ProviderScheduler.step
    dsimp only
    split
    · rename_i attempt hattempt
      split
      · have hactive := h.active_le
        constructor
        · exact h.pos
        · exact h.limit_le
        · show state.gate.active - 1 ≤ workers
          omega
        · show state.gate.active - 1 = _
          rw [h.active_eq]
          exact (length_eraseP_heldBy hattempt).symm
      · exact h
    · exact h

/-! ### Runs -/

structure Running (policy : SchedulerPolicy) (workers : Nat) (state : System) : Prop where
  policy_eq : state.gate.policy = policy
  slots : Slots workers state
  orderly : Orderly policy.maxPriorityBypass state.line

/-- The policy never changes. -/
theorem step_policy (state : System) (call : Call) :
    (step state call).gate.policy = state.gate.policy := by
  cases call with
  | pass elapsed => rfl
  | enqueue role => rfl
  | poll sequence =>
    unfold step
    dsimp only
    split
    · unfold System.poll
      split_ifs <;> rfl
    · rfl
  | interrupt sequence | succeed sequence =>
    unfold step
    dsimp only
    split <;> rfl
  | fail sequence failure =>
    unfold step
    dsimp only
    split
    · exact (state.gate.failed_same failure state.now).1.policy
    · rfl
  | observe sequence written =>
    unfold step
    dsimp only
    split
    · exact (state.gate.observe_same _ _ written).1.policy
    · rfl
  | release sequence =>
    unfold step
    dsimp only
    split
    · split <;> rfl
    · rfl

/-- A call leaves the scheduler running. -/
theorem Running.step {policy : SchedulerPolicy} (h : Running policy workers state) (call : Call) :
    Running policy workers (ProviderScheduler.step state call) := by
  have hline := step_line state call
  rw [h.policy_eq] at hline
  constructor
  · rw [step_policy]
    exact h.policy_eq
  · exact h.slots.step call
  · exact hline.orderly h.orderly

end Calls

theorem replay_same (gate : Gate) (recorded : List (Option String × Bool)) :
    SameQueues gate (recorded.foldl Gate.replay gate) ∧
      (recorded.foldl Gate.replay gate).limit = gate.limit := by
  induction recorded generalizing gate with
  | nil => exact ⟨⟨rfl, rfl, rfl, rfl⟩, rfl⟩
  | cons event recorded ih =>
    obtain ⟨hsame, hlimit⟩ := ih (gate.replay event)
    exact ⟨⟨hsame.queues, hsame.sequence, hsame.policy, hsame.active⟩, hlimit⟩

theorem makeGate_running {settings : Settings} {gate : Gate} (h : makeGate settings = .ok gate)
    (now : ℚ) : Running settings.policy settings.workers.toNat (start gate now) := by
  unfold makeGate at h
  split_ifs at h with hpolicy hworkers hmax hrate
  cases h
  obtain ⟨hsame, hlimit⟩ := replay_same (emptyGate settings) (settings.recorded.getD [])
  constructor
  · exact hsame.policy
  · constructor
    · omega
    · exact hlimit.le
    · exact hsame.active.trans_le (Nat.zero_le _)
    · exact hsame.active
  · have hempty := orderly_empty settings.policy.maxPriorityBypass now
    unfold System.line start
    rw [hsame.queues, hsame.sequence]
    exact hempty

structure FairState (policy : SchedulerPolicy) (workers : Nat) (state : System) : Prop where
  capacity : state.gate.active ≤ workers
  slots : state.gate.active = state.held.length
  once : ((state.gate.queues.waiting ++ (state.admitted ++ state.withdrawn)).map
    Ticket.sequence).Perm (List.range' 1 state.gate.sequence)
  fifo : ∀ role, (state.admitted.filter fun ticket => ticket.role = role).Pairwise
    fun first second => first.sequence < second.sequence
  fifoWaiting : ∀ served ∈ state.admitted, ∀ ticket ∈ state.gate.queues.waiting,
    served.role = ticket.role → served.sequence < ticket.sequence
  overtaken : ∀ front ticket back, state.admitted = front ++ ticket :: back →
    overtakers (front.map Ticket.sequence) ticket.sequence ≤ policy.maxPriorityBypass
  overtakenWaiting : ∀ ticket ∈ state.gate.queues.waiting,
    overtakers (state.admitted.map Ticket.sequence) ticket.sequence ≤ policy.maxPriorityBypass

/-- A running scheduler is fair. -/
theorem Running.fair {policy : SchedulerPolicy} {workers : Nat} {state : System}
    (h : Running policy workers state) : FairState policy workers state := by
  constructor
  · exact h.slots.active_le
  · exact h.slots.active_eq
  · exact h.orderly.numbers
  · intro role
    rw [List.pairwise_filter]
    refine h.orderly.servedInOrder.imp ?_
    intro first second hlt hfirst hsecond
    rw [decide_eq_true_eq] at hfirst hsecond
    exact hlt (hfirst.trans hsecond.symm)
  · exact h.orderly.fifo
  · exact h.orderly.overtaken
  · exact h.orderly.fair.bounded

/-- In every state of a run of any attempts the scheduler is fair and within its capacity. -/
theorem scheduler_fair {settings : Settings} {gate : Gate} (h : makeGate settings = .ok gate)
    (now : ℚ) (calls : List Call) :
    ∀ state ∈ states step (start gate now) calls,
      FairState settings.policy settings.workers.toNat state := by
  intro state hstate
  obtain ⟨front, back, -, rfl⟩ := mem_states_iff.mp hstate
  have hrunning : Running settings.policy settings.workers.toNat (after step (start gate now) front) :=
    after_invariant (fun _ call hinv => hinv.step call) (makeGate_running h now) front
  exact hrunning.fair

namespace Sample

def settings : Settings where
  workers := 1
  requestsPerSecond := 4
  policy := schedulerPolicy
  cooldownSeconds := 1
  maxCooldownSeconds := 30
  recorded := none

def calls : List Call :=
  [.enqueue .extract, .enqueue .elements, .poll 1, .poll 2, .poll 1,
    .fail 2 ⟨"OPENAI_HTTP_429", false, false, false, none⟩, .observe 2 true, .release 2]

end Sample

theorem scheduler_fair_sample : ∃ gate, makeGate Sample.settings = .ok gate ∧
    (after step (start gate 0) Sample.calls).gate.active = 0 ∧
    (after step (start gate 0) Sample.calls).admitted.map Ticket.role = [.elements] ∧
    FairState schedulerPolicy 1 (after step (start gate 0) Sample.calls) := by
  refine ⟨_, rfl, by decide +kernel, by decide +kernel, ?_⟩
  apply @scheduler_fair Sample.settings _ rfl 0 Sample.calls
  exact mem_states_iff.mpr ⟨Sample.calls, [], (List.append_nil _).symm, rfl⟩

end ProofOps.Adapters.Local.ProviderScheduler
