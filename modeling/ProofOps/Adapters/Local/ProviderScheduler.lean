import Mathlib.Algebra.Order.Field.Rat
import Mathlib.Data.Prod.Lex
import ProofOps.Foundation.PyText

/-!
# The physical attempts of a run

`RoleProviderConcurrency`: an attempt takes a ticket in the queue of its role, waits for its turn
and for a slot, and gives both back.  Every section under the condition's lock is one call of the
machine; between two of them other attempts take their own.
-/

namespace ProofOps.Adapters.Local.ProviderScheduler

open Foundation

/-- The kinds of requests. -/
inductive Role where
  | elements
  | relation
  | preliminary
  | extract
  deriving DecidableEq

def roles : List Role :=
  [.elements, .relation, .preliminary, .extract]

/-- The limits of the queues. -/
structure SchedulerPolicy where
  profile : String
  (maxPriorityBypass maxWorkers maxRps : Nat)
  deriving DecidableEq

/-- `SCHEDULER_POLICY`. -/
def schedulerPolicy : SchedulerPolicy where
  profile := "physical-attempt-role-queues-s5-v1"
  maxPriorityBypass := 8
  maxWorkers := 16
  maxRps := 8

/-- `SCHEDULER_C24_POLICY`. -/
def schedulerC24Policy : SchedulerPolicy where
  profile := "physical-attempt-role-queues-c24-v1"
  maxPriorityBypass := 8
  maxWorkers := 24
  maxRps := 12

/-- A request that waits for its turn. -/
structure Ticket where
  role : Role
  queued : ℚ
  (bypass sequence : Nat)
  deriving DecidableEq

def Ticket.key (ticket : Ticket) : ℚ ×ₗ Nat :=
  toLex (ticket.queued, ticket.sequence)

def Ticket.bypassed (ticket : Ticket) : Ticket :=
  { ticket with bypass := ticket.bypass + 1 }

/-- The queues of the roles. -/
abbrev Queues := Role → List Ticket

variable (gate : Gate) (queues : Queues)

/-- All waiting tickets. -/
def Queues.waiting : List Ticket :=
  roles.flatMap queues

def Queues.set (role : Role) (queue : List Ticket) : Queues := fun other =>
  if other = role then queue else queues other

def oldest (best : Ticket) : List Ticket → Ticket
  | [] => best
  | ticket :: tickets => oldest (if ticket.key < best.key then ticket else best) tickets

def Queues.nextTicket (maxPriorityBypass : Nat) : Option Ticket :=
  match roles.filterMap fun role => (queues role).head? with
  | [] => none
  | head :: heads =>
    let first := oldest head heads
    if maxPriorityBypass ≤ first.bypass then some first else some head

def Queues.remove (ticket : Ticket) : Queues :=
  queues.set ticket.role ((queues ticket.role).erase ticket)

def Queues.dequeue (ticket : Ticket) : Queues := fun role =>
  (queues.remove ticket role).map Ticket.bypassed

/-! ### The gate -/

/-- `RoleProviderConcurrency`. -/
structure Gate where
  policy : SchedulerPolicy
  requestsPerSecond : Nat
  (cooldownSeconds maxCooldownSeconds : ℚ)
  recording : Bool
  (limit active peak rateLimits : Nat)
  (notBefore httpNotBefore : ℚ)
  (deferred circuitOpen : Bool)
  (consecutiveDenials failedCalls uncertainCalls circuitDeferred events attemptAdmissions : Nat)
  sequence : Nat
  queueSeconds : ℚ
  completedByRole : Role → Nat
  queues : Queues

/-- The settings of a gate. -/
structure Settings where
  (workers requestsPerSecond : Int)
  policy : SchedulerPolicy
  (cooldownSeconds maxCooldownSeconds : ℚ)
  recorded : Option (List (Option String × Bool))

def consecutiveDenialLimit : Nat := 3

/-- `_observe`. -/
def Gate.observeOutcome (code : Option String) (uncertain : Bool) : Gate :=
  let denials := if code = some "OPENAI_HTTP_403" then gate.consecutiveDenials + 1 else 0
  { gate with
    failedCalls := gate.failedCalls + if code.isSome then 1 else 0
    uncertainCalls := gate.uncertainCalls + if code.isSome && uncertain then 1 else 0
    consecutiveDenials := denials
    circuitOpen := gate.circuitOpen || decide (consecutiveDenialLimit ≤ denials) }

def Gate.replay (recorded : Option String × Bool) : Gate :=
  let observed := gate.observeOutcome recorded.1 recorded.2
  { observed with events := observed.events + 1 }

def emptyGate (settings : Settings) : Gate where
  policy := settings.policy
  requestsPerSecond := settings.requestsPerSecond.toNat
  cooldownSeconds := settings.cooldownSeconds
  maxCooldownSeconds := settings.maxCooldownSeconds
  recording := settings.recorded.isSome
  limit := settings.workers.toNat
  active := 0
  peak := 0
  rateLimits := 0
  notBefore := 0
  httpNotBefore := 0
  deferred := false
  circuitOpen := false
  consecutiveDenials := 0
  failedCalls := 0
  uncertainCalls := 0
  circuitDeferred := 0
  events := 0
  attemptAdmissions := 0
  sequence := 0
  queueSeconds := 0
  completedByRole := fun _ => 0
  queues := fun _ => []

def makeGate (settings : Settings) : Except String Gate :=
  if settings.policy ≠ schedulerPolicy ∧ settings.policy ≠ schedulerC24Policy then
    .error "PROVIDER_SCHEDULER_POLICY_MISMATCH"
  else if ¬(1 ≤ settings.workers ∧ settings.workers ≤ 24) then
    .error "PROVIDER_CONCURRENCY_INVALID"
  else if (settings.policy.maxWorkers : Int) < settings.workers then
    .error "PROVIDER_CONCURRENCY_INVALID"
  else if ¬(1 ≤ settings.requestsPerSecond ∧
      settings.requestsPerSecond ≤ (settings.policy.maxRps : Int)) then
    .error "HOSTED_LLM_RPS_INVALID"
  else .ok ((settings.recorded.getD []).foldl Gate.replay (emptyGate settings))

def Gate.enqueue (role : Role) (now : ℚ) : Gate × Ticket :=
  let ticket : Ticket := ⟨role, now, 0, gate.sequence + 1⟩
  ({ gate with
      sequence := gate.sequence + 1
      queues := gate.queues.set role (gate.queues role ++ [ticket]) }, ticket)

def Gate.nextTicket : Option Ticket :=
  gate.queues.nextTicket gate.policy.maxPriorityBypass

def Gate.admits (ticket : Ticket) (now : ℚ) : Bool :=
  decide (gate.nextTicket = some ticket) && decide (gate.active < gate.limit) &&
    decide (max gate.notBefore gate.httpNotBefore ≤ now)

def Gate.admitTicket (ticket : Ticket) (now : ℚ) : Gate :=
  { gate with
    queues := gate.queues.dequeue ticket
    active := gate.active + 1
    peak := max gate.peak (gate.active + 1)
    attemptAdmissions := gate.attemptAdmissions + 1
    httpNotBefore := now + 1 / gate.requestsPerSecond
    queueSeconds := gate.queueSeconds + (now - ticket.queued) }

def Gate.withdraw (ticket : Ticket) : Gate :=
  { gate with queues := gate.queues.remove ticket }

/-- How a request failed. -/
structure Failure where
  raw : String
  (osError connectNotSent transient403 : Bool)
  retryAfterSeconds : Option ℚ

variable (failure : Failure)

def Failure.uncertain : Bool :=
  failure.raw == "PROCESSING_UNCERTAIN" || (failure.osError && !failure.connectNotSent)

def Failure.code : String :=
  if failure.transient403 then "TRANSIENT_OVERLOAD"
  else if PyText.startsWith failure.raw "OPENAI_HTTP_" then failure.raw
  else "PROCESSING_UNCERTAIN"

def Gate.rateLimited (now : ℚ) : Gate :=
  let delay := failure.retryAfterSeconds.getD gate.cooldownSeconds
  let limited := { gate with rateLimits := gate.rateLimits + 1, limit := max 1 (gate.limit / 2) }
  if gate.maxCooldownSeconds < delay then { limited with deferred := true }
  else { limited with notBefore := max gate.notBefore (now + delay) }

def Gate.failed (now : ℚ) : Gate :=
  if failure.raw = "OPENAI_HTTP_429" then gate.rateLimited failure now else gate

def Gate.observe (code : Option String) (uncertain written : Bool) : Gate :=
  if gate.recording then
    if written then gate.replay (code, uncertain) else gate
  else gate.observeOutcome code uncertain

/-- A worker is free again. -/
def Gate.release (role : Role) : Gate :=
  { gate with
    active := gate.active - 1
    completedByRole := fun other =>
      gate.completedByRole other + if other = role then 1 else 0 }

/-! ### Attempts -/

/-- How far an admitted request has come. -/
inductive Phase where
  | running
  | ended (code : Option String) (uncertain : Bool)
  | observed

/-- A request that has passed the gate. -/
structure Held where
  ticket : Ticket
  phase : Phase

structure System where
  gate : Gate
  now : ℚ
  held : List Held
  (admitted withdrawn : List Ticket)

inductive Call where
  | pass (elapsed : ℚ≥0)
  | enqueue (role : Role)
  | poll (sequence : Nat)
  | interrupt (sequence : Nat)
  | succeed (sequence : Nat)
  | fail (sequence : Nat) (failure : Failure)
  | observe (sequence : Nat) (written : Bool)
  | release (sequence : Nat)

def System.ticket (state : System) (sequence : Nat) : Option Ticket :=
  state.gate.queues.waiting.find? fun ticket => ticket.sequence = sequence

variable (state : System)

def System.withdraw (ticket : Ticket) : System :=
  { state with
    gate := state.gate.withdraw ticket
    withdrawn := state.withdrawn ++ [ticket] }

def System.admitTicket (ticket : Ticket) : System :=
  { state with
    gate := state.gate.admitTicket ticket state.now
    held := state.held ++ [⟨ticket, .running⟩]
    admitted := state.admitted ++ [ticket] }

def System.poll (ticket : Ticket) : System :=
  if state.gate.circuitOpen then
    { state with gate := { state.gate with circuitDeferred := state.gate.circuitDeferred + 1 } }.withdraw
      ticket
  else if state.gate.deferred then state.withdraw ticket
  else if state.gate.admits ticket state.now then state.admitTicket ticket
  else state

def setPhase (sequence : Nat) (phase : Phase) (held : List Held) : List Held :=
  held.map fun attempt =>
    if attempt.ticket.sequence = sequence then { attempt with phase := phase } else attempt

def System.heldBy (sequence : Nat) : Option Held :=
  state.held.find? fun attempt => attempt.ticket.sequence = sequence

def System.release (attempt : Held) : System :=
  { state with
    gate := state.gate.release attempt.ticket.role
    held := state.held.eraseP fun other => other.ticket.sequence = attempt.ticket.sequence }

def step (call : Call) : System :=
  match call with
  | .pass elapsed => { state with now := state.now + elapsed }
  | .enqueue role => { state with gate := (state.gate.enqueue role state.now).1 }
  | .poll sequence =>
    match state.ticket sequence with
    | some ticket => state.poll ticket
    | none => state
  | .interrupt sequence =>
    match state.ticket sequence with
    | some ticket => state.withdraw ticket
    | none => state
  | .succeed sequence =>
    match state.heldBy sequence with
    | some ⟨_, .running⟩ => { state with held := setPhase sequence (.ended none false) state.held }
    | _ => state
  | .fail sequence failure =>
    match state.heldBy sequence with
    | some ⟨_, .running⟩ =>
      { state with
        gate := state.gate.failed failure state.now
        held := setPhase sequence (.ended (some failure.code) failure.uncertain) state.held }
    | _ => state
  | .observe sequence written =>
    match state.heldBy sequence with
    | some ⟨_, .ended code uncertain⟩ =>
      { state with
        gate := state.gate.observe code uncertain written
        held := setPhase sequence .observed state.held }
    | _ => state
  | .release sequence =>
    match state.heldBy sequence with
    | some attempt =>
      match attempt.phase with
      | .observed => state.release attempt
      | _ => state
    | none => state

def start (gate : Gate) (now : ℚ) : System where
  gate := gate
  now := now
  held := []
  admitted := []
  withdrawn := []

end ProofOps.Adapters.Local.ProviderScheduler
