import Mathlib.Data.Finset.Card
import Mathlib.Tactic.Linarith
import ProofOps.Agent.TransportCalls

/-!
# The stop of the tagging transport

Every request passes the gate before its directory is made, and the gate is where a root is found
stopped, unanswered or disarmed.  A call that was let through still reaches the provider after a
stop is recorded; no other call is let through then.
-/

namespace ProofOps.Agent.TaggingTransport

open Foundation Foundation.Table Foundation.Machine

variable {authorization : Nat} {requestId root : String} {acknowledged : List String}

section Stops

variable {authorizations : Nat → Authorization} {transports : Nat → TransportInfo}
  {calls : Nat → CallInfo} {state after : State} {id : Nat} {step : Step}

/-! ### Who passes the gate -/

/-- The step lets the call through the gate. -/
def Permits (authorizations : Nat → Authorization) (transports : Nat → TransportInfo)
    (calls : Nat → CallInfo) (state : State) (step : Step) (id : Nat) : Prop :=
  state.phases id ≠ .passed ∧ (next authorizations transports calls state step).phases id = .passed

@[simp]
theorem enter_phases (phase : Phase) : (state.enter id phase).phases id = phase :=
  Function.update_self ..

@[simp]
theorem operate_phases (transport : Nat) (operation : Operation) :
    (state.operate transport operation).phases = state.phases := rfl

@[simp]
theorem withDirectories_phases (directories : Table Directory Directory.key) :
    (state.withDirectories directories).phases = state.phases := rfl

@[simp]
theorem withStops_phases (stops : Table Stop Stop.key) :
    (state.withStops stops).phases = state.phases := rfl

@[simp]
theorem authorize_phases (authorization : Nat) (resume : Resume) :
    (state.authorize authorization resume).phases = state.phases := rfl

inductive Spends (authorizations : Nat → Authorization) (transports : Nat → TransportInfo)
    (calls : Nat → CallInfo) (state : State) : Step → (Nat → Resume) → Prop
  | same (step : Step) : Spends authorizations transports calls state step state.resumes
  | gate (id : Nat) : Spends authorizations transports calls state (.call id .gate)
      (permitted authorizations transports calls state id).2.resumes
  | take (id : Nat) (hphase : state.phases id = .passed)
      (halive : state.crashed (calls id).transport = false) :
      Spends authorizations transports calls state (.call id .take)
        (charge transports calls state id).resumes
  | withdraw (id authorization : Nat) (hphase : state.phases id = .withdrawing)
      (halive : state.crashed (calls id).transport = false)
      (hown : authorizationOf transports calls id = some authorization) :
      Spends authorizations transports calls state (.call id .withdraw)
        (Function.update state.resumes authorization
          ((state.resumes authorization).disarm (rootOf transports calls id)))

theorem call_inv (halive : state.crashed (calls id).transport = false) (choice : Choice) :
    ((call authorizations transports calls state id choice).phases id = .passed →
        state.phases id = .passed ∨ choice = .gate ∧ state.phases id = .entered) ∧
      Spends authorizations transports calls state (.call id choice)
        (call authorizations transports calls state id choice).resumes := by
  unfold call
  split
  case h_1 hphase =>
      unfold enter
      dsimp only
      split
      · exact ⟨Or.inl, .same _⟩
      · split_ifs
        · split <;> exact ⟨by simp, .same _⟩
        · exact ⟨by simp, .same _⟩
  case h_2 hphase =>
      refine ⟨fun _ => Or.inr ⟨rfl, hphase⟩, ?_⟩
      unfold gate
      dsimp only
      split
      · exact .same _
      · split_ifs <;> exact .gate id
  case h_3 hphase =>
      refine ⟨fun _ => Or.inl hphase, ?_⟩
      unfold take
      split <;> exact .take id hphase halive
  case h_5 outcome _ => cases outcome <;> exact ⟨by simp [answer], .same _⟩
  case h_6 =>
      unfold look
      dsimp only
      split_ifs <;> exact ⟨by simp, .same _⟩
  case h_7 =>
      unfold create
      split <;> exact ⟨by simp, .same _⟩
  case h_9 hphase =>
      unfold withdraw
      split
      · exact ⟨by simp, .same _⟩
      · exact ⟨by simp, .withdraw id _ hphase halive ‹_›⟩
  case h_10 =>
      unfold respond
      split
      · exact ⟨by simp, .same _⟩
      · split_ifs <;> exact ⟨by simp, .same _⟩
  case h_12 =>
      unfold leave
      dsimp only
      split
      · exact ⟨Or.inl, .same _⟩
      · split_ifs <;> exact ⟨by simp, .same _⟩
  case h_13 =>
      unfold fail
      split <;> first | exact ⟨Or.inl, .same _⟩ | exact ⟨by simp, .same _⟩
  case h_14 => exact ⟨Or.inl, .same _⟩
  all_goals exact ⟨by simp [send, note, complete], .same _⟩

/-- What the gate found when it let a call through. -/
structure Passes (authorizations : Nat → Authorization) (transports : Nat → TransportInfo)
    (calls : Nat → CallInfo) (state : State) (id : Nat) : Prop where
  alive : state.crashed (calls id).transport = false
  complete : state.receipts.incomplete (rootOf transports calls id)
    (state.operations (calls id).transport).active = false
  permitted : (permitted authorizations transports calls state id).1 = true

theorem Permits.passes (h : Permits authorizations transports calls state step id)
    (hsound : Sound transports calls state) :
    step = .call id .gate ∧ Passes authorizations transports calls state id := by
  obtain ⟨hbefore, hafter⟩ := h
  cases step with
  | crash transport => exact absurd hafter hbefore
  | call other choice =>
    unfold next at hafter
    dsimp only at hafter
    split_ifs at hafter with hcrashed
    · exact absurd hafter hbefore
    · have hsame : id = other := by
        by_contra hother
        rw [(call_sound hsound choice).phases id hother] at hafter
        exact hbefore hafter
      subst hsame
      have halive : state.crashed (calls id).transport = false := Bool.not_eq_true _ ▸ hcrashed
      obtain ⟨rfl, hentered⟩ := ((call_inv halive choice).1 hafter).resolve_left hbefore
      unfold call at hafter
      rw [hentered] at hafter
      unfold gate at hafter
      dsimp only at hafter
      split at hafter
      · exact absurd hafter hbefore
      · split_ifs at hafter with hrefused
        · simp at hafter
        · rw [Bool.or_eq_true, not_or, Bool.not_eq_true, Bool.not_eq_true', Bool.not_eq_false]
            at hrefused
          exact ⟨rfl, halive, hrefused.1, hrefused.2⟩

def Withdraws (transports : Nat → TransportInfo) (calls : Nat → CallInfo) (state : State)
    (step : Step) (authorization : Nat) : Prop :=
  ∃ id, step = .call id .withdraw ∧ state.phases id = .withdrawing ∧
    state.crashed (calls id).transport = false ∧
    authorizationOf transports calls id = some authorization

theorem next_spends (authorizations : Nat → Authorization) (transports : Nat → TransportInfo)
    (calls : Nat → CallInfo) (state : State) (step : Step) :
    Spends authorizations transports calls state step
      (next authorizations transports calls state step).resumes := by
  cases step with
  | crash transport => exact .same _
  | call id choice =>
    unfold next
    dsimp only
    split_ifs with hcrashed
    · exact .same _
    · exact (call_inv (Bool.not_eq_true _ ▸ hcrashed) choice).2

/-- A root is armed by the scan of its receipts alone. -/
theorem armed_by_scan (hbefore : (state.resumes authorization).armed root ≠ some true)
    (hafter : ((next authorizations transports calls state step).resumes authorization).armed root =
      some true) :
    scan state.receipts (authorizations authorization).acknowledgedFailures root = true := by
  have hspends := next_spends authorizations transports calls state step
  generalize (next authorizations transports calls state step).resumes = resumes
    at hspends hafter
  cases hspends with
  | same => exact absurd hafter hbefore
  | gate id =>
    unfold permitted at hafter
    split at hafter
    · exact absurd hafter hbefore
    · rename_i own hown
      unfold State.authorize at hafter
      dsimp only at hafter
      by_cases hsame : authorization = own
      · subst hsame
        rw [Function.update_self] at hafter
        unfold Resume.allows at hafter
        split_ifs at hafter
        · dsimp only at hafter
          unfold Resume.scanned at hafter
          split at hafter
          · exact absurd hafter hbefore
          · dsimp only at hafter
            by_cases hroot : root = rootOf transports calls id
            · rw [hroot, Function.update_self, Option.some.injEq] at hafter
              rw [hroot]
              exact hafter
            · rw [Function.update_of_ne hroot] at hafter
              exact absurd hafter hbefore
        · exact absurd hafter hbefore
      · rw [Function.update_of_ne hsame] at hafter
        exact absurd hafter hbefore
  | take id =>
    unfold charge at hafter
    split at hafter
    · exact absurd hafter hbefore
    · rename_i own _
      unfold State.authorize at hafter
      dsimp only at hafter
      by_cases hsame : authorization = own
      · subst hsame
        rw [Function.update_self] at hafter
        unfold Resume.charge at hafter
        split_ifs at hafter <;> exact absurd hafter hbefore
      · rw [Function.update_of_ne hsame] at hafter
        exact absurd hafter hbefore
  | withdraw id own =>
    by_cases hsame : authorization = own
    · subst hsame
      rw [Function.update_self] at hafter
      unfold Resume.disarm at hafter
      dsimp only at hafter
      by_cases hroot : root = rootOf transports calls id
      · rw [hroot, Function.update_self] at hafter
        cases hafter
      · rw [Function.update_of_ne hroot] at hafter
        exact absurd hafter hbefore
    · rw [Function.update_of_ne hsame] at hafter
      exact absurd hafter hbefore

theorem permitted_authorized (hown : authorizationOf transports calls id = some authorization)
    (h : (permitted authorizations transports calls state id).1 = true) :
    0 < (state.resumes authorization).remaining ∧
      ((state.resumes authorization).armed (rootOf transports calls id) = some true ∨
        scan state.receipts (authorizations authorization).acknowledgedFailures
          (rootOf transports calls id) = true) := by
  unfold permitted at h
  rw [hown] at h
  dsimp only at h
  unfold Resume.allows at h
  split_ifs at h with hremaining
  refine ⟨hremaining, ?_⟩
  rw [decide_eq_true_eq] at h
  unfold Resume.scanned at h
  split at h
  · exact Or.inl h
  · dsimp only at h
    rw [Function.update_self, Option.some.injEq] at h
    exact Or.inr h

structure Left (transports : Nat → TransportInfo) (calls : Nat → CallInfo) (state : State)
    (root requestId : String) : Prop where
  unanswered : ∃ directory, state.receipts.directories.find (root, requestId) = some directory ∧
    directory.response = none
  abandoned : ∀ id, receiptKey transports calls id = (root, requestId) →
    ¬InFlight calls state id

theorem call_ended (hphase : state.phases id = .ended) (choice : Choice) :
    call authorizations transports calls state id choice = state := by
  unfold call
  cases choice <;> simp only [fail, hphase]

/-- An abandoned request stays abandoned. -/
theorem Left.next (h : Left transports calls state root requestId)
    (hsound : Sound transports calls state) (step : Step) :
    Left transports calls (next authorizations transports calls state step) root requestId := by
  cases step with
  | crash transport =>
    refine ⟨h.unanswered, fun id hkey hflight => h.abandoned id hkey ?_⟩
    have halive := hflight.alive
    change Function.update state.crashed transport true (calls id).transport = false at halive
    by_cases htransport : (calls id).transport = transport
    · rw [htransport, Function.update_self] at halive
      cases halive
    · rw [Function.update_of_ne htransport] at halive
      exact ⟨hflight.made, halive, hflight.working⟩
  | call id choice =>
    unfold TaggingTransport.next
    dsimp only
    split_ifs with hcrashed
    · exact h
    · have halive : state.crashed (calls id).transport = false := Bool.not_eq_true _ ▸ hcrashed
      have hstep : Advances transports calls state
          (call authorizations transports calls state id choice) id := call_sound hsound choice
      have hothers : ∀ other, other ≠ id → receiptKey transports calls other = (root, requestId) →
          ¬InFlight calls (call authorizations transports calls state id choice) other := by
        intro other hother hkey hflight
        refine h.abandoned other hkey ⟨(hstep.made_other hother).mp hflight.made, ?_, ?_⟩
        · rw [← hstep.crashed]
          exact hflight.alive
        · rw [← hstep.phases other hother]
          exact hflight.working
      by_cases hkey : receiptKey transports calls id = (root, requestId)
      · by_cases hmade : id ∈ state.made
        · -- Its maker is out of `invoke`, and stays there.
          have hended : state.phases id = .ended := by
            have hidle : (state.phases id).working ≠ true := fun hworking =>
              h.abandoned id hkey ⟨hmade, halive, hworking⟩
            cases hphase : state.phases id with
            | ended => rfl
            | ready => exact absurd hmade (hsound.unmade hphase (Or.inl rfl)).1
            | entered => exact absurd hmade (hsound.unmade hphase (Or.inr (Or.inl rfl))).1
            | passed => exact absurd hmade (hsound.unmade hphase (Or.inr (Or.inr rfl))).1
            | _ =>
              rw [hphase] at hidle
              exact absurd rfl hidle
          rw [call_ended hended]
          exact h
        · -- Another call of the key finds the directory there.
          obtain ⟨directory, hfind, hresponse⟩ := h.unanswered
          have hunmade : id ∉ (call authorizations transports calls state id choice).made := by
            rcases hstep.made with hsame | hmakes
            · rwa [hsame]
            · have habsent := hmakes.absent
              rw [hkey, hfind] at habsent
              cases habsent
          refine ⟨⟨directory, ?_, hresponse⟩, fun other hother hflight => ?_⟩
          · rcases hstep.directories (root, requestId) with hsame | ⟨-, hmaker, -⟩
            · rw [hsame]
              exact hfind
            · exact absurd hmaker hunmade
          · by_cases hself : other = id
            · rw [hself] at hflight
              exact hunmade hflight.made
            · exact hothers other hself hother hflight
      · obtain ⟨directory, hfind, hresponse⟩ := h.unanswered
        refine ⟨⟨directory, ?_, hresponse⟩, fun other hother hflight => ?_⟩
        · rcases hstep.directories (root, requestId) with hsame | ⟨hsame, -⟩
          · rw [hsame]
            exact hfind
          · exact absurd hsame.symm hkey
        · by_cases hself : other = id
          · exact hkey (hself ▸ hother)
          · exact hothers other hself hother hflight

theorem Left.closed (h : Left transports calls state root requestId)
    (hsound : Sound transports calls state)
    (hpasses : Passes authorizations transports calls state id) :
    rootOf transports calls id ≠ root := by
  rintro rfl
  obtain ⟨directory, hfind, hresponse⟩ := h.unanswered
  obtain ⟨hmem, hkey⟩ := find_eq_some_iff.mp hfind
  have hroot : directory.root = rootOf transports calls id := congrArg Prod.fst hkey
  have hrequest : directory.requestId = requestId := congrArg Prod.snd hkey
  have hactive : requestId ∈ (state.operations (calls id).transport).active := by
    by_contra hidle
    have hcomplete := hpasses.complete
    unfold Receipts.incomplete at hcomplete
    rw [List.any_eq_false] at hcomplete
    refine hcomplete directory hmem ?_
    rw [hroot, hrequest, hresponse]
    simpa using hidle
  obtain ⟨maker, htransport, hmaker, hflight⟩ := hsound.active _ _ hactive
  refine h.abandoned maker ?_ hflight
  unfold receiptKey rootOf
  rw [htransport, hmaker]

structure Later (state after : State) : Prop where
  stored : ∀ key directory status, state.receipts.directories.find key = some directory →
    directory.response = some (.stored status) →
    after.receipts.directories.find key = some directory
  stopped : ∀ root, state.receipts.stopped root = true → after.receipts.stopped root = true
  spent : ∀ authorization, (state.resumes authorization).remaining ≤ 0 →
    (after.resumes authorization).remaining ≤ 0

theorem Later.refl (state : State) : Later state state :=
  ⟨fun _ _ _ hfind _ => hfind, fun _ h => h, fun _ h => h⟩

theorem Later.trans {third : State} (h : Later state after) (h' : Later after third) :
    Later state third where
  stored := fun key directory status hfind hstored =>
    h'.stored key directory status (h.stored key directory status hfind hstored) hstored
  stopped := fun root hroot => h'.stopped root (h.stopped root hroot)
  spent := fun authorization hspent => h'.spent authorization (h.spent authorization hspent)

theorem next_later (hsound : Sound transports calls state) (step : Step) :
    Later state (next authorizations transports calls state step) := by
  cases step with
  | crash transport => exact ⟨fun _ _ _ hfind _ => hfind, fun _ h => h, fun _ h => h⟩
  | call id choice =>
    unfold next
    dsimp only
    split_ifs
    · exact Later.refl state
    · have hstep : Advances transports calls state
          (call authorizations transports calls state id choice) id := call_sound hsound choice
      exact ⟨hstep.stored, hstep.stopped, hstep.spent⟩

def Acknowledged (receipts : Receipts) (acknowledged : List String) (root : String) : Prop :=
  (∀ directory ∈ receipts.directories, directory.root = root →
    directory.response = some (.stored .succeeded) ∨
      directory.response = some (.stored .failed) ∧ directory.requestId ∈ acknowledged) ∧
  ∀ stop ∈ receipts.stops, stop.root = root →
    ∃ requestId ∈ acknowledged, stop.requestId = some requestId

theorem Directory.accepted_iff {directory : Directory} :
    directory.accepted acknowledged = true ↔ directory.response = some (.stored .succeeded) ∨
      directory.response = some (.stored .failed) ∧ directory.requestId ∈ acknowledged := by
  unfold Directory.accepted
  rcases directory.response with _ | (_ | (_ | _)) <;> simp

theorem Stop.accepted_iff {stop : Stop} :
    stop.accepted acknowledged = true ↔
      ∃ requestId ∈ acknowledged, stop.requestId = some requestId := by
  unfold Stop.accepted
  cases stop.requestId with
  | none => simp
  | some requestId => simp

theorem scan_iff {receipts : Receipts} :
    scan receipts acknowledged root = true ↔ Acknowledged receipts acknowledged root := by
  unfold scan Acknowledged
  simp only [Bool.and_eq_true, List.all_eq_true, Bool.or_eq_true, decide_eq_true_eq,
    Directory.accepted_iff, Stop.accepted_iff, mem_rows, ne_eq, ← imp_iff_not_or]

def Passing (transports : Nat → TransportInfo) (calls : Nat → CallInfo) (state : State)
    (authorization id : Nat) : Prop :=
  state.phases id = .passed ∧ state.crashed (calls id).transport = false ∧
    authorizationOf transports calls id = some authorization

def Authorization.allowance (authorization : Authorization) : Nat :=
  authorization.maxNewRequests - authorization.alreadyDispatched

structure Within (authorizations : Nat → Authorization) (transports : Nat → TransportInfo)
    (calls : Nat → CallInfo) (authorization : Nat) (state : State) : Prop where
  apart : ∀ first second, Passing transports calls state authorization first →
    Passing transports calls state authorization second → first = second
  count : (state.resumes authorization).dispatched.length ≤
    (authorizations authorization).allowance
  remaining : (state.resumes authorization).remaining +
    (state.resumes authorization).dispatched.length ≤ (authorizations authorization).allowance
  room : ∀ id, Passing transports calls state authorization id →
    (calls id).requestId ∉ (state.resumes authorization).dispatched →
    (state.resumes authorization).dispatched.length < (authorizations authorization).allowance

theorem within_initial (authorization : Nat) (receipts : Receipts) :
    Within authorizations transports calls authorization
      (State.initial authorizations receipts) where
  apart := fun _ _ h => by cases h.1
  count := Nat.zero_le _
  remaining := by
    show ((authorizations authorization).maxNewRequests : Int) -
      (authorizations authorization).alreadyDispatched + (([] : List String).length : Int) ≤ _
    unfold Authorization.allowance
    rw [List.length_nil]
    omega
  room := fun _ h => by cases h.1

theorem Passing.before (hsound : Sound transports calls state)
    (h : Passing transports calls (next authorizations transports calls state step)
      authorization id) :
    Passing transports calls state authorization id ∨
      Permits authorizations transports calls state step id := by
  by_cases hphase : state.phases id = .passed
  · refine Or.inl ⟨hphase, ?_, h.2.2⟩
    have halive := h.2.1
    cases step with
    | crash transport =>
      change Function.update state.crashed transport true _ = false at halive
      by_cases htransport : (calls id).transport = transport
      · rw [htransport, Function.update_self] at halive
        cases halive
      · rwa [Function.update_of_ne htransport] at halive
    | call other choice =>
      unfold next at halive
      dsimp only at halive
      split_ifs at halive
      · exact halive
      · rwa [(call_sound hsound choice).crashed] at halive
  · exact Or.inr ⟨hphase, h.1⟩

structure Charges (transports : Nat → TransportInfo) (calls : Nat → CallInfo) (state : State)
    (authorization : Nat) (step : Step) (resume : Resume) (id : Nat) : Prop where
  step : step = .call id .take
  passing : Passing transports calls state authorization id
  fresh : (calls id).requestId ∉ (state.resumes authorization).dispatched
  dispatched : resume.dispatched =
    (state.resumes authorization).dispatched ++ [(calls id).requestId]
  remaining : resume.remaining = (state.resumes authorization).remaining - 1

theorem Spends.counts {resumes : Nat → Resume}
    (h : Spends authorizations transports calls state step resumes) (authorization : Nat) :
    (resumes authorization).dispatched = (state.resumes authorization).dispatched ∧
        ((resumes authorization).remaining = (state.resumes authorization).remaining ∨
          (resumes authorization).remaining = 0) ∨
      ∃ id, Charges transports calls state authorization step (resumes authorization) id := by
  cases h with
  | same => exact Or.inl ⟨rfl, Or.inl rfl⟩
  | gate id =>
    have hkeeps : Keeps state (permitted authorizations transports calls state id).2 :=
      permitted_keeps
    exact Or.inl ⟨hkeeps.dispatched authorization, Or.inl (hkeeps.remaining authorization)⟩
  | take id hphase halive =>
    unfold charge
    split
    · exact Or.inl ⟨rfl, Or.inl rfl⟩
    · rename_i own hown
      unfold State.authorize
      dsimp only
      by_cases hsame : authorization = own
      · subst hsame
        rw [Function.update_self]
        unfold Resume.charge
        split_ifs with hcharged
        · exact Or.inl ⟨rfl, Or.inl rfl⟩
        · refine Or.inr ⟨id, rfl, ⟨hphase, halive, hown⟩, ?_, rfl, rfl⟩
          simpa using hcharged
      · rw [Function.update_of_ne hsame]
        exact Or.inl ⟨rfl, Or.inl rfl⟩
  | withdraw id own =>
    by_cases hsame : authorization = own
    · subst hsame
      rw [Function.update_self]
      exact Or.inl ⟨rfl, Or.inr rfl⟩
    · rw [Function.update_of_ne hsame]
      exact Or.inl ⟨rfl, Or.inl rfl⟩

theorem Within.next (h : Within authorizations transports calls authorization state)
    (hsound : Sound transports calls state)
    (hapart : ∀ id, Permits authorizations transports calls state step id →
      authorizationOf transports calls id = some authorization →
      ∀ other, ¬Passing transports calls state authorization other) :
    Within authorizations transports calls authorization
      (next authorizations transports calls state step) := by
  have hcounts := (next_spends authorizations transports calls state step).counts authorization
  -- A call that was let through found something left, so there is room for it.
  have hroom : ∀ id, Permits authorizations transports calls state step id →
      authorizationOf transports calls id = some authorization →
      (state.resumes authorization).dispatched.length <
        (authorizations authorization).allowance := by
    intro id hpermits hown
    have hremaining := (permitted_authorized hown (hpermits.passes hsound).2.permitted).1
    have hbound := h.remaining
    omega
  refine ⟨?_, ?_, ?_, ?_⟩
  · intro first second hfirst hsecond
    rcases hfirst.before hsound with hfirst' | hpermits
    · rcases hsecond.before hsound with hsecond' | hpermits
      · exact h.apart first second hfirst' hsecond'
      · exact absurd hfirst' (hapart second hpermits hsecond.2.2 first)
    · rcases hsecond.before hsound with hsecond' | hpermits'
      · exact absurd hsecond' (hapart first hpermits hfirst.2.2 second)
      · have hsame := (hpermits.passes hsound).1.symm.trans (hpermits'.passes hsound).1
        rw [Step.call.injEq] at hsame
        exact hsame.1
  · rcases hcounts with ⟨hdispatched, -⟩ | ⟨id, hcharges⟩
    · rw [hdispatched]
      exact h.count
    · rw [hcharges.dispatched, List.length_append, List.length_singleton]
      exact h.room id hcharges.passing hcharges.fresh
  · have hbound := h.remaining
    have hcount := h.count
    rcases hcounts with ⟨hdispatched, hremaining | hremaining⟩ | ⟨id, hcharges⟩
    · rw [hdispatched, hremaining]
      exact hbound
    · rw [hdispatched, hremaining]
      omega
    · rw [hcharges.dispatched, hcharges.remaining, List.length_append, List.length_singleton]
      omega
  · intro id hpassing hfresh
    rcases hcounts with ⟨hdispatched, -⟩ | ⟨charged, hcharges⟩
    · rw [hdispatched] at hfresh ⊢
      rcases hpassing.before hsound with hbefore | hpermits
      · exact h.room id hbefore hfresh
      · exact hroom id hpermits hpassing.2.2
    · exfalso
      rcases hpassing.before hsound with hbefore | hpermits
      · have hsame := h.apart id charged hbefore hcharges.passing
        rw [hcharges.dispatched, hsame] at hfresh
        exact hfresh (List.mem_append_right _ (List.mem_singleton_self _))
      · have hstep := (hpermits.passes hsound).1.symm.trans hcharges.step
        cases hstep

end Stops

variable {steps : List Step}

section Runs

variable (authorizations : Nat → Authorization) (transports : Nat → TransportInfo)
  (calls : Nat → CallInfo) (receipts : Receipts)

/-! ### Runs -/

def run (steps : List Step) : State :=
  after (next authorizations transports calls) (State.initial authorizations receipts) steps

def GatesApart (authorization : Nat) (steps : List Step) : Prop :=
  ∀ front step back id, steps = front ++ step :: back →
    Permits authorizations transports calls (run authorizations transports calls receipts front)
      step id →
    authorizationOf transports calls id = some authorization →
    ∀ other, ¬Passing transports calls (run authorizations transports calls receipts front)
      authorization other

def reached (authorization : Nat) (steps : List Step) : Finset String :=
  (((run authorizations transports calls receipts steps).provider.filter fun id =>
    authorizationOf transports calls id = some authorization).map fun id =>
      (calls id).requestId).toFinset

/-- What a run keeps of stops and authorizations. -/
structure DurableStop (steps : List Step) : Prop where
  once : ((run authorizations transports calls receipts steps).provider.map
    (receiptKey transports calls)).Nodup
  gated : ∀ id ∈ (run authorizations transports calls receipts steps).provider,
    ∃ front step back, steps = front ++ step :: back ∧
      Permits authorizations transports calls (run authorizations transports calls receipts front)
        step id
  unaltered : ∀ front back, steps = front ++ back → ∀ key directory status,
    (run authorizations transports calls receipts front).receipts.directories.find key =
      some directory →
    directory.response = some (.stored status) →
    (run authorizations transports calls receipts steps).receipts.directories.find key =
      some directory
  unanswered : ∀ front middle step back root requestId id,
    steps = front ++ middle ++ step :: back →
    Left transports calls (run authorizations transports calls receipts front) root requestId →
    Permits authorizations transports calls
      (run authorizations transports calls receipts (front ++ middle)) step id →
    rootOf transports calls id ≠ root
  stopped : ∀ front middle step back root id, steps = front ++ middle ++ step :: back →
    (run authorizations transports calls receipts front).receipts.stopped root = true →
    Permits authorizations transports calls
      (run authorizations transports calls receipts (front ++ middle)) step id →
    authorizationOf transports calls id = none → rootOf transports calls id ≠ root
  armed : ∀ front step back id authorization, steps = front ++ step :: back →
    Permits authorizations transports calls (run authorizations transports calls receipts front)
      step id →
    authorizationOf transports calls id = some authorization →
    ∃ early late, front = early ++ late ∧
      Acknowledged (run authorizations transports calls receipts early).receipts
        (authorizations authorization).acknowledgedFailures (rootOf transports calls id) ∧
      ∀ directory ∈ (run authorizations transports calls receipts front).receipts.directories,
        directory.root = rootOf transports calls id →
        directory.accepted (authorizations authorization).acknowledgedFailures = false →
        (run authorizations transports calls receipts early).receipts.directories.find
          directory.key = none
  recorded : ∀ front back id, steps = front ++ back →
    (run authorizations transports calls receipts front).phases id = .filling .failed true →
    Recorded transports calls (run authorizations transports calls receipts front) id
  withdrawn : ∀ front withdrawal middle step back id authorization,
    steps = front ++ withdrawal :: (middle ++ step :: back) →
    Withdraws transports calls (run authorizations transports calls receipts front) withdrawal
      authorization →
    Permits authorizations transports calls
      (run authorizations transports calls receipts (front ++ withdrawal :: middle)) step id →
    authorizationOf transports calls id ≠ some authorization
  bounded : ∀ authorization,
    GatesApart authorizations transports calls receipts authorization steps →
    (reached authorizations transports calls receipts authorization steps).card ≤
      (authorizations authorization).allowance

variable {authorizations transports calls receipts}

theorem run_append (front back : List Step) :
    run authorizations transports calls receipts (front ++ back) =
      after (next authorizations transports calls)
        (run authorizations transports calls receipts front) back :=
  after_append _ _ _

/-- Every run is sound. -/
theorem run_sound (steps : List Step) :
    Sound transports calls (run authorizations transports calls receipts steps) :=
  after_invariant (fun state step (h : Sound transports calls state) => next_sound h step)
    (sound_initial receipts) steps

theorem run_later (front back : List Step) :
    Later (run authorizations transports calls receipts front)
      (run authorizations transports calls receipts (front ++ back)) := by
  rw [run_append]
  exact after_related (fun _ step h => next_sound h step) Later.refl Later.trans
    (fun _ step h => next_later h step) (run_sound front) back

theorem run_left {front : List Step} (back : List Step)
    (h : Left transports calls (run authorizations transports calls receipts front) root
      requestId) :
    Left transports calls (run authorizations transports calls receipts (front ++ back)) root
      requestId := by
  induction back generalizing front with
  | nil => rwa [List.append_nil]
  | cons step back ih =>
    have hnext : Left transports calls
        (run authorizations transports calls receipts (front ++ [step])) root requestId := by
      rw [run_append]
      exact h.next (run_sound front) step
    have hrest := ih hnext
    rwa [List.append_assoc, List.singleton_append] at hrest

theorem run_within (h : GatesApart authorizations transports calls receipts authorization steps) :
    Within authorizations transports calls authorization
      (run authorizations transports calls receipts steps) := by
  induction steps using List.reverseRecOn with
  | nil => exact within_initial authorization receipts
  | append_singleton front step ih =>
    have hfront : GatesApart authorizations transports calls receipts authorization front := by
      intro early other late id hsplit
      exact h early other (late ++ [step]) id (by rw [hsplit, List.append_assoc]; rfl)
    rw [run_append]
    refine (ih hfront).next (run_sound front) fun id hpermits hown => ?_
    exact h front step [] id rfl hpermits hown

theorem reached_charged (authorization : Nat) (steps : List Step) :
    reached authorizations transports calls receipts authorization steps ⊆
      ((run authorizations transports calls receipts steps).resumes
        authorization).dispatched.toFinset := by
  intro requestId hmem
  have hsound : Sound transports calls (run authorizations transports calls receipts steps) :=
    run_sound steps
  obtain ⟨id, hid, rfl⟩ := List.mem_map.mp (List.mem_toFinset.mp hmem)
  obtain ⟨hsent, hown⟩ := List.mem_filter.mp hid
  exact List.mem_toFinset.mpr
    (hsound.charged id (hsound.sent hsent) authorization (of_decide_eq_true hown))

theorem made_gated {id : Nat}
    (hmade : id ∈ (run authorizations transports calls receipts steps).made) :
    ∃ front step back, steps = front ++ step :: back ∧
      Permits authorizations transports calls (run authorizations transports calls receipts front)
        step id := by
  let p := fun state : State => state.phases id = .passed ∨ id ∈ state.made
  have hstart : ¬p (State.initial authorizations receipts) := by rintro (h | h) <;> cases h
  have hend : p (after (next authorizations transports calls)
      (State.initial authorizations receipts) steps) := Or.inr hmade
  obtain ⟨front, step, back, rfl, hbefore, hafter⟩ := exists_step hstart hend
  replace hbefore := not_or.mp hbefore
  refine ⟨front, step, back, rfl, hbefore.1, ?_⟩
  rcases hafter with hpassed | hmade'
  · exact hpassed
  · -- Only a call that holds the gate makes its directory.
    exfalso
    have hsound : Sound transports calls (run authorizations transports calls receipts front) :=
      run_sound front
    cases step with
    | crash transport => exact hbefore.2 hmade'
    | call other choice =>
      unfold next at hmade'
      dsimp only at hmade'
      split_ifs at hmade'
      · exact hbefore.2 hmade'
      · have hstep : Advances transports calls _ (call authorizations transports calls
            (run authorizations transports calls receipts front) other choice) other :=
          call_sound hsound choice
        by_cases hother : id = other
        · subst hother
          rcases hstep.made with hsame | hmakes
          · exact hbefore.2 (hsame ▸ hmade')
          · exact hbefore.1 hmakes.passed
        · exact hbefore.2 ((hstep.made_other hother).mp hmade')

theorem armed_since
    (h : ((run authorizations transports calls receipts steps).resumes authorization).armed root =
      some true) :
    ∃ early late, steps = early ++ late ∧
      scan (run authorizations transports calls receipts early).receipts
        (authorizations authorization).acknowledgedFailures root = true := by
  obtain ⟨front, step, back, rfl, hbefore, hafter⟩ := exists_step
    (p := fun state : State => (state.resumes authorization).armed root = some true)
    (fun h => by cases h) h
  exact ⟨front, step :: back, rfl, armed_by_scan hbefore hafter⟩

/-- The tagging transport keeps its stop in every run, up to the calls already let through. -/
theorem durable_stop (steps : List Step) :
    DurableStop authorizations transports calls receipts steps where
  once := by
    have hsound : Sound transports calls (run authorizations transports calls receipts steps) :=
      run_sound steps
    refine hsound.once.map_on fun first hfirst second hsecond hkey => ?_
    exact hsound.maker_unique (hsound.sent hfirst) (hsound.sent hsecond) hkey
  gated := fun id hid => made_gated ((run_sound steps).sent hid)
  unaltered := by
    rintro front back rfl
    exact (run_later front back).stored
  unanswered := by
    rintro front middle step back root requestId id rfl hleft hpermits
    have hsound : Sound transports calls
        (run authorizations transports calls receipts (front ++ middle)) := run_sound _
    exact (run_left middle hleft).closed hsound (hpermits.passes hsound).2
  stopped := by
    rintro front middle step back root id rfl hstopped hpermits hnone rfl
    have hpasses := (hpermits.passes (run_sound _)).2.permitted
    unfold permitted at hpasses
    dsimp only at hpasses
    rw [hnone] at hpasses
    rw [(run_later front middle).stopped _ hstopped] at hpasses
    cases hpasses
  armed := by
    rintro front step back id authorization rfl hpermits hown
    have hpermitted := (hpermits.passes (run_sound _)).2.permitted
    obtain ⟨early, late, rfl, hscan⟩ : ∃ early late, front = early ++ late ∧
        scan (run authorizations transports calls receipts early).receipts
          (authorizations authorization).acknowledgedFailures (rootOf transports calls id) =
          true := by
      rcases (permitted_authorized hown hpermitted).2 with harmed | hscan
      · exact armed_since harmed
      · exact ⟨front, [], (List.append_nil front).symm, hscan⟩
    refine ⟨early, late, rfl, scan_iff.mp hscan, fun directory hmem hroot hrefused => ?_⟩
    by_contra hpresent
    obtain ⟨old, hold⟩ := Option.ne_none_iff_exists'.mp hpresent
    obtain ⟨holdmem, hkey⟩ := find_eq_some_iff.mp hold
    have hsame : old = directory := by
      have hresponse := (scan_iff.mp hscan).1 old holdmem ((congrArg Prod.fst hkey).trans hroot)
      have hlater : ∃ status, old.response = some (.stored status) := by
        rcases hresponse with hstored | ⟨hstored, -⟩ <;> exact ⟨_, hstored⟩
      obtain ⟨status, hstored⟩ := hlater
      have hfind := (run_later early late).stored directory.key old status hold hstored
      exact Option.some.inj (hfind.symm.trans (find_of_mem hmem))
    rw [← hsame, Directory.accepted_iff.mpr ((scan_iff.mp hscan).1 old holdmem
      ((congrArg Prod.fst hkey).trans hroot))] at hrefused
    cases hrefused
  recorded := by
    rintro front back id rfl hphase
    have hsound : Sound transports calls (run authorizations transports calls receipts front) :=
      run_sound front
    have hfits := hsound.fits id
    rw [hphase] at hfits
    exact hfits.2.1 rfl
  withdrawn := by
    rintro front _ middle step back id authorization rfl ⟨own, rfl, hphase, halive, hown⟩ hpermits
      hsame
    have hremaining :=
      (permitted_authorized hsame (hpermits.passes (run_sound _)).2.permitted).1
    have hspent : ((run authorizations transports calls receipts
        (front ++ [.call own .withdraw])).resumes authorization).remaining ≤ 0 := by
      rw [run_append, after_cons, after_nil]
      unfold next
      dsimp only
      rw [halive, if_neg (by simp)]
      unfold call
      rw [hphase]
      unfold withdraw
      rw [hown]
      show (Function.update (run authorizations transports calls receipts front).resumes
        authorization _ authorization).remaining ≤ 0
      rw [Function.update_self]
      exact le_refl 0
    have hlater := (run_later (front ++ [.call own .withdraw]) middle).spent authorization hspent
    rw [List.append_assoc, List.singleton_append] at hlater
    exact absurd hlater (not_le.mpr hremaining)
  bounded := by
    intro authorization hapart
    calc (reached authorizations transports calls receipts authorization steps).card
        ≤ ((run authorizations transports calls receipts steps).resumes
            authorization).dispatched.toFinset.card :=
          Finset.card_le_card (reached_charged authorization steps)
      _ ≤ ((run authorizations transports calls receipts steps).resumes
            authorization).dispatched.length := List.toFinset_card_le _
      _ ≤ (authorizations authorization).allowance := (run_within hapart).count

end Runs

/-! ### Calls that were let through -/

namespace Sample

def authorizations (authorization : Nat) : Authorization where
  acknowledgedFailures := []
  maxNewRequests := 2
  alreadyDispatched := if authorization = 0 then 1 else 0
  bounded := by decide
  unspent := by split <;> decide

def transports : Nat → TransportInfo
  | 0 => { root := "elements", authorization := none }
  | 1 => { root := "elements", authorization := some 0 }
  | 2 => { root := "relation", authorization := some 0 }
  | 3 => { root := "elements", authorization := some 1 }
  | 4 => { root := "relation", authorization := some 1 }
  | _ => { root := "preliminary", authorization := some 1 }

def calls : Nat → CallInfo
  | 0 => { transport := 0, requestId := "zero" }
  | 1 => { transport := 0, requestId := "one" }
  | 2 => { transport := 3, requestId := "two" }
  | 3 => { transport := 3, requestId := "three" }
  | 4 => { transport := 1, requestId := "four" }
  | 5 => { transport := 2, requestId := "five" }
  | transport + 3 => { transport := transport, requestId := "same" }

def receipts : Receipts where
  directories := Table.empty
  stops := Table.empty

def state (steps : List Step) : State :=
  run authorizations transports calls receipts steps

def dispatch (id : Nat) : List Step :=
  [.call id .enter, .call id .gate, .call id .take, .call id .send]

def success (id : Nat) : List Step :=
  [.call id (.answer .succeeded), .call id .respond, .call id .complete, .call id .leave]

def failure (id : Nat) : List Step :=
  [.call id (.answer .stops), .call id .look, .call id .create, .call id .note]

def stop (id : Nat) : List Step :=
  [.call id .withdraw, .call id .respond, .call id .complete, .call id .leave]

def together : List Step :=
  dispatch 0 ++ [.call 1 .enter, .call 1 .gate, .call 1 .take] ++ failure 0

def stoppedSince : List Step :=
  dispatch 2 ++ success 2 ++ dispatch 0 ++ failure 0 ++ stop 0 ++ [.call 3 .enter]

def overlapping : List Step :=
  [.call 4 .enter, .call 5 .enter, .call 4 .gate, .call 5 .gate, .call 4 .take, .call 5 .take,
    .call 4 .send, .call 5 .send]

def repeated : List Step :=
  dispatch 6 ++ success 6 ++ dispatch 7 ++ success 7 ++ dispatch 8

end Sample

theorem stop_overrun :
    ((Sample.state Sample.together).receipts.stopped "elements" = true ∧
      (rootOf Sample.transports Sample.calls 1 = "elements" ∧
        authorizationOf Sample.transports Sample.calls 1 = none) ∧
      1 ∉ (Sample.state Sample.together).provider ∧
      1 ∈ (Sample.state (Sample.together ++ [.call 1 .send])).provider) ∧
    (scan (Sample.state Sample.stoppedSince).receipts
        (Sample.authorizations 1).acknowledgedFailures "elements" = false ∧
      (rootOf Sample.transports Sample.calls 3 = "elements" ∧
        authorizationOf Sample.transports Sample.calls 3 = some 1) ∧
      3 ∉ (Sample.state Sample.stoppedSince).provider ∧
      3 ∈ (Sample.state (Sample.stoppedSince ++
        [.call 3 .gate, .call 3 .take, .call 3 .send])).provider) ∧
    ((Sample.authorizations 0).allowance = 1 ∧
      reached Sample.authorizations Sample.transports Sample.calls Sample.receipts 0
        Sample.overlapping = {"four", "five"}) ∧
    ((Sample.authorizations 1).allowance = 2 ∧
      (Sample.state Sample.repeated).provider = [6, 7, 8] ∧
      ∀ id ∈ [6, 7, 8], authorizationOf Sample.transports Sample.calls id = some 1) := by
  decide +kernel

end ProofOps.Agent.TaggingTransport
