import ProofOps.Agent.TaggingTransport
import ProofOps.Foundation.Machine

/-!
# What a call of the tagging transport rests on

A call that made its directory is the only one that ever writes in it, because no two calls of
one key are made.  A call whose failure stops the root comes to its response only behind a stop
record, and with its authorization withdrawn.
-/

namespace ProofOps.Agent.TaggingTransport

open Foundation Foundation.Table Foundation.Machine

variable {phase : Phase} {other : Nat}

section Calls

variable {authorizations : Nat → Authorization} {transports : Nat → TransportInfo}
  {calls : Nat → CallInfo} {state after : State} {id : Nat}

/-! ### The phases -/

def Spent (transports : Nat → TransportInfo) (calls : Nat → CallInfo) (state : State)
    (id : Nat) : Prop :=
  ∀ authorization, authorizationOf transports calls id = some authorization →
    (state.resumes authorization).remaining ≤ 0

def Recorded (transports : Nat → TransportInfo) (calls : Nat → CallInfo) (state : State)
    (id : Nat) : Prop :=
  state.receipts.stopped (rootOf transports calls id) = true ∧ Spent transports calls state id

def Fits (transports : Nat → TransportInfo) (calls : Nat → CallInfo) (state : State) (id : Nat) :
    Phase → Prop
  | .ready | .entered | .passed => id ∉ state.made ∧ id ∉ state.provider
  | .created => id ∈ state.made ∧ id ∉ state.provider
  | .awaiting | .stopping | .recording _ => id ∈ state.made
  | .noting _ | .withdrawing => id ∈ state.made ∧
      state.receipts.stopped (rootOf transports calls id) = true
  | .finishing _ stops => id ∈ state.made ∧ (stops = true → Recorded transports calls state id)
  | .filling _ stops => id ∈ state.made ∧ (stops = true → Recorded transports calls state id) ∧
      state.receipts.directories.find (receiptKey transports calls id) =
        some (answered transports calls id .unreadable)
  | .leaving | .ended => True

def Phase.working : Phase → Bool
  | .ready | .entered | .passed | .ended => false
  | .created | .awaiting | .stopping | .recording _ | .noting _ | .withdrawing | .finishing _ _
    | .filling _ _ | .leaving => true

structure InFlight (calls : Nat → CallInfo) (state : State) (id : Nat) : Prop where
  made : id ∈ state.made
  alive : state.crashed (calls id).transport = false
  working : (state.phases id).working = true

/-- What holds between any two steps. -/
structure Sound (transports : Nat → TransportInfo) (calls : Nat → CallInfo) (state : State) :
    Prop where
  fits : ∀ id, Fits transports calls state id (state.phases id)
  distinct : (state.made.map (receiptKey transports calls)).Nodup
  present : ∀ id ∈ state.made,
    state.receipts.directories.find (receiptKey transports calls id) ≠ none
  sent : state.provider ⊆ state.made
  once : state.provider.Nodup
  active : ∀ transport, ∀ requestId ∈ (state.operations transport).active,
    ∃ id, (calls id).transport = transport ∧ (calls id).requestId = requestId ∧
      InFlight calls state id
  charged : ∀ id ∈ state.made, ∀ authorization,
    authorizationOf transports calls id = some authorization →
    (calls id).requestId ∈ (state.resumes authorization).dispatched

theorem sound_initial (receipts : Receipts) :
    Sound transports calls (State.initial authorizations receipts) where
  fits := fun _ => ⟨List.not_mem_nil, List.not_mem_nil⟩
  distinct := List.nodup_nil
  present := fun _ h => absurd h List.not_mem_nil
  sent := List.nil_subset _
  once := List.nodup_nil
  active := fun _ _ h => absurd h List.not_mem_nil
  charged := fun _ h => absurd h List.not_mem_nil

theorem Sound.unmade (h : Sound transports calls state)
    (hphase : state.phases id = phase) (hearly : phase = .ready ∨ phase = .entered ∨
      phase = .passed) : id ∉ state.made ∧ id ∉ state.provider := by
  have hfits := h.fits id
  rw [hphase] at hfits
  rcases hearly with rfl | rfl | rfl <;> exact hfits

theorem Sound.maker_unique (h : Sound transports calls state) {first second : Nat}
    (hfirst : first ∈ state.made) (hsecond : second ∈ state.made)
    (hkey : receiptKey transports calls first = receiptKey transports calls second) :
    first = second :=
  List.inj_on_of_nodup_map h.distinct hfirst hsecond hkey

/-! ### A step of a call -/

structure Makes (transports : Nat → TransportInfo) (calls : Nat → CallInfo)
    (state after : State) (id : Nat) : Prop where
  made : after.made = state.made ++ [id]
  passed : state.phases id = .passed
  created : after.phases id = .created
  absent : state.receipts.directories.find (receiptKey transports calls id) = none
  present : after.receipts.directories.find (receiptKey transports calls id) ≠ none
  charged : ∀ authorization, authorizationOf transports calls id = some authorization →
    (calls id).requestId ∈ (after.resumes authorization).dispatched

/-- What a step of one call may change. -/
structure Advances (transports : Nat → TransportInfo) (calls : Nat → CallInfo)
    (state after : State) (id : Nat) : Prop where
  phases : ∀ other, other ≠ id → after.phases other = state.phases other
  crashed : after.crashed = state.crashed
  made : after.made = state.made ∨ Makes transports calls state after id
  provider : after.provider = state.provider ∨
    after.provider = state.provider ++ [id] ∧ id ∈ state.made ∧ id ∉ state.provider
  directories : ∀ key, after.receipts.directories.find key = state.receipts.directories.find key ∨
    key = receiptKey transports calls id ∧ id ∈ after.made ∧
      after.receipts.directories.find key ≠ none
  stored : ∀ key directory status, state.receipts.directories.find key = some directory →
    directory.response = some (.stored status) →
    after.receipts.directories.find key = some directory
  stopped : ∀ root, state.receipts.stopped root = true → after.receipts.stopped root = true
  spent : ∀ authorization, (state.resumes authorization).remaining ≤ 0 →
    (after.resumes authorization).remaining ≤ 0
  dispatched : ∀ authorization,
    (state.resumes authorization).dispatched ⊆ (after.resumes authorization).dispatched
  active : ∀ transport, ∀ requestId ∈ (after.operations transport).active,
    (requestId ∈ (state.operations transport).active ∧
      ((state.phases id).working = true → transport = (calls id).transport →
        requestId = (calls id).requestId → (after.phases id).working = true)) ∨
      transport = (calls id).transport ∧ requestId = (calls id).requestId ∧
        id ∈ after.made ∧ after.phases id = .created
  fits : Fits transports calls after id (after.phases id)

section Advancing

variable (h : Advances transports calls state after id)

include h

theorem Advances.made_mono : state.made ⊆ after.made := by
  rcases h.made with hmade | hmakes
  · rw [hmade]
    exact List.Subset.refl _
  · rw [hmakes.made]
    exact List.subset_append_left _ _

theorem Advances.made_other (hother : other ≠ id) : other ∈ after.made ↔ other ∈ state.made := by
  rcases h.made with hmade | hmakes
  · rw [hmade]
  · rw [hmakes.made, List.mem_append, List.mem_singleton, or_iff_left hother]

theorem Advances.provider_other
    (hother : other ≠ id) : other ∈ after.provider ↔ other ∈ state.provider := by
  rcases h.provider with hprovider | ⟨hprovider, -⟩
  · rw [hprovider]
  · rw [hprovider, List.mem_append, List.mem_singleton, or_iff_left hother]

theorem Advances.find_mono {key : String × String}
    (hfind : state.receipts.directories.find key ≠ none) :
    after.receipts.directories.find key ≠ none := by
  rcases h.directories key with hsame | ⟨-, -, hpresent⟩
  · rwa [hsame]
  · exact hpresent

theorem Advances.recorded (hrecorded : Recorded transports calls state other) :
    Recorded transports calls after other :=
  ⟨h.stopped _ hrecorded.1, fun authorization hauthorization =>
    h.spent authorization (hrecorded.2 authorization hauthorization)⟩

/-- Directories are made once. -/
theorem Advances.distinct (hsound : Sound transports calls state) :
    (after.made.map (receiptKey transports calls)).Nodup := by
  rcases h.made with hmade | hmakes
  · rw [hmade]
    exact hsound.distinct
  · rw [hmakes.made, List.map_append, List.map_singleton, List.nodup_append]
    refine ⟨hsound.distinct, List.nodup_singleton _, ?_⟩
    intro key hkey last hlast hsame
    rw [List.mem_singleton] at hlast
    obtain ⟨maker, hmaker, hmade⟩ := List.mem_map.mp hkey
    refine hsound.present maker hmaker ?_
    rw [hmade, hsame, hlast]
    exact hmakes.absent

theorem Advances.fits_other (hsound : Sound transports calls state) (hother : other ≠ id)
    (hfits : Fits transports calls state other phase) :
    Fits transports calls after other phase := by
  have hmade := h.made_other hother
  have hprovider := h.provider_other hother
  cases phase with
  | ready | entered | passed =>
    exact ⟨fun hmem => hfits.1 (hmade.mp hmem), fun hmem => hfits.2 (hprovider.mp hmem)⟩
  | created => exact ⟨hmade.mpr hfits.1, fun hmem => hfits.2 (hprovider.mp hmem)⟩
  | awaiting | stopping | recording => exact hmade.mpr hfits
  | noting | withdrawing => exact ⟨hmade.mpr hfits.1, h.stopped _ hfits.2⟩
  | finishing => exact ⟨hmade.mpr hfits.1, fun hstops => h.recorded (hfits.2 hstops)⟩
  | filling =>
    refine ⟨hmade.mpr hfits.1, fun hstops => h.recorded (hfits.2.1 hstops), ?_⟩
    rcases h.directories (receiptKey transports calls other) with hsame | ⟨hkey, hmaker, -⟩
    · rw [hsame]
      exact hfits.2.2
    · exact absurd (List.inj_on_of_nodup_map (h.distinct hsound) (hmade.mpr hfits.1) hmaker hkey)
        hother
  | leaving | ended => trivial

theorem Advances.inFlight (hflight : InFlight calls state other)
    (hworking : other = id → (after.phases id).working = true) : InFlight calls after other := by
  refine ⟨h.made_mono hflight.made, by rw [h.crashed]; exact hflight.alive, ?_⟩
  by_cases hother : other = id
  · rw [hother]
    exact hworking hother
  · rw [h.phases other hother]
    exact hflight.working

theorem Advances.sound (hsound : Sound transports calls state)
    (halive : state.crashed (calls id).transport = false) : Sound transports calls after where
  fits := by
    intro other
    by_cases hother : other = id
    · rw [hother]
      exact h.fits
    · rw [h.phases other hother]
      exact h.fits_other hsound hother (hsound.fits other)
  distinct := h.distinct hsound
  present := by
    intro maker hmaker
    by_cases hold : maker ∈ state.made
    · exact h.find_mono (hsound.present maker hold)
    · rcases h.made with hmade | hmakes
      · rw [hmade] at hmaker
        exact absurd hmaker hold
      · rw [hmakes.made, List.mem_append, List.mem_singleton, or_iff_right hold] at hmaker
        rw [hmaker]
        exact hmakes.present
  sent := by
    rcases h.provider with hprovider | ⟨hprovider, hmade, -⟩
    · rw [hprovider]
      exact fun caller hcaller => h.made_mono (hsound.sent hcaller)
    · rw [hprovider]
      intro caller hcaller
      rcases List.mem_append.mp hcaller with hold | hlast
      · exact h.made_mono (hsound.sent hold)
      · rw [List.mem_singleton] at hlast
        rw [hlast]
        exact h.made_mono hmade
  once := by
    rcases h.provider with hprovider | ⟨hprovider, -, hunsent⟩
    · rw [hprovider]
      exact hsound.once
    · rw [hprovider]
      exact hsound.once.append (List.nodup_singleton _)
        (List.disjoint_singleton.mpr hunsent)
  active := by
    intro transport requestId hactive
    rcases h.active transport requestId hactive with ⟨hold, hworking⟩ | ⟨rfl, rfl, hmade, hcreated⟩
    · obtain ⟨other, htransport, hrequest, hflight⟩ := hsound.active transport requestId hold
      refine ⟨other, htransport, hrequest, h.inFlight hflight ?_⟩
      rintro rfl
      exact hworking hflight.working htransport.symm hrequest.symm
    · refine ⟨id, rfl, rfl, hmade, ?_, ?_⟩
      · rw [h.crashed]
        exact halive
      · rw [hcreated]
        rfl
  charged := by
    intro maker hmaker authorization hauthorization
    by_cases hold : maker ∈ state.made
    · exact h.dispatched authorization (hsound.charged maker hold authorization hauthorization)
    · rcases h.made with hmade | hmakes
      · rw [hmade] at hmaker
        exact absurd hmaker hold
      · rw [hmakes.made, List.mem_append, List.mem_singleton, or_iff_right hold] at hmaker
        rw [hmaker] at hauthorization ⊢
        exact hmakes.charged authorization hauthorization

end Advancing

/-! ### Steps that touch no store -/

structure Keeps (state after : State) : Prop where
  receipts : after.receipts = state.receipts
  crashed : after.crashed = state.crashed
  made : after.made = state.made
  provider : after.provider = state.provider
  remaining : ∀ authorization,
    (after.resumes authorization).remaining = (state.resumes authorization).remaining
  dispatched : ∀ authorization,
    (after.resumes authorization).dispatched = (state.resumes authorization).dispatched

theorem Keeps.refl (state : State) : Keeps state state :=
  ⟨rfl, rfl, rfl, rfl, fun _ => rfl, fun _ => rfl⟩

theorem Fits.keeps (h : Fits transports calls state id phase)
    (hkeeps : Keeps state after) : Fits transports calls after id phase := by
  have hrecorded : Recorded transports calls state id → Recorded transports calls after id := by
    rintro ⟨hstopped, hspent⟩
    refine ⟨by rw [hkeeps.receipts]; exact hstopped, fun authorization hauthorization => ?_⟩
    rw [hkeeps.remaining]
    exact hspent authorization hauthorization
  cases phase <;> simp only [Fits, hkeeps.receipts, hkeeps.made, hkeeps.provider] at h ⊢
  case finishing | filling => exact ⟨h.1, by tauto⟩
  all_goals exact h

theorem Keeps.advances {phase : Phase} (hkeeps : Keeps state after)
    (hphases : after.phases = Function.update state.phases id phase)
    (hactive : ∀ transport, ∀ requestId ∈ (after.operations transport).active,
      requestId ∈ (state.operations transport).active ∧
        ((state.phases id).working = true → transport = (calls id).transport →
          requestId = (calls id).requestId → phase.working = true))
    (hfits : Fits transports calls state id phase) :
    Advances transports calls state after id where
  phases := fun other hother => by rw [hphases, Function.update_of_ne hother]
  crashed := hkeeps.crashed
  made := Or.inl hkeeps.made
  provider := Or.inl hkeeps.provider
  directories := fun key => Or.inl (by rw [hkeeps.receipts])
  stored := fun key directory status hfind _ => by rw [hkeeps.receipts]; exact hfind
  stopped := fun root hstopped => by rw [hkeeps.receipts]; exact hstopped
  spent := fun authorization hspent => by rw [hkeeps.remaining]; exact hspent
  dispatched := fun authorization => by rw [hkeeps.dispatched]; exact List.Subset.refl _
  active := fun transport requestId hmem => Or.inl (by
    rw [hphases, Function.update_self]
    exact hactive transport requestId hmem)
  fits := by
    rw [hphases, Function.update_self]
    exact hfits.keeps hkeeps

theorem advances_refl (h : Sound transports calls state) : Advances transports calls state state id :=
  (Keeps.refl state).advances (Function.update_eq_self id state.phases).symm
    (fun _ _ hmem => ⟨hmem, fun hworking _ _ => hworking⟩) (h.fits id)

theorem enter_advances (hfits : Fits transports calls state id phase)
    (hworking : (state.phases id).working = true → phase.working = true) :
    Advances transports calls state (state.enter id phase) id :=
  Keeps.advances ⟨rfl, rfl, rfl, rfl, fun _ => rfl, fun _ => rfl⟩ rfl
    (fun _ _ hmem => ⟨hmem, fun h _ _ => hworking h⟩) hfits

theorem mem_active_update {operations : Nat → Operation} {transport : Nat}
    {operation : Operation} {requestId : String}
    (hmem : requestId ∈ (Function.update operations transport operation other).active)
    (hactive : operation.active ⊆ (operations transport).active) :
    requestId ∈ (operations other).active := by
  by_cases hother : other = transport
  · rw [hother, Function.update_self] at hmem
    rw [hother]
    exact hactive hmem
  · rwa [Function.update_of_ne hother] at hmem

theorem resumes_update {authorization : Nat} {resume : Resume}
    (hremaining : resume.remaining = (state.resumes authorization).remaining)
    (hdispatched : resume.dispatched = (state.resumes authorization).dispatched) (other : Nat) :
    ((state.authorize authorization resume).resumes other).remaining =
        (state.resumes other).remaining ∧
      ((state.authorize authorization resume).resumes other).dispatched =
        (state.resumes other).dispatched := by
  unfold State.authorize
  dsimp only
  by_cases hother : other = authorization
  · rw [hother, Function.update_self]
    exact ⟨hremaining, hdispatched⟩
  · rw [Function.update_of_ne hother]
    exact ⟨rfl, rfl⟩

theorem enter_sound (hphase : state.phases id = .ready) (h : Sound transports calls state) :
    Advances transports calls state (enter transports calls state id) id := by
  have hunmade := h.unmade hphase (Or.inl rfl)
  have hidle : (state.phases id).working ≠ true := by
    rw [hphase]
    simp [Phase.working]
  unfold enter
  dsimp only
  split
  · exact advances_refl h
  · split_ifs with husers
    · split
      · exact enter_advances trivial fun hworking => absurd hworking hidle
      · refine Keeps.advances ⟨rfl, rfl, rfl, rfl, fun _ => rfl, fun _ => rfl⟩ rfl ?_ hunmade
        intro transport requestId hmem
        exact ⟨mem_active_update hmem (List.Subset.refl _),
          fun hworking => absurd hworking hidle⟩
    · refine Keeps.advances ⟨rfl, rfl, rfl, rfl, fun _ => rfl, fun _ => rfl⟩ rfl ?_ hunmade
      intro transport requestId hmem
      exact ⟨mem_active_update hmem (List.Subset.refl _),
        fun hworking => absurd hworking hidle⟩

/-- Leaving it does. -/
theorem leave_sound (h : Sound transports calls state) :
    Advances transports calls state (leave transports calls state id) id := by
  have hactive : ∀ transport requestId,
      requestId ∈ (Function.update state.operations (calls id).transport
        { state.operations (calls id).transport with
          active := (state.operations (calls id).transport).active.filter
            (· ≠ (calls id).requestId)
          users := (state.operations (calls id).transport).users - 1 } transport).active →
      requestId ∈ (state.operations transport).active ∧
        ((state.phases id).working = true → transport = (calls id).transport →
          requestId = (calls id).requestId → Phase.working .ended = true) := by
    intro transport requestId hmem
    refine ⟨mem_active_update hmem (List.filter_subset_self _), ?_⟩
    rintro - rfl rfl
    simp at hmem
  unfold leave
  dsimp only
  split
  · exact advances_refl h
  · split_ifs with husers
    · exact Keeps.advances ⟨rfl, rfl, rfl, rfl, fun _ => rfl, fun _ => rfl⟩ rfl hactive trivial
    · exact Keeps.advances ⟨rfl, rfl, rfl, rfl, fun _ => rfl, fun _ => rfl⟩ rfl hactive trivial

/-- A failing call leaves. -/
theorem fail_sound (h : Sound transports calls state) :
    Advances transports calls state (fail calls state id) id := by
  unfold fail
  split
  · exact advances_refl h
  · exact advances_refl h
  · exact advances_refl h
  · rename_i hphase
    refine Keeps.advances ⟨rfl, rfl, rfl, rfl, fun _ => rfl, fun _ => rfl⟩ rfl ?_ trivial
    intro transport requestId hmem
    exact ⟨mem_active_update hmem (List.Subset.refl _),
      fun _ _ _ => rfl⟩
  · exact enter_advances trivial fun _ => rfl

/-! ### The gate and the directory -/

theorem scanned_spends (resume : Resume) (receipts : Receipts) (acknowledged : List String)
    (root : String) : (resume.scanned receipts acknowledged root).remaining = resume.remaining ∧
      (resume.scanned receipts acknowledged root).dispatched = resume.dispatched := by
  unfold Resume.scanned
  split <;> exact ⟨rfl, rfl⟩

theorem allows_spends (resume : Resume) (receipts : Receipts) (acknowledged : List String)
    (root : String) : (resume.allows receipts acknowledged root).2.remaining = resume.remaining ∧
      (resume.allows receipts acknowledged root).2.dispatched = resume.dispatched := by
  unfold Resume.allows
  split_ifs
  · exact scanned_spends resume receipts acknowledged root
  · exact ⟨rfl, rfl⟩

/-- The gate stores nothing. -/
theorem permitted_keeps : Keeps state (permitted authorizations transports calls state id).2 := by
  unfold permitted
  split
  · exact Keeps.refl state
  · rename_i authorization _
    have hspends := allows_spends (state.resumes authorization) state.receipts
      (authorizations authorization).acknowledgedFailures (rootOf transports calls id)
    have hresumes := resumes_update hspends.1 hspends.2
    exact ⟨rfl, rfl, rfl, rfl, fun other => (hresumes other).1, fun other => (hresumes other).2⟩

theorem permitted_rest : (permitted authorizations transports calls state id).2.phases =
      state.phases ∧
    (permitted authorizations transports calls state id).2.operations = state.operations := by
  unfold permitted
  split <;> exact ⟨rfl, rfl⟩

/-- Passing the gate advances the call. -/
theorem gate_sound (hphase : state.phases id = .entered) (h : Sound transports calls state) :
    Advances transports calls state (gate authorizations transports calls state id) id := by
  have hunmade := h.unmade hphase (Or.inr (Or.inl rfl))
  have hidle : (state.phases id).working ≠ true := by
    rw [hphase]
    simp [Phase.working]
  have hkeeps : Keeps state (permitted authorizations transports calls state id).2 :=
    permitted_keeps
  have hrest : (permitted authorizations transports calls state id).2.phases = state.phases ∧
      (permitted authorizations transports calls state id).2.operations = state.operations :=
    permitted_rest
  unfold gate
  dsimp only
  split
  · exact advances_refl h
  · split_ifs
    · refine @Keeps.advances transports calls state _ id .leaving
        ⟨hkeeps.receipts, hkeeps.crashed, hkeeps.made, hkeeps.provider, hkeeps.remaining,
          hkeeps.dispatched⟩ ?_ ?_ trivial
      · show Function.update _ id _ = _
        rw [hrest.1]
      · intro transport requestId hmem
        refine ⟨?_, fun _ _ _ => rfl⟩
        rw [← hrest.2]
        exact hmem
    · refine @Keeps.advances transports calls state _ id .passed
        ⟨hkeeps.receipts, hkeeps.crashed, hkeeps.made, hkeeps.provider, hkeeps.remaining,
          hkeeps.dispatched⟩ ?_ ?_ hunmade
      · show Function.update _ id _ = _
        rw [hrest.1]
      · intro transport requestId hmem
        refine ⟨?_, fun hworking => absurd hworking hidle⟩
        rw [← hrest.2]
        refine mem_active_update hmem ?_
        rw [← hrest.2]
        exact List.Subset.refl _

theorem charge_spends (resume : Resume) (requestId : String) :
    (resume.charge requestId).remaining ≤ resume.remaining ∧
      resume.dispatched ⊆ (resume.charge requestId).dispatched ∧
      requestId ∈ (resume.charge requestId).dispatched := by
  unfold Resume.charge
  split_ifs with hcharged
  · exact ⟨Int.le_refl _, List.Subset.refl _, List.contains_iff_mem.mp hcharged⟩
  · exact ⟨Int.sub_le_self _ (by decide), List.subset_append_left _ _, by simp⟩

theorem charge_resumes (transports : Nat → TransportInfo) (calls : Nat → CallInfo) (state : State)
    (id authorization : Nat) :
    ((charge transports calls state id).resumes authorization).remaining ≤
        (state.resumes authorization).remaining ∧
      (state.resumes authorization).dispatched ⊆
        ((charge transports calls state id).resumes authorization).dispatched ∧
      (authorizationOf transports calls id = some authorization →
        (calls id).requestId ∈
          ((charge transports calls state id).resumes authorization).dispatched) := by
  unfold charge
  split
  · rename_i hnone
    exact ⟨Int.le_refl _, List.Subset.refl _, fun hsome => by rw [hnone] at hsome; cases hsome⟩
  · rename_i own hown
    have hspends := charge_spends (state.resumes own) (calls id).requestId
    unfold State.authorize
    dsimp only
    by_cases hsame : authorization = own
    · rw [hsame, Function.update_self]
      exact ⟨hspends.1, hspends.2.1, fun _ => hspends.2.2⟩
    · rw [Function.update_of_ne hsame]
      refine ⟨Int.le_refl _, List.Subset.refl _, fun hsome => ?_⟩
      rw [hown, Option.some.injEq] at hsome
      exact absurd hsome.symm hsame

theorem charge_eq : charge transports calls state id =
    { state with resumes := (charge transports calls state id).resumes } := by
  unfold charge
  split <;> rfl

/-- Taking a directory makes it, once and charged. -/
theorem take_sound (hphase : state.phases id = .passed) (h : Sound transports calls state) :
    Advances transports calls state (take transports calls state id) id := by
  have hunmade := h.unmade hphase (Or.inr (Or.inr rfl))
  have hidle : (state.phases id).working ≠ true := by
    rw [hphase]
    simp [Phase.working]
  have hcharge := charge_resumes transports calls state id
  unfold take
  rw [charge_eq]
  split
  · exact
      { phases := fun other hother => Function.update_of_ne hother _ _
        crashed := rfl
        made := Or.inl rfl
        provider := Or.inl rfl
        directories := fun _ => Or.inl rfl
        stored := fun _ _ _ hfind _ => hfind
        stopped := fun _ hstopped => hstopped
        spent := fun authorization hspent => Int.le_trans (hcharge authorization).1 hspent
        dispatched := fun authorization => (hcharge authorization).2.1
        active := fun _ _ hmem => Or.inl ⟨mem_active_update hmem (List.Subset.refl _),
          fun hworking => absurd hworking hidle⟩
        fits := by
          show Fits _ _ _ _ (Function.update state.phases id .leaving id)
          rw [Function.update_self]
          trivial }
  · rename_i directories hinsert
    have hcreated : Function.update state.phases id .created id = .created :=
      Function.update_self ..
    have habsent : state.receipts.directories.find (receiptKey transports calls id) = none :=
      find_of_insert? hinsert
    exact
      { phases := fun other hother => Function.update_of_ne hother _ _
        crashed := rfl
        made := Or.inr
          { made := rfl
            passed := hphase
            created := hcreated
            absent := habsent
            present := by
              show directories.find _ ≠ none
              have hkey : Directory.key
                  { root := rootOf transports calls id
                    requestId := (calls id).requestId
                    response := none } = receiptKey transports calls id := rfl
              rw [find_insert? hinsert, if_pos hkey]
              exact Option.some_ne_none _
            charged := fun authorization => (hcharge authorization).2.2 }
        provider := Or.inl rfl
        directories := by
          intro key
          show directories.find key = _ ∨ key = _ ∧ _ ∧ directories.find key ≠ none
          rw [find_insert? hinsert]
          split_ifs with hkey
          · exact Or.inr ⟨hkey.symm, by simp, Option.some_ne_none _⟩
          · exact Or.inl rfl
        stored := fun key directory status hfind _ => find_insert?_of_some hinsert hfind
        stopped := fun _ hstopped => hstopped
        spent := fun authorization hspent => Int.le_trans (hcharge authorization).1 hspent
        dispatched := fun authorization => (hcharge authorization).2.1
        active := by
          intro transport requestId hmem
          by_cases htransport : transport = (calls id).transport
          · have hupdated : requestId ∈ (state.operations (calls id).transport).active ++
                [(calls id).requestId] := by
              rw [htransport] at hmem
              change requestId ∈ (Function.update state.operations _ _ _).active at hmem
              rwa [Function.update_self] at hmem
            rcases List.mem_append.mp hupdated with hold | hlast
            · rw [htransport]
              exact Or.inl ⟨hold, fun hworking => absurd hworking hidle⟩
            · exact Or.inr ⟨htransport, List.mem_singleton.mp hlast,
                List.mem_append_right _ (List.mem_singleton_self _), hcreated⟩
          · refine Or.inl ⟨?_, fun hworking => absurd hworking hidle⟩
            change requestId ∈ (Function.update state.operations _ _ _).active at hmem
            rwa [Function.update_of_ne htransport] at hmem
        fits := by
          show Fits _ _ _ _ (Function.update state.phases id .created id)
          rw [hcreated]
          exact ⟨List.mem_append_right _ (List.mem_singleton_self _), hunmade.2⟩ }

theorem send_sound (hphase : state.phases id = .created) (h : Sound transports calls state) :
    Advances transports calls state (send state id) id := by
  have hfits := h.fits id
  rw [hphase] at hfits
  exact
    { phases := fun other hother => Function.update_of_ne hother _ _
      crashed := rfl
      made := Or.inl rfl
      provider := Or.inr ⟨rfl, hfits⟩
      directories := fun _ => Or.inl rfl
      stored := fun _ _ _ hfind _ => hfind
      stopped := fun _ hstopped => hstopped
      spent := fun _ hspent => hspent
      dispatched := fun _ => List.Subset.refl _
      active := fun _ _ hmem => Or.inl ⟨hmem, fun _ _ _ => by
        show Phase.working (Function.update state.phases id .awaiting id) = true
        rw [Function.update_self]
        rfl⟩
      fits := by
        show Fits _ _ _ _ (Function.update state.phases id .awaiting id)
        rw [Function.update_self]
        exact hfits.1 }

theorem answer_sound (hphase : state.phases id = .awaiting) (h : Sound transports calls state)
    (outcome : Outcome) : Advances transports calls state (answer state id outcome) id := by
  have hmade := h.fits id
  rw [hphase] at hmade
  cases outcome with
  | succeeded | isolated => exact enter_advances ⟨hmade, fun hstops => by cases hstops⟩ fun _ => rfl
  | stops => exact enter_advances hmade fun _ => rfl

/-! ### Stop records -/

theorem stopped_iff {receipts : Receipts} {root : String} :
    receipts.stopped root = true ↔ ∃ stop ∈ receipts.stops, stop.root = root := by
  unfold Receipts.stopped
  simp only [List.any_eq_true, decide_eq_true_eq, mem_rows]

theorem stopped_of_find {receipts : Receipts} {root : String} {chained : Option String}
    (hfind : receipts.stops.find (root, chained) ≠ none) : receipts.stopped root = true := by
  obtain ⟨stop, hstop⟩ := Option.ne_none_iff_exists'.mp hfind
  obtain ⟨hmem, hkey⟩ := find_eq_some_iff.mp hstop
  exact stopped_iff.mpr ⟨stop, hmem, congrArg Prod.fst hkey⟩

/-- Looking for the stop advances the call. -/
theorem look_sound (hphase : state.phases id = .stopping) (h : Sound transports calls state) :
    Advances transports calls state (look transports calls state id) id := by
  have hmade := h.fits id
  rw [hphase] at hmade
  unfold look
  dsimp only
  split_ifs with hmain hchained
  · exact enter_advances hmade fun _ => rfl
  · exact enter_advances hmade fun _ => rfl
  · exact enter_advances ⟨hmade, stopped_of_find hmain⟩ fun _ => rfl

/-- Storing a stop advances the call. -/
theorem stops_advances {stops : Table Stop Stop.key} (hworking : phase.working = true)
    (hstopped : ∀ root, state.receipts.stopped root = true →
      ({ state.receipts with stops := stops } : Receipts).stopped root = true)
    (hfits : Fits transports calls ((state.enter id phase).withStops stops) id phase) :
    Advances transports calls state ((state.enter id phase).withStops stops) id := by
  have hself : Function.update state.phases id phase id = phase := Function.update_self ..
  exact
    { phases := fun other hother => Function.update_of_ne hother _ _
      crashed := rfl
      made := Or.inl rfl
      provider := Or.inl rfl
      directories := fun _ => Or.inl rfl
      stored := fun _ _ _ hfind _ => hfind
      stopped := hstopped
      spent := fun _ hspent => hspent
      dispatched := fun _ => List.Subset.refl _
      active := fun _ _ hmem => Or.inl ⟨hmem, fun _ _ _ => by
        show Phase.working (Function.update state.phases id phase id) = true
        rw [hself]
        exact hworking⟩
      fits := by
        show Fits _ _ _ _ (Function.update state.phases id phase id)
        rw [hself]
        exact hfits }

variable {chained : Option String}

theorem create_sound (hphase : state.phases id = .recording chained)
    (h : Sound transports calls state) :
    Advances transports calls state (create transports calls state id chained) id := by
  have hmade := h.fits id
  rw [hphase] at hmade
  unfold create
  split
  · exact enter_advances trivial fun _ => rfl
  · rename_i stops hinsert
    refine stops_advances rfl ?_ ⟨hmade, ?_⟩
    · intro root hstopped
      obtain ⟨stop, hmem, hroot⟩ := stopped_iff.mp hstopped
      exact stopped_iff.mpr ⟨stop, (mem_insert? hinsert).mpr (Or.inl hmem), hroot⟩
    · exact stopped_iff.mpr ⟨_, (mem_insert? hinsert).mpr (Or.inr rfl), rfl⟩

/-- So does adding to it. -/
theorem note_sound (hphase : state.phases id = .noting chained) (h : Sound transports calls state) :
    Advances transports calls state (note transports calls state id chained) id := by
  have hfits := h.fits id
  rw [hphase] at hfits
  refine stops_advances rfl ?_ ⟨hfits.1, ?_⟩
  · intro root hstopped
    obtain ⟨stop, hmem, hroot⟩ := stopped_iff.mp hstopped
    refine @stopped_of_find _ _ stop.chained ?_
    rw [find_put]
    split_ifs
    · exact Option.some_ne_none _
    · rw [find_eq_some_iff.mpr ⟨hmem, show stop.key = (root, stop.chained) by rw [← hroot]; rfl⟩]
      exact Option.some_ne_none _
  · exact stopped_iff.mpr ⟨_, mem_put.mpr (Or.inl rfl), rfl⟩

theorem withdraw_sound (hphase : state.phases id = .withdrawing)
    (h : Sound transports calls state) :
    Advances transports calls state (withdraw transports calls state id) id := by
  have hfits := h.fits id
  rw [hphase] at hfits
  unfold withdraw
  split
  · rename_i hnone
    refine enter_advances ⟨hfits.1, fun _ => ⟨hfits.2, fun authorization hsome => ?_⟩⟩ fun _ => rfl
    rw [hnone] at hsome
    cases hsome
  · rename_i authorization hown
    have hself : Function.update state.phases id (.finishing .failed true) id =
        .finishing .failed true := Function.update_self ..
    exact
      { phases := fun other hother => Function.update_of_ne hother _ _
        crashed := rfl
        made := Or.inl rfl
        provider := Or.inl rfl
        directories := fun _ => Or.inl rfl
        stored := fun _ _ _ hfind _ => hfind
        stopped := fun _ hstopped => hstopped
        spent := by
          intro other hspent
          show (Function.update state.resumes authorization _ other).remaining ≤ 0
          by_cases hother : other = authorization
          · rw [hother, Function.update_self]
            exact Int.le_refl 0
          · rwa [Function.update_of_ne hother]
        dispatched := by
          intro other
          show _ ⊆ (Function.update state.resumes authorization _ other).dispatched
          by_cases hother : other = authorization
          · rw [hother, Function.update_self]
            exact List.Subset.refl _
          · rw [Function.update_of_ne hother]
            exact List.Subset.refl _
        active := fun _ _ hmem => Or.inl ⟨hmem, fun _ _ _ => by
          show Phase.working (Function.update state.phases id _ id) = true
          rw [hself]
          rfl⟩
        fits := by
          show Fits _ _ _ _ (Function.update state.phases id _ id)
          rw [hself]
          refine ⟨hfits.1, fun _ => ⟨hfits.2, fun other hother => ?_⟩⟩
          rw [hown, Option.some.injEq] at hother
          show (Function.update state.resumes authorization _ other).remaining ≤ 0
          rw [← hother, Function.update_self]
          exact Int.le_refl 0 }

theorem put_advances {response : Response} (hmade : id ∈ state.made)
    (hworking : phase.working = true) (hunstored : ∀ directory status,
      state.receipts.directories.find (receiptKey transports calls id) = some directory →
      directory.response ≠ some (.stored status))
    (hfits : Fits transports calls ((state.enter id phase).withDirectories
      (state.receipts.directories.put (answered transports calls id response))) id phase) :
    Advances transports calls state ((state.enter id phase).withDirectories
      (state.receipts.directories.put (answered transports calls id response))) id := by
  have hself : Function.update state.phases id phase id = phase := Function.update_self ..
  have hkey : (answered transports calls id response).key = receiptKey transports calls id := rfl
  exact
    { phases := fun other hother => Function.update_of_ne hother _ _
      crashed := rfl
      made := Or.inl rfl
      provider := Or.inl rfl
      directories := by
        intro key
        show Table.find (Table.put _ _) key = _ ∨ key = _ ∧ _ ∧ Table.find (Table.put _ _) key ≠ none
        rw [find_put]
        split_ifs with hsame
        · exact Or.inr ⟨hsame.symm, hmade, Option.some_ne_none _⟩
        · exact Or.inl rfl
      stored := by
        intro key directory status hfind hstored
        show Table.find (Table.put _ _) key = _
        rw [find_put]
        split_ifs with hsame
        · rw [← hsame, hkey] at hfind
          exact absurd hstored (hunstored directory status hfind)
        · exact hfind
      stopped := fun _ hstopped => hstopped
      spent := fun _ hspent => hspent
      dispatched := fun _ => List.Subset.refl _
      active := fun _ _ hmem => Or.inl ⟨hmem, fun _ _ _ => by
        show Phase.working (Function.update state.phases id phase id) = true
        rw [hself]
        exact hworking⟩
      fits := by
        show Fits _ _ _ _ (Function.update state.phases id phase id)
        rw [hself]
        exact hfits }

/-- Responding advances the call. -/
theorem respond_sound {status : Status} {stops : Bool}
    (hphase : state.phases id = .finishing status stops) (h : Sound transports calls state) :
    Advances transports calls state (respond transports calls state id status stops) id := by
  have hfits := h.fits id
  rw [hphase] at hfits
  unfold respond
  split
  · exact enter_advances trivial fun _ => rfl
  · rename_i directory hfind
    split_ifs with hsome
    · exact enter_advances trivial fun _ => rfl
    · refine put_advances hfits.1 rfl ?_ ⟨hfits.1, hfits.2, ?_⟩
      · intro found stored hfound hstored
        rw [hfind, Option.some.injEq] at hfound
        rw [hfound, hstored] at hsome
        exact hsome rfl
      · have hkey : (answered transports calls id .unreadable).key =
            receiptKey transports calls id := rfl
        show Table.find (Table.put _ _) _ = _
        rw [find_put, if_pos hkey]

theorem complete_sound {status : Status} {stops : Bool}
    (hphase : state.phases id = .filling status stops) (h : Sound transports calls state) :
    Advances transports calls state (complete transports calls state id status) id := by
  have hfits := h.fits id
  rw [hphase] at hfits
  refine put_advances hfits.1 rfl ?_ trivial
  intro found stored hfound hstored
  rw [hfits.2.2, Option.some.injEq] at hfound
  rw [← hfound] at hstored
  cases hstored

theorem call_sound (h : Sound transports calls state) (choice : Choice) :
    Advances transports calls state (call authorizations transports calls state id choice) id := by
  unfold call
  split
  · exact enter_sound ‹_› h
  · exact gate_sound ‹_› h
  · exact take_sound ‹_› h
  · exact send_sound ‹_› h
  · exact answer_sound ‹_› h _
  · exact look_sound ‹_› h
  · exact create_sound ‹_› h
  · exact note_sound ‹_› h
  · exact withdraw_sound ‹_› h
  · exact respond_sound ‹_› h
  · exact complete_sound ‹_› h
  · exact leave_sound h
  · exact fail_sound h
  · exact advances_refl h

theorem crash_sound (h : Sound transports calls state) (transport : Nat) :
    Sound transports calls (crash transports state transport) where
  fits := h.fits
  distinct := h.distinct
  present := h.present
  sent := h.sent
  once := h.once
  active := by
    intro other requestId hmem
    change requestId ∈ (Function.update state.operations transport Operation.idle other).active
      at hmem
    by_cases hother : other = transport
    · rw [hother, Function.update_self] at hmem
      cases hmem
    · rw [Function.update_of_ne hother] at hmem
      obtain ⟨id, htransport, hrequest, hflight⟩ := h.active other requestId hmem
      refine ⟨id, htransport, hrequest, hflight.made, ?_, hflight.working⟩
      show Function.update state.crashed transport true _ = false
      rw [Function.update_of_ne (htransport ▸ hother)]
      exact hflight.alive
  charged := h.charged

/-- Every step keeps the state sound. -/
theorem next_sound (h : Sound transports calls state) (step : Step) :
    Sound transports calls (next authorizations transports calls state step) := by
  cases step with
  | call id choice =>
    unfold next
    dsimp only
    split_ifs with hcrashed
    · exact h
    · exact (call_sound h choice).sound h (Bool.not_eq_true _ ▸ hcrashed)
  | crash transport => exact crash_sound h transport

end Calls

end ProofOps.Agent.TaggingTransport
