import ProofOps.Adapters.Local.ExportFreeze

/-!
# Exports over a run

Snapshots, artifacts and the records of ready exports outlive every run of the system.  Only a
failed export can come back: a worker that froze it earlier completes it, and a worker that
found the run busy queues it again.
-/

namespace ProofOps.Adapters.Local.Exports

open Foundation Foundation.Table

section Runs

variable {Content Datum Body Bytes : Type} {rules : ExportRules Content Datum Body Bytes}
  {store after : Store Content Body Bytes} {key : ExportKey} {now : Nat} {polled : ExportState}

structure SystemSound (rules : ExportRules Content Datum Body Bytes)
    (system : System Content Datum Body Bytes) : Prop where
  store : StoreSound rules system.store
  workers : ∀ worker ∈ system.workers, PhaseSound rules system.store worker.key worker.phase

theorem initial_systemSound : SystemSound rules System.initial where
  store :=
    { frozen := fun _ _ h => by cases h
      artifact := fun _ _ h => by cases h
      ready := fun _ _ h => by cases h }
  workers := fun _ h => by cases h

theorem evolves_runs {runs : Table (RunRecord Content) RunRecord.key}
    (hruns : ∀ key run, store.runs.find key = some run →
      ∃ later, runs.find key = some later ∧ run.mutationEpoch ≤ later.mutationEpoch) :
    Evolves store { store with runs } where
  runs := hruns
  exports := (Evolves.refl store).exports
  snapshots := fun _ _ h => h
  artifacts := fun _ _ h => h

theorem sound_runs (hsound : StoreSound rules store)
    (runs : Table (RunRecord Content) RunRecord.key) : StoreSound rules { store with runs } where
  frozen := hsound.frozen
  artifact := fun key row hrow => ⟨(hsound.artifact key row hrow).rendered⟩
  ready := hsound.ready

theorem changeRun_evolves {runKey : RunKey} {change : RunRecord Content → RunRecord Content}
    (hchange : ∀ run, run.mutationEpoch ≤ (change run).mutationEpoch) :
    Evolves store (changeRun store runKey change) := by
  unfold changeRun
  cases hrun : store.runs.find runKey with
  | none => exact Evolves.refl store
  | some run =>
    refine evolves_runs fun other old hold => ?_
    rw [find_put]
    by_cases hsame : run.key = other
    · rw [if_pos hsame]
      obtain rfl : run = old := by
        rw [← hsame, (find_eq_some_iff.mp hrun).2, hrun] at hold
        exact Option.some.inj hold
      exact ⟨_, rfl, hchange run⟩
    · rw [if_neg hsame]
      exact ⟨old, hold, Nat.le_refl _⟩

theorem changeRun_sound (hsound : StoreSound rules store) (runKey : RunKey)
    (change : RunRecord Content → RunRecord Content) :
    StoreSound rules (changeRun store runKey change) := by
  unfold changeRun
  cases store.runs.find runKey with
  | none => exact hsound
  | some run => exact sound_runs hsound _

/-- A request is entered beside the others. -/
theorem reserve_sound (hsound : StoreSound rules store) (request : ExportRequest) :
    Evolves store (reserve store key request) ∧ StoreSound rules (reserve store key request) := by
  unfold reserve
  cases store.getRun ⟨key.tenantId, request.runId⟩ with
  | none => exact ⟨Evolves.refl store, hsound⟩
  | some run =>
    dsimp only
    cases hinsert : store.exports.insert? _ with
    | none => exact ⟨Evolves.refl store, hsound⟩
    | some exports =>
      have hkept : ∀ other old, store.exports.find other = some old →
          exports.find other = some old := fun _ _ => find_insert?_of_some hinsert
      refine ⟨⟨(Evolves.refl store).runs, fun other old hold =>
          ⟨old, hkept other old hold, rfl, fun _ => rfl⟩, fun _ _ h => h, fun _ _ h => h⟩,
        fun other row hrow => ?_, fun other row hrow => ?_, fun other found hfound hready => ?_⟩
      · obtain ⟨state, hstate, hfrozen⟩ := hsound.frozen other row hrow
        exact ⟨state, hkept other state hstate, hfrozen⟩
      · obtain ⟨state, snapshot, archive, hstate, hrest⟩ :=
          (hsound.artifact other row hrow).rendered
        exact ⟨state, snapshot, archive, hkept other state hstate, hrest⟩
      · dsimp only at hfound
        rw [find_insert? hinsert] at hfound
        split_ifs at hfound
        · cases hfound
          cases hready
        · exact hsound.ready other found hfound hready

theorem poll_sound : PhaseSound rules store key
    (poll store key now : Phase Content Datum Body Bytes) := by
  unfold poll
  cases hstate : store.state key with
  | none => exact trivial
  | some state =>
    dsimp only
    split_ifs
    · exact trivial
    · exact ⟨⟨state, state_some hstate, rfl⟩, trivial⟩

theorem stepWorker_sound {worker : Worker Content Datum Body Bytes}
    (hsound : StoreSound rules store) (hphase : PhaseSound rules store worker.key worker.phase) :
    Evolves store (stepWorker rules store worker).1 ∧
      StoreSound rules (stepWorker rules store worker).1 ∧
      PhaseSound rules (stepWorker rules store worker).1 (stepWorker rules store worker).2.key
        (stepWorker rules store worker).2.phase := by
  obtain ⟨workerKey, workerNow, phase⟩ := worker
  cases phase with
  | polling => exact ⟨Evolves.refl store, hsound, poll_sound⟩
  | finished => exact ⟨Evolves.refl store, hsound, trivial⟩
  | working polled task =>
    have hwrote : Wrote rules store workerKey workerNow polled task
      (work rules store workerKey workerNow polled task).1 := work_wrote task
    exact ⟨hwrote.evolves hsound, hwrote.sound hsound hphase, work_sound hsound hphase⟩

/-- An event keeps what is frozen, and leaves a sound system. -/
theorem next_sound {system : System Content Datum Body Bytes} (hsound : SystemSound rules system)
    (event : Event Content) :
    Evolves system.store (next rules system event).store ∧
      SystemSound rules (next rules system event) := by
  have hother : ∀ changed : Store Content Body Bytes, Evolves system.store changed →
      StoreSound rules changed →
      Evolves system.store changed ∧ SystemSound rules { system with store := changed } :=
    fun changed hevolves hchanged =>
      ⟨hevolves, hchanged, fun worker hworker => (hsound.workers worker hworker).evolves hevolves⟩
  cases event with
  | createRun runKey content =>
    simp only [next]
    cases hinsert : system.store.runs.insert? ⟨runKey, 0, false, content⟩ with
    | none => exact ⟨Evolves.refl _, hsound⟩
    | some runs =>
      exact hother _ (evolves_runs fun other run hrun =>
        ⟨run, find_insert?_of_some hinsert hrun, Nat.le_refl _⟩) (sound_runs hsound.store _)
  | changeRun runKey raised content =>
    refine hother _ (changeRun_evolves fun run => ?_) (changeRun_sound hsound.store _ _)
    split_ifs
    · exact Nat.le_succ _
    · exact Nat.le_refl _
  | deleteRun runKey =>
    exact hother _ (changeRun_evolves fun run => Nat.le_refl _) (changeRun_sound hsound.store _ _)
  | reserve exportKey request =>
    obtain ⟨hevolves, hreserved⟩ := @reserve_sound _ _ _ _ rules system.store exportKey
      hsound.store request
    exact hother _ hevolves hreserved
  | poll exportKey pollNow =>
    refine ⟨Evolves.refl _, hsound.store, fun worker hworker => ?_⟩
    rcases List.mem_append.mp hworker with hold | hnew
    · exact hsound.workers worker hold
    · obtain rfl := List.mem_singleton.mp hnew
      exact trivial
  | step index =>
    simp only [next]
    cases hworker : system.workers[index]? with
    | none => exact ⟨Evolves.refl _, hsound⟩
    | some worker =>
      obtain ⟨hevolves, hstore, hphase⟩ := stepWorker_sound hsound.store
        (hsound.workers worker (List.mem_of_getElem? hworker))
      refine ⟨hevolves, hstore, fun other hother => ?_⟩
      rcases List.mem_or_eq_of_mem_set hother with hold | rfl
      · exact (hsound.workers other hold).evolves hevolves
      · exact hphase
  | crash index =>
    simp only [next]
    cases hworker : system.workers[index]? with
    | none => exact ⟨Evolves.refl _, hsound⟩
    | some worker =>
      refine ⟨Evolves.refl _, hsound.store, fun other hother => ?_⟩
      rcases List.mem_or_eq_of_mem_set hother with hold | rfl
      · exact hsound.workers other hold
      · exact trivial

theorem after_systemSound {system : System Content Datum Body Bytes}
    (hsound : SystemSound rules system) (events : List (Event Content)) :
    SystemSound rules (Machine.after (next rules) system events) := by
  have hstep : ∀ system event, SystemSound rules system →
      SystemSound rules (next rules system event) := fun _ event h => (next_sound h event).2
  exact Machine.after_invariant hstep hsound events

theorem after_evolves {system : System Content Datum Body Bytes} (hsound : SystemSound rules system)
    (events : List (Event Content)) :
    Evolves system.store (Machine.after (next rules) system events).store := by
  have hstep : ∀ system event, SystemSound rules system →
      SystemSound rules (next rules system event) := fun _ event h => (next_sound h event).2
  exact @Machine.after_related _ _ (next rules) (SystemSound rules)
    (fun first second => Evolves first.store second.store) hstep
    (fun system => Evolves.refl system.store) Evolves.trans
    (fun _ event h => (next_sound h event).1) _ hsound events

theorem next_writes (rules : ExportRules Content Datum Body Bytes)
    (system : System Content Datum Body Bytes) (event : Event Content) :
    ((next rules system event).store.snapshots = system.store.snapshots ∧
      ∀ key state, system.store.exports.find key = some state →
        (next rules system event).store.exports.find key = some state) ∨
    ∃ index worker polled task, event = .step index ∧ worker ∈ system.workers[index]? ∧
      worker.phase = .working polled task ∧
      Wrote rules system.store worker.key worker.now polled task (next rules system event).store := by
  have hsame : system.store.snapshots = system.store.snapshots ∧
      ∀ key state, system.store.exports.find key = some state →
        system.store.exports.find key = some state := ⟨rfl, fun _ _ => id⟩
  cases event with
  | createRun runKey content =>
    simp only [next]
    cases system.store.runs.insert? ⟨runKey, 0, false, content⟩ with
    | none | some runs => exact Or.inl hsame
  | changeRun runKey raised content | deleteRun runKey =>
    simp only [next, changeRun]
    cases system.store.runs.find runKey with
    | none | some run => exact Or.inl hsame
  | reserve exportKey request =>
    simp only [next, reserve]
    cases system.store.getRun ⟨exportKey.tenantId, request.runId⟩ with
    | none => exact Or.inl hsame
    | some run =>
      dsimp only
      split
      · exact Or.inl hsame
      · rename_i exports hinsert
        exact Or.inl ⟨rfl, fun _ _ => find_insert?_of_some hinsert⟩
  | poll exportKey pollNow => exact Or.inl hsame
  | crash index =>
    simp only [next]
    cases system.workers[index]? with
    | none | some worker => exact Or.inl hsame
  | step index =>
    simp only [next]
    cases hworker : system.workers[index]? with
    | none => exact Or.inl hsame
    | some worker =>
      obtain ⟨workerKey, workerNow, phase⟩ := worker
      cases phase with
      | polling | finished => exact Or.inl hsame
      | working polled task =>
        exact Or.inr ⟨index, _, polled, task, rfl, hworker, rfl, work_wrote task⟩

def FreezesAtEpoch (before after : Store Content Body Bytes) : Prop :=
  ∀ key row, before.snapshots.find key = none → after.snapshots.find key = some row →
    ∃ state run, before.exports.find key = some state ∧
      before.getRun ⟨key.tenantId, state.request.runId⟩ = some run ∧
      run.mutationEpoch = row.manifest.mutationEpoch

theorem freezesAtEpoch_of_eq (h : after.snapshots = store.snapshots) :
    FreezesAtEpoch store after := by
  intro other row hnone hsome
  rw [h, hnone] at hsome
  cases hsome

variable {task : Task Content Datum Body Bytes}

theorem Wrote.freezesAtEpoch (h : Wrote rules store key now polled task after) :
    FreezesAtEpoch store after := by
  cases h with
  | nothing | completed | deferred => exact freezesAtEpoch_of_eq rfl
  | @frozen attempt manifest readAt verdict state run snapshots hfreezable hinsert =>
    intro other row hnone hsome
    rw [find_insert? hinsert] at hsome
    split_ifs at hsome with hsame
    · cases hsome
      obtain rfl : key = other := (key_of_find hfreezable.found).symm.trans hsame
      exact ⟨state, run, hfreezable.found, hfreezable.current, hfreezable.same_epoch⟩
    · rw [hnone] at hsome
      cases hsome

variable (system : System Content Datum Body Bytes)

theorem next_freezesAtEpoch (event : Event Content) :
    FreezesAtEpoch system.store (next rules system event).store := by
  rcases next_writes rules system event with ⟨hsnapshots, -⟩ |
    ⟨index, worker, polled, task, -, -, -, hwrote⟩
  · exact freezesAtEpoch_of_eq hsnapshots
  · exact hwrote.freezesAtEpoch

/-! ### Failed exports -/

def KeepsFailed (before after : Store Content Body Bytes) : Prop :=
  ∀ key state, before.exports.find key = some state → state.status = .failed →
    ∃ later, after.exports.find key = some later ∧ later.status = .failed

def Task.reopens : Task Content Datum Body Bytes → Bool
  | .complete _ => true
  | .defer code => code = busy
  | _ => false

def Phase.reopens : Phase Content Datum Body Bytes → Bool
  | .working _ task => task.reopens
  | _ => false

/-- The export has failed. -/
def hasFailed (store : Store Content Body Bytes) (key : ExportKey) : Bool :=
  (store.exports.find key).any fun state => state.status = .failed

def Orderly : Event Content → Prop
  | .step index =>
    ∀ worker ∈ system.workers[index]?, worker.phase.reopens = true →
      hasFailed system.store worker.key = false
  | _ => True

instance (system : System Content Datum Body Bytes) (event : Event Content) :
    Decidable (Orderly system event) :=
  match event with
  | .step index =>
    inferInstanceAs (Decidable (∀ worker ∈ system.workers[index]?, worker.phase.reopens = true →
      hasFailed system.store worker.key = false))
  | .createRun _ _ => .isTrue trivial
  | .changeRun _ _ _ => .isTrue trivial
  | .deleteRun _ => .isTrue trivial
  | .reserve _ _ => .isTrue trivial
  | .poll _ _ => .isTrue trivial
  | .crash _ => .isTrue trivial

theorem keepsFailed_of_eq (h : after.exports = store.exports) : KeepsFailed store after := by
  intro other state hstate hfailed
  exact ⟨state, h ▸ hstate, hfailed⟩

theorem Wrote.keepsFailed (hcall : task.reopens = true → hasFailed store key = false)
    (h : Wrote rules store key now polled task after) : KeepsFailed store after := by
  -- A record that is put keeps the others, and its own if it was not failed or stays so.
  have hput : ∀ changed state : ExportState, store.exports.find key = some state →
      changed.key = state.key → (state.status = .failed → changed.status = .failed) →
      KeepsFailed store { store with exports := store.exports.put changed } := by
    intro changed state hstate hkey hkeeps other old hold hfailed
    have hown : changed.key = key := hkey.trans (key_of_find hstate)
    rw [find_put]
    by_cases hsame : changed.key = other
    · rw [if_pos hsame]
      obtain rfl : state = old := by
        rw [← hsame, hown, hstate] at hold
        exact Option.some.inj hold
      exact ⟨changed, rfl, hkeeps hfailed⟩
    · rw [if_neg hsame]
      exact ⟨old, hold, hfailed⟩
  have hnot : task.reopens = true → ∀ state, store.exports.find key = some state →
      state.status ≠ .failed := by
    intro hreopens state hstate hfailed
    have hcheck := hcall hreopens
    simp [hasFailed, hstate, hfailed] at hcheck
  cases h with
  | nothing => exact keepsFailed_of_eq rfl
  | @frozen attempt manifest readAt verdict state run snapshots hfreezable hinsert =>
    exact hput _ state hfreezable.found rfl fun hfailed => absurd hfailed hfreezable.not_failed
  | @completed archive state artifacts hstate hready hinsert =>
    exact hput _ state hstate rfl fun hfailed => absurd hfailed (hnot rfl state hstate)
  | @deferred code state hstate hready =>
    refine hput _ state hstate rfl fun hfailed => ?_
    rw [if_neg]
    intro hbusy
    exact hnot (decide_eq_true hbusy) state hstate hfailed

theorem next_keepsFailed {system : System Content Datum Body Bytes} {event : Event Content}
    (horderly : Orderly system event) :
    KeepsFailed system.store (next rules system event).store := by
  rcases next_writes rules system event with ⟨-, hkept⟩ |
    ⟨index, worker, polled, task, rfl, hworker, hphase, hwrote⟩
  · exact fun other state hstate hfailed => ⟨state, hkept other state hstate, hfailed⟩
  · refine hwrote.keepsFailed fun hreopens => horderly worker hworker ?_
    rw [hphase]
    exact hreopens

theorem after_keepsFailed {system : System Content Datum Body Bytes} {events : List (Event Content)}
    (horderly : Machine.EachStep (next rules) Orderly system events) :
    KeepsFailed system.store (Machine.after (next rules) system events).store := by
  induction events generalizing system with
  | nil => exact keepsFailed_of_eq rfl
  | cons event events ih =>
    obtain ⟨hfirst, hrest⟩ := horderly
    intro key state hstate hfailed
    obtain ⟨mid, hmid, hmidFailed⟩ := next_keepsFailed hfirst key state hstate hfailed
    exact ih hrest key mid hmid hmidFailed

structure FreezeSafe (rules : ExportRules Content Datum Body Bytes)
    (before later : System Content Datum Body Bytes) : Prop where
  stored : StoreSound rules later.store
  lasting : Evolves before.store later.store
  failed : KeepsFailed before.store later.store
  freezing : ∀ event, FreezesAtEpoch before.store (next rules before event).store

/-- **The freeze.**  In every run without a call that would reopen a failed export: a snapshot
is frozen at the epoch its parts were read at, once, an artifact is the rendering of the
snapshot of a ready export, and what is ready or failed stays so. -/
theorem export_freeze {front back : List (Event Content)}
    (horderly : Machine.EachStep (next rules) Orderly System.initial (front ++ back)) :
    FreezeSafe rules (Machine.after (next rules) System.initial front)
      (Machine.after (next rules) System.initial (front ++ back)) := by
  have hfront : SystemSound rules (Machine.after (next rules) System.initial front) :=
    after_systemSound initial_systemSound front
  rw [Machine.after_append]
  exact
    { stored := (after_systemSound hfront back).store
      lasting := after_evolves hfront back
      failed := after_keepsFailed horderly.of_append
      freezing := next_freezesAtEpoch _ }

end Runs

namespace Sample

def export₁ : ExportKey := ⟨"tenant", "export"⟩

def run₁ : RunKey := ⟨"tenant", "run"⟩

def rules : ExportRules Nat Unit Nat Nat where
  oversized := fun claims => 1000 < claims
  nextRead := fun _ gathered => if gathered.isEmpty then some fun _ => .ok () else none
  claimsRead := fun _ => []
  claimIds := fun _ => .ok []
  assemble := fun _ claims _ => .ok claims
  bytes := fun _ => 100
  sha256 := fun _ => "snapshot"
  report := fun _ => .ok false
  build := fun manifest _ => .ok ⟨manifest.body, "manifest", false⟩
  contentSha256 := fun _ => "artifact"

def untilFailed : List (Event Nat) :=
  [.createRun run₁ 5, .reserve export₁ ⟨"run", [.json], true, "actor"⟩, .poll export₁ 10,
    .poll export₁ 10, .step 0, .step 0, .step 1, .step 1, .step 0, .step 0, .step 0, .step 0,
    .step 0, .step 0, .changeRun run₁ true 1001, .step 1, .step 1, .step 1]

def untilReady : List (Event Nat) := [.step 0, .step 0, .step 0]

def statusAfter (events : List (Event Nat)) : Option ExportStatus :=
  ((Machine.after (next rules) System.initial events).store.exports.find export₁).map
    ExportState.status

end Sample

theorem failed_export_completed :
    Sample.statusAfter Sample.untilFailed = some .failed ∧
      Sample.statusAfter (Sample.untilFailed ++ Sample.untilReady) = some .ready := by
  decide +kernel

theorem export_freeze_one_poll :
    FreezeSafe Sample.rules
        (Machine.after (next Sample.rules) System.initial (Sample.untilFailed.take 14))
        (Machine.after (next Sample.rules) System.initial
          (Sample.untilFailed.take 14 ++ Sample.untilReady)) ∧
      Sample.statusAfter (Sample.untilFailed.take 14 ++ Sample.untilReady) = some .ready := by
  refine ⟨export_freeze ?_, by decide +kernel⟩
  decide +kernel

end ProofOps.Adapters.Local.Exports
