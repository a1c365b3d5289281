import Mathlib.Data.List.Forall2

/-!
# Checked computations

Inversion of `Except` programs: a sequence succeeds exactly when each of its
steps does.  A function that raises is read backwards with these lemmas, so a
proof about it names the intermediate values and never unfolds the monad.
-/

namespace ProofOps.Foundation.Checked

universe u v

variable {ε : Type v} {α β : Type u}

variable {first : Except ε α} {next : α → Except ε β} {value : β}

theorem bind_ok_iff :
    (first >>= next) = .ok value ↔ ∃ mid, first = .ok mid ∧ next mid = .ok value := by
  cases first with
  | error error | ok mid => simp [bind, Except.bind]

theorem bind_ok
    (h : (first >>= next) = .ok value) : ∃ mid, first = .ok mid ∧ next mid = .ok value :=
  bind_ok_iff.mp h

/-- What follows a check that passed. -/
theorem rest_ok {first : Except ε PUnit} {next : PUnit → Except ε β}
    (h : (first >>= next) = .ok value) : next ⟨⟩ = .ok value :=
  (bind_ok h).choose_spec.2

theorem exists_bind_ok_iff :
    (∃ value, (first >>= next) = .ok value) ↔
      ∃ mid, first = .ok mid ∧ ∃ value, next mid = .ok value := by
  constructor
  · rintro ⟨value, h⟩
    obtain ⟨mid, hmid, hvalue⟩ := bind_ok h
    exact ⟨mid, hmid, value, hvalue⟩
  · rintro ⟨mid, hmid, value, hvalue⟩
    exact ⟨value, bind_ok_iff.mpr ⟨mid, hmid, hvalue⟩⟩

variable {result : α}

theorem pure_ok_iff {value : α} :
    (pure value : Except ε α) = .ok result ↔ value = result := by
  simp [pure, Except.pure]

theorem pure_ok {value : α} (h : (pure value : Except ε α) = .ok result) : value = result :=
  pure_ok_iff.mp h

variable {computation : Except ε α}

theorem map_ok_iff {f : α → β} :
    computation.map f = .ok value ↔ ∃ mid, computation = .ok mid ∧ f mid = value := by
  cases computation with
  | error error | ok mid => simp [Except.map]

theorem mapError_ok_iff {δ : Type v} {f : ε → δ} {value : α} :
    computation.mapError f = .ok value ↔ computation = .ok value := by
  cases computation with
  | error error | ok result => simp [Except.mapError]

/-- `if p: raise error`. -/
def refuse (p : Prop) [Decidable p] (error : ε) : Except ε Unit :=
  if p then .error error else .ok ()

variable {error : ε}

theorem refuse_ok_iff {p : Prop} [Decidable p] {result : Unit} :
    refuse p error = .ok result ↔ ¬p := by
  unfold refuse
  split_ifs with h
  · simp [h]
  · simp [h]

def orRaise (value : Option α) (error : ε) : Except ε α :=
  match value with
  | some value => .ok value
  | none => .error error

theorem orRaise_ok_iff {value : Option α} :
    orRaise value error = .ok result ↔ value = some result := by
  cases value with
  | some value => simp [orRaise]
  | none => simp [orRaise]

variable {f : α → Except ε β} {inputs : List α}

theorem mapM_ok_iff {outputs : List β} :
    inputs.mapM f = .ok outputs ↔
      List.Forall₂ (fun input output => f input = .ok output) inputs outputs := by
  induction inputs generalizing outputs with
  | nil =>
    rw [List.mapM_nil, pure_ok_iff, List.forall₂_nil_left_iff]
    exact eq_comm
  | cons head tail ih =>
    rw [List.mapM_cons, bind_ok_iff, List.forall₂_cons_left_iff]
    constructor
    · rintro ⟨output, houtput, h⟩
      obtain ⟨rest, hrest, h⟩ := bind_ok h
      exact ⟨output, rest, houtput, ih.mp hrest, (pure_ok h).symm⟩
    · rintro ⟨output, rest, houtput, hrest, rfl⟩
      exact ⟨output, houtput, bind_ok_iff.mpr ⟨rest, ih.mpr hrest, rfl⟩⟩

theorem mem_of_mapM_ok {f : α → Except ε β} {inputs : List α} {outputs : List β}
    (h : inputs.mapM f = .ok outputs) {output : β} :
    output ∈ outputs ↔ ∃ input ∈ inputs, f input = .ok output := by
  rw [mapM_ok_iff] at h
  induction h with
  | nil => simp
  | @cons input made inputs outputs hhead _ ih =>
    simp only [List.mem_cons, ih, exists_eq_or_imp, hhead, Except.ok.injEq]
    exact or_congr_left eq_comm

theorem exists_of_mapM_ok {outputs : List β}
    (h : inputs.mapM f = .ok outputs) {input : α} (hmem : input ∈ inputs) :
    ∃ output ∈ outputs, f input = .ok output := by
  rw [mapM_ok_iff] at h
  induction h with
  | nil => cases hmem
  | @cons head made inputs outputs hhead _ ih =>
    rcases List.mem_cons.mp hmem with rfl | htail
    · exact ⟨made, List.mem_cons_self, hhead⟩
    · obtain ⟨output, houtput, hok⟩ := ih htail
      exact ⟨output, List.mem_cons_of_mem _ houtput, hok⟩

theorem exists_mapM_ok_iff :
    (∃ outputs, inputs.mapM f = .ok outputs) ↔
      ∀ input ∈ inputs, ∃ output, f input = .ok output := by
  constructor
  · rintro ⟨outputs, h⟩ input hinput
    obtain ⟨output, -, houtput⟩ := exists_of_mapM_ok h hinput
    exact ⟨output, houtput⟩
  · intro h
    induction inputs with
    | nil => exact ⟨[], rfl⟩
    | cons head tail ih =>
      obtain ⟨output, houtput⟩ := h head List.mem_cons_self
      obtain ⟨rest, hrest⟩ := ih fun input hinput => h input (List.mem_cons_of_mem _ hinput)
      exact ⟨output :: rest, mapM_ok_iff.mpr (.cons houtput (mapM_ok_iff.mp hrest))⟩

theorem forM_ok_iff {f : α → Except ε PUnit} :
    inputs.forM f = .ok ⟨⟩ ↔ ∀ input ∈ inputs, f input = .ok ⟨⟩ := by
  induction inputs with
  | nil => simp [List.forM, pure, Except.pure]
  | cons head tail ih =>
    rw [List.forM_eq_forM, List.forM_cons, bind_ok_iff, List.forall_mem_cons, ← ih]
    exact ⟨fun ⟨⟨⟩, hhead, htail⟩ => ⟨hhead, htail⟩,
      fun ⟨hhead, htail⟩ => ⟨⟨⟩, hhead, htail⟩⟩

def RaisesOnly (allowed : ε → Prop) (computation : Except ε α) : Prop :=
  ∀ error, computation = .error error → allowed error

section RaisesOnly

variable {allowed : ε → Prop}

theorem raisesOnly_ok (value : α) : RaisesOnly allowed (.ok value : Except ε α) := by
  intro error h
  cases h

theorem raisesOnly_error (h : allowed error) :
    RaisesOnly allowed (.error error : Except ε α) := by
  intro raised hraised
  cases hraised
  exact h

theorem raisesOnly_refuse {p : Prop} [Decidable p] (h : allowed error) :
    RaisesOnly allowed (refuse p error) := by
  unfold refuse
  split_ifs
  · exact raisesOnly_error h
  · exact raisesOnly_ok ()

theorem RaisesOnly.bind
    (hfirst : RaisesOnly allowed first) (hnext : ∀ value, RaisesOnly allowed (next value)) :
    RaisesOnly allowed (first >>= next) := by
  cases first with
  | ok value => exact hnext value
  | error raised =>
    intro error h
    exact hfirst error (by cases h; rfl)

theorem raisesOnly_mapM
    (h : ∀ input ∈ inputs, RaisesOnly allowed (f input)) : RaisesOnly allowed (inputs.mapM f) := by
  induction inputs with
  | nil =>
    exact raisesOnly_ok []
  | cons head tail ih =>
    rw [List.forall_mem_cons] at h
    rw [List.mapM_cons]
    exact h.1.bind fun _ => (ih h.2).bind fun _ => raisesOnly_ok _

end RaisesOnly

section View

variable {γ δ : Type u}

theorem map_bind_congr {first second : Except ε α} {view : α → γ}
    (hview : first.map view = second.map view) {next other : α → Except ε β} {result : β → δ}
    (hnext : ∀ {a b}, first = .ok a → second = .ok b → view a = view b →
      (next a).map result = (other b).map result) :
    (first >>= next).map result = (second >>= other).map result := by
  cases first with
  | error error =>
    cases second with
    | error other => simpa [Except.map, bind, Except.bind] using hview
    | ok b => simp [Except.map] at hview
  | ok a =>
    cases second with
    | error other => simp [Except.map] at hview
    | ok b =>
      have hab : view a = view b := by simpa [Except.map] using hview
      exact hnext rfl rfl hab

theorem map_bind_same {other : α → Except ε β} {result : β → δ}
    (hnext : ∀ a, first = .ok a → (next a).map result = (other a).map result) :
    (first >>= next).map result = (first >>= other).map result := by
  cases first with
  | error error => rfl
  | ok a => exact hnext a rfl

theorem map_mapM_congr {g : α → Except ε β} {view : β → γ}
    (h : ∀ input ∈ inputs, (f input).map view = (g input).map view) :
    (inputs.mapM f).map (List.map view) = (inputs.mapM g).map (List.map view) := by
  induction inputs with
  | nil => rfl
  | cons head tail ih =>
    rw [List.forall_mem_cons] at h
    simp only [List.mapM_cons]
    refine map_bind_congr h.1 fun _ _ hhead => ?_
    refine map_bind_congr (ih h.2) fun _ _ htail => ?_
    simp [pure, Except.pure, Except.map, hhead, htail]

theorem exists_ok_of_map_eq {second : Except ε α} {view : α → γ}
    (hview : first.map view = second.map view) {value : α} (h : second = .ok value) :
    ∃ other, first = .ok other ∧ view other = view value := by
  subst h
  cases first with
  | error error => simp [Except.map] at hview
  | ok other => exact ⟨other, rfl, by simpa [Except.map] using hview⟩

end View

def Returns (result : Except ε α) (accepts : α → Prop) : Prop :=
  ∃ value, result = .ok value ∧ accepts value

instance (result : Except ε α) (accepts : α → Prop) [DecidablePred accepts] :
    Decidable (Returns result accepts) :=
  match result with
  | .ok value => decidable_of_iff (accepts value) (by simp [Returns])
  | .error error => isFalse (by simp [Returns])

end ProofOps.Foundation.Checked
