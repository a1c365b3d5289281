import Mathlib.Order.Defs.Unbundled

/-!
# Runs of a machine

A machine is a function from a state and a call to the next state.  What every
call preserves, every run preserves: invariants of one state, and preorders
between an earlier and a later state.
-/

namespace ProofOps.Foundation.Machine

universe u v

variable {σ : Type u} {κ : Type v} {next : σ → κ → σ}

/-- The state after some calls. -/
def after (next : σ → κ → σ) (state : σ) (calls : List κ) : σ :=
  calls.foldl next state

@[simp]
theorem after_nil (state : σ) : after next state [] = state := rfl

@[simp]
theorem after_cons (state : σ) (call : κ) (calls : List κ) :
    after next state (call :: calls) = after next (next state call) calls := rfl

@[simp]
theorem after_append (state : σ) (first second : List κ) :
    after next state (first ++ second) = after next (after next state first) second :=
  List.foldl_append

theorem after_invariant {inv : σ → Prop} (hstep : ∀ state call, inv state → inv (next state call))
    {state : σ} (h : inv state) (calls : List κ) : inv (after next state calls) := by
  induction calls generalizing state with
  | nil => exact h
  | cons call calls ih => exact ih (hstep state call h)

/-- What every step relates, every run relates. -/
theorem after_related {inv : σ → Prop} {rel : σ → σ → Prop}
    (hinv : ∀ state call, inv state → inv (next state call)) (hrefl : ∀ state, rel state state)
    (htrans : ∀ {first second third}, rel first second → rel second third → rel first third)
    (hstep : ∀ state call, inv state → rel state (next state call)) {state : σ} (h : inv state)
    (calls : List κ) : rel state (after next state calls) := by
  induction calls generalizing state with
  | nil => exact hrefl state
  | cons call calls ih => exact htrans (hstep state call h) (ih (hinv state call h))

theorem exists_step {p : σ → Prop} {state : σ} {calls : List κ} (hstart : ¬p state)
    (hend : p (after next state calls)) :
    ∃ front call back, calls = front ++ call :: back ∧ ¬p (after next state front) ∧
      p (next (after next state front) call) := by
  induction calls generalizing state with
  | nil => exact absurd hend hstart
  | cons call calls ih =>
    by_cases hnext : p (next state call)
    · exact ⟨[], call, calls, rfl, hstart, hnext⟩
    · obtain ⟨front, step, back, rfl, hbefore, hstep⟩ := ih hnext hend
      exact ⟨call :: front, step, back, rfl, hbefore, hstep⟩

def states (next : σ → κ → σ) (state : σ) : List κ → List σ
  | [] => [state]
  | call :: calls => state :: states next (next state call) calls

variable {state : σ}

theorem mem_states_iff {visited : σ} {calls : List κ} :
    visited ∈ states next state calls ↔
      ∃ front back, calls = front ++ back ∧ visited = after next state front := by
  induction calls generalizing state with
  | nil =>
    rw [states, List.mem_singleton]
    constructor
    · rintro rfl
      exact ⟨[], [], rfl, rfl⟩
    · rintro ⟨front, back, hcalls, rfl⟩
      rw [(List.append_eq_nil_iff.mp hcalls.symm).1, after_nil]
  | cons call calls ih =>
    rw [states, List.mem_cons, ih]
    constructor
    · rintro (rfl | ⟨front, back, rfl, rfl⟩)
      · exact ⟨[], call :: calls, rfl, rfl⟩
      · exact ⟨call :: front, back, rfl, rfl⟩
    · rintro ⟨front, back, hcalls, rfl⟩
      cases front with
      | nil => exact Or.inl rfl
      | cons first rest =>
        obtain ⟨rfl, rfl⟩ := List.cons_eq_cons.mp hcalls
        exact Or.inr ⟨rest, back, rfl, rfl⟩

def EachStep (next : σ → κ → σ) (allowed : σ → κ → Prop) : σ → List κ → Prop
  | _, [] => True
  | state, call :: calls => allowed state call ∧ EachStep next allowed (next state call) calls

instance EachStep.decidable {allowed : σ → κ → Prop} [∀ state call, Decidable (allowed state call)] :
    (state : σ) → (calls : List κ) → Decidable (EachStep next allowed state calls)
  | _, [] => .isTrue trivial
  | state, call :: calls =>
    @instDecidableAnd _ _ inferInstance (EachStep.decidable (next state call) calls)

variable {allowed : σ → κ → Prop}

theorem EachStep.of_append {front back : List κ} (h : EachStep next allowed state (front ++ back)) :
    EachStep next allowed (after next state front) back := by
  induction front generalizing state with
  | nil => exact h
  | cons call front ih => exact ih h.2

theorem EachStep.front {front back : List κ}
    (h : EachStep next allowed state (front ++ back)) : EachStep next allowed state front := by
  induction front generalizing state with
  | nil => exact trivial
  | cons call front ih => exact ⟨h.1, ih h.2⟩

theorem EachStep.invariant {inv : σ → Prop} {calls : List κ}
    (hcalls : EachStep next allowed state calls)
    (hstep : ∀ state, ∀ call ∈ calls, inv state → allowed state call → inv (next state call))
    (h : inv state) : ∀ visited ∈ states next state calls, inv visited := by
  induction calls generalizing state with
  | nil =>
    intro visited hvisited
    rw [states, List.mem_singleton] at hvisited
    exact hvisited ▸ h
  | cons call calls ih =>
    intro visited hvisited
    rw [states, List.mem_cons] at hvisited
    rcases hvisited with rfl | hrest
    · exact h
    · exact ih hcalls.2 (fun state step hmem => hstep state step (List.mem_cons_of_mem _ hmem))
        (hstep state call List.mem_cons_self h hcalls.1) visited hrest

end ProofOps.Foundation.Machine
