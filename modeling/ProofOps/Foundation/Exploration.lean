import Mathlib.Algebra.Order.BigOperators.Group.Finset
import ProofOps.Foundation.Checked

/-!
# Explorations of a graph

Two ways to visit the nodes of a graph that may be shared and cyclic, where every visit may fail.

`walk` goes down one branch after another to a limited depth, and checks a node at its first visit.
A walk that succeeds has checked every node that its start reaches (`walk_checked`).

`explore` keeps a stack of pending items and a set of visited nodes.  It ends on every finite graph
(`explore_ends`), and has then visited whatever the items lead to (`explore_visited`).
-/

namespace ProofOps.Foundation.Exploration

open Checked

universe u v

/-! ### Walks of limited depth -/

/-- What an item is seen as: several items, or a node. -/
inductive Shape (ι α : Type u) where
  | branch (items : List α)
  | node (id : ι)

section Walk

variable {ι α : Type u} {ε : Type v}

def walk [DecidableEq ι] (tooDeep : ε) (shape : α → Except ε (Shape ι α)) (check : ι → Except ε (List α)) :
    Nat → List ι → α → Except ε (List ι)
  | 0, _, _ => .error tooDeep
  | depth + 1, seen, item => do
    match ← shape item with
    | .branch items => items.foldlM (walk tooDeep shape check depth) seen
    | .node id =>
      if id ∈ seen then return seen
      else do
        let next ← check id
        next.foldlM (walk tooDeep shape check depth) (id :: seen)

inductive Reaches (shape : α → Except ε (Shape ι α)) (follow : ι → List α) : α → ι → Prop where
  | here {item : α} {id : ι} : shape item = .ok (.node id) → Reaches shape follow item id
  | branch {item inner : α} {items : List α} {id : ι} : shape item = .ok (.branch items) →
      inner ∈ items → Reaches shape follow inner id → Reaches shape follow item id
  | next {item inner : α} {node id : ι} : shape item = .ok (.node node) → inner ∈ follow node →
      Reaches shape follow inner id → Reaches shape follow item id

inductive Covered (shape : α → Except ε (Shape ι α)) (seen : List ι) : α → Prop where
  | branch {item : α} {items : List α} : shape item = .ok (.branch items) →
      (∀ inner ∈ items, Covered shape seen inner) → Covered shape seen item
  | node {item : α} {id : ι} : shape item = .ok (.node id) → id ∈ seen → Covered shape seen item

variable {tooDeep : ε} {shape : α → Except ε (Shape ι α)} {check : ι → Except ε (List α)} {item : α}

theorem Covered.mono {seen later : List ι} (h : Covered shape seen item) (hsubset : seen ⊆ later) :
    Covered shape later item := by
  induction h with
  | branch hshape _ ih => exact .branch hshape ih
  | node hshape hmem => exact .node hshape (hsubset hmem)

structure Added (shape : α → Except ε (Shape ι α)) (check : ι → Except ε (List α))
    (seen later : List ι) : Prop where
  subset : seen ⊆ later
  checked : ∀ id ∈ later, id ∉ seen →
    ∃ next, check id = .ok next ∧ ∀ item ∈ next, Covered shape later item

theorem Added.refl (seen : List ι) : Added shape check seen seen where
  subset := List.Subset.refl seen
  checked := fun _ hmem hnot => absurd hmem hnot

/-- Two walks add up. -/
theorem Added.trans {first second third : List ι} (h : Added shape check first second)
    (h' : Added shape check second third) : Added shape check first third where
  subset := fun _ hmem => h'.subset (h.subset hmem)
  checked := by
    intro id hmem hnot
    by_cases hsecond : id ∈ second
    · obtain ⟨next, hcheck, hcovered⟩ := h.checked id hsecond hnot
      exact ⟨next, hcheck, fun item hitem => (hcovered item hitem).mono h'.subset⟩
    · exact h'.checked id hmem hsecond

variable {seen : List ι}

theorem foldlM_added {step : List ι → α → Except ε (List ι)}
    (hstep : ∀ seen item later, step seen item = .ok later →
      Added shape check seen later ∧ Covered shape later item) {items : List α} {later : List ι}
    (h : items.foldlM step seen = .ok later) :
    Added shape check seen later ∧ ∀ item ∈ items, Covered shape later item := by
  induction items generalizing seen with
  | nil =>
    cases pure_ok h
    exact ⟨.refl _, fun item hitem => absurd hitem List.not_mem_nil⟩
  | cons item items ih =>
    obtain ⟨between, hbetween, h⟩ := bind_ok h
    obtain ⟨hadded, hcovered⟩ := hstep seen item between hbetween
    obtain ⟨hlater, hrest⟩ := ih h
    exact ⟨hadded.trans hlater, List.forall_mem_cons.mpr ⟨hcovered.mono hlater.subset, hrest⟩⟩

theorem walk_added [DecidableEq ι] {depth : Nat} {seen later : List ι} {item : α}
    (h : walk tooDeep shape check depth seen item = .ok later) :
    Added shape check seen later ∧ Covered shape later item := by
  induction depth generalizing seen later item with
  | zero => cases h
  | succ depth ih =>
    obtain ⟨found, hshape, h⟩ := bind_ok h
    cases found with
    | branch items =>
      obtain ⟨hadded, hcovered⟩ := foldlM_added (fun _ _ _ hstep => ih hstep) h
      exact ⟨hadded, .branch hshape hcovered⟩
    | node id =>
      dsimp only at h
      split_ifs at h with hmem
      · cases pure_ok h
        exact ⟨.refl seen, .node hshape hmem⟩
      · obtain ⟨next, hcheck, h⟩ := bind_ok h
        obtain ⟨hadded, hcovered⟩ := foldlM_added (fun _ _ _ hstep => ih hstep) h
        have hid : id ∈ later := hadded.subset List.mem_cons_self
        refine ⟨⟨fun _ hin => hadded.subset (List.mem_cons_of_mem id hin), ?_⟩, .node hshape hid⟩
        intro other hother hnot
        by_cases hsame : other = id
        · exact ⟨next, hsame ▸ hcheck, hcovered⟩
        · refine hadded.checked other hother fun hin => ?_
          rcases List.mem_cons.mp hin with heq | hin
          · exact hsame heq
          · exact hnot hin

variable {follow : ι → List α}

theorem Covered.mem_of_reaches (hfollow : ∀ id next, check id = .ok next → next = follow id)
    (hadded : Added shape check [] seen) {id : ι} (hcovered : Covered shape seen item)
    (h : Reaches shape follow item id) : id ∈ seen := by
  induction h with
  | here hshape =>
    cases hcovered with
    | branch hbranch _ =>
      rw [hshape] at hbranch
      cases hbranch
    | node hnode hmem =>
      rw [hshape] at hnode
      cases hnode
      exact hmem
  | branch hshape hinner _ ih =>
    cases hcovered with
    | branch hbranch hall =>
      rw [hshape] at hbranch
      cases hbranch
      exact ih (hall _ hinner)
    | node hnode _ =>
      rw [hshape] at hnode
      cases hnode
  | next hshape hinner _ ih =>
    cases hcovered with
    | branch hbranch _ =>
      rw [hshape] at hbranch
      cases hbranch
    | node hnode hmem =>
      rw [hshape] at hnode
      cases hnode
      obtain ⟨next, hchecked, hall⟩ := hadded.checked _ hmem List.not_mem_nil
      rw [hfollow _ next hchecked] at hall
      exact ih (hall _ hinner)

theorem walk_checked [DecidableEq ι] (hfollow : ∀ id next, check id = .ok next → next = follow id)
    {depth : Nat} (h : walk tooDeep shape check depth [] item = .ok seen) {id : ι}
    (hreaches : Reaches shape follow item id) : ∃ next, check id = .ok next := by
  obtain ⟨hadded, hcovered⟩ := walk_added h
  have hmem := hcovered.mem_of_reaches hfollow hadded hreaches
  obtain ⟨next, hcheck, -⟩ := hadded.checked id hmem List.not_mem_nil
  exact ⟨next, hcheck⟩

end Walk

section Explore

variable {ι α σ : Type u} {ε : Type v}

def explore [DecidableEq ι] (look : Finset ι → σ → α → Except ε (Option ι × σ))
    (visit : Finset ι → σ → ι → Except ε (List α × σ)) :
    Nat → Finset ι → σ → List α → Option (Except ε (Finset ι × σ))
  | _, seen, state, [] => some (.ok (seen, state))
  | 0, _, _, _ :: _ => none
  | fuel + 1, seen, state, item :: pending =>
    match look seen state item with
    | .error error => some (.error error)
    | .ok (none, state) => explore look visit fuel seen state pending
    | .ok (some id, state) =>
      if id ∈ seen then explore look visit fuel seen state pending
      else
        match visit (insert id seen) state id with
        | .error error => some (.error error)
        | .ok (items, state) =>
          explore look visit fuel (insert id seen) state (items.reverse ++ pending)

variable {look : Finset ι → σ → α → Except ε (Option ι × σ)}
  {visit : Finset ι → σ → ι → Except ε (List α × σ)}

theorem explore_ends [DecidableEq ι] [Fintype ι] {size : ι → Nat}
    (hsize : ∀ seen state id items state', visit seen state id = .ok (items, state') →
      items.length ≤ size id)
    {fuel : Nat} {seen : Finset ι} {state : σ} {pending : List α}
    (hfuel : pending.length + ∑ id ∈ seenᶜ, size id ≤ fuel) :
    ∃ result, explore look visit fuel seen state pending = some result := by
  induction fuel generalizing seen state pending with
  | zero =>
    cases pending with
    | nil => exact ⟨_, rfl⟩
    | cons item pending =>
      rw [List.length_cons] at hfuel
      omega
  | succ fuel ih =>
    cases pending with
    | nil => exact ⟨_, rfl⟩
    | cons item pending =>
      rw [List.length_cons] at hfuel
      unfold explore
      split
      · exact ⟨_, rfl⟩
      · exact ih (by omega)
      · rename_i id state' _
        split_ifs with hmem
        · exact ih (by omega)
        · split
          · exact ⟨_, rfl⟩
          · rename_i items state'' hvisit
            apply ih
            have hlength := hsize _ _ _ _ _ hvisit
            have hsum := Finset.sum_erase_add seenᶜ size (Finset.mem_compl.mpr hmem)
            rw [Finset.compl_insert, List.length_append, List.length_reverse]
            omega

def Settled (look : Finset ι → σ → α → Except ε (Option ι × σ)) (seen : Finset ι) (item : α) : Prop :=
  ∃ before state found state', look before state item = .ok (found, state') ∧
    ∀ id ∈ found, id ∈ seen

def Visited (look : Finset ι → σ → α → Except ε (Option ι × σ))
    (visit : Finset ι → σ → ι → Except ε (List α × σ)) (seen : Finset ι) (id : ι) : Prop :=
  ∃ before state items state', visit before state id = .ok (items, state') ∧
    ∀ item ∈ items, Settled look seen item

theorem explore_visited [DecidableEq ι] {fuel : Nat} {seen later : Finset ι} {state last : σ} {pending : List α}
    (h : explore look visit fuel seen state pending = some (.ok (later, last))) :
    seen ⊆ later ∧ (∀ item ∈ pending, Settled look later item) ∧
      ∀ id ∈ later, id ∉ seen → Visited look visit later id := by
  induction fuel generalizing seen state pending with
  | zero =>
    cases pending with
    | nil =>
      cases h
      exact ⟨Finset.Subset.refl _, fun item hitem => absurd hitem List.not_mem_nil,
        fun id hmem hnot => absurd hmem hnot⟩
    | cons item pending => cases h
  | succ fuel ih =>
    cases pending with
    | nil =>
      cases h
      exact ⟨Finset.Subset.refl _, fun item hitem => absurd hitem List.not_mem_nil,
        fun id hmem hnot => absurd hmem hnot⟩
    | cons item pending =>
      unfold explore at h
      split at h
      · cases h
      · rename_i state' hlook
        obtain ⟨hsubset, hpending, hvisited⟩ := ih h
        have hitem : Settled look later item :=
          ⟨seen, state, none, state', hlook, fun id hid => absurd hid (Option.not_mem_none id)⟩
        exact ⟨hsubset, List.forall_mem_cons.mpr ⟨hitem, hpending⟩, hvisited⟩
      · rename_i id state' hlook
        have hitem : id ∈ later → Settled look later item := by
          intro hmem
          refine ⟨seen, state, some id, state', hlook, fun other hother => ?_⟩
          cases hother
          exact hmem
        split_ifs at h with hmem
        · obtain ⟨hsubset, hpending, hvisited⟩ := ih h
          exact ⟨hsubset, List.forall_mem_cons.mpr ⟨hitem (hsubset hmem), hpending⟩, hvisited⟩
        · split at h
          · cases h
          · rename_i items state'' hvisit
            obtain ⟨hsubset, hpending, hvisited⟩ := ih h
            have hid : id ∈ later := hsubset (Finset.mem_insert_self id seen)
            refine ⟨fun _ hin => hsubset (Finset.mem_insert_of_mem hin), ?_, ?_⟩
            · refine List.forall_mem_cons.mpr ⟨hitem hid, fun other hother => ?_⟩
              exact hpending other (List.mem_append_right _ hother)
            · intro other hother hnot
              by_cases hsame : other = id
              · refine ⟨_, _, items, state'', hsame ▸ hvisit, fun inner hinner => ?_⟩
                exact hpending inner (List.mem_append_left _ (List.mem_reverse.mpr hinner))
              · refine hvisited other hother fun hin => ?_
                rcases Finset.mem_insert.mp hin with heq | hin
                · exact hsame heq
                · exact hnot hin

end Explore

end ProofOps.Foundation.Exploration
