import ProofOps.Foundation.Packing

/-!
# Occurrences in a folded sequence

A needle is searched in a sequence from left to right, without overlaps.  When the sequence is the
folding of another one, item by item, an occurrence stands at the same offsets in both as long as
every item before its end is folded to one item (`between_folded`).
-/

namespace ProofOps.Foundation.Occurrences

open Packing

variable {α β : Type}

def occurrencesFrom [BEq α] (needle : List α) : Nat → Nat → List α → List (Nat × Nat)
  | _, offset, [] => if needle.isEmpty then [(offset, offset)] else []
  | covered + 1, offset, _ :: items => occurrencesFrom needle covered (offset + 1) items
  | 0, offset, item :: items =>
    if needle.isPrefixOf (item :: items) then
      (offset, offset + needle.length) ::
        occurrencesFrom needle (needle.length - 1) (offset + 1) items
    else occurrencesFrom needle 0 (offset + 1) items

/-- `finditer` of a literal. -/
def occurrences [BEq α] (needle items : List α) : List (Nat × Nat) :=
  occurrencesFrom needle 0 0 items

section Search

variable [BEq α] [LawfulBEq α] {needle : List α}

/-- What is found lies inside the items, and is the needle. -/
theorem mem_occurrencesFrom {front items : List α} {covered : Nat} {range : Nat × Nat}
    (h : range ∈ occurrencesFrom needle covered front.length items) :
    range.1 ≤ range.2 ∧ range.2 ≤ (front ++ items).length ∧
      between (front ++ items) range = needle := by
  induction items generalizing front covered with
  | nil =>
    · unfold occurrencesFrom at h
      split_ifs at h with hempty
      · cases List.mem_singleton.mp h
        rw [List.isEmpty_iff.mp hempty]
        refine ⟨Nat.le_refl _, ?_, ?_⟩
        · exact Nat.le_of_eq (congrArg List.length (List.append_nil front).symm)
        · unfold between
          rw [Nat.sub_self, List.take_zero]
      · exact absurd h List.not_mem_nil
  | cons item items ih =>
    have hnext : front ++ item :: items = (front ++ [item]) ++ items := by simp
    have hlength : (front ++ [item]).length = front.length + 1 := by simp
    cases covered with
    | succ covered =>
      unfold occurrencesFrom at h
      rw [hnext]
      rw [← hlength] at h
      exact ih h
    | zero =>
      unfold occurrencesFrom at h
      split_ifs at h with hhere
      · rcases List.mem_cons.mp h with rfl | hlater
        · obtain ⟨rest, hrest⟩ := List.isPrefixOf_iff_prefix.mp hhere
          rw [← hrest]
          refine ⟨Nat.le_add_right _ _, ?_, ?_⟩
          · simp only [List.length_append]
            omega
          · rw [← List.append_assoc]
            exact between_append front needle rest
        · rw [hnext]
          rw [← hlength] at hlater
          exact ih hlater
      · rw [hnext]
        rw [← hlength] at h
        exact ih h

theorem mem_occurrences {items : List α} {range : Nat × Nat} (h : range ∈ occurrences needle items) :
    range.1 ≤ range.2 ∧ range.2 ≤ items.length ∧ between items range = needle :=
  @mem_occurrencesFrom _ _ _ needle [] items 0 range h

end Search

/-! ### Folding -/

def Steady (fold : α → List β) (count : Nat) (items : List α) : Prop :=
  ∀ item ∈ items.take count, (fold item).length = 1

section Folding

variable {fold : α → List β} {count : Nat} {items : List α}

theorem length_flatMap_of_one (h : ∀ item ∈ items, (fold item).length = 1) :
    (items.flatMap fold).length = items.length := by
  induction items with
  | nil => rfl
  | cons item items ih =>
    rw [List.forall_mem_cons] at h
    rw [List.flatMap_cons, List.length_append, h.1, ih h.2, List.length_cons, Nat.add_comm]

theorem Steady.mono {fewer : Nat} (h : Steady fold count items) (hle : fewer ≤ count) :
    Steady fold fewer items := by
  intro item hitem
  refine h item (List.mem_of_mem_take (i := fewer) ?_)
  rw [List.take_take, Nat.min_eq_left hle]
  exact hitem

theorem Steady.le_length (h : Steady fold count items) (hle : count ≤ (items.flatMap fold).length) :
    count ≤ items.length := by
  by_contra hlt
  have hwhole : items.take count = items := List.take_of_length_le (by omega)
  unfold Steady at h
  rw [hwhole] at h
  rw [length_flatMap_of_one h] at hle
  exact hlt hle

theorem Steady.split_folded (h : Steady fold count items) (hle : count ≤ items.length) :
    (items.flatMap fold).take count = (items.take count).flatMap fold ∧
      (items.flatMap fold).drop count = (items.drop count).flatMap fold := by
  have hlength : ((items.take count).flatMap fold).length = count := by
    rw [length_flatMap_of_one h, List.length_take, Nat.min_eq_left hle]
  have hsplit : items.flatMap fold =
      (items.take count).flatMap fold ++ (items.drop count).flatMap fold := by
    rw [← List.flatMap_append, List.take_append_drop]
  rw [hsplit]
  exact ⟨List.take_left' hlength, List.drop_left' hlength⟩

theorem between_eq_drop_take (items : List α) (range : Nat × Nat) :
    between items range = (items.take range.2).drop range.1 := by
  unfold between
  rw [List.drop_take]

theorem between_folded {range : Nat × Nat} (hrange : range.1 ≤ range.2)
    (hle : range.2 ≤ (items.flatMap fold).length) (h : Steady fold range.2 items) :
    range.2 ≤ items.length ∧
      between (items.flatMap fold) range = (between items range).flatMap fold := by
  have hitems := h.le_length hle
  refine ⟨hitems, ?_⟩
  have hfront : Steady fold range.1 (items.take range.2) := by
    intro item hitem
    rw [List.take_take, Nat.min_eq_left hrange] at hitem
    exact (h.mono hrange) item hitem
  have hfits : range.1 ≤ (items.take range.2).length := by
    rw [List.length_take, Nat.min_eq_left hitems]
    exact hrange
  rw [between_eq_drop_take, between_eq_drop_take, (h.split_folded hitems).1,
    (hfront.split_folded hfits).2]

end Folding

def runsFrom (marked : α → Bool) : Bool → List α → Nat
  | _, [] => 0
  | inside, item :: items =>
    (if marked item && !inside then 1 else 0) + runsFrom marked (marked item) items

def runs (marked : α → Bool) (items : List α) : Nat :=
  runsFrom marked false items

end ProofOps.Foundation.Occurrences
