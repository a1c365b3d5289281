import Mathlib.Data.List.Sort

/-!
# Sorting by a key

`sorted(values, key=key)` of Python: stable, and independent of the order of values with
distinct keys.
-/

namespace ProofOps.Foundation.Sorting

universe u v

variable {α : Type u} {κ : Type v} [LinearOrder κ]

/-- `sorted(values, key=key)`. -/
def sortedBy (key : α → κ) (values : List α) : List α :=
  values.insertionSort fun first second => key first ≤ key second

variable {key : α → κ}

/-- Sorting only reorders. -/
theorem sortedBy_perm (key : α → κ) (values : List α) : (sortedBy key values).Perm values :=
  List.perm_insertionSort _ values

@[simp]
theorem mem_sortedBy {values : List α} {value : α} :
    value ∈ sortedBy key values ↔ value ∈ values :=
  (sortedBy_perm key values).mem_iff

theorem sortedBy_pairwise (key : α → κ) (values : List α) :
    (sortedBy key values).Pairwise fun first second => key first ≤ key second := by
  exact List.pairwise_insertionSort _ values

theorem sortedBy_eq_of_perm {first second : List α} (h : first.Perm second)
    (hkeys : (first.map key).Nodup) : sortedBy key first = sortedBy key second := by
  refine List.Perm.eq_of_pairwise ?_ (sortedBy_pairwise key first) (sortedBy_pairwise key second)
    ((sortedBy_perm key first).trans (h.trans (sortedBy_perm key second).symm))
  intro a b ha hb hab hba
  have hfirst : a ∈ first := mem_sortedBy.mp ha
  have hsecond : b ∈ first := h.mem_iff.mpr (mem_sortedBy.mp hb)
  exact List.inj_on_of_nodup_map hkeys hfirst hsecond (le_antisymm hab hba)

end ProofOps.Foundation.Sorting
