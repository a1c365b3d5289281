import Mathlib.Algebra.Order.BigOperators.Group.List
import Mathlib.Algebra.Order.Group.Nat
import Mathlib.Tactic.Abel
import ProofOps.Foundation.Table

/-!
# Totals of a table

The sum of a value over the rows, or over the rows that pass a test, as a relational
store computes it.  An insertion adds the row's share, an update is bounded row by row, and a
deletion gives up exactly the shares of the deleted rows.
-/

namespace ProofOps.Foundation.Table

universe u v

variable {α : Type u} {κ : Type v} {key : α → κ}

section SumOf

variable {M : Type*} [AddCommMonoid M]

def sumOf (table : Table α key) (value : α → M) : M :=
  (table.rows.map value).sum

variable {table : Table α key} {value : α → M}

@[simp]
theorem sumOf_empty : (empty : Table α key).sumOf value = 0 := rfl

theorem sumOf_congr {amount : α → M} (h : ∀ row ∈ table, value row = amount row) :
    table.sumOf value = table.sumOf amount := by
  unfold sumOf
  rw [List.map_congr_left h]

theorem sumOf_ite (table : Table α key) (test : α → Bool) (value : α → M) :
    (table.sumOf fun row => if test row then value row else 0) =
      ((table.rows.filter test).map value).sum := by
  unfold sumOf
  induction table.rows with
  | nil => rfl
  | cons first rest ih =>
    rw [List.map_cons, List.sum_cons, ih, List.filter_cons]
    cases htest : test first with
    | true => simp
    | false => simp

theorem sumOf_insert? [DecidableEq κ] {other : Table α key} {row : α}
    (h : table.insert? row = some other) : other.sumOf value = table.sumOf value + value row := by
  unfold sumOf
  rw [insert?_rows h, List.map_append, List.sum_append, List.map_singleton, List.sum_singleton]

/-- A put exchanges the values of two rows. -/
theorem sumOf_put [DecidableEq κ] {old row : α} (hold : old ∈ table) (hkey : key old = key row) :
    (table.put row).sumOf value + value old = table.sumOf value + value row := by
  have hnodup := table.nodup
  unfold sumOf
  rw [put_rows (List.mem_map.mpr ⟨old, hold, hkey⟩)]
  change old ∈ table.rows at hold
  generalize table.rows = rows at hold hnodup
  induction rows with
  | nil => cases hold
  | cons first rest ih =>
    rw [List.map_cons, List.nodup_cons] at hnodup
    simp only [List.map_cons, List.sum_cons]
    rcases List.mem_cons.mp hold with rfl | hrest
    · -- The other rows have other keys, so they stay what they are.
      have hsame : rest.map (fun other => if key other = key row then row else other) = rest := by
        refine (List.map_congr_left fun other hother => if_neg ?_).trans (List.map_id rest)
        intro heq
        exact hnodup.1 (hkey.trans heq.symm ▸ List.mem_map_of_mem hother)
      rw [hsame, if_pos hkey]
      abel
    · have hne : key first ≠ key row := by
        intro heq
        exact hnodup.1 (heq.trans hkey.symm ▸ List.mem_map_of_mem hrest)
      rw [if_neg hne, add_assoc, ih hrest hnodup.2, add_assoc]

end SumOf

/-! ### Totals of natural numbers -/

/-- What a row adds to a total. -/
def share (test : α → Bool) (value : α → Nat) (row : α) : Nat :=
  if test row then value row else 0

def total (table : Table α key) (test : α → Bool) (value : α → Nat) : Nat :=
  (table.rows.map (share test value)).sum

def count (table : Table α key) (test : α → Bool) : Nat :=
  table.total test fun _ => 1

variable {table : Table α key} {test : α → Bool} {value : α → Nat}

@[simp]
theorem total_empty : (empty : Table α key).total test value = 0 := rfl

@[simp]
theorem count_empty : (empty : Table α key).count test = 0 := rfl

theorem total_eq_sum_filter (table : Table α key) (test : α → Bool) (value : α → Nat) :
    table.total test value = ((table.rows.filter test).map value).sum := by
  exact sumOf_ite table test value

theorem count_eq_length (table : Table α key) (test : α → Bool) :
    table.count test = (table.rows.filter test).length := by
  unfold count
  rw [total_eq_sum_filter]
  simp

variable {other : α → Bool} {amount : α → Nat}

theorem total_le_total (h : ∀ row ∈ table, share test value row ≤ share other amount row) :
    table.total test value ≤ table.total other amount := by
  exact List.sum_le_sum h

theorem total_congr (h : ∀ row ∈ table, share test value row = share other amount row) :
    table.total test value = table.total other amount :=
  sumOf_congr h

theorem total_eq_zero (h : ∀ row ∈ table, test row = true → value row = 0) :
    table.total test value = 0 := by
  unfold total
  rw [List.sum_eq_zero]
  intro amount hamount
  obtain ⟨row, hrow, rfl⟩ := List.mem_map.mp hamount
  unfold share
  split_ifs with htest
  · exact h row hrow htest
  · rfl

theorem le_total {row : α} (hrow : row ∈ table) (htest : test row = true) :
    value row ≤ table.total test value := by
  have hmem : share test value row ∈ table.rows.map (share test value) :=
    List.mem_map_of_mem hrow
  have hshare : share test value row = value row := if_pos htest
  rw [← hshare]
  exact List.single_le_sum (fun _ _ => Nat.zero_le _) _ hmem

theorem total_insert? [DecidableEq κ] {other : Table α key} {row : α}
    (h : table.insert? row = some other) :
    other.total test value = table.total test value + share test value row :=
  sumOf_insert? h

theorem total_put [DecidableEq κ] {old row : α} (hold : old ∈ table) (hkey : key old = key row) :
    (table.put row).total test value + share test value old =
      table.total test value + share test value row :=
  sumOf_put hold hkey

section Modify

variable {changed : α → Bool} {change : α → α} {keeps : ∀ row, key (change row) = key row}

theorem total_modify_le
    (h : ∀ row ∈ table, changed row = true → share test value (change row) ≤ share test value row) :
    (table.modify changed change keeps).total test value ≤ table.total test value := by
  unfold total modify
  rw [List.map_map]
  refine List.sum_le_sum fun row hrow => ?_
  show share test value (if changed row then change row else row) ≤ share test value row
  split_ifs with hchanged
  · exact h row hrow hchanged
  · exact le_rfl

theorem total_modify_eq
    (h : ∀ row ∈ table, changed row = true → share test value (change row) = share test value row) :
    (table.modify changed change keeps).total test value = table.total test value := by
  unfold total modify
  rw [List.map_map]
  refine congrArg List.sum (List.map_congr_left fun row hrow => ?_)
  show share test value (if changed row then change row else row) = share test value row
  split_ifs with hchanged
  · exact h row hrow hchanged
  · rfl

theorem total_modify_one [DecidableEq κ] {row : α} (hrow : row ∈ table)
    (hone : ∀ other ∈ table, changed other = true ↔ key other = key row) :
    (table.modify changed change keeps).total test value + share test value row =
      table.total test value + share test value (change row) := by
  rw [← total_put hrow (keeps row).symm]
  have hrows : (table.modify changed change keeps).rows = (table.put (change row)).rows := by
    rw [put_rows (List.mem_map.mpr ⟨row, hrow, (keeps row).symm⟩)]
    refine List.map_congr_left fun other hother => ?_
    by_cases hkey : key other = key row
    · rw [if_pos ((hone other hother).mpr hkey), if_pos (hkey.trans (keeps row).symm),
        eq_of_key_eq hother hrow hkey]
    · rw [if_neg fun hchanged => hkey ((hone other hother).mp hchanged),
        if_neg fun heq => hkey (heq.trans (keeps row))]
  unfold total
  rw [hrows]

end Modify

variable {deleted : α → Bool}

theorem total_delete_le : (table.delete deleted).total test value ≤ table.total test value := by
  exact (List.filter_sublist.map _).sum_le_sum fun _ _ => Nat.zero_le _

theorem total_delete_add :
    (table.delete deleted).total test value +
      table.total (fun row => deleted row && test row) value = table.total test value := by
  change ((table.rows.filter fun row => !deleted row).map (share test value)).sum +
    (table.rows.map (share (fun row => deleted row && test row) value)).sum =
      (table.rows.map (share test value)).sum
  induction table.rows with
  | nil => rfl
  | cons first rest ih =>
    cases hdeleted : deleted first with
    | true =>
      rw [List.filter_cons_of_neg (by simp [hdeleted])]
      simp only [List.map_cons, List.sum_cons] at ih ⊢
      have hshare : share (fun row => deleted row && test row) value first =
          share test value first := by simp [share, hdeleted]
      omega
    | false =>
      rw [List.filter_cons_of_pos (by simp [hdeleted])]
      simp only [List.map_cons, List.sum_cons] at ih ⊢
      have hshare : share (fun row => deleted row && test row) value first = 0 := by
        simp [share, hdeleted]
      omega

end ProofOps.Foundation.Table
