import Mathlib.Algebra.BigOperators.Group.List.Basic
import Mathlib.Data.List.Nodup

/-!
# Keyed tables

A table is a list of rows no two of which have the same key, so a row is found
by its key and a statement on a row concerns that row alone.  The operations are
those of a relational store: insert a new row, put a row in place of an old one,
modify or delete the rows that satisfy a test.
-/

namespace ProofOps.Foundation

universe u v

/-- Rows with at most one for each key. -/
structure Table (α : Type u) {κ : Type v} (key : α → κ) where
  rows : List α
  nodup : (rows.map key).Nodup

namespace Table

variable {α : Type u} {κ : Type v} {key : α → κ}

instance : Membership α (Table α key) :=
  ⟨fun table row => row ∈ table.rows⟩

variable {table : Table α key} {row : α}

@[simp]
theorem mem_rows : row ∈ table.rows ↔ row ∈ table := Iff.rfl

instance (table : Table α key) (p : α → Prop) [DecidablePred p] :
    Decidable (∀ row ∈ table, p row) :=
  inferInstanceAs (Decidable (∀ row ∈ table.rows, p row))

/-- A table without rows. -/
def empty : Table α key where
  rows := []
  nodup := List.nodup_nil

/-- It has none. -/
@[simp]
theorem not_mem_empty : row ∉ (empty : Table α key) := List.not_mem_nil

variable [DecidableEq κ]

/-- The row of a key. -/
def find (table : Table α key) (k : κ) : Option α :=
  table.rows.find? fun row => key row = k

/-- What is found under a key is its row. -/
theorem find_eq_some_iff {table : Table α key} {k : κ} {row : α} :
    table.find k = some row ↔ row ∈ table ∧ key row = k := by
  unfold find
  constructor
  · intro h
    exact ⟨List.mem_of_find?_eq_some h, by simpa using List.find?_some h⟩
  · rintro ⟨hmem, rfl⟩
    have hnodup := table.nodup
    change row ∈ table.rows at hmem
    generalize table.rows = rows at hmem hnodup
    induction rows with
    | nil => cases hmem
    | cons first rest ih =>
      rw [List.map_cons, List.nodup_cons] at hnodup
      rcases List.mem_cons.mp hmem with rfl | hrest
      · simp
      · have hne : key first ≠ key row := by
          intro heq
          exact hnodup.1 (heq ▸ List.mem_map_of_mem hrest)
        rw [List.find?_cons_of_neg (by simpa using hne)]
        exact ih hrest hnodup.2

theorem find_eq_none_iff {k : κ} : table.find k = none ↔ ∀ row ∈ table, key row ≠ k := by
  unfold find
  rw [List.find?_eq_none]
  simp only [decide_eq_true_eq, mem_rows, ne_eq]

theorem find_of_mem (h : row ∈ table) :
    table.find (key row) = some row :=
  find_eq_some_iff.mpr ⟨h, rfl⟩

/-- A key has one row. -/
theorem eq_of_key_eq {first second : α} (hfirst : first ∈ table) (hsecond : second ∈ table)
    (hkey : key first = key second) : first = second := by
  have h := find_of_mem hfirst
  rw [hkey, find_of_mem hsecond] at h
  exact (Option.some.inj h).symm

/-! ### Inserting and putting -/

def insert? (table : Table α key) (row : α) : Option (Table α key) :=
  if h : key row ∈ table.rows.map key then
    none
  else
    some
      { rows := table.rows ++ [row]
        nodup := by
          rw [List.map_append, List.nodup_append]
          refine ⟨table.nodup, List.nodup_singleton _, ?_⟩
          rintro k hk _ hlast rfl
          rw [List.map_cons, List.map_nil, List.mem_singleton] at hlast
          exact h (hlast ▸ hk) }

variable {other : Table α key}

theorem insert?_rows (h : table.insert? row = some other) : other.rows = table.rows ++ [row] := by
  unfold insert? at h
  split_ifs at h
  cases h
  rfl

/-- The rows after an insertion. -/
theorem mem_insert? {table other : Table α key} {row candidate : α}
    (h : table.insert? row = some other) :
    candidate ∈ other ↔ candidate ∈ table ∨ candidate = row := by
  rw [← mem_rows, insert?_rows h, List.mem_append, List.mem_singleton, mem_rows]

theorem find_of_insert? (h : table.insert? row = some other) : table.find (key row) = none := by
  unfold insert? at h
  split_ifs at h with htaken
  rw [find_eq_none_iff]
  intro candidate hmem heq
  exact htaken (heq ▸ List.mem_map_of_mem hmem)

/-- What is found after an insertion. -/
theorem find_insert? (h : table.insert? row = some other) (k : κ) :
    other.find k = if key row = k then some row else table.find k := by
  have hrows := insert?_rows h
  by_cases hkey : key row = k
  · rw [if_pos hkey, find_eq_some_iff]
    exact ⟨(mem_insert? h).mpr (Or.inr rfl), hkey⟩
  · rw [if_neg hkey]
    unfold find
    rw [hrows, List.find?_append]
    simp [hkey]

theorem find_insert?_of_some (h : table.insert? row = some other) {k : κ} {old : α}
    (hold : table.find k = some old) : other.find k = some old := by
  rw [find_insert? h, if_neg, hold]
  intro hkey
  rw [← hkey, find_of_insert? h] at hold
  cases hold

theorem insert?_eq_none_iff : table.insert? row = none ↔ table.find (key row) ≠ none := by
  constructor
  · intro h hnone
    unfold insert? at h
    split_ifs at h with htaken
    obtain ⟨candidate, hmem, hkey⟩ := List.mem_map.mp htaken
    exact find_eq_none_iff.mp hnone candidate hmem hkey
  · intro h
    by_contra hnone
    obtain ⟨other, hother⟩ := Option.ne_none_iff_exists'.mp hnone
    exact h (find_of_insert? hother)

def insertOr {ε : Type*} (error : ε) (table : Table α key) (row : α) : Except ε (Table α key) :=
  match table.insert? row with
  | some table => .ok table
  | none => .error error

theorem insertOr_ok {ε : Type*} {error : ε} (h : table.insertOr error row = .ok other) :
    table.insert? row = some other := by
  unfold insertOr at h
  cases hinsert : table.insert? row with
  | none => simp [hinsert] at h
  | some made =>
    simp only [hinsert, Except.ok.injEq] at h
    rw [h]

def put (table : Table α key) (row : α) : Table α key :=
  if h : key row ∈ table.rows.map key then
    { rows := table.rows.map fun old => if key old = key row then row else old
      nodup := by
        have hkeys : (table.rows.map fun old => if key old = key row then row else old).map key =
            table.rows.map key := by
          rw [List.map_map]
          refine List.map_congr_left fun old _ => ?_
          show key (if key old = key row then row else old) = key old
          split_ifs with heq
          · exact heq.symm
          · rfl
        rw [hkeys]
        exact table.nodup }
  else
    { rows := table.rows ++ [row]
      nodup := by
        rw [List.map_append, List.nodup_append]
        refine ⟨table.nodup, List.nodup_singleton _, ?_⟩
        rintro k hk _ hlast rfl
        rw [List.map_cons, List.map_nil, List.mem_singleton] at hlast
        exact h (hlast ▸ hk) }

theorem put_rows (h : key row ∈ table.rows.map key) :
    (table.put row).rows = table.rows.map fun old => if key old = key row then row else old := by
  unfold put
  rw [dif_pos h]

/-- The rows after a put. -/
theorem mem_put {candidate : α} :
    candidate ∈ table.put row ↔ candidate = row ∨ candidate ∈ table ∧ key candidate ≠ key row := by
  unfold put
  split_ifs with htaken
  · rw [← mem_rows, List.mem_map]
    constructor
    · rintro ⟨old, hold, rfl⟩
      split_ifs with heq
      · exact Or.inl rfl
      · exact Or.inr ⟨hold, heq⟩
    · rintro (rfl | ⟨hmem, hne⟩)
      · obtain ⟨old, hold, hkey⟩ := List.mem_map.mp htaken
        exact ⟨old, hold, if_pos hkey⟩
      · exact ⟨candidate, hmem, if_neg hne⟩
  · rw [← mem_rows, List.mem_append, List.mem_singleton, or_comm, mem_rows]
    refine or_congr_right ⟨fun hmem => ⟨hmem, fun heq => ?_⟩, And.left⟩
    exact htaken (heq ▸ List.mem_map_of_mem hmem)

/-- What is found after a put. -/
@[simp]
theorem find_put (table : Table α key) (row : α) (k : κ) :
    (table.put row).find k = if key row = k then some row else table.find k := by
  by_cases hkey : key row = k
  · rw [if_pos hkey, find_eq_some_iff]
    exact ⟨mem_put.mpr (Or.inl rfl), hkey⟩
  · rw [if_neg hkey]
    cases hold : table.find k with
    | none =>
      rw [find_eq_none_iff] at hold ⊢
      intro candidate hmem
      rcases mem_put.mp hmem with rfl | ⟨hin, -⟩
      · exact hkey
      · exact hold candidate hin
    | some old =>
      rw [find_eq_some_iff] at hold ⊢
      refine ⟨mem_put.mpr (Or.inr ⟨hold.1, ?_⟩), hold.2⟩
      rw [hold.2]
      exact fun heq => hkey heq.symm

def modify (table : Table α key) (test : α → Bool) (change : α → α)
    (keeps : ∀ row, key (change row) = key row) : Table α key where
  rows := table.rows.map fun row => if test row then change row else row
  nodup := by
    have hkeys : (table.rows.map fun row => if test row then change row else row).map key =
        table.rows.map key := by
      rw [List.map_map]
      refine List.map_congr_left fun row _ => ?_
      show key (if test row then change row else row) = key row
      split_ifs
      · exact keeps row
      · rfl
    rw [hkeys]
    exact table.nodup

variable {test : α → Bool} {change : α → α} {keeps : ∀ row, key (change row) = key row}

omit [DecidableEq κ] in
theorem mem_modify {table : Table α key} {candidate : α} :
    candidate ∈ table.modify test change keeps ↔
      ∃ row ∈ table, (if test row then change row else row) = candidate := by
  exact List.mem_map

@[simp]
theorem find_modify (table : Table α key) (k : κ) :
    (table.modify test change keeps).find k =
      (table.find k).map fun row => if test row then change row else row := by
  have hkey : ∀ row, key (if test row then change row else row) = key row := by
    intro row
    split_ifs
    · exact keeps row
    · rfl
  cases hfound : table.find k with
  | none =>
    rw [Option.map_none, find_eq_none_iff]
    rw [find_eq_none_iff] at hfound
    intro candidate hmem
    obtain ⟨row, hrow, rfl⟩ := mem_modify.mp hmem
    rw [hkey]
    exact hfound row hrow
  | some row =>
    rw [find_eq_some_iff] at hfound
    rw [Option.map_some, find_eq_some_iff]
    exact ⟨mem_modify.mpr ⟨row, hfound.1, rfl⟩, (hkey row).trans hfound.2⟩

/-- `DELETE ... WHERE`. -/
def delete (table : Table α key) (test : α → Bool) : Table α key where
  rows := table.rows.filter fun row => !test row
  nodup := table.nodup.sublist (List.filter_sublist.map key)

omit [DecidableEq κ] in
/-- The rows after a deletion. -/
theorem mem_delete {candidate : α} :
    candidate ∈ table.delete test ↔ candidate ∈ table ∧ test candidate = false := by
  rw [← mem_rows]
  unfold delete
  rw [List.mem_filter, Bool.not_eq_true', mem_rows]

/-- What is found after a deletion. -/
theorem find_delete (table : Table α key) (k : κ) :
    (table.delete test).find k = (table.find k).filter fun row => !test row := by
  cases hfound : table.find k with
  | none =>
    rw [Option.filter_none, find_eq_none_iff]
    rw [find_eq_none_iff] at hfound
    exact fun row hrow => hfound row (mem_delete.mp hrow).1
  | some row =>
    have hrow := find_eq_some_iff.mp hfound
    by_cases htest : test row = true
    · rw [Option.filter_some, htest]
      simp only [Bool.not_true, Bool.false_eq_true, if_false]
      rw [find_eq_none_iff]
      intro other hother heq
      have hsame := eq_of_key_eq (mem_delete.mp hother).1 hrow.1 (heq.trans hrow.2.symm)
      rw [hsame, mem_delete, htest] at hother
      exact Bool.noConfusion hother.2
    · rw [Option.filter_some]
      simp only [htest, Bool.not_false, if_true]
      rw [find_eq_some_iff]
      exact ⟨mem_delete.mpr ⟨hrow.1, by simpa using htest⟩, hrow.2⟩

end Table
end ProofOps.Foundation
