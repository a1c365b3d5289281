import ProofOps.Foundation.Table

/-!
# Consecutive revisions

Rows keyed by a record and a number are the revisions of that record.  They are
consecutive when their numbers fill an interval; inserting the number after the last
one keeps them so, and so does every insertion for another record.
-/

namespace ProofOps.Foundation.Revisions

universe u v

variable {α : Type u} {κ : Type v} [DecidableEq κ] {key : α → κ × Nat}

def Spans (table : Table α key) (record : κ) (first last : Nat) : Prop :=
  ∀ number, (∃ row ∈ table, key row = (record, number)) ↔ first ≤ number ∧ number ≤ last

variable {table : Table α key} {record : κ} {first last : Nat}

theorem spans_none (h : last < first)
    (hnone : ∀ row ∈ table, (key row).1 ≠ record) : Spans table record first last := by
  intro number
  constructor
  · rintro ⟨row, hrow, hkey⟩
    exact absurd (congrArg Prod.fst hkey) (hnone row hrow)
  · rintro ⟨hfirst, hlast⟩
    omega

variable {other : Table α key} {row : α}

theorem spans_insert_first
    (hnone : ∀ row ∈ table, (key row).1 ≠ record) (h : table.insert? row = some other)
    (hkey : key row = (record, first)) : Spans other record first first := by
  intro number
  constructor
  · rintro ⟨candidate, hcandidate, hnumber⟩
    rcases (Table.mem_insert? h).mp hcandidate with hold | rfl
    · exact absurd (congrArg Prod.fst hnumber) (hnone candidate hold)
    · have hsame := congrArg Prod.snd (hkey.symm.trans hnumber)
      omega
  · rintro ⟨hlower, hupper⟩
    refine ⟨row, (Table.mem_insert? h).mpr (Or.inr rfl), ?_⟩
    rw [hkey, Nat.le_antisymm hlower hupper]

/-- The next revision follows the last. -/
theorem Spans.insert_next (hspans : Spans table record first last) (hfirst : first ≤ last + 1)
    (h : table.insert? row = some other) (hkey : key row = (record, last + 1)) :
    Spans other record first (last + 1) := by
  intro number
  constructor
  · rintro ⟨candidate, hcandidate, hnumber⟩
    rcases (Table.mem_insert? h).mp hcandidate with hold | rfl
    · have := (hspans number).mp ⟨candidate, hold, hnumber⟩
      omega
    · have hsame : last + 1 = number := congrArg Prod.snd (hkey.symm.trans hnumber)
      omega
  · rintro ⟨hlower, hupper⟩
    rcases Nat.lt_or_ge last number with hnew | hold
    · have hsame : number = last + 1 := by omega
      exact ⟨row, (Table.mem_insert? h).mpr (Or.inr rfl), hsame ▸ hkey⟩
    · obtain ⟨candidate, hcandidate, hnumber⟩ := (hspans number).mpr ⟨hlower, hold⟩
      exact ⟨candidate, (Table.mem_insert? h).mpr (Or.inl hcandidate), hnumber⟩

theorem Spans.insert_other
    (hspans : Spans table record first last) (h : table.insert? row = some other)
    (hkey : (key row).1 ≠ record) : Spans other record first last := by
  intro number
  rw [← hspans number]
  constructor
  · rintro ⟨candidate, hcandidate, hnumber⟩
    rcases (Table.mem_insert? h).mp hcandidate with hold | rfl
    · exact ⟨candidate, hold, hnumber⟩
    · exact absurd (congrArg Prod.fst hnumber) hkey
  · rintro ⟨candidate, hcandidate, hnumber⟩
    exact ⟨candidate, (Table.mem_insert? h).mpr (Or.inl hcandidate), hnumber⟩

end ProofOps.Foundation.Revisions
