import Mathlib.Data.List.Pairwise
import Mathlib.Data.Nat.Basic

/-!
# Ranges over an interval

Half-open ranges that stand in an interval from left to right.  What no range contains may be
skipped.  Such ranges are disjoint, and every position that may not be skipped is in one of them.
-/

namespace ProofOps.Foundation.Ranges

inductive Covers (skip : Nat → Prop) (stop : Nat) : Nat → List (Nat × Nat) → Prop where
  | nil {start : Nat} (gap : ∀ position, start ≤ position → position < stop → skip position) :
      Covers skip stop start []
  | cons {start first last : Nat} {ranges : List (Nat × Nat)} (le : start ≤ first)
      (gap : ∀ position, start ≤ position → position < first → skip position) (lt : first < last)
      (rest : Covers skip stop last ranges) : Covers skip stop start ((first, last) :: ranges)

/-- The position is in the range. -/
def Within (position : Nat) (range : Nat × Nat) : Prop :=
  range.1 ≤ position ∧ position < range.2

def Apart (first second : Nat × Nat) : Prop :=
  first.2 ≤ second.1 ∨ second.2 ≤ first.1

/-- Being apart is symmetric. -/
theorem Apart.symm {first second : Nat × Nat} (h : Apart first second) :
    Apart second first :=
  Or.symm h

theorem Apart.not_within {first second : Nat × Nat} (h : Apart first second)
    {position : Nat} (hfirst : Within position first) : ¬Within position second := by
  obtain ⟨hlow, hhigh⟩ := hfirst
  rintro ⟨hlow', hhigh'⟩
  rcases h with h | h
  · omega
  · omega

section Covers

variable {skip : Nat → Prop} {stop start : Nat} {ranges : List (Nat × Nat)}

theorem Covers.start_le (h : Covers skip stop start ranges) :
    ∀ range ∈ ranges, start ≤ range.1 ∧ range.1 < range.2 := by
  induction h with
  | nil => exact fun _ hrange => absurd hrange List.not_mem_nil
  | @cons start first last ranges hle _ hlt _ ih =>
    intro range hrange
    rcases List.mem_cons.mp hrange with rfl | hrest
    · exact ⟨hle, hlt⟩
    · obtain ⟨hlast, hnonempty⟩ := ih range hrest
      exact ⟨by omega, hnonempty⟩

theorem Covers.pairwise_apart (h : Covers skip stop start ranges) : ranges.Pairwise Apart := by
  induction h with
  | nil => exact List.Pairwise.nil
  | @cons start first last ranges _ _ _ hrest ih =>
    refine List.pairwise_cons.mpr ⟨fun range hrange => ?_, ih⟩
    exact Or.inl (hrest.start_le range hrange).1

theorem Covers.exists_within (h : Covers skip stop start ranges) {position : Nat}
    (hstart : start ≤ position) (hstop : position < stop) (hskip : ¬skip position) :
    ∃ range ∈ ranges, Within position range := by
  induction h with
  | nil hgap => exact absurd (hgap position hstart hstop) hskip
  | @cons start first last ranges _ hgap _ _ ih =>
    rcases Nat.lt_or_ge position first with hbefore | hfirst
    · exact absurd (hgap position hstart hbefore) hskip
    · rcases Nat.lt_or_ge position last with hin | hlast
      · exact ⟨(first, last), List.mem_cons_self, hfirst, hin⟩
      · obtain ⟨range, hrange, hwithin⟩ := ih hlast
        exact ⟨range, List.mem_cons_of_mem _ hrange, hwithin⟩

theorem Covers.extend {earlier : Nat} (h : Covers skip stop start ranges) (hle : earlier ≤ start)
    (hgap : ∀ position, earlier ≤ position → position < start → skip position) :
    Covers skip stop earlier ranges := by
  have hfront : ∀ {limit : Nat}, (∀ position, start ≤ position → position < limit → skip position) →
      ∀ position, earlier ≤ position → position < limit → skip position := by
    intro limit hback position hlow hhigh
    rcases Nat.lt_or_ge position start with hlt | hge
    · exact hgap position hlow hlt
    · exact hback position hge hhigh
  cases h with
  | nil hrest => exact .nil (hfront hrest)
  | cons hfirst hrest hlt hcovers =>
    exact .cons (Nat.le_trans hle hfirst) (hfront hrest) hlt hcovers

end Covers

end ProofOps.Foundation.Ranges
