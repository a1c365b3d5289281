import Mathlib.Data.List.Basic
import Mathlib.Data.List.Count
import Mathlib.Data.List.Induction

/-!
# Sliding windows

A bound on how many of the earlier entries of a list are close to an entry, itself included, is a
bound on every window whose entries are close to each other (`countP_window_le`).
-/

namespace ProofOps.Foundation.SlidingWindow

universe u

variable {α : Type u} {close : α → α → Bool} {limit : Nat}

def Bounded (close : α → α → Bool) (limit : Nat) (entries : List α) : Prop :=
  ∀ front last back, entries = front ++ last :: back →
    (front ++ [last]).countP (close last) ≤ limit

/-- No entries are bounded. -/
theorem bounded_nil : Bounded close limit [] := by
  intro front last back h
  exact absurd h.symm (List.append_ne_nil_of_right_ne_nil front (List.cons_ne_nil last back))

variable {entries : List α} {last : α}

theorem Bounded.front
    (h : Bounded close limit (entries ++ [last])) : Bounded close limit entries := by
  rintro front entry back rfl
  apply h front entry (back ++ [last])
  rw [List.append_assoc, List.cons_append]

theorem split_concat {front back : List α} {entry : α}
    (h : entries ++ [last] = front ++ entry :: back) :
    (front = entries ∧ entry = last ∧ back = []) ∨
      ∃ rest, back = rest ++ [last] ∧ entries = front ++ entry :: rest := by
  rcases List.eq_nil_or_concat back with rfl | ⟨rest, other, rfl⟩
  · obtain ⟨hfront, hlast⟩ := List.append_inj' h rfl
    exact Or.inl ⟨hfront.symm, (List.singleton_inj.mp hlast).symm, rfl⟩
  · rw [List.concat_eq_append, ← List.cons_append, ← List.append_assoc] at h
    obtain ⟨hfront, hlast⟩ := List.append_inj' h rfl
    cases hlast
    exact Or.inr ⟨rest, List.concat_eq_append, hfront⟩

theorem Bounded.concat (h : Bounded close limit entries)
    (hlast : (entries ++ [last]).countP (close last) ≤ limit) :
    Bounded close limit (entries ++ [last]) := by
  intro front entry back hsplit
  rcases split_concat hsplit with ⟨rfl, rfl, rfl⟩ | ⟨rest, -, hentries⟩
  · exact hlast
  · exact h front entry rest hentries

theorem countP_window_le (h : Bounded close limit entries) {inWindow : α → Bool}
    (hclose : ∀ last earlier, inWindow last = true → inWindow earlier = true →
      close last earlier = true) :
    entries.countP inWindow ≤ limit := by
  induction entries using List.reverseRecOn with
  | nil => exact Nat.zero_le limit
  | append_singleton entries last ih =>
    cases hlast : inWindow last with
    | true =>
      calc (entries ++ [last]).countP inWindow
          ≤ (entries ++ [last]).countP (close last) := by
            apply List.countP_mono_left
            intro earlier _ hearlier
            exact hclose last earlier hlast hearlier
        _ ≤ limit := h entries last [] rfl
    | false =>
      rw [List.countP_append, List.countP_singleton, hlast]
      exact ih h.front

end ProofOps.Foundation.SlidingWindow
