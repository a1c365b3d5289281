import Mathlib.Data.List.Lex
import Mathlib.Tactic.IntervalCases

/-!
# Numbers of a fixed width

A natural number written with leading zeros.  Numbers that fit the width are ordered as their
texts are (`padded_lt`).
-/

namespace ProofOps.Foundation.FixedWidth

def padded (width n : Nat) : List Char :=
  (Nat.toDigits 10 n).leftpad width '0'

/-- The last digits of a number. -/
def lastDigits : Nat → Nat → List Char
  | 0, _ => []
  | width + 1, n => lastDigits width (n / 10) ++ [(n % 10).digitChar]

theorem length_lastDigits (width n : Nat) : (lastDigits width n).length = width := by
  induction width generalizing n with
  | zero => rfl
  | succ width ih => simp [lastDigits, ih]

/-- The digits of zero. -/
theorem lastDigits_zero (width : Nat) : lastDigits width 0 = List.replicate width '0' := by
  induction width with
  | zero => rfl
  | succ width ih =>
    rw [lastDigits, Nat.zero_div, ih, List.replicate_succ']
    rfl

variable {width n : Nat}

theorem padded_eq_lastDigits (hwidth : 0 < width) (h : n < 10 ^ width) :
    padded width n = lastDigits width n := by
  induction width generalizing n with
  | zero => exact absurd hwidth (Nat.lt_irrefl 0)
  | succ width ih =>
    unfold padded
    rw [Nat.toDigits_eq_if (by decide), lastDigits]
    split_ifs with hsmall
    · rw [Nat.div_eq_of_lt hsmall, Nat.mod_eq_of_lt hsmall, lastDigits_zero, List.leftpad]
      simp
    · have hshort : n / 10 < 10 ^ width := by
        rw [Nat.div_lt_iff_lt_mul (by decide), ← Nat.pow_succ]
        exact h
      have hpositive : 0 < width := by
        cases width with
        | zero =>
          omega
        | succ width => exact Nat.succ_pos width
      rw [← ih hpositive hshort, padded]
      simp [List.leftpad]

theorem append_lt_append {first second rest rest' : List Char}
    (hlength : first.length = second.length) (h : first < second) :
    first ++ rest < second ++ rest' := by
  induction first generalizing second with
  | nil =>
    cases second with
    | nil => exact absurd h (List.not_lt_nil [])
    | cons c second => cases hlength
  | cons c first ih =>
    cases second with
    | nil => cases hlength
    | cons d second =>
      rw [List.cons_append, List.cons_append, List.cons_lt_cons_iff]
      rcases List.cons_lt_cons_iff.mp h with hfirst | ⟨hsame, hrest⟩
      · exact Or.inl hfirst
      · exact Or.inr ⟨hsame, ih (Nat.succ.inj hlength) hrest⟩

theorem digitChar_lt {m : Nat} (h : m < n) (hn : n < 10) : m.digitChar < n.digitChar := by
  interval_cases n <;> interval_cases m <;> decide

theorem lastDigits_lt {m : Nat} (h : m < n) (hn : n < 10 ^ width) :
    lastDigits width m < lastDigits width n := by
  induction width generalizing m n with
  | zero =>
    omega
  | succ width ih =>
    have hshort : n / 10 < 10 ^ width := by
      rw [Nat.div_lt_iff_lt_mul (by decide), ← Nat.pow_succ]
      exact hn
    rw [lastDigits, lastDigits]
    rcases Nat.lt_or_ge (m / 10) (n / 10) with hlead | hlead
    · exact append_lt_append (by rw [length_lastDigits, length_lastDigits]) (ih hlead hshort)
    · have hsame : m / 10 = n / 10 := by omega
      rw [hsame]
      apply List.append_left_lt
      rw [List.cons_lt_cons_iff]
      exact Or.inl (digitChar_lt (by omega) (by omega))

theorem padded_lt {m : Nat} (h : m < n) (hn : n < 10 ^ width) :
    padded width m < padded width n := by
  have hwidth : 0 < width := by
    cases width with
    | zero =>
      omega
    | succ width => exact Nat.succ_pos width
  rw [padded_eq_lastDigits hwidth (h.trans hn), padded_eq_lastDigits hwidth hn]
  exact lastDigits_lt h hn

theorem length_padded (hwidth : 0 < width) (h : n < 10 ^ width) :
    (padded width n).length = width := by
  rw [padded_eq_lastDigits hwidth h, length_lastDigits]

end ProofOps.Foundation.FixedWidth
