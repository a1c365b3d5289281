import Mathlib.Data.List.Count

/-!
# Bounded overtaking

Waiting customers carry the number of their arrival and an age, which grows each time that another
one is served.  Where a customer is served out of turn only while the first of the line is younger
than a bound, nobody is overtaken more often than the bound.
-/

namespace ProofOps.Foundation.Overtaking

universe u

variable {α : Type u} {arrival age : α → Nat} {bound : Nat} {waiting later : List α}
  {served : List Nat}

/-- How many of the served arrived after a number. -/
def overtakers (served : List Nat) (number : Nat) : Nat :=
  served.countP fun other => decide (number < other)

theorem overtakers_concat (served : List Nat) (number other : Nat) :
    overtakers (served ++ [other]) number =
      overtakers served number + if number < other then 1 else 0 := by
  unfold overtakers
  rw [List.countP_append, List.countP_singleton]
  simp only [decide_eq_true_eq]

theorem overtakers_eq_zero {number : Nat} (h : ∀ other ∈ served, other ≤ number) :
    overtakers served number = 0 := by
  unfold overtakers
  rw [List.countP_eq_zero]
  intro other hother
  rw [decide_eq_true_eq]
  exact Nat.not_lt.mpr (h other hother)

structure Fair (arrival age : α → Nat) (bound : Nat) (waiting : List α) (served : List Nat) :
    Prop where
  ages : ∀ first ∈ waiting, ∀ second ∈ waiting, arrival first ≤ arrival second →
    age second ≤ age first
  covered : ∀ customer ∈ waiting, overtakers served (arrival customer) ≤ age customer
  bounded : ∀ customer ∈ waiting, overtakers served (arrival customer) ≤ bound

theorem Fair.nil (arrival age : α → Nat) (bound : Nat) (served : List Nat) :
    Fair arrival age bound [] served := by
  constructor
  · exact fun _ h => absurd h List.not_mem_nil
  · exact fun _ h => absurd h List.not_mem_nil
  · exact fun _ h => absurd h List.not_mem_nil

/-- Customers that leave do not harm the others. -/
theorem Fair.leave (h : Fair arrival age bound waiting served) (hsub : ∀ customer ∈ later,
    customer ∈ waiting) : Fair arrival age bound later served := by
  constructor
  · intro first hfirst second hsecond
    exact h.ages first (hsub first hfirst) second (hsub second hsecond)
  · exact fun customer hcustomer => h.covered customer (hsub customer hcustomer)
  · exact fun customer hcustomer => h.bounded customer (hsub customer hcustomer)

theorem Fair.arrive (h : Fair arrival age bound waiting served) {last : α}
    (hage : age last = 0) (hserved : ∀ other ∈ served, other ≤ arrival last)
    (hwaiting : ∀ customer ∈ waiting, arrival customer < arrival last)
    (hlater : ∀ customer ∈ later, customer ∈ waiting ∨ customer = last) :
    Fair arrival age bound later served := by
  have hzero := overtakers_eq_zero hserved
  constructor
  · intro first hfirst second hsecond hle
    rcases hlater second hsecond with hold | rfl
    · rcases hlater first hfirst with hearlier | rfl
      · exact h.ages first hearlier second hold hle
      · exact absurd (hwaiting second hold) (Nat.not_lt.mpr hle)
    · rw [hage]
      exact Nat.zero_le _
  · intro customer hcustomer
    rcases hlater customer hcustomer with hold | rfl
    · exact h.covered customer hold
    · rw [hzero]
      exact Nat.zero_le _
  · intro customer hcustomer
    rcases hlater customer hcustomer with hold | rfl
    · exact h.bounded customer hold
    · rw [hzero]
      exact Nat.zero_le _

theorem Fair.serve (h : Fair arrival age bound waiting served) {first chosen : α}
    (hfirst : first ∈ waiting) (hfront : ∀ customer ∈ waiting, arrival first ≤ arrival customer)
    (hturn : arrival chosen = arrival first ∨ age first < bound)
    (hlater : ∀ customer ∈ later, ∃ before ∈ waiting,
      arrival customer = arrival before ∧ age customer = age before + 1) :
    Fair arrival age bound later (served ++ [arrival chosen]) := by
  constructor
  · intro customer hcustomer other hother hle
    obtain ⟨before, hbefore, harrival, hage⟩ := hlater customer hcustomer
    obtain ⟨before', hbefore', harrival', hage'⟩ := hlater other hother
    rw [harrival, harrival'] at hle
    have hages := h.ages before hbefore before' hbefore' hle
    omega
  · intro customer hcustomer
    obtain ⟨before, hbefore, harrival, hage⟩ := hlater customer hcustomer
    have hcovered := h.covered before hbefore
    rw [overtakers_concat, harrival, hage]
    split_ifs
    · omega
    · omega
  · intro customer hcustomer
    obtain ⟨before, hbefore, harrival, hage⟩ := hlater customer hcustomer
    have hbounded := h.bounded before hbefore
    rw [overtakers_concat, harrival]
    split_ifs with hover
    · -- The chosen one is not the first, who is as old as anybody.
      have hfar := hfront before hbefore
      have hcovered := h.covered before hbefore
      have hages := h.ages first hfirst before hbefore hfar
      rcases hturn with hturn | hturn
      · omega
      · omega
    · omega

end ProofOps.Foundation.Overtaking
