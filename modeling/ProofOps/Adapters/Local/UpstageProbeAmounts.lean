import Mathlib.Algebra.BigOperators.Ring.Finset
import ProofOps.Adapters.Local.UpstageProbe
import ProofOps.Foundation.Totals

/-!
# The amounts of the probe

Costs have at most ten decimal places and stay below the reservation, so a sum of calls within
the ceiling is added without rounding.  Extensions can have any number of digits; the limit is
rounded with each of them, and never decreases.
-/

namespace ProofOps.Adapters.Local.UpstageProbe

open Foundation Foundation.PyJson
open SpendGuard (Numeral)

/-! ### Costs -/

theorem value_reservationUsd : reservationUsd.value = 1 := by
  norm_num [reservationUsd, Decimal.value, zpow_neg]

theorem value_generalCeilingUsd : generalCeilingUsd.value = 30 := by
  norm_num [generalCeilingUsd, Decimal.value, zpow_neg]

theorem value_limitUsd : limitUsd.value = 10 := by
  norm_num [limitUsd, Decimal.value, zpow_neg]

theorem exponent_le_times (ctx : Decimal.Context) (a b : Decimal) :
    a.exponent + b.exponent ≤ (Decimal.times ctx a b).exponent :=
  @Decimal.exponent_le_round ctx ⟨a.coefficient * b.coefficient, a.exponent + b.exponent⟩

theorem exponent_le_add (ctx : Decimal.Context) (a b : Decimal) :
    min a.exponent b.exponent ≤ (Decimal.add ctx a b).exponent :=
  @Decimal.exponent_le_round ctx (Decimal.plus a b)

theorem exponent_le_rateCost (tokens : Nat) (rate : Decimal) :
    rate.exponent - 6 ≤ (Application.Budget.rateCost tokens rate).exponent := by
  have hcharged := exponent_le_times Decimal.wide ⟨tokens, 0⟩ rate
  have hdivided := Decimal.exponent_le_divTen 6 (Decimal.times Decimal.wide ⟨tokens, 0⟩ rate)
  unfold Application.Budget.rateCost
  dsimp only at hcharged hdivided ⊢
  omega

theorem exponent_le_addBucket {amount rate : Decimal} (hamount : -8 ≤ amount.exponent)
    (hrate : rate.exponent = -2) (tokens : Nat) :
    -8 ≤ (addBucket amount tokens rate).exponent := by
  unfold addBucket
  split_ifs
  · exact hamount
  · have hbucket := exponent_le_rateCost tokens rate
    have hadd := exponent_le_add Decimal.wide amount (Application.Budget.rateCost tokens rate)
    omega

theorem exponent_costOf (model : Model) (inputTokens outputTokens : Nat) :
    -10 ≤ (costOf model inputTokens outputTokens).exponent := by
  have hrates : model.price.inputPerMillion.exponent = -2 ∧
      model.price.outputPerMillion.exponent = -2 := by
    cases model <;> exact ⟨rfl, rfl⟩
  have hinput : -8 ≤ (addBucket Decimal.zero inputTokens model.price.inputPerMillion).exponent :=
    exponent_le_addBucket (by decide) hrates.1 inputTokens
  have houtput : -8 ≤ (addBucket (addBucket Decimal.zero inputTokens model.price.inputPerMillion)
      outputTokens model.price.outputPerMillion).exponent :=
    exponent_le_addBucket hinput hrates.2 outputTokens
  have husage : -8 ≤ (usageCost model.price inputTokens outputTokens).exponent := by
    unfold usageCost Decimal.fixed
    split_ifs
    · show (-8 : Int) ≤ 0
      omega
    · exact houtput
  have htimes := exponent_le_times Decimal.standard (usageCost model.price inputTokens outputTokens)
    ⟨110, -2⟩
  unfold costOf
  dsimp only at htimes
  omega

theorem receiptOf_cost {rules : Rules} {request : Request} {data : Json} {receipt : Receipt}
    {value : String} (h : receiptOf rules request data = some (receipt, value)) :
    ∃ cost, receipt.costWithVatReserveUsd = .finite false cost ∧ -10 ≤ cost.exponent ∧
      cost.value ≤ 1 := by
  unfold receiptOf at h
  simp only [Option.bind_eq_bind, Option.bind_eq_some_iff, Option.guard_eq_some', Option.pure_def,
    Option.some.injEq, Prod.mk.injEq] at h
  obtain ⟨_, -, inputTokens, -, outputTokens, -, _, -, _, -, _, -, _, -, -, -, -, -, -, hcost,
    rfl, -⟩ := h
  refine ⟨_, rfl, exponent_costOf request.model inputTokens outputTokens, ?_⟩
  have hone : (⟨100, -2⟩ : Decimal).value = 1 := value_reservationUsd
  rw [← hone]
  rw [← not_lt, ← Decimal.lt_iff, Bool.not_eq_true]
  exact hcost

def Grants.Valid (grants : Grants) : Prop :=
  Decimal.Representable Decimal.standard grants.general.value ∧ grants.general.value ≤ 30

theorem valid_start : Grants.Valid ⟨limitUsd, 0⟩ := by
  refine ⟨⟨1000, -2, by decide, by decide, rfl⟩, ?_⟩
  rw [value_limitUsd]
  norm_num

variable {extension : Extension}

theorem grantNext_valid {grants after : Grants} (h : grants.Valid)
    (hgrant : grantNext grants extension = some after) :
    after.Valid ∧ grants.general.value ≤ after.general.value := by
  unfold grantNext at hgrant
  split at hgrant
  · cases hgrant
  · rename_i amount _
    split_ifs at hgrant with hchecks hscoped
    · unfold grantScoped at hgrant
      split_ifs at hgrant
      cases hgrant
      exact ⟨h, le_refl _⟩
    · unfold grantGeneral at hgrant
      dsimp only at hgrant
      split_ifs at hgrant with hkind hceiling
      cases hgrant
      refine ⟨⟨Decimal.representable_round Decimal.standard_precision _, ?_⟩,
        Decimal.le_add Decimal.standard_precision h.1 amount⟩
      rw [← value_generalCeilingUsd, ← not_lt, ← Decimal.lt_iff]
      exact hceiling

/-- So does a list of extensions. -/
theorem foldlM_valid {grants after : Grants} {extensions : List Extension} (h : grants.Valid)
    (hfold : extensions.foldlM grantNext grants = some after) :
    after.Valid ∧ grants.general.value ≤ after.general.value := by
  induction extensions generalizing grants with
  | nil =>
    cases hfold
    exact ⟨h, le_refl _⟩
  | cons extension extensions ih =>
    obtain ⟨middle, hgrant, hrest⟩ := Option.bind_eq_some_iff.mp hfold
    have hstep := grantNext_valid h hgrant
    have hlast := ih hstep.1 hrest
    exact ⟨hlast.1, hstep.2.trans hlast.2⟩

variable {ledger : Ledger} {limit : Decimal}

theorem authorizedLimit_eq_some_iff :
    authorizedLimit ledger = some limit ↔ ledger.policy = some policyText ∧
      ∃ grants, ledger.extensions.foldlM grantNext ⟨limitUsd, 0⟩ = some grants ∧
        grants.general = limit := by
  unfold authorizedLimit
  split_ifs with hpolicy
  · rw [Option.map_eq_some_iff]
    exact ⟨fun h => ⟨hpolicy, h⟩, And.right⟩
  · exact ⟨fun h => (by cases h), fun h => absurd h.1 hpolicy⟩

theorem authorizedLimit_le (h : authorizedLimit ledger = some limit) : limit.value ≤ 30 := by
  obtain ⟨-, grants, hfold, rfl⟩ := authorizedLimit_eq_some_iff.mp h
  exact (foldlM_valid valid_start hfold).1.2

theorem authorizedLimit_extended {limit' : Decimal} {sequence : Nat}
    (h : authorizedLimit ledger = some limit)
    (h' : authorizedLimit { ledger with
      extensions := ledger.extensions ++ [extension], sequence := sequence } = some limit') :
    limit.value ≤ limit'.value := by
  obtain ⟨-, grants, hfold, rfl⟩ := authorizedLimit_eq_some_iff.mp h
  obtain ⟨-, after, hafter, rfl⟩ := authorizedLimit_eq_some_iff.mp h'
  rw [List.foldlM_append] at hafter
  obtain ⟨middle, hmiddle, hlast⟩ := Option.bind_eq_some_iff.mp hafter
  rw [hfold, Option.some.injEq] at hmiddle
  subst hmiddle
  obtain ⟨last, hgrant, hnil⟩ := Option.bind_eq_some_iff.mp hlast
  cases hnil
  exact (grantNext_valid (foldlM_valid valid_start hfold).1 hgrant).2

/-- The number that a row commits. -/
def CallRow.number (row : CallRow) : Decimal :=
  match row.committed with
  | .finite _ number => number
  | .special | .malformed => Decimal.zero

inductive CallRow.Valid (row : CallRow) : Prop where
  | reserved (hreceipt : row.receipt = none) (hcommitted : row.committed = .finite false reservationUsd)
  | settled (receipt : Receipt) (cost : Decimal) (hreceipt : row.receipt = some receipt)
      (hcommitted : row.committed = .finite false cost)
      (hcost : receipt.costWithVatReserveUsd = .finite false cost)
      (hplaces : -10 ≤ cost.exponent) (hbound : cost.value ≤ 1)

theorem sameNumeral_self {number : Decimal} :
    sameNumeral (.finite false number) (.finite false number) = true := by
  have hirrefl : Decimal.lt number number = false := by
    rw [← Bool.not_eq_true, Decimal.lt_iff]
    exact lt_irrefl _
  simp [sameNumeral, Decimal.same, hirrefl]

theorem CallRow.Valid.amount {row : CallRow} (h : row.Valid) :
    row.amount = some row.number ∧ -10 ≤ row.number.exponent ∧ row.number.value ≤ 1 := by
  cases h with
  | reserved hreceipt hcommitted =>
    have hnumber : row.number = reservationUsd := by
      unfold CallRow.number
      rw [hcommitted]
    refine ⟨?_, ?_, ?_⟩
    · unfold CallRow.amount
      rw [hnumber, hcommitted, hreceipt]
      decide
    · rw [hnumber]
      decide
    · rw [hnumber, value_reservationUsd]
  | settled receipt cost hreceipt hcommitted hcost hplaces hbound =>
    have hnumber : row.number = cost := by
      unfold CallRow.number
      rw [hcommitted]
    have hwithin : Decimal.lt reservationUsd cost = false := by
      rw [← Bool.not_eq_true, Decimal.lt_iff, value_reservationUsd]
      exact not_lt.mpr hbound
    refine ⟨?_, ?_, ?_⟩
    · unfold CallRow.amount
      rw [hnumber, hcommitted, hreceipt]
      simp only [Bool.false_and, Bool.false_or, hwithin, hcost, sameNumeral_self]
      rfl
    · rwa [hnumber]
    · rwa [hnumber]

def spent (calls : Table CallRow CallRow.requestId) : ℚ :=
  calls.sumOf fun row => row.number.value

theorem sumsExactly {calls : Table CallRow CallRow.requestId}
    (hrows : ∀ row ∈ calls, row.Valid) (hspent : spent calls ≤ 31) :
    Decimal.SumsExactly Decimal.standard (calls.rows.map CallRow.number) := by
  refine @Decimal.sumsExactly_of_lt Decimal.standard _ (-10) (by decide) ?_ ?_
  · intro number hnumber
    obtain ⟨row, hrow, rfl⟩ := List.mem_map.mp hnumber
    exact (hrows row hrow).amount.2.1
  · have hvalue : ((calls.rows.map CallRow.number).map fun number =>
        (number.rescaled (-10) : ℚ) * (10 : ℚ) ^ (-10 : Int)).sum = spent calls := by
      rw [List.map_map]
      refine congrArg List.sum (List.map_congr_left fun row hrow => ?_)
      exact Decimal.value_rescaled row.number (hrows row hrow).amount.2.1
    rw [List.sum_map_mul_right] at hvalue
    have hcast : ((((calls.rows.map CallRow.number).map fun number =>
        number.rescaled (-10)).sum : ℕ) : ℚ) =
        ((calls.rows.map CallRow.number).map fun number =>
          (number.rescaled (-10) : ℚ)).sum := by
      rw [Nat.cast_list_sum, List.map_map]
      rfl
    have hbound : ((((calls.rows.map CallRow.number).map fun number =>
        number.rescaled (-10)).sum : ℕ) : ℚ) ≤ ((31 * 10 ^ 10 : ℕ) : ℚ) := by
      rw [hcast]
      norm_num [zpow_neg] at hvalue ⊢
      linarith
    exact lt_of_le_of_lt (Nat.cast_le.mp hbound) (by decide)

theorem mapM_amount {rows : List CallRow} (h : ∀ row ∈ rows, row.Valid) :
    rows.mapM CallRow.amount = some (rows.map CallRow.number) := by
  induction rows with
  | nil => rfl
  | cons row rows ih =>
    rw [List.forall_mem_cons] at h
    rw [List.mapM_cons, h.1.amount.1, ih h.2]
    rfl

theorem callTotal_eq (hrows : ∀ row ∈ ledger.calls, row.Valid) (hspent : spent ledger.calls ≤ 31) :
    ∃ total, callTotal ledger = some total ∧ total.value = spent ledger.calls ∧
      total = Decimal.sum Decimal.standard (ledger.calls.rows.map CallRow.number) := by
  refine ⟨_, ?_, ?_, rfl⟩
  · unfold callTotal
    rw [mapM_amount hrows]
    rfl
  · rw [Decimal.sum_value (sumsExactly hrows hspent), List.map_map]
    rfl

end ProofOps.Adapters.Local.UpstageProbe
