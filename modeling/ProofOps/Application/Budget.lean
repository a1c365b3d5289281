import ProofOps.Domain.Numeric.Digits
import ProofOps.Foundation.DecimalExact

/-!
# Usage costs

`usage_cost` of `proofops.application.budget`: the tokens of four buckets at the rates of a pricing
snapshot, added up in a context of one hundred digits.  Each bucket is exact; a sum is exact as long
as it has no more digits (`usage_cost_exact`).
-/

namespace ProofOps.Application.Budget

open Foundation Domain

def signedText (number : Int) : List Char :=
  (if number < 0 then '-' else '+') :: (toString number.natAbs).toList

/-- `str(value)`. -/
def decimalText (negative : Bool) (number : Decimal) : List Char :=
  let digits := (toString number.coefficient).toList
  let leading : Int := number.exponent + digits.length
  let place : Int := if number.exponent ≤ 0 ∧ -6 < leading then leading else 1
  let body :=
    if place ≤ 0 then '0' :: '.' :: (List.replicate (-place).toNat '0' ++ digits)
    else if digits.length ≤ place then digits ++ List.replicate (place - digits.length).toNat '0'
    else digits.take place.toNat ++ '.' :: digits.drop place.toNat
  let power := if leading = place then [] else 'E' :: signedText (leading - place)
  (if negative then ['-'] else []) ++ (body ++ power)

structure Price where
  negative : Bool
  number : Decimal
  nonneg : negative = true → number.coefficient = 0
  text_le : (decimalText negative number).length ≤ 64
  exponent_le : number.exponent.natAbs ≤ 30

/-- `PricingSnapshot`. -/
structure PricingSnapshot where
  (inputPerMillion outputPerMillion : Price)
  (cacheReadPerMillion cacheWritePerMillion : Option Price)

def maxCount : Nat := 2 ^ 63 - 1

/-- `TokenUsage`. -/
structure TokenUsage where
  (inputTokens outputTokens cacheReadTokens cacheWriteTokens : Option Nat)
  counts : ∀ known ∈ [inputTokens, outputTokens, cacheReadTokens, cacheWriteTokens],
    known.getD 0 ≤ maxCount
  cached : ∀ input ∈ inputTokens, cacheReadTokens.getD 0 + cacheWriteTokens.getD 0 ≤ input

abbrev Bucket := Nat × Option Price

def buckets (usage : TokenUsage) (pricing : PricingSnapshot) : Option (List Bucket) := do
  let input ← usage.inputTokens
  let output ← usage.outputTokens
  let read ← usage.cacheReadTokens
  let write ← usage.cacheWriteTokens
  some
    [(input - read - write, some pricing.inputPerMillion),
      (output, some pricing.outputPerMillion),
      (read, pricing.cacheReadPerMillion),
      (write, pricing.cacheWritePerMillion)]

def rateCost (tokens : Nat) (rate : Decimal) : Decimal :=
  Decimal.divTen 6 (Decimal.times Decimal.wide ⟨tokens, 0⟩ rate)

def bucketCost (tokens : Nat) (rate : Price) : Decimal :=
  rateCost tokens rate.number

def chargedCosts : List Bucket → Option (List Decimal)
  | [] => some []
  | (tokens, rate) :: rest =>
    if tokens = 0 then chargedCosts rest
    else do
      let price ← rate
      let later ← chargedCosts rest
      some (bucketCost tokens price :: later)

/-- `format(amount, "f")`. -/
def costText (amount : Decimal) : String :=
  Numeric.fixedPoint false amount.coefficient amount.exponent

/-- `usage_cost`. -/
def usageCost (usage : TokenUsage) (pricing : Option PricingSnapshot) : Option String := do
  let pricing ← pricing
  let charged ← buckets usage pricing
  let costs ← chargedCosts charged
  some (costText (Decimal.sum Decimal.wide costs))

def exactCosts : List Bucket → Option (List ℚ)
  | [] => some []
  | (tokens, rate) :: rest =>
    if tokens = 0 then exactCosts rest
    else do
      let price ← rate
      let later ← exactCosts rest
      some (tokens * price.number.value / 10 ^ 6 :: later)

def exactCost (usage : TokenUsage) (pricing : PricingSnapshot) : Option ℚ := do
  let charged ← buckets usage pricing
  let costs ← exactCosts charged
  some costs.sum

def SumsFit (usage : TokenUsage) (pricing : PricingSnapshot) : Prop :=
  ∀ charged ∈ buckets usage pricing, ∀ costs ∈ exactCosts charged, ∀ front back,
    costs = front ++ back → Decimal.Representable Decimal.wide front.sum

/-! ### Each bucket is exact -/

theorem digits_le_decimalText (negative : Bool) (number : Decimal) :
    (toString number.coefficient).toList.length ≤ (decimalText negative number).length := by
  unfold decimalText
  dsimp only
  split_ifs
  all_goals
    simp only [List.length_cons, List.length_append, List.length_replicate, List.length_take,
      List.length_drop, List.length_nil]
    omega

theorem Price.coefficient_lt (price : Price) : price.number.coefficient < 10 ^ 64 := by
  have hdigits := (digits_le_decimalText price.negative price.number).trans price.text_le
  exact (Nat.length_repr_le_iff (by decide)).mp hdigits

theorem Price.exponent_ge (price : Price) : -30 ≤ price.number.exponent := by
  have h := price.exponent_le
  omega

section Buckets

variable {tokens : Nat} {rate : Price}

theorem times_bucket (h : tokens ≤ maxCount) :
    Decimal.times Decimal.wide ⟨tokens, 0⟩ rate.number =
      ⟨tokens * rate.number.coefficient, 0 + rate.number.exponent⟩ := by
  apply Decimal.times_of_lt Decimal.wide_precision
  · calc tokens * rate.number.coefficient
        ≤ maxCount * 10 ^ 64 := Nat.mul_le_mul h rate.coefficient_lt.le
      _ < 10 ^ 100 := by decide +kernel
  · have hexponent := rate.exponent_ge
    show (-1000098 : Int) ≤ 0 + rate.number.exponent
    omega

theorem bucketCost_value (h : tokens ≤ maxCount) :
    (bucketCost tokens rate).value = tokens * rate.number.value / 10 ^ 6 := by
  unfold bucketCost rateCost
  rw [Decimal.value_divTen, times_bucket h, Decimal.value_product ⟨tokens, 0⟩ rate.number]
  simp [Decimal.value]

theorem exponent_le_bucketCost (h : tokens ≤ maxCount) : -36 ≤ (bucketCost tokens rate).exponent := by
  have hdivided := Decimal.exponent_le_divTen 6 (Decimal.times Decimal.wide ⟨tokens, 0⟩ rate.number)
  have hrate := rate.exponent_ge
  unfold bucketCost rateCost
  rw [times_bucket h] at hdivided ⊢
  dsimp only at hdivided
  omega

theorem Price.value_lt (price : Price) : price.number.value < 10 ^ 94 := by
  have hcoefficient : (price.number.coefficient : ℚ) < 10 ^ 64 := by
    exact_mod_cast price.coefficient_lt
  have hexponent : (10 : ℚ) ^ price.number.exponent ≤ 10 ^ (30 : Int) := by
    apply zpow_le_zpow_right₀ (by norm_num)
    have h := price.exponent_le
    omega
  calc price.number.value
      ≤ price.number.coefficient * 10 ^ (30 : Int) :=
        mul_le_mul_of_nonneg_left hexponent (by positivity)
    _ < 10 ^ 64 * 10 ^ (30 : Int) := mul_lt_mul_of_pos_right hcoefficient (by positivity)
    _ = 10 ^ 94 := by norm_num

end Buckets

variable {charged : List Bucket}

theorem chargedCosts_exact (h : ∀ bucket ∈ charged, bucket.1 ≤ maxCount) :
    (chargedCosts charged).map (fun costs => costs.map Decimal.value) = exactCosts charged ∧
      ∀ costs ∈ chargedCosts charged, ∀ cost ∈ costs, -36 ≤ cost.exponent := by
  induction charged with
  | nil =>
    refine ⟨rfl, ?_⟩
    rintro costs ⟨⟩ cost hcost
    exact absurd hcost List.not_mem_nil
  | cons bucket rest ih =>
    obtain ⟨tokens, rate⟩ := bucket
    rw [List.forall_mem_cons] at h
    obtain ⟨hvalues, hexponents⟩ := ih h.2
    unfold chargedCosts exactCosts
    split_ifs with hzero
    · exact ⟨hvalues, hexponents⟩
    · cases rate with
      | none =>
        refine ⟨rfl, ?_⟩
        rintro costs ⟨⟩
      | some price =>
        cases hlater : chargedCosts rest with
        | none =>
          rw [hlater] at hvalues
          rw [← hvalues]
          refine ⟨rfl, ?_⟩
          rintro costs ⟨⟩
        | some later =>
          rw [hlater] at hvalues hexponents
          rw [← hvalues]
          constructor
          · show some ((bucketCost tokens price :: later).map Decimal.value) = some _
            rw [List.map_cons, bucketCost_value h.1]
          · rintro costs ⟨⟩ cost hcost
            rcases List.mem_cons.mp hcost with rfl | hcost
            · exact exponent_le_bucketCost h.1
            · exact hexponents later rfl cost hcost

theorem exactCosts_bound (h : ∀ bucket ∈ charged, bucket.1 ≤ maxCount) {costs : List ℚ}
    (hcosts : costs ∈ exactCosts charged) :
    0 ≤ costs.sum ∧ costs.sum ≤ charged.length * 10 ^ 120 := by
  induction charged generalizing costs with
  | nil =>
    cases hcosts
    simp
  | cons bucket rest ih =>
    obtain ⟨tokens, rate⟩ := bucket
    rw [List.forall_mem_cons] at h
    unfold exactCosts at hcosts
    rw [List.length_cons]
    push_cast
    split_ifs at hcosts with hzero
    · obtain ⟨hnonneg, hle⟩ := ih h.2 hcosts
      exact ⟨hnonneg, by linarith⟩
    · cases rate with
      | none => cases hcosts
      | some price =>
        obtain ⟨_, ⟨⟩, hcosts⟩ := Option.bind_eq_some_iff.mp hcosts
        obtain ⟨later, hlater, hcosts⟩ := Option.bind_eq_some_iff.mp hcosts
        cases hcosts
        obtain ⟨hnonneg, hle⟩ := ih h.2 hlater
        have htokens : (tokens : ℚ) ≤ 10 ^ 19 := by
          have hmax : tokens ≤ 10 ^ 19 := h.1.trans (by decide +kernel)
          exact_mod_cast hmax
        have hprice := price.value_lt
        have hvalue := price.number.value_nonneg
        have hproduct : (tokens : ℚ) * price.number.value ≤ 10 ^ 19 * 10 ^ 94 :=
          mul_le_mul htokens hprice.le hvalue (by positivity)
        rw [List.sum_cons]
        constructor
        · positivity
        · linarith

theorem signedValue_false (coefficient : Nat) (exponent : Int) :
    Numeric.signedValue false coefficient exponent = (⟨coefficient, exponent⟩ : Decimal).value :=
  if_neg Bool.false_ne_true

theorem adjusted_le {coefficient : Nat} {exponent limit : Int} (hlimit : exponent ≤ limit)
    (hvalue : (⟨coefficient, exponent⟩ : Decimal).value < 10 ^ limit) :
    Numeric.adjusted coefficient exponent ≤ limit := by
  unfold Numeric.adjusted
  split_ifs with hzero
  · exact hlimit
  · have hten : (10 : ℚ) ≠ 0 := by norm_num
    have hpower : (10 : ℚ) ^ limit = 10 ^ (limit - exponent).toNat * 10 ^ exponent := by
      rw [← zpow_natCast, ← zpow_add₀ hten]
      congr 1
      omega
    rw [hpower] at hvalue
    have hcoefficient := lt_of_mul_lt_mul_right hvalue (by positivity)
    have hdigits : coefficient < 10 ^ (limit - exponent).toNat := by exact_mod_cast hcoefficient
    have hpos : 0 < (limit - exponent).toNat := by
      rw [Nat.pos_iff_ne_zero]
      intro hnone
      rw [hnone, Nat.pow_zero] at hdigits
      omega
    have hlength := (Nat.length_repr_le_iff hpos).mpr hdigits
    show exponent + (coefficient.repr.length : Int) - 1 ≤ limit
    omega

theorem decimal_costText (amount : Decimal) :
    ∃ fixed : Decimal, fixed.value = amount.value ∧ fixed.exponent = min amount.exponent 0 ∧
      Numeric.decimal (some (costText amount)) =
        if Numeric.Exact fixed.coefficient fixed.exponent then some amount.value else none := by
  unfold costText
  rcases Int.le_total amount.exponent 0 with hle | hge
  · refine ⟨amount, rfl, (min_eq_left hle).symm, ?_⟩
    have hplaces : amount.exponent = -((-amount.exponent).toNat : Int) := by omega
    rw [hplaces, Numeric.decimal_fixedPoint_eq, signedValue_false, ← hplaces]
  · have hzeros : amount.exponent = (amount.exponent.toNat : Int) := by omega
    have hvalue : (⟨amount.coefficient * 10 ^ amount.exponent.toNat, 0⟩ : Decimal).value =
        amount.value := by
      unfold Decimal.value
      rw [zpow_zero, mul_one]
      nth_rewrite 2 [hzeros]
      push_cast
      rfl
    refine ⟨⟨amount.coefficient * 10 ^ amount.exponent.toNat, 0⟩, hvalue,
      (min_eq_right hge).symm, ?_⟩
    rw [hzeros, Numeric.decimal_fixedPoint_zeros, signedValue_false, ← hzeros, hvalue]

theorem decimal_costText_some {amount : Decimal} {number : ℚ}
    (h : Numeric.decimal (some (costText amount)) = some number) : number = amount.value := by
  obtain ⟨fixed, -, -, hread⟩ := decimal_costText amount
  rw [hread] at h
  split_ifs at h
  exact (Option.some.inj h).symm

theorem decimal_costText_eq {amount : Decimal} (hplaces : -36 ≤ amount.exponent)
    (hvalue : amount.value < 10 ^ (200 : Int)) :
    Numeric.decimal (some (costText amount)) = some amount.value := by
  obtain ⟨fixed, hfixed, hexponent, hread⟩ := decimal_costText amount
  rw [hread, if_pos]
  rw [← hfixed] at hvalue
  constructor
  · unfold Numeric.decimalEtiny
    omega
  · refine (adjusted_le (by omega) hvalue).trans ?_
    decide

section Sums

variable {usage : TokenUsage} {pricing : PricingSnapshot} {charged : List Bucket}

theorem buckets_le (h : charged ∈ buckets usage pricing) :
    charged.length = 4 ∧ ∀ bucket ∈ charged, bucket.1 ≤ maxCount := by
  obtain ⟨input, hinput, h⟩ := Option.bind_eq_some_iff.mp h
  obtain ⟨output, houtput, h⟩ := Option.bind_eq_some_iff.mp h
  obtain ⟨read, hread, h⟩ := Option.bind_eq_some_iff.mp h
  obtain ⟨write, hwrite, h⟩ := Option.bind_eq_some_iff.mp h
  cases h
  have hcounts := usage.counts
  simp only [List.forall_mem_cons, hinput, houtput, hread, hwrite, Option.getD_some] at hcounts
  obtain ⟨hin, hout, hr, hw, -⟩ := hcounts
  refine ⟨rfl, ?_⟩
  simp only [List.forall_mem_cons]
  refine ⟨?_, hout, hr, hw, fun _ h => absurd h List.not_mem_nil⟩
  exact (Nat.sub_le _ _).trans ((Nat.sub_le _ _).trans hin)

theorem usageCost_known (pricing : PricingSnapshot) (usage : TokenUsage) :
    (usageCost usage (some pricing) = none ∧ exactCost usage pricing = none) ∨
      ∃ charged costs, buckets usage pricing = some charged ∧ chargedCosts charged = some costs ∧
        usageCost usage (some pricing) = some (costText (Decimal.sum Decimal.wide costs)) ∧
        exactCosts charged = some (costs.map Decimal.value) ∧
        exactCost usage pricing = some (costs.map Decimal.value).sum ∧
        (∀ cost ∈ costs, -36 ≤ cost.exponent) ∧ (costs.map Decimal.value).sum < 10 ^ (200 : Int) := by
  unfold usageCost exactCost
  rw [Option.bind_eq_bind, Option.bind_some]
  cases hbuckets : buckets usage pricing with
  | none => exact Or.inl ⟨rfl, rfl⟩
  | some charged =>
    obtain ⟨hlength, hcounts⟩ := buckets_le hbuckets
    obtain ⟨hvalues, hexponents⟩ := chargedCosts_exact hcounts
    cases hcosts : chargedCosts charged with
    | none =>
      rw [hcosts] at hvalues
      left
      constructor
      · simp [hcosts]
      · simp [← hvalues]
    | some costs =>
      rw [hcosts] at hvalues hexponents
      have hexact : exactCosts charged = some (costs.map Decimal.value) := hvalues.symm
      obtain ⟨-, hbound⟩ := exactCosts_bound hcounts hexact
      right
      refine ⟨charged, costs, rfl, hcosts, by simp [hcosts], hexact, by simp [hexact],
        hexponents costs rfl, ?_⟩
      rw [hlength] at hbound
      refine hbound.trans_lt ?_
      norm_num

theorem usageCost_exact_of_fits (h : SumsFit usage pricing) :
    Numeric.decimal (usageCost usage (some pricing)) = exactCost usage pricing := by
  rcases usageCost_known pricing usage with ⟨hnone, hexact⟩ |
    ⟨charged, costs, hbuckets, -, hcost, hexact, htotal, hexponents, hbound⟩
  · rw [hnone, hexact]
    rfl
  · have hsums : Decimal.SumsExactly Decimal.wide costs := by
      intro front back hsplit
      refine h charged hbuckets _ hexact (front.map Decimal.value) (back.map Decimal.value) ?_
      rw [hsplit, List.map_append]
    have hvalue := Decimal.sum_value hsums
    rw [hcost, htotal, decimal_costText_eq]
    · rw [hvalue]
    · exact Decimal.exponent_le_sum (by decide) hexponents
    · rw [hvalue]
      exact hbound

theorem representable_usageCost {number : ℚ}
    (h : Numeric.decimal (usageCost usage (some pricing)) = some number) :
    Decimal.Representable Decimal.wide number := by
  rcases usageCost_known pricing usage with ⟨hnone, -⟩ | ⟨charged, costs, -, -, hcost, -⟩
  · rw [hnone] at h
    cases h
  · rw [hcost] at h
    rw [decimal_costText_some h]
    exact Decimal.representable_sum Decimal.wide_precision (by decide) costs

/-! ### Fewer tokens -/

def keptTokens (kept place tokens : Nat) : Nat :=
  if place < kept then tokens else 0

theorem keptTokens_le (kept place tokens : Nat) : keptTokens kept place tokens ≤ tokens := by
  unfold keptTokens
  split_ifs
  · exact le_refl _
  · exact Nat.zero_le _

theorem take_empty (kept : Nat) (first second third fourth : Bucket) :
    [first, second, third, fourth].take kept ++
        ([first, second, third, fourth].drop kept).map (fun bucket => (0, bucket.2)) =
      [(keptTokens kept 0 first.1, first.2), (keptTokens kept 1 second.1, second.2),
        (keptTokens kept 2 third.1, third.2), (keptTokens kept 3 fourth.1, fourth.2)] := by
  match kept with
  | 0 => rfl
  | 1 => rfl
  | 2 => rfl
  | 3 => rfl
  | kept + 4 => simp [keptTokens]

theorem exists_front (hbuckets : buckets usage pricing = some charged) (kept : Nat) :
    ∃ fewer : TokenUsage, buckets fewer pricing =
      some ((charged.take kept) ++ (charged.drop kept).map fun bucket => (0, bucket.2)) := by
  obtain ⟨hlength, hcounts⟩ := buckets_le hbuckets
  obtain ⟨input, hinput, h⟩ := Option.bind_eq_some_iff.mp hbuckets
  obtain ⟨output, houtput, h⟩ := Option.bind_eq_some_iff.mp h
  obtain ⟨read, hread, h⟩ := Option.bind_eq_some_iff.mp h
  obtain ⟨write, hwrite, h⟩ := Option.bind_eq_some_iff.mp h
  have hcached := usage.cached input hinput
  have hin := usage.counts usage.inputTokens List.mem_cons_self
  rw [hread, hwrite, Option.getD_some, Option.getD_some] at hcached
  rw [hinput, Option.getD_some] at hin
  cases h
  simp only [List.forall_mem_cons] at hcounts
  obtain ⟨-, hout, hr, hw, -⟩ := hcounts
  have hincoming := keptTokens_le kept 0 (input - read - write)
  have hreads := keptTokens_le kept 2 read
  have hwrites := keptTokens_le kept 3 write
  rw [take_empty]
  -- The cache buckets stay subsets of the input.
  refine ⟨⟨some (keptTokens kept 0 (input - read - write) + keptTokens kept 2 read +
      keptTokens kept 3 write), some (keptTokens kept 1 output), some (keptTokens kept 2 read),
      some (keptTokens kept 3 write), ?_, ?_⟩, ?_⟩
  · simp only [List.forall_mem_cons, Option.getD_some]
    refine ⟨by omega, (keptTokens_le kept 1 output).trans hout, hreads.trans hr, hwrites.trans hw,
      fun _ h => absurd h List.not_mem_nil⟩
  · rintro total ⟨⟩
    simp only [Option.getD_some]
    omega
  · have hfirst : keptTokens kept 0 (input - read - write) + keptTokens kept 2 read +
        keptTokens kept 3 write - keptTokens kept 2 read - keptTokens kept 3 write =
        keptTokens kept 0 (input - read - write) := by omega
    show some [(_, _), (_, _), (_, _), (_, _)] = _
    rw [hfirst]

/-- Unused buckets cost nothing. -/
theorem exactCosts_append_empty (front back : List Bucket) (hback : ∀ bucket ∈ back, bucket.1 = 0) :
    exactCosts (front ++ back) = exactCosts front := by
  induction front with
  | nil =>
    induction back with
    | nil => rfl
    | cons bucket back ih =>
      obtain ⟨tokens, rate⟩ := bucket
      rw [List.forall_mem_cons] at hback
      obtain ⟨rfl, hrest⟩ := hback
      exact ih hrest
  | cons bucket front ih =>
    rw [List.cons_append]
    unfold exactCosts
    rw [ih]

theorem exactCosts_front {costs front back : List ℚ} (h : exactCosts charged = some costs)
    (hsplit : costs = front ++ back) : ∃ kept, exactCosts (charged.take kept) = some front := by
  induction charged generalizing costs front with
  | nil =>
    cases h
    obtain ⟨rfl, -⟩ := List.append_eq_nil_iff.mp hsplit.symm
    exact ⟨0, rfl⟩
  | cons bucket rest ih =>
    cases front with
    | nil => exact ⟨0, rfl⟩
    | cons first front =>
      unfold exactCosts at h
      split_ifs at h with hzero
      · obtain ⟨kept, hkept⟩ := ih h hsplit
        refine ⟨kept + 1, ?_⟩
        rw [List.take_succ_cons]
        unfold exactCosts
        rw [if_pos hzero]
        exact hkept
      · obtain ⟨price, hprice, h⟩ := Option.bind_eq_some_iff.mp h
        obtain ⟨later, hlater, h⟩ := Option.bind_eq_some_iff.mp h
        cases h
        obtain ⟨hfirst, hrest⟩ := List.cons_eq_cons.mp hsplit
        obtain ⟨kept, hkept⟩ := ih hlater hrest
        refine ⟨kept + 1, ?_⟩
        rw [List.take_succ_cons]
        unfold exactCosts
        rw [if_neg hzero, hprice, hkept, ← hfirst]
        rfl

theorem sumsFit_of_all (h : ∀ usage, ∀ cost ∈ exactCost usage pricing,
    Decimal.Representable Decimal.wide cost) (usage : TokenUsage) : SumsFit usage pricing := by
  intro charged hcharged costs hcosts front back hsplit
  obtain ⟨kept, hkept⟩ := exactCosts_front hcosts hsplit
  obtain ⟨fewer, hfewer⟩ := exists_front hcharged kept
  apply h fewer
  unfold exactCost
  rw [hfewer, Option.bind_eq_bind, Option.bind_some, exactCosts_append_empty, hkept]
  · rfl
  · intro bucket hbucket
    obtain ⟨other, -, rfl⟩ := List.mem_map.mp hbucket
    rfl

/-- The cost of a usage whose sums fit one hundred digits is the exact one; the costs under a
pricing are all exact just when they all fit. -/
theorem usage_cost_exact (pricing : PricingSnapshot) :
    (∀ usage, SumsFit usage pricing →
      Numeric.decimal (usageCost usage (some pricing)) = exactCost usage pricing) ∧
      ((∀ usage, Numeric.decimal (usageCost usage (some pricing)) = exactCost usage pricing) ↔
        ∀ usage, ∀ cost ∈ exactCost usage pricing, Decimal.Representable Decimal.wide cost) := by
  refine ⟨fun usage h => usageCost_exact_of_fits h, ?_⟩
  constructor
  · intro h usage cost hcost
    apply @representable_usageCost usage pricing
    rw [h usage]
    exact hcost
  · exact fun h usage => usageCost_exact_of_fits (sumsFit_of_all h usage)

end Sums

namespace Sample

theorem large_text : (decimalText false ⟨10 ^ 44 + 1, 30⟩).length ≤ 64 := by
  decide +kernel

theorem small_text : (decimalText false ⟨1, -30⟩).length ≤ 64 := by
  decide +kernel

theorem large_exponent : (30 : Int).natAbs ≤ 30 := by
  decide

theorem small_exponent : (-30 : Int).natAbs ≤ 30 := by
  decide

def large : Price where
  negative := false
  number := ⟨10 ^ 44 + 1, 30⟩
  nonneg := Bool.noConfusion
  text_le := large_text
  exponent_le := large_exponent

/-- `Decimal("1E-30")`. -/
def small : Price where
  negative := false
  number := ⟨1, -30⟩
  nonneg := Bool.noConfusion
  text_le := small_text
  exponent_le := small_exponent

def pricing : PricingSnapshot where
  inputPerMillion := large
  outputPerMillion := small
  cacheReadPerMillion := none
  cacheWritePerMillion := none

theorem counts_le : ∀ known ∈ [some 1, some 1, some 0, some 0], known.getD 0 ≤ maxCount := by
  decide +kernel

theorem cached_le : ∀ input ∈ some 1, (some 0).getD 0 + (some 0).getD 0 ≤ input := by
  rintro input ⟨⟩
  exact Nat.zero_le 1

def usage : TokenUsage where
  inputTokens := some 1
  outputTokens := some 1
  cacheReadTokens := some 0
  cacheWriteTokens := some 0
  counts := counts_le
  cached := cached_le

end Sample

theorem usageCost_rounds : ¬∀ (pricing : PricingSnapshot) (usage : TokenUsage),
    Numeric.decimal (usageCost usage (some pricing)) = exactCost usage pricing := by
  intro h
  have hsame := h Sample.pricing Sample.usage
  have htext : usageCost Sample.usage (some Sample.pricing) =
      some (costText ⟨(10 ^ 44 + 1) * 10 ^ 55, -31⟩) := by
    rfl
  have hexact : exactCost Sample.usage Sample.pricing =
      some ((1 : ℕ) * Sample.large.number.value / 10 ^ 6 +
        ((1 : ℕ) * Sample.small.number.value / 10 ^ 6 + 0)) := rfl
  rw [htext, hexact] at hsame
  have hvalue := decimal_costText_some hsame
  norm_num [Decimal.value, Sample.large, Sample.small] at hvalue

end ProofOps.Application.Budget
