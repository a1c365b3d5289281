import ProofOps.Adapters.Aws.Usage

/-!
# What a transaction of the budget store can do

A transaction leaves the store as it is, creates a budget, reserves a new attempt
after every check, or moves one attempt on: to dispatched, released or settled.
Budgets are never changed, and an attempt never goes back.
-/

namespace ProofOps.Adapters.Aws

open Foundation Foundation.Checked

variable {rules : PriceRules} {store after : UsageStore}

def Overrun (store : UsageStore) (key : RunKey) : Prop :=
  ∃ row ∈ records store key, ∃ kind, row.overran kind = true

/-- Every check a new reservation passed. -/
structure Admitted (store : UsageStore) (candidate : Reservation) : Prop where
  free : ¬Overrun store candidate.call.runKey
  numbered : candidate.call.attempt =
    (priorAttempts (records store candidate.call.runKey) candidate.call).max?.getD 0 + 1
  budgeted : ∃ run ∈ store.runs, run.key = candidate.call.runKey ∧
    candidate.call.attempt ≤ run.limits.maxAttempts ∧
    (∃ role ∈ run.limits.roles, role.role = candidate.call.role ∧
      activeCalls (records store candidate.call.runKey) candidate.call.role < role.maxCalls) ∧
    ∀ kind, used (records store candidate.call.runKey) kind + candidate.tokens kind ≤
      run.limits.tokens kind

inductive Advance (store : UsageStore) (row : Attempt) : Attempt → Prop where
  | dispatch (hstate : row.state = .reserved) (hfree : ¬Overrun store row.call.runKey) :
      Advance store row { row with state := .dispatched }
  | release (release : Release) (hstate : row.state = .reserved) :
      Advance store row { row with state := .released, release := some release }
  | settle (ledger : Ledger) (hstate : row.state = .dispatched) (hledger : row.ledger = none) :
      Advance store row { row with state := .settled, ledger := some ledger }

/-- What a call may do to the tables. -/
inductive Step (store : UsageStore) : UsageStore → Prop where
  | stay : Step store store
  | budget {run : BudgetRun} {runs : Table BudgetRun BudgetRun.key}
      (hruns : store.runs.insert? run = some runs) : Step store { store with runs := runs }
  | reserve {candidate : Reservation} {prices : Table PricingSnapshot PricingSnapshot.snapshotId}
      {attempts : Table Attempt Attempt.key} (hadmitted : Admitted store candidate)
      (hattempts : store.attempts.insert?
        { reservation := candidate, state := .reserved, ledger := none, release := none } =
          some attempts) :
      Step store { store with prices := prices, attempts := attempts }
  | advance {row later : Attempt} (hrow : row ∈ store.attempts) (hadvance : Advance store row later) :
      Step store (writeAttempt store later)

variable {later row : Attempt}

theorem Advance.reservation (h : Advance store row later) :
    later.reservation = row.reservation := by
  cases h <;> rfl

theorem Advance.key (h : Advance store row later) :
    row.key = later.key := by
  unfold Attempt.key Attempt.call
  rw [h.reservation]

/-! ### One lemma a method -/

variable {key : RunKey}

theorem mem_records :
    row ∈ records store key ↔ row ∈ store.attempts ∧ row.call.runKey = key := by
  unfold records
  rw [List.mem_filter, decide_eq_true_eq, Table.mem_rows]

theorem getRun_ok {run : BudgetRun} (h : getRun store key = .ok run) :
    run ∈ store.runs ∧ run.key = key := by
  unfold getRun at h
  cases hfound : store.runs.find key with
  | none => simp [hfound] at h
  | some found =>
    simp only [hfound, Except.ok.injEq] at h
    exact Table.find_eq_some_iff.mp (h ▸ hfound)

theorem getAttempt_ok {call : BudgetCall} (h : getAttempt store call = .ok row) :
    row ∈ store.attempts ∧ row.call = call := by
  unfold getAttempt at h
  cases hfound : store.attempts.find call.key with
  | none => simp [hfound] at h
  | some found =>
    simp only [hfound] at h
    split_ifs at h with hcall
    cases h
    exact ⟨(Table.find_eq_some_iff.mp hfound).1, not_not.mp hcall⟩

theorem getAttempt_of_mem (h : row ∈ store.attempts) :
    getAttempt store row.call = .ok row := by
  unfold getAttempt
  have hfound : store.attempts.find row.call.key = some row := Table.find_of_mem h
  rw [hfound]
  simp

theorem checkOverrun_ok (h : checkOverrun (records store key) = .ok ()) :
    ¬Overrun store key := by
  rintro ⟨row, hrow, kind, hover⟩
  unfold checkOverrun at h
  split_ifs at h with hany
  refine hany (List.any_eq_true.mpr ⟨row, hrow, ?_⟩)
  cases kind with
  | inputTokens => simp [hover]
  | outputTokens => simp [hover]

variable {limits : BudgetLimits} {role : RoleLimit}

theorem checkRole_ok {call : BudgetCall} {inputTokens maxOutputTokens : Nat}
    (h : checkRole limits call inputTokens maxOutputTokens = .ok role) :
    role ∈ limits.roles ∧ role.role = call.role := by
  unfold checkRole at h
  cases hfound : limits.roles.find? fun role => role.role = call.role with
  | none => simp [hfound] at h
  | some found =>
    simp only [hfound] at h
    split_ifs at h
    cases h
    exact ⟨List.mem_of_find?_eq_some hfound, by simpa using List.find?_some hfound⟩

variable {rows : List Attempt}

theorem checkAttempt_ok {call : BudgetCall} (h : checkAttempt limits rows call = .ok ()) :
    call.attempt ≤ limits.maxAttempts ∧
      call.attempt = (priorAttempts rows call).max?.getD 0 + 1 := by
  unfold checkAttempt at h
  split_ifs at h with hlimit hnext
  exact ⟨not_lt.mp hlimit, not_not.mp hnext⟩

theorem checkCalls_ok {call : BudgetCall}
    (h : checkCalls role rows call = .ok ()) : activeCalls rows call.role < role.maxCalls := by
  unfold checkCalls at h
  split_ifs at h with hfull
  exact not_le.mp hfull

variable {kind : TokenKind}

theorem checkTokens_ok {requested : Nat} (h : checkTokens limits rows kind requested = .ok ()) :
    used rows kind + requested ≤ limits.tokens kind := by
  unfold checkTokens at h
  split_ifs at h with hexceeded
  rw [not_or, not_lt] at hexceeded
  exact hexceeded.2

variable {candidate : Reservation}

theorem checkReservation_ok {run : BudgetRun}
    (hrun : run ∈ store.runs ∧ run.key = candidate.call.runKey)
    (hrole : role ∈ run.limits.roles ∧ role.role = candidate.call.role)
    (h : checkReservation run role (records store candidate.call.runKey) candidate = .ok ()) :
    Admitted store candidate := by
  obtain ⟨⟨⟩, hover, h⟩ := bind_ok h
  obtain ⟨⟨⟩, hattempt, h⟩ := bind_ok h
  obtain ⟨⟨⟩, hcalls, h⟩ := bind_ok h
  replace h := rest_ok h
  obtain ⟨⟨⟩, hinput, houtput⟩ := bind_ok h
  obtain ⟨hlimit, hnext⟩ := checkAttempt_ok hattempt
  refine ⟨checkOverrun_ok hover, hnext, run, hrun.1, hrun.2, hlimit,
    ⟨role, hrole.1, hrole.2, checkCalls_ok hcalls⟩, fun kind => ?_⟩
  cases kind with
  | inputTokens => exact checkTokens_ok hinput
  | outputTokens => exact checkTokens_ok houtput

theorem insertPrice_ok {price : Option PricingSnapshot} (h : insertPrice store price = .ok after) :
    ∃ prices, after = { store with prices := prices } := by
  unfold insertPrice at h
  cases price with
  | none =>
    cases h
    exact ⟨_, rfl⟩
  | some price =>
    cases hold : store.prices.find price.snapshotId with
    | some old =>
      simp only [hold] at h
      split_ifs at h
      cases h
      exact ⟨_, rfl⟩
    | none =>
      simp only [hold] at h
      obtain ⟨prices, -, h⟩ := bind_ok h
      cases pure_ok h
      exact ⟨prices, rfl⟩

theorem insertReservation_ok (h : insertReservation store candidate = .ok after) :
    ∃ prices attempts, store.attempts.insert?
        { reservation := candidate, state := .reserved, ledger := none, release := none } =
          some attempts ∧ after = { store with prices := prices, attempts := attempts } := by
  obtain ⟨priced, hpriced, h⟩ := bind_ok h
  obtain ⟨attempts, hattempts, h⟩ := bind_ok h
  cases pure_ok h
  obtain ⟨prices, rfl⟩ := insertPrice_ok hpriced
  exact ⟨prices, attempts, Table.insertOr_ok hattempts, rfl⟩

variable {now : Int}

theorem reserveBudget_ok {call : BudgetCall} {inputTokens maxOutputTokens : Int}
    {pricing : Option PricingSnapshot} {made : Bool}
    (h : reserveBudget store call inputTokens maxOutputTokens pricing now = .ok (made, after)) :
    Step store after ∧ (made = true → ¬Overrun store call.runKey) := by
  obtain ⟨input, -, h⟩ := bind_ok h
  obtain ⟨output, -, h⟩ := bind_ok h
  obtain ⟨createdAt, -, h⟩ := bind_ok h
  split_ifs at h
  obtain ⟨run, hrun, h⟩ := bind_ok h
  split_ifs at h
  obtain ⟨role, hrole, h⟩ := bind_ok h
  obtain ⟨known, -, h⟩ := bind_ok h
  cases known with
  | true =>
    obtain ⟨rfl, rfl⟩ := h
    exact ⟨Step.stay, nofun⟩
  | false =>
    obtain ⟨⟨⟩, hchecks, h⟩ := bind_ok h
    obtain ⟨written, hwritten, h⟩ := bind_ok h
    obtain ⟨rfl, rfl⟩ := h
    have hadmitted := checkReservation_ok (getRun_ok hrun) (checkRole_ok hrole) hchecks
    obtain ⟨prices, attempts, hattempts, rfl⟩ := insertReservation_ok hwritten
    exact ⟨Step.reserve hadmitted hattempts, fun _ => hadmitted.free⟩

theorem markDispatched_ok {call : BudgetCall} {made : Bool}
    (h : markDispatched store call = .ok (made, after)) :
    (made = false ∧ after = store) ∨ (made = true ∧ ∃ row ∈ store.attempts, row.call = call ∧
      Advance store row { row with state := .dispatched } ∧
      after = writeAttempt store { row with state := .dispatched }) := by
  obtain ⟨row, hrow, h⟩ := bind_ok h
  obtain ⟨hmem, hcall⟩ := getAttempt_ok hrow
  split_ifs at h with hstate
  · cases h
    exact Or.inl ⟨rfl, rfl⟩
  · obtain ⟨⟨⟩, hover, h⟩ := bind_ok h
    obtain ⟨rfl, rfl⟩ := h
    have hfree : ¬Overrun store row.call.runKey := hcall ▸ checkOverrun_ok hover
    exact Or.inr ⟨rfl, row, hmem, hcall, Advance.dispatch (not_not.mp hstate) hfree, rfl⟩

theorem releaseBudget_ok {call : BudgetCall} {reason : String} {responseCacheHit : Bool}
    (h : releaseBudget store call reason now responseCacheHit = .ok after) :
    (∃ row ∈ store.attempts, row.call = call ∧ (row.state = .reserved ∨ row.state = .released)) ∧
      Step store after := by
  replace h := rest_ok h
  obtain ⟨releasedAt, -, h⟩ := bind_ok h
  obtain ⟨row, hrow, h⟩ := bind_ok h
  obtain ⟨hmem, hcall⟩ := getAttempt_ok hrow
  cases hstate : row.state with
  | reserved =>
    simp only [hstate] at h
    cases pure_ok h
    exact ⟨⟨row, hmem, hcall, Or.inl hstate⟩, Step.advance hmem (Advance.release _ hstate)⟩
  | dispatched | settled => simp [hstate] at h
  | released =>
    simp only [hstate] at h
    unfold repeatRelease at h
    split_ifs at h
    cases h
    exact ⟨⟨row, hmem, hcall, Or.inr hstate⟩, Step.stay⟩

theorem recordUsage_ok {call : BudgetCall} {usage : TokenUsage} {ledger : Ledger}
    (h : recordUsage rules store call usage now = .ok (ledger, after)) :
    ∃ row ∈ store.attempts, row.call = call ∧ ledger.usage = usage ∧
      ((row.ledger = some ledger ∧ after = store) ∨
        (Advance store row { row with state := .settled, ledger := some ledger } ∧
          after = writeAttempt store { row with state := .settled, ledger := some ledger })) := by
  obtain ⟨recordedAt, -, h⟩ := bind_ok h
  obtain ⟨row, hrow, h⟩ := bind_ok h
  obtain ⟨hmem, hcall⟩ := getAttempt_ok hrow
  refine ⟨row, hmem, hcall, ?_⟩
  cases hledger : row.ledger with
  | some previous =>
    simp only [hledger] at h
    split_ifs at h with hsame
    cases h
    exact ⟨not_not.mp hsame, Or.inl ⟨rfl, rfl⟩⟩
  | none =>
    simp only [hledger] at h
    split_ifs at h with hstate
    cases h
    exact ⟨rfl, Or.inr ⟨Advance.settle _ (not_not.mp hstate) hledger, rfl⟩⟩

theorem createBudget_ok {tenantId runId documentVersionId : String}
    (h : createBudget store tenantId runId documentVersionId limits = .ok after) :
    Step store after := by
  unfold createBudget at h
  cases hold : store.runs.find (tenantId, runId) with
  | some previous =>
    simp only [hold] at h
    split_ifs at h
    cases h
    exact Step.stay
  | none =>
    simp only [hold] at h
    obtain ⟨runs, hruns, h⟩ := bind_ok h
    cases pure_ok h
    exact Step.budget (Table.insertOr_ok hruns)

/-- Every call that succeeds is a step. -/
theorem perform_step {call : Call} {reply : Reply} (h : perform rules store call = .ok (reply, after)) :
    Step store after := by
  cases call with
  | createBudget tenantId runId documentVersionId limits =>
    obtain ⟨made, hmade, hsame⟩ := map_ok_iff.mp h
    cases hsame
    exact createBudget_ok hmade
  | reserve call inputTokens maxOutputTokens pricing now =>
    obtain ⟨⟨made, saved⟩, hmade, hsame⟩ := map_ok_iff.mp h
    cases hsame
    exact (reserveBudget_ok hmade).1
  | markDispatched call =>
    obtain ⟨⟨made, saved⟩, hmade, hsame⟩ := map_ok_iff.mp h
    cases hsame
    rcases markDispatched_ok hmade with ⟨-, hsaved⟩ | ⟨-, row, hrow, -, hadvance, hsaved⟩
    · exact hsaved ▸ Step.stay
    · exact hsaved ▸ Step.advance hrow hadvance
  | release call reason now responseCacheHit =>
    obtain ⟨made, hmade, hsame⟩ := map_ok_iff.mp h
    cases hsame
    exact (releaseBudget_ok hmade).2
  | record call usage now =>
    obtain ⟨⟨ledger, saved⟩, hmade, hsame⟩ := map_ok_iff.mp h
    cases hsame
    obtain ⟨row, hrow, -, -, ⟨-, hsaved⟩ | ⟨hadvance, hsaved⟩⟩ := recordUsage_ok hmade
    · exact hsaved ▸ Step.stay
    · exact hsaved ▸ Step.advance hrow hadvance

theorem next_step (rules : PriceRules) (store : UsageStore) (call : Call) :
    Step store (next rules store call) := by
  unfold next
  cases hmade : perform rules store call with
  | error error => exact Step.stay
  | ok made => exact perform_step hmade

/-! ### What stays -/

structure RowEvolves (before after : Attempt) : Prop where
  reservation : after.reservation = before.reservation
  left : before.state ≠ .reserved → after.state ≠ .reserved
  charged : before.state = .dispatched ∨ before.state = .settled →
    after.state = .dispatched ∨ after.state = .settled
  ledger : ∀ {ledger}, before.ledger = some ledger → after.ledger = some ledger

theorem RowEvolves.refl (row : Attempt) : RowEvolves row row :=
  ⟨rfl, id, id, id⟩

theorem RowEvolves.trans {first second third : Attempt} (h : RowEvolves first second)
    (h' : RowEvolves second third) : RowEvolves first third where
  reservation := h'.reservation.trans h.reservation
  left := fun hleft => h'.left (h.left hleft)
  charged := fun hcharged => h'.charged (h.charged hcharged)
  ledger := fun hledger => h'.ledger (h.ledger hledger)

variable {before : Attempt}

theorem RowEvolves.call {after : Attempt} (h : RowEvolves before after) :
    after.call = before.call := by
  unfold Attempt.call
  rw [h.reservation]

theorem RowEvolves.overran {after : Attempt} (h : RowEvolves before after)
    (hover : before.overran kind = true) : after.overran kind = true := by
  cases hledger : before.ledger with
  | none => simp [Attempt.overran, Attempt.actual, hledger] at hover
  | some ledger =>
    have hafter := h.ledger hledger
    unfold Attempt.overran Attempt.actual at hover ⊢
    rwa [hafter, h.reservation, ← hledger]

theorem Advance.evolves (h : Advance store row later) : RowEvolves row later := by
  cases h with
  | dispatch hstate hfree =>
    exact ⟨rfl, fun _ => nofun, fun _ => Or.inl rfl, id⟩
  | release release hstate =>
    exact ⟨rfl, fun _ => nofun, fun hcharged => by rcases hcharged with h | h <;> simp [hstate] at h,
      id⟩
  | settle ledger hstate hledger =>
    exact ⟨rfl, fun _ => nofun, fun _ => Or.inr rfl, fun hold => by simp [hledger] at hold⟩

/-- What a store keeps over the calls. -/
structure Evolves (before after : UsageStore) : Prop where
  runs : ∀ run ∈ before.runs, run ∈ after.runs
  attempts : ∀ row ∈ before.attempts, ∃ later ∈ after.attempts, RowEvolves row later

theorem Evolves.refl (store : UsageStore) : Evolves store store :=
  ⟨fun _ => id, fun row hrow => ⟨row, hrow, RowEvolves.refl row⟩⟩

theorem Evolves.trans {first second third : UsageStore} (h : Evolves first second)
    (h' : Evolves second third) : Evolves first third where
  runs := fun run hrun => h'.runs run (h.runs run hrun)
  attempts := by
    intro row hrow
    obtain ⟨later, hlater, hevolves⟩ := h.attempts row hrow
    obtain ⟨last, hlast, hevolves'⟩ := h'.attempts later hlater
    exact ⟨last, hlast, hevolves.trans hevolves'⟩

theorem Step.evolves (h : Step store after) : Evolves store after := by
  cases h with
  | stay => exact Evolves.refl store
  | budget hruns =>
    exact ⟨fun run hrun => (Table.mem_insert? hruns).mpr (Or.inl hrun), (Evolves.refl store).attempts⟩
  | reserve hadmitted hattempts =>
    refine ⟨fun _ => id, fun row hrow => ⟨row, ?_, RowEvolves.refl row⟩⟩
    exact (Table.mem_insert? hattempts).mpr (Or.inl hrow)
  | @advance row later hrow hadvance =>
    refine ⟨fun _ => id, fun other hother => ?_⟩
    by_cases hkey : other.key = later.key
    · have hsame := Table.eq_of_key_eq hother hrow (hkey.trans hadvance.key.symm)
      exact ⟨later, Table.mem_put.mpr (Or.inl rfl), hsame ▸ hadvance.evolves⟩
    · exact ⟨other, Table.mem_put.mpr (Or.inr ⟨hother, hkey⟩), RowEvolves.refl other⟩

theorem after_evolves (rules : PriceRules) (store : UsageStore) (calls : List Call) :
    Evolves store (Machine.after (next rules) store calls) :=
  @Machine.after_related _ _ _ (fun _ => True) Evolves (fun _ _ _ => trivial) Evolves.refl
    Evolves.trans (fun store call _ => (next_step rules store call).evolves) store trivial calls

theorem Evolves.overrun (h : Evolves store after) (hover : Overrun store key) :
    Overrun after key := by
  obtain ⟨row, hrow, kind, hrowOver⟩ := hover
  obtain ⟨hmem, hkey⟩ := mem_records.mp hrow
  obtain ⟨later, hlater, hevolves⟩ := h.attempts row hmem
  exact ⟨later, mem_records.mpr ⟨hlater, hevolves.call ▸ hkey⟩, kind, hevolves.overran hrowOver⟩

end ProofOps.Adapters.Aws
