import ProofOps.Adapters.Aws.UsageSteps

/-!
# Budgets are respected

The sums a reservation adds up are totals of the attempts table, so each step
changes them by the share of one row: a reservation adds at most what the budget
has left, a release gives its row up, and a settled row counts for at most what it
had reserved unless the provider overran it.  After an overrun nothing is reserved
or dispatched any more.
-/

namespace ProofOps.Adapters.Aws

open Foundation Foundation.Checked

variable {rules : PriceRules} {store after : UsageStore}

def counts (key : RunKey) (row : Attempt) : Bool :=
  row.active && decide (row.call.runKey = key)

def countsFor (key : RunKey) (role : String) (row : Attempt) : Bool :=
  decide (row.call.role = role) && counts key row

variable {key : RunKey}

theorem counts_congr {row later : Attempt} (hcall : later.call = row.call)
    (hactive : later.active = row.active) : counts key later = counts key row := by
  unfold counts
  rw [hcall, hactive]

theorem used_records (store : UsageStore) (key : RunKey) (kind : TokenKind) :
    used (records store key) kind = store.attempts.total (counts key) (Attempt.charge kind) := by
  rw [Table.total_eq_sum_filter]
  unfold used records
  rw [List.filter_filter]
  rfl

theorem activeCalls_records (store : UsageStore) (key : RunKey) (role : String) :
    activeCalls (records store key) role = store.attempts.count (countsFor key role) := by
  rw [Table.count_eq_length]
  unfold activeCalls records
  rw [List.filter_filter, List.filter_filter]
  simp only [Bool.and_assoc]
  rfl

def Numbered (store : UsageStore) : Prop :=
  ∀ row ∈ store.attempts, 1 ≤ row.call.attempt ∧ ∀ number, 1 ≤ number → number ≤ row.call.attempt →
    ∃ earlier ∈ store.attempts, earlier.call.runKey = row.call.runKey ∧
      earlier.call.requestId = row.call.requestId ∧ earlier.call.attempt = number

structure Respected (store : UsageStore) (run : BudgetRun) : Prop where
  attempts : ∀ row ∈ records store run.key, row.call.attempt ≤ run.limits.maxAttempts
  calls : ∀ role ∈ run.limits.roles, activeCalls (records store run.key) role.role ≤ role.maxCalls
  tokens : ∀ kind, (∃ row ∈ records store run.key, row.overran kind = true) ∨
    used (records store run.key) kind ≤ run.limits.tokens kind

/-- What holds of every reachable store. -/
structure Sound (store : UsageStore) : Prop where
  budgeted : ∀ row ∈ store.attempts, ∃ run ∈ store.runs, run.key = row.call.runKey
  numbered : Numbered store
  respected : ∀ run ∈ store.runs, Respected store run

theorem Sound.initial : Sound UsageStore.initial where
  budgeted := fun _ hrow => absurd hrow Table.not_mem_empty
  numbered := fun _ hrow => absurd hrow Table.not_mem_empty
  respected := fun _ hrun => absurd hrun Table.not_mem_empty

theorem Evolves.overran (h : Evolves store after) {kind : TokenKind}
    (hover : ∃ row ∈ records store key, row.overran kind = true) :
    ∃ row ∈ records after key, row.overran kind = true := by
  obtain ⟨row, hrow, hrowOver⟩ := hover
  obtain ⟨hmem, hkey⟩ := mem_records.mp hrow
  obtain ⟨later, hlater, hevolves⟩ := h.attempts row hmem
  exact ⟨later, mem_records.mpr ⟨hlater, hevolves.call ▸ hkey⟩, hevolves.overran hrowOver⟩

variable {run : BudgetRun}

theorem respected_of_no_attempts
    (hnone : ∀ row ∈ store.attempts, row.call.runKey ≠ run.key) : Respected store run := by
  have hrecords : records store run.key = [] := by
    rw [List.eq_nil_iff_forall_not_mem]
    intro row hrow
    obtain ⟨hmem, hkey⟩ := mem_records.mp hrow
    exact hnone row hmem hkey
  constructor
  · intro row hrow
    simp [hrecords] at hrow
  · intro role _
    rw [hrecords]
    exact Nat.zero_le _
  · intro kind
    rw [hrecords]
    exact Or.inr (Nat.zero_le _)

/-- A new run has no attempts. -/
theorem Sound.budget (h : Sound store) {runs : Table BudgetRun BudgetRun.key}
    (hruns : store.runs.insert? run = some runs) : Sound { store with runs := runs } where
  budgeted := by
    intro row hrow
    obtain ⟨found, hfound, hkey⟩ := h.budgeted row hrow
    exact ⟨found, (Table.mem_insert? hruns).mpr (Or.inl hfound), hkey⟩
  numbered := h.numbered
  respected := by
    intro other hother
    rcases (Table.mem_insert? hruns).mp hother with hold | rfl
    · exact ⟨(h.respected other hold).attempts, (h.respected other hold).calls,
        (h.respected other hold).tokens⟩
    · -- Every attempt belongs to an older budget, and the key of this one was free.
      refine respected_of_no_attempts fun row hrow hkey => ?_
      obtain ⟨found, hfound, hfoundKey⟩ := h.budgeted row hrow
      exact Table.find_eq_none_iff.mp (Table.find_of_insert? hruns) found hfound
        (hfoundKey.trans hkey)

theorem max?_getD_mem {numbers : List Nat} (h : 0 < numbers.max?.getD 0) :
    numbers.max?.getD 0 ∈ numbers := by
  cases hmax : numbers.max? with
  | none => simp [hmax] at h
  | some largest => exact List.max?_mem hmax

section Reserve

variable {candidate : Reservation} {prices : Table PricingSnapshot PricingSnapshot.snapshotId}
  {attempts : Table Attempt Attempt.key}

def Reservation.row (candidate : Reservation) : Attempt where
  reservation := candidate
  state := .reserved
  ledger := none
  release := none

theorem Admitted.numbered_row (h : Admitted store candidate) (hsound : Sound store)
    (hattempts : store.attempts.insert? candidate.row = some attempts) :
    Numbered { store with prices := prices, attempts := attempts } := by
  have hold : ∀ row ∈ store.attempts, row ∈ attempts :=
    fun row hrow => (Table.mem_insert? hattempts).mpr (Or.inl hrow)
  intro row hrow
  rcases (Table.mem_insert? hattempts).mp hrow with hrow | rfl
  · obtain ⟨hpos, hearlier⟩ := hsound.numbered row hrow
    refine ⟨hpos, fun number hnumber hle => ?_⟩
    obtain ⟨earlier, hmem, hsame⟩ := hearlier number hnumber hle
    exact ⟨earlier, hold earlier hmem, hsame⟩
  · have hnext := h.numbered
    refine ⟨by show 1 ≤ candidate.call.attempt; omega, fun number hnumber hle => ?_⟩
    change number ≤ candidate.call.attempt at hle
    by_cases hlast : number = candidate.call.attempt
    · exact ⟨candidate.row, hrow, rfl, rfl, hlast.symm⟩
    · -- The numbers below are those of the last prior attempt.
      have hmax := @max?_getD_mem (priorAttempts (records store candidate.call.runKey) candidate.call)
        (by omega)
      unfold priorAttempts at hmax
      obtain ⟨prior, hprior, hattempt⟩ := List.mem_map.mp hmax
      rw [List.mem_filter, mem_records, decide_eq_true_eq] at hprior
      obtain ⟨⟨hmem, hkey⟩, hrequest⟩ := hprior
      obtain ⟨earlier, hearlier, hrun, hsame, hnum⟩ := (hsound.numbered prior hmem).2 number hnumber
        (by rw [hattempt]; unfold priorAttempts at hnext; omega)
      exact ⟨earlier, hold earlier hearlier, hrun.trans hkey, hsame.trans hrequest, hnum⟩

theorem Admitted.respected_row (h : Admitted store candidate) (hsound : Sound store)
    (hattempts : store.attempts.insert? candidate.row = some attempts) (hrun : run ∈ store.runs) :
    Respected { store with prices := prices, attempts := attempts } run := by
  have hrespected := hsound.respected run hrun
  obtain ⟨own, hown, hownKey, hlimit, ⟨role, hrole, hroleName, hroom⟩, hleft⟩ := h.budgeted
  -- The budget of the new row's run is the one its checks read.
  have hsame : run.key = candidate.call.runKey → run = own :=
    fun hkey => Table.eq_of_key_eq hrun hown (hkey.trans hownKey.symm)
  constructor
  · intro row hrow
    obtain ⟨hmem, hkey⟩ := mem_records.mp hrow
    rcases (Table.mem_insert? hattempts).mp hmem with hold | rfl
    · exact hrespected.attempts row (mem_records.mpr ⟨hold, hkey⟩)
    · rw [hsame hkey.symm]
      exact hlimit
  · intro other hother
    have hcount := hrespected.calls other hother
    rw [activeCalls_records] at hcount ⊢
    refine (Table.total_insert? hattempts).le.trans ?_
    unfold Table.share
    split_ifs with hcounts
    · simp only [countsFor, counts, Bool.and_eq_true, decide_eq_true_eq] at hcounts
      obtain ⟨hname, -, hkey⟩ := hcounts
      change candidate.call.role = other.role at hname
      change candidate.call.runKey = run.key at hkey
      have hrunOwn := hsame hkey.symm
      subst hrunOwn
      have hotherRole : other = role :=
        List.inj_on_of_nodup_map run.limits.distinct hother hrole (hname.symm.trans hroleName.symm)
      rw [activeCalls_records, hkey, hname, hotherRole] at hroom
      rw [hotherRole]
      exact hroom
    · exact hcount
  · intro kind
    rcases hrespected.tokens kind with hover | hwithin
    · refine Or.inl ?_
      obtain ⟨row, hrow, hrowOver⟩ := hover
      obtain ⟨hmem, hkey⟩ := mem_records.mp hrow
      exact ⟨row, mem_records.mpr ⟨(Table.mem_insert? hattempts).mpr (Or.inl hmem), hkey⟩, hrowOver⟩
    · refine Or.inr ?_
      rw [used_records] at hwithin ⊢
      refine (Table.total_insert? hattempts).le.trans ?_
      unfold Table.share
      split_ifs with hcounts
      · simp only [counts, Bool.and_eq_true, decide_eq_true_eq] at hcounts
        have hkey : candidate.call.runKey = run.key := hcounts.2
        have hrunOwn := hsame hkey.symm
        subst hrunOwn
        have hfits := hleft kind
        rw [used_records, hkey] at hfits
        exact hfits
      · exact hwithin

/-- A reservation keeps the store sound. -/
theorem Sound.reserve (h : Sound store) (hadmitted : Admitted store candidate)
    (hattempts : store.attempts.insert? candidate.row = some attempts) :
    Sound { store with prices := prices, attempts := attempts } where
  budgeted := by
    intro row hrow
    rcases (Table.mem_insert? hattempts).mp hrow with hold | rfl
    · exact h.budgeted row hold
    · obtain ⟨run, hrun, hkey, -⟩ := hadmitted.budgeted
      exact ⟨run, hrun, hkey⟩
  numbered := hadmitted.numbered_row h hattempts
  respected := fun _ hrun => hadmitted.respected_row h hattempts hrun

end Reserve

section Advance

variable {row later : Attempt}

theorem Advance.call (h : Advance store row later) : later.call = row.call :=
  h.evolves.call

theorem Advance.share_calls (h : Advance store row later) (key : RunKey) (role : String) :
    Table.share (countsFor key role) (fun _ => 1) later ≤
      Table.share (countsFor key role) (fun _ => 1) row := by
  have hcall := h.call
  have hactive : later.active = true → row.active = true := by
    cases h with
    | dispatch hstate _ | release _ hstate | settle _ hstate _ => simp [Attempt.active, hstate]
  unfold Table.share
  split_ifs with hlater hrow
  · exact le_rfl
  · simp only [countsFor, counts, Bool.and_eq_true, decide_eq_true_eq, hcall] at hlater hrow
    exact absurd ⟨hlater.1, hactive hlater.2.1, hlater.2.2⟩ hrow
  · exact Nat.zero_le _
  · exact le_rfl

theorem Advance.share_tokens (h : Advance store row later) (key : RunKey) (kind : TokenKind)
    (hover : later.overran kind = false) :
    Table.share (counts key) (Attempt.charge kind) later ≤
      Table.share (counts key) (Attempt.charge kind) row := by
  cases h with
  | dispatch hstate hfree =>
    have hcounts : counts key { row with state := .dispatched } = counts key row :=
      counts_congr rfl (by simp [Attempt.active, hstate])
    unfold Table.share
    rw [hcounts]
    exact le_rfl
  | release release hstate => exact Nat.zero_le _
  | settle ledger hstate hledger =>
    have hcounts : counts key { row with state := .settled, ledger := some ledger } =
        counts key row := counts_congr rfl (by simp [Attempt.active, hstate])
    have hreserved : row.charge kind = row.reservation.tokens kind := by
      simp [Attempt.charge, Attempt.actual, hledger]
    have hcharge : Attempt.charge kind { row with state := .settled, ledger := some ledger } ≤
        row.charge kind := by
      rw [hreserved]
      unfold Attempt.overran Attempt.charge Attempt.actual at *
      dsimp only [Option.bind_some] at hover ⊢
      cases hactual : ledger.usage.tokens kind with
      | none => exact le_rfl
      | some actual =>
        rw [hactual] at hover
        simpa using hover
    unfold Table.share
    rw [hcounts]
    split_ifs
    · exact hcharge
    · exact le_rfl

theorem Sound.advance (h : Sound store) (hrow : row ∈ store.attempts)
    (hadvance : Advance store row later) : Sound (writeAttempt store later) := by
  have hevolves : Evolves store (writeAttempt store later) :=
    (Step.advance hrow hadvance).evolves
  -- Every row has the call of an old one.
  have hold : ∀ row' ∈ (writeAttempt store later).attempts, ∃ old ∈ store.attempts,
      row'.call = old.call := by
    intro row' hrow'
    rcases Table.mem_put.mp hrow' with rfl | ⟨hmem, -⟩
    · exact ⟨row, hrow, hadvance.call⟩
    · exact ⟨row', hmem, rfl⟩
  refine ⟨fun row' hrow' => ?_, fun row' hrow' => ?_, fun run hrun => ⟨fun row' hrow' => ?_,
    fun role hrole => ?_, fun kind => ?_⟩⟩
  · obtain ⟨old, hmem, hcall⟩ := hold row' hrow'
    rw [hcall]
    exact h.budgeted old hmem
  · obtain ⟨old, hmem, hcall⟩ := hold row' hrow'
    rw [hcall]
    refine ⟨(h.numbered old hmem).1, fun number hpos hle => ?_⟩
    obtain ⟨earlier, hearlier, hkey, hrequest, hnumber⟩ := (h.numbered old hmem).2 number hpos hle
    obtain ⟨now, hnow, hsame⟩ := hevolves.attempts earlier hearlier
    exact ⟨now, hnow, hsame.call ▸ hkey, hsame.call ▸ hrequest, hsame.call ▸ hnumber⟩
  · obtain ⟨hmem, hkey⟩ := mem_records.mp hrow'
    obtain ⟨old, hmemOld, hcall⟩ := hold row' hmem
    rw [hcall] at hkey ⊢
    exact (h.respected run hrun).attempts old (mem_records.mpr ⟨hmemOld, hkey⟩)
  · have hcount := (h.respected run hrun).calls role hrole
    rw [activeCalls_records] at hcount ⊢
    have hexchange := @Table.total_put _ _ _ store.attempts (countsFor run.key role.role)
      (fun _ => 1) _ row later hrow hadvance.key
    have hshare := hadvance.share_calls run.key role.role
    change (store.attempts.put later).total (countsFor run.key role.role) (fun _ => 1) ≤ _
    change store.attempts.total (countsFor run.key role.role) (fun _ => 1) ≤ _ at hcount
    omega
  · rcases (h.respected run hrun).tokens kind with hover | hwithin
    · exact Or.inl (hevolves.overran hover)
    · cases hover : later.overran kind with
      | true =>
        by_cases hkey : later.call.runKey = run.key
        · exact Or.inl ⟨later, mem_records.mpr ⟨Table.mem_put.mpr (Or.inl rfl), hkey⟩, hover⟩
        · -- The row belongs to another run.
          refine Or.inr ?_
          rw [used_records] at hwithin ⊢
          have hexchange := @Table.total_put _ _ _ store.attempts (counts run.key)
            (Attempt.charge kind) _ row later hrow hadvance.key
          have hforeign : counts run.key later = false := by simp [counts, hkey]
          have hshare : Table.share (counts run.key) (Attempt.charge kind) later = 0 := by
            simp [Table.share, hforeign]
          change (store.attempts.put later).total (counts run.key) (Attempt.charge kind) ≤ _
          omega
      | false =>
        refine Or.inr ?_
        rw [used_records] at hwithin ⊢
        have hexchange := @Table.total_put _ _ _ store.attempts (counts run.key)
          (Attempt.charge kind) _ row later hrow hadvance.key
        have hshare := hadvance.share_tokens run.key kind hover
        change (store.attempts.put later).total (counts run.key) (Attempt.charge kind) ≤ _
        omega

end Advance

/-- Every step keeps the store sound. -/
theorem Sound.step (h : Sound store) (hstep : Step store after) : Sound after := by
  cases hstep with
  | stay => exact h
  | budget hruns => exact h.budget hruns
  | reserve hadmitted hattempts => exact h.reserve hadmitted hattempts
  | advance hrow hadvance => exact h.advance hrow hadvance

theorem Sound.reached (rules : PriceRules) (calls : List Call) : Sound (reached rules calls) :=
  Machine.after_invariant (fun store call h => h.step (next_step rules store call)) Sound.initial calls

/-! ### What an overrun, a dispatch and a record leave -/

def Halted (rules : PriceRules) (store : UsageStore) (key : RunKey) : Prop :=
  ∀ call : BudgetCall, call.runKey = key →
    (∀ inputTokens maxOutputTokens pricing now, ¬Answers rules store
      (.reserve call inputTokens maxOutputTokens pricing now) (.reserved true)) ∧
    ¬Answers rules store (.markDispatched call) (.dispatched true)

def Spent (rules : PriceRules) (store : UsageStore) (key : AttemptKey) : Prop :=
  (∃ row ∈ store.attempts, row.key = key ∧ row.active = true) ∧
    ∀ call : BudgetCall, call.key = key →
      ¬Answers rules store (.markDispatched call) (.dispatched true) ∧
      ∀ reason now responseCacheHit, ∃ refusal,
        perform rules store (.release call reason now responseCacheHit) = .error refusal

def Recorded (rules : PriceRules) (store : UsageStore) (call : BudgetCall) (ledger : Ledger) : Prop :=
  (∃ row ∈ store.attempts, row.call = call ∧ row.ledger = some ledger) ∧
    (∀ now, (count "now" now 0).isOk = true →
      perform rules store (.record call ledger.usage now) = .ok (.recorded ledger, store)) ∧
    ∀ usage now, usage ≠ ledger.usage → ∃ refusal,
      perform rules store (.record call usage now) = .error refusal

theorem Overrun.halted (h : Overrun store key) : Halted rules store key := by
  rintro call rfl
  constructor
  · rintro inputTokens maxOutputTokens pricing now ⟨made, hmade⟩
    obtain ⟨⟨accepted, saved⟩, hreserve, hsame⟩ := map_ok_iff.mp hmade
    simp only [Prod.mk.injEq, Reply.reserved.injEq] at hsame
    exact (reserveBudget_ok hreserve).2 hsame.1 h
  · rintro ⟨made, hmade⟩
    obtain ⟨⟨accepted, saved⟩, hmark, hsame⟩ := map_ok_iff.mp hmade
    simp only [Prod.mk.injEq, Reply.dispatched.injEq] at hsame
    rcases markDispatched_ok hmark with ⟨hrefused, -⟩ | ⟨-, row, -, hcall, hadvance, -⟩
    · rw [hsame.1] at hrefused
      cases hrefused
    · cases hadvance with
      | dispatch hstate hfree => exact hfree (hcall ▸ h)

theorem spent_of_charged {row : Attempt} (hrow : row ∈ store.attempts)
    (hcharged : row.state = .dispatched ∨ row.state = .settled) : Spent rules store row.key := by
  have hsame : ∀ {other : Attempt} {call : BudgetCall}, other ∈ store.attempts → other.call = call →
      call.key = row.key → other = row :=
    fun hother hcall hkey => Table.eq_of_key_eq hother hrow ((congrArg BudgetCall.key hcall).trans hkey)
  refine ⟨⟨row, hrow, rfl, by rcases hcharged with h | h <;> simp [Attempt.active, h]⟩,
    fun call hkey => ⟨?_, fun reason now responseCacheHit => ?_⟩⟩
  · rintro ⟨made, hmade⟩
    obtain ⟨⟨accepted, saved⟩, hmark, hreply⟩ := map_ok_iff.mp hmade
    simp only [Prod.mk.injEq, Reply.dispatched.injEq] at hreply
    rcases markDispatched_ok hmark with ⟨hrefused, -⟩ | ⟨-, other, hother, hcall, hadvance, -⟩
    · rw [hreply.1] at hrefused
      cases hrefused
    · have hrowState := hsame hother hcall hkey
      subst hrowState
      cases hadvance with
      | dispatch hstate _ => rcases hcharged with h | h <;> rw [hstate] at h <;> cases h
  · cases hmade : perform rules store (.release call reason now responseCacheHit) with
    | error refusal => exact ⟨refusal, rfl⟩
    | ok made =>
      obtain ⟨saved, hrelease, -⟩ := map_ok_iff.mp hmade
      obtain ⟨⟨other, hother, hcall, hstate⟩, -⟩ := releaseBudget_ok hrelease
      rw [hsame hother hcall hkey] at hstate
      rcases hcharged with h | h <;> rcases hstate with hstate | hstate <;> rw [hstate] at h <;>
        cases h

theorem recorded_of_ledger {row : Attempt} {ledger : Ledger} (hrow : row ∈ store.attempts)
    (hledger : row.ledger = some ledger) : Recorded rules store row.call ledger := by
  refine ⟨⟨row, hrow, rfl, hledger⟩, fun now hnow => ?_, fun usage now hother => ?_⟩
  · have hcount : ∃ recordedAt, count "now" now 0 = .ok recordedAt := by
      cases hcount : count "now" now 0 with
      | error refusal =>
        rw [hcount] at hnow
        cases hnow
      | ok recordedAt => exact ⟨recordedAt, rfl⟩
    obtain ⟨recordedAt, hcount⟩ := hcount
    have hrecord : recordUsage rules store row.call ledger.usage now = .ok (ledger, store) := by
      refine bind_ok_iff.mpr ⟨recordedAt, hcount, bind_ok_iff.mpr ⟨row, getAttempt_of_mem hrow, ?_⟩⟩
      simp [hledger]
    exact map_ok_iff.mpr ⟨_, hrecord, rfl⟩
  · cases hmade : perform rules store (.record row.call usage now) with
    | error refusal => exact ⟨refusal, rfl⟩
    | ok made =>
      obtain ⟨⟨recorded, saved⟩, hrecord, -⟩ := map_ok_iff.mp hmade
      obtain ⟨found, hfound, hcall, husage, hstored⟩ := recordUsage_ok hrecord
      have hsame : found = row :=
        Table.eq_of_key_eq hfound hrow (congrArg BudgetCall.key hcall)
      subst hsame
      rcases hstored with ⟨hold, -⟩ | ⟨hadvance, -⟩
      · rw [hledger, Option.some.injEq] at hold
        exact absurd (hold ▸ husage).symm hother
      · cases hadvance with
        | settle _ _ hnone =>
          rw [hledger] at hnone
          cases hnone

theorem next_of_answers {call : Call} {reply : Reply} (h : Answers rules store call reply) :
    perform rules store call = .ok (reply, next rules store call) := by
  obtain ⟨made, hmade⟩ := h
  unfold next
  rw [hmade]

variable {call : BudgetCall}

theorem dispatched_spent (later : List Call)
    (h : Answers rules store (.markDispatched call) (.dispatched true)) :
    Spent rules (Machine.after (next rules) (next rules store (.markDispatched call)) later)
      call.key := by
  obtain ⟨⟨made, saved⟩, hmark, hreply⟩ := map_ok_iff.mp (next_of_answers h)
  simp only [Prod.mk.injEq, Reply.dispatched.injEq] at hreply
  obtain ⟨rfl, hsaved⟩ := hreply
  rcases markDispatched_ok hmark with ⟨hrefused, -⟩ | ⟨-, row, hrow, rfl, hadvance, hwritten⟩
  · cases hrefused
  · have hnow : ({ row with state := .dispatched } : Attempt) ∈
        (next rules store (.markDispatched row.call)).attempts := by
      rw [← hsaved, hwritten]
      exact Table.mem_put.mpr (Or.inl rfl)
    obtain ⟨last, hlast, hevolves⟩ := (after_evolves rules _ later).attempts _ hnow
    have hspent := @spent_of_charged rules _ last hlast (hevolves.charged (Or.inl rfl))
    rwa [show last.key = row.call.key from congrArg BudgetCall.key hevolves.call] at hspent

theorem answered_recorded {usage : TokenUsage} {now : Int} {ledger : Ledger}
    (later : List Call) (h : Answers rules store (.record call usage now) (.recorded ledger)) :
    ledger.usage = usage ∧
      Recorded rules (Machine.after (next rules) (next rules store (.record call usage now)) later)
        call ledger := by
  obtain ⟨⟨made, saved⟩, hrecord, hreply⟩ := map_ok_iff.mp (next_of_answers h)
  simp only [Prod.mk.injEq, Reply.recorded.injEq] at hreply
  obtain ⟨rfl, hsaved⟩ := hreply
  obtain ⟨row, hrow, rfl, husage, hstored⟩ := recordUsage_ok hrecord
  have hnow : ∃ now' ∈ (next rules store (.record row.call usage now)).attempts,
      now'.call = row.call ∧ now'.ledger = some made := by
    rw [← hsaved]
    rcases hstored with ⟨hold, hsame⟩ | ⟨-, hsame⟩
    · exact ⟨row, hsame ▸ hrow, rfl, hold⟩
    · rw [hsame]
      exact ⟨_, Table.mem_put.mpr (Or.inl rfl), rfl, rfl⟩
  obtain ⟨stored, hmem, hcall, hledger⟩ := hnow
  obtain ⟨last, hlast, hevolves⟩ := (after_evolves rules _ later).attempts stored hmem
  refine ⟨husage, ?_⟩
  have hrecorded := @recorded_of_ledger rules _ _ _ hlast (hevolves.ledger hledger)
  rwa [hevolves.call, hcall] at hrecorded

/-- **The token budget.**  In every state of every run each budget is respected and
attempts are numbered one by one; an overrun halts its run for good, a dispatched
attempt is spent for good, and a recorded usage stays what it is. -/
theorem token_budget_kept (rules : PriceRules) (calls : List Call) :
    (∀ run ∈ (reached rules calls).runs, Respected (reached rules calls) run) ∧
      Numbered (reached rules calls) ∧
      (∀ key, Overrun (reached rules calls) key → ∀ later,
        Halted rules (Machine.after (next rules) (reached rules calls) later) key) ∧
      (∀ call, Answers rules (reached rules calls) (.markDispatched call) (.dispatched true) →
        ∀ later, Spent rules (Machine.after (next rules)
          (next rules (reached rules calls) (.markDispatched call)) later) call.key) ∧
      ∀ call usage now ledger,
        Answers rules (reached rules calls) (.record call usage now) (.recorded ledger) →
          ledger.usage = usage ∧ ∀ later, Recorded rules (Machine.after (next rules)
            (next rules (reached rules calls) (.record call usage now)) later) call ledger := by
  have hsound := Sound.reached rules calls
  refine ⟨hsound.respected, hsound.numbered, fun key hover later => ?_, fun call hmark later => ?_,
    fun call usage now ledger hrecord => ⟨?_, fun later => ?_⟩⟩
  · exact ((after_evolves rules _ later).overrun hover).halted
  · exact dispatched_spent later hmark
  · exact (answered_recorded [] hrecord).1
  · exact (answered_recorded later hrecord).2

def distinctCalls (rows : List Attempt) (role : String) : Nat :=
  ((rows.filter fun row => row.call.role = role).map fun row => row.call.requestId).dedup.length

def sampleRules : PriceRules where
  usageCost := fun _ _ => none
  canonicalHash := PricingSnapshot.snapshotId

def sampleLimits : BudgetLimits where
  inputTokens := 100
  outputTokens := 100
  roles := [
    { role := "tagger", maxCalls := 1, maxInputTokens := 50, maxOutputTokens := 50
      maxContextTokens := 100 }]
  maxAttempts := 3
  distinct := List.nodup_singleton _
  attempts_range := by decide

def sampleCall (requestId : String) : BudgetCall where
  tenantId := "tenant"
  runId := "run"
  documentVersionId := "version"
  requestId := requestId
  attempt := 1
  role := "tagger"
  modelId := "model"
  region := "region"
  modelBindingHash := "binding"
  requestSignature := "signature"
  replicateId := some 1

theorem distinct_calls_exceed_limit :
    ¬∀ calls : List Call, ∀ run ∈ (reached sampleRules calls).runs, ∀ role ∈ run.limits.roles,
      distinctCalls (records (reached sampleRules calls) run.key) role.role ≤ role.maxCalls := by
  intro h
  have hcalls := h
    [.createBudget "tenant" "run" "version" sampleLimits,
      .reserve (sampleCall "first") 10 10 none 0, .release (sampleCall "first") "not needed" 1 false,
      .reserve (sampleCall "second") 10 10 none 2]
  revert hcalls
  decide +kernel

end ProofOps.Adapters.Aws
