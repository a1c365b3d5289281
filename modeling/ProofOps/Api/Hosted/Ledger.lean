import ProofOps.Api.Hosted.Moves

/-!
# The money ledger

The books of the hosted store: charges within the envelope of their run, spend that
covers the charges, settled spend equal to them, and the caps of the days and of
the event.  Every elementary move keeps the books, in whatever order moves are
made.
-/

namespace ProofOps.Api.Hosted

open Foundation

structure LedgerSound (deployment : Deployment) (store : HostedStore) : Prop where
  envelope : ∀ row ∈ store.runs, charges store row.runId ≤ row.envelope
  covered : ∀ row ∈ store.spend, charges store row.runId ≤ row.amount
  accounted : ∀ row ∈ store.spend, row.status = .settled →
    ∀ cost ∈ store.costs, cost.runId = row.runId → cost.status = .settled
  exact : ∀ row ∈ store.spend, row.status = .settled → row.amount = charges store row.runId
  closed : ∀ row ∈ store.spend, row.status = .settled →
    ∀ run ∈ store.runs, run.runId = row.runId → run.status.Terminal
  opened : ∀ run ∈ store.runs, ¬run.status.Terminal →
    ∀ row ∈ store.spend, row.runId = run.runId → row.amount = run.envelope
  day : ∀ day, daySpend store day ≤ deployment.settings.dayUsd
  event : eventSpend store deployment.settings.eventId ≤ deployment.settings.eventUsd

variable {deployment : Deployment} {fresh : String → Prop} {ends : RunRow → Prop}
  {prices : CallKey → Prop}

theorem ledgerSound_initial : LedgerSound deployment HostedStore.initial where
  envelope := nofun
  covered := nofun
  accounted := nofun
  exact := nofun
  closed := nofun
  opened := nofun
  day := fun _ => Nat.zero_le _
  event := Nat.zero_le _

variable {after : HostedStore} {store : HostedStore}

theorem LedgerSound.congr (h : LedgerSound deployment store) (hruns : after.runs = store.runs)
    (hcosts : after.costs = store.costs) (hspend : after.spend = store.spend)
    (htotals : after.eventTotals = store.eventTotals) : LedgerSound deployment after := by
  obtain ⟨henvelope, hcovered, haccounted, hexact, hclosed, hopened, hday, hevent⟩ := h
  constructor
  all_goals
    simp only [charges, daySpend, eventSpend, archived, hruns, hcosts, hspend, htotals] at *
    assumption

/-! ### Charges -/

variable {runId : String}

theorem charges_eq_zero (h : ∀ cost ∈ store.costs, cost.runId ≠ runId) : charges store runId = 0 :=
  Table.total_eq_zero fun cost hcost htest => absurd (isCostOf_iff.mp htest) (h cost hcost)

theorem receipts_eq_charges (h : ∀ cost ∈ store.costs, cost.runId = runId → cost.status = .settled) :
    receipts store runId = charges store runId := by
  refine Table.total_congr fun cost hcost => ?_
  unfold Table.share
  split_ifs with htest
  · rw [CostRow.charge, if_pos (h cost hcost (isCostOf_iff.mp htest))]
  · rfl

theorem charges_insert {cost : CostRow} {costs : Table CostRow CostRow.key}
    (h : store.costs.insert? cost = some costs) (runId : String) :
    charges { store with costs := costs } runId =
      charges store runId + if cost.runId = runId then cost.charge else 0 := by
  have hinsert : charges { store with costs := costs } runId =
      charges store runId + Table.share (isCostOf runId) CostRow.charge cost :=
    Table.total_insert? h
  rw [hinsert, Table.share]
  simp only [isCostOf_iff]

variable {test : CostRow → Bool} {change : CostRow → CostRow}

theorem charges_price_le {keeps : ∀ cost, CostRow.key (change cost) = CostRow.key cost}
    (hcharge : ∀ cost ∈ store.costs, test cost = true → (change cost).charge ≤ cost.charge)
    (runId : String) :
    charges { store with costs := store.costs.modify test change keeps } runId ≤
      charges store runId := by
  have hshare : ∀ cost ∈ store.costs, test cost = true →
      Table.share (isCostOf runId) CostRow.charge (change cost) ≤
        Table.share (isCostOf runId) CostRow.charge cost := by
    intro cost hcost htest
    have hrun : isCostOf runId (change cost) = isCostOf runId cost := by
      rw [isCostOf, isCostOf, show (change cost).runId = cost.runId from
        congrArg Prod.fst (keeps cost)]
    unfold Table.share
    rw [hrun]
    split_ifs
    · exact hcharge cost hcost htest
    · exact le_rfl
  exact @Table.total_modify_le _ _ _ _ _ _ _ _ keeps hshare

theorem charges_price_eq {keeps : ∀ cost, CostRow.key (change cost) = CostRow.key cost}
    (hother : ∀ cost ∈ store.costs, cost.runId = runId → test cost = false) :
    charges { store with costs := store.costs.modify test change keeps } runId =
      charges store runId := by
  have hshare : ∀ cost ∈ store.costs, test cost = true →
      Table.share (isCostOf runId) CostRow.charge (change cost) =
        Table.share (isCostOf runId) CostRow.charge cost := by
    intro cost hcost htest
    have hrun : (change cost).runId = cost.runId := congrArg Prod.fst (keeps cost)
    have hne : cost.runId ≠ runId := by
      intro heq
      rw [hother cost hcost heq] at htest
      cases htest
    simp [Table.share, isCostOf, hrun, hne]
  exact @Table.total_modify_eq _ _ _ _ _ _ _ _ keeps hshare

theorem charges_archive (row : SpendRow) (hne : runId ≠ row.runId) :
    charges (archiveSpend store row) runId = charges store runId := by
  have hadd : charges (archiveSpend store row) runId +
      store.costs.total (fun cost => isCostOf row.runId cost && isCostOf runId cost)
        CostRow.charge = charges store runId := Table.total_delete_add
  have hzero : store.costs.total (fun cost => isCostOf row.runId cost && isCostOf runId cost)
      CostRow.charge = 0 := by
    refine Table.total_eq_zero fun cost _ htest => ?_
    rw [Bool.and_eq_true, isCostOf_iff, isCostOf_iff] at htest
    exact absurd (htest.2.symm.trans htest.1) hne
  omega

theorem charges_archive_le (store : HostedStore) (row : SpendRow) (runId : String) :
    charges (archiveSpend store row) runId ≤ charges store runId :=
  Table.total_delete_le

theorem spend_modify_le {test : SpendRow → Bool} {change : SpendRow → SpendRow}
    {keeps : ∀ row, SpendRow.key (change row) = SpendRow.key row} {other : SpendRow → Bool}
    (hother : ∀ row, other (change row) = other row)
    (hamount : ∀ row ∈ store.spend, test row = true → (change row).amount ≤ row.amount) :
    (store.spend.modify test change keeps).total other SpendRow.amount ≤
      store.spend.total other SpendRow.amount := by
  refine Table.total_modify_le fun row hrow htest => ?_
  simp only [Table.share, hother]
  split_ifs
  · exact hamount row hrow htest
  · exact le_rfl

variable {spend : Table SpendRow SpendRow.key}

theorem mem_modify_spend {test : SpendRow → Bool}
    {change : SpendRow → SpendRow} (keeps : ∀ row, SpendRow.key (change row) = SpendRow.key row)
    {row : SpendRow} (h : row ∈ spend.modify test change keeps) :
    (∃ old ∈ spend, test old = true ∧ change old = row) ∨ (row ∈ spend ∧ test row = false) := by
  obtain ⟨old, hold, rfl⟩ := Table.mem_modify.mp h
  cases htest : test old with
  | true =>
    exact Or.inl ⟨old, hold, htest, rfl⟩
  | false =>
    exact Or.inr ⟨hold, htest⟩

theorem eventSpend_archive {row : SpendRow} (hrow : row ∈ store.spend) (eventId : String) :
    eventSpend (archiveSpend store row) eventId ≤ eventSpend store eventId := by
  have hadd : (store.spend.delete (isSpendOf row.runId)).total
        (fun other => other.eventId = eventId) SpendRow.amount +
      store.spend.total (fun other => isSpendOf row.runId other && decide (other.eventId = eventId))
        SpendRow.amount =
      store.spend.total (fun other => other.eventId = eventId) SpendRow.amount :=
    Table.total_delete_add
  have harchived : archived (archiveSpend store row) eventId =
      if row.eventId = eventId then archived store row.eventId + row.amount
      else archived store eventId := by
    have hfind := Table.find_put store.eventTotals
      { eventId := row.eventId, amount := archived store row.eventId + row.amount } eventId
    unfold archiveSpend archived
    unfold archived at hfind
    by_cases hevent : row.eventId = eventId
    · rw [hfind.trans (if_pos hevent), if_pos hevent]
      rfl
    · rw [hfind.trans (if_neg hevent), if_neg hevent]
  unfold eventSpend
  rw [harchived]
  change (store.spend.delete (isSpendOf row.runId)).total
    (fun other => other.eventId = eventId) SpendRow.amount + _ ≤ _
  split_ifs with hevent
  · have hle : row.amount ≤ store.spend.total
        (fun other => isSpendOf row.runId other && decide (other.eventId = eventId))
        SpendRow.amount := by
      refine @Table.le_total _ _ _ _ _ SpendRow.amount row hrow ?_
      rw [Bool.and_eq_true, isSpendOf_iff, decide_eq_true_eq]
      exact ⟨rfl, hevent⟩
    rw [hevent]
    omega
  · omega

/-! ### The moves -/

variable {runs : Table RunRow RunRow.key}

namespace LedgerSound

variable {store : HostedStore}

section Sound

variable (h : LedgerSound deployment store)

include h

/-- An admission that the day and the event can pay for keeps the ledger. -/
theorem admission {row : RunRow} {envelope : SpendRow}
    (hruns : store.runs.insert? row = some runs) (hspend : store.spend.insert? envelope = some spend)
    (hqueued : row.status = .queued) (hrun : envelope.runId = row.runId)
    (hamount : envelope.amount = row.envelope) (hreserved : envelope.status = .reserved)
    (hfree : ∀ cost ∈ store.costs, cost.runId ≠ row.runId)
    (hday : daySpend store envelope.day + envelope.amount ≤ deployment.settings.dayUsd)
    (hcap : eventSpend store deployment.settings.eventId + envelope.amount ≤
      deployment.settings.eventUsd) :
    LedgerSound deployment { store with runs := runs, spend := spend } := by
  have hnoRun : ∀ run ∈ store.runs, run.runId ≠ row.runId :=
    Table.find_eq_none_iff.mp (Table.find_of_insert? hruns)
  have hnoSpend : ∀ other ∈ store.spend, other.runId ≠ row.runId := by
    rw [← hrun]
    exact Table.find_eq_none_iff.mp (Table.find_of_insert? hspend)
  have hzero : charges store row.runId = 0 := charges_eq_zero hfree
  have hnotSettled : envelope.status ≠ .settled := by rw [hreserved]; exact nofun
  constructor
  case envelope =>
    intro run hmem
    rcases (Table.mem_insert? hruns).mp hmem with hold | rfl
    · exact h.envelope run hold
    · exact hzero.le.trans (Nat.zero_le _)
  case covered =>
    intro other hmem
    rcases (Table.mem_insert? hspend).mp hmem with hold | rfl
    · exact h.covered other hold
    · rw [hrun]
      exact hzero.le.trans (Nat.zero_le _)
  case accounted =>
    intro other hmem hsettled
    rcases (Table.mem_insert? hspend).mp hmem with hold | rfl
    · exact h.accounted other hold hsettled
    · exact absurd hsettled hnotSettled
  case exact =>
    intro other hmem hsettled
    rcases (Table.mem_insert? hspend).mp hmem with hold | rfl
    · exact h.exact other hold hsettled
    · exact absurd hsettled hnotSettled
  case closed =>
    intro other hmem hsettled run hrunMem hsame
    rcases (Table.mem_insert? hspend).mp hmem with hold | rfl
    · rcases (Table.mem_insert? hruns).mp hrunMem with hrunOld | rfl
      · exact h.closed other hold hsettled run hrunOld hsame
      · exact absurd hsame.symm (hnoSpend other hold)
    · exact absurd hsettled hnotSettled
  case opened =>
    intro run hrunMem hactive other hmem hsame
    rcases (Table.mem_insert? hruns).mp hrunMem with hrunOld | rfl
    · rcases (Table.mem_insert? hspend).mp hmem with hold | rfl
      · exact h.opened run hrunOld hactive other hold hsame
      · exact absurd (hsame.symm.trans hrun) (hnoRun run hrunOld)
    · rcases (Table.mem_insert? hspend).mp hmem with hold | rfl
      · exact absurd hsame (hnoSpend other hold)
      · exact hamount
  case day =>
    intro day
    have hinsert : daySpend { store with runs := runs, spend := spend } day =
        daySpend store day + Table.share (fun other => decide (other.day = day)) SpendRow.amount
          envelope := Table.total_insert? hspend
    rw [hinsert, Table.share]
    split_ifs with htest
    · rw [decide_eq_true_eq] at htest
      rw [← htest]
      exact hday
    · exact h.day day
  case event =>
    have hinsert : spend.total (fun other => other.eventId = deployment.settings.eventId)
          SpendRow.amount =
        store.spend.total (fun other => other.eventId = deployment.settings.eventId)
          SpendRow.amount + Table.share
            (fun other => decide (other.eventId = deployment.settings.eventId)) SpendRow.amount
            envelope := Table.total_insert? hspend
    have hshare : Table.share (fun other => decide (other.eventId = deployment.settings.eventId))
        SpendRow.amount envelope ≤ envelope.amount := by
      unfold Table.share
      split_ifs
      · exact le_rfl
      · exact Nat.zero_le _
    unfold eventSpend at hcap ⊢
    change spend.total _ _ + archived store _ ≤ _
    omega

theorem copy {row : RunRow}
    (hruns : store.runs.insert? row = some runs) (hterminal : row.status.Terminal)
    (hfree : ∀ cost ∈ store.costs, cost.runId ≠ row.runId) :
    LedgerSound deployment { store with runs := runs } where
  envelope := by
    intro run hmem
    rcases (Table.mem_insert? hruns).mp hmem with hold | rfl
    · exact h.envelope run hold
    · exact (charges_eq_zero hfree).le.trans (Nat.zero_le _)
  covered := h.covered
  accounted := h.accounted
  exact := h.exact
  closed := by
    intro row hrow hsettled run hmem hsame
    rcases (Table.mem_insert? hruns).mp hmem with hold | rfl
    · exact h.closed row hrow hsettled run hold hsame
    · exact hterminal
  opened := by
    intro run hmem hactive
    rcases (Table.mem_insert? hruns).mp hmem with hold | rfl
    · exact h.opened run hold hactive
    · exact absurd hterminal hactive
  day := h.day
  event := h.event

theorem modifyRuns {test : RunRow → Bool}
    {change : RunRow → RunRow} {keeps : ∀ row, RunRow.key (change row) = RunRow.key row}
    (henvelope : ∀ row ∈ store.runs, test row = true → (change row).envelope = row.envelope)
    (hterminal : ∀ row ∈ store.runs, test row = true → row.status.Terminal →
      (change row).status.Terminal) :
    LedgerSound deployment { store with runs := store.runs.modify test change keeps } := by
  have hrow : ∀ row ∈ store.runs.modify test change keeps, ∃ old ∈ store.runs,
      old.runId = row.runId ∧ row.envelope = old.envelope ∧
        (old.status.Terminal → row.status.Terminal) := by
    intro row hmem
    obtain ⟨old, hold, rfl⟩ := Table.mem_modify.mp hmem
    refine ⟨old, hold, ?_⟩
    split_ifs with htest
    · exact ⟨(keeps old).symm, henvelope old hold htest, hterminal old hold htest⟩
    · exact ⟨rfl, rfl, id⟩
  constructor
  case envelope =>
    intro row hmem
    obtain ⟨old, hold, hsame, henvelope, -⟩ := hrow row hmem
    rw [henvelope, ← hsame]
    exact h.envelope old hold
  case closed =>
    intro row hspend hsettled run hmem hsame
    obtain ⟨old, hold, hkey, -, hstays⟩ := hrow run hmem
    exact hstays (h.closed row hspend hsettled old hold (hkey.trans hsame))
  case opened =>
    intro run hmem hactive row hspend hsame
    obtain ⟨old, hold, hkey, henvelope, hstays⟩ := hrow run hmem
    rw [henvelope]
    exact h.opened old hold (fun hold => hactive (hstays hold)) row hspend (hsame.trans hkey.symm)
  case covered => exact h.covered
  case accounted => exact h.accounted
  case exact => exact h.exact
  case day => exact h.day
  case event => exact h.event

/-- Runs may be dropped: no bound needs them. -/
theorem drop (test : RunRow → Bool) :
    LedgerSound deployment { store with runs := store.runs.delete test } where
  envelope := fun row hrow => h.envelope row (Table.mem_delete.mp hrow).1
  covered := h.covered
  accounted := h.accounted
  exact := h.exact
  closed := fun row hrow hsettled run hrun =>
    h.closed row hrow hsettled run (Table.mem_delete.mp hrun).1
  opened := fun run hrun => h.opened run (Table.mem_delete.mp hrun).1
  day := h.day
  event := h.event

/-- A reservation with room in the envelope of a running run keeps the ledger. -/
theorem reserve {row : RunRow} {cost : CostRow}
    {costs : Table CostRow CostRow.key} (hrow : row ∈ store.runs) (hrunning : row.status = .running)
    (hrun : cost.runId = row.runId) (hroom : charges store row.runId + cost.bound ≤ row.envelope)
    (hcosts : store.costs.insert? cost = some costs) (hreserved : cost.status = .reserved) :
    LedgerSound deployment { store with costs := costs } := by
  have hactive : ¬row.status.Terminal := by rw [hrunning]; exact id
  have hcharge : cost.charge = cost.bound := by
    rw [CostRow.charge, if_neg]
    rw [hreserved]
    exact nofun
  have hcharges := charges_insert hcosts
  -- The run is open, so its spend is not settled.
  have hopen : ∀ spend ∈ store.spend, spend.status = .settled → cost.runId ≠ spend.runId := by
    intro spend hspend hsettled hsame
    exact hactive (h.closed spend hspend hsettled row hrow (hrun.symm.trans hsame))
  constructor
  case envelope =>
    intro run hmem
    rw [hcharges]
    split_ifs with hsame
    · have heq : run = row := run_eq hmem hrow (hsame.symm.trans hrun)
      rw [heq, hcharge]
      exact hroom
    · exact h.envelope run hmem
  case covered =>
    intro spend hspend
    rw [hcharges]
    split_ifs with hsame
    · have hsameRow : spend.runId = row.runId := hsame.symm.trans hrun
      rw [h.opened row hrow hactive spend hspend hsameRow, hcharge, hsameRow]
      exact hroom
    · exact h.covered spend hspend
  case accounted =>
    intro spend hspend hsettled other hother hsame
    rcases (Table.mem_insert? hcosts).mp hother with hold | rfl
    · exact h.accounted spend hspend hsettled other hold hsame
    · exact absurd hsame (hopen spend hspend hsettled)
  case exact =>
    intro spend hspend hsettled
    rw [hcharges, if_neg (hopen spend hspend hsettled)]
    exact h.exact spend hspend hsettled
  case closed => exact h.closed
  case opened => exact h.opened
  case day => exact h.day
  case event => exact h.event

/-- A price within the reservation keeps the ledger. -/
theorem price {test : CostRow → Bool}
    {change : CostRow → CostRow} {keeps : ∀ cost, CostRow.key (change cost) = CostRow.key cost}
    (hopen : ∀ cost ∈ store.costs, test cost = true → cost.status ≠ .settled)
    (hcharge : ∀ cost ∈ store.costs, test cost = true → (change cost).charge ≤ cost.charge) :
    LedgerSound deployment { store with costs := store.costs.modify test change keeps } := by
  -- The costs of a settled run are settled, so none of them is priced.
  have hkept : ∀ row ∈ store.spend, row.status = .settled → ∀ cost ∈ store.costs,
      cost.runId = row.runId → test cost = false := by
    intro row hrow hsettled cost hcost hsame
    cases htest : test cost with
    | true => exact absurd (h.accounted row hrow hsettled cost hcost hsame) (hopen cost hcost htest)
    | false => rfl
  constructor
  case envelope =>
    intro row hrow
    exact (charges_price_le hcharge row.runId).trans (h.envelope row hrow)
  case covered =>
    intro row hrow
    exact (charges_price_le hcharge row.runId).trans (h.covered row hrow)
  case accounted =>
    intro row hrow hsettled cost hcost hsame
    obtain ⟨old, hold, rfl⟩ := (@Table.mem_modify _ _ _ _ _ keeps _ _).mp hcost
    split_ifs at hsame ⊢ with htest
    · have hrun : (change old).runId = old.runId := congrArg Prod.fst (keeps old)
      rw [hkept row hrow hsettled old hold (hrun.symm.trans hsame)] at htest
      cases htest
    · exact h.accounted row hrow hsettled old hold hsame
  case exact =>
    intro row hrow hsettled
    rw [charges_price_eq (hkept row hrow hsettled)]
    exact h.exact row hrow hsettled
  case closed => exact h.closed
  case opened => exact h.opened
  case day => exact h.day
  case event => exact h.event

theorem pend (test : SpendRow → Bool) :
    LedgerSound deployment
      { store with spend := store.spend.modify test SpendRow.pending SpendRow.pending_key } := by
  have hcaps : ∀ other : SpendRow → Bool, (∀ row, other row.pending = other row) →
      (store.spend.modify test SpendRow.pending SpendRow.pending_key).total other SpendRow.amount ≤
        store.spend.total other SpendRow.amount := by
    intro other hother
    exact spend_modify_le hother fun row _ _ => le_rfl
  constructor
  case envelope => exact h.envelope
  case covered =>
    intro row hrow
    rcases mem_modify_spend SpendRow.pending_key hrow with ⟨old, hold, -, rfl⟩ | ⟨hold, -⟩
    · exact h.covered old hold
    · exact h.covered row hold
  case accounted =>
    intro row hrow hsettled
    rcases mem_modify_spend SpendRow.pending_key hrow with ⟨old, hold, -, rfl⟩ | ⟨hold, -⟩
    · cases hsettled
    · exact h.accounted row hold hsettled
  case exact =>
    intro row hrow hsettled
    rcases mem_modify_spend SpendRow.pending_key hrow with ⟨old, hold, -, rfl⟩ | ⟨hold, -⟩
    · cases hsettled
    · exact h.exact row hold hsettled
  case closed =>
    intro row hrow hsettled
    rcases mem_modify_spend SpendRow.pending_key hrow with ⟨old, hold, -, rfl⟩ | ⟨hold, -⟩
    · cases hsettled
    · exact h.closed row hold hsettled
  case opened =>
    intro run hrun hactive row hrow hsame
    rcases mem_modify_spend SpendRow.pending_key hrow with ⟨old, hold, -, rfl⟩ | ⟨hold, -⟩
    · exact h.opened run hrun hactive old hold hsame
    · exact h.opened run hrun hactive row hold hsame
  case day =>
    intro day
    exact (hcaps (fun row => decide (row.day = day)) fun _ => rfl).trans (h.day day)
  case event =>
    have hle := hcaps (fun row => decide (row.eventId = deployment.settings.eventId)) fun _ => rfl
    exact (Nat.add_le_add_right hle _).trans h.event

theorem settle {runId : String}
    (hclosed : ∀ row ∈ store.runs, row.runId = runId → row.status.Terminal) :
    LedgerSound deployment (settleEnvelope store runId) := by
  rcases settleEnvelope_cases store runId with hpend | ⟨haccounted, hsettle⟩
  · rw [hpend]
    exact h.pend (isSpendOf runId)
  rw [hsettle, receipts_eq_charges haccounted]
  have hcaps : ∀ other : SpendRow → Bool,
      (∀ row, other (row.settled (charges store runId)) = other row) →
      (store.spend.modify (isSpendOf runId) (SpendRow.settled (charges store runId))
        (SpendRow.settled_key _)).total other SpendRow.amount ≤
          store.spend.total other SpendRow.amount := by
    intro other hother
    refine spend_modify_le hother fun row hrow htest => ?_
    rw [← isSpendOf_iff.mp htest]
    exact h.covered row hrow
  constructor
  case envelope => exact h.envelope
  case covered =>
    intro row hrow
    rcases mem_modify_spend (SpendRow.settled_key _) hrow with ⟨old, -, htest, rfl⟩ | ⟨hold, -⟩
    · rw [← isSpendOf_iff.mp htest]
      exact le_rfl
    · exact h.covered row hold
  case accounted =>
    intro row hrow hsettled cost hcost hsame
    rcases mem_modify_spend (SpendRow.settled_key _) hrow with ⟨old, -, htest, rfl⟩ | ⟨hold, -⟩
    · exact haccounted cost hcost (hsame.trans (isSpendOf_iff.mp htest))
    · exact h.accounted row hold hsettled cost hcost hsame
  case exact =>
    intro row hrow hsettled
    rcases mem_modify_spend (SpendRow.settled_key _) hrow with ⟨old, -, htest, rfl⟩ | ⟨hold, -⟩
    · rw [← isSpendOf_iff.mp htest]
      rfl
    · exact h.exact row hold hsettled
  case closed =>
    intro row hrow hsettled run hrun hsame
    rcases mem_modify_spend (SpendRow.settled_key _) hrow with ⟨old, -, htest, rfl⟩ | ⟨hold, -⟩
    · exact hclosed run hrun (hsame.trans (isSpendOf_iff.mp htest))
    · exact h.closed row hold hsettled run hrun hsame
  case opened =>
    intro run hrun hactive row hrow hsame
    rcases mem_modify_spend (SpendRow.settled_key _) hrow with ⟨old, -, htest, rfl⟩ | ⟨hold, -⟩
    · exact absurd (hclosed run hrun (hsame.symm.trans (isSpendOf_iff.mp htest))) hactive
    · exact h.opened run hrun hactive row hold hsame
  case day =>
    intro day
    exact (hcaps (fun row => decide (row.day = day)) fun _ => rfl).trans (h.day day)
  case event =>
    have hle := hcaps (fun row => decide (row.eventId = deployment.settings.eventId)) fun _ => rfl
    exact (Nat.add_le_add_right hle _).trans h.event

/-- A settled row may go to the totals. -/
theorem archive {row : SpendRow} (hrow : row ∈ store.spend) :
    LedgerSound deployment (archiveSpend store row) := by
  have hkept : ∀ other ∈ (archiveSpend store row).spend,
      other ∈ store.spend ∧ other.runId ≠ row.runId := by
    intro other hother
    obtain ⟨hmem, htest⟩ := Table.mem_delete.mp hother
    refine ⟨hmem, fun hsame => ?_⟩
    rw [isSpendOf_iff.mpr hsame] at htest
    cases htest
  constructor
  case envelope =>
    intro run hrun
    exact (charges_archive_le store row run.runId).trans (h.envelope run hrun)
  case covered =>
    intro other hother
    exact (charges_archive_le store row other.runId).trans (h.covered other (hkept other hother).1)
  case accounted =>
    intro other hother hsettled cost hcost
    exact h.accounted other (hkept other hother).1 hsettled cost (Table.mem_delete.mp hcost).1
  case exact =>
    intro other hother hsettled
    rw [charges_archive row (hkept other hother).2]
    exact h.exact other (hkept other hother).1 hsettled
  case closed =>
    intro other hother
    exact h.closed other (hkept other hother).1
  case opened =>
    intro run hrun hactive other hother
    exact h.opened run hrun hactive other (hkept other hother).1
  case day =>
    intro day
    exact Table.total_delete_le.trans (h.day day)
  case event => exact (eventSpend_archive hrow _).trans h.event

end Sound

theorem move (hmove : Move deployment fresh ends prices store after)
    (h : LedgerSound deployment store) : LedgerSound deployment after := by
  cases hmove with
  | elsewhere hruns hcosts hspend htotals => exact h.congr hruns hcosts hspend htotals
  | admission hruns hspend _ hqueued hrun hamount hreserved hfree hday hcap =>
    exact h.admission hruns hspend hqueued hrun hamount hreserved hfree hday hcap
  | copy hruns _ hterminal hfree => exact h.copy hruns hterminal hfree
  | start hrow hqueued =>
    refine h.modifyRuns (fun _ _ _ => rfl) fun other hother htest hterminal => ?_
    rw [run_eq hother hrow (isRun_iff.mp htest), hqueued] at hterminal
    exact hterminal.elim
  | rewrite hrewrites =>
    exact h.modifyRuns (fun row hrow htest => (hrewrites row hrow htest).envelope)
      fun row hrow htest => (hrewrites row hrow htest).terminal
  | drop => exact h.drop _
  | reserve hrow hrunning hrun hroom hcosts hreserved =>
    exact h.reserve hrow hrunning hrun hroom hcosts hreserved
  | price _ hopen _ hcharge => exact h.price hopen hcharge
  | pend => exact h.pend _
  | settle hclosed => exact h.settle hclosed
  | archive hrow _ => exact h.archive hrow

end LedgerSound

theorem Moves.invariant_of_sound {inv : HostedStore → Prop}
    (hmove : ∀ {store after}, Move deployment fresh ends prices store after →
      LedgerSound deployment store → inv store → inv after)
    (h : Moves deployment fresh ends prices store after) (hsound : LedgerSound deployment store)
    (hinv : inv store) : LedgerSound deployment after ∧ inv after := by
  induction h with
  | refl => exact ⟨hsound, hinv⟩
  | tail _ hlast ih => exact ⟨ih.1.move hlast, hmove hlast ih.1 ih.2⟩

end ProofOps.Api.Hosted
