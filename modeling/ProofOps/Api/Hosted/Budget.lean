import ProofOps.Api.Hosted.Custody

/-!
# Budgets along a run of the system

In every reachable store the books are in order, and from there on the charges of a
run stay within its envelope, also when its rows are dropped, and its spend never
rises.
-/

namespace ProofOps.Api.Hosted

open Foundation

structure WithinEnvelope (runId : String) (envelope : Nat) (store : HostedStore) : Prop where
  row : ∀ row ∈ store.runs, row.runId = runId → row.envelope = envelope
  charged : charges store runId ≤ envelope

def SpendAtMost (runId : String) (amount : Nat) (store : HostedStore) : Prop :=
  ∀ row ∈ store.spend, row.runId = runId → row.amount ≤ amount

variable {deployment : Deployment} {fresh : String → Prop} {ends : RunRow → Prop}
  {prices : CallKey → Prop} {store after : HostedStore} {runId : String} {envelope amount : Nat}

theorem WithinEnvelope.modifyRuns {test : RunRow → Bool} {change : RunRow → RunRow}
    (keeps : ∀ row, RunRow.key (change row) = RunRow.key row)
    (henvelope : ∀ row ∈ store.runs, test row = true → (change row).envelope = row.envelope)
    (h : WithinEnvelope runId envelope store) :
    WithinEnvelope runId envelope { store with runs := store.runs.modify test change keeps } where
  row := by
    intro row hrow hrun
    obtain ⟨old, hold, rfl⟩ := (@Table.mem_modify _ _ _ _ _ keeps _ _).mp hrow
    split_ifs at hrun ⊢ with htest
    · rw [henvelope old hold htest]
      exact h.row old hold ((keeps old).symm.trans hrun)
    · exact h.row old hold hrun
  charged := h.charged

theorem WithinEnvelope.move (hmove : Move deployment fresh ends prices store after)
    (hfresh : ¬fresh runId) (h : WithinEnvelope runId envelope store) :
    WithinEnvelope runId envelope after := by
  -- A fresh run is another run.
  have hinserted : ∀ {row : RunRow} {runs : Table RunRow RunRow.key},
      store.runs.insert? row = some runs → fresh row.runId →
        ∀ other ∈ runs, other.runId = runId → other.envelope = envelope := by
    intro row runs hinsert hnew other hother hrun
    rcases (Table.mem_insert? hinsert).mp hother with hold | rfl
    · exact h.row other hold hrun
    · exact absurd (hrun ▸ hnew) hfresh
  cases hmove with
  | elsewhere hruns hcosts _ _ =>
    refine ⟨hruns ▸ h.row, ?_⟩
    unfold charges
    rw [hcosts]
    exact h.charged
  | admission hruns _ hnew | copy hruns hnew => exact ⟨hinserted hruns hnew, h.charged⟩
  | start => exact h.modifyRuns (RunRow.started_key _) fun _ _ _ => rfl
  | @rewrite test change keeps hrewrites =>
    exact h.modifyRuns keeps fun row hrow htest => (hrewrites row hrow htest).envelope
  | drop => exact ⟨fun row hrow => h.row row (Table.mem_delete.mp hrow).1, h.charged⟩
  | reserve hrow _ hrun hroom hcosts hreserved =>
    refine ⟨h.row, ?_⟩
    rw [charges_insert hcosts, charge_of_reserved hreserved]
    split_ifs with hsame
    · rw [← h.row _ hrow (hrun.symm.trans hsame), ← hrun.symm.trans hsame]
      exact hroom
    · exact h.charged
  | price _ _ _ hcharge => exact ⟨h.row, (charges_price_le hcharge runId).trans h.charged⟩
  | pend => exact ⟨h.row, h.charged⟩
  | settle =>
    refine ⟨fun row hrow => h.row row (settleEnvelope_runs _ _ ▸ hrow), ?_⟩
    unfold charges
    rw [settleEnvelope_costs]
    exact h.charged
  | archive => exact ⟨h.row, (charges_archive_le store _ runId).trans h.charged⟩

theorem SpendAtMost.pend (h : SpendAtMost runId amount store) (test : SpendRow → Bool) :
    SpendAtMost runId amount
      { store with spend := store.spend.modify test SpendRow.pending SpendRow.pending_key } := by
  intro row hrow hrun
  rcases mem_modify_spend SpendRow.pending_key hrow with ⟨old, hold, -, rfl⟩ | ⟨hold, -⟩
  · exact h old hold hrun
  · exact h row hold hrun

theorem SpendAtMost.settle (hsound : LedgerSound deployment store)
    (h : SpendAtMost runId amount store) (settled : String) :
    SpendAtMost runId amount (settleEnvelope store settled) := by
  rcases settleEnvelope_cases store settled with hpend | ⟨haccounted, hsettle⟩
  · rw [hpend]
    exact h.pend (isSpendOf settled)
  rw [hsettle, receipts_eq_charges haccounted]
  intro row hrow hrun
  rcases mem_modify_spend (SpendRow.settled_key _) hrow with ⟨old, hold, htest, rfl⟩ | ⟨hold, -⟩
  · have hcovered : charges store settled ≤ old.amount := by
      rw [← isSpendOf_iff.mp htest]
      exact hsound.covered old hold
    exact hcovered.trans (h old hold hrun)
  · exact h row hold hrun

/-- No move raises what is held for a run. -/
theorem SpendAtMost.move (hmove : Move deployment fresh ends prices store after)
    (hfresh : ¬fresh runId) (hsound : LedgerSound deployment store)
    (h : SpendAtMost runId amount store) : SpendAtMost runId amount after := by
  cases hmove with
  | elsewhere _ _ hspend _ => exact fun row hrow => h row (hspend ▸ hrow)
  | admission _ hspend hnew _ hrun =>
    intro row hrow hsame
    rcases (Table.mem_insert? hspend).mp hrow with hold | rfl
    · exact h row hold hsame
    · exact absurd (hsame ▸ hrun ▸ hnew) hfresh
  | pend => exact h.pend _
  | settle => exact h.settle hsound _
  | archive => exact fun row hrow => h row (Table.mem_delete.mp hrow).1
  | _ => exact h

structure MoneyKept (earlier later : HostedStore) : Prop where
  charges : ∀ row ∈ earlier.runs, charges later row.runId ≤ row.envelope
  spend : ∀ row ∈ earlier.spend, ∀ other ∈ later.spend, other.runId = row.runId →
    other.amount ≤ row.amount

theorem Custody.moneyKept {system : System} (h : Custody deployment system) (later : List Call) :
    MoneyKept system.store (Machine.after (Hosted.next deployment) system later).store where
  charges := by
    intro row hrow
    have hwithin : WithinEnvelope row.runId row.envelope system.store := by
      refine ⟨fun other hother hsame => ?_, h.sound.envelope row hrow⟩
      rw [run_eq hother hrow hsame]
    have hlater : WithinEnvelope row.runId row.envelope
        (Machine.after (Hosted.next deployment) system later).store :=
      h.stable (fun hmove hfresh _ hinv => WithinEnvelope.move hmove hfresh hinv)
        (h.ids.runs row hrow) hwithin later
    exact hlater.charged
  spend := by
    intro row hrow
    have hatMost : SpendAtMost row.runId row.amount system.store := by
      intro other hother hsame
      rw [spend_eq hother hrow hsame]
    exact h.stable (fun hmove hfresh hsound hinv => SpendAtMost.move hmove hfresh hsound hinv)
      (h.ids.spend row hrow) hatMost later

/-- The hosted money ledger.  In every reachable store no run is charged beyond its
envelope, the spend of a run covers its charges and is the sum of its receipts once
it is settled, and the caps of every day and of the event hold; whatever calls
follow, the charges of a run stay within its envelope and its spend never rises. -/
theorem money_ledger_kept (deployment : Deployment) (calls later : List Call) :
    (∀ row ∈ (reached deployment calls).store.runs,
        charges (reached deployment calls).store row.runId ≤ row.envelope) ∧
      (∀ row ∈ (reached deployment calls).store.spend,
        charges (reached deployment calls).store row.runId ≤ row.amount ∧
          (row.status = .settled → hasUnsettled (reached deployment calls).store row.runId = false ∧
            row.amount = receipts (reached deployment calls).store row.runId)) ∧
      MoneyKept (reached deployment calls).store (reached deployment (calls ++ later)).store ∧
      (∀ day, daySpend (reached deployment calls).store day ≤ deployment.settings.dayUsd) ∧
      eventSpend (reached deployment calls).store deployment.settings.eventId ≤
        deployment.settings.eventUsd := by
  have hcustody := custody_reached deployment calls
  have hsound := hcustody.sound
  refine ⟨hsound.envelope, fun row hrow => ⟨hsound.covered row hrow, fun hsettled => ?_⟩, ?_,
    hsound.day, hsound.event⟩
  · have haccounted := hsound.accounted row hrow hsettled
    refine ⟨hasUnsettled_eq_false.mpr haccounted, ?_⟩
    rw [receipts_eq_charges haccounted]
    exact hsound.exact row hrow hsettled
  · have hlater : reached deployment (calls ++ later) =
        Machine.after (next deployment) (reached deployment calls) later := Machine.after_append _ _ _
    rw [hlater]
    exact hcustody.moneyKept later

end ProofOps.Api.Hosted
