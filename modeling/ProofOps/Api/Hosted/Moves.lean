import ProofOps.Api.Hosted.Store

/-!
# Moves of the hosted store

The elementary moves that every body is made of: a run is admitted, copied,
started, rewritten or dropped, a cost is reserved or priced, spend is left
pending, settled or archived.  A move is allowed by what it finds, not by who makes
it, so an invariant of the moves is an invariant of every order of bodies.

`fresh` says which run identifiers may be new, `ends` which published runs may be
ended and `prices` which calls may be accounted for.
-/

namespace ProofOps.Api.Hosted

open Foundation

/-- Rewriting a row never brings a run back. -/
structure Rewrites (ends : RunRow → Prop) (before after : RunRow) : Prop where
  key : after.key = before.key
  document : after.document = before.document
  userHash : after.userHash = before.userHash
  envelope : after.envelope = before.envelope
  active : after.status = .queued ∨ after.status = .running → after.status = before.status
  terminal : before.status.Terminal → after.status.Terminal
  published : before.status.Terminal → after.status = before.status ∨ ends before

inductive Move (deployment : Deployment) (fresh : String → Prop) (ends : RunRow → Prop)
    (prices : CallKey → Prop) : HostedStore → HostedStore → Prop
  | elsewhere {store after : HostedStore} (hruns : after.runs = store.runs)
      (hcosts : after.costs = store.costs) (hspend : after.spend = store.spend)
      (htotals : after.eventTotals = store.eventTotals) : Move deployment fresh ends prices store after
  | admission {store : HostedStore} {row : RunRow} {envelope : SpendRow}
      {runs : Table RunRow RunRow.key} {spend : Table SpendRow SpendRow.key}
      (hruns : store.runs.insert? row = some runs) (hspend : store.spend.insert? envelope = some spend)
      (hfresh : fresh row.runId) (hqueued : row.status = .queued) (hrun : envelope.runId = row.runId)
      (hamount : envelope.amount = row.envelope) (hreserved : envelope.status = .reserved)
      (hfree : ∀ cost ∈ store.costs, cost.runId ≠ row.runId)
      (hday : daySpend store envelope.day + envelope.amount ≤ deployment.settings.dayUsd)
      (hcap : eventSpend store deployment.settings.eventId + envelope.amount ≤
        deployment.settings.eventUsd) :
      Move deployment fresh ends prices store { store with runs := runs, spend := spend }
  | copy {store : HostedStore} {row : RunRow} {runs : Table RunRow RunRow.key}
      (hruns : store.runs.insert? row = some runs) (hfresh : fresh row.runId)
      (hterminal : row.status.Terminal) (hfree : ∀ cost ∈ store.costs, cost.runId ≠ row.runId) :
      Move deployment fresh ends prices store { store with runs := runs }
  | start {store : HostedStore} {row : RunRow} {now : ℚ} (hrow : row ∈ store.runs)
      (hqueued : row.status = .queued)
      (hmax : runningCount store (fun _ => true) < deployment.settings.maxActiveRuns)
      (huser : runningCount store (fun other => other.userHash = row.userHash) <
        deployment.settings.userActiveRuns)
      (hdocument : runningCount store (fun other => other.document = row.document) = 0) :
      Move deployment fresh ends prices store
        { store with
          runs := store.runs.modify (isRun row.runId) (RunRow.started now) (RunRow.started_key now) }
  | rewrite {store : HostedStore} {test : RunRow → Bool} {change : RunRow → RunRow}
      {keeps : ∀ row, RunRow.key (change row) = RunRow.key row}
      (hrewrites : ∀ row ∈ store.runs, test row = true → Rewrites ends row (change row)) :
      Move deployment fresh ends prices store { store with runs := store.runs.modify test change keeps }
  | drop {store : HostedStore} {test : RunRow → Bool}
      (hends : ∀ row ∈ store.runs, test row = true → ends row) :
      Move deployment fresh ends prices store { store with runs := store.runs.delete test }
  | reserve {store : HostedStore} {row : RunRow} {cost : CostRow} {costs : Table CostRow CostRow.key}
      (hrow : row ∈ store.runs) (hrunning : row.status = .running) (hrun : cost.runId = row.runId)
      (hroom : charges store row.runId + cost.bound ≤ row.envelope)
      (hcosts : store.costs.insert? cost = some costs) (hreserved : cost.status = .reserved) :
      Move deployment fresh ends prices store { store with costs := costs }
  | price {store : HostedStore} {test : CostRow → Bool} {change : CostRow → CostRow}
      {keeps : ∀ cost, CostRow.key (change cost) = CostRow.key cost}
      (hprices : ∀ cost ∈ store.costs, test cost = true → prices cost.key)
      (hopen : ∀ cost ∈ store.costs, test cost = true → cost.status ≠ .settled)
      (hbound : ∀ cost, (change cost).bound = cost.bound)
      (hcharge : ∀ cost ∈ store.costs, test cost = true → (change cost).charge ≤ cost.charge) :
      Move deployment fresh ends prices store { store with costs := store.costs.modify test change keeps }
  | pend {store : HostedStore} {test : SpendRow → Bool} :
      Move deployment fresh ends prices store
        { store with spend := store.spend.modify test SpendRow.pending SpendRow.pending_key }
  | settle {store : HostedStore} {runId : String}
      (hclosed : ∀ row ∈ store.runs, row.runId = runId → row.status.Terminal) :
      Move deployment fresh ends prices store (settleEnvelope store runId)
  | archive {store : HostedStore} {row : SpendRow} (hrow : row ∈ store.spend)
      (hsettled : row.status = .settled) :
      Move deployment fresh ends prices store (archiveSpend store row)

abbrev Moves (deployment : Deployment) (fresh : String → Prop) (ends : RunRow → Prop)
    (prices : CallKey → Prop) : HostedStore → HostedStore → Prop :=
  Relation.ReflTransGen (Move deployment fresh ends prices)

variable {deployment : Deployment} {fresh : String → Prop} {ends : RunRow → Prop}
  {prices : CallKey → Prop}

variable {store after : HostedStore} {other : CallKey → Prop}

theorem Move.mono (himp : ∀ key, prices key → other key)
    (h : Move deployment fresh ends prices store after) :
    Move deployment fresh ends other store after := by
  cases h with
  | elsewhere hruns hcosts hspend htotals => exact Move.elsewhere hruns hcosts hspend htotals
  | admission hruns hspend hfresh hqueued hrun hamount hreserved hfree hday hcap =>
    exact Move.admission hruns hspend hfresh hqueued hrun hamount hreserved hfree hday hcap
  | copy hruns hfresh hterminal hfree => exact Move.copy hruns hfresh hterminal hfree
  | start hrow hqueued hmax huser hdocument => exact Move.start hrow hqueued hmax huser hdocument
  | rewrite hrewrites => exact Move.rewrite hrewrites
  | drop hends => exact Move.drop hends
  | reserve hrow hrunning hrun hroom hcosts hreserved =>
    exact Move.reserve hrow hrunning hrun hroom hcosts hreserved
  | price hprices hopen hbound hcharge =>
    exact Move.price (fun cost hcost htest => himp _ (hprices cost hcost htest)) hopen hbound
      hcharge
  | pend => exact Move.pend
  | settle hclosed => exact Move.settle hclosed
  | archive hrow hsettled => exact Move.archive hrow hsettled

theorem Moves.mono (himp : ∀ key, prices key → other key)
    (h : Moves deployment fresh ends prices store after) :
    Moves deployment fresh ends other store after := by
  induction h with
  | refl => exact Relation.ReflTransGen.refl
  | tail _ hlast ih => exact ih.tail (hlast.mono himp)

theorem Moves.invariant {inv : HostedStore → Prop}
    (hmove : ∀ {store after}, Move deployment fresh ends prices store after → inv store → inv after)
    (h : Moves deployment fresh ends prices store after) (hinv : inv store) : inv after := by
  induction h with
  | refl => exact hinv
  | tail _ hlast ih => exact hmove hlast ih

theorem Moves.related {rel : HostedStore → HostedStore → Prop} (hrefl : ∀ store, rel store store)
    (htrans : ∀ {first second third}, rel first second → rel second third → rel first third)
    (hmove : ∀ {store after}, Move deployment fresh ends prices store after → rel store after)
    (h : Moves deployment fresh ends prices store after) : rel store after := by
  induction h with
  | refl => exact hrefl store
  | tail _ hlast ih => exact htrans ih (hmove hlast)

/-! ### Tests on rows -/

variable {runId : String}

@[simp]
theorem isRun_iff {row : RunRow} : isRun runId row = true ↔ row.runId = runId := by
  simp [isRun]

@[simp]
theorem isCostOf_iff {cost : CostRow} : isCostOf runId cost = true ↔ cost.runId = runId := by
  simp [isCostOf]

@[simp]
theorem isSpendOf_iff {row : SpendRow} : isSpendOf runId row = true ↔ row.runId = runId := by
  simp [isSpendOf]

theorem hasUnsettled_eq_false :
    hasUnsettled store runId = false ↔
      ∀ cost ∈ store.costs, cost.runId = runId → cost.status = .settled := by
  unfold hasUnsettled
  simp [isCostOf]

theorem hasCost_eq_false :
    hasCost store runId = false ↔ ∀ cost ∈ store.costs, cost.runId ≠ runId := by
  unfold hasCost
  simp [isCostOf]

/-- A run has one row. -/
theorem run_eq {first second : RunRow} (hfirst : first ∈ store.runs)
    (hsecond : second ∈ store.runs) (h : first.runId = second.runId) : first = second :=
  Table.eq_of_key_eq hfirst hsecond h

theorem spend_eq {first second : SpendRow} (hfirst : first ∈ store.spend)
    (hsecond : second ∈ store.spend) (h : first.runId = second.runId) : first = second :=
  Table.eq_of_key_eq hfirst hsecond h

theorem settleEnvelope_cases (store : HostedStore) (runId : String) :
    settleEnvelope store runId = pendSpend store runId ∨
      ((∀ cost ∈ store.costs, cost.runId = runId → cost.status = .settled) ∧
        settleEnvelope store runId = { store with
          spend := store.spend.modify (isSpendOf runId) (SpendRow.settled (receipts store runId))
            (SpendRow.settled_key _) }) := by
  unfold settleEnvelope
  split_ifs with hunsettled
  · exact Or.inl rfl
  · exact Or.inr ⟨hasUnsettled_eq_false.mp (by simpa using hunsettled), rfl⟩

theorem settleEnvelope_runs (store : HostedStore) (runId : String) :
    (settleEnvelope store runId).runs = store.runs := by
  rcases settleEnvelope_cases store runId with h | ⟨-, h⟩
  · rw [h, pendSpend]
  · rw [h]

theorem settleEnvelope_costs (store : HostedStore) (runId : String) :
    (settleEnvelope store runId).costs = store.costs := by
  rcases settleEnvelope_cases store runId with h | ⟨-, h⟩
  · rw [h, pendSpend]
  · rw [h]

theorem settleEnvelope_eventTotals (store : HostedStore) (runId : String) :
    (settleEnvelope store runId).eventTotals = store.eventTotals := by
  rcases settleEnvelope_cases store runId with h | ⟨-, h⟩
  · rw [h, pendSpend]
  · rw [h]

theorem settleEnvelope_spend_congr {other : HostedStore} (hcosts : other.costs = store.costs)
    (hspend : other.spend = store.spend) (runId : String) :
    (settleEnvelope other runId).spend = (settleEnvelope store runId).spend := by
  unfold settleEnvelope hasUnsettled pendSpend receipts
  rw [hcosts]
  split_ifs <;> simp [hspend]

end ProofOps.Api.Hosted
