import ProofOps.Api.Hosted.Admission
import ProofOps.Api.Hosted.Moves

/-!
# Bodies are moves

Each body of the hosted store is a list of elementary moves.  A body that looks up
a fenced run rewrites a running row; only a cancellation and a deletion rewrite
rows that are terminal already.
-/

namespace ProofOps.Api.Hosted

open Foundation Foundation.Checked

variable {deployment : Deployment} {fresh : String → Prop} {ends : RunRow → Prop}
  {prices : CallKey → Prop}

theorem Rewrites.of_active {before after : RunRow} (hactive : ¬before.status.Terminal)
    (hkey : after.key = before.key) (hdocument : after.document = before.document)
    (huser : after.userHash = before.userHash) (henvelope : after.envelope = before.envelope)
    (hout : after.status ≠ .queued ∧ after.status ≠ .running) : Rewrites ends before after where
  key := hkey
  document := hdocument
  userHash := huser
  envelope := henvelope
  active := by
    rintro (h | h)
    · exact absurd h hout.1
    · exact absurd h hout.2
  terminal := fun h => absurd h hactive
  published := fun h => absurd h hactive

theorem Rewrites.renewed (row : RunRow) (leaseUntil : ℚ) :
    Rewrites ends row (row.renewed leaseUntil) where
  key := rfl
  document := rfl
  userHash := rfl
  envelope := rfl
  active := fun _ => rfl
  terminal := id
  published := fun _ => Or.inl rfl

variable {row : RunRow}

theorem Rewrites.cancelled (hends : ends row) : Rewrites ends row row.cancelled where
  key := rfl
  document := rfl
  userHash := rfl
  envelope := rfl
  active := by rintro (h | h) <;> cases h
  terminal := fun _ => trivial
  published := fun _ => Or.inr hends

variable {store : HostedStore} {document : DocumentKey}

theorem getDocument_ok {row : DocumentRow} (h : getDocument store document = .ok row) :
    store.documents.find document = some row ∧ isDeleted store document = false := by
  unfold getDocument at h
  cases hfound : store.documents.find document with
  | none => simp [hfound] at h
  | some found =>
    simp only [hfound] at h
    split_ifs at h with hdeleted
    cases h
    exact ⟨rfl, by simpa using hdeleted⟩

variable {runId : String} {tenantId : String}

theorem getRun_ok (h : getRun store tenantId runId = .ok row) :
    store.runs.find runId = some row ∧ row.tenantId = tenantId ∧
      isDeleted store row.document = false := by
  unfold getRun at h
  cases hfound : store.runs.find runId with
  | none => simp [hfound] at h
  | some found =>
    simp only [hfound] at h
    split_ifs at h with htenant
    obtain ⟨document, hdocument, rfl⟩ := map_ok_iff.mp h
    exact ⟨rfl, htenant, (getDocument_ok hdocument).2⟩

structure Fenced (store : HostedStore) (job : Job) (now : ℚ) (row : RunRow) : Prop where
  found : store.runs.find job.runId = some row
  running : row.status = .running
  fence : row.fence = job.fence
  lease : now < row.leaseUntil
  visible : isDeleted store row.document = false

variable {job : Job} {now : ℚ}

theorem fenced_ok (h : fenced store job now = .ok row) : Fenced store job now row := by
  obtain ⟨found, hfound, h⟩ := bind_ok h
  split_ifs at h with hholds
  cases h
  obtain ⟨hfind, -, hvisible⟩ := getRun_ok hfound
  simp only [RunRow.holds, decide_eq_true_eq] at hholds
  exact ⟨hfind, hholds.1, hholds.2.1, hholds.2.2, hvisible⟩

theorem Fenced.mem (h : Fenced store job now row) : row ∈ store.runs ∧ row.runId = job.runId :=
  Table.find_eq_some_iff.mp h.found

theorem Fenced.running_of_run {other : RunRow} (h : Fenced store job now row)
    (hother : other ∈ store.runs) (hrun : other.runId = job.runId) : other.status = .running := by
  have hsame : other = row := run_eq hother h.mem.1 (hrun.trans h.mem.2.symm)
  rw [hsame]
  exact h.running

theorem mem_modify_run {runs : Table RunRow RunRow.key} {change : RunRow → RunRow}
    (keeps : ∀ row, RunRow.key (change row) = RunRow.key row)
    (h : row ∈ runs.modify (isRun runId) change keeps) :
    (∃ old ∈ runs, old.runId = runId ∧ change old = row) ∨ (row ∈ runs ∧ row.runId ≠ runId) := by
  obtain ⟨old, hold, rfl⟩ := Table.mem_modify.mp h
  split_ifs with htest
  · exact Or.inl ⟨old, hold, isRun_iff.mp htest, rfl⟩
  · exact Or.inr ⟨hold, fun hrun => htest (isRun_iff.mpr hrun)⟩

variable {status : RunStatus} {errorCode : Option String}

theorem finishRun_moves (hterminal : status.Terminal)
    (hrunning : ∀ row ∈ store.runs, row.runId = runId → row.status = .running) :
    Moves deployment fresh ends prices store
      (settleEnvelope (finishRun store runId status errorCode) runId) := by
  have hfinished : Move deployment fresh ends prices store
      (finishRun store runId status errorCode) := by
    refine Move.rewrite fun row hrow htest => ?_
    have hactive := hrunning row hrow (isRun_iff.mp htest)
    refine Rewrites.of_active (by rw [hactive]; exact id) rfl rfl rfl rfl ?_
    constructor
    · rintro (rfl : status = .queued)
      exact hterminal
    · rintro (rfl : status = .running)
      exact hterminal
  refine (Relation.ReflTransGen.single hfinished).tail (Move.settle fun row hrow hrun => ?_)
  rcases mem_modify_run (RunRow.finished_key status errorCode) hrow with
    ⟨old, -, -, rfl⟩ | ⟨-, hne⟩
  · exact hterminal
  · exact absurd hrun hne

variable {after : HostedStore}

theorem finish_moves (h : finish store job status now = .ok after) :
    Moves deployment fresh ends prices store after := by
  unfold finish at h
  split_ifs at h with hrefused
  rw [not_or, not_not] at hrefused
  obtain ⟨row, hfenced, h⟩ := bind_ok h
  cases pure_ok h
  have hheld := fenced_ok hfenced
  exact finishRun_moves hrefused.1 fun other hother => hheld.running_of_run hother

variable {sha256 : String}

theorem publishRows_ok (h : publishRows store runId sha256 = .ok after) :
    after = { store with snapshots := after.snapshots, progress := after.progress } ∧
      store.snapshots.insert? { runId := runId, revision := 1, sha256 := sha256 } =
        some after.snapshots ∧
      after.progress = store.progress.put
        { runId := runId, stage := "result", progress := 100, resultReady := true } := by
  obtain ⟨snapshots, hsnapshots, h⟩ := bind_ok h
  cases pure_ok h
  exact ⟨rfl, Table.insertOr_ok hsnapshots, rfl⟩

theorem publishAnalysis_ok (h : publishAnalysis store job status errorCode sha256 now = .ok after) :
    ∃ row published, Fenced store job now row ∧ status.Published ∧
      publishRows store job.runId sha256 = .ok published ∧
      after = settleEnvelope (finishRun published job.runId status errorCode) job.runId := by
  unfold publishAnalysis at h
  split_ifs at h with hstatus
  obtain ⟨row, hfenced, h⟩ := bind_ok h
  replace h := rest_ok h
  obtain ⟨published, hpublished, h⟩ := bind_ok h
  cases pure_ok h
  exact ⟨row, published, fenced_ok hfenced, hstatus, hpublished, rfl⟩

theorem publishAnalysis_moves
    (h : publishAnalysis store job status errorCode sha256 now = .ok after) :
    Moves deployment fresh ends prices store after := by
  obtain ⟨row, published, hheld, hstatus, hpublished, rfl⟩ := publishAnalysis_ok h
  obtain ⟨hrows, -, -⟩ := publishRows_ok hpublished
  have hruns : published.runs = store.runs := by rw [hrows]
  have helse : Move deployment fresh ends prices store published := by
    refine Move.elsewhere hruns ?_ ?_ ?_ <;> rw [hrows]
  refine (Relation.ReflTransGen.single helse).trans
    (finishRun_moves hstatus.terminal fun other hother hrun => ?_)
  rw [hruns] at hother
  exact hheld.running_of_run hother hrun

theorem failTick_moves (store : HostedStore) (job : Job) (code : String) :
    Moves deployment fresh ends prices store (failTick deployment store job code) := by
  unfold failTick
  cases hfound : store.runs.find job.runId with
  | none => exact Relation.ReflTransGen.refl
  | some row =>
    dsimp only
    split_ifs with hheld
    · refine finishRun_moves trivial fun other hother hrun => ?_
      obtain ⟨hrow, hkey⟩ := Table.find_eq_some_iff.mp hfound
      have hsame : other = row := run_eq hother hrow (hrun.trans hkey.symm)
      rw [hsame]
      exact hheld.1
    · exact Relation.ReflTransGen.refl

/-! ### Leases -/

theorem renewRun_moves (store : HostedStore) (runId : String) (leaseUntil : ℚ) :
    Moves deployment fresh ends prices store (renewRun store runId leaseUntil) :=
  Relation.ReflTransGen.single (Move.rewrite fun row _ _ => Rewrites.renewed row leaseUntil)

theorem renewLease_moves (h : renewLease store job now = .ok after) :
    Moves deployment fresh ends prices store after := by
  obtain ⟨row, -, h⟩ := bind_ok h
  cases pure_ok h
  exact renewRun_moves store job.runId _

theorem updateProgress_moves {stage : String} {progress : Nat}
    (h : updateProgress store job stage progress now = .ok after) :
    Moves deployment fresh ends prices store after := by
  obtain ⟨row, -, h⟩ := bind_ok h
  cases pure_ok h
  exact (renewRun_moves store job.runId _).tail (Move.elsewhere rfl rfl rfl rfl)

/-- Expiry of one run, which a leaseless active run allows. -/
theorem expireOne_moves (hactive : ∀ row ∈ store.runs, row.runId = runId → ¬row.status.Terminal) :
    Moves deployment fresh ends prices store (expireOne store runId) := by
  unfold expireOne
  split_ifs
  · have hunsent : Move deployment fresh ends prices store
        { store with runs := store.runs.modify (isRun runId) RunRow.unsent RunRow.unsent_key } := by
      refine Move.rewrite fun row hrow htest => ?_
      exact Rewrites.of_active (hactive row hrow (isRun_iff.mp htest)) rfl rfl rfl rfl ⟨by rintro ⟨⟩, by rintro ⟨⟩⟩
    refine (Relation.ReflTransGen.single hunsent).tail (Move.settle fun row hrow hrun => ?_)
    rcases mem_modify_run RunRow.unsent_key hrow with ⟨old, -, -, rfl⟩ | ⟨-, hne⟩
    · exact trivial
    · exact absurd hrun hne
  · have hlost : Move deployment fresh ends prices store
        { store with runs := store.runs.modify (isRun runId) RunRow.lost RunRow.lost_key } := by
      refine Move.rewrite fun row hrow htest => ?_
      exact Rewrites.of_active (hactive row hrow (isRun_iff.mp htest)) rfl rfl rfl rfl ⟨by rintro ⟨⟩, by rintro ⟨⟩⟩
    exact (Relation.ReflTransGen.single hlost).tail Move.pend

theorem mem_expireOne_runs (hrow : row ∈ (expireOne store runId).runs) (hother : row.runId ≠ runId)
    : row ∈ store.runs := by
  have hmodified : (∃ old ∈ store.runs, old.runId = runId ∧ (old.unsent = row ∨ old.lost = row)) ∨
      (row ∈ store.runs ∧ row.runId ≠ runId) := by
    unfold expireOne at hrow
    split_ifs at hrow
    · rw [settleEnvelope_runs] at hrow
      rcases mem_modify_run RunRow.unsent_key hrow with ⟨old, hold, hrun, hrow⟩ | hkept
      · exact Or.inl ⟨old, hold, hrun, Or.inl hrow⟩
      · exact Or.inr hkept
    · rcases mem_modify_run RunRow.lost_key hrow with ⟨old, hold, hrun, hrow⟩ | hkept
      · exact Or.inl ⟨old, hold, hrun, Or.inr hrow⟩
      · exact Or.inr hkept
  rcases hmodified with ⟨old, -, hrun, rfl | rfl⟩ | ⟨hkept, -⟩
  · exact absurd hrun hother
  · exact absurd hrun hother
  · exact hkept

variable {runIds : List String}

theorem expireAll_moves (hnodup : runIds.Nodup)
    (hactive : ∀ runId ∈ runIds, ∀ row ∈ store.runs, row.runId = runId → ¬row.status.Terminal) :
    Moves deployment fresh ends prices store (runIds.foldl expireOne store) := by
  induction runIds generalizing store with
  | nil => exact Relation.ReflTransGen.refl
  | cons runId rest ih =>
    rw [List.nodup_cons] at hnodup
    refine (expireOne_moves (hactive runId List.mem_cons_self)).trans (ih hnodup.2 ?_)
    intro other hother row hrow hrun
    have hne : row.runId ≠ runId := by
      rintro rfl
      exact hnodup.1 (hrun ▸ hother)
    exact hactive other (List.mem_cons_of_mem runId hother) row (mem_expireOne_runs hrow hne) hrun

theorem not_terminal_of_isExpired (h : isExpired now row = true) : ¬row.status.Terminal := by
  simp only [isExpired, decide_eq_true_eq] at h
  rcases h with ⟨hstatus, -⟩ | ⟨hstatus, -⟩ <;> rw [hstatus] <;> exact id

theorem expireRunning_moves (store : HostedStore) (now : ℚ) :
    Moves deployment fresh ends prices store (expireRunning store now) := by
  refine expireAll_moves ?_ ?_
  · exact store.runs.nodup.sublist (List.filter_sublist.map RunRow.runId)
  · intro runId hrunId row hrow hrun
    obtain ⟨expired, hexpired, rfl⟩ := List.mem_map.mp hrunId
    obtain ⟨hmem, htest⟩ := List.mem_filter.mp hexpired
    have hsame : row = expired := run_eq hrow hmem hrun
    rw [hsame]
    exact not_terminal_of_isExpired htest

theorem nextQueued_some (h : nextQueued deployment store = some row) :
    row ∈ store.runs ∧ isEligible deployment store row = true := by
  have hmem := List.mem_of_mem_head? h
  rw [List.mem_insertionSort, List.mem_filter] at hmem
  exact hmem

variable {claimed : Option RunRow}

theorem startRun_ok (h : startRun store now row = .ok (claimed, after)) :
    after = { store with
      runs := store.runs.modify (isRun row.runId) (RunRow.started now) (RunRow.started_key now) } := by
  obtain ⟨document, -, h⟩ := bind_ok h
  simp only [pure_ok_iff, Prod.mk.injEq] at h
  exact h.2.symm

theorem claim_moves (h : claim deployment store now = .ok (claimed, after)) :
    Moves deployment fresh ends prices store after := by
  have hexpired : Moves deployment fresh ends prices store (expireRunning store now) :=
    expireRunning_moves store now
  unfold claim at h
  dsimp only at h
  split_ifs at h with hclosed
  · cases h
    exact hexpired
  · rw [not_or, not_le] at hclosed
    cases hnext : nextQueued deployment (expireRunning store now) with
    | none =>
      simp only [hnext] at h
      cases h
      exact hexpired
    | some row =>
      simp only [hnext] at h
      obtain ⟨hrow, heligible⟩ := nextQueued_some hnext
      simp only [isEligible, decide_eq_true_eq] at heligible
      obtain ⟨hqueued, hdocument, huser⟩ := heligible
      rw [startRun_ok h]
      exact hexpired.tail (Move.start hrow hqueued hclosed.2 huser hdocument)

/-! ### Dispatching -/

structure Reserved (store after : HostedStore) (job : Job) (request : DispatchRequest)
    (now created : ℚ) : Prop where
  fenced : ∃ row, Fenced store job now row ∧
    charges store job.runId + request.bound ≤ row.envelope
  free : store.costs.find (job.runId, request.callId) = none
  inserted : store.costs.insert? (request.cost job.runId created) = some after.costs
  rest : after = { store with costs := after.costs }

theorem reserve_ok {request : DispatchRequest} {created : ℚ}
    (h : reserve store job request now created = .ok after) :
    Reserved store after job request now created := by
  replace h := rest_ok h
  obtain ⟨row, hfenced, h⟩ := bind_ok h
  split_ifs at h with hrecorded hover
  obtain ⟨costs, hcosts, h⟩ := bind_ok h
  cases pure_ok h
  exact
    { fenced := ⟨row, fenced_ok hfenced, not_lt.mp hover⟩
      free := by simpa using hrecorded
      inserted := Table.insertOr_ok hcosts
      rest := rfl }

variable {key : CallKey}

@[simp]
theorem isReserved_iff {cost : CostRow} :
    isReserved key cost = true ↔ cost.key = key ∧ cost.status = .reserved := by
  simp [isReserved]

theorem charge_of_reserved {cost : CostRow} (h : cost.status = .reserved) :
    cost.charge = cost.bound := by
  unfold CostRow.charge
  rw [if_neg]
  rw [h]
  exact nofun

theorem priceCall_move {actual : Nat} (hkey : prices key)
    (hactual : ∀ cost ∈ store.costs, cost.key = key → actual ≤ cost.bound) :
    Move deployment fresh ends prices store (priceCall store key actual) := by
  refine Move.price ?_ ?_ (fun _ => rfl) ?_
  · intro cost _ htest
    rw [(isReserved_iff.mp htest).1]
    exact hkey
  · intro cost _ htest
    rw [(isReserved_iff.mp htest).2]
    exact nofun
  · intro cost hcost htest
    obtain ⟨hsame, hreserved⟩ := isReserved_iff.mp htest
    rw [charge_of_reserved hreserved]
    exact hactual cost hcost hsame

theorem isClosed_iff :
    isClosed store runId = true ↔ ∀ row ∈ store.runs, row.runId = runId → row.status.Terminal := by
  unfold isClosed
  constructor
  · rintro h row hrow rfl
    rw [show store.runs.find row.runId = some row from Table.find_of_mem hrow] at h
    simpa using h
  · intro h
    cases hfound : store.runs.find runId with
    | none => rfl
    | some row =>
      obtain ⟨hrow, hkey⟩ := Table.find_eq_some_iff.mp hfound
      simpa using h row hrow hkey

theorem settleReceipt_moves {actual : Nat} (hkey : prices key)
    (hactual : ∀ cost ∈ store.costs, cost.key = key → actual ≤ cost.bound) :
    Moves deployment fresh ends prices store (settleReceipt store key actual) := by
  have hprice : Moves deployment fresh ends prices store (priceCall store key actual) :=
    Relation.ReflTransGen.single (priceCall_move hkey hactual)
  unfold settleReceipt
  dsimp only
  split_ifs with hclosed
  · exact hprice.tail (Move.settle (isClosed_iff.mp hclosed))
  · exact hprice

theorem holdRun_moves (store : HostedStore) (job : Job) (failure : DispatchFailure) :
    Moves deployment fresh ends prices store (holdRun store job failure) := by
  unfold holdRun
  split_ifs
  · refine Relation.ReflTransGen.single (Move.rewrite fun row _ htest => ?_)
    simp only [isHeldBy, decide_eq_true_eq] at htest
    refine Rewrites.of_active (by rw [htest.2.1]; exact id) rfl rfl rfl rfl ?_
    unfold RunRow.held
    split_ifs <;> exact ⟨by rintro ⟨⟩, by rintro ⟨⟩⟩
  · exact Relation.ReflTransGen.refl

theorem settleFailure_moves (store : HostedStore) (job : Job) (callId : String)
    (failure : DispatchFailure) (hkey : prices (job.runId, callId)) :
    Moves deployment fresh ends prices store (settleFailure store job callId failure) := by
  have hunpriced : Move deployment fresh ends prices store { store with
      costs := store.costs.modify (isReserved (job.runId, callId)) CostRow.unpriced
        CostRow.unpriced_key } := by
    refine Move.price ?_ ?_ (fun _ => rfl) ?_
    · intro cost _ htest
      rw [(isReserved_iff.mp htest).1]
      exact hkey
    · intro cost _ htest
      rw [(isReserved_iff.mp htest).2]
      exact nofun
    · intro cost _ htest
      rw [charge_of_reserved (isReserved_iff.mp htest).2]
      exact le_rfl
  exact ((Relation.ReflTransGen.single hunpriced).trans (holdRun_moves _ job failure)).tail Move.pend

/-! ### Cancelling and deleting -/

variable {auth : Auth}

theorem cancel_ok (h : cancel deployment store auth runId = .ok after) :
    (∃ row, store.runs.find runId = some row) ∧ after = settleEnvelope
      { store with runs := store.runs.modify (isRun runId) RunRow.cancelled RunRow.cancelled_key }
      runId := by
  obtain ⟨row, hrow, h⟩ := bind_ok h
  split_ifs at h
  cases h
  exact ⟨⟨row, (getRun_ok hrow).1⟩, rfl⟩

theorem cancel_moves (h : cancel deployment store auth runId = .ok after) :
    Moves deployment fresh (fun row => row.runId = runId) prices store after := by
  obtain ⟨-, rfl⟩ := cancel_ok h
  have hcancelled : Move deployment fresh (fun row => row.runId = runId) prices store
      { store with runs := store.runs.modify (isRun runId) RunRow.cancelled RunRow.cancelled_key } :=
    Move.rewrite fun row _ htest => Rewrites.cancelled (isRun_iff.mp htest)
  refine (Relation.ReflTransGen.single hcancelled).tail (Move.settle fun row hrow hrun => ?_)
  rcases mem_modify_run RunRow.cancelled_key hrow with ⟨old, -, -, rfl⟩ | ⟨-, hne⟩
  · exact trivial
  · exact absurd hrun hne

@[simp]
theorem isRunOf_iff : isRunOf document row = true ↔ row.document = document := by
  simp [isRunOf]

variable {key : String} {documentId : String}

theorem deleteDocument_ok
    (h : deleteDocument deployment store auth documentId key now = .ok after) :
    after = store ∨ ∃ tombstones, after = { store with
      tombstones := tombstones
      runs := store.runs.modify (isRunOf (auth.tenantId, documentId)) RunRow.cancelled
        RunRow.cancelled_key } := by
  unfold deleteDocument at h
  split_ifs at h with hkey hdeleted
  · replace h := rest_ok h
    cases h
    exact Or.inl rfl
  · replace h := rest_ok h
    obtain ⟨row, -, h⟩ := bind_ok h
    obtain ⟨tombstones, -, h⟩ := bind_ok h
    cases pure_ok h
    exact Or.inr ⟨tombstones, rfl⟩

theorem deleteDocument_moves
    (h : deleteDocument deployment store auth documentId key now = .ok after) :
    Moves deployment fresh (fun row => row.document = (auth.tenantId, documentId)) prices store
      after := by
  rcases deleteDocument_ok h with rfl | ⟨tombstones, rfl⟩
  · exact Relation.ReflTransGen.refl
  · have hcancelled : Move deployment fresh
        (fun row => row.document = (auth.tenantId, documentId)) prices store
        { store with
          runs := store.runs.modify (isRunOf (auth.tenantId, documentId)) RunRow.cancelled
            RunRow.cancelled_key } :=
      Move.rewrite fun row _ htest => Rewrites.cancelled (isRunOf_iff.mp htest)
    exact (Relation.ReflTransGen.single hcancelled).tail (Move.elsewhere rfl rfl rfl rfl)

section SettleAll

theorem settleAll_rest (store : HostedStore) (runIds : List String) :
    (runIds.foldl settleEnvelope store).runs = store.runs ∧
      (runIds.foldl settleEnvelope store).costs = store.costs ∧
      (runIds.foldl settleEnvelope store).eventTotals = store.eventTotals := by
  induction runIds generalizing store with
  | nil => exact ⟨rfl, rfl, rfl⟩
  | cons runId rest ih =>
    obtain ⟨hruns, hcosts, htotals⟩ := ih (settleEnvelope store runId)
    rw [settleEnvelope_runs] at hruns
    rw [settleEnvelope_costs] at hcosts
    rw [settleEnvelope_eventTotals] at htotals
    exact ⟨hruns, hcosts, htotals⟩

theorem settleAll_spend_congr {other : HostedStore} (hcosts : other.costs = store.costs)
    (hspend : other.spend = store.spend) (runIds : List String) :
    (runIds.foldl settleEnvelope other).spend = (runIds.foldl settleEnvelope store).spend := by
  induction runIds generalizing store other with
  | nil => exact hspend
  | cons runId rest ih =>
    refine ih ?_ (settleEnvelope_spend_congr hcosts hspend runId)
    rw [settleEnvelope_costs, settleEnvelope_costs, hcosts]

theorem settleAll_moves
    (hclosed : ∀ runId ∈ runIds, ∀ row ∈ store.runs, row.runId = runId → row.status.Terminal) :
    Moves deployment fresh ends prices store (runIds.foldl settleEnvelope store) := by
  induction runIds generalizing store with
  | nil => exact Relation.ReflTransGen.refl
  | cons runId rest ih =>
    refine (Relation.ReflTransGen.single (Move.settle (hclosed runId List.mem_cons_self))).trans
      (ih fun other hother row hrow hrun => ?_)
    rw [settleEnvelope_runs] at hrow
    exact hclosed other (List.mem_cons_of_mem runId hother) row hrow hrun

end SettleAll

theorem purge_moves (h : purge store document = .ok after) :
    Moves deployment fresh (fun row => row.document = document) prices store after := by
  unfold purge at h
  split_ifs at h
  simp only [Except.ok.injEq] at h
  subst h
  have hdrop : Move deployment fresh (fun row => row.document = document) prices store
      { store with runs := store.runs.delete (isRunOf document) } :=
    Move.drop fun row _ htest => isRunOf_iff.mp htest
  have hsettle : Moves deployment fresh (fun row => row.document = document) prices
      { store with runs := store.runs.delete (isRunOf document) }
      ((runsOf store document).foldl settleEnvelope
        { store with runs := store.runs.delete (isRunOf document) }) := by
    refine settleAll_moves fun runId hrunId row hrow hrun => ?_
    obtain ⟨dropped, hdropped, rfl⟩ := List.mem_map.mp hrunId
    obtain ⟨hmem, htest⟩ := List.mem_filter.mp hdropped
    obtain ⟨hkept, hother⟩ := Table.mem_delete.mp hrow
    have hsame : row = dropped := run_eq hkept hmem hrun
    rw [hsame, htest] at hother
    cases hother
  have hkept := settleAll_rest store (runsOf store document)
  have hdropped := settleAll_rest { store with runs := store.runs.delete (isRunOf document) }
    (runsOf store document)
  refine ((Relation.ReflTransGen.single hdrop).trans hsettle).tail (Move.elsewhere ?_ ?_ ?_ ?_)
  · exact hdropped.1.symm
  · exact hkept.2.1.trans hdropped.2.1.symm
  · refine settleAll_spend_congr ?_ ?_ (runsOf store document) <;> rfl
  · exact hkept.2.2.trans hdropped.2.2.symm

theorem buryAll_rest (deployment : Deployment) (now : ℚ) (store : HostedStore)
    (documents : List DocumentKey) :
    ∃ tombstones, documents.foldl (buryExpired deployment now) store =
      { store with tombstones := tombstones } := by
  induction documents generalizing store with
  | nil => exact ⟨store.tombstones, rfl⟩
  | cons document rest ih =>
    rw [List.foldl_cons]
    unfold buryExpired
    split_ifs
    · exact ih store
    · obtain ⟨tombstones, htombstones⟩ := ih { store with
        tombstones := store.tombstones.put
          { tenantId := document.1, documentId := document.2, created := now
            keyHash := deployment.digest "expiry" } }
      exact ⟨tombstones, htombstones⟩

theorem archiveAll_moves {rows : List SpendRow} (hnodup : (rows.map SpendRow.runId).Nodup)
    (hrows : ∀ row ∈ rows, row ∈ store.spend ∧ row.status = .settled) :
    Moves deployment fresh ends prices store (rows.foldl archiveSpend store) := by
  induction rows generalizing store with
  | nil => exact Relation.ReflTransGen.refl
  | cons row rest ih =>
    rw [List.map_cons, List.nodup_cons] at hnodup
    rw [List.forall_mem_cons] at hrows
    refine (Relation.ReflTransGen.single (Move.archive hrows.1.1 hrows.1.2)).trans
      (ih hnodup.2 fun other hother => ⟨?_, (hrows.2 other hother).2⟩)
    -- The other rows have other keys, so they are not archived yet.
    refine Table.mem_delete.mpr ⟨(hrows.2 other hother).1, ?_⟩
    have hne : other.runId ≠ row.runId := by
      intro heq
      exact hnodup.1 (heq ▸ List.mem_map_of_mem hother)
    simpa [isSpendOf] using hne

theorem maintain_moves (store : HostedStore) (now : ℚ) :
    Moves deployment fresh ends prices store (maintain deployment store now) := by
  unfold maintain
  dsimp only
  obtain ⟨tombstones, hburied⟩ := buryAll_rest deployment now (expireRunning store now)
    (expiredDocuments (expireRunning store now) now)
  rw [hburied]
  have helse : ∀ {pruned : HostedStore}, pruned.runs = (expireRunning store now).runs →
      pruned.costs = (expireRunning store now).costs →
      pruned.spend = (expireRunning store now).spend →
      pruned.eventTotals = (expireRunning store now).eventTotals →
      Moves deployment fresh ends prices store pruned := fun hruns hcosts hspend htotals =>
    (expireRunning_moves store now).tail (Move.elsewhere hruns hcosts hspend htotals)
  refine Relation.ReflTransGen.trans (helse ?_ ?_ ?_ ?_) (archiveAll_moves ?_ ?_)
  any_goals rfl
  · exact (expireRunning store now).spend.nodup.sublist (List.filter_sublist.map SpendRow.runId)
  · intro row hrow
    obtain ⟨hmem, htest⟩ := List.mem_filter.mp hrow
    simp only [isArchivable, decide_eq_true_eq] at htest
    exact ⟨hmem, htest.2⟩

/-! ### Admission -/

theorem remember_ok {route bodyHash resource document : String}
    (h : remember deployment store auth route key bodyHash resource document now = .ok after) :
    ∃ idempotency, after = { store with idempotency := idempotency } := by
  obtain ⟨idempotency, -, h⟩ := bind_ok h
  cases pure_ok h
  exact ⟨idempotency, rfl⟩

theorem upload_ok {request : UploadRequest} (h : upload deployment store auth request = .ok after) :
    ∃ documents owners idempotency, after = { store with
      documents := documents, owners := owners, idempotency := idempotency } := by
  replace h := rest_ok h
  obtain ⟨replayed, -, h⟩ := bind_ok h
  cases replayed with
  | some document =>
    obtain ⟨row, -, rfl⟩ := map_ok_iff.mp h
    exact ⟨_, _, _, rfl⟩
  | none =>
    obtain ⟨documents, -, h⟩ := bind_ok h
    obtain ⟨owners, -, h⟩ := bind_ok h
    obtain ⟨idempotency, rfl⟩ := remember_ok h
    exact ⟨_, _, _, rfl⟩

theorem checkBudget_ok (h : checkBudget deployment store now = .ok ()) :
    daySpend store (deployment.day now) + deployment.settings.runUsd ≤ deployment.settings.dayUsd ∧
      eventSpend store deployment.settings.eventId + deployment.settings.runUsd ≤
        deployment.settings.eventUsd := by
  unfold checkBudget at h
  dsimp only at h
  split_ifs at h with hover
  rw [not_or, not_lt, not_lt] at hover
  exact hover

variable {request : RunRequest} {selection : Selection}

theorem admitRun_moves (hfresh : fresh request.runId)
    (hfree : ∀ cost ∈ store.costs, cost.runId ≠ request.runId)
    (h : admitRun deployment store auth request selection = .ok after) :
    Moves deployment fresh ends prices store after := by
  replace h := rest_ok h
  obtain ⟨⟨⟩, hbudget, h⟩ := bind_ok h
  obtain ⟨runs, hruns, h⟩ := bind_ok h
  obtain ⟨spend, hspend, h⟩ := bind_ok h
  obtain ⟨idempotency, rfl⟩ := remember_ok h
  obtain ⟨hday, hcap⟩ := checkBudget_ok hbudget
  refine (Relation.ReflTransGen.single (Move.admission (Table.insertOr_ok hruns)
    (Table.insertOr_ok hspend) hfresh rfl rfl rfl rfl hfree hday hcap)).tail ?_
  exact Move.elsewhere rfl rfl rfl rfl

theorem findReusable_some {document : DocumentRow} {found : RunRow × ReuseCheck}
    (h : findReusable store document request = some found) :
    found.1 ∈ store.runs ∧ isCandidate store document request.now found.1 = true := by
  obtain ⟨row, hrow, rfl⟩ := List.mem_map.mp (List.mem_of_find?_eq_some h)
  rw [List.mem_insertionSort, List.mem_filter] at hrow
  exact hrow

theorem isReady_published (h : isReady store row = true) : row.status.Published := by
  unfold isReady at h
  rw [Bool.and_eq_true, decide_eq_true_eq] at h
  exact h.2

/-- A copy is entered as a finished run with an envelope of nothing. -/
theorem copyRun_ok {source : RunRow}
    (h : copyRun deployment store auth request selection source sha256 = .ok after) :
    store.runs.insert? (newRun deployment auth request selection source.status 0 source.errorCode) =
        some after.runs ∧
      store.snapshots.insert? { runId := request.runId, revision := 1, sha256 := sha256 } =
        some after.snapshots ∧
      store.progress.insert?
        { runId := request.runId, stage := "result", progress := 100, resultReady := true } =
          some after.progress ∧
      after = { store with
        runs := after.runs, snapshots := after.snapshots, progress := after.progress
        reuseAudit := after.reuseAudit, idempotency := after.idempotency } := by
  obtain ⟨runs, hruns, h⟩ := bind_ok h
  obtain ⟨snapshots, hsnapshots, h⟩ := bind_ok h
  obtain ⟨progress, hprogress, h⟩ := bind_ok h
  obtain ⟨reuseAudit, -, h⟩ := bind_ok h
  obtain ⟨idempotency, rfl⟩ := remember_ok h
  exact ⟨Table.insertOr_ok hruns, Table.insertOr_ok hsnapshots, Table.insertOr_ok hprogress, rfl⟩

theorem copyRun_moves {source : RunRow} (hfresh : fresh request.runId)
    (hfree : ∀ cost ∈ store.costs, cost.runId ≠ request.runId) (hsource : source.status.Terminal)
    (h : copyRun deployment store auth request selection source sha256 = .ok after) :
    Moves deployment fresh ends prices store after := by
  obtain ⟨hruns, -, -, hrest⟩ := copyRun_ok h
  rw [hrest]
  refine (Relation.ReflTransGen.single (Move.copy hruns hfresh hsource hfree)).tail ?_
  exact Move.elsewhere rfl rfl rfl rfl

theorem reuseOrAdmit_ok {document : DocumentRow}
    (h : reuseOrAdmit deployment store auth request document selection = .ok after) :
    admitRun deployment store auth request selection = .ok after ∨
      ∃ source sha256, source.status.Published ∧
        copyRun deployment store auth request selection source sha256 = .ok after := by
  unfold reuseOrAdmit at h
  split_ifs at h
  · exact Or.inl h
  · exact Or.inl h
  · cases hreusable : findReusable store document request with
    | none =>
      simp only [hreusable] at h
      exact Or.inl h
    | some found =>
      obtain ⟨source, check⟩ := found
      have hcandidate := (findReusable_some hreusable).2
      simp only [isCandidate, Bool.and_eq_true] at hcandidate
      cases check with
      | hit sha256 =>
        simp only [hreusable] at h
        exact Or.inr ⟨source, sha256, isReady_published hcandidate.1.1, h⟩
      | miss | busy =>
        simp only [hreusable] at h
        cases h

variable {shown : Projection}

theorem createRun_ok (h : createRun deployment store auth request = .ok (shown, after)) :
    after = store ∨ ∃ document selection,
      readRequest deployment store auth request = .ok (document, selection) ∧
        reuseOrAdmit deployment store auth request document selection = .ok after := by
  obtain ⟨⟨document, selection⟩, hread, h⟩ := bind_ok h
  obtain ⟨replayed, -, h⟩ := bind_ok h
  cases replayed with
  | some runId =>
    obtain ⟨found, -, h⟩ := map_ok_iff.mp h
    cases h
    exact Or.inl rfl
  | none =>
    split_ifs at h
    obtain ⟨created, hcreated, h⟩ := bind_ok h
    obtain ⟨view, -, h⟩ := bind_ok h
    obtain ⟨-, rfl⟩ := h
    exact Or.inr ⟨document, selection, hread, hcreated⟩

theorem createRun_moves (hfresh : fresh request.runId)
    (hfree : ∀ cost ∈ store.costs, cost.runId ≠ request.runId)
    (h : createRun deployment store auth request = .ok (shown, after)) :
    Moves deployment fresh ends prices store after := by
  rcases createRun_ok h with rfl | ⟨document, selection, -, hcreated⟩
  · exact Relation.ReflTransGen.refl
  · rcases reuseOrAdmit_ok hcreated with hadmitted | ⟨source, sha256, hsource, hcopied⟩
    · exact admitRun_moves hfresh hfree hadmitted
    · exact copyRun_moves hfresh hfree hsource.terminal hcopied

theorem publishReview_ok (h : publishReview store tenantId runId sha256 = .ok after) :
    ∃ row, store.snapshots.insert? row = some after.snapshots ∧
      after = { store with snapshots := after.snapshots } := by
  obtain ⟨row, -, h⟩ := bind_ok h
  obtain ⟨snapshots, hsnapshots, h⟩ := bind_ok h
  cases pure_ok h
  exact ⟨_, Table.insertOr_ok hsnapshots, rfl⟩

end ProofOps.Api.Hosted
