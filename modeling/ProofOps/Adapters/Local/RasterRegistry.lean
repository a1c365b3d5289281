import ProofOps.Adapters.Local.JobEvolution
import ProofOps.Adapters.Local.RasterRequests

/-!
# The raster request registry

The job store and the raster tables under one database: every transaction on the job store, a
frozen snapshot, a registration and a return, in any order and by any worker.  A registration
answers `True` where it wrote its row, and rows outlive every call, so no request is dispatched
twice, whoever holds the lease by then.
-/

namespace ProofOps.Adapters.Local.Raster

open Foundation Foundation.Checked Foundation.Table Foundation.Machine

structure State (ρ : Type) where
  jobs : JobStore ρ
  tables : Tables

section Registry

variable {ρ : Type}

def State.initial (rest : ρ) : State ρ where
  jobs := JobStore.initial rest
  tables := { snapshots := Table.empty, requests := Table.empty, receipts := Table.empty }

def hooksAt (rules : Rules ρ) (tables : Tables) : Hooks ρ :=
  { rules.hooks with
    checkParse := fun rest message payload => do
      rules.hooks.checkParse rest message payload
      checkCheckpoint rules tables message (rules.envelope payload) }

inductive Call (ρ : Type) where
  | jobs (call : Local.Call ρ)
  | freeze (row : SnapshotRow)
  | register (lease : JobLease) (given : Option Request) (now : Int) (wait : Nat)
  | finish (lease : JobLease) (requestId : String) (receipt : Receipt)

/-- The state after a call. -/
def next (rules : Rules ρ) (state : State ρ) : Call ρ → State ρ
  | .jobs call =>
    { state with jobs := Local.next (hooksAt rules state.tables) state.jobs call }
  | .freeze row =>
    match state.tables.snapshots.insert? row with
    | some snapshots => { state with tables := { state.tables with snapshots := snapshots } }
    | none => state
  | .register lease given now wait =>
    match registerRasterRequest rules state.jobs state.tables lease given now wait with
    | .ok (_, tables) => { state with tables := tables }
    | .error _ => state
  | .finish lease requestId receipt =>
    match finishRasterRequest rules state.jobs state.tables lease requestId receipt with
    | .ok tables => { state with tables := tables }
    | .error _ => state

variable {rules : Rules ρ} {state : State ρ}

structure Authorized (rules : Rules ρ) (state : State ρ) (lease : JobLease) (request : Request)
    (time : Int) : Prop where
  parses : lease.message.stage = "parse"
  owns : ∃ job run, owned rules.hooks state.jobs lease time = some (job, run)
  frozen : ∃ row policy, state.tables.snapshots.find lease.message.runKey = some row ∧
    row.payload.rasterOcrPolicy = some policy ∧
    InScope rules lease.message row.payload policy request
  named : request.requestId =
    rules.requestId lease.message.jobId { request with requestId := "" }

variable {tables : Tables}

theorem frozenSnapshot_ok {message : JobMessage} {snapshot : Snapshot}
    (h : frozenSnapshot rules tables message = .ok snapshot) :
    ∃ row, tables.snapshots.find message.runKey = some row ∧ row.payload = snapshot := by
  unfold frozenSnapshot at h
  cases hrow : tables.snapshots.find message.runKey with
  | none => simp [hrow] at h
  | some row =>
    simp only [hrow] at h
    replace h := rest_ok h
    replace h := rest_ok h
    exact ⟨row, rfl, pure_ok h⟩

variable {lease : JobLease} {request : Request} {given : Option Request}

theorem checkRequest_ok {now : Int} {wait : Nat}
    (h : checkRequest rules state.jobs state.tables lease given now wait = .ok request) :
    given = some request ∧ Authorized rules state lease request (now + wait) := by
  replace h := rest_ok h
  obtain ⟨⟨⟩, hlease, h⟩ := bind_ok h
  have hleased := refuse_ok_iff.mp hlease
  rw [not_or, not_not] at hleased
  obtain ⟨hparses, howned⟩ := hleased
  cases given with
  | none => cases h
  | some given =>
    obtain ⟨snapshot, hsnapshot, h⟩ := bind_ok h
    obtain ⟨row, hrow, rfl⟩ := frozenSnapshot_ok hsnapshot
    cases hpolicy : row.payload.rasterOcrPolicy with
    | none => simp [hpolicy] at h
    | some policy =>
      simp only [hpolicy] at h
      replace h := rest_ok h
      obtain ⟨⟨⟩, hscope, h⟩ := bind_ok h
      replace h := rest_ok h
      replace h := rest_ok h
      replace h := rest_ok h
      obtain ⟨⟨⟩, hnamed, h⟩ := bind_ok h
      cases pure_ok h
      have howner : ∃ found, owned rules.hooks state.jobs lease (now + wait) = some found := by
        cases hfound : owned rules.hooks state.jobs lease (now + wait) with
        | none => simp [hfound] at howned
        | some found => exact ⟨found, rfl⟩
      obtain ⟨⟨job, run⟩, howner⟩ := howner
      exact ⟨rfl, hparses, ⟨job, run, howner⟩,
        ⟨row, policy, hrow, hpolicy, not_not.mp (refuse_ok_iff.mp hscope)⟩,
        not_not.mp (refuse_ok_iff.mp hnamed)⟩

structure Enrolled (rules : Rules ρ) (state : State ρ) (tables : Tables) (lease : JobLease)
    (request : Request) (time : Int) : Prop where
  authorized : Authorized rules state lease request time
  room : ((requestsOf state.tables lease.message.runKey).length : Int) < request.maxCalls
  written : state.tables.requests.insert? (requestRow rules lease request) = some tables.requests
  snapshots : tables.snapshots = state.tables.snapshots
  receipts : tables.receipts = state.tables.receipts

theorem registerRasterRequest_ok {now : Int} {wait : Nat} {created : Bool}
    (h : registerRasterRequest rules state.jobs state.tables lease given now wait =
      .ok (created, tables)) :
    (created = false ∧ tables = state.tables) ∨
      (created = true ∧ ∃ request, given = some request ∧
        Enrolled rules state tables lease request (now + wait)) := by
  obtain ⟨request, hrequest, h⟩ := bind_ok h
  obtain ⟨hgiven, hauthorized⟩ := checkRequest_ok hrequest
  cases hfound : state.tables.requests.find (requestRow rules lease request).key with
  | some stored =>
    simp only [hfound] at h
    replace h := rest_ok h
    have hmade := pure_ok h
    rw [Prod.mk.injEq] at hmade
    exact .inl ⟨hmade.1.symm, hmade.2.symm⟩
  | none =>
    simp only [hfound] at h
    obtain ⟨⟨⟩, hroom, h⟩ := bind_ok h
    obtain ⟨requests, hwritten, h⟩ := bind_ok h
    have hmade := pure_ok h
    rw [Prod.mk.injEq] at hmade
    obtain ⟨hcreated, rfl⟩ := hmade
    refine .inr ⟨hcreated.symm, request, hgiven, hauthorized, ?_, insertOr_ok hwritten, rfl, rfl⟩
    exact not_le.mp (refuse_ok_iff.mp hroom)

structure Returned (rules : Rules ρ) (state : State ρ) (tables : Tables) (lease : JobLease)
    (requestId : String) (receipt : Receipt) (row : RequestRow) : Prop where
  found : state.tables.requests.find (lease.message.tenantId, lease.message.runId, requestId) =
    some row
  job : row.value.request.jobId = lease.message.jobId
  owner : row.value.owner = lease.owner
  token : row.value.fencingToken = lease.fencingToken
  provided : checkReceipt rules row.value.request receipt = .ok ()
  written : state.tables.receipts.insert?
    (receiptRow rules lease.message requestId row.value receipt) = some tables.receipts
  snapshots : tables.snapshots = state.tables.snapshots
  requests : tables.requests = state.tables.requests

theorem finishRasterRequest_ok {requestId : String} {receipt : Receipt}
    (h : finishRasterRequest rules state.jobs state.tables lease requestId receipt = .ok tables) :
    tables = state.tables ∨ ∃ row, Returned rules state tables lease requestId receipt row := by
  replace h := rest_ok h
  obtain ⟨job, -, h⟩ := bind_ok h
  obtain ⟨row, hrow, h⟩ := bind_ok h
  obtain ⟨registered, hregistered, h⟩ := bind_ok h
  obtain ⟨⟨⟩, howner, h⟩ := bind_ok h
  obtain ⟨⟨⟩, hprovided, h⟩ := bind_ok h
  have hsame : row.value = registered := by
    replace hregistered := rest_ok hregistered
    exact pure_ok hregistered
  subst hsame
  have hfound : state.tables.requests.find
      (lease.message.tenantId, lease.message.runId, requestId) = some row := by
    unfold getRequest at hrow
    cases hfind : state.tables.requests.find
        (lease.message.tenantId, lease.message.runId, requestId) with
    | none => simp [hfind] at hrow
    | some found =>
      simp only [hfind, Except.ok.injEq] at hrow
      rw [hrow]
  have hlease := refuse_ok_iff.mp howner
  rw [not_or, not_not, not_not, Prod.mk.injEq] at hlease
  cases hstored : state.tables.receipts.find
      (receiptRow rules lease.message requestId row.value receipt).key with
  | some stored =>
    simp only [hstored] at h
    replace h := rest_ok h
    exact .inl (pure_ok h).symm
  | none =>
    simp only [hstored] at h
    obtain ⟨receipts, hwritten, h⟩ := bind_ok h
    cases pure_ok h
    exact .inr ⟨row, hfound, hlease.1, hlease.2.1, hlease.2.2, hprovided, insertOr_ok hwritten,
      rfl, rfl⟩

/-- What a call may do to the tables. -/
inductive Step (rules : Rules ρ) (state : State ρ) (tables : Tables) : Call ρ → Prop
  | idle {call : Call ρ} (same : tables = state.tables) : Step rules state tables call
  | frozen {row : SnapshotRow}
      (written : state.tables.snapshots.insert? row = some tables.snapshots)
      (requests : tables.requests = state.tables.requests)
      (receipts : tables.receipts = state.tables.receipts) : Step rules state tables (.freeze row)
  | registered {lease : JobLease} {request : Request} {now : Int} {wait : Nat}
      (made : Enrolled rules state tables lease request (now + wait)) :
      Step rules state tables (.register lease (some request) now wait)
  | returned {lease : JobLease} {requestId : String} {receipt : Receipt} {row : RequestRow}
      (made : Returned rules state tables lease requestId receipt row) :
      Step rules state tables (.finish lease requestId receipt)

theorem next_step (call : Call ρ) : Step rules state (next rules state call).tables call := by
  cases call with
  | jobs call => exact .idle rfl
  | freeze row =>
    cases hinsert : state.tables.snapshots.insert? row with
    | none =>
      simp only [next, hinsert]
      exact .idle rfl
    | some snapshots =>
      simp only [next, hinsert]
      exact .frozen hinsert rfl rfl
  | register lease given now wait =>
    cases hregister : registerRasterRequest rules state.jobs state.tables lease given now wait with
    | error error =>
      simp only [next, hregister]
      exact .idle rfl
    | ok result =>
      simp only [next, hregister]
      obtain ⟨-, hsame⟩ | ⟨-, request, rfl, hmade⟩ := registerRasterRequest_ok hregister
      · exact .idle hsame
      · exact .registered hmade
  | finish lease requestId receipt =>
    cases hfinish : finishRasterRequest rules state.jobs state.tables lease requestId receipt with
    | error error =>
      simp only [next, hfinish]
      exact .idle rfl
    | ok tables =>
      simp only [next, hfinish]
      obtain hsame | ⟨row, hmade⟩ := finishRasterRequest_ok hfinish
      · exact .idle hsame
      · exact .returned hmade

structure Lasting (tables later : Tables) : Prop where
  snapshots : ∀ key row, tables.snapshots.find key = some row → later.snapshots.find key = some row
  requests : ∀ key row, tables.requests.find key = some row → later.requests.find key = some row
  receipts : ∀ key row, tables.receipts.find key = some row → later.receipts.find key = some row

theorem Lasting.refl (tables : Tables) : Lasting tables tables :=
  ⟨fun _ _ h => h, fun _ _ h => h, fun _ _ h => h⟩

theorem Lasting.trans {first second third : Tables} (h : Lasting first second)
    (h' : Lasting second third) : Lasting first third where
  snapshots := fun key row hrow => h'.snapshots key row (h.snapshots key row hrow)
  requests := fun key row hrow => h'.requests key row (h.requests key row hrow)
  receipts := fun key row hrow => h'.receipts key row (h.receipts key row hrow)

/-- A step keeps all rows. -/
theorem Step.lasting {call : Call ρ} (h : Step rules state tables call) :
    Lasting state.tables tables := by
  cases h with
  | idle same => exact same ▸ Lasting.refl _
  | frozen written requests receipts =>
    exact
      { snapshots := fun _ _ hrow => find_insert?_of_some written hrow
        requests := fun _ _ hrow => requests ▸ hrow
        receipts := fun _ _ hrow => receipts ▸ hrow }
  | registered made =>
    exact
      { snapshots := fun _ _ hrow => made.snapshots ▸ hrow
        requests := fun _ _ hrow => find_insert?_of_some made.written hrow
        receipts := fun _ _ hrow => made.receipts ▸ hrow }
  | returned made =>
    exact
      { snapshots := fun _ _ hrow => made.snapshots ▸ hrow
        requests := fun _ _ hrow => made.requests ▸ hrow
        receipts := fun _ _ hrow => find_insert?_of_some made.written hrow }

theorem after_lasting (calls : List (Call ρ)) :
    Lasting state.tables (after (next rules) state calls).tables :=
  @after_related _ _ (next rules) (fun _ => True)
    (fun first second : State ρ => Lasting first.tables second.tables) (fun _ _ _ => trivial)
    (fun _ => Lasting.refl _) (fun h h' => h.trans h')
    (fun _ call _ => (next_step call).lasting) _ trivial calls

structure WellKept (rules : Rules ρ) (tables : Tables) (row : RequestRow) : Prop where
  tenant : row.value.request.tenantId = row.tenantId
  run : row.value.request.runId = row.runId
  record : row.value.request.requestId = row.recordId
  named : row.recordId =
    rules.requestId row.value.request.jobId { row.value.request with requestId := "" }
  frozen : ∃ snapshot policy, tables.snapshots.find (row.tenantId, row.runId) = some snapshot ∧
    snapshot.payload.rasterOcrPolicy = some policy ∧
    row.value.request.maxCalls = policy.maxCalls
  room : ((requestsOf tables (row.tenantId, row.runId)).length : Int) ≤ row.value.request.maxCalls

def Kept (rules : Rules ρ) (tables : Tables) : Prop :=
  ∀ row ∈ tables.requests, WellKept rules tables row

theorem requestsOf_insert? {after : Tables} {row : RequestRow}
    (h : tables.requests.insert? row = some after.requests) (key : RunKey) :
    requestsOf after key =
      requestsOf tables key ++ if (row.tenantId, row.runId) = key then [row] else [] := by
  unfold requestsOf
  rw [insert?_rows h, List.filter_append]
  by_cases hkey : (row.tenantId, row.runId) = key
  · rw [if_pos hkey, List.filter_cons_of_pos (by simpa using hkey), List.filter_nil]
  · rw [if_neg hkey, List.filter_cons_of_neg (by simpa using hkey), List.filter_nil]

/-- A new request is kept as it was authorised. -/
theorem Enrolled.wellKept {time : Int} (h : Enrolled rules state tables lease request time) :
    WellKept rules tables (requestRow rules lease request) := by
  obtain ⟨snapshot, policy, hsnapshot, hpolicy, hscope⟩ := h.authorized.frozen
  have hidentity := hscope.2.1
  simp only [Prod.mk.injEq] at hidentity
  obtain ⟨htenant, hrun, hjob, -⟩ := hidentity
  have hlimits := hscope.2.2.2.2.2.2.1
  simp only [Prod.mk.injEq] at hlimits
  refine
    { tenant := htenant
      run := hrun
      record := rfl
      named := ?_
      frozen := ⟨snapshot, policy, ?_, hpolicy, hlimits.2.2⟩
      room := ?_ }
  · show request.requestId = rules.requestId request.jobId _
    rw [hjob]
    exact h.authorized.named
  · rw [h.snapshots]
    exact hsnapshot
  · show ((requestsOf tables lease.message.runKey).length : Int) ≤ request.maxCalls
    have hone : requestsOf tables lease.message.runKey =
        requestsOf state.tables lease.message.runKey ++ [requestRow rules lease request] := by
      rw [requestsOf_insert? h.written]
      exact congrArg _ (if_pos rfl)
    rw [hone, List.length_append, List.length_singleton]
    have hroom := h.room
    omega

theorem Enrolled.keeps {time : Int} (h : Enrolled rules state tables lease request time)
    {row : RequestRow} (hrow : WellKept rules state.tables row) : WellKept rules tables row := by
  have hnew := h.wellKept
  obtain ⟨snapshot, policy, hsnapshot, hpolicy, hcalls⟩ := hrow.frozen
  refine
    { hrow with
      frozen := ⟨snapshot, policy, h.snapshots ▸ hsnapshot, hpolicy, hcalls⟩
      room := ?_ }
  by_cases hkey : lease.message.runKey = (row.tenantId, row.runId)
  · obtain ⟨other, governing, hother, hgoverning, hbound⟩ := hnew.frozen
    have hfound : tables.snapshots.find lease.message.runKey = some other := hother
    rw [hkey, h.snapshots, hsnapshot] at hfound
    cases hfound
    rw [hpolicy] at hgoverning
    cases hgoverning
    have hroom : ((requestsOf tables lease.message.runKey).length : Int) ≤ request.maxCalls :=
      hnew.room
    have hsame : request.maxCalls = row.value.request.maxCalls := by
      rw [hcalls]
      exact hbound
    rw [← hkey, ← hsame]
    exact hroom
  · have hother : requestsOf tables (row.tenantId, row.runId) =
        requestsOf state.tables (row.tenantId, row.runId) := by
      rw [requestsOf_insert? h.written]
      exact (congrArg _ (if_neg hkey)).trans (List.append_nil _)
    rw [hother]
    exact hrow.room

/-- A step keeps the requests as they were authorised. -/
theorem Step.kept {call : Call ρ} (h : Step rules state tables call)
    (hkept : Kept rules state.tables) : Kept rules tables := by
  cases h with
  | idle same => exact same ▸ hkept
  | frozen written requests receipts =>
    intro row hrow
    rw [requests] at hrow
    have hwell := hkept row hrow
    obtain ⟨snapshot, policy, hsnapshot, hrest⟩ := hwell.frozen
    refine
      { hwell with
        frozen := ⟨snapshot, policy, find_insert?_of_some written hsnapshot, hrest⟩
        room := ?_ }
    unfold requestsOf
    rw [requests]
    exact hwell.room
  | registered made =>
    intro row hrow
    rcases (mem_insert? made.written).mp hrow with hold | rfl
    · exact made.keeps (hkept row hold)
    · exact made.wellKept
  | returned made =>
    intro row hrow
    rw [made.requests] at hrow
    have hwell := hkept row hrow
    refine { hwell with frozen := made.snapshots ▸ hwell.frozen, room := ?_ }
    unfold requestsOf
    rw [made.requests]
    exact hwell.room

theorem after_kept (hkept : Kept rules state.tables) (calls : List (Call ρ)) :
    Kept rules (after (next rules) state calls).tables :=
  @after_invariant _ _ (next rules) (fun state : State ρ => Kept rules state.tables)
    (fun _ call h => (next_step call).kept h) _ hkept calls

theorem kept_initial (rest : ρ) : Kept rules (State.initial rest).tables :=
  fun _ hrow => absurd hrow not_mem_empty

end Registry

end ProofOps.Adapters.Local.Raster
