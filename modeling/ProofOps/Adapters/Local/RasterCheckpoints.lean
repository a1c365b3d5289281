import ProofOps.Adapters.Local.RasterRegistry

/-!
# Raster requests over a run

The history of a run of the registry: who registered a request, who returned its receipt, and
what an accepted checkpoint lists.  The loop over the stored requests keeps the requested sources
apart and collects one reference for each request; the registry has no request of a run whose
snapshot has no raster policy.
-/

namespace ProofOps.Adapters.Local.Raster

open Foundation Foundation.Checked Foundation.Table Foundation.Machine

section Checkpoints

variable {ρ : Type} {rules : Rules ρ} {state : State ρ}

/-! ### Who wrote a row -/

def Registers (rules : Rules ρ) (state : State ρ) (call : Call ρ) (lease : JobLease)
    (request : Request) : Prop :=
  ∃ now wait tables, call = .register lease (some request) now wait ∧
    registerRasterRequest rules state.jobs state.tables lease (some request) now wait =
      .ok (true, tables)

variable {call : Call ρ} {lease : JobLease} {request : Request}

theorem Registers.enrolled (h : Registers rules state call lease request) :
    ∃ now wait, call = .register lease (some request) now wait ∧
      Enrolled rules state (next rules state call).tables lease request (now + wait) := by
  obtain ⟨now, wait, tables, rfl, hregister⟩ := h
  refine ⟨now, wait, rfl, ?_⟩
  simp only [next, hregister]
  obtain ⟨hcreated, -⟩ | ⟨-, made, hgiven, hmade⟩ := registerRasterRequest_ok hregister
  · cases hcreated
  · cases hgiven
    exact hmade

theorem Registers.free (h : Registers rules state call lease request) :
    state.tables.requests.find (requestRow rules lease request).key = none := by
  obtain ⟨now, wait, -, hmade⟩ := h.enrolled
  exact find_of_insert? hmade.written

theorem Registers.stored (h : Registers rules state call lease request) :
    (next rules state call).tables.requests.find (requestRow rules lease request).key =
      some (requestRow rules lease request) := by
  obtain ⟨now, wait, -, hmade⟩ := h.enrolled
  rw [find_insert? hmade.written, if_pos rfl]

def Collision (rules : Rules ρ) (first second : Request) : Prop :=
  first ≠ second ∧ rules.requestId first.jobId { first with requestId := "" } =
    rules.requestId second.jobId { second with requestId := "" }

theorem Registers.key (h : Registers rules state call lease request) :
    (requestRow rules lease request).key = (request.tenantId, request.runId, request.requestId) := by
  obtain ⟨now, wait, -, hmade⟩ := h.enrolled
  have hwell := hmade.wellKept
  show (lease.message.tenantId, lease.message.runId, request.requestId) = _
  rw [show request.tenantId = lease.message.tenantId from hwell.tenant,
    show request.runId = lease.message.runId from hwell.run]

theorem registered_once {front middle : List (Call ρ)} {other : Call ρ} {lease' : JobLease}
    {request' : Request}
    (hfirst : Registers rules (after (next rules) state front) call lease request)
    (hsecond : Registers rules (after (next rules) state (front ++ call :: middle)) other lease'
      request') (hid : request'.requestId = request.requestId) :
    Collision rules request request' := by
  constructor
  · rintro rfl
    have hlasting : Lasting (next rules (after (next rules) state front) call).tables
        (after (next rules) (next rules (after (next rules) state front) call) middle).tables :=
      after_lasting middle
    have hlater := hlasting.requests _ _ hfirst.stored
    have hfree := hsecond.free
    rw [hsecond.key, ← hfirst.key, after_append, after_cons, hlater] at hfree
    cases hfree
  · obtain ⟨_, _, _, hmade⟩ := hfirst.enrolled
    obtain ⟨_, _, _, hmade'⟩ := hsecond.enrolled
    have hnamed : request.requestId =
        rules.requestId request.jobId { request with requestId := "" } := hmade.wellKept.named
    have hnamed' : request'.requestId =
        rules.requestId request'.jobId { request' with requestId := "" } := hmade'.wellKept.named
    rw [← hnamed, ← hnamed', hid]

variable {tables : Tables} {row : RequestRow}

theorem Step.adds_request (h : Step rules state tables call) (hnew : row ∈ tables.requests)
    (hold : row ∉ state.tables.requests) :
    ∃ lease request now wait, call = .register lease (some request) now wait ∧
      Enrolled rules state tables lease request (now + wait) ∧
      row = requestRow rules lease request := by
  cases h with
  | idle same => exact absurd (same ▸ hnew) hold
  | frozen written requests receipts => exact absurd (requests ▸ hnew) hold
  | registered made =>
    rcases (mem_insert? made.written).mp hnew with hmem | rfl
    · exact absurd hmem hold
    · exact ⟨_, _, _, _, rfl, made, rfl⟩
  | returned made => exact absurd (made.requests ▸ hnew) hold

theorem Step.adds_receipt (h : Step rules state tables call) {row : ReceiptRow}
    (hnew : row ∈ tables.receipts) (hold : row ∉ state.tables.receipts) :
    ∃ lease requestId receipt stored, call = .finish lease requestId receipt ∧
      Returned rules state tables lease requestId receipt stored ∧
      row = receiptRow rules lease.message requestId stored.value receipt := by
  cases h with
  | idle same => exact absurd (same ▸ hnew) hold
  | frozen written requests receipts => exact absurd (receipts ▸ hnew) hold
  | registered made => exact absurd (made.receipts ▸ hnew) hold
  | returned made =>
    rcases (mem_insert? made.written).mp hnew with hmem | rfl
    · exact absurd hmem hold
    · exact ⟨_, _, _, _, rfl, made, rfl⟩

variable {calls : List (Call ρ)}

theorem request_registered {rest : ρ}
    (h : row ∈ (after (next rules) (State.initial rest) calls).tables.requests) :
    ∃ front call back lease request, calls = front ++ call :: back ∧
      Registers rules (after (next rules) (State.initial rest) front) call lease request ∧
      row = requestRow rules lease request := by
  obtain ⟨front, call, back, hcalls, hbefore, hstep⟩ :=
    exists_step (p := fun state : State ρ => row ∈ state.tables.requests) not_mem_empty h
  obtain ⟨lease, request, now, wait, rfl, hmade, hrow⟩ := (next_step call).adds_request hstep hbefore
  refine ⟨front, _, back, lease, request, hcalls, ⟨now, wait, ?_⟩, hrow⟩
  cases hregister : registerRasterRequest rules
      (after (next rules) (State.initial rest) front).jobs
      (after (next rules) (State.initial rest) front).tables lease (some request) now wait with
  | error error =>
    simp only [next, hregister] at hstep
    exact absurd hstep hbefore
  | ok result =>
    obtain ⟨created, tables⟩ := result
    obtain ⟨-, hsame⟩ | ⟨hcreated, -⟩ := registerRasterRequest_ok hregister
    · simp only [next, hregister, hsame] at hstep
      exact absurd hstep hbefore
    · exact ⟨tables, rfl, by rw [hcreated]⟩

theorem receipt_returned {rest : ρ} {row : ReceiptRow}
    (h : row ∈ (after (next rules) (State.initial rest) calls).tables.receipts) :
    ∃ front back lease requestId receipt stored,
      calls = front ++ .finish lease requestId receipt :: back ∧
      Returned rules (after (next rules) (State.initial rest) front)
        (after (next rules) (State.initial rest) (front ++ [.finish lease requestId receipt])).tables
        lease requestId receipt stored ∧
      row = receiptRow rules lease.message requestId stored.value receipt := by
  obtain ⟨front, call, back, hcalls, hbefore, hstep⟩ :=
    exists_step (p := fun state : State ρ => row ∈ state.tables.receipts) not_mem_empty h
  obtain ⟨lease, requestId, receipt, stored, rfl, hmade, hrow⟩ :=
    (next_step call).adds_receipt hstep hbefore
  refine ⟨front, back, lease, requestId, receipt, stored, hcalls, ?_, hrow⟩
  rw [after_append]
  exact hmade

/-! ### What a checkpoint lists -/

theorem checkRegistered_ok {value registered : Registered}
    (h : checkRegistered rules value = .ok registered) : registered = value := by
  replace h := rest_ok h
  exact (pure_ok h).symm

def Lists (rules : Rules ρ) (tables : Tables) (message : JobMessage) (row : RequestRow)
    (ref : Ref) : Prop :=
  ∃ stored, tables.receipts.find
      (message.tenantId, message.runId, row.value.request.requestId) = some stored ∧
    stored.value.requestSha256 = row.value.requestSha256 ∧
    checkReceipt rules row.value.request stored.value.receipt = .ok () ∧
    ref = refOf row.value stored.value

variable {message : JobMessage}

theorem storedReceipt_ok {wrapper : Wrapper}
    (h : storedReceipt rules tables message row.value = .ok wrapper) :
    Lists rules tables message row (refOf row.value wrapper) := by
  unfold storedReceipt at h
  cases hstored : tables.receipts.find
      (message.tenantId, message.runId, row.value.request.requestId) with
  | none => simp [hstored] at h
  | some stored =>
    simp only [hstored] at h
    obtain ⟨⟨⟩, hrefused, h⟩ := bind_ok h
    obtain ⟨⟨⟩, hprovided, h⟩ := bind_ok h
    cases pure_ok h
    have hintact := refuse_ok_iff.mp hrefused
    rw [not_or, not_not] at hintact
    exact ⟨stored, hstored, hintact.1, hprovided, rfl⟩

def RequestRow.requested (row : RequestRow) : List String :=
  row.value.request.requestedSourceIds

/-- What the loop has made after some requests. -/
structure BoundRows (rules : Rules ρ) (tables : Tables) (message : JobMessage)
    (before made : List String × List Ref) (rows : List RequestRow) : Prop where
  requested : made.1 = before.1 ++ rows.flatMap RequestRow.requested
  refs : ∃ refs, made.2 = before.2 ++ refs ∧
    List.Forall₂ (Lists rules tables message) rows refs
  fresh : ∀ row ∈ rows, ∀ id ∈ row.requested, id ∉ before.1
  apart : rows.Pairwise fun first second => ∀ id ∈ second.requested, id ∉ first.requested

variable {snapshot : Snapshot} {before made : List String × List Ref}

theorem bindRequest_ok {native : Native}
    (h : bindRequest rules tables message snapshot native before row = .ok made) :
    (∀ id ∈ row.requested, id ∉ before.1) ∧ ∃ ref, Lists rules tables message row ref ∧
      made = (before.1 ++ row.requested, before.2 ++ [ref]) := by
  obtain ⟨registered, hregistered, h⟩ := bind_ok h
  cases checkRegistered_ok hregistered
  obtain ⟨⟨⟩, hbound, h⟩ := bind_ok h
  obtain ⟨wrapper, hwrapper, h⟩ := bind_ok h
  have hall := not_not.mp (refuse_ok_iff.mp hbound)
  exact ⟨hall.2.2.2.2.2, refOf row.value wrapper, storedReceipt_ok hwrapper,
    (pure_ok h).symm⟩

theorem boundRows {native : Native} {rows : List RequestRow}
    (h : rows.foldlM (bindRequest rules tables message snapshot native) before = .ok made) :
    BoundRows rules tables message before made rows := by
  induction rows generalizing before with
  | nil =>
    cases pure_ok h
    exact
      { requested := (List.append_nil _).symm
        refs := ⟨[], (List.append_nil _).symm, .nil⟩
        fresh := fun _ hmem => absurd hmem List.not_mem_nil
        apart := .nil }
  | cons row rows ih =>
    obtain ⟨mid, hmid, h⟩ := bind_ok h
    obtain ⟨hfresh, ref, hlists, rfl⟩ := bindRequest_ok hmid
    have hrest := ih h
    obtain ⟨refs, hrefs, hpaired⟩ := hrest.refs
    have hother : ∀ other ∈ rows, ∀ id ∈ other.requested,
        id ∉ before.1 ∧ id ∉ row.requested := by
      intro other hother id hid
      have hnot := hrest.fresh other hother id hid
      rw [List.mem_append, not_or] at hnot
      exact hnot
    refine
      { requested := ?_
        refs := ⟨ref :: refs, ?_, .cons hlists hpaired⟩
        fresh := ?_
        apart := List.pairwise_cons.mpr ⟨fun other hmem id hid => (hother other hmem id hid).2,
          hrest.apart⟩ }
    · rw [hrest.requested, List.flatMap_cons, List.append_assoc]
    · rw [hrefs, List.append_assoc, List.singleton_append]
    · intro other hmem id hid
      rcases List.mem_cons.mp hmem with rfl | htail
      · exact hfresh id hid
      · exact (hother other htail id hid).1

structure Complete (rules : Rules ρ) (tables : Tables) (message : JobMessage)
    (envelope : Envelope) : Prop where
  refs : List.Forall₂ (Lists rules tables message) (jobRequests tables message)
    (envelope.rasterOcrArtifacts.getD [])
  apart : (jobRequests tables message).Pairwise fun first second =>
    ∀ id ∈ second.requested, id ∉ first.requested

theorem mem_jobRequests :
    row ∈ jobRequests tables message ↔ row ∈ tables.requests ∧
      (row.tenantId, row.runId) = message.runKey ∧ row.value.request.jobId = message.jobId := by
  unfold jobRequests requestsOf
  rw [Sorting.mem_sortedBy, List.mem_filter, List.mem_filter, decide_eq_true_eq,
    decide_eq_true_eq, and_assoc]
  exact Iff.rfl

variable {envelope : Envelope}

theorem checkpointRaster_ok {read : Option (List Ref × Coverage)}
    (h : checkpointRaster rules envelope = .ok read) :
    (read = none ∧ envelope.rasterOcrArtifacts = none) ∨
      (envelope.schema = "local_parser_checkpoint_v5" ∧ ∃ refs coverage,
        read = some (refs, coverage) ∧ envelope.rasterOcrArtifacts = some refs) := by
  unfold checkpointRaster at h
  by_cases hschema : envelope.schema = "local_parser_checkpoint_v5"
  · rw [if_neg (not_not.mpr hschema)] at h
    refine .inr ⟨hschema, ?_⟩
    cases hpolicy : envelope.rasterOcrPolicySha256 with
    | none => simp [hpolicy] at h
    | some policy =>
      cases hrefs : envelope.rasterOcrArtifacts with
      | none => simp [hpolicy, hrefs] at h
      | some refs =>
        cases hcoverage : envelope.rasterOcrCoverage with
        | none => simp [hpolicy, hrefs, hcoverage] at h
        | some coverage =>
          simp only [hpolicy, hrefs, hcoverage] at h
          replace h := rest_ok h
          replace h := rest_ok h
          replace h := rest_ok h
          replace h := rest_ok h
          replace h := rest_ok h
          exact ⟨refs, coverage, (pure_ok h).symm, rfl⟩
  · rw [if_pos hschema] at h
    split_ifs at h with hraster
    cases h
    rw [not_or, not_or] at hraster
    exact .inl ⟨rfl, by simpa using hraster.2.1⟩

theorem validateEnabled_ok {policy : Policy}
    (h : validateEnabled rules tables message snapshot policy envelope = .ok ()) :
    Complete rules tables message envelope := by
  replace h := rest_ok h
  obtain ⟨read, hread, h⟩ := bind_ok h
  cases read with
  | none => cases h
  | some pair =>
    obtain ⟨refs, coverage⟩ := pair
    cases hnative : envelope.native with
    | none => simp [hnative] at h
    | some native =>
      simp only [hnative] at h
      replace h := rest_ok h
      replace h := rest_ok h
      obtain ⟨made, hmade, h⟩ := bind_ok h
      have hall := refuse_ok_iff.mp h
      rw [not_or, not_not] at hall
      have hrows := boundRows hmade
      obtain ⟨listed, hlisted, hpaired⟩ := hrows.refs
      obtain ⟨hnone, -⟩ | ⟨-, others, other, hsome, hartifacts⟩ := checkpointRaster_ok hread
      · cases hnone
      · cases hsome
        refine ⟨?_, hrows.apart⟩
        rw [hartifacts, Option.getD_some, hall.1, hlisted, List.nil_append]
        exact hpaired

/-- A checkpoint that passes is complete. -/
theorem checkCheckpoint_ok (hkept : Kept rules state.tables)
    (h : checkCheckpoint rules state.tables message envelope = .ok ()) :
    Complete rules state.tables message envelope := by
  obtain ⟨read, hread, h⟩ := bind_ok h
  cases hsnapshot : state.tables.snapshots.find message.runKey with
  | none => simp [hsnapshot] at h
  | some row =>
    simp only [hsnapshot] at h
    unfold validateRasterCheckpointBindings at h
    cases hpolicy : row.payload.rasterOcrPolicy with
    | some policy =>
      simp only [hpolicy] at h
      replace h := rest_ok h
      exact validateEnabled_ok h
    | none =>
      -- Without a policy no request of the run was ever authorized.
      simp only [hpolicy] at h
      have hnone : jobRequests state.tables message = [] := by
        rw [List.eq_nil_iff_forall_not_mem]
        intro request hrequest
        obtain ⟨hmem, hrun, -⟩ := mem_jobRequests.mp hrequest
        obtain ⟨snapshot, policy, hfound, hsome, -⟩ := (hkept request hmem).frozen
        rw [hrun, hsnapshot] at hfound
        cases hfound
        rw [hpolicy] at hsome
        cases hsome
      obtain ⟨-, hartifacts⟩ | ⟨hschema, -⟩ := checkpointRaster_ok hread
      · refine ⟨?_, ?_⟩
        · rw [hnone, hartifacts]
          exact .nil
        · rw [hnone]
          exact .nil
      · exact absurd hschema (refuse_ok_iff.mp h)

theorem commit_checked {hooks : Hooks ρ} {store after : JobStore ρ} {payload : Bytes} {now : Int}
    {wait : Nat} {following : Option JobMessage} {publish : Option (Publish ρ)}
    (h : commitJob hooks store lease payload now wait following publish = .ok (true, after))
    (hobject : (hooks.decode payload).isObject = true)
    (hschema : PyText.startsWith (hooks.decode payload).schema "local_parser_checkpoint_" = true) :
    hooks.checkParse store.rest lease.message payload = .ok () := by
  replace h := rest_ok h
  split_ifs at h
  cases howned : owned hooks store lease (now + wait) with
  | none => simp [howned] at h
  | some found =>
    simp only [howned] at h
    obtain ⟨committed, hcommitted, -⟩ := bind_ok h
    obtain ⟨⟨updated, checked⟩, hupdate, -⟩ := bind_ok hcommitted
    obtain ⟨parsed, hparsed, -⟩ := bind_ok hupdate
    replace hparsed := rest_ok hparsed
    dsimp only at hparsed
    rw [hobject, hschema, Bool.and_true, if_pos rfl] at hparsed
    obtain ⟨⟨⟩, hpassed, -⟩ := bind_ok hparsed
    unfold checkParsed at hpassed
    split_ifs at hpassed
    exact hpassed

structure CommitsCheckpoint (rules : Rules ρ) (state : State ρ) (call : Call ρ)
    (lease : JobLease) (payload : Bytes) : Prop where
  commits : ∃ now wait following publish store,
    call = .jobs (.commitJob lease payload now wait following publish) ∧
      commitJob (hooksAt rules state.tables) state.jobs lease payload now wait following publish =
        .ok (true, store)
  isObject : (rules.hooks.decode payload).isObject = true
  schema : PyText.startsWith (rules.hooks.decode payload).schema "local_parser_checkpoint_" = true

/-- A committed checkpoint is complete. -/
theorem CommitsCheckpoint.complete {payload : Bytes}
    (h : CommitsCheckpoint rules state call lease payload) (hkept : Kept rules state.tables) :
    Complete rules state.tables lease.message (rules.envelope payload) := by
  obtain ⟨now, wait, following, publish, store, -, hcommit⟩ := h.commits
  have hchecked := commit_checked hcommit h.isObject h.schema
  obtain ⟨⟨⟩, -, hraster⟩ := bind_ok hchecked
  exact checkCheckpoint_ok hkept hraster

structure Guaranteed (rules : Rules ρ) (rest : ρ) (calls : List (Call ρ)) : Prop where
  owner : ∀ front call back lease request, calls = front ++ call :: back →
    Registers rules (after (next rules) (State.initial rest) front) call lease request →
    ∃ now wait job run, call = .register lease (some request) now wait ∧
      lease.message.stage = "parse" ∧
      owned rules.hooks (after (next rules) (State.initial rest) front).jobs lease (now + wait) =
        some (job, run)
  once : ∀ front call middle other back lease lease' request request',
    calls = front ++ call :: (middle ++ other :: back) →
    Registers rules (after (next rules) (State.initial rest) front) call lease request →
    Registers rules (after (next rules) (State.initial rest) (front ++ call :: middle)) other
      lease' request' →
    request'.requestId = request.requestId → Collision rules request request'
  bounded : ∀ row ∈ (after (next rules) (State.initial rest) calls).tables.requests,
    ∃ snapshot policy, (after (next rules) (State.initial rest) calls).tables.snapshots.find
        (row.tenantId, row.runId) = some snapshot ∧
      snapshot.payload.rasterOcrPolicy = some policy ∧
      ((requestsOf (after (next rules) (State.initial rest) calls).tables
        (row.tenantId, row.runId)).length : Int) ≤ policy.maxCalls
  lasting : ∀ front back, calls = front ++ back →
    Lasting (after (next rules) (State.initial rest) front).tables
      (after (next rules) (State.initial rest) calls).tables
  registered : ∀ row ∈ (after (next rules) (State.initial rest) calls).tables.requests,
    ∃ front call back lease request, calls = front ++ call :: back ∧
      Registers rules (after (next rules) (State.initial rest) front) call lease request ∧
      row = requestRow rules lease request
  returned : ∀ row ∈ (after (next rules) (State.initial rest) calls).tables.receipts,
    ∃ front back lease requestId receipt stored,
      calls = front ++ .finish lease requestId receipt :: back ∧
      Returned rules (after (next rules) (State.initial rest) front)
        (after (next rules) (State.initial rest) (front ++ [.finish lease requestId receipt])).tables
        lease requestId receipt stored ∧
      row = receiptRow rules lease.message requestId stored.value receipt
  checkpoints : ∀ front call back lease payload, calls = front ++ call :: back →
    CommitsCheckpoint rules (after (next rules) (State.initial rest) front) call lease payload →
    Complete rules (after (next rules) (State.initial rest) front).tables lease.message
      (rules.envelope payload)
  validated : ∀ message envelope,
    checkCheckpoint rules (after (next rules) (State.initial rest) calls).tables message envelope =
        .ok () →
      Complete rules (after (next rules) (State.initial rest) calls).tables message envelope

/-- The registry under every order of its transactions. -/
theorem raster_registry (rules : Rules ρ) (rest : ρ) (calls : List (Call ρ)) :
    Guaranteed rules rest calls where
  owner := by
    intro front call back lease request _ h
    obtain ⟨now, wait, hcall, hmade⟩ := h.enrolled
    obtain ⟨job, run, howned⟩ := hmade.authorized.owns
    exact ⟨now, wait, job, run, hcall, hmade.authorized.parses, howned⟩
  once := by
    intro front call middle other back lease lease' request request' _ hfirst hsecond hid
    exact registered_once hfirst hsecond hid
  bounded := by
    intro row hrow
    have hwell := after_kept (kept_initial rest) calls row hrow
    obtain ⟨snapshot, policy, hsnapshot, hpolicy, hcalls⟩ := hwell.frozen
    exact ⟨snapshot, policy, hsnapshot, hpolicy, hcalls ▸ hwell.room⟩
  lasting := by
    rintro front back rfl
    rw [after_append]
    exact after_lasting back
  registered := fun row hrow => request_registered hrow
  returned := fun row hrow => receipt_returned hrow
  checkpoints := by
    intro front call back lease payload _ h
    exact h.complete (after_kept (kept_initial rest) front)
  validated := fun _ _ h => checkCheckpoint_ok (after_kept (kept_initial rest) calls) h

end Checkpoints

end ProofOps.Adapters.Local.Raster
