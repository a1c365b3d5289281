import ProofOps.Adapters.Local.ReconciliationStore
import ProofOps.Application.Reconciliation.Explanations

/-!
# What a call on reconciliation cases can do

A call that succeeds registers a new case, moves the head of a case by one revision, or
answers with a stored response.  An evaluation completes only with the registries of a
reviewed head with an approval.
-/

namespace ProofOps.Adapters.Local.Reconciliations

open Foundation Foundation.Checked Foundation.Table Foundation.PyJson Domain.Reconciliation
open Application.Reconciliation

variable {snapshot : Snapshot} {head : HeadRow} {request : Request} {key : CaseKey}
variable {attempt : Attempt}
variable {service : ServiceRules} {registries : Registries} {call : Registration}
variable {operation : Operation}

section Steps

variable {Projection : Type} {rules : StoreRules Projection} {store other : Store Projection}
variable {response : Detail Projection}

def Evaluation.Completed (record : Evaluation Projection) : Prop :=
  ∃ output, record.result = .evaluated output ∧ output.executionState = .completed

theorem exists_source_of_checkSubmission
    {packet : Packet} {policy : Policy} {checked : Packet × Policy}
    (h : checkSubmission service registries packet policy = .ok checked) :
    ∃ source, source ∈ packet.sources := by
  have hclaim : packet.claim.sourceId ∈ packet.sourceIds :=
    isOwnSource_known (checkSubmission_references h) (.inl rfl)
  obtain ⟨source, hsource, -⟩ := List.mem_map.mp hclaim
  exact ⟨source, hsource⟩

theorem reconcile_evaluated_registries {packet : Packet} {policy : Policy} {output : Output}
    (h : reconcile service registries packet policy = .ok (.evaluated output)) :
    registries.policies ≠ none ∧ registries.documents ≠ none := by
  obtain ⟨given, result, htrust, -, -⟩ := reconcile_evaluated h
  obtain ⟨checked, hchecked, -⟩ := bind_ok htrust
  obtain ⟨source, hsource⟩ := exists_source_of_checkSubmission hchecked
  obtain ⟨-, ⟨entry, happroved⟩, hsources, -⟩ := checkSubmission_ok hchecked
  obtain ⟨lookup, hlookup, -⟩ := happroved.registered
  obtain ⟨document, hslot, -⟩ := (hsources source hsource).bound
  constructor
  · rw [hlookup]
    exact Option.some_ne_none lookup
  · intro hnone
    unfold documentSlot at hslot
    rw [hnone] at hslot
    cases hslot

theorem reconcileCase_evaluated {files : Files}
    {output : Output} (h : reconcileCase rules snapshot head files = .ok (.evaluated output)) :
    head.reviewState = .reviewed ∧ head.policyApproved = true := by
  obtain ⟨hpolicies, hdocuments⟩ := reconcile_evaluated_registries (mapError_ok_iff.mp h)
  constructor
  · by_contra hpending
    exact hdocuments (if_neg hpending)
  · by_contra hunapproved
    exact hpolicies (if_neg hunapproved)

inductive Changes (head : HeadRow) (change : Change Projection) : Request → Prop where
  | review {reason : String} {coverage : Bool} {event : ReviewEvent}
      (hpayload : change.payload = .review event)
      (hstate : change.reviewState = .reviewed)
      (happroved : change.policyApproved = head.policyApproved)
      (hlatest : change.latestResultRevision = head.latestResultRevision) :
      Changes head change (.review reason coverage)
  | approval {approved : Bool} {reason : String} {event : ApprovalEvent}
      (hpayload : change.payload = .policyApproval event)
      (hevent : event.approved = approved)
      (hstate : change.reviewState = head.reviewState)
      (happroved : change.policyApproved = approved)
      (hlatest : change.latestResultRevision = head.latestResultRevision) :
      Changes head change (.approval approved reason)
  | evaluation {record : Evaluation Projection}
      (hpayload : change.payload = .evaluation record)
      (hcompleted : record.Completed →
        head.reviewState = .reviewed ∧ head.policyApproved = true)
      (hstate : change.reviewState = head.reviewState)
      (happroved : change.policyApproved = head.policyApproved)
      (hlatest : change.latestResultRevision = some (head.revision + 1)) :
      Changes head change .evaluation

theorem applyRequest_changes {actor now : String} {files : Files} {change : Change Projection}
    (h : applyRequest rules snapshot head (head.revision + 1) actor now files request =
      .ok change) : Changes head change request := by
  cases request with
  | review reason coverage =>
    cases h
    exact .review rfl rfl rfl rfl
  | approval approved reason =>
    cases h
    exact .approval rfl rfl rfl rfl rfl
  | evaluation =>
    have happly : applyEvaluation rules snapshot head (head.revision + 1) actor now files =
        .ok change := h
    obtain ⟨result, hresult, hrest⟩ := bind_ok happly
    obtain ⟨projection, -, hchange⟩ := bind_ok hrest
    cases pure_ok hchange
    refine .evaluation rfl (fun hcompleted => ?_) rfl rfl rfl
    obtain ⟨output, houtput, -⟩ := hcompleted
    dsimp only at houtput
    rw [houtput] at hresult
    exact reconcileCase_evaluated hresult

/-! ### Calls -/

structure Registered (rules : StoreRules Projection) (store other : Store Projection)
    (key : CaseKey) (actor now : String) (snapshot : Snapshot) : Prop where
  case : store.cases.insert? ⟨key, now, actor, snapshot⟩ = some other.cases
  first : store.revisions.insert?
    (revisionRow rules key 1 actor now (.registration snapshot.provenance actor)) =
      some other.revisions
  head : store.heads.insert? (firstHead key now) = some other.heads
  idempotency : other.idempotency = store.idempotency
  unapproved : unapproved snapshot.policy = snapshot.policy

structure Advanced (rules : StoreRules Projection) (store other : Store Projection)
    (attempt : Attempt) (response : Detail Projection) (head : HeadRow)
    (change : Change Projection) : Prop where
  found : store.heads.find attempt.key = some head
  current : head.revision = attempt.expected
  changes : Changes head change attempt.request
  appended : store.revisions.insert?
    (revisionRow rules attempt.key (head.revision + 1) attempt.actor attempt.now change.payload) =
      some other.revisions
  heads : other.heads = store.heads.put (nextHead head change attempt.now)
  cases : other.cases = store.cases
  stored : store.idempotency.insert?
    { case := attempt.key
      operation := attempt.request.operation
      idempotencyKey := attempt.idempotencyKey
      requestSha256 := rules.requestSha256 attempt.request
      response := response } = some other.idempotency

theorem validateBundle_unapproved {bundle : Option Bundle} {draft : Draft}
    (h : validateBundle rules bundle = .ok draft) : unapproved draft.policy = draft.policy := by
  obtain ⟨supplied, -, h⟩ := bind_ok h
  replace h := rest_ok h
  obtain ⟨packet, -, h⟩ := bind_ok h
  obtain ⟨policy, -, h⟩ := bind_ok h
  obtain ⟨documents, -, h⟩ := bind_ok h
  obtain ⟨artifacts, -, h⟩ := bind_ok h
  obtain ⟨coverage, -, h⟩ := bind_ok h
  replace h := rest_ok h
  replace h := rest_ok h
  replace h := rest_ok h
  replace h := rest_ok h
  replace h := rest_ok h
  cases pure_ok h
  rfl

theorem textOr_ok {error : StoreError} {value : Option String} {text : String}
    (h : textOr error value = .ok text) : value = some text := by
  unfold textOr at h
  cases value with
  | none => cases h
  | some found =>
    dsimp only at h
    split_ifs at h
    cases h
    rfl

theorem insertCase_ok {actor : String}
    {imported : List ImportedSource} (hpolicy : unapproved snapshot.policy = snapshot.policy)
    (h : insertCase rules store call key actor snapshot imported = .ok (response, other)) :
    Registered rules store other key actor call.now snapshot := by
  obtain ⟨cases, hcases, h⟩ := bind_ok h
  obtain ⟨sources, -, h⟩ := bind_ok h
  obtain ⟨revisions, hrevisions, h⟩ := bind_ok h
  obtain ⟨heads, hheads, h⟩ := bind_ok h
  obtain ⟨made, -, h⟩ := bind_ok h
  cases pure_ok h
  exact
    { case := insertOr_ok hcases
      first := insertOr_ok hrevisions
      head := insertOr_ok hheads
      idempotency := rfl
      unapproved := hpolicy }

theorem registerCase_ok (h : registerCase rules store call = .ok (response, other)) :
    ∃ tenantId actor snapshot, "admin" ∈ call.auth.capabilities ∧
      call.auth.tenantId = some tenantId ∧ call.auth.userSub = some actor ∧
      Registered rules store other ⟨tenantId, call.caseId⟩ actor call.now snapshot := by
  obtain ⟨⟨⟩, hcapability, h⟩ := bind_ok h
  obtain ⟨tenantId, htenant, h⟩ := bind_ok h
  obtain ⟨draft, hdraft, h⟩ := bind_ok h
  obtain ⟨anchor, -, h⟩ := bind_ok h
  obtain ⟨actor, hactor, h⟩ := bind_ok h
  obtain ⟨imported, -, h⟩ := bind_ok h
  exact ⟨tenantId, actor, _, not_not.mp (refuse_ok_iff.mp hcapability), textOr_ok htenant,
    textOr_ok hactor, insertCase_ok (validateBundle_unapproved hdraft) h⟩

theorem headRow_ok (h : headRow store key = .ok head) :
    store.heads.find key = some head := by
  unfold headRow at h
  cases hfind : store.heads.find key with
  | none => simp [hfind] at h
  | some found =>
    simp only [hfind, Except.ok.injEq] at h
    rw [h]

theorem caseRow_ok {row : CaseRow} (h : caseRow store key = .ok row) :
    store.cases.find key = some row := by
  unfold caseRow at h
  cases hfind : store.cases.find key with
  | none => simp [hfind] at h
  | some found =>
    simp only [hfind, Except.ok.injEq] at h
    rw [h]

theorem advance_ok (h : advance rules store attempt snapshot = .ok (response, other)) :
    ∃ head change, Advanced rules store other attempt response head change := by
  obtain ⟨head, hhead, h⟩ := bind_ok h
  obtain ⟨⟨⟩, hcurrent, h⟩ := bind_ok h
  obtain ⟨change, hchange, h⟩ := bind_ok h
  obtain ⟨revisions, hrevisions, h⟩ := bind_ok h
  obtain ⟨made, -, h⟩ := bind_ok h
  obtain ⟨idempotency, hidempotency, h⟩ := bind_ok h
  cases pure_ok h
  exact ⟨head, change,
    { found := headRow_ok hhead
      current := not_not.mp (refuse_ok_iff.mp hcurrent)
      changes := applyRequest_changes hchange
      appended := insertOr_ok hrevisions
      heads := rfl
      cases := rfl
      stored := insertOr_ok hidempotency }⟩

inductive Transacted (rules : StoreRules Projection) (store other : Store Projection)
    (attempt : Attempt) (response : Detail Projection) : Prop where
  | replayed {row : CaseRow} {replay : IdempotencyRow Projection}
      (hcase : store.cases.find attempt.key = some row)
      (hreplay : store.idempotency.find attempt.idempotency = some replay)
      (hhash : replay.requestSha256 = rules.requestSha256 attempt.request)
      (hresponse : response = replay.response) (hsame : other = store)
  | advanced {row : CaseRow} {head : HeadRow} {change : Change Projection}
      (hcase : store.cases.find attempt.key = some row)
      (hadvanced : Advanced rules store other attempt response head change)

theorem transact_ok (h : transact rules store attempt = .ok (response, other)) :
    attempt.key.caseId ≠ "" ∧ Transacted rules store other attempt response := by
  obtain ⟨⟨⟩, hid, h⟩ := bind_ok h
  obtain ⟨row, hrow, h⟩ := bind_ok h
  refine ⟨refuse_ok_iff.mp hid, ?_⟩
  cases hreplay : store.idempotency.find attempt.idempotency with
  | none =>
    simp only [hreplay] at h
    obtain ⟨head, change, hadvanced⟩ := advance_ok h
    exact .advanced (caseRow_ok hrow) hadvanced
  | some replay =>
    simp only [hreplay] at h
    obtain ⟨⟨⟩, hhash, h⟩ := bind_ok h
    cases pure_ok h
    exact .replayed (caseRow_ok hrow) hreplay (not_not.mp (refuse_ok_iff.mp hhash)) rfl rfl

theorem transact_replay {attempt : Attempt} {row : CaseRow} {replay : IdempotencyRow Projection}
    (hid : attempt.key.caseId ≠ "") (hcase : store.cases.find attempt.key = some row)
    (hreplay : store.idempotency.find attempt.idempotency = some replay)
    (hhash : replay.requestSha256 = rules.requestSha256 attempt.request) :
    transact rules store attempt = .ok (replay.response, store) := by
  unfold transact caseRow
  simp only [hcase, hreplay]
  refine bind_ok_iff.mpr ⟨(), refuse_ok_iff.mpr hid, bind_ok_iff.mpr ⟨row, rfl, ?_⟩⟩
  exact bind_ok_iff.mpr ⟨(), refuse_ok_iff.mpr (not_not.mpr hhash), rfl⟩

structure Attempted (rules : StoreRules Projection) (call : Mutation) (request : Request)
    (attempt : Attempt) : Prop where
  capability : request.capability ∈ call.auth.capabilities
  tenant : call.auth.tenantId = some attempt.key.tenantId
  case : attempt.key.caseId = call.caseId
  actor : call.auth.userSub = some attempt.actor
  key : idempotencyKey call.idempotencyKey = .ok attempt.idempotencyKey
  expected : expectedRevision rules call.ifMatch = .ok attempt.expected
  request : attempt.request = request

theorem attemptOf_ok {call : Mutation}
    (h : attemptOf rules call request = .ok attempt) : Attempted rules call request attempt := by
  obtain ⟨⟨⟩, hcapability, h⟩ := bind_ok h
  obtain ⟨tenantId, htenant, h⟩ := bind_ok h
  obtain ⟨key, hkey, h⟩ := bind_ok h
  obtain ⟨expected, hexpected, h⟩ := bind_ok h
  obtain ⟨actor, hactor, h⟩ := bind_ok h
  cases pure_ok h
  exact
    { capability := not_not.mp (refuse_ok_iff.mp hcapability)
      tenant := textOr_ok htenant
      case := rfl
      actor := textOr_ok hactor
      key := hkey
      expected := hexpected
      request := rfl }

theorem requestOf_operation {body : Json}
    (h : requestOf operation body = .ok request) : request.operation = operation := by
  cases operation with
  | review =>
    have hreview : validateReview body = .ok request := h
    obtain ⟨fields, -, h⟩ := bind_ok hreview
    replace h := rest_ok h
    obtain ⟨reason, -, h⟩ := bind_ok h
    replace h := rest_ok h
    replace h := rest_ok h
    obtain ⟨coverage, -, h⟩ := bind_ok h
    cases pure_ok h
    rfl
  | policyApproval =>
    have happroval : validateApproval body = .ok request := h
    obtain ⟨fields, -, h⟩ := bind_ok happroval
    replace h := rest_ok h
    obtain ⟨approved, -, h⟩ := bind_ok h
    obtain ⟨reason, -, h⟩ := bind_ok h
    cases pure_ok h
    rfl
  | evaluation =>
    have hevaluation : validateEvaluation body = .ok request := h
    obtain ⟨fields, -, h⟩ := bind_ok hevaluation
    replace h := rest_ok h
    cases pure_ok h
    rfl

theorem mutate_ok {call : Mutation}
    (h : mutate rules store operation call = .ok (response, other)) :
    ∃ request attempt, requestOf operation call.body = .ok request ∧
      attemptOf rules call request = .ok attempt ∧
      transact rules store attempt = .ok (response, other) := by
  obtain ⟨request, hrequest, h⟩ := bind_ok h
  obtain ⟨attempt, hattempt, h⟩ := bind_ok h
  exact ⟨request, attempt, hrequest, hattempt, h⟩

inductive Step (rules : StoreRules Projection) (store other : Store Projection) : Call → Prop where
  | idle {call : Call} (hsame : other = store) : Step rules store other call
  | registered {call : Registration} {tenantId actor : String} {snapshot : Snapshot}
      (hcapability : "admin" ∈ call.auth.capabilities)
      (htenant : call.auth.tenantId = some tenantId) (hactor : call.auth.userSub = some actor)
      (hregistered : Registered rules store other ⟨tenantId, call.caseId⟩ actor call.now
        snapshot) :
      Step rules store other (.register call)
  | advanced {operation : Operation} {call : Mutation} {request : Request} {attempt : Attempt}
      {response : Detail Projection} {head : HeadRow} {change : Change Projection}
      (hrequest : requestOf operation call.body = .ok request)
      (hattempted : Attempted rules call request attempt)
      (hadvanced : Advanced rules store other attempt response head change) :
      Step rules store other (.mutate operation call)

/-- Every answered call is one of the store's steps. -/
theorem answer_step {call : Call} (h : answer rules store call = .ok (response, other)) :
    Step rules store other call := by
  cases call with
  | register call =>
    obtain ⟨tenantId, actor, snapshot, hcapability, htenant, hactor, hregistered⟩ :=
      registerCase_ok h
    exact .registered hcapability htenant hactor hregistered
  | mutate operation call =>
    obtain ⟨request, attempt, hrequest, hattempt, htransact⟩ := mutate_ok h
    cases (transact_ok htransact).2 with
    | replayed hcase hreplay hhash hresponse hsame => exact .idle hsame
    | advanced hcase hadvanced => exact .advanced hrequest (attemptOf_ok hattempt) hadvanced

theorem next_step (call : Call) : Step rules store (next rules store call) call := by
  unfold next
  cases hanswer : answer rules store call with
  | error error => exact .idle rfl
  | ok result =>
    exact answer_step hanswer

end Steps

end ProofOps.Adapters.Local.Reconciliations
