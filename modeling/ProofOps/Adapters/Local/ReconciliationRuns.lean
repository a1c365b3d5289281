import ProofOps.Adapters.Local.ReconciliationAuthority

/-!
# Reconciliation cases over a run

Revisions, cases and stored responses outlive every sequence of calls, a refused call writes
nothing, and a repeated request has the response that was stored for it.  With the summary of
each log this is what a run guarantees of a case.
-/

namespace ProofOps.Adapters.Local.Reconciliations

open Foundation Foundation.Checked Foundation.Table Foundation.Machine Foundation.Revisions
open Foundation.PyJson Domain.Reconciliation Application.Reconciliation

variable {call : Call} {request : Request} {operation : Operation}

section Runs

variable {Projection : Type} {rules : StoreRules Projection} {store other : Store Projection}
variable {response : Detail Projection}

structure Lasting (store later : Store Projection) : Prop where
  cases : ∀ row ∈ store.cases, row ∈ later.cases
  revisions : ∀ row ∈ store.revisions, row ∈ later.revisions
  idempotency : ∀ row ∈ store.idempotency, row ∈ later.idempotency

theorem Lasting.refl (store : Store Projection) : Lasting store store :=
  ⟨fun _ h => h, fun _ h => h, fun _ h => h⟩

theorem Lasting.trans {first second third : Store Projection} (h : Lasting first second)
    (h' : Lasting second third) : Lasting first third where
  cases := fun row hrow => h'.cases row (h.cases row hrow)
  revisions := fun row hrow => h'.revisions row (h.revisions row hrow)
  idempotency := fun row hrow => h'.idempotency row (h.idempotency row hrow)

theorem Step.lasting (h : Step rules store other call) : Lasting store other := by
  cases h with
  | idle hsame => exact hsame ▸ Lasting.refl store
  | registered hcapability htenant hactor hregistered =>
    exact
      { cases := fun row hrow => (mem_insert? hregistered.case).mpr (.inl hrow)
        revisions := fun row hrow => (mem_insert? hregistered.first).mpr (.inl hrow)
        idempotency := fun row hrow => hregistered.idempotency ▸ hrow }
  | advanced hrequest hattempted hadvanced =>
    exact
      { cases := fun row hrow => hadvanced.cases ▸ hrow
        revisions := fun row hrow => (mem_insert? hadvanced.appended).mpr (.inl hrow)
        idempotency := fun row hrow => (mem_insert? hadvanced.stored).mpr (.inl hrow) }

theorem after_lasting (calls : List Call) : Lasting store (after (next rules) store calls) :=
  @after_related _ _ (next rules) (fun _ => True) Lasting (fun _ _ _ => trivial) Lasting.refl
    (fun h h' => h.trans h') (fun _ call _ => (next_step call).lasting) _ trivial calls

/-! ### Who wrote a revision -/

/-- Who makes the call. -/
def Call.auth : Call → Auth
  | .register call => call.auth
  | .mutate _ call => call.auth

def Payload.capability : Payload Projection → String
  | .registration _ _ => "admin"
  | .review _ => "reviewer"
  | .policyApproval _ => "admin"
  | .evaluation _ => "editor"

def Wrote (call : Call) (row : RevisionRow Projection) : Prop :=
  call.auth.tenantId = some row.case.tenantId ∧ call.auth.userSub = some row.actor ∧
    row.payload.capability ∈ call.auth.capabilities

theorem Changes.capability {head : HeadRow} {change : Change Projection}
    (h : Changes head change request) : change.payload.capability = request.capability := by
  cases h with
  | review hpayload | approval hpayload | evaluation hpayload => rw [hpayload]; rfl

variable {row : RevisionRow Projection}

theorem Step.wrote (h : Step rules store other call) (hrow : row ∈ other.revisions)
    (hnew : row ∉ store.revisions) : Wrote call row := by
  cases h with
  | idle hsame => exact absurd (hsame ▸ hrow) hnew
  | registered hcapability htenant hactor hregistered =>
    rcases (mem_insert? hregistered.first).mp hrow with hold | rfl
    · exact absurd hold hnew
    · exact ⟨htenant, hactor, hcapability⟩
  | advanced hrequest hattempted hadvanced =>
    rcases (mem_insert? hadvanced.appended).mp hrow with hold | rfl
    · exact absurd hold hnew
    · refine ⟨hattempted.tenant, hattempted.actor, ?_⟩
      have hneeded := hadvanced.changes.capability
      rw [hattempted.request] at hneeded
      exact hneeded ▸ hattempted.capability

def Authored (rules : StoreRules Projection) (calls : List Call) (row : RevisionRow Projection) :
    Prop :=
  ∃ front call back, calls = front ++ call :: back ∧
    row ∉ (after (next rules) Store.initial front).revisions ∧
    row ∈ (after (next rules) Store.initial (front ++ [call])).revisions ∧ Wrote call row

theorem authored_of_mem (calls : List Call)
    (hrow : row ∈ (after (next rules) Store.initial calls).revisions) :
    Authored rules calls row := by
  obtain ⟨front, call, back, rfl, hbefore, hafter⟩ :=
    exists_step (p := fun store : Store Projection => row ∈ store.revisions) not_mem_empty hrow
  refine ⟨front, call, back, rfl, hbefore, ?_, (next_step call).wrote hafter hbefore⟩
  rw [after_append]
  exact hafter

def Operation.capability : Operation → String
  | .review => "reviewer"
  | .policyApproval => "admin"
  | .evaluation => "editor"

inductive Refused (rules : StoreRules Projection) (store : Store Projection) : Call → Prop where
  | registerCapability {call : Registration} (h : "admin" ∉ call.auth.capabilities) :
      Refused rules store (.register call)
  | registerBundle {call : Registration} {error : StoreError}
      (h : validateBundle rules call.bundle = .error error) : Refused rules store (.register call)
  | capability {operation : Operation} {call : Mutation}
      (h : operation.capability ∉ call.auth.capabilities) :
      Refused rules store (.mutate operation call)
  | body {operation : Operation} {call : Mutation} {error : StoreError}
      (h : requestOf operation call.body = .error error) :
      Refused rules store (.mutate operation call)
  | stale {operation : Operation} {call : Mutation}
      (h : ∀ tenantId head, call.auth.tenantId = some tenantId →
        store.heads.find ⟨tenantId, call.caseId⟩ = some head →
          expectedRevision rules call.ifMatch ≠ .ok head.revision) :
      Refused rules store (.mutate operation call)

theorem requestOf_capability {body : Json}
    (h : requestOf operation body = .ok request) : request.capability = operation.capability := by
  rw [← requestOf_operation h]
  cases request <;> rfl

/-- A refused call changes nothing. -/
theorem next_refused (h : Refused rules store call) : next rules store call = store := by
  unfold next
  cases hanswer : answer rules store call with
  | error error => rfl
  | ok result =>
    obtain ⟨response, other⟩ := result
    cases h with
    | registerCapability hcapability =>
      obtain ⟨tenantId, actor, snapshot, hadmin, -⟩ := registerCase_ok hanswer
      exact absurd hadmin hcapability
    | registerBundle hbundle =>
      have hregister : registerCase rules store _ = .ok (response, other) := hanswer
      replace hregister := rest_ok hregister
      obtain ⟨tenantId, -, hregister⟩ := bind_ok hregister
      obtain ⟨draft, hdraft, -⟩ := bind_ok hregister
      rw [hbundle] at hdraft
      cases hdraft
    | capability hcapability =>
      obtain ⟨request, attempt, hrequest, hattempt, -⟩ := mutate_ok hanswer
      have hneeded := (attemptOf_ok hattempt).capability
      rw [requestOf_capability hrequest] at hneeded
      exact absurd hneeded hcapability
    | body hbody =>
      obtain ⟨request, attempt, hrequest, -⟩ := mutate_ok hanswer
      rw [hbody] at hrequest
      cases hrequest
    | stale hstale =>
      obtain ⟨request, attempt, hrequest, hattempt, htransact⟩ := mutate_ok hanswer
      have hattempted := attemptOf_ok hattempt
      cases (transact_ok htransact).2 with
      | replayed hcase hreplay hhash hresponse hsame => exact hsame
      | advanced hcase hadvanced =>
        have hkey : attempt.key = ⟨attempt.key.tenantId, _⟩ :=
          congrArg (CaseKey.mk attempt.key.tenantId) hattempted.case
        have hfound := hadvanced.found
        rw [hkey] at hfound
        exact absurd (hadvanced.current ▸ hattempted.expected)
          (hstale _ _ hattempted.tenant hfound)

structure Repeats (rules : StoreRules Projection) (operation : Operation) (call again : Mutation) :
    Prop where
  body : requestOf operation again.body = requestOf operation call.body
  tenant : again.auth.tenantId = call.auth.tenantId
  case : again.caseId = call.caseId
  key : again.idempotencyKey = call.idempotencyKey
  capability : operation.capability ∈ again.auth.capabilities
  actor : ∃ actor, textOr forbidden again.auth.userSub = .ok actor
  precondition : ∃ expected, expectedRevision rules again.ifMatch = .ok expected

theorem Repeats.attempt {call again : Mutation}
    {attempt : Attempt} (h : Repeats rules operation call again)
    (hrequest : requestOf operation call.body = .ok request)
    (hattempt : attemptOf rules call request = .ok attempt) :
    ∃ repeated, attemptOf rules again request = .ok repeated ∧ repeated.key = attempt.key ∧
      repeated.idempotency = attempt.idempotency ∧ repeated.request = attempt.request := by
  replace hattempt := rest_ok hattempt
  obtain ⟨tenantId, htenant, hattempt⟩ := bind_ok hattempt
  obtain ⟨key, hkey, hattempt⟩ := bind_ok hattempt
  obtain ⟨expected, -, hattempt⟩ := bind_ok hattempt
  obtain ⟨actor, -, hattempt⟩ := bind_ok hattempt
  cases pure_ok hattempt
  obtain ⟨who, hwho⟩ := h.actor
  obtain ⟨required, hrequired⟩ := h.precondition
  have hcapability : requireCapability again.auth request.capability = .ok () :=
    refuse_ok_iff.mpr (not_not.mpr (requestOf_capability hrequest ▸ h.capability))
  have htenant' : tenantOf again.auth = .ok tenantId := by
    unfold tenantOf
    rw [h.tenant]
    exact htenant
  refine ⟨⟨⟨tenantId, again.caseId⟩, who, key, required, request, again.now, again.files⟩,
    ?_, ?_, ?_, rfl⟩
  · unfold attemptOf
    refine bind_ok_iff.mpr ⟨(), hcapability, bind_ok_iff.mpr ⟨tenantId, htenant', ?_⟩⟩
    refine bind_ok_iff.mpr ⟨key, h.key ▸ hkey, bind_ok_iff.mpr ⟨required, hrequired, ?_⟩⟩
    exact bind_ok_iff.mpr ⟨who, hwho, rfl⟩
  · rw [h.case]
  · unfold Attempt.idempotency
    rw [h.case]

theorem mutate_repeated {call again : Mutation}
    (h : mutate rules store operation call = .ok (response, other))
    (hrepeats : Repeats rules operation call again) {later : Store Projection}
    (hlasting : Lasting other later) :
    mutate rules later operation again = .ok (response, later) := by
  obtain ⟨request, attempt, hrequest, hattempt, htransact⟩ := mutate_ok h
  obtain ⟨repeated, hrepeated, hkey, hidempotency, hsameRequest⟩ :=
    hrepeats.attempt hrequest hattempt
  obtain ⟨hid, htransacted⟩ := transact_ok htransact
  have hstored : ∃ row replay, other.cases.find attempt.key = some row ∧
      other.idempotency.find attempt.idempotency = some replay ∧
      replay.requestSha256 = rules.requestSha256 attempt.request ∧ response = replay.response := by
    cases htransacted with
    | replayed hcase hreplay hhash hresponse hsame =>
      rw [hsame]
      exact ⟨_, _, hcase, hreplay, hhash, hresponse⟩
    | advanced hcase hadvanced =>
      have hinserted : other.idempotency.find attempt.idempotency = some _ :=
        find_eq_some_iff.mpr ⟨(mem_insert? hadvanced.stored).mpr (.inr rfl), rfl⟩
      exact ⟨_, _, hadvanced.cases ▸ hcase, hinserted, rfl, rfl⟩
  obtain ⟨row, replay, hcase, hreplay, hhash, rfl⟩ := hstored
  obtain ⟨hrow, hrowKey⟩ := find_eq_some_iff.mp hcase
  obtain ⟨hreplayMem, hreplayKey⟩ := find_eq_some_iff.mp hreplay
  unfold mutate
  rw [hrepeats.body]
  refine bind_ok_iff.mpr ⟨request, hrequest, bind_ok_iff.mpr ⟨repeated, hrepeated, ?_⟩⟩
  refine @transact_replay _ _ _ _ row _ (hkey ▸ hid) ?_ ?_ (hsameRequest ▸ hhash)
  · exact find_eq_some_iff.mpr ⟨hlasting.cases row hrow, hrowKey.trans hkey.symm⟩
  · exact find_eq_some_iff.mpr
      ⟨hlasting.idempotency replay hreplayMem, hreplayKey.trans hidempotency.symm⟩

/-- **Authority over reconciliation cases.**  After every run of calls by any callers, the
revisions of a case are exactly those up to its head, and each of them stays as it is and was
written by a caller with the capability for it; the latest result of a head is an evaluation;
a completed evaluation has a review and an approval that was not revoked before it, and no
stored policy approves itself; a call without capability, valid body or current precondition
changes nothing; and a repeated request has the response of the first, and writes nothing. -/
theorem case_authority (rules : StoreRules Projection) (calls : List Call) :
    let store := after (next rules) Store.initial calls
    (∀ head ∈ store.heads, Spans store.revisions head.case 1 head.revision ∧
      ∀ revision, head.latestResultRevision = some revision →
        IsEvaluation store.revisions head.case revision) ∧
    (∀ row ∈ store.revisions, (∃ head ∈ store.heads, head.case = row.case) ∧
      Authored rules calls row ∧
      ∀ later, row ∈ (after (next rules) store later).revisions) ∧
    (∀ row ∈ store.revisions, Authorised store.revisions row) ∧
    (∀ row ∈ store.cases, unapproved row.snapshot.policy = row.snapshot.policy) ∧
    (∀ call, Refused rules store call → next rules store call = store) ∧
    ∀ operation call again response other,
      mutate rules store operation call = .ok (response, other) →
        Repeats rules operation call again → ∀ later,
          mutate rules (after (next rules) other later) operation again =
            .ok (response, after (next rules) other later) := by
  intro store
  have hsound : Sound store := sound_after calls
  refine ⟨fun head hhead => ?_, fun row hrow => ⟨?_, authored_of_mem calls hrow, fun later => ?_⟩,
    hsound.authorised, hsound.policies, fun call h => next_refused h, ?_⟩
  · exact ⟨(hsound.heads head hhead).spans, (hsound.heads head hhead).latest⟩
  · obtain ⟨case, hcase, hkey⟩ := hsound.owned row hrow
    obtain ⟨head, hhead, hheadKey⟩ := hsound.headed case hcase
    exact ⟨head, hhead, hheadKey.trans hkey⟩
  · exact (after_lasting later).revisions row hrow
  · intro operation call again response other hmutate hrepeats later
    exact mutate_repeated hmutate hrepeats (after_lasting later)

end Runs

/-! ### A case of two periods -/

namespace TwoPeriods

def rules : StoreRules Unit where
  service := Registered.rules
  projectResult := fun _ _ _ => .ok ()
  documentsSha256 := fun _ => ""
  artifactsSha256 := fun _ => ""
  coverageSha256 := fun _ => ""
  payloadSha256 := fun _ => ""
  requestSha256 := fun _ => ""
  isDigits := fun text => text.toList.all Char.isDigit
  intOf := fun text => some (text.toList.foldl (fun value c => 10 * value + (c.toNat - 48)) 0)

def auth : Auth :=
  ⟨some "tenant", some "owner", ["admin", "reviewer", "editor"]⟩

def bundle : Bundle where
  keys := ["packet", "policy", "documents", "artifacts", "coverage"]
  packet := some Registered.packet
  policy := some plainPolicy
  documents := some [("report", documentSlot Registered.registries "report"),
    ("filing", documentSlot Registered.registries "filing")]
  artifacts := some [("report", ⟨"report.txt", "text", Registered.digest⟩),
    ("filing", ⟨"filing.txt", "text", Registered.digest⟩)]
  coverage := some [("receipt", ((Registered.registries.coverage.map fun lookup =>
    lookup "receipt").getD .missing))]

def registration : Registration where
  auth := auth
  runId := "run"
  claimId := "claim"
  bundle := some bundle
  evidence := some
    { tenantId := some "tenant", sourceQuality := some "verified", documentVersionId := "report"
      quote := "2024", companyId := "company", localSynthetic := false, mutationEpoch := 0
      tagHead := .ok (1, .performance) }
  imported := .ok [⟨Registered.source "s1" "report", "text", "report.txt", 1⟩,
    ⟨Registered.source "s2" "filing", "text", "filing.txt", 1⟩]
  caseId := "case"
  now := "2026-01-01T00:00:00Z"

def mutation (body : Json) (ifMatch key : String) : Mutation where
  auth := auth
  caseId := "case"
  body := body
  ifMatch := .str ifMatch
  idempotencyKey := .str key
  now := "2026-01-01T00:00:00Z"
  files := ⟨fun _ => some [50], fun _ _ => true⟩

def calls : List Call :=
  [.register registration,
   .mutate .review (mutation (.obj [("confirm_decision_bindings", .bool true),
     ("confirm_search_coverage", .bool true), ("confirm_source_bindings", .bool true),
     ("reason", .str "checked")]) "\"1\"" "0123456789abcdef"),
   .mutate .policyApproval (mutation (.obj [("approved", .bool true),
     ("reason", .str "checked")]) "\"2\"" "0123456789abcdef"),
   .mutate .evaluation (mutation (.obj []) "\"3\"" "0123456789abcdef")]

def isCompleted (row : RevisionRow Unit) : Bool :=
  match row.payload with
  | .evaluation record =>
    record.result.output.any fun output => output.executionState = .completed
  | _ => false

theorem isCompleted_iff {row : RevisionRow Unit} (h : isCompleted row = true) :
    ∃ record, row.payload = .evaluation record ∧ record.Completed := by
  unfold isCompleted at h
  cases hpayload : row.payload with
  | evaluation record =>
    simp only [hpayload] at h
    cases hresult : record.result with
    | blocked reason => simp [hresult, Application.Reconciliation.Reply.output] at h
    | evaluated output =>
      simp only [hresult, Application.Reconciliation.Reply.output, Option.any_some, decide_eq_true_eq] at h
      exact ⟨record, rfl, output, hresult, h⟩
  | registration provenance actor | review event | policyApproval event => simp [hpayload] at h

end TwoPeriods

theorem case_authority_two_periods :
    ∃ row ∈ (after (next TwoPeriods.rules) Store.initial TwoPeriods.calls).revisions,
      (∃ record, row.payload = .evaluation record ∧ record.Completed) ∧
        Authorised (after (next TwoPeriods.rules) Store.initial TwoPeriods.calls).revisions row := by
  have hrun : (after (next TwoPeriods.rules) Store.initial TwoPeriods.calls).revisions.rows.any
      TwoPeriods.isCompleted = true := by
    decide +kernel
  obtain ⟨row, hrow, hcompleted⟩ := List.any_eq_true.mp hrun
  exact ⟨row, hrow, TwoPeriods.isCompleted_iff hcompleted,
    (case_authority TwoPeriods.rules TwoPeriods.calls).2.2.1 row hrow⟩

end ProofOps.Adapters.Local.Reconciliations
