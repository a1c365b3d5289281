import ProofOps.Agent.ExtractionReplay

/-!
# Runs over a receipts directory

Any calls, one after the other, each of which may crash between two of its effects.  The provider
is asked at most once for an identity, an unanswered directory refuses for ever, and a stored
response comes to what the interrupted call would have come to, whichever of its last writes were
performed.
-/

namespace ProofOps.Agent.UpstageExtraction

open Foundation Foundation.Checked Foundation.PyJson Foundation.Machine

/-! ### One step -/

section Steps

variable {world : World} {step : Step} {requestId : String} {directory : Directory}

theorem effects_initial : world.effects step <+: (world.answer step).1 := by
  unfold World.effects
  cases step.crash with
  | none => exact List.prefix_refl _
  | some count => exact List.take_prefix count _

theorem next_receipts :
    (world.next step).receipts = Function.update world.receipts step.call.requestId
      ((world.effects step).foldl Effect.apply (world.receipts step.call.requestId)) :=
  receipts_foldl

theorem next_dispatched :
    (world.next step).dispatched = world.dispatched ++
      List.replicate ((world.effects step).countP Effect.isDispatch) step.call.requestId :=
  dispatched_foldl

theorem next_receipts_self :
    (world.next step).receipts step.call.requestId =
      (world.effects step).foldl Effect.apply (world.receipts step.call.requestId) := by
  rw [next_receipts, Function.update_self]

theorem next_receipts_other (h : step.call.requestId ≠ requestId) :
    (world.next step).receipts requestId = world.receipts requestId := by
  rw [next_receipts, Function.update_of_ne (Ne.symm h)]

theorem answer_live (h : world.receipts step.call.requestId = none) :
    world.answer step = step.call.live step.truncationCheck step.completion := by
  unfold World.answer
  rw [h]

theorem answer_replay (h : world.receipts step.call.requestId = some directory) :
    world.answer step = step.call.replay step.truncationCheck directory := by
  unfold World.answer
  rw [h]

theorem dispatched_replay (h : world.receipts step.call.requestId = some directory) :
    (world.next step).dispatched = world.dispatched := by
  have hclosing : ∀ effect ∈ world.effects step, effect.Closing := fun effect heffect =>
    closing_replay effect (answer_replay h ▸ effects_initial.subset heffect)
  rw [next_dispatched, countP_closing hclosing]
  exact List.append_nil _

end Steps

def World.asked (requestId : String) (world : World) : Nat :=
  world.dispatched.count requestId + if (world.receipts requestId).isSome then 0 else 1

theorem asked_next (requestId : String) (world : World) (step : Step) :
    (world.next step).asked requestId ≤ world.asked requestId := by
  unfold World.asked
  by_cases hid : step.call.requestId = requestId
  · subst hid
    cases hreceipts : world.receipts step.call.requestId with
    | some directory =>
      have hstays : ((world.next step).receipts step.call.requestId).isSome = true := by
        rw [next_receipts_self, hreceipts]
        exact isSome_foldl rfl
      rw [dispatched_replay hreceipts, if_pos hstays, if_pos (by rfl)]
    | none =>
      have hcount : (world.next step).dispatched.count step.call.requestId =
          world.dispatched.count step.call.requestId +
            (world.effects step).countP Effect.isDispatch := by
        rw [next_dispatched, List.count_append, List.count_replicate_self]
      have hfront : world.effects step <+:
          (step.call.live step.truncationCheck step.completion).1 :=
        answer_live hreceipts ▸ effects_initial
      rw [hcount, next_receipts_self, hreceipts]
      cases heffects : world.effects step with
      | nil => exact Nat.le_refl _
      | cons effect effects =>
        -- The first effect makes the directory, so this was the only chance.
        have hfirst : effect = .mkdir := by
          obtain ⟨suffix, hsuffix⟩ := hfront
          rw [heffects] at hsuffix
          exact (List.cons_eq_cons.mp hsuffix).1
        have hstays : ((effect :: effects).foldl Effect.apply none).isSome = true := by
          rw [hfirst, List.foldl_cons]
          exact isSome_foldl rfl
        have hone : (effect :: effects).countP Effect.isDispatch ≤ 1 :=
          (heffects ▸ hfront.sublist.countP_le).trans countP_live
        rw [if_pos hstays, if_neg (by decide)]
        omega
  · rw [next_dispatched, next_receipts_other hid, List.count_append, List.count_replicate,
      if_neg (by simpa using hid)]
    exact Nat.le_refl _

/-- Nor does a run. -/
theorem asked_after (requestId : String) (world : World) (steps : List Step) :
    (after World.next world steps).asked requestId ≤ world.asked requestId :=
  @after_invariant _ _ _ (fun reached : World => reached.asked requestId ≤ world.asked requestId)
    (fun reached step h => (asked_next requestId reached step).trans h) world (Nat.le_refl _) steps

section Unanswered

variable {requestId : String} {directory : Directory}

theorem next_unanswered {world : World} (hraw : directory .rawResponse = none)
    (h : world.receipts requestId = some directory) (step : Step) :
    (world.next step).receipts requestId = some directory := by
  by_cases hid : step.call.requestId = requestId
  · subst hid
    obtain ⟨refusal, hreplay⟩ :=
      replay_unanswered step.call step.truncationCheck hraw
    have hnone : world.effects step = [] := by
      have hfront : world.effects step <+: (world.answer step).1 := effects_initial
      rw [answer_replay h, hreplay] at hfront
      exact List.prefix_nil.mp hfront
    rw [next_receipts_self, hnone, h]
    rfl
  · rw [next_receipts_other hid, h]

theorem after_unanswered {world : World} (hraw : directory .rawResponse = none)
    (h : world.receipts requestId = some directory) (steps : List Step) :
    (after World.next world steps).receipts requestId = some directory :=
  @after_invariant _ _ _ (fun reached : World => reached.receipts requestId = some directory)
    (fun _ step hreached => next_unanswered hraw hreached step) world h steps

end Unanswered

/-! ### Answered directories -/

section Answered

variable {call : Call} {check check' : Json → Bool} {completion : Completion} {raw : Json}
  {directory : Directory}

theorem ending_failure {text : Text} (hraw : rawResponse completion = some raw)
    (h : .write .failure text ∈ (call.ending check completion).1) :
    ∃ code, call.ending check completion = call.failContent code := by
  have hconclude : ∀ {metadata : Dict} {content : String},
      .write .failure text ∈ (call.conclude metadata content).1 →
        ∃ code, call.conclude metadata content = call.failContent code := by
    intro metadata content hmem
    unfold Call.conclude at hmem ⊢
    cases hresolve : call.resolve content with
    | spans spans rejected =>
      rw [hresolve] at hmem
      simp at hmem
    | undecodable | invalid message => exact ⟨_, rfl⟩
    | missingKey | raised =>
      rw [hresolve] at hmem
      cases hmem
  cases completion with
  | returned result =>
    unfold Call.ending Call.settle at h ⊢
    dsimp only at h ⊢
    split_ifs at h ⊢ with hmark
    · exact ⟨_, rfl⟩
    · split at h
      · exact hconclude h
      · exact ⟨_, rfl⟩
  | returnedOther typeName => exact ⟨_, rfl⟩
  | raised code => cases hraw

theorem ending_result {result : Dict} {content : String} {text : Text}
    (hcontent : Fields.get result "content" = some (.str content))
    (h : .write .result text ∈ (call.ending check (.returned result)).1) :
    ∃ spans rejected, call.resolve content = .spans spans rejected ∧
      text = .canonical (.obj (call.result (metadata result) content spans rejected)) := by
  have hcode : ∀ {code : String}, .write .result text ∉ (call.failContent code).1 := by
    intro code hmem
    simp [Call.failContent] at hmem
  unfold Call.ending Call.settle at h
  dsimp only at h
  split_ifs at h with hmark
  · exact absurd h hcode
  · rw [hcontent] at h
    dsimp only at h
    unfold Call.conclude at h
    cases hresolve : call.resolve content with
    | spans spans rejected =>
      rw [hresolve] at h
      cases List.mem_singleton.mp h
      exact ⟨spans, rejected, rfl, rfl⟩
    | undecodable | invalid message =>
      rw [hresolve] at h
      exact absurd h hcode
    | missingKey | raised =>
      rw [hresolve] at h
      cases h

theorem storedFailure_content (reason : Option String) :
    ∃ code, call.storedFailure check directory (call.failureRecord contentError reason) =
      .outputError (.str contentError) code := by
  have hget : ∀ key, key ≠ "reason_code" →
      Fields.get (call.failureRecord contentError reason) key =
        Fields.get [("error", Json.str contentError), ("packet_sha256", .str call.packetSha),
          ("request_id", .str call.requestId)] key := by
    intro key hkey
    cases reason with
    | none => rfl
    | some code => exact (Fields.get_set _ _ _ _).trans (if_neg hkey)
  have hpacket : Fields.get (call.failureRecord contentError reason) "packet_sha256" =
      some (.str call.packetSha) := (hget _ (by decide)).trans rfl
  have hrequest : Fields.get (call.failureRecord contentError reason) "request_id" =
      some (.str call.requestId) := (hget _ (by decide)).trans rfl
  have herror : Fields.get (call.failureRecord contentError reason) "error" =
      some (.str contentError) := (hget _ (by decide)).trans rfl
  have hisolated : isolatedCodes.contains contentError = false := by decide
  have htransport : ["UPSTAGE_REQUEST_FAILED", "UPSTREAM_UNAVAILABLE"].contains contentError =
      false := by decide
  have hstop : transportStopCodes.contains contentError = false := by decide
  unfold Call.storedFailure
  rw [hpacket, hrequest, if_neg (by simp)]
  unfold Call.storedError
  rw [herror]
  dsimp only
  rw [hisolated, htransport, hstop, Bool.and_false, if_neg Bool.false_ne_true,
    if_neg Bool.false_ne_true, if_neg Bool.false_ne_true, if_neg (by decide)]
  exact ⟨_, rfl⟩

theorem replay_failed (hraw : rawResponse completion = some raw)
    (h : Pending call raw (call.ending check completion) directory)
    (hfailure : directory .failure ≠ none) :
    (call.replay check' directory).1 = [] ∧
      Agree (call.replay check' directory).2 (call.ending check completion).2 := by
  obtain ⟨text, htext⟩ := Option.ne_none_iff_exists'.mp hfailure
  have hmem := h.failure text htext
  obtain ⟨code, hending⟩ := ending_failure hraw hmem
  rw [hending] at hmem
  have hstored : text =
      .canonical (.obj (call.failureRecord contentError (call.reasonCode code))) := by
    cases List.mem_singleton.mp hmem
    rfl
  obtain ⟨diagnosis, hrefusal⟩ : ∃ diagnosis, call.storedFailure check' directory
      (call.failureRecord contentError (call.reasonCode code)) =
        .outputError (.str contentError) diagnosis := storedFailure_content (call.reasonCode code)
  have hwire : call.checkWire directory = .ok () :=
    refuse_ok_iff.mpr fun hboth => hboth.2 h.request
  have hcheck : call.checkFailure check' directory =
      .error (.outputError (.str contentError) diagnosis) := by
    unfold Call.checkFailure
    rw [htext, hstored, ← hrefusal]
    rfl
  have hrefused : call.reconstruction check' directory =
      .error (.outputError (.str contentError) diagnosis) := by
    unfold Call.reconstruction
    rw [hwire, hcheck]
    rfl
  rw [replay_error hrefused, hending]
  exact ⟨rfl, rfl⟩

theorem reconstruction_response {result : Dict} {content : String} {ending : List Effect × Reply}
    (h : Pending call (.obj (metadata result)) ending directory)
    (hfailure : directory .failure = none)
    (hcontent : Fields.get result "content" = some (.str content)) :
    call.reconstruction check' directory =
      (call.reconstruct content >>= fun resolved =>
        call.checkResult directory resolved.1 resolved.2 >>= fun _ =>
          pure ⟨metadata result, content, resolved.1, resolved.2⟩) := by
  have hwire : call.checkWire directory = .ok () :=
    refuse_ok_iff.mpr fun hboth => hboth.2 h.request
  have hcheck : call.checkFailure check' directory = .ok () := by
    unfold Call.checkFailure
    rw [hfailure]
  have hpresent : refuse (directory .rawResponse = none)
      (Refusal.valueError "EXTRACTION_RECEIPT_UNSETTLED") = .ok () := by
    rw [refuse_ok_iff, h.rawResponse]
    exact Option.some_ne_none _
  have hpacket : refuse (directory .packet ≠ some (.canonical call.packet))
      (Refusal.valueError "EXTRACTION_RECEIPT_EXISTS") = .ok () :=
    refuse_ok_iff.mpr (not_not.mpr h.packet)
  have hrequest : call.checkRequest directory = .ok () :=
    checkRequest_ok_iff.mpr ⟨call.request, by rw [h.request]; rfl, call.requestNamed⟩
  have hstored : Fields.get (metadata result) "content" = some (.str content) :=
    (Fields.get_restrict (by decide)).trans hcontent
  have hread : readResponse directory = .ok (metadata result, content) := by
    unfold readResponse
    rw [h.rawResponse]
    dsimp only [Option.bind_some, Text.loads]
    rw [hstored]
  unfold Call.reconstruction
  rw [hwire, hcheck, hpresent, hpacket, hrequest, hread]
  rfl

theorem replay_regular (hregular : Regular call completion)
    (hraw : rawResponse completion = some raw)
    (h : Pending call raw (call.ending check completion) directory)
    (hfailure : directory .failure = none) :
    (∀ effect ∈ (call.replay check' directory).1, effect ∈ (call.ending check completion).1) ∧
      Agree (call.replay check' directory).2 (call.ending check completion).2 := by
  cases completion with
  | returnedOther typeName | raised code => exact hregular.elim
  | returned result =>
    obtain ⟨hmark, content, hcontent, hkey⟩ := hregular
    cases hraw
    have hending : call.ending check (.returned result) =
        call.conclude (metadata result) content := by
      unfold Call.ending Call.settle
      dsimp only
      rw [if_neg hmark, hcontent]
    have hrec : call.reconstruction check' directory = _ :=
      reconstruction_response h hfailure hcontent
    have hresult := fun text htext => ending_result hcontent (h.result text htext)
    rw [hending]
    unfold Call.conclude
    unfold Call.reconstruct at hrec
    cases hresolve : call.resolve content with
    | spans spans rejected =>
      rw [hresolve] at hrec
      have hchecked : call.checkResult directory spans rejected = .ok () := by
        refine checkResult_ok_iff.mpr fun text htext => ?_
        obtain ⟨spans', rejected', hsame, rfl⟩ := hresult text htext
        rw [hresolve] at hsame
        cases hsame
        exact ⟨_, rfl, sameResult_self⟩
      have hfound : call.reconstruction check' directory =
          .ok ⟨metadata result, content, spans, rejected⟩ := by
        rw [hrec]
        exact bind_ok_iff.mpr ⟨_, rfl, bind_ok_iff.mpr ⟨(), hchecked, rfl⟩⟩
      unfold Call.replay
      rw [hfound]
      refine ⟨fun effect heffect => ?_, rfl⟩
      split_ifs at heffect with hsome
      · cases heffect
      · exact heffect
    | undecodable | invalid message | raised =>
      rw [hresolve] at hrec
      rw [replay_error hrec]
      exact ⟨fun _ heffect => (nomatch heffect), rfl⟩
    | missingKey => exact absurd hresolve hkey

end Answered

def Settling (call : Call) (check : Json → Bool) (completion : Completion) (raw : Json)
    (world : World) : Prop :=
  ∃ directory, world.receipts call.requestId = some directory ∧
    Pending call raw (call.ending check completion) directory ∧
    (Regular call completion ∨ directory .failure ≠ none)

section Settling

variable {call : Call} {check : Json → Bool} {completion : Completion} {raw : Json}
  {world : World} {step : Step}

theorem Settling.answer (hraw : rawResponse completion = some raw)
    (h : Settling call check completion raw world) (hcall : step.call = call) :
    (∀ effect ∈ (world.answer step).1, effect ∈ (call.ending check completion).1) ∧
      Agree (world.answer step).2 (call.ending check completion).2 := by
  subst hcall
  obtain ⟨directory, hdirectory, hpending, hsettled⟩ := h
  rw [answer_replay hdirectory]
  by_cases hfailure : directory .failure = none
  · exact replay_regular (hsettled.resolve_right (not_not.mpr hfailure)) hraw hpending hfailure
  · obtain ⟨hnone, hagree⟩ : (step.call.replay step.truncationCheck directory).1 = [] ∧ _ :=
      replay_failed hraw hpending hfailure
    refine ⟨fun effect heffect => ?_, hagree⟩
    rw [hnone] at heffect
    cases heffect

/-- A step keeps a call settled. -/
theorem Settling.next (hraw : rawResponse completion = some raw)
    (h : Settling call check completion raw world)
    (hcall : step.call.requestId = call.requestId → step.call = call) :
    Settling call check completion raw (world.next step) := by
  obtain ⟨directory, hdirectory, hpending, hsettled⟩ := h
  by_cases hid : step.call.requestId = call.requestId
  · have hsame := hcall hid
    subst hsame
    have hanswer := (Settling.answer hraw ⟨directory, hdirectory, hpending, hsettled⟩
      (rfl : step.call = step.call)).1
    have hclosing : ∀ effect ∈ world.effects step, effect.Closing := fun effect heffect =>
      closing_replay effect (answer_replay hdirectory ▸ effects_initial.subset heffect)
    have hsome : ((world.effects step).foldl Effect.apply (some directory)).isSome = true :=
      isSome_foldl rfl
    obtain ⟨after, hafter⟩ := Option.isSome_iff_exists.mp hsome
    refine ⟨after, ?_, hpending.write hclosing
      (fun effect heffect => hanswer effect (effects_initial.subset heffect)) hafter, ?_⟩
    · rw [next_receipts_self, hdirectory, hafter]
    · refine hsettled.imp_right fun hfailure => ?_
      -- Behind a stored failure nothing is written.
      have hnone : (step.call.replay step.truncationCheck directory).1 = [] :=
        (replay_failed hraw hpending hfailure).1
      have heffects : world.effects step = [] := by
        have hfront : world.effects step <+: (world.answer step).1 := effects_initial
        rw [answer_replay hdirectory, hnone] at hfront
        exact List.prefix_nil.mp hfront
      rw [heffects] at hafter
      cases hafter
      exact hfailure
  · exact ⟨directory, (next_receipts_other hid).trans hdirectory, hpending, hsettled⟩

theorem Settling.after (hraw : rawResponse completion = some raw) {steps : List Step}
    (hcalls : ∀ step ∈ steps, step.call.requestId = call.requestId → step.call = call)
    (h : Settling call check completion raw world) :
    Settling call check completion raw (Machine.after World.next world steps) := by
  induction steps generalizing world with
  | nil => exact h
  | cons step steps ih =>
    rw [List.forall_mem_cons] at hcalls
    exact ih hcalls.2 (h.next hraw hcalls.1)

theorem settling_first {directory : Directory} (hfresh : world.receipts step.call.requestId = none)
    (hdirectory : (world.next step).receipts step.call.requestId = some directory)
    (hstored : directory .rawResponse ≠ none)
    (hsettled : Regular step.call (step.call.completed step.completion) ∨
      directory .failure ≠ none) :
    ∃ raw, rawResponse (step.call.completed step.completion) = some raw ∧
      Settling step.call step.truncationCheck (step.call.completed step.completion) raw
        (world.next step) := by
  have hfront : world.effects step <+:
      (step.call.live step.truncationCheck step.completion).1 :=
    answer_live hfresh ▸ effects_initial
  have hafter : (world.effects step).foldl Effect.apply none = some directory := by
    rw [← hfresh, ← next_receipts_self, hdirectory]
  obtain ⟨raw, hraw, hpending⟩ := pending_live hfront hafter hstored
  exact ⟨raw, hraw, directory, hdirectory, hpending, hsettled⟩

end Settling

/-- Over any calls with any crashes, the provider is asked at most once for an identity, and a
directory without a response refuses for ever.  A regular response, and every response whose
failure is stored, comes to what the first call would have come to, in every later call for the
same packet, profile and graph.  A call over a directory asks nobody, and has spans only from the
stored content, with its own packet, the request it compares, no failure and the result it
compares. -/
theorem receipts_replay :
    (∀ (world : World) (steps : List Step) (requestId : String),
      (after World.next world steps).dispatched.count requestId ≤
        world.dispatched.count requestId +
          if (world.receipts requestId).isSome then 0 else 1) ∧
    (∀ (world : World) (requestId : String) (directory : Directory) (steps : List Step)
        (step : Step),
      world.receipts requestId = some directory → directory .rawResponse = none →
      step.call.requestId = requestId →
      (∃ refusal, ((after World.next world steps).answer step).2 = .error refusal) ∧
        ((after World.next world steps).next step).dispatched =
          (after World.next world steps).dispatched) ∧
    (∀ (world : World) (first : Step) (directory : Directory) (steps : List Step) (step : Step),
      world.receipts first.call.requestId = none →
      (world.next first).receipts first.call.requestId = some directory →
      directory .rawResponse ≠ none →
      Regular first.call (first.call.completed first.completion) ∨ directory .failure ≠ none →
      (∀ later ∈ steps, later.call.requestId = first.call.requestId →
        later.call = first.call) →
      step.call = first.call →
      Agree ((after World.next (world.next first) steps).answer step).2
        (world.answer first).2) ∧
    ∀ (world : World) (step : Step) (directory : Directory),
      world.receipts step.call.requestId = some directory →
      (world.next step).dispatched = world.dispatched ∧
        ∀ spans, (world.answer step).2 = .ok spans →
          directory .failure = none ∧
          directory .packet = some (.canonical step.call.packet) ∧
          (step.call.options.exactRequest = true →
            directory .request = some (.canonical (.obj step.call.request))) ∧
          (∃ stored, (directory .request).bind Text.loads = some (.obj stored) ∧
            Fields.get stored "request_id" = some (.str step.call.requestId)) ∧
          ∃ stored content rejected,
            (directory .rawResponse).bind Text.loads = some (.obj stored) ∧
            Fields.get stored "content" = some (.str content) ∧
            step.call.resolve content = .spans spans rejected ∧
            ∀ text, directory .result = some text → ∃ result, text.loads = some (.obj result) ∧
              step.call.sameResult result spans rejected = true := by
  refine ⟨?_, ?_, ?_, ?_⟩
  · intro world steps requestId
    exact (Nat.le_add_right _ _).trans (asked_after requestId world steps)
  · intro world requestId directory steps step hdirectory hraw hid
    subst hid
    have hreached := after_unanswered hraw hdirectory steps
    obtain ⟨refusal, hreplay⟩ :=
      replay_unanswered step.call step.truncationCheck hraw
    refine ⟨⟨refusal, ?_⟩, dispatched_replay hreached⟩
    rw [answer_replay hreached, hreplay]
  · intro world first directory steps step hfresh hdirectory hstored hsettled hsame hcall
    obtain ⟨raw, hraw, hsettling⟩ := settling_first hfresh hdirectory hstored hsettled
    have hlive : (world.answer first).2 =
        (first.call.ending first.truncationCheck (first.call.completed first.completion)).2 := by
      rw [answer_live hfresh]
      rfl
    rw [hlive]
    exact ((hsettling.after hraw hsame).answer hraw hcall).2
  · intro world step directory hdirectory
    refine ⟨dispatched_replay hdirectory, fun spans hspans => ?_⟩
    rw [answer_replay hdirectory] at hspans
    obtain ⟨found, hfound, rfl⟩ := exists_reconstruction hspans
    obtain ⟨hwire, hfailure, -, hpacket, hrequest, hread, hrec, hresult⟩ :=
      reconstruction_ok_iff.mp hfound
    obtain ⟨hloaded, hcontent⟩ := readResponse_ok hread
    exact ⟨hfailure, hpacket, hwire, checkRequest_ok_iff.mp hrequest, found.metadata,
      found.content, found.rejected, hloaded, hcontent, reconstruct_ok hrec,
      checkResult_ok_iff.mp hresult⟩

/-! ### Where the paths differ -/

def plainSpan : Span :=
  ⟨0, 5, "quote", "claim", none, ["environment"]⟩

def plainCall (resolved : Resolved) : Call where
  requestId := "r"
  packet := .str "packet"
  packetSha := "sha"
  request := [("request_id", .str "r"), ("user_json", .str "text")]
  requestNamed := by decide
  identity := none
  candidateDiagnostics := []
  noSentences := false
  options := ⟨false, false, false, false, false, false, false, false, false, false, false⟩
  profile := []
  contextOrderPolicy := .null
  canonicalHash := fun content => content
  resolve := fun _ => resolved

def resolvedSpan : Resolved :=
  .spans [plainSpan] ⟨[], by decide, by decide⟩

def plainStep (resolved : Resolved) (result : Dict) (crash : Option Nat) : Step :=
  ⟨plainCall resolved, .returned result, fun _ => false, crash⟩

def emptyWorld : World :=
  ⟨fun _ => none, []⟩

def storedWorld (request result : Dict) : World where
  receipts := fun _ => some fun
    | .packet => some (.canonical (.str "packet"))
    | .request => some (.canonical (.obj request))
    | .rawResponse => some (.canonical (.obj [("content", .str "text")]))
    | .result => some (.canonical (.obj result))
    | .identity | .candidateDiagnostics | .failure => none
  dispatched := []

def answeredResult : Dict :=
  [("content", .str "text")]

def markedResult : Dict :=
  [("content", .str "text"), ("schema_valid", .bool false)]

def otherRequest : Dict :=
  [("request_id", .str "r"), ("user_json", .str "another text")]

def otherResult : Dict :=
  [("content_sha256", .str "another hash"), ("packet_sha256", .str "sha"), ("profile", .obj []),
    ("request_id", .str "r"), ("spans", .arr [plainSpan.toJson])]

theorem replay_drift :
    (emptyWorld.reply (plainStep resolvedSpan markedResult none) =
        some (.error (.outputError (.str "MODEL_SPAN_OR_SCHEMA_INVALID") none)) ∧
      (emptyWorld.next (plainStep resolvedSpan markedResult (some 5))).reply
        (plainStep resolvedSpan markedResult none) = some (.ok [plainSpan])) ∧
    (emptyWorld.reply (plainStep resolvedSpan [] none) =
        some (.error (.outputError (.str "MODEL_SPAN_OR_SCHEMA_INVALID") none)) ∧
      (emptyWorld.next (plainStep resolvedSpan [] (some 5))).reply
        (plainStep resolvedSpan [] none) =
          some (.error (.valueError "EXTRACTION_RECEIPT_UNSETTLED"))) ∧
    (emptyWorld.reply (plainStep .missingKey answeredResult none) = some (.error .raised) ∧
      (emptyWorld.next (plainStep .missingKey answeredResult none)).reply
        (plainStep .missingKey answeredResult none) =
          some (.error (.outputError (.str "MODEL_SPAN_OR_SCHEMA_INVALID") none))) ∧
    otherRequest ≠ (plainCall resolvedSpan).request ∧
    otherResult ≠ (plainCall resolvedSpan).result answeredResult "text" [plainSpan]
      ⟨[], by decide, by decide⟩ ∧
    (storedWorld otherRequest otherResult).reply (plainStep resolvedSpan [] none) =
      some (.ok [plainSpan]) := by
  decide +kernel

end ProofOps.Agent.UpstageExtraction
