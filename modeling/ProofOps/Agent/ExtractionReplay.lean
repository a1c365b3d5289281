import ProofOps.Agent.ExtractionReceipts
import ProofOps.Foundation.Machine

/-!
# What a replay rests on

The directory of a request identity is made once, by a call that then asks the provider at most
once.  A replay writes nothing but a missing `result.json`, and yields spans only when no failure
is stored and the packet, the request, the response and the result hold what it expects.  Behind a
stored response the other files are the ones its own ending writes (`Pending`), which is what
every replay of the call keeps.
-/

namespace ProofOps.Agent.UpstageExtraction

open Foundation Foundation.Checked Foundation.PyJson Foundation.Machine

/-! ### Effects on a directory -/

def Effect.apply (directory : Option Directory) : Effect → Option Directory
  | .mkdir => some fun _ => none
  | .write file text => directory.map fun directory => Function.update directory file (some text)
  | .dispatch => directory

/-- Whether an effect asks the provider. -/
def Effect.isDispatch : Effect → Bool
  | .dispatch => true
  | .mkdir | .write _ _ => false

def Effect.Closing (effect : Effect) : Prop :=
  ∃ file text, effect = .write file text ∧ (file = .failure ∨ file = .result)

section Effects

variable {requestId : String} {world : World} {effects : List Effect}

theorem receipts_foldl :
    (effects.foldl (World.perform requestId) world).receipts =
      Function.update world.receipts requestId
        (effects.foldl Effect.apply (world.receipts requestId)) := by
  induction effects generalizing world with
  | nil => exact (Function.update_eq_self requestId world.receipts).symm
  | cons effect effects ih =>
    rw [List.foldl_cons, List.foldl_cons, ih]
    cases effect with
    | mkdir | write file text => simp [World.perform, Effect.apply]
    | dispatch => rfl

theorem dispatched_foldl :
    (effects.foldl (World.perform requestId) world).dispatched =
      world.dispatched ++ List.replicate (effects.countP Effect.isDispatch) requestId := by
  induction effects generalizing world with
  | nil => simp
  | cons effect effects ih =>
    rw [List.foldl_cons, ih]
    cases effect with
    | mkdir | write file text => simp [World.perform, Effect.isDispatch]
    | dispatch =>
      rw [List.countP_cons_of_pos rfl, List.replicate_succ]
      simp [World.perform]

theorem isSome_foldl {directory : Option Directory} (h : directory.isSome = true) :
    (effects.foldl Effect.apply directory).isSome = true := by
  induction effects generalizing directory with
  | nil => exact h
  | cons effect effects ih =>
    apply ih
    cases effect with
    | mkdir => rfl
    | write file text => simpa [Effect.apply] using h
    | dispatch => exact h

variable {directory : Directory}

theorem written {start : Option Directory} {file : File} {text : Text}
    (h : effects.foldl Effect.apply start = some directory) (hfile : directory file = some text) :
    .write file text ∈ effects ∨ ∃ before, start = some before ∧ before file = some text := by
  induction effects generalizing start with
  | nil => exact Or.inr ⟨directory, h, hfile⟩
  | cons effect effects ih =>
    rcases ih h with hlater | ⟨between, hbetween, hheld⟩
    · exact Or.inl (List.mem_cons_of_mem _ hlater)
    cases effect with
    | mkdir =>
      cases hbetween
      cases hheld
    | dispatch => exact Or.inr ⟨between, hbetween, hheld⟩
    | write file' text' =>
      obtain ⟨before, hbefore, rfl⟩ := Option.map_eq_some_iff.mp hbetween
      rw [Function.update_apply] at hheld
      by_cases hsame : file = file'
      · rw [if_pos hsame] at hheld
        cases hheld
        exact Or.inl (hsame ▸ List.mem_cons_self)
      · rw [if_neg hsame] at hheld
        exact Or.inr ⟨before, hbefore, hheld⟩

/-- A file that nothing writes stays. -/
theorem kept {before : Directory} {file : File} (hmkdir : .mkdir ∉ effects)
    (hwrite : ∀ text, .write file text ∉ effects)
    (h : effects.foldl Effect.apply (some before) = some directory) :
    directory file = before file := by
  induction effects generalizing before with
  | nil => rw [Option.some.inj h]
  | cons effect effects ih =>
    have hlater : ∀ {between : Directory},
        effects.foldl Effect.apply (some between) = some directory →
          directory file = between file :=
      ih (fun hmem => hmkdir (List.mem_cons_of_mem _ hmem))
        fun text hmem => hwrite text (List.mem_cons_of_mem _ hmem)
    cases effect with
    | mkdir => exact absurd List.mem_cons_self hmkdir
    | dispatch => exact hlater h
    | write file' text' =>
      have hne : file ≠ file' := fun hsame => hwrite text' (hsame ▸ List.mem_cons_self)
      rw [hlater h]
      exact Function.update_of_ne hne _ _

theorem countP_closing (h : ∀ effect ∈ effects, effect.Closing) :
    effects.countP Effect.isDispatch = 0 := by
  rw [List.countP_eq_zero]
  intro effect heffect
  obtain ⟨file, text, rfl, _⟩ := h effect heffect
  exact Bool.false_ne_true

end Effects

section Paths

variable {call : Call} {check : Json → Bool} {completion : Completion} {directory : Directory}

theorem closing_failContent {code : String} :
    ∀ effect ∈ (call.failContent code).1, effect.Closing := by
  intro effect heffect
  cases List.mem_singleton.mp heffect
  exact ⟨.failure, _, rfl, Or.inl rfl⟩

theorem closing_conclude {metadata : Dict} {content : String} :
    ∀ effect ∈ (call.conclude metadata content).1, effect.Closing := by
  unfold Call.conclude
  cases call.resolve content with
  | spans spans rejected =>
    intro effect heffect
    cases List.mem_singleton.mp heffect
    exact ⟨.result, _, rfl, Or.inr rfl⟩
  | undecodable | invalid message => exact closing_failContent
  | missingKey | raised => exact fun _ heffect => nomatch heffect

theorem closing_settle {result : Dict} : ∀ effect ∈ (call.settle result).1, effect.Closing := by
  unfold Call.settle
  split_ifs with hmark
  · exact closing_failContent
  · split
    · exact closing_conclude
    · exact closing_failContent

theorem closing_ending : ∀ effect ∈ (call.ending check completion).1, effect.Closing := by
  cases completion with
  | returned result => exact closing_settle
  | returnedOther typeName => exact closing_failContent
  | raised code =>
    intro effect heffect
    cases List.mem_singleton.mp heffect
    exact ⟨.failure, _, rfl, Or.inl rfl⟩

theorem closing_replay : ∀ effect ∈ (call.replay check directory).1, effect.Closing := by
  unfold Call.replay
  cases call.reconstruction check directory with
  | error refusal => exact fun _ heffect => nomatch heffect
  | ok found =>
    intro effect heffect
    split_ifs at heffect with hresult
    · cases heffect
    · cases List.mem_singleton.mp heffect
      exact ⟨.result, _, rfl, Or.inr rfl⟩

/-- A live call asks at most once. -/
theorem countP_live : (call.live check completion).1.countP Effect.isDispatch ≤ 1 := by
  have hending : (call.ending check (call.completed completion)).1.countP Effect.isDispatch = 0 :=
    countP_closing closing_ending
  have hraw : ∀ raw : Option Json,
      (raw.map fun raw => Effect.write .rawResponse (.canonical raw)).toList.countP
        Effect.isDispatch = 0 := by
    intro raw
    cases raw <;> rfl
  have hidentity :
      (call.identity.map fun identity => Effect.write .identity (.canonical identity)).toList.countP
        Effect.isDispatch = 0 := by
    cases call.identity <;> rfl
  have hopening : call.opening.countP Effect.isDispatch ≤ 1 := by
    unfold Call.opening
    rw [List.countP_append, List.countP_append, List.countP_append, hidentity]
    cases call.options.atomic <;> cases call.localEmpty <;> simp [Effect.isDispatch]
  unfold Call.live
  rw [List.countP_append, List.countP_append, hraw, hending]
  exact hopening

end Paths

/-! ### What a replay accepts -/

section Replays

variable {call : Call} {check : Json → Bool} {directory : Directory} {found : Reconstruction}

theorem reconstruction_ok_iff :
    call.reconstruction check directory = .ok found ↔
      (call.options.exactRequest = true →
        directory .request = some (.canonical (.obj call.request))) ∧
      directory .failure = none ∧ directory .rawResponse ≠ none ∧
      directory .packet = some (.canonical call.packet) ∧
      call.checkRequest directory = .ok () ∧
      readResponse directory = .ok (found.metadata, found.content) ∧
      call.reconstruct found.content = .ok (found.spans, found.rejected) ∧
      call.checkResult directory found.spans found.rejected = .ok () := by
  have hfailure : call.checkFailure check directory = .ok () ↔ directory .failure = none := by
    unfold Call.checkFailure
    cases directory .failure with
    | none => simp
    | some text =>
      dsimp only
      split <;> simp
  constructor
  · intro h
    obtain ⟨_, hwire, h⟩ := bind_ok h
    obtain ⟨_, hstored, h⟩ := bind_ok h
    obtain ⟨_, hraw, h⟩ := bind_ok h
    obtain ⟨_, hpacket, h⟩ := bind_ok h
    obtain ⟨_, hrequest, h⟩ := bind_ok h
    obtain ⟨response, hresponse, h⟩ := bind_ok h
    obtain ⟨resolved, hresolved, h⟩ := bind_ok h
    obtain ⟨_, hresult, h⟩ := bind_ok h
    cases pure_ok h
    refine ⟨fun hexact => ?_, hfailure.mp hstored, refuse_ok_iff.mp hraw,
      not_not.mp (refuse_ok_iff.mp hpacket), hrequest, hresponse, hresolved, hresult⟩
    by_contra hne
    exact refuse_ok_iff.mp hwire ⟨hexact, hne⟩
  · rintro ⟨hwire, hstored, hraw, hpacket, hrequest, hresponse, hresolved, hresult⟩
    have hwire' : call.checkWire directory = .ok () :=
      refuse_ok_iff.mpr fun hboth => hboth.2 (hwire hboth.1)
    refine bind_ok_iff.mpr ⟨(), hwire', bind_ok_iff.mpr ⟨(), hfailure.mpr hstored, ?_⟩⟩
    refine bind_ok_iff.mpr ⟨(), refuse_ok_iff.mpr hraw, ?_⟩
    refine bind_ok_iff.mpr ⟨(), refuse_ok_iff.mpr (not_not.mpr hpacket), ?_⟩
    refine bind_ok_iff.mpr ⟨(), hrequest, bind_ok_iff.mpr ⟨_, hresponse, ?_⟩⟩
    exact bind_ok_iff.mpr ⟨_, hresolved, bind_ok_iff.mpr ⟨(), hresult, rfl⟩⟩

theorem replay_error {refusal : Refusal}
    (h : call.reconstruction check directory = .error refusal) :
    call.replay check directory = ([], .error refusal) := by
  unfold Call.replay
  rw [h]

theorem replay_ok (h : call.reconstruction check directory = .ok found) :
    (call.replay check directory).2 = .ok found.spans := by
  unfold Call.replay
  rw [h]

variable {spans : List Span}

theorem exists_reconstruction (h : (call.replay check directory).2 = .ok spans) :
    ∃ found, call.reconstruction check directory = .ok found ∧ found.spans = spans := by
  cases hfound : call.reconstruction check directory with
  | error refusal =>
    rw [replay_error hfound] at h
    cases h
  | ok found =>
    rw [replay_ok hfound] at h
    exact ⟨found, rfl, Except.ok.inj h⟩

theorem replay_unanswered (call : Call) (check : Json → Bool) (h : directory .rawResponse = none) :
    ∃ refusal, call.replay check directory = ([], .error refusal) := by
  cases hfound : call.reconstruction check directory with
  | error refusal => exact ⟨refusal, replay_error hfound⟩
  | ok found => exact absurd h (reconstruction_ok_iff.mp hfound).2.2.1

theorem readResponse_ok {response : Dict × String} (h : readResponse directory = .ok response) :
    (directory .rawResponse).bind Text.loads = some (.obj response.1) ∧
      Fields.get response.1 "content" = some (.str response.2) := by
  unfold readResponse at h
  split at h
  · next stored hstored =>
      split at h
      · next content hcontent =>
          cases h
          exact ⟨hstored, hcontent⟩
      · cases h
  · cases h

variable {rejected : Rejected}

theorem reconstruct_ok {content : String} (h : call.reconstruct content = .ok (spans, rejected)) :
    call.resolve content = .spans spans rejected := by
  unfold Call.reconstruct at h
  split at h
  · next hresolve =>
      cases h
      exact hresolve
  · cases h
  · cases h
  · cases h
  · cases h

theorem checkRequest_ok_iff :
    call.checkRequest directory = .ok () ↔
      ∃ stored, (directory .request).bind Text.loads = some (.obj stored) ∧
        Fields.get stored "request_id" = some (.str call.requestId) := by
  unfold Call.checkRequest
  split
  · next hnone => simp [hnone]
  · next stored hstored => simp [hstored, refuse_ok_iff]
  · next hother hstored =>
      simp only [hstored, reduceCtorEq, Option.some.injEq, false_iff, not_exists, not_and]
      rintro stored rfl
      exact absurd rfl (hother stored)

theorem checkResult_ok_iff :
    call.checkResult directory spans rejected = .ok () ↔
      ∀ text, directory .result = some text → ∃ stored, text.loads = some (.obj stored) ∧
        call.sameResult stored spans rejected = true := by
  unfold Call.checkResult
  cases directory .result with
  | none => simp
  | some text =>
    simp only [Option.some.injEq, forall_eq']
    split
    · next stored hstored => simp [hstored, refuse_ok_iff]
    · next hother hstored =>
        simp only [hstored, reduceCtorEq, Option.some.injEq, false_iff, not_exists, not_and]
        rintro stored rfl
        exact absurd rfl (hother stored)
    · next hnone => simp [hnone]

end Replays

section Results

variable {call : Call} {metadata : Dict} {content : String} {spans : List Span}
  {rejected : Rejected} {key : String}

theorem storedIs_of_get {stored : Dict} {value : Json} (h : Fields.get stored key = some value) :
    storedIs stored key value = true := by
  unfold storedIs
  rw [h]
  exact pyEqual_self value

theorem get_result (hkey : key ≠ "context_ordering") :
    Fields.get (call.result metadata content spans rejected) key =
      (Fields.get rejected.fields key).or
        (Fields.get (call.resultRecord metadata content spans) key) := by
  unfold Call.result
  split_ifs with hposition
  · rw [Fields.get_set, if_neg hkey, Fields.get_merge rejected.ordered]
  · rw [Fields.get_merge rejected.ordered]

theorem get_result_reserved (hkey : key ≠ "context_ordering") (hreserved : key ∈ resultKeys) :
    Fields.get (call.result metadata content spans rejected) key =
      Fields.get (call.resultRecord metadata content spans) key := by
  rw [get_result hkey, rejected.unreserved key hreserved]
  rfl

theorem get_result_refinement (hkey : key ∈ call.options.refinementKeys) :
    Fields.get (call.result metadata content spans rejected) key =
      Fields.get rejected.fields key := by
  have hkeys : key ∈ ["j7_refinements", "j7_refinement_rejected", "j3_refinements",
      "j3_refinement_rejected"] := by
    unfold Options.refinementKeys at hkey
    split_ifs at hkey
    · exact List.mem_append_left ["j3_refinements", "j3_refinement_rejected"] hkey
    · exact List.mem_append_right ["j7_refinements", "j7_refinement_rejected"] hkey
  have hfree : key ≠ "context_ordering" ∧
      Fields.get (call.resultRecord metadata content spans) key = none := by
    simp only [List.mem_cons, List.not_mem_nil, or_false] at hkeys
    rcases hkeys with rfl | rfl | rfl | rfl <;> exact ⟨by decide, rfl⟩
  rw [get_result hfree.1, hfree.2, Option.or_none]

/-- A result agrees with itself. -/
theorem sameResult_self :
    call.sameResult (call.result metadata content spans rejected) spans rejected = true := by
  have hrequest : storedIs (call.result metadata content spans rejected) "request_id"
      (.str call.requestId) = true :=
    storedIs_of_get ((get_result_reserved (by decide) (by decide)).trans rfl)
  have hpacket : storedIs (call.result metadata content spans rejected) "packet_sha256"
      (.str call.packetSha) = true :=
    storedIs_of_get ((get_result_reserved (by decide) (by decide)).trans rfl)
  have hprofile : storedIs (call.result metadata content spans rejected) "profile"
      (.obj call.profile) = true :=
    storedIs_of_get ((get_result_reserved (by decide) (by decide)).trans rfl)
  have hspans : storedIs (call.result metadata content spans rejected) "spans"
      (.arr (spans.map Span.toJson)) = true :=
    storedIs_of_get ((get_result_reserved (by decide) (by decide)).trans rfl)
  have hposition : (!call.options.positionOrder ||
      storedIs (call.result metadata content spans rejected) "context_ordering"
        call.contextOrderPolicy) = true := by
    cases hoption : call.options.positionOrder with
    | false => rfl
    | true =>
      apply storedIs_of_get
      unfold Call.result
      rw [if_pos hoption, Fields.get_set, if_pos rfl]
  have hrefined : (!call.options.j3 || call.options.refinementKeys.all fun key =>
      storedIs (call.result metadata content spans rejected) key
        ((Fields.get rejected.fields key).getD .null)) = true := by
    rw [Bool.or_eq_true, List.all_eq_true]
    right
    intro key hkey
    unfold storedIs
    rw [get_result_refinement hkey]
    exact pyEqual_self _
  unfold Call.sameResult
  rw [hrequest, hpacket, hprofile, hspans, hposition, hrefined]
  rfl

end Results

structure Pending (call : Call) (raw : Json) (ending : List Effect × Reply)
    (directory : Directory) : Prop where
  packet : directory .packet = some (.canonical call.packet)
  request : directory .request = some (.canonical (.obj call.request))
  rawResponse : directory .rawResponse = some (.canonical raw)
  failure : ∀ text, directory .failure = some text → .write .failure text ∈ ending.1
  result : ∀ text, directory .result = some text → .write .result text ∈ ending.1

def Regular (call : Call) : Completion → Prop
  | .returned result => Fields.get result "schema_valid" ≠ some (.bool false) ∧
      ∃ content, Fields.get result "content" = some (.str content) ∧
        call.resolve content ≠ .missingKey
  | .returnedOther _ | .raised _ => False

section Stored

variable {call : Call} {check check' : Json → Bool} {completion : Completion}
  {directory after : Directory} {raw : Json} {ending : List Effect × Reply}
  {effects : List Effect}

theorem Pending.write (h : Pending call raw ending directory)
    (hclosing : ∀ effect ∈ effects, effect.Closing) (hending : ∀ effect ∈ effects, effect ∈ ending.1)
    (hafter : effects.foldl Effect.apply (some directory) = some after) :
    Pending call raw ending after := by
  have hmkdir : .mkdir ∉ effects := by
    intro hmem
    obtain ⟨file, text, heq, _⟩ := hclosing _ hmem
    cases heq
  have hfile : ∀ file, file ≠ .failure → file ≠ .result → after file = directory file := by
    intro file hfailure hresult
    refine kept hmkdir (fun text hmem => ?_) hafter
    obtain ⟨written, text', heq, hkind⟩ := hclosing _ hmem
    cases heq
    exact hkind.elim hfailure hresult
  refine ⟨?_, ?_, ?_, ?_, ?_⟩
  · rw [hfile .packet (by decide) (by decide)]
    exact h.packet
  · rw [hfile .request (by decide) (by decide)]
    exact h.request
  · rw [hfile .rawResponse (by decide) (by decide)]
    exact h.rawResponse
  · intro text htext
    rcases written hafter htext with hmem | ⟨before, hbefore, hheld⟩
    · exact hending _ hmem
    · cases hbefore
      exact h.failure text hheld
  · intro text htext
    rcases written hafter htext with hmem | ⟨before, hbefore, hheld⟩
    · exact hending _ hmem
    · cases hbefore
      exact h.result text hheld

theorem opening_eq (call : Call) :
    ∃ rest, call.opening = [.mkdir, .write .packet (.canonical call.packet),
        .write .request (.canonical (.obj call.request))] ++ rest ∧
      ∀ effect ∈ rest, effect = .dispatch ∨ (∃ text, effect = .write .identity text) ∨
        ∃ text, effect = .write .candidateDiagnostics text := by
  unfold Call.opening
  rw [List.append_assoc, List.append_assoc]
  refine ⟨_, rfl, fun effect heffect => ?_⟩
  rw [List.mem_append, List.mem_append] at heffect
  rcases heffect with hidentity | hdiagnostics | hdispatch
  · cases hrecord : call.identity with
    | none =>
      rw [hrecord] at hidentity
      cases hidentity
    | some identity =>
      rw [hrecord] at hidentity
      exact Or.inr (Or.inl ⟨_, List.mem_singleton.mp hidentity⟩)
  · split_ifs at hdiagnostics with hatomic
    · exact Or.inr (Or.inr ⟨_, List.mem_singleton.mp hdiagnostics⟩)
    · cases hdiagnostics
  · split_ifs at hdispatch with hempty
    · cases hdispatch
    · exact Or.inl (List.mem_singleton.mp hdispatch)

theorem rawResponse_not_mem_opening {text : Text} :
    Effect.write .rawResponse text ∉ call.opening := by
  intro hmem
  obtain ⟨rest, hopening, hrest⟩ := opening_eq call
  rw [hopening, List.mem_append] at hmem
  rcases hmem with hfirst | hlater
  · simp at hfirst
  · simpa using hrest _ hlater

theorem opened (call : Call) (start : Option Directory) :
    ∃ directory, call.opening.foldl Effect.apply start = some directory ∧
      directory .packet = some (.canonical call.packet) ∧
      directory .request = some (.canonical (.obj call.request)) ∧
      directory .failure = none ∧ directory .result = none := by
  obtain ⟨rest, hopening, hrest⟩ := opening_eq call
  rw [hopening, List.foldl_append]
  have hsome : (rest.foldl Effect.apply (List.foldl Effect.apply start
      [.mkdir, .write .packet (.canonical call.packet),
        .write .request (.canonical (.obj call.request))])).isSome = true :=
    isSome_foldl rfl
  obtain ⟨directory, hdirectory⟩ := Option.isSome_iff_exists.mp hsome
  have hmkdir : .mkdir ∉ rest := fun hmem => by simpa using hrest _ hmem
  refine ⟨directory, hdirectory, ?_, ?_, ?_, ?_⟩
  · exact (kept hmkdir (fun text hmem => by simpa using hrest _ hmem) hdirectory).trans rfl
  · exact (kept hmkdir (fun text hmem => by simpa using hrest _ hmem) hdirectory).trans rfl
  · exact (kept hmkdir (fun text hmem => by simpa using hrest _ hmem) hdirectory).trans rfl
  · exact (kept hmkdir (fun text hmem => by simpa using hrest _ hmem) hdirectory).trans rfl

theorem pending_live (hfront : effects <+: (call.live check completion).1)
    (hafter : effects.foldl Effect.apply none = some after) (hraw : after .rawResponse ≠ none) :
    ∃ raw, rawResponse (call.completed completion) = some raw ∧
      Pending call raw (call.ending check (call.completed completion)) after := by
  obtain ⟨text, htext⟩ := Option.ne_none_iff_exists'.mp hraw
  have hmem : .write .rawResponse text ∈ effects := by
    rcases written hafter htext with hmem | ⟨before, hnone, _⟩
    · exact hmem
    · cases hnone
  obtain ⟨suffix, hsuffix⟩ := hfront
  unfold Call.live at hsuffix
  dsimp only at hsuffix
  rw [List.append_assoc] at hsuffix
  rcases List.append_eq_append_iff.mp hsuffix with ⟨rest, hopening, _⟩ | ⟨rest, hrest, hending⟩
  · exact absurd (hopening ▸ List.mem_append_left rest hmem) rawResponse_not_mem_opening
  have hrestMem : .write .rawResponse text ∈ rest := by
    rw [hrest, List.mem_append] at hmem
    exact hmem.resolve_left rawResponse_not_mem_opening
  cases hanswer : rawResponse (call.completed completion) with
  | none =>
    rw [hanswer] at hending
    have hrestEnding : (call.ending check (call.completed completion)).1 = rest ++ suffix :=
      hending
    have hmem' : .write .rawResponse text ∈
        (call.ending check (call.completed completion)).1 :=
      hrestEnding ▸ List.mem_append_left suffix hrestMem
    have hclosing := closing_ending _ hmem'
    obtain ⟨file, text', heq, hkind⟩ := hclosing
    cases heq
    simp at hkind
  | some raw =>
    refine ⟨raw, rfl, ?_⟩
    rw [hanswer] at hending
    cases rest with
    | nil => cases hrestMem
    | cons first later =>
      obtain ⟨hfirst, hlater⟩ := List.cons_eq_cons.mp hending
      obtain ⟨start, hstart, hpacket, hrequest, hfailure, hresult⟩ := opened call none
      rw [hrest, List.foldl_append, hstart, List.foldl_cons, ← hfirst] at hafter
      have hstored : Pending call raw (call.ending check (call.completed completion))
          (Function.update start .rawResponse (some (.canonical raw))) := by
        refine ⟨hpacket, hrequest, rfl, fun text htext => ?_, fun text htext => ?_⟩
        · rw [Function.update_of_ne (by decide), hfailure] at htext
          cases htext
        · rw [Function.update_of_ne (by decide), hresult] at htext
          cases htext
      have hrestEnding : (call.ending check (call.completed completion)).1 = later ++ suffix :=
        hlater
      have hsub : ∀ effect ∈ later,
          effect ∈ (call.ending check (call.completed completion)).1 :=
        fun effect heffect => hrestEnding ▸ List.mem_append_left suffix heffect
      exact hstored.write (fun effect heffect => closing_ending _ (hsub effect heffect)) hsub
        hafter

end Stored

end ProofOps.Agent.UpstageExtraction
