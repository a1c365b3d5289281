import ProofOps.Adapters.Local.ReviewHistory

/-!
# Interleavings of reviewers

The states of the review store only grow: no insert-only row is lost or altered, no run
disappears, and the revision of a review never falls.  From that follow the answers to
a resolution that is sent twice, by one reviewer or by two.
-/

namespace ProofOps.Adapters.Local.ReviewStore

open Foundation Foundation.Checked Foundation.Revisions Application.Reviews Domain.Audit

variable {rules : ReviewRules} {hooks : Hooks Reviews}

/-! ### Later states -/

structure Later (before after : Store) : Prop where
  runs : RunsKept before.runs after.runs
  heads : ∀ review ∈ before.rest.heads,
    ∃ later ∈ after.rest.heads, later.key = review.key ∧ review.revision ≤ later.revision
  inputs : ∀ row ∈ before.rest.inputs, row ∈ after.rest.inputs
  tags : ∀ tag ∈ before.rest.tags, tag ∈ after.rest.tags
  decisions : ∀ decision ∈ before.rest.decisions, decision ∈ after.rest.decisions
  revisions : ∀ row ∈ before.rest.revisions, row ∈ after.rest.revisions
  replays : ∀ replay ∈ before.rest.replays, replay ∈ after.rest.replays

theorem Later.refl (store : Store) : Later store store where
  runs := RunsKept.refl _
  heads := fun review hreview => ⟨review, hreview, rfl, le_refl _⟩
  inputs := fun _ => id
  tags := fun _ => id
  decisions := fun _ => id
  revisions := fun _ => id
  replays := fun _ => id

theorem Later.trans {first second third : Store} (h : Later first second)
    (h' : Later second third) : Later first third where
  runs := h.runs.trans h'.runs
  heads := by
    intro review hreview
    obtain ⟨mid, hmid, hmidKey, hmidRevision⟩ := h.heads review hreview
    obtain ⟨later, hlater, hkey, hrevision⟩ := h'.heads mid hmid
    exact ⟨later, hlater, hkey.trans hmidKey, hmidRevision.trans hrevision⟩
  inputs := fun row hrow => h'.inputs row (h.inputs row hrow)
  tags := fun tag htag => h'.tags tag (h.tags tag htag)
  decisions := fun decision hdecision => h'.decisions decision (h.decisions decision hdecision)
  revisions := fun row hrow => h'.revisions row (h.revisions row hrow)
  replays := fun replay hreplay => h'.replays replay (h.replays replay hreplay)

theorem heads_put {heads : Table Review Review.key} {written : Review}
    (h : ∀ old ∈ heads, old.key = written.key → old.revision ≤ written.revision) :
    ∀ review ∈ heads,
      ∃ later ∈ heads.put written, later.key = review.key ∧ review.revision ≤ later.revision := by
  intro review hreview
  by_cases hkey : review.key = written.key
  · exact ⟨written, Table.mem_put.mpr (Or.inl rfl), hkey.symm, h review hreview hkey⟩
  · exact ⟨review, Table.mem_put.mpr (Or.inr ⟨hreview, hkey⟩), rfl, le_refl _⟩

theorem mem_of_insert? {α κ : Type} [DecidableEq κ] {key : α → κ} {table other : Table α key}
    {row : α} (h : table.insert? row = some other) : ∀ old ∈ table, old ∈ other :=
  fun _ hold => (Table.mem_insert? h).mpr (Or.inl hold)

theorem decisions_kept {decisions written : Table DecisionRecord DecisionRecord.key}
    {inputs : ReviewInputs} (h : putDecision decisions inputs = .ok written) :
    ∀ decision ∈ decisions, decision ∈ written := by
  unfold putDecision at h
  split at h
  · exact mem_of_insert? (Table.insertOr_ok h)
  · cases h
    exact fun _ => id

variable {before after : Store}

/-- A publication is a step to a later store. -/
theorem Published.later (h : Published rules before after) : Later before after := by
  rcases h.rest with hsame | ⟨inputs, review, -, hfree, -, hopened⟩
  · have hrefl := Later.refl before
    constructor
    case runs => exact h.runs
    all_goals rw [hsame]
    · exact hrefl.heads
    · exact hrefl.inputs
    · exact hrefl.tags
    · exact hrefl.decisions
    · exact hrefl.revisions
    · exact hrefl.replays
  · exact
      { runs := h.runs
        heads := by
          rw [hopened.heads]
          refine heads_put fun old hold hkey => ?_
          exact absurd hkey (Table.find_eq_none_iff.mp hfree old hold)
        inputs := mem_of_insert? hopened.rows
        tags := mem_of_insert? hopened.tags
        decisions := decisions_kept hopened.decisions
        revisions := mem_of_insert? hopened.revisions
        replays := by
          rw [hopened.replays]
          exact fun _ => id }

variable {request : ResolveRequest} {response : Response}

theorem Accepted.later (h : Accepted rules hooks request response before after) :
    Later before after := by
  obtain ⟨review, head, tag, decision, hnamed, -, -, hresolved⟩ := h.rest
  have hmem := (mem_of_named hnamed).1
  exact
    { runs := h.runs
      heads := by
        rw [hresolved.heads]
        refine heads_put fun old hold hkey => ?_
        have hsame : old = review := Table.eq_of_key_eq hold hmem hkey
        rw [hsame, (valid_iff.mp hresolved.valid).1]
        exact Nat.le_succ _
      inputs := by
        rw [hresolved.inputs]
        exact fun _ => id
      tags := mem_of_insert? hresolved.tags
      decisions := mem_of_insert? hresolved.decisions
      revisions := mem_of_insert? hresolved.revisions
      replays := mem_of_insert? hresolved.replays }

variable {store : Store}

theorem publishAll_ok {publications : List Publication}
    (h : publishAll rules hooks store publications = .ok after)
    (hconsistent : Consistent store.rest) : Consistent after.rest ∧ Later store after := by
  induction publications generalizing store with
  | nil =>
    cases h
    exact ⟨hconsistent, Later.refl _⟩
  | cons publication publications ih =>
    obtain ⟨published, hpublished, h⟩ := bind_ok h
    have hstep := publish_ok hpublished
    obtain ⟨hafter, hlater⟩ := ih h (hstep.consistent hconsistent)
    exact ⟨hafter, hstep.later.trans hlater⟩

theorem resolve_ok {answer : Answer} (h : resolve rules hooks store request = .ok (answer, after)) :
    after = store ∨ ∃ response, Accepted rules hooks request response store after := by
  cases answer with
  | accepted response => exact Or.inr ⟨response, resolve_accepted h⟩
  | replayed response => exact Or.inl (resolve_replayed h)

theorem next_step (store : Store) (call : Call) (h : Consistent store.rest) :
    Consistent (next rules hooks store call).rest ∧ Later store (next rules hooks store call) := by
  cases call with
  | publish publications commits =>
    cases hexecute : publishAll rules hooks store publications with
    | error error =>
      simp only [next, hexecute]
      exact ⟨h, Later.refl _⟩
    | ok after =>
      simp only [next, hexecute]
      split_ifs
      · exact publishAll_ok hexecute h
      · exact ⟨h, Later.refl _⟩
  | resolve request =>
    cases hexecute : resolve rules hooks store request with
    | error error =>
      simp only [next, hexecute]
      exact ⟨h, Later.refl _⟩
    | ok made =>
      simp only [next, hexecute]
      rcases resolve_ok hexecute with rfl | ⟨response, haccepted⟩
      · exact ⟨h, Later.refl _⟩
      · exact ⟨haccepted.consistent h, haccepted.later⟩

theorem after_consistent (h : Consistent store.rest) (calls : List Call) :
    Consistent (Machine.after (next rules hooks) store calls).rest :=
  @Machine.after_invariant _ _ _ (fun store : Store => Consistent store.rest)
    (fun store call hstore => (next_step store call hstore).1) _ h calls

theorem after_later (h : Consistent store.rest) (calls : List Call) :
    Later store (Machine.after (next rules hooks) store calls) :=
  @Machine.after_related _ _ _ (fun store : Store => Consistent store.rest) Later
    (fun store call hstore => (next_step store call hstore).1) Later.refl Later.trans
    (fun store call hstore => (next_step store call hstore).2) _ h calls

/-! ### Two resolutions -/

theorem Accepted.review (h : Accepted rules hooks request response before after) :
    ∃ review ∈ after.rest.heads, review.tenantId = request.tenantId ∧
      review.reviewId = request.reviewId ∧ review.revision = request.expected + 1 ∧
      ∃ run, findRun hooks before (request.tenantId, review.runId) = .ok run := by
  obtain ⟨review, head, tag, decision, hnamed, hrun, -, hresolved⟩ := h.rest
  obtain ⟨-, htenant, hreview⟩ := mem_of_named hnamed
  refine ⟨resolvedReview request review, ?_, htenant, hreview, rfl, hrun⟩
  rw [hresolved.heads]
  exact Table.mem_put.mpr (Or.inl rfl)

variable {later : Store}

theorem Accepted.expected_lt {other : ResolveRequest} {answer : Response} {final : Store}
    (h : Accepted rules hooks request response before after) (hlater : Later after later)
    (h' : Accepted rules hooks other answer later final)
    (htenant : request.tenantId = other.tenantId) (hreview : request.reviewId = other.reviewId) :
    request.expected < other.expected := by
  obtain ⟨review, hmem, hreviewTenant, hreviewId, hrevision, -⟩ := h.review
  obtain ⟨found, hfound, hkey, hle⟩ := hlater.heads review hmem
  obtain ⟨named, head, tag, decision, hnamed, -, -, hresolved⟩ := h'.rest
  have hfoundNamed : found ∈ ReviewStore.named later other.tenantId other.reviewId := by
    rw [mem_named]
    refine ⟨hfound, ?_, ?_⟩
    · rw [← htenant, ← hreviewTenant]
      exact congrArg Prod.fst hkey
    · rw [← hreview, ← hreviewId]
      exact congrArg (fun key => key.2.2) hkey
  rw [hnamed, List.mem_singleton] at hfoundNamed
  subst hfoundNamed
  have hexpected := (valid_iff.mp hresolved.valid).1
  omega

structure Resent (request again : ResolveRequest) : Prop where
  tenantId : again.tenantId = request.tenantId
  userSub : again.userSub = request.userSub
  reviewId : again.reviewId = request.reviewId
  body : again.body = request.body
  expected : again.expected = request.expected
  key : again.key = request.key
  reopen : again.reopen = request.reopen

theorem Accepted.replay_mem (h : Accepted rules hooks request response before after) :
    ∃ runId, ⟨request.tenantId, runId, rules.replayKey request.userSub request.key,
      rules.requestHash request.reviewId request.body request.expected request.reopen, response⟩ ∈
        after.rest.replays := by
  obtain ⟨review, head, tag, decision, -, -, hresponse, hresolved⟩ := h.rest
  refine ⟨review.runId, (Table.mem_insert? hresolved.replays).mpr (Or.inr ?_)⟩
  rw [hresponse]
  rfl

theorem findReplay_of_mem (h : Consistent store.rest) {replay : Replay}
    (hmem : replay ∈ store.rest.replays) :
    findReplay store replay.tenantId replay.recordId = some replay := by
  cases hfound : findReplay store replay.tenantId replay.recordId with
  | none => exact absurd rfl (findReplay_eq_none_iff.mp hfound replay hmem rfl)
  | some found =>
    have hfoundMem : found ∈ store.rest.replays := List.mem_of_find?_eq_some hfound
    have hsame := List.find?_some hfound
    rw [decide_eq_true_eq] at hsame
    rw [h.replays found hfoundMem replay hmem hsame.1 hsame.2]

variable {deleted : String → String → Bool}

theorem findRun_later {key : RunKey}
    (hrun : ∃ run, findRun (reviewHooks hooks deleted) before key = .ok run)
    (hkept : RunsKept before.runs later.runs) :
    ∃ run, findRun (reviewHooks hooks deleted) later key = .ok run := by
  obtain ⟨run, hrun⟩ := hrun
  obtain ⟨kept, hfound⟩ := hkept.getRun rfl (findRun_ok_iff.mp hrun)
  exact ⟨kept, findRun_ok_iff.mpr hfound⟩

theorem Accepted.replayed {again : ResolveRequest}
    (h : Accepted rules (reviewHooks hooks deleted) request response before after)
    (hlater : Later after later) (hconsistent : Consistent later.rest)
    (hagain : Resent request again) :
    resolve rules (reviewHooks hooks deleted) later again =
      if (named later request.tenantId request.reviewId).length = 1 then
        .ok (.replayed response, later)
      else .error (.rejected "RESOURCE_NOT_FOUND" 404) := by
  obtain ⟨review, hmem, htenant, hreview, -, hrun⟩ := h.review
  obtain ⟨found, hfound, hkey, -⟩ := hlater.heads review hmem
  obtain ⟨runId, hreplay⟩ := h.replay_mem
  have hreplay := findReplay_of_mem hconsistent (hlater.replays _ hreplay)
  have hfoundNamed : found ∈ named later request.tenantId request.reviewId := by
    rw [mem_named, ← htenant, ← hreview]
    exact ⟨hfound, congrArg Prod.fst hkey, congrArg (fun key => key.2.2) hkey⟩
  have hfoundRun : found.runId = review.runId := congrArg (fun key => key.2.1) hkey
  unfold resolve lookup
  rw [hagain.tenantId, hagain.reviewId, hagain.userSub, hagain.key, hagain.body, hagain.expected,
    hagain.reopen]
  split_ifs with hone
  · obtain ⟨only, honly⟩ := List.length_eq_one_iff.mp hone
    rw [honly, List.mem_singleton] at hfoundNamed
    subst hfoundNamed
    obtain ⟨run, hlaterRun⟩ := findRun_later hrun (h.runs.trans hlater.runs)
    rw [honly]
    simp only [hfoundRun, hlaterRun, Except.map, bind, Except.bind, hreplay, ne_eq, not_true,
      if_false, pure, Except.pure]
  · split
    · rename_i only honly
      exact absurd (congrArg List.length honly) hone
    · rfl

structure Advanced (request : ResolveRequest) (response : Response) (review : Review)
    (head later : ClaimHead) (before after : Store) : Prop where
  named : named before request.tenantId request.reviewId = [review]
  head_found : before.rest.claimHeads.find review.claimKey = some head
  later_found : after.rest.claimHeads.find review.claimKey = some later
  tag_revision : later.tagRevision = head.tagRevision + 1
  decision_revision : later.decisionRevision = head.decisionRevision + 1
  response_review : response.review = resolvedReview request review
  response_tag : response.newTagRevision = later.tagRevision
  tag : ∃ tag ∈ after.rest.tags, tag.key = (review.claimKey, later.tagRevision)
  decision : ∃ decision ∈ after.rest.decisions,
    decision.key = (review.claimKey, later.decisionRevision) ∧
      decision.decision.api = response.decisionApi
  audit : ∃ event, ∀ key, AuditStore.rowsOf after.rest.audit key =
    AuditStore.rowsOf before.rest.audit key ++
      if (request.tenantId, review.runId) = key then [event] else []

theorem Accepted.advanced (h : Accepted rules hooks request response before after) :
    ∃ review head later, Advanced request response review head later before after := by
  obtain ⟨review, head, tag, decision, hnamed, -, hresponse, hresolved⟩ := h.rest
  obtain ⟨-, htenant, -⟩ := mem_of_named hnamed
  have hclaim : (request.tenantId, review.runId, review.claimId) = review.claimKey := by
    rw [← htenant]
    rfl
  refine ⟨review, head, nextHead request review tag decision, ?_⟩
  exact
    { named := hnamed
      head_found := hclaim ▸ hresolved.head_found
      later_found := by
        rw [hresolved.claimHeads, Table.find_put]
        exact if_pos hclaim
      tag_revision := hresolved.tag_revision
      decision_revision := hresolved.decision_revision
      response_review := by
        rw [hresponse]
        rfl
      response_tag := by
        rw [hresponse]
        rfl
      tag := by
        refine ⟨tag, (Table.mem_insert? hresolved.tags).mpr (Or.inr rfl), ?_⟩
        exact Prod.ext ((congrArg Prod.fst hresolved.tag_key).trans hclaim) rfl
      decision := by
        refine ⟨decision, (Table.mem_insert? hresolved.decisions).mpr (Or.inr rfl), ?_, ?_⟩
        · exact Prod.ext ((congrArg Prod.fst hresolved.decision_key).trans hclaim) rfl
        · rw [hresponse]
          rfl
      audit := hresolved.audit }

def reached (rules : ReviewRules) (hooks : Hooks Reviews) (runs : Table RunRecord RunRecord.key)
    (audit : AuditStore.AuditDatabase) (calls : List Call) : Store :=
  Machine.after (next rules hooks) (start runs audit) calls

theorem reached_consistent (runs : Table RunRecord RunRecord.key)
    (audit : AuditStore.AuditDatabase) (calls : List Call) :
    Consistent (reached rules hooks runs audit calls).rest :=
  after_consistent (Consistent.initial audit) calls

/-- One review a claim: after every interleaving two reviews of a claim are one, every review has
its claim's head, a claim without head has neither tags nor decisions, and no tenant has two
responses under one record. -/
theorem claims_reviewed_apart (rules : ReviewRules) (hooks : Hooks Reviews)
    (runs : Table RunRecord RunRecord.key) (audit : AuditStore.AuditDatabase) (calls : List Call) :
    let reviews := (reached rules hooks runs audit calls).rest
    (∀ review ∈ reviews.heads, (∃ head, reviews.claimHeads.find review.claimKey = some head) ∧
      ∀ other ∈ reviews.heads, review.claimKey = other.claimKey → review = other) ∧
    (∀ claim, reviews.claimHeads.find claim = none → (∀ tag ∈ reviews.tags, tag.key.1 ≠ claim) ∧
      ∀ decision ∈ reviews.decisions, decision.key.1 ≠ claim) ∧
    ∀ replay ∈ reviews.replays, ∀ other ∈ reviews.replays, replay.tenantId = other.tenantId →
      replay.recordId = other.recordId → replay = other := by
  intro reviews
  have hconsistent : Consistent reviews := reached_consistent runs audit calls
  refine ⟨fun review hreview => ⟨?_, hconsistent.apart review hreview⟩, hconsistent.unclaimed,
    hconsistent.replays⟩
  obtain ⟨head, _, hchained⟩ := hconsistent.chained review hreview
  exact ⟨head, hchained.head_found⟩

/-- **The revision chain of reviews.**  After every interleaving of publications,
resolutions and reopenings:
* the tag revisions of a review's claim are the numbers from the published one to the
  claim head, its decisions end at the head, and its own revisions are one to its own;
* an accepted resolution moves both revisions of the claim on by one, and of two that
  expect one revision of a review, at most one is accepted;
* an accepted resolution that is sent again later returns the stored response and
  writes nothing, as long as its identifier names one review of the tenant; once a second
  run has a review of that name it is refused;
* a refused resolution writes nothing, and no insert-only row is ever altered. -/
theorem review_revision_chain (rules : ReviewRules) (hooks : Hooks Reviews)
    (deleted : String → String → Bool) (runs : Table RunRecord RunRecord.key)
    (audit : AuditStore.AuditDatabase) (calls : List Call) :
    (∀ review ∈ (reached rules (reviewHooks hooks deleted) runs audit calls).rest.heads,
      ∃ head first, ChainedAt (reached rules (reviewHooks hooks deleted) runs audit calls).rest
        review head first) ∧
    (∀ request response after,
      resolve rules (reviewHooks hooks deleted)
          (reached rules (reviewHooks hooks deleted) runs audit calls) request =
        .ok (.accepted response, after) →
      (∃ review head later, Advanced request response review head later
        (reached rules (reviewHooks hooks deleted) runs audit calls) after) ∧
      ∀ others : List Call,
        (∀ other answer final,
          resolve rules (reviewHooks hooks deleted)
              (Machine.after (next rules (reviewHooks hooks deleted)) after others) other =
            .ok (.accepted answer, final) →
          other.tenantId = request.tenantId → other.reviewId = request.reviewId →
          request.expected < other.expected) ∧
        ∀ again, Resent request again →
          resolve rules (reviewHooks hooks deleted)
              (Machine.after (next rules (reviewHooks hooks deleted)) after others) again =
            if (named (Machine.after (next rules (reviewHooks hooks deleted)) after others)
                request.tenantId request.reviewId).length = 1 then
              .ok (.replayed response,
                Machine.after (next rules (reviewHooks hooks deleted)) after others)
            else .error (.rejected "RESOURCE_NOT_FOUND" 404)) ∧
    (∀ request error,
      resolve rules (reviewHooks hooks deleted)
          (reached rules (reviewHooks hooks deleted) runs audit calls) request = .error error →
      next rules (reviewHooks hooks deleted)
          (reached rules (reviewHooks hooks deleted) runs audit calls) (.resolve request) =
        reached rules (reviewHooks hooks deleted) runs audit calls) ∧
    ∀ others : List Call,
      Later (reached rules (reviewHooks hooks deleted) runs audit calls)
        (Machine.after (next rules (reviewHooks hooks deleted))
          (reached rules (reviewHooks hooks deleted) runs audit calls) others) := by
  have hconsistent := @reached_consistent rules (reviewHooks hooks deleted) runs audit calls
  refine ⟨hconsistent.chained, fun request response after hresolve => ?_,
    fun request error herror => ?_, fun others => after_later hconsistent others⟩
  · have haccepted := resolve_accepted hresolve
    have hafter := haccepted.consistent hconsistent
    refine ⟨haccepted.advanced, fun others => ⟨fun other answer final hother htenant hreview => ?_,
      fun again hagain => ?_⟩⟩
    · exact haccepted.expected_lt (after_later hafter others) (resolve_accepted hother)
        htenant.symm hreview.symm
    · exact haccepted.replayed (after_later hafter others) (after_consistent hafter others) hagain
  · simp only [next, herror]

/-! ### A namesake in another run -/

def uuid (digit : Nat) : String :=
  "00000000-0000-4000-8000-00000000000" ++ toString digit

def plainRules : ReviewRules where
  validate := fun _ => .ok ()
  isUuid := fun text => text.length = 36
  snapshot := fun inputs => inputs.runId ++ "/" ++ inputs.claimId ++ "/" ++ inputs.content
  canonicalHash := id
  uuid5 := id
  hashTag := fun tag => tag.elements
  hashChange := fun tag decision => tag.elements ++ decision.decision.decision
  replayKey := fun userSub key => userSub ++ "/" ++ key
  requestHash := fun reviewId body expected reopen =>
    reviewId ++ "/" ++ body.elements ++ "/" ++ toString expected ++ toString reopen
  validateLive := fun _ _ => .ok ()
  judge := fun _ _ _ body _ _ _ =>
    .ok
      { confirmedTags := body.elements
        elements := body.elements
        decisionStatus := "decided"
        decision := "E3"
        api := "E3"
        attachments := [] }
  audit :=
    { hashEvent := fun body => body.eventId
      isUuid := fun text => text.length = 36
      isSha256 := fun text => text ≠ ""
      isTimestamp := fun text => text ≠ "" }

def plainHooks : Hooks Reviews where
  versionDeleted := fun _ _ _ => false
  eventId := fun message cause => message.jobId ++ "/" ++ cause
  sha256 := fun payload => toString (payload.map UInt8.toNat)
  actionKey := fun _ key => key
  requestHash := fun _ revision reason => toString revision ++ "/" ++ reason
  decidedHeads := decidedHeads
  headsPublished := fun reviews key =>
    reviews.claimHeads.rows.any fun head => (head.tenantId, head.runId) = key
  decode := fun _ =>
    { isObject := false, schema := "", stageStatus := "", pipelineProfile := none, coverage := none }
  checkParsePins := fun _ _ _ => .ok ()
  checkParse := fun _ _ _ => .ok ()
  checkExtract := fun _ _ _ _ => .ok ()
  checkTag := fun _ _ _ _ _ => .error (.valueError "no tag snapshot")
  audit := fun reviews _ => .ok reviews

def plainRun (runId : String) : RunRecord where
  tenantId := uuid 1
  runId := runId
  documentVersionId := uuid 5
  status := .running
  revision := 1
  mutationEpoch := 1
  cancellationRequested := false
  currentStage := none
  coverage := none
  parseJob := none
  extractJob := none
  tagJob := none
  tagStageStatus := none
  claimSnapshotSha256 := none
  tagSnapshotSha256 := none

def twoRuns : Table RunRecord RunRecord.key :=
  (Table.empty.put (plainRun (uuid 2))).put (plainRun (uuid 3))

def plainInputs (runId : String) : ReviewInputs where
  tenantId := uuid 1
  runId := runId
  claimId := uuid 4
  documentVersionId := uuid 5
  localSynthetic := true
  rulepackApproved := false
  tagRevision := 1
  reasons := []
  confirmedTags := none
  candidateElements := "[]"
  decision := none
  factAssembly := none
  reportLevelLink := none
  reportLevelReview := "[]"
  content := "{}"

def plainPublication (runId : String) : Call :=
  .publish
    [{ inputs := plainInputs runId
       reviewId := some (uuid 6)
       bumps := .forNew
       eventId := uuid 7
       now := "2026-01-01T00:00:00Z" }] true

def plainRequest : ResolveRequest where
  tenantId := uuid 1
  userSub := "reviewer"
  reviewId := uuid 6
  body :=
    { baseTagRevision := 1, track := "numeric", elements := "[G1]", reason := "checked", trusted := none }
  expected := 1
  key := "0123456789abcdef"
  reopen := false
  inputs := plainInputs (uuid 2)
  provenance :=
    { origin := "human", reviewStatus := "human_confirmed", reviewerSub := none, extraTag := [] }
  eventId := uuid 8
  now := "2026-01-02T00:00:00Z"

def plainStore (calls : List Call) : Store :=
  reached plainRules (reviewHooks plainHooks fun _ _ => false) twoRuns
    AuditStore.AuditDatabase.initial calls

def plainAnswer (calls : List Call) : Except ReviewError Answer :=
  (resolve plainRules (reviewHooks plainHooks fun _ _ => false) (plainStore calls)
    plainRequest).map Prod.fst

def plainResponse : Response where
  review :=
    { tenantId := uuid 1
      runId := uuid 2
      reviewId := uuid 6
      claimId := uuid 4
      status := .resolved
      revision := 2
      baseTagRevision := 1
      reasonCodes := [] }
  decisionApi := "E3"
  newTagRevision := 2

theorem replay_lost_to_namesake :
    plainAnswer [plainPublication (uuid 2)] = .ok (.accepted plainResponse) ∧
      plainAnswer [plainPublication (uuid 2), .resolve plainRequest] =
        .ok (.replayed plainResponse) ∧
      plainAnswer [plainPublication (uuid 2), .resolve plainRequest, plainPublication (uuid 3)] =
        .error (.rejected "RESOURCE_NOT_FOUND" 404) := by
  decide +kernel

end ProofOps.Adapters.Local.ReviewStore
