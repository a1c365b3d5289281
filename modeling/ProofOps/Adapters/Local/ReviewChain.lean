import ProofOps.Adapters.Local.JobEvolution
import ProofOps.Adapters.Local.ReviewStore
import ProofOps.Foundation.Revisions

/-!
# Review chains

What a publication and an accepted resolution write, and what every run of them keeps:
the revisions of a claim are consecutive, its head is the last of them, and no row of an
insert-only kind changes.
-/

namespace ProofOps.Adapters.Local.ReviewStore

open Foundation Foundation.Checked Foundation.Revisions Application.Reviews Domain.Audit

variable {rules : ReviewRules} {hooks : Hooks Reviews}

variable {store : Store} {key : RunKey}

theorem findRun_ok_iff {run : RunRecord} :
    findRun hooks store key = .ok run ↔ getRun hooks store key = .ok run := by
  unfold findRun
  cases getRun hooks store key with
  | error refusal => simp
  | ok found => simp

theorem getRecord_ok {α κ : Type} [DecidableEq κ] {key : α → κ} {table : Table α key} {k : κ}
    {row : α} (h : getRecord table k = .ok row) : table.find k = some row := by
  unfold getRecord at h
  cases hfound : table.find k with
  | none => simp [hfound] at h
  | some found =>
    simp only [hfound, Except.ok.injEq] at h
    rw [h]

variable {review : Review}

theorem mem_named {tenantId reviewId : String} :
    review ∈ named store tenantId reviewId ↔
      review ∈ store.rest.heads ∧ review.tenantId = tenantId ∧ review.reviewId = reviewId := by
  simp [named]

theorem lookup_ok {tenantId reviewId : String}
    (h : lookup hooks store tenantId reviewId = .ok review) :
    named store tenantId reviewId = [review] ∧
      ∃ run, findRun hooks store (tenantId, review.runId) = .ok run := by
  unfold lookup at h
  split at h
  · rename_i found hnamed
    obtain ⟨run, hrun, hsame⟩ := map_ok_iff.mp h
    subst hsame
    exact ⟨hnamed, run, hrun⟩
  · cases h

def RunsKept (before after : Table RunRecord RunRecord.key) : Prop :=
  ∀ key run, before.find key = some run →
    ∃ later, after.find key = some later ∧ later.documentVersionId = run.documentVersionId

theorem RunsKept.getRun {ρ : Type} {hooks : Hooks ρ} {before later : JobStore ρ} {run : RunRecord}
    (hkept : RunsKept before.runs later.runs)
    (hsame : hooks.versionDeleted later.rest = hooks.versionDeleted before.rest)
    (hrun : Local.getRun hooks before key = .ok run) :
    ∃ kept, Local.getRun hooks later key = .ok kept := by
  obtain ⟨hfound, hdeleted⟩ := getRun_ok_iff.mp hrun
  obtain ⟨kept, hkeptFound, hdocument⟩ := hkept key run hfound
  refine ⟨kept, getRun_ok_iff.mpr ⟨hkeptFound, ?_⟩⟩
  have hkeys := (Table.find_eq_some_iff.mp hkeptFound).2.trans
    (Table.find_eq_some_iff.mp hfound).2.symm
  have htenant : kept.tenantId = run.tenantId := congrArg Prod.fst hkeys
  rw [htenant, hdocument, hsame]
  exact hdeleted

theorem RunsKept.refl (runs : Table RunRecord RunRecord.key) : RunsKept runs runs :=
  fun _ run hrun => ⟨run, hrun, rfl⟩

theorem RunsKept.trans {first second third : Table RunRecord RunRecord.key}
    (h : RunsKept first second) (h' : RunsKept second third) : RunsKept first third := by
  intro key run hrun
  obtain ⟨mid, hmid, hmidDocument⟩ := h key run hrun
  obtain ⟨later, hlater, hdocument⟩ := h' key mid hmid
  exact ⟨later, hlater, hdocument.trans hmidDocument⟩

variable {after : Store}

theorem bump_ok {refresh : Bool} (h : bump hooks store key refresh = .ok after) :
    after.rest = store.rest ∧ RunsKept store.runs after.runs := by
  obtain ⟨run, hrun, h⟩ := bind_ok h
  have hfound := getRun_ok (findRun_ok_iff.mp hrun)
  cases hbump : bumpRun hooks store run none refresh with
  | error refusal => simp [hbump] at h
  | ok made =>
    obtain ⟨bumped, moved⟩ := made
    obtain ⟨rfl, hkey, hdocument, -⟩ := bumpRun_ok hbump
    simp only [hbump, Except.ok.injEq] at h
    subst h
    refine ⟨rfl, fun other old hold => ?_⟩
    rw [Table.find_put, hkey, (Table.find_eq_some_iff.mp hfound).2]
    by_cases hother : key = other
    · subst hother
      cases hfound.symm.trans hold
      exact ⟨bumped, if_pos rfl, hdocument⟩
    · exact ⟨old, (if_neg hother).trans hold, rfl⟩

structure Opened (rules : ReviewRules) (inputs : ReviewInputs) (review : Review)
    (before after : Reviews) : Prop where
  rows : before.inputs.insert?
    ⟨inputs.tenantId, inputs.runId, review.reviewId, rules.snapshot inputs⟩ = some after.inputs
  tags : before.tags.insert? (publishedTag rules inputs) = some after.tags
  decisions : putDecision before.decisions inputs = .ok after.decisions
  revisions : before.revisions.insert? ⟨review, none⟩ = some after.revisions
  heads : after.heads = before.heads.put review
  claimHeads : after.claimHeads = before.claimHeads.put (publishedHead inputs)
  replays : after.replays = before.replays

variable {inputs : ReviewInputs} {eventId : String}

theorem writePublication_ok {before after : Reviews} {now : String}
    (h : writePublication rules before inputs review eventId now = .ok after) :
    Opened rules inputs review before after := by
  obtain ⟨rows, hrows, h⟩ := bind_ok h
  obtain ⟨tags, htags, h⟩ := bind_ok h
  obtain ⟨decisions, hdecisions, h⟩ := bind_ok h
  obtain ⟨revisions, hrevisions, h⟩ := bind_ok h
  obtain ⟨audit, -, h⟩ := bind_ok h
  cases pure_ok h
  exact ⟨Table.insertOr_ok hrows, Table.insertOr_ok htags, hdecisions, Table.insertOr_ok hrevisions,
    rfl, rfl, rfl⟩

structure Fresh (inputs : ReviewInputs) (review : Review) : Prop where
  tenantId : review.tenantId = inputs.tenantId
  runId : review.runId = inputs.runId
  claimId : review.claimId = inputs.claimId
  status : review.status = .opened
  revision : review.revision = 1
  base : review.baseTagRevision = inputs.tagRevision

theorem makeReview_ok {reviewId : Option String}
    (h : makeReview rules inputs reviewId = .ok review) : Fresh inputs review := by
  replace h := rest_ok h
  simp only at h
  split_ifs at h
  cases pure_ok h
  exact ⟨rfl, rfl, rfl, rfl, rfl, rfl⟩

theorem Fresh.claimKey (h : Fresh inputs review) : review.claimKey = inputs.claimKey := by
  unfold Review.claimKey ReviewInputs.claimKey
  rw [h.tenantId, h.runId, h.claimId]

theorem publishTransaction_ok {made : Review} {now : String}
    (h : publishTransaction rules hooks store inputs review eventId now = .ok (made, after)) :
    after = store ∨
      store.rest.heads.find (inputs.tenantId, inputs.runId, review.reviewId) = none ∧
        store.rest.claimHeads.find inputs.claimKey = none ∧
        ∃ rest, Opened rules inputs review store.rest rest ∧ after = { store with rest := rest } := by
  obtain ⟨run, -, h⟩ := bind_ok h
  split_ifs at h with hdocument
  replace h := rest_ok h
  cases hprior : store.rest.heads.find (inputs.tenantId, inputs.runId, review.reviewId) with
  | some prior =>
    simp only [hprior] at h
    obtain ⟨stored, -, h⟩ := bind_ok h
    split_ifs at h
    cases pure_ok h
    exact Or.inl rfl
  | none =>
    cases hhead : store.rest.claimHeads.find inputs.claimKey with
    | some head => simp [hprior, hhead] at h
    | none =>
      simp only [hprior, hhead] at h
      obtain ⟨rest, hrest, h⟩ := bind_ok h
      cases pure_ok h
      exact Or.inr ⟨rfl, rfl, rest, writePublication_ok hrest, rfl⟩

structure Published (rules : ReviewRules) (before after : Store) : Prop where
  runs : RunsKept before.runs after.runs
  rest : after.rest = before.rest ∨
    ∃ inputs review, Fresh inputs review ∧ before.rest.heads.find review.key = none ∧
      before.rest.claimHeads.find inputs.claimKey = none ∧
      Opened rules inputs review before.rest after.rest

theorem publish_ok {publication : Publication}
    (h : publish rules hooks store publication = .ok after) : Published rules store after := by
  obtain ⟨review, hreview, h⟩ := bind_ok h
  obtain ⟨⟨made, published⟩, hpublished, h⟩ := bind_ok h
  have hfresh := makeReview_ok hreview
  have hmoved : after.rest = published.rest ∧ RunsKept published.runs after.runs := by
    split_ifs at h
    · exact bump_ok h
    · cases h
      exact ⟨rfl, RunsKept.refl _⟩
  rcases publishTransaction_ok hpublished with rfl | ⟨hreviewFree, hclaimFree, rest, hopened, rfl⟩
  · exact ⟨hmoved.2, Or.inl hmoved.1⟩
  · refine ⟨hmoved.2, Or.inr ⟨publication.inputs, review, hfresh, ?_, hclaimFree, ?_⟩⟩
    · unfold Review.key
      rw [hfresh.tenantId, hfresh.runId]
      exact hreviewFree
    · rw [hmoved.1]
      exact hopened

structure Resolved (rules : ReviewRules) (request : ResolveRequest) (review : Review)
    (head : ClaimHead) (tag : TagRecord) (decision : DecisionRecord) (before after : Reviews) :
    Prop where
  head_found : before.claimHeads.find (request.tenantId, review.runId, review.claimId) = some head
  valid : valid request review head = true
  tag_key : tag.key =
    ((request.tenantId, review.runId, review.claimId), request.body.baseTagRevision + 1)
  decision_key : decision.key =
    ((request.tenantId, review.runId, review.claimId), head.decisionRevision + 1)
  tags : before.tags.insert? tag = some after.tags
  decisions : before.decisions.insert? decision = some after.decisions
  revisions : before.revisions.insert? ⟨resolvedReview request review,
    some ⟨makeResponse request review tag decision, request.userSub, request.now⟩⟩ =
      some after.revisions
  replays : before.replays.insert?
    (replayRow rules request review (makeResponse request review tag decision)) =
      some after.replays
  heads : after.heads = before.heads.put (resolvedReview request review)
  claimHeads : after.claimHeads = before.claimHeads.put
    ⟨request.tenantId, review.runId, review.claimId, tag.tagRevision,
      decision.decision.decisionRevision⟩
  inputs : after.inputs = before.inputs
  audit : ∃ event, ∀ key, AuditStore.rowsOf after.audit key = AuditStore.rowsOf before.audit key ++
    if (request.tenantId, review.runId) = key then [event] else []

structure Accepted (rules : ReviewRules) (hooks : Hooks Reviews) (request : ResolveRequest)
    (response : Response) (before after : Store) : Prop where
  unplayed : findReplay before request.tenantId (rules.replayKey request.userSub request.key) = none
  runs : RunsKept before.runs after.runs
  rest : ∃ review head tag decision,
    named before request.tenantId request.reviewId = [review] ∧
      (∃ run, findRun hooks before (request.tenantId, review.runId) = .ok run) ∧
      response = makeResponse request review tag decision ∧
      Resolved rules request review head tag decision before.rest after.rest

theorem appendAudit_ok {audit after : AuditStore.AuditDatabase} {change : ChangeSet}
    {timestamp : String} (h : appendAudit rules audit change eventId timestamp = .ok after) :
    ∃ event, ∀ key, AuditStore.rowsOf after key = AuditStore.rowsOf audit key ++
      if change.stream = key then [event] else [] := by
  unfold appendAudit at h
  split at h
  · rename_i made written hwritten
    cases h
    exact ⟨made.1, (AuditStore.appendTransaction_ok hwritten).rows⟩
  · cases h

variable {request : ResolveRequest} {response : Response}

theorem resolveFresh_ok (h : resolveFresh rules hooks store request review = .ok (response, after))
    :
    RunsKept store.runs after.runs ∧ ∃ head tag decision,
      response = makeResponse request review tag decision ∧
        Resolved rules request review head tag decision store.rest after.rest := by
  obtain ⟨head, hhead, h⟩ := bind_ok h
  split_ifs at h with hvalid
  obtain ⟨initial, -, h⟩ := bind_ok h
  obtain ⟨⟨built, decision⟩, hbuilt, h⟩ := bind_ok h
  obtain ⟨written, hwritten, h⟩ := bind_ok h
  obtain ⟨bumped, hbumped, h⟩ := bind_ok h
  obtain ⟨audit, haudit, h⟩ := bind_ok h
  obtain ⟨replays, hreplays, h⟩ := bind_ok h
  cases pure_ok h
  obtain ⟨htagKey, hdecisionKey⟩ := build_ok hbuilt
  obtain ⟨tags, htags, hwritten⟩ := bind_ok hwritten
  obtain ⟨decisions, hdecisions, hwritten⟩ := bind_ok hwritten
  obtain ⟨revisions, hrevisions, hwritten⟩ := bind_ok hwritten
  cases pure_ok hwritten
  refine ⟨(bump_ok hbumped).2, head, { built with createdAt := some request.now }, decision, rfl, ?_⟩
  exact
    { head_found := getRecord_ok hhead
      valid := by simpa using hvalid
      tag_key := htagKey
      decision_key := hdecisionKey
      tags := Table.insertOr_ok htags
      decisions := Table.insertOr_ok hdecisions
      revisions := Table.insertOr_ok hrevisions
      replays := Table.insertOr_ok hreplays
      heads := rfl
      claimHeads := rfl
      inputs := rfl
      audit := appendAudit_ok haudit }

/-- An accepted resolution wrote `Accepted`. -/
theorem resolve_accepted (h : resolve rules hooks store request = .ok (.accepted response, after)) :
    Accepted rules hooks request response store after := by
  obtain ⟨review, hreview, h⟩ := bind_ok h
  cases hreplay : findReplay store request.tenantId
      (rules.replayKey request.userSub request.key) with
  | some previous =>
    simp only [hreplay] at h
    split_ifs at h
    cases pure_ok h
  | none =>
    simp only [hreplay] at h
    obtain ⟨⟨made, written⟩, hmade, h⟩ := bind_ok h
    cases pure_ok h
    obtain ⟨hnamed, hrun⟩ := lookup_ok hreview
    obtain ⟨hruns, head, tag, decision, hresponse, hresolved⟩ := resolveFresh_ok hmade
    exact ⟨hreplay, hruns, review, head, tag, decision, hnamed, hrun, hresponse, hresolved⟩

theorem resolve_replayed (h : resolve rules hooks store request = .ok (.replayed response, after)) :
    after = store := by
  obtain ⟨review, -, h⟩ := bind_ok h
  cases hreplay : findReplay store request.tenantId
      (rules.replayKey request.userSub request.key) with
  | some previous =>
    simp only [hreplay] at h
    split_ifs at h
    cases pure_ok h
    rfl
  | none =>
    simp only [hreplay] at h
    obtain ⟨⟨made, written⟩, -, h⟩ := bind_ok h
    cases pure_ok h

end ProofOps.Adapters.Local.ReviewStore
