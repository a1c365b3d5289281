import ProofOps.Adapters.Local.ReviewChain

/-!
# Histories of reviews

The invariant of the review records, `Consistent`, and the order of their states,
`Later`: both are kept by a publication and by an accepted resolution, hence by every
interleaving of them.
-/

namespace ProofOps.Adapters.Local.ReviewStore

open Foundation Foundation.Checked Foundation.Revisions Application.Reviews Domain.Audit

variable {rules : ReviewRules} {hooks : Hooks Reviews}

structure ChainedAt (reviews : Reviews) (review : Review) (head : ClaimHead) (first : Nat) :
    Prop where
  head_found : reviews.claimHeads.find review.claimKey = some head
  tags : Spans reviews.tags review.claimKey review.baseTagRevision head.tagRevision
  tag_head : head.tagRevision + 1 = review.baseTagRevision + review.revision
  first_le : first ≤ head.decisionRevision + 1
  decisions : Spans reviews.decisions review.claimKey first head.decisionRevision
  revisions : Spans reviews.revisions review.key 1 review.revision
  positive : 1 ≤ review.revision
  status : review.status = .opened ↔ review.revision = 1

structure Consistent (reviews : Reviews) : Prop where
  chained : ∀ review ∈ reviews.heads, ∃ head first, ChainedAt reviews review head first
  apart : ∀ review ∈ reviews.heads, ∀ other ∈ reviews.heads,
    review.claimKey = other.claimKey → review = other
  unclaimed : ∀ claim, reviews.claimHeads.find claim = none →
    (∀ tag ∈ reviews.tags, tag.key.1 ≠ claim) ∧ ∀ decision ∈ reviews.decisions, decision.key.1 ≠ claim
  unreviewed : ∀ key, reviews.heads.find key = none → ∀ row ∈ reviews.revisions, row.key.1 ≠ key
  replays : ∀ replay ∈ reviews.replays, ∀ other ∈ reviews.replays,
    replay.tenantId = other.tenantId → replay.recordId = other.recordId → replay = other

theorem Consistent.initial (audit : AuditStore.AuditDatabase) :
    Consistent (Reviews.initial audit) where
  chained := fun _ h => absurd h Table.not_mem_empty
  apart := fun _ h => absurd h Table.not_mem_empty
  unclaimed := fun _ _ => ⟨fun _ h => absurd h Table.not_mem_empty,
    fun _ h => absurd h Table.not_mem_empty⟩
  unreviewed := fun _ _ _ h => absurd h Table.not_mem_empty
  replays := fun _ h => absurd h Table.not_mem_empty

variable {decisions written : Table DecisionRecord DecisionRecord.key} {first : Nat} {store : Store}

section Opened

variable {inputs : ReviewInputs} {review : Review} {before after : Reviews}

theorem mem_putDecision (h : putDecision decisions inputs = .ok written) {record : DecisionRecord}
    (hrecord : record ∈ written) : record ∈ decisions ∨ record.key.1 = inputs.claimKey := by
  unfold putDecision at h
  cases hdecision : inputs.decision with
  | none =>
    simp only [hdecision, Except.ok.injEq] at h
    exact Or.inl (h ▸ hrecord)
  | some decision =>
    simp only [hdecision] at h
    rcases (Table.mem_insert? (Table.insertOr_ok h)).mp hrecord with hold | rfl
    · exact Or.inl hold
    · exact Or.inr rfl

theorem putDecision_other
    (h : putDecision decisions inputs = .ok written) {claim : ClaimKey} {last : Nat}
    (hspans : Spans decisions claim first last) (hclaim : inputs.claimKey ≠ claim) :
    Spans written claim first last := by
  unfold putDecision at h
  cases hdecision : inputs.decision with
  | none =>
    simp only [hdecision, Except.ok.injEq] at h
    exact h ▸ hspans
  | some decision =>
    simp only [hdecision] at h
    exact hspans.insert_other (Table.insertOr_ok h) hclaim

theorem putDecision_first (h : putDecision decisions inputs = .ok written)
    (hnone : ∀ decision ∈ decisions, decision.key.1 ≠ inputs.claimKey) :
    ∃ first, first ≤ (publishedHead inputs).decisionRevision + 1 ∧
      Spans written inputs.claimKey first (publishedHead inputs).decisionRevision := by
  unfold putDecision at h
  cases hdecision : inputs.decision with
  | none =>
    simp only [hdecision, Except.ok.injEq] at h
    subst h
    have hzero : (publishedHead inputs).decisionRevision = 0 := by simp [publishedHead, hdecision]
    rw [hzero]
    exact ⟨1, le_refl 1, spans_none Nat.zero_lt_one hnone⟩
  | some decision =>
    simp only [hdecision] at h
    have hlast : (publishedHead inputs).decisionRevision = decision.decisionRevision := by
      simp [publishedHead, hdecision]
    rw [hlast]
    exact ⟨decision.decisionRevision, Nat.le_succ _,
      spans_insert_first hnone (Table.insertOr_ok h) rfl⟩

theorem ChainedAt.opened {other : Review} {head : ClaimHead}
    (h : ChainedAt before other head first) (hopened : Opened rules inputs review before after)
    (hclaim : inputs.claimKey ≠ other.claimKey) (hkey : review.key ≠ other.key) :
    ChainedAt after other head first where
  head_found := by
    rw [hopened.claimHeads, Table.find_put]
    exact (if_neg hclaim).trans h.head_found
  tags := h.tags.insert_other hopened.tags hclaim
  tag_head := h.tag_head
  first_le := h.first_le
  decisions := putDecision_other hopened.decisions h.decisions hclaim
  revisions := h.revisions.insert_other hopened.revisions hkey
  positive := h.positive
  status := h.status

theorem Opened.chained (hopened : Opened rules inputs review before after)
    (hfresh : Fresh inputs review) (h : Consistent before)
    (hreview : before.heads.find review.key = none)
    (hclaim : before.claimHeads.find inputs.claimKey = none) :
    ∃ first, ChainedAt after review (publishedHead inputs) first := by
  have hunclaimed := h.unclaimed _ hclaim
  obtain ⟨first, hfirst, hdecisions⟩ := putDecision_first hopened.decisions hunclaimed.2
  refine ⟨first, ?_⟩
  exact
    { head_found := by
        rw [hopened.claimHeads, Table.find_put, hfresh.claimKey]
        exact if_pos rfl
      tags := by
        rw [hfresh.claimKey, hfresh.base]
        exact spans_insert_first hunclaimed.1 hopened.tags rfl
      tag_head := by
        rw [hfresh.base, hfresh.revision]
        rfl
      first_le := hfirst
      decisions := by
        rw [hfresh.claimKey]
        exact hdecisions
      revisions := by
        have hkey : ReviewRevision.key ⟨review, none⟩ = (review.key, review.revision) := rfl
        have hspans := spans_insert_first (h.unreviewed _ hreview) hopened.revisions hkey
        rw [hfresh.revision] at hspans ⊢
        exact hspans
      positive := hfresh.revision.ge
      status := by simp [hfresh.status, hfresh.revision] }

/-- Opening keeps every chain. -/
theorem Opened.consistent (hopened : Opened rules inputs review before after)
    (hfresh : Fresh inputs review) (h : Consistent before)
    (hreview : before.heads.find review.key = none)
    (hclaim : before.claimHeads.find inputs.claimKey = none) : Consistent after := by
  have hforeign : ∀ other ∈ before.heads, inputs.claimKey ≠ other.claimKey := by
    intro other hother heq
    obtain ⟨head, first, hchained⟩ := h.chained other hother
    have hfound := hchained.head_found
    rw [← heq, hclaim] at hfound
    cases hfound
  constructor
  case chained =>
    intro other hother
    rw [hopened.heads, Table.mem_put] at hother
    rcases hother with rfl | ⟨hold, hkey⟩
    · exact ⟨_, hopened.chained hfresh h hreview hclaim⟩
    · obtain ⟨head, first, hchained⟩ := h.chained other hold
      exact ⟨head, first, hchained.opened hopened (hforeign other hold) hkey.symm⟩
  case apart =>
    intro first hfirst second hsecond heq
    rw [hopened.heads, Table.mem_put] at hfirst hsecond
    rcases hfirst with rfl | ⟨hfirst, -⟩
    · rcases hsecond with rfl | ⟨hsecond, -⟩
      · rfl
      · exact absurd (hfresh.claimKey.symm.trans heq) (hforeign second hsecond)
    · rcases hsecond with rfl | ⟨hsecond, -⟩
      · exact absurd (hfresh.claimKey.symm.trans heq.symm) (hforeign first hfirst)
      · exact h.apart first hfirst second hsecond heq
  case unclaimed =>
    intro claim hnone
    rw [hopened.claimHeads, Table.find_put] at hnone
    split_ifs at hnone with hkey
    obtain ⟨htags, hdecisions⟩ := h.unclaimed claim hnone
    constructor
    · intro tag htag
      rcases (Table.mem_insert? hopened.tags).mp htag with hold | rfl
      · exact htags tag hold
      · exact hkey
    · intro decision hdecision
      rcases mem_putDecision hopened.decisions hdecision with hold | hsame
      · exact hdecisions decision hold
      · exact hsame ▸ hkey
  case unreviewed =>
    intro key hnone row hrow
    rw [hopened.heads, Table.find_put] at hnone
    split_ifs at hnone with hkey
    rcases (Table.mem_insert? hopened.revisions).mp hrow with hold | rfl
    · exact h.unreviewed key hnone row hold
    · exact hkey
  case replays =>
    rw [hopened.replays]
    exact h.replays

theorem Published.consistent {later : Store} (h : Published rules store later)
    (hconsistent : Consistent store.rest) : Consistent later.rest := by
  rcases h.rest with hsame | ⟨inputs, review, hfresh, hreview, hclaim, hopened⟩
  · exact hsame ▸ hconsistent
  · exact hopened.consistent hfresh hconsistent hreview hclaim

end Opened

/-! ### Accepted resolutions keep it -/

variable {request : ResolveRequest}

theorem valid_iff {review : Review} {head : ClaimHead} :
    valid request review head = true ↔
      review.revision = request.expected ∧ request.body.baseTagRevision = head.tagRevision ∧
        if request.reopen then review.status = .resolved
        else review.status = .opened ∧ request.body.baseTagRevision = review.baseTagRevision := by
  unfold valid
  split_ifs with hreopen
  · simp only [Bool.and_eq_true, decide_eq_true_eq]
    constructor
    · rintro ⟨⟨hrevision, hstatus⟩, hbase⟩
      exact ⟨hrevision, hbase, hstatus⟩
    · rintro ⟨hrevision, hbase, hstatus⟩
      exact ⟨⟨hrevision, hstatus⟩, hbase⟩
  · simp only [Bool.and_eq_true, decide_eq_true_eq]
    constructor
    · rintro ⟨⟨⟨hrevision, hstatus⟩, hreview⟩, hhead⟩
      exact ⟨hrevision, hhead.symm, hstatus, hreview⟩
    · rintro ⟨hrevision, hhead, hstatus, hreview⟩
      exact ⟨⟨⟨hrevision, hstatus⟩, hreview⟩, hhead.symm⟩

section Resolved

variable {request : ResolveRequest} {review : Review} {head : ClaimHead} {tag : TagRecord}
  {decision : DecisionRecord} {before after : Reviews}

def nextHead (request : ResolveRequest) (review : Review) (tag : TagRecord)
    (decision : DecisionRecord) : ClaimHead :=
  ⟨request.tenantId, review.runId, review.claimId, tag.tagRevision,
    decision.decision.decisionRevision⟩

theorem Resolved.tag_revision (h : Resolved rules request review head tag decision before after) :
    tag.tagRevision = head.tagRevision + 1 := by
  have hkey : tag.tagRevision = request.body.baseTagRevision + 1 := congrArg Prod.snd h.tag_key
  rw [hkey, (valid_iff.mp h.valid).2.1]

theorem Resolved.decision_revision
    (h : Resolved rules request review head tag decision before after) :
    decision.decision.decisionRevision = head.decisionRevision + 1 :=
  congrArg Prod.snd h.decision_key

theorem ChainedAt.resolved_other {other : Review} {otherHead : ClaimHead}
    (h : ChainedAt before other otherHead first)
    (hresolved : Resolved rules request review head tag decision before after)
    (htenant : review.tenantId = request.tenantId) (hclaim : review.claimKey ≠ other.claimKey)
    (hkey : review.key ≠ other.key) : ChainedAt after other otherHead first := by
  have hclaim' : (request.tenantId, review.runId, review.claimId) ≠ other.claimKey := by
    rw [← htenant]
    exact hclaim
  exact
    { head_found := by
        rw [hresolved.claimHeads, Table.find_put]
        exact (if_neg hclaim').trans h.head_found
      tags := h.tags.insert_other hresolved.tags (by rw [hresolved.tag_key]; exact hclaim')
      tag_head := h.tag_head
      first_le := h.first_le
      decisions := h.decisions.insert_other hresolved.decisions
        (by rw [hresolved.decision_key]; exact hclaim')
      revisions := h.revisions.insert_other hresolved.revisions hkey
      positive := h.positive
      status := h.status }

theorem ChainedAt.resolved (h : ChainedAt before review head first)
    (hresolved : Resolved rules request review head tag decision before after)
    (htenant : review.tenantId = request.tenantId) :
    ChainedAt after (resolvedReview request review) (nextHead request review tag decision)
      first := by
  obtain ⟨hrevision, hbase, -⟩ := valid_iff.mp hresolved.valid
  have hclaim : review.claimKey = (request.tenantId, review.runId, review.claimId) := by
    rw [← htenant]
    rfl
  have htag := hresolved.tag_revision
  have hdecision := hresolved.decision_revision
  have htagHead := h.tag_head
  have hpositive := h.positive
  exact
    { head_found := by
        rw [hresolved.claimHeads, Table.find_put]
        exact if_pos hclaim.symm
      tags := by
        have hspans := h.tags.insert_next (by omega) hresolved.tags
          (by rw [hresolved.tag_key, hbase, hclaim])
        rw [← htag] at hspans
        exact hspans
      tag_head := by
        show tag.tagRevision + 1 = review.baseTagRevision + (request.expected + 1)
        omega
      first_le := by
        show first ≤ decision.decision.decisionRevision + 1
        have := h.first_le
        omega
      decisions := by
        have hspans := h.decisions.insert_next h.first_le hresolved.decisions
          (by rw [hresolved.decision_key, hclaim])
        rw [← hdecision] at hspans
        exact hspans
      revisions := by
        show Spans after.revisions review.key 1 (request.expected + 1)
        rw [← hrevision]
        refine h.revisions.insert_next (by omega) hresolved.revisions ?_
        show (review.key, request.expected + 1) = (review.key, review.revision + 1)
        rw [hrevision]
      positive := Nat.succ_pos _
      status := by
        constructor
        · intro hopened
          cases hopened
        · intro hone
          have : request.expected + 1 = 1 := hone
          omega }

theorem Resolved.consistent (hresolved : Resolved rules request review head tag decision before after)
    (h : Consistent before) (hmem : review ∈ before.heads)
    (htenant : review.tenantId = request.tenantId)
    (hunplayed : ∀ replay ∈ before.replays, replay.tenantId = request.tenantId →
      replay.recordId ≠ rules.replayKey request.userSub request.key) : Consistent after := by
  have hclaim : review.claimKey = (request.tenantId, review.runId, review.claimId) := by
    rw [← htenant]
    rfl
  constructor
  case chained =>
    intro other hother
    rw [hresolved.heads, Table.mem_put] at hother
    rcases hother with rfl | ⟨hold, hkey⟩
    · obtain ⟨oldHead, first, hchained⟩ := h.chained review hmem
      have hsame : oldHead = head := by
        have hfound := hchained.head_found
        rw [hclaim, hresolved.head_found] at hfound
        exact (Option.some.inj hfound).symm
      subst hsame
      exact ⟨_, first, hchained.resolved hresolved htenant⟩
    · obtain ⟨otherHead, first, hchained⟩ := h.chained other hold
      have hapart : review.claimKey ≠ other.claimKey := by
        intro heq
        exact hkey (congrArg Review.key (h.apart review hmem other hold heq)).symm
      exact ⟨otherHead, first, hchained.resolved_other hresolved htenant hapart
        (fun heq => hkey heq.symm)⟩
  case apart =>
    have hold : ∀ other ∈ after.heads, ∃ old ∈ before.heads,
        old.claimKey = other.claimKey ∧ old.key = other.key := by
      intro other hother
      rw [hresolved.heads, Table.mem_put] at hother
      rcases hother with rfl | ⟨hkept, -⟩
      · exact ⟨review, hmem, rfl, rfl⟩
      · exact ⟨other, hkept, rfl, rfl⟩
    intro first hfirst second hsecond heq
    obtain ⟨oldFirst, holdFirst, hfirstClaim, hfirstKey⟩ := hold first hfirst
    obtain ⟨oldSecond, holdSecond, hsecondClaim, hsecondKey⟩ := hold second hsecond
    have hsame := h.apart oldFirst holdFirst oldSecond holdSecond
      (hfirstClaim.trans (heq.trans hsecondClaim.symm))
    refine Table.eq_of_key_eq hfirst hsecond ?_
    rw [← hfirstKey, ← hsecondKey, hsame]
  case unclaimed =>
    intro claim hnone
    rw [hresolved.claimHeads, Table.find_put] at hnone
    split_ifs at hnone with hkey
    obtain ⟨htags, hdecisions⟩ := h.unclaimed claim hnone
    constructor
    · intro other hother
      rcases (Table.mem_insert? hresolved.tags).mp hother with hold | rfl
      · exact htags other hold
      · rw [hresolved.tag_key]
        exact hkey
    · intro other hother
      rcases (Table.mem_insert? hresolved.decisions).mp hother with hold | rfl
      · exact hdecisions other hold
      · rw [hresolved.decision_key]
        exact hkey
  case unreviewed =>
    intro key hnone row hrow
    rw [hresolved.heads, Table.find_put] at hnone
    split_ifs at hnone with hkey
    rcases (Table.mem_insert? hresolved.revisions).mp hrow with hold | rfl
    · exact h.unreviewed key hnone row hold
    · exact hkey
  case replays =>
    intro first hfirst second hsecond hsameTenant hsameRecord
    rcases (Table.mem_insert? hresolved.replays).mp hfirst with hfirst | rfl
    · rcases (Table.mem_insert? hresolved.replays).mp hsecond with hsecond | rfl
      · exact h.replays first hfirst second hsecond hsameTenant hsameRecord
      · exact absurd hsameRecord (hunplayed first hfirst hsameTenant)
    · rcases (Table.mem_insert? hresolved.replays).mp hsecond with hsecond | rfl
      · exact absurd hsameRecord.symm (hunplayed second hsecond hsameTenant.symm)
      · rfl

end Resolved

theorem findReplay_eq_none_iff {tenantId recordId : String} :
    findReplay store tenantId recordId = none ↔
      ∀ replay ∈ store.rest.replays, replay.tenantId = tenantId → replay.recordId ≠ recordId := by
  unfold findReplay
  simp

theorem mem_of_named {tenantId reviewId : String} {review : Review}
    (h : named store tenantId reviewId = [review]) :
    review ∈ store.rest.heads ∧ review.tenantId = tenantId ∧ review.reviewId = reviewId :=
  mem_named.mp (h ▸ List.mem_singleton_self review)

theorem Accepted.consistent {response : Response} {later : Store}
    (h : Accepted rules hooks request response store later) (hconsistent : Consistent store.rest) :
    Consistent later.rest := by
  obtain ⟨review, head, tag, decision, hnamed, -, -, hresolved⟩ := h.rest
  obtain ⟨hmem, htenant, -⟩ := mem_of_named hnamed
  exact hresolved.consistent hconsistent hmem htenant (findReplay_eq_none_iff.mp h.unplayed)

end ProofOps.Adapters.Local.ReviewStore
