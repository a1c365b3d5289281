import ProofOps.Adapters.Local.RescoreStore

/-!
# Interleavings of rescores

A commit writes all of its decisions with the audit event, or nothing, and only while the run, its
claims and the pack are what its capture saw.  Whatever other writers do afterwards, the committed
request is answered from its replay (`rescore_atomic`).
-/

namespace ProofOps.Adapters.Local.RescoreStore

open Foundation Foundation.Checked Foundation.Sorting Foundation.Machine Domain.Audit
open ReviewStore (ClaimHead RunsKept)

variable {rules : RescoreRules} {hooks : Hooks Rescores} {deleted : String → String → Bool}

structure Seen (hooks : Hooks Rescores) (store : Store) (request : Request) (captured : Captured) :
    Prop where
  run : findRun hooks store request.runKey = .ok captured.run
  claims : claimsOf store request.runKey = .ok captured.claims
  pack : ∃ mode, target store request.tenantId mode request.rulePackId = .ok captured.targetPack

theorem capture_fresh {store : Store} {request : Request} {captured : Captured}
    (h : capture rules hooks store request = .ok (.fresh captured)) :
    Seen hooks store request captured ∧ captured.replayKey = request.replayKey rules ∧
      captured.requestHash = request.hash rules := by
  obtain ⟨run, hrun, h⟩ := bind_ok h
  obtain ⟨found, -, h⟩ := bind_ok h
  cases found with
  | some response => cases pure_ok h
  | none =>
    obtain ⟨made, hmade, h⟩ := bind_ok h
    cases pure_ok h
    obtain ⟨_, -, hmade⟩ := bind_ok hmade
    obtain ⟨_, -, hmade⟩ := bind_ok hmade
    obtain ⟨snapshot, -, hmade⟩ := bind_ok hmade
    obtain ⟨claims, hclaims, hmade⟩ := bind_ok hmade
    obtain ⟨pack, hpack, hmade⟩ := bind_ok hmade
    cases pure_ok hmade
    exact ⟨⟨hrun, hclaims, snapshot.mode, hpack⟩, rfl, rfl⟩

variable {key : RunKey} {head : ClaimHead}

theorem mem_headsOf {store : Store} :
    head ∈ headsOf store key ↔
      head ∈ store.rest.claimHeads ∧ (head.tenantId, head.runId) = key := by
  unfold headsOf
  rw [mem_sortedBy, List.mem_filter, decide_eq_true_eq]
  rfl

theorem claimRecord_head {store : Store} {claim : ClaimRecord}
    (h : claimRecord store head = .ok claim) : claim.head = head := by
  obtain ⟨tag, -, h⟩ := bind_ok h
  split at h
  · cases pure_ok h
    rfl
  · obtain ⟨decision, -, h⟩ := bind_ok h
    cases pure_ok h
    rfl

variable {claims : List ClaimRecord}

theorem map_head {store : Store} {heads : List ClaimHead}
    (h : List.Forall₂ (fun head claim => claimRecord store head = .ok claim) heads claims) :
    claims.map ClaimRecord.head = heads := by
  induction h with
  | nil => rfl
  | cons hclaim _ ih => rw [List.map_cons, ih, claimRecord_head hclaim]

theorem claimsOf_heads {store : Store}
    (h : claimsOf store key = .ok claims) : claims.map ClaimRecord.head = headsOf store key := by
  obtain ⟨made, hmade, h⟩ := bind_ok h
  obtain ⟨_, -, h⟩ := bind_ok h
  cases pure_ok h
  exact map_head (mapM_ok_iff.mp hmade)

theorem headsOf_nodup (store : Store) (key : RunKey) :
    ((headsOf store key).map ClaimHead.claimId).Nodup := by
  refine ((sortedBy_perm _ _).map _).nodup_iff.mpr ?_
  have hkeys : ((store.rest.claimHeads.rows.filter fun head =>
      (head.tenantId, head.runId) = key).map ClaimHead.key).Nodup :=
    store.rest.claimHeads.nodup.sublist (List.filter_sublist.map _)
  refine List.Nodup.map_on ?_ (List.Nodup.of_map _ hkeys)
  intro first hfirst second hsecond hsame
  refine List.inj_on_of_nodup_map hkeys hfirst hsecond ?_
  have hfirstKey := of_decide_eq_true (List.mem_filter.mp hfirst).2
  have hsecondKey := of_decide_eq_true (List.mem_filter.mp hsecond).2
  have hrun : (first.tenantId, first.runId) = (second.tenantId, second.runId) :=
    hfirstKey.trans hsecondKey.symm
  rw [Prod.mk.injEq] at hrun
  unfold ClaimHead.key
  rw [hrun.1, hrun.2, hsame]

structure Decided (request : Request) (captured : Captured) (decision : Prepared)
    (after : Rescores) : Prop where
  claim : ∃ claim ∈ captured.claims, claim.head.claimId = decision.claimId ∧
    decision.decisionRevision = claim.head.decisionRevision + 1 ∧
    after.claimHeads.find claim.head.key =
      some { claim.head with decisionRevision := decision.decisionRevision }
  row : decisionRow request decision ∈ after.decisions

/-- The records that no decision touches. -/
def SameElse (before after : Rescores) : Prop :=
  after.tags = before.tags ∧ after.snapshots = before.snapshots ∧ after.packs = before.packs ∧
    after.artifacts = before.artifacts ∧ after.replays = before.replays ∧ after.audit = before.audit

structure DecisionsWritten (request : Request) (captured : Captured) (prepared : List Prepared)
    (before after : Rescores) : Prop where
  decided : ∀ decision ∈ prepared, Decided request captured decision after
  kept : ∀ row ∈ before.decisions, row ∈ after.decisions
  only : ∀ row ∈ after.decisions, row ∈ before.decisions ∨
    ∃ decision ∈ prepared, row = decisionRow request decision
  heads : ∀ key, (∀ decision ∈ prepared,
    key ≠ (request.tenantId, request.runId, decision.claimId)) →
      after.claimHeads.find key = before.claimHeads.find key

variable {before : Rescores}

section Decisions

variable {request : Request} {captured : Captured}

theorem DecisionsWritten.congr {prepared : List Prepared} {after other : Rescores}
    (h : DecisionsWritten request captured prepared before after)
    (hdecisions : other.decisions = after.decisions) (hheads : other.claimHeads = after.claimHeads) :
    DecisionsWritten request captured prepared before other where
  decided := by
    intro decision hdecision
    obtain ⟨hclaim, hrow⟩ := h.decided decision hdecision
    exact ⟨hheads ▸ hclaim, hdecisions ▸ hrow⟩
  kept := hdecisions ▸ h.kept
  only := hdecisions ▸ h.only
  heads := hheads ▸ h.heads

theorem writeDecision_ok {after : Rescores} {decision : Prepared}
    (hcaptured : ∀ claim ∈ captured.claims,
      (claim.head.tenantId, claim.head.runId) = request.runKey)
    (h : writeDecision captured request before decision = .ok after) :
    DecisionsWritten request captured [decision] before after ∧ SameElse before after := by
  obtain ⟨claim, hclaim, h⟩ := bind_ok h
  rw [orRaise_ok_iff] at hclaim
  have hmem := List.mem_of_find?_eq_some hclaim
  have hid : claim.head.claimId = decision.claimId := by
    have hfound := List.find?_some hclaim
    exact of_decide_eq_true hfound
  obtain ⟨_, hrevision, h⟩ := bind_ok h
  rw [refuse_ok_iff, not_not] at hrevision
  obtain ⟨decisions, hdecisions, h⟩ := bind_ok h
  cases pure_ok h
  have hinsert := Table.insertOr_ok hdecisions
  have hkey : claim.head.key = (request.tenantId, request.runId, decision.claimId) := by
    have hrun := hcaptured claim hmem
    unfold Request.runKey at hrun
    rw [Prod.mk.injEq] at hrun
    unfold ClaimHead.key
    rw [hrun.1, hrun.2, hid]
  refine ⟨⟨?_, ?_, ?_, ?_⟩, rfl, rfl, rfl, rfl, rfl, rfl⟩
  · intro other hother
    cases List.mem_singleton.mp hother
    refine ⟨⟨claim, hmem, hid, hrevision, ?_⟩, (Table.mem_insert? hinsert).mpr (.inr rfl)⟩
    rw [Table.find_put]
    exact if_pos rfl
  · exact fun row hrow => (Table.mem_insert? hinsert).mpr (.inl hrow)
  · intro row hrow
    rcases (Table.mem_insert? hinsert).mp hrow with hold | rfl
    · exact .inl hold
    · exact .inr ⟨decision, List.mem_singleton_self _, rfl⟩
  · intro key hkeys
    rw [Table.find_put]
    refine if_neg ?_
    rintro rfl
    exact hkeys decision (List.mem_singleton_self _) hkey

theorem writeDecisions_ok {after : Rescores} {prepared : List Prepared}
    (hcaptured : ∀ claim ∈ captured.claims,
      (claim.head.tenantId, claim.head.runId) = request.runKey)
    (hnodup : (prepared.map Prepared.claimId).Nodup)
    (h : writeDecisions captured request before prepared = .ok after) :
    DecisionsWritten request captured prepared before after ∧ SameElse before after := by
  induction prepared generalizing before with
  | nil =>
    cases h
    exact ⟨⟨fun _ hmem => absurd hmem List.not_mem_nil, fun _ => id, fun _ => .inl,
      fun _ _ => rfl⟩, rfl, rfl, rfl, rfl, rfl, rfl⟩
  | cons decision prepared ih =>
    obtain ⟨middle, hmiddle, h⟩ := bind_ok h
    rw [List.map_cons, List.nodup_cons] at hnodup
    obtain ⟨hfirst, h1, h2, h3, h4, h5, h6⟩ := writeDecision_ok hcaptured hmiddle
    obtain ⟨hrest, h1', h2', h3', h4', h5', h6'⟩ := ih hnodup.2 h
    refine ⟨⟨?_, ?_, ?_, ?_⟩, ?_⟩
    · intro other hother
      rcases List.mem_cons.mp hother with rfl | hlater
      · obtain ⟨⟨claim, hclaim, hid, hrevision, hhead⟩, hrow⟩ :=
          hfirst.decided other (List.mem_singleton_self _)
        refine ⟨⟨claim, hclaim, hid, hrevision, ?_⟩, hrest.kept _ hrow⟩
        rw [← hhead]
        refine hrest.heads _ ?_
        intro later hlater heq
        have hsame : claim.head.claimId = later.claimId := congrArg (fun key => key.2.2) heq
        rw [hid] at hsame
        exact hnodup.1 (hsame ▸ List.mem_map_of_mem hlater)
      · exact hrest.decided other hlater
    · exact fun row hrow => hrest.kept row (hfirst.kept row hrow)
    · intro row hrow
      rcases hrest.only row hrow with hold | ⟨later, hlater, rfl⟩
      · rcases hfirst.only row hold with hold | ⟨other, hother, rfl⟩
        · exact .inl hold
        · cases List.mem_singleton.mp hother
          exact .inr ⟨decision, List.mem_cons_self, rfl⟩
      · exact .inr ⟨later, List.mem_cons_of_mem _ hlater, rfl⟩
    · intro key hkeys
      rw [List.forall_mem_cons] at hkeys
      rw [hrest.heads key hkeys.2, hfirst.heads key]
      intro other hother
      cases List.mem_singleton.mp hother
      exact hkeys.1
    · exact ⟨h1'.trans h1, h2'.trans h2, h3'.trans h3, h4'.trans h4, h5'.trans h5, h6'.trans h6⟩

end Decisions

/-! ### Commits -/

def auditAppend (rules : RescoreRules) (before : Store) (request : Request) (captured : Captured)
    (artifact : Artifact) (bumped : RunRecord) (stamp : Stamp) : AuditStore.Append :=
  let change := rescoredChange rules request captured artifact bumped
  ⟨change, AuditStore.readHead before.rest.audit change.stream, stamp.eventId, stamp.now⟩

def replayRow (request : Request) (captured : Captured) (response : Response) : Replay where
  tenantId := request.tenantId
  runId := request.runId
  recordId := captured.replayKey
  requestHash := captured.requestHash
  response := response

structure Committed (rules : RescoreRules) (before : Store) (request : Request)
    (captured : Captured) (prepared : List Prepared) (stamp : Stamp) (response : Response)
    (after : Store) : Prop where
  everyClaim : ∀ claim ∈ captured.claims, ∃ decision ∈ prepared,
    decision.claimId = claim.head.claimId
  decisions : DecisionsWritten request captured prepared before.rest after.rest
  answered : response = makeResponse request stamp
  artifact : before.rest.artifacts.insert?
    (artifactOf rules request captured prepared captured.run stamp) = some after.rest.artifacts
  replay : before.rest.replays.insert? (replayRow request captured response) =
    some after.rest.replays
  run : ∃ bumped, after.runs = before.runs.put bumped ∧ bumped.key = captured.run.key ∧
    bumped.documentVersionId = captured.run.documentVersionId ∧
    bumped.revision = captured.run.revision + 1 ∧
    ∃ event head, AuditStore.Appended rules.audit before.rest.audit
      (auditAppend rules before request captured
        (artifactOf rules request captured prepared captured.run stamp) bumped stamp)
      event head after.rest.audit
  others : after.rest.tags = before.rest.tags ∧ after.rest.snapshots = before.rest.snapshots ∧
    after.rest.packs = before.rest.packs ∧
    after = { before with runs := after.runs, rest := after.rest }

section Commits

variable {store after : Store} {request : Request} {captured : Captured} {prepared : List Prepared}
  {stamp : Stamp}

theorem refreshCoverage_revision {run refreshed : RunRecord} {refresh : Bool}
    (h : refreshCoverage hooks store run refresh = .ok refreshed) :
    refreshed.revision = run.revision := by
  unfold refreshCoverage at h
  dsimp only at h
  split at h
  · split_ifs at h
    cases h
    rfl
  · cases h
    rfl

theorem bumpRun_revision {run bumped : RunRecord} {status : Option RunStatus} {refresh : Bool}
    (h : bumpRun hooks store run status refresh = .ok (bumped, after)) :
    bumped.revision = run.revision + 1 := by
  obtain ⟨refreshed, hrefreshed, h⟩ := bind_ok h
  cases pure_ok h
  show refreshed.revision + 1 = run.revision + 1
  rw [refreshCoverage_revision hrefreshed]

theorem appendAudit_ok {audit written : AuditStore.AuditDatabase} {change : ChangeSet}
    (h : appendAudit rules audit change stamp = .ok written) :
    ∃ event head, AuditStore.Appended rules.audit audit
      ⟨change, AuditStore.readHead audit change.stream, stamp.eventId, stamp.now⟩ event head
      written := by
  unfold appendAudit at h
  split at h
  · rename_i made _ htransaction
    cases h
    exact ⟨made.1, made.2, AuditStore.appendTransaction_ok htransaction⟩
  · cases h

theorem checkCaptured_ok {run : RunRecord}
    (h : checkCaptured store request captured prepared run = .ok ()) :
    run = captured.run ∧ claimsOf store request.runKey = .ok captured.claims ∧
      target store request.tenantId captured.targetPack.mode request.rulePackId =
        .ok captured.targetPack ∧
      (prepared.map Prepared.claimId).Perm (captured.claims.map fun claim => claim.head.claimId) := by
  obtain ⟨claims, hclaims, h⟩ := bind_ok h
  obtain ⟨_, hsame, h⟩ := bind_ok h
  rw [refuse_ok_iff, not_or, not_not, not_not] at hsame
  obtain ⟨pack, hpack, h⟩ := bind_ok h
  obtain ⟨_, htarget, h⟩ := bind_ok h
  rw [refuse_ok_iff, not_not] at htarget
  rw [refuse_ok_iff, not_not] at h
  exact ⟨hsame.1, hsame.2 ▸ hclaims, htarget ▸ hpack, h⟩

/-- A write that goes through commits the whole rescore. -/
theorem writeRescore_ok {run : RunRecord} {response : Response}
    (hclaims : claimsOf store request.runKey = .ok captured.claims) (hrun : run = captured.run)
    (hprepared : (prepared.map Prepared.claimId).Perm
      (captured.claims.map fun claim => claim.head.claimId))
    (h : writeRescore rules hooks store request captured prepared stamp run = .ok (response, after)) :
    Committed rules store request captured prepared stamp response after := by
  subst hrun
  obtain ⟨written, hwritten, h⟩ := bind_ok h
  obtain ⟨artifacts, hartifacts, h⟩ := bind_ok h
  obtain ⟨⟨bumped, moved⟩, hbump, h⟩ := bind_ok h
  obtain ⟨audit, haudit, h⟩ := bind_ok h
  obtain ⟨replays, hreplays, h⟩ := bind_ok h
  cases pure_ok h
  have hheads := claimsOf_heads hclaims
  have hcaptured : ∀ claim ∈ captured.claims,
      (claim.head.tenantId, claim.head.runId) = request.runKey := by
    intro claim hclaim
    have hin : claim.head ∈ headsOf store request.runKey := hheads ▸ List.mem_map_of_mem hclaim
    exact (mem_headsOf.mp hin).2
  have hids : (captured.claims.map fun claim => claim.head.claimId) =
      (headsOf store request.runKey).map ClaimHead.claimId := by
    rw [← hheads, List.map_map]
    rfl
  have hnodup : (prepared.map Prepared.claimId).Nodup := by
    rw [hprepared.nodup_iff, hids]
    exact headsOf_nodup store request.runKey
  obtain ⟨hdecisions, htags, hsnapshots, hpacks, hsameArtifacts, hsameReplays, hsameAudit⟩ :=
    writeDecisions_ok hcaptured hnodup hwritten
  have hbump := mapError_ok_iff.mp hbump
  have hrevision := bumpRun_revision hbump
  obtain ⟨rfl, hkey, hdocument, -⟩ := bumpRun_ok hbump
  have hartifact := Table.insertOr_ok hartifacts
  have hreplay := Table.insertOr_ok hreplays
  rw [hsameArtifacts] at hartifact
  rw [hsameReplays] at hreplay
  rw [hsameAudit] at haudit
  obtain ⟨event, head, happended⟩ := appendAudit_ok haudit
  refine ⟨?_, hdecisions.congr rfl rfl, rfl, hartifact, hreplay, ⟨bumped, rfl, hkey, hdocument, hrevision, event, head, happended⟩, htags,
    hsnapshots, hpacks, rfl⟩
  intro claim hclaim
  have hin : claim.head.claimId ∈ prepared.map Prepared.claimId := by
    rw [hprepared.mem_iff]
    exact List.mem_map_of_mem hclaim
  exact List.mem_map.mp hin

theorem commit_ok {answer : Answer}
    (h : commit rules hooks store request captured prepared stamp = .ok (answer, after)) :
    (∃ response, answer = .replayed response ∧ after = store) ∨
      ∃ response, answer = .accepted response ∧
        findRun hooks store request.runKey = .ok captured.run ∧
        claimsOf store request.runKey = .ok captured.claims ∧
        target store request.tenantId captured.targetPack.mode request.rulePackId =
          .ok captured.targetPack ∧
        findReplay store request.tenantId captured.replayKey = none ∧
        Committed rules store request captured prepared stamp response after := by
  obtain ⟨run, hrun, h⟩ := bind_ok h
  obtain ⟨found, hfound, h⟩ := bind_ok h
  cases found with
  | some response =>
    cases pure_ok h
    exact .inl ⟨response, rfl, rfl⟩
  | none =>
    obtain ⟨⟨⟩, hcheck, h⟩ := bind_ok h
    obtain ⟨⟨response, written⟩, hwrite, h⟩ := bind_ok h
    cases pure_ok h
    obtain ⟨rfl, hclaims, htarget, hprepared⟩ := checkCaptured_ok hcheck
    have hnone : findReplay store request.tenantId captured.replayKey = none := by
      unfold replayed at hfound
      split at hfound
      · assumption
      · split_ifs at hfound
        cases hfound
    exact .inr ⟨response, rfl, hrun, hclaims, htarget, hnone,
      writeRescore_ok hclaims rfl hprepared hwrite⟩

end Commits

/-! ### Later states -/

structure Later (before after : Store) : Prop where
  runs : RunsKept before.runs after.runs
  replays : ∀ tenantId recordId replay, findReplay before tenantId recordId = some replay →
    findReplay after tenantId recordId = some replay

theorem Later.refl (store : Store) : Later store store where
  runs := RunsKept.refl _
  replays := fun _ _ _ h => h

theorem Later.trans {first second third : Store} (h : Later first second)
    (h' : Later second third) : Later first third where
  runs := h.runs.trans h'.runs
  replays := fun tenantId recordId replay hfound =>
    h'.replays tenantId recordId replay (h.replays tenantId recordId replay hfound)

section Runs

variable {store committed : Store} {request : Request} {captured : Captured}
  {prepared : List Prepared} {stamp : Stamp} {response : Response}

theorem findRun_ok_iff {run : RunRecord} :
    findRun (rescoreHooks hooks deleted) store key = .ok run ↔
      getRun (rescoreHooks hooks deleted) store key = .ok run :=
  mapError_ok_iff

theorem findRun_later {later : Store} {run : RunRecord}
    (hrun : findRun (rescoreHooks hooks deleted) store key = .ok run)
    (hkept : RunsKept store.runs later.runs) :
    ∃ kept, findRun (rescoreHooks hooks deleted) later key = .ok kept := by
  obtain ⟨kept, hfound⟩ := hkept.getRun rfl (findRun_ok_iff.mp hrun)
  exact ⟨kept, findRun_ok_iff.mpr hfound⟩

theorem findReplay_insert {before after : Store} {row : Replay}
    (h : before.rest.replays.insert? row = some after.rest.replays) (tenantId recordId : String) :
    findReplay after tenantId recordId = (findReplay before tenantId recordId).or
      (if row.tenantId = tenantId ∧ row.recordId = recordId then some row else none) := by
  unfold findReplay
  rw [Table.insert?_rows h, List.find?_append]
  rw [List.find?_singleton]
  by_cases hrow : row.tenantId = tenantId ∧ row.recordId = recordId
  · rw [if_pos hrow, if_pos (decide_eq_true hrow)]
  · rw [if_neg hrow, if_neg]
    rw [decide_eq_true_eq]
    exact hrow

theorem Committed.later (hrun : findRun (rescoreHooks hooks deleted) store request.runKey =
      .ok captured.run)
    (h : Committed rules store request captured prepared stamp response committed) :
    Later store committed where
  runs := by
    obtain ⟨bumped, hput, hkey, hdocument, -⟩ := h.run
    have hfound := getRun_ok (findRun_ok_iff.mp hrun)
    intro key old hold
    rw [hput, Table.find_put, hkey, (Table.find_eq_some_iff.mp hfound).2]
    by_cases hsame : request.runKey = key
    · subst hsame
      cases hfound.symm.trans hold
      exact ⟨bumped, if_pos rfl, hdocument⟩
    · exact ⟨old, (if_neg hsame).trans hold, rfl⟩
  replays := by
    intro tenantId recordId replay hfound
    rw [findReplay_insert h.replay, hfound]
    rfl

theorem next_rejected {error : RescoreError}
    (h : commit rules hooks store request captured prepared stamp = .error error) :
    next rules hooks store (.commit request captured prepared stamp) = store := by
  unfold next
  dsimp only
  rw [h]

theorem next_later (call : Call) :
    Later store (next rules (rescoreHooks hooks deleted) store call) := by
  cases call with
  | capture request => exact Later.refl store
  | commit request captured prepared stamp =>
    unfold next
    dsimp only
    cases hcommit : commit rules (rescoreHooks hooks deleted) store request captured prepared stamp with
    | error error => exact Later.refl store
    | ok made =>
      rcases commit_ok hcommit with ⟨_, -, rfl⟩ | ⟨_, -, hrun, -, -, -, hcommitted⟩
      · exact Later.refl _
      · exact hcommitted.later hrun
  | other writer =>
    have hkeeps := writer.keeps store
    refine ⟨hkeeps.runs, ?_⟩
    intro tenantId recordId replay hfound
    show findReplay (writer.change store) tenantId recordId = some replay
    unfold findReplay at hfound ⊢
    rw [hkeeps.replays]
    exact hfound

theorem after_later (calls : List Call) :
    Later store (after (next rules (rescoreHooks hooks deleted)) store calls) :=
  @after_related _ _ _ (fun _ => True) Later (fun _ _ _ => trivial) Later.refl Later.trans
    (fun _ call _ => next_later call) store trivial calls

theorem Committed.replayed {later : Store}
    (hrun : findRun (rescoreHooks hooks deleted) store request.runKey = .ok captured.run)
    (hnone : findReplay store request.tenantId captured.replayKey = none)
    (h : Committed rules store request captured prepared stamp response committed)
    (hlater : Later committed later) :
    (∃ run, findRun (rescoreHooks hooks deleted) later request.runKey = .ok run) ∧
      RescoreStore.replayed later request.tenantId captured.replayKey captured.requestHash =
        .ok (some response) := by
  have hthere := findRun_later hrun (h.later hrun).runs
  obtain ⟨kept, hkept⟩ := hthere
  refine ⟨findRun_later hkept hlater.runs, ?_⟩
  have hfound : findReplay committed request.tenantId captured.replayKey =
      some (replayRow request captured response) := by
    rw [findReplay_insert h.replay, hnone, Option.none_or]
    exact if_pos ⟨rfl, rfl⟩
  unfold RescoreStore.replayed
  rw [hlater.replays _ _ _ hfound]
  exact if_neg fun hne => hne rfl

structure Atomic (rules : RescoreRules) (hooks : Hooks Rescores) (earlier store : Store)
    (request : Request) (captured : Captured) (prepared : List Prepared) (stamp : Stamp) :
    Prop where
  unchanged : ∀ response committed, commit rules hooks store request captured prepared stamp =
    .ok (.accepted response, committed) →
      Seen hooks earlier request captured ∧ Seen hooks store request captured
  written : ∀ response committed, commit rules hooks store request captured prepared stamp =
    .ok (.accepted response, committed) →
      Committed rules store request captured prepared stamp response committed
  rejected : ∀ error, commit rules hooks store request captured prepared stamp = .error error →
    next rules hooks store (.commit request captured prepared stamp) = store
  replayed : ∀ response committed, commit rules hooks store request captured prepared stamp =
    .ok (.replayed response, committed) → committed = store
  again : ∀ response committed, commit rules hooks store request captured prepared stamp =
    .ok (.accepted response, committed) → ∀ calls prepared' stamp',
      let last := after (next rules hooks) committed calls
      commit rules hooks last request captured prepared' stamp' = .ok (.replayed response, last) ∧
        capture rules hooks last request = .ok (.replayed response)

/-- **Rescores are all or nothing.**  In every interleaving, between a capture and a commit and
after it, of captures, commits and other writers. -/
theorem rescore_atomic {start : Store} {front : List Call} {request : Request} {captured : Captured}
    (hcapture : capture rules (rescoreHooks hooks deleted)
      (after (next rules (rescoreHooks hooks deleted)) start front) request =
        .ok (.fresh captured))
    (back : List Call) (prepared : List Prepared) (stamp : Stamp) :
    Atomic rules (rescoreHooks hooks deleted)
      (after (next rules (rescoreHooks hooks deleted)) start front)
      (after (next rules (rescoreHooks hooks deleted)) start (front ++ back)) request captured
      prepared stamp := by
  obtain ⟨hseen, hkey, hhash⟩ := capture_fresh hcapture
  constructor
  · intro response committed h
    rcases commit_ok h with ⟨_, ⟨⟩, -⟩ | ⟨_, -, hrun, hclaims, htarget, -, -⟩
    exact ⟨hseen, hrun, hclaims, _, htarget⟩
  · intro response committed h
    rcases commit_ok h with ⟨_, ⟨⟩, -⟩ | ⟨_, ⟨⟩, -, -, -, -, hcommitted⟩
    exact hcommitted
  · exact fun error h => next_rejected h
  · intro response committed h
    rcases commit_ok h with ⟨_, -, hsame⟩ | ⟨_, ⟨⟩, -⟩
    exact hsame
  · intro response committed h calls prepared' stamp'
    rcases commit_ok h with ⟨_, ⟨⟩, -⟩ | ⟨_, ⟨⟩, hrun, -, -, hnone, hcommitted⟩
    obtain ⟨⟨run, hthere⟩, hreplayed⟩ := hcommitted.replayed hrun hnone (after_later calls)
    constructor
    · refine bind_ok_iff.mpr ⟨run, hthere, ?_⟩
      exact bind_ok_iff.mpr ⟨some response, hreplayed, rfl⟩
    · rw [hkey, hhash] at hreplayed
      refine bind_ok_iff.mpr ⟨run, hthere, ?_⟩
      exact bind_ok_iff.mpr ⟨some response, hreplayed, rfl⟩

end Runs

namespace Sample

def plainHooks : Hooks Rescores where
  versionDeleted := fun _ _ _ => false
  eventId := fun message cause => message.jobId ++ "/" ++ cause
  sha256 := fun _ => "digest"
  actionKey := fun action key => action.name ++ "/" ++ key
  requestHash := fun _ _ reason => reason
  decidedHeads := fun _ _ => 0
  headsPublished := fun _ _ => true
  decode := fun _ =>
    { isObject := false, schema := "", stageStatus := "", pipelineProfile := none, coverage := none }
  checkParsePins := fun _ _ _ => .ok ()
  checkParse := fun _ _ _ => .ok ()
  checkExtract := fun _ _ _ _ => .ok ()
  checkTag := fun _ _ _ _ _ => .error (.valueError "no tag snapshot")
  audit := fun rest _ => .ok rest

def plainRules : RescoreRules where
  audit := AuditStore.renderedRules
  replayKey := fun userSub key => userSub ++ "/" ++ key
  requestHash := fun runId rulePackId reason _ => runId ++ "/" ++ rulePackId ++ "/" ++ reason
  hashClaims := fun _ => "claims"
  hashArtifact := fun artifact => artifact.response.resourceId
  hashSnapshot := fun row => row.value

def run : RunRecord where
  tenantId := "tenant"
  runId := "run"
  documentVersionId := "version"
  status := .completed
  revision := 4
  mutationEpoch := 4
  cancellationRequested := false
  currentStage := none
  coverage := none
  parseJob := none
  extractJob := none
  tagJob := none
  tagStageStatus := none
  claimSnapshotSha256 := none
  tagSnapshotSha256 := none

def store : Store :=
  { JobStore.initial
      { claimHeads := Table.empty.put ⟨"tenant", "run", "claim", 2, 1⟩
        tags := Table.empty.put ⟨("tenant", "run", "claim"), 2, "tags"⟩
        decisions := Table.empty.put ⟨("tenant", "run", "claim"), 1, "decided", "first"⟩
        snapshots := Table.empty.put ⟨"tenant", "run", "live", "snapshot"⟩
        packs := Table.empty.put
          ⟨"tenant", "live", "pack", ⟨"tenant", "live", "pack", "active", "rules"⟩, true⟩
        artifacts := Table.empty
        replays := Table.empty
        audit := AuditStore.AuditDatabase.initial } with
    runs := Table.empty.put run }

def request : Request where
  tenantId := "tenant"
  userSub := "reviewer"
  runId := "run"
  rulePackId := "pack"
  reason := "new thresholds"
  key := "key"
  expected := some 4

def prepared : List Prepared :=
  [{ claimId := "claim", decisionRevision := 2, status := "decided", value := "second" }]

def stamp : Stamp where
  rescoreId := "rescore"
  jobId := "job"
  eventId := "event"
  now := "2026-01-01T00:00:00Z"

def nothingDeleted : String → String → Bool :=
  fun _ _ => false

def captured : Captured where
  run := run
  runSnapshot := ⟨"tenant", "run", "live", "snapshot"⟩
  claims :=
    [⟨⟨"tenant", "run", "claim", 2, 1⟩, ⟨("tenant", "run", "claim"), 2, "tags"⟩,
      some ⟨("tenant", "run", "claim"), 1, "decided", "first"⟩⟩]
  targetPack := ⟨"tenant", "live", "pack", "active", "rules"⟩
  replayKey := "reviewer/key"
  requestHash := "run/pack/new thresholds"

end Sample

theorem rescore_atomic_sample : ∃ response committed,
    commit Sample.plainRules (rescoreHooks Sample.plainHooks Sample.nothingDeleted) Sample.store
        Sample.request Sample.captured Sample.prepared Sample.stamp =
        .ok (.accepted response, committed) ∧
      Committed Sample.plainRules Sample.store Sample.request Sample.captured Sample.prepared
        Sample.stamp response committed := by
  have hcapture : Returns (capture Sample.plainRules
      (rescoreHooks Sample.plainHooks Sample.nothingDeleted) Sample.store Sample.request)
      fun answer => answer = .fresh Sample.captured := by
    decide +kernel
  have hcommit : Returns (commit Sample.plainRules
      (rescoreHooks Sample.plainHooks Sample.nothingDeleted) Sample.store Sample.request
      Sample.captured Sample.prepared Sample.stamp)
      fun result => result.1 = .accepted (makeResponse Sample.request Sample.stamp) := by
    decide +kernel
  obtain ⟨_, hcapture, rfl⟩ := hcapture
  obtain ⟨⟨answer, committed⟩, hcommit, rfl⟩ := hcommit
  have hatomic := @rescore_atomic Sample.plainRules Sample.plainHooks Sample.nothingDeleted
    Sample.store [] Sample.request Sample.captured hcapture [] Sample.prepared Sample.stamp
  exact ⟨_, committed, hcommit, hatomic.written _ committed hcommit⟩

end ProofOps.Adapters.Local.RescoreStore
