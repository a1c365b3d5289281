import ProofOps.Adapters.Local.RulepackHistory

/-!
# One activation

An attempt that replays nothing writes its candidate, the pack it supersedes, the pointer and
its response.  An attempt that finds its own response writes nothing.
-/

namespace ProofOps.Adapters.Local.Rulepacks

open Foundation Foundation.Checked Foundation.Table Application.Rulepacks

variable {Files : Type} {store after : Store Files} {attempt : Attempt}
  {compute : Registry → Files → Except RulepackError (Registry × ActivationRecord)}
  {response : StoredActivation}

def Attempt.row (attempt : Attempt) (response : StoredActivation) : IdempotencyRow where
  key := attempt.idempotency
  requestHash := attempt.requestHash
  response := response
  expiresAt := attempt.now + idempotencyTtl

def Computes (attempt : Attempt)
    (compute : Registry → Files → Except RulepackError (Registry × ActivationRecord)) : Prop :=
  ∀ registry files updated record, Consistent registry →
    compute registry files = .ok (updated, record) →
      ∃ pack change, Activates registry updated attempt.tenantId attempt.rulePackId pack change

structure Activated (store after : Store Files) (attempt : Attempt) (mode : String)
    (response : StoredActivation) : Prop where
  consecutive : Consecutive after
  kept : ∀ old ∈ store.revisions, old ∈ after.revisions
  runSnapshots : after.runSnapshots = store.runSnapshots
  pointers : after.pointers = store.pointers.put ⟨⟨attempt.tenantId, mode⟩, attempt.rulePackId⟩
  candidate : ∃ latest, after.head attempt.pack = some latest ∧ latest.record.mode = mode ∧
    latest.record.status = "active"
  before : ∀ row, store.head attempt.pack = some row →
    row.record.mode = mode ∧ row.record.status ≠ "retired"
  superseded : ∀ rulePackId, ⟨⟨attempt.tenantId, mode⟩, rulePackId⟩ ∈ store.pointers →
    rulePackId ≠ attempt.rulePackId →
      ∃ latest, after.head ⟨attempt.tenantId, rulePackId⟩ = some latest ∧
        latest.record.status = "retired"
  others : ∀ key row, store.head key = some row → key ≠ attempt.pack →
    (key.tenantId = attempt.tenantId →
      ⟨⟨attempt.tenantId, mode⟩, key.rulePackId⟩ ∉ store.pointers) → after.head key = some row
  stored : store.idempotency.insert? (attempt.row response) = some after.idempotency

theorem getPack_updated {registry updated : Registry} {tenantId rulePackId : String}
    {pack activated : RulePackRecord} {change : RulePackRecord → RulePackRecord}
    (hconsistent : Consistent registry) (htenants : ∀ p ∈ registry.packs, p.tenantId = tenantId)
    (hactivates : Activates registry updated tenantId rulePackId pack change)
    (h : updated.getPack tenantId rulePackId = .ok activated) : activated = change pack := by
  obtain ⟨hmem, hid, -⟩ := getPack_ok h
  rw [hactivates.packs] at hmem
  obtain ⟨other, hother, rfl⟩ := List.mem_map.mp hmem
  have hotherId : other.rulePackId = rulePackId :=
    (hactivates.identity hconsistent hother (htenants other hother)).1.symm.trans hid
  rw [hconsistent.unique other hother pack hactivates.mem (hotherId.trans hactivates.id.symm)
    ((htenants other hother).trans hactivates.tenant.symm)]

theorem activateFresh_commits (h : activateFresh store attempt compute = .ok (response, after)) :
    ∃ head updated record,
      (∃ own, store.head attempt.pack = some own ∧
        compute (loaded store attempt.tenantId) own.files = .ok (updated, record)) ∧
      (store.heads.find attempt.pack = some head ∧ head.revision = attempt.expectedRevision) ∧
      commitActivation store attempt (loadRows store attempt.tenantId) updated record
        head.revision = .ok (response, after) := by
  unfold activateFresh at h
  cases hhead : store.heads.find attempt.pack with
  | none =>
    rw [hhead] at h
    cases h
  | some head =>
    rw [hhead] at h
    obtain ⟨found, hfound, h⟩ := bind_ok h
    cases hfound
    obtain ⟨⟨⟩, hrevision, h⟩ := bind_ok h
    obtain ⟨own, hown, h⟩ := bind_ok h
    obtain ⟨⟨updated, record⟩, hcomputed, h⟩ := bind_ok h
    rw [refuse_ok_iff, not_not] at hrevision
    exact ⟨head, updated, record, ⟨own, (rowOf_ok hown).2, hcomputed⟩, ⟨rfl, hrevision⟩, h⟩

/-- A first attempt that goes through wrote `Activated`. -/
theorem activateFresh_ok (hsound : Sound store) (hcompute : Computes attempt compute)
    (h : activateFresh store attempt compute = .ok (response, after)) :
    ∃ mode, Activated store after attempt mode response := by
  obtain ⟨head, updated, record, ⟨own, -, hcomputed⟩, -, h⟩ := activateFresh_commits h
  obtain ⟨⟨written, revision⟩, hwrite, h⟩ := bind_ok h
  obtain ⟨activated, hactivated, h⟩ := bind_ok h
  obtain ⟨events, -, h⟩ := bind_ok h
  obtain ⟨idempotency, hidempotency, h⟩ := bind_ok h
  cases pure_ok h
  have hconsistent := consistent_loaded hsound attempt.tenantId
  obtain ⟨pack, change, hactivates⟩ := hcompute _ _ _ _ hconsistent hcomputed
  have htenants : ∀ p ∈ (loaded store attempt.tenantId).packs, p.tenantId = attempt.tenantId :=
    fun p hp => ((mem_loaded hsound.consecutive).mp hp).1
  have hidentity : ∀ p ∈ (loaded store attempt.tenantId).packs,
      (change p).rulePackId = p.rulePackId ∧ (change p).tenantId = attempt.tenantId :=
    fun p hp => hactivates.identity hconsistent hp (htenants p hp)
  obtain rfl := getPack_updated hconsistent htenants hactivates hactivated
  have hwritten : Written store written attempt.tenantId updated.packs := by
    refine writeChanged_ok hsound.consecutive (fun p hp => ?_) ?_ (fun _ _ => rfl) hwrite
    · rw [hactivates.packs] at hp
      obtain ⟨q, hq, rfl⟩ := List.mem_map.mp hp
      exact (hidentity q hq).2
    · have hids : updated.packs.map RulePackRecord.rulePackId =
          (loaded store attempt.tenantId).packs.map RulePackRecord.rulePackId := by
        rw [hactivates.packs, List.map_map]
        exact List.map_congr_left fun p hp => (hidentity p hp).1
      rw [hids]
      exact nodup_loaded hsound.consecutive attempt.tenantId
  -- The head of a pack of the tenant becomes what the registry function made of its record.
  have hheads : ∀ key row, store.head key = some row → key.tenantId = attempt.tenantId →
      row.record ∈ (loaded store attempt.tenantId).packs ∧ row.record.rulePackId = key.rulePackId ∧
      ∃ latest, written.head key = some latest ∧ latest.record = change row.record ∧
        (row.record = change row.record → latest = row) := by
    rintro ⟨tenantId, rulePackId⟩ row hrow rfl
    obtain ⟨hmem, hpack, -⟩ := head_some hrow
    obtain ⟨hrowTenant, hrowId⟩ := hsound.consecutive.records row hmem
    rw [hpack] at hrowTenant hrowId
    have hin : row.record ∈ (loaded store attempt.tenantId).packs :=
      (mem_loaded hsound.consecutive).mpr ⟨hrowTenant, row, by rw [hrowId]; exact hrow, rfl⟩
    have hid : (change row.record).rulePackId = rulePackId :=
      (hidentity row.record hin).1.trans hrowId
    obtain ⟨old, latest, hold, hlatest, hrecord, hsame⟩ :=
      hwritten.heads (change row.record) (by rw [hactivates.packs]; exact List.mem_map_of_mem hin)
    rw [hid] at hold hlatest
    obtain rfl : old = row := Option.some.inj (hold.symm.trans hrow)
    exact ⟨hin, hrowId, latest, hlatest, hrecord, hsame⟩
  -- The pack of the registry is the record of the head of the candidate.
  have hcandidate : ∃ row, store.head attempt.pack = some row ∧ row.record = pack := by
    obtain ⟨-, hrow⟩ := (mem_loaded hsound.consecutive).mp hactivates.mem
    rw [hactivates.id] at hrow
    exact hrow
  obtain ⟨candidate, hcandidateHead, rfl⟩ := hcandidate
  have hdefault : ∀ rulePackId, ⟨⟨attempt.tenantId, candidate.record.mode⟩, rulePackId⟩ ∈
      store.pointers ↔ (loaded store attempt.tenantId).activePackId attempt.tenantId
        candidate.record.mode = some rulePackId := fun _ => activePackId_loaded.symm
  refine ⟨candidate.record.mode,
    { consecutive := ⟨hwritten.consecutive.spans, hwritten.consecutive.headed,
        hwritten.consecutive.records⟩
      kept := hwritten.kept
      runSnapshots := hwritten.rest.runSnapshots
      pointers := ?_
      candidate := ?_
      before := fun row hrow => ?_
      superseded := fun rulePackId hpointer hne => ?_
      others := fun key row hrow hne hnot => ?_
      stored := ?_ }⟩
  · show written.pointers.put _ = _
    rw [hwritten.rest.pointers, hactivates.candidate.2.2.1]
  · obtain ⟨-, -, latest, hlatest, hrecord, -⟩ := hheads attempt.pack candidate hcandidateHead rfl
    refine ⟨latest, hlatest, ?_⟩
    rw [hrecord]
    exact hactivates.candidate.2.2
  · obtain rfl : candidate = row := Option.some.inj (hcandidateHead.symm.trans hrow)
    refine ⟨rfl, ?_⟩
    rcases hactivates.status with hstatus | hstatus
    · rw [hstatus]
      decide
    · rw [hstatus]
      decide
  · obtain ⟨row, hrow, hmode, hactive⟩ := hsound.pointers _ hpointer
    obtain ⟨hin, hrowId, latest, hlatest, hrecord, -⟩ := hheads _ row hrow rfl
    refine ⟨latest, hlatest, ?_⟩
    have hsuperseded : Superseded (loaded store attempt.tenantId) candidate.record.mode row.record :=
      ⟨hmode, hactive, by
        rw [htenants row.record hin, hrowId]
        exact (hdefault rulePackId).mp hpointer⟩
    rw [hrecord, hactivates.retired row.record hin (by rw [hrowId]; exact hne)
      (htenants row.record hin) hsuperseded]
  · by_cases htenant : key.tenantId = attempt.tenantId
    · obtain ⟨hin, hrowId, latest, hlatest, -, hsame⟩ := hheads key row hrow htenant
      have hother : row.record.rulePackId ≠ attempt.rulePackId := by
        intro hid
        apply hne
        show _ = (⟨attempt.tenantId, attempt.rulePackId⟩ : PackKey)
        rw [← htenant, ← hid, hrowId]
      have hnotSuperseded :
          ¬Superseded (loaded store attempt.tenantId) candidate.record.mode row.record := by
        rintro ⟨-, -, hactive⟩
        rw [htenants row.record hin, hrowId] at hactive
        exact hnot htenant ((hdefault key.rulePackId).mpr hactive)
      rw [← hsame (hactivates.same row.record hin hother hnotSuperseded).symm]
      exact hlatest
    · refine (hwritten.others key fun p _ heq => htenant ?_).trans hrow
      rw [heq]
  · rw [← hwritten.rest.idempotency]
    exact insertOr_ok hidempotency

theorem sound_forget (hsound : Sound store) (idempotency : Table IdempotencyRow IdempotencyRow.key) :
    Sound { store with idempotency } where
  consecutive := ⟨hsound.consecutive.spans, hsound.consecutive.headed, hsound.consecutive.records⟩
  pointers := hsound.pointers

def Replays (store : Store Files) (attempt : Attempt) (response : StoredActivation) : Prop :=
  ∃ row, store.idempotency.find attempt.idempotency = some row ∧ attempt.now < row.expiresAt ∧
    row.requestHash = attempt.requestHash ∧ row.response = response

theorem transact_replay (h : Replays store attempt response) :
    transact store attempt compute = .ok (response, store) := by
  obtain ⟨row, hrow, hlive, hhash, rfl⟩ := h
  simp only [transact, hrow]
  rw [if_pos hlive]
  exact bind_ok_iff.mpr ⟨(), refuse_ok_iff.mpr fun hne => hne hhash, rfl⟩

/-- No stored answer of the attempt is still alive. -/
def Unanswered (store : Store Files) (attempt : Attempt) : Prop :=
  ∀ row ∈ store.idempotency.find attempt.idempotency, row.expiresAt ≤ attempt.now

theorem transact_ok (h : transact store attempt compute = .ok (response, after)) :
    (Replays store attempt response ∧ after = store) ∨
    (Unanswered store attempt ∧ ∃ idempotency : Table IdempotencyRow IdempotencyRow.key,
      (∀ key, key ≠ attempt.idempotency → idempotency.find key = store.idempotency.find key) ∧
      activateFresh { store with idempotency } attempt compute = .ok (response, after)) := by
  unfold transact at h
  cases hfind : store.idempotency.find attempt.idempotency with
  | none =>
    rw [hfind] at h
    refine Or.inr ⟨?_, store.idempotency, fun _ _ => rfl, h⟩
    rintro row hrow
    rw [hfind] at hrow
    cases hrow
  | some replay =>
    simp only [hfind] at h
    by_cases hlive : attempt.now < replay.expiresAt
    · rw [if_pos hlive] at h
      obtain ⟨⟨⟩, hhash, h⟩ := bind_ok h
      cases pure_ok h
      rw [refuse_ok_iff, not_not] at hhash
      exact Or.inl ⟨⟨replay, hfind, hlive, hhash, rfl⟩, rfl⟩
    · rw [if_neg hlive] at h
      refine Or.inr ⟨?_, _, fun key hkey => ?_, h⟩
      · rintro row hrow
        rw [hfind] at hrow
        cases hrow
        omega
      · rw [find_delete]
        cases hother : store.idempotency.find key with
        | none => rfl
        | some row =>
          have hrow : row.key = key := (find_eq_some_iff.mp hother).2
          rw [Option.filter_some, if_pos]
          rw [Bool.not_eq_true', decide_eq_false_iff_not, hrow]
          exact hkey

end ProofOps.Adapters.Local.Rulepacks
