import ProofOps.Adapters.Local.RulepackActivation
import ProofOps.Foundation.Machine

/-!
# Rule packs over a run

Revisions, run snapshots and retired packs outlive every sequence of calls, and a pointer gives
way only when its pack retires.  A stored response answers its request until it expires.
-/

namespace ProofOps.Adapters.Local.Rulepacks

open Foundation Foundation.Checked Foundation.Table Application.Rulepacks

section Lasting

variable {Files : Type} {rules : StoreRules Files} {store after : Store Files}

structure Lasting (store later : Store Files) : Prop where
  revisions : ∀ row ∈ store.revisions, row ∈ later.revisions
  runSnapshots : ∀ snapshot ∈ store.runSnapshots, snapshot ∈ later.runSnapshots
  retired : ∀ key row, store.head key = some row → row.record.status = "retired" →
    later.head key = some row
  pointers : ∀ pointer ∈ store.pointers, pointer ∈ later.pointers ∨
    ∃ row, later.head ⟨pointer.key.tenantId, pointer.rulePackId⟩ = some row ∧
      row.record.status = "retired"

theorem Lasting.refl (store : Store Files) : Lasting store store where
  revisions := fun _ h => h
  runSnapshots := fun _ h => h
  retired := fun _ _ h _ => h
  pointers := fun _ h => Or.inl h

theorem Lasting.trans {first second third : Store Files} (h : Lasting first second)
    (h' : Lasting second third) : Lasting first third where
  revisions := fun row hrow => h'.revisions row (h.revisions row hrow)
  runSnapshots := fun snapshot hmem => h'.runSnapshots snapshot (h.runSnapshots snapshot hmem)
  retired := fun key row hrow hstatus => h'.retired key row (h.retired key row hrow hstatus) hstatus
  pointers := fun pointer hpointer => by
    rcases h.pointers pointer hpointer with hkept | ⟨row, hrow, hstatus⟩
    · exact h'.pointers pointer hkept
    · exact Or.inr ⟨row, h'.retired _ row hrow hstatus, hstatus⟩

theorem addPack_step [DecidableEq Files] (hsound : Sound store) {pack : RulePackRecord}
    {files : Files} {revision : Nat} (h : addPack store pack files = .ok (revision, after)) :
    Sound after ∧ Lasting store after ∧ after.idempotency = store.idempotency := by
  unfold addPack at h
  cases hhead : store.head ⟨pack.tenantId, pack.rulePackId⟩ with
  | some row =>
    simp only [hhead] at h
    replace h := rest_ok h
    cases pure_ok h
    exact ⟨hsound, Lasting.refl store, rfl⟩
  | none =>
    simp only [hhead] at h
    obtain ⟨revisions, hrevisions, h⟩ := bind_ok h
    obtain ⟨heads, hheads, h⟩ := bind_ok h
    cases pure_ok h
    obtain ⟨-, hfresh⟩ := hsound.consecutive.fresh hhead
    have hinserted := insertOr_ok hrevisions
    have hheadInserted := insertOr_ok hheads
    have hkept : ∀ key row, store.head key = some row →
        Store.head { store with revisions, heads } key = some row := by
      intro key row hrow
      obtain ⟨head, hfind, hrevision⟩ := Option.bind_eq_some_iff.mp hrow
      exact Option.bind_eq_some_iff.mpr ⟨head, find_insert?_of_some hheadInserted hfind,
        find_insert?_of_some hinserted hrevision⟩
    refine ⟨⟨⟨fun head hhead => ?_, fun row hrow => ?_, fun row hrow => ?_⟩,
      fun pointer hpointer => ?_⟩, ⟨fun row hrow => (mem_insert? hinserted).mpr (Or.inl hrow),
        fun _ h => h, fun key row hrow _ => hkept key row hrow, fun _ h => Or.inl h⟩, rfl⟩
    · rcases (mem_insert? hheadInserted).mp hhead with hold | rfl
      · obtain ⟨hfirst, hspans⟩ := hsound.consecutive.spans head hold
        refine ⟨hfirst, hspans.insert_other hinserted fun heq => ?_⟩
        obtain ⟨row, hrow, hkey⟩ := (hspans head.revision).mpr ⟨hfirst, Nat.le_refl _⟩
        exact hfresh row hrow ((congrArg Prod.fst hkey).trans heq.symm)
      · exact ⟨Nat.le_refl 1, Revisions.spans_insert_first hfresh hinserted rfl⟩
    · rcases (mem_insert? hinserted).mp hrow with hold | rfl
      · obtain ⟨head, hhead, hpack⟩ := hsound.consecutive.headed row hold
        exact ⟨head, (mem_insert? hheadInserted).mpr (Or.inl hhead), hpack⟩
      · exact ⟨_, (mem_insert? hheadInserted).mpr (Or.inr rfl), rfl⟩
    · rcases (mem_insert? hinserted).mp hrow with hold | rfl
      · exact hsound.consecutive.records row hold
      · exact ⟨rfl, rfl⟩
    · obtain ⟨row, hrow, hrest⟩ := hsound.pointers pointer hpointer
      exact ⟨row, hkept _ row hrow, hrest⟩

theorem addRunSnapshot_step (hsound : Sound store) {snapshot : RunSnapshot}
    (h : addRunSnapshot store snapshot = .ok after) :
    Sound after ∧ Lasting store after ∧ after.idempotency = store.idempotency := by
  unfold addRunSnapshot at h
  cases hinsert : store.runSnapshots.insert? snapshot with
  | none =>
    simp only [hinsert] at h
    replace h := rest_ok h
    cases pure_ok h
    exact ⟨hsound, Lasting.refl store, rfl⟩
  | some runSnapshots =>
    simp only [hinsert] at h
    cases h
    exact ⟨⟨⟨hsound.consecutive.spans, hsound.consecutive.headed, hsound.consecutive.records⟩,
      hsound.pointers⟩, ⟨fun _ h => h, fun old hold => (mem_insert? hinsert).mpr (Or.inl hold),
        fun _ _ h _ => h, fun _ h => Or.inl h⟩, rfl⟩

theorem Activated.step (hsound : Sound store) {attempt : Attempt} {mode : String}
    {response : StoredActivation} (h : Activated store after attempt mode response) :
    Sound after ∧ Lasting store after := by
  have hpointers : ∀ pointer, pointer ∈ after.pointers ↔
      pointer = ⟨⟨attempt.tenantId, mode⟩, attempt.rulePackId⟩ ∨
        (pointer ∈ store.pointers ∧ pointer.key ≠ ⟨attempt.tenantId, mode⟩) := by
    intro pointer
    rw [h.pointers, mem_put]
  have hretired : ∀ key row, store.head key = some row → row.record.status = "retired" →
      after.head key = some row := by
    intro key row hrow hstatus
    refine h.others key row hrow ?_ fun htenant hpointer => ?_
    · rintro rfl
      exact (h.before row hrow).2 hstatus
    · -- The default of a mode is active.
      obtain ⟨active, hactive, -, hactiveStatus⟩ := hsound.pointers _ hpointer
      have hkey : (⟨attempt.tenantId, key.rulePackId⟩ : PackKey) = key := by rw [← htenant]
      rw [hkey, hrow] at hactive
      rw [← Option.some.inj hactive, hstatus] at hactiveStatus
      exact absurd hactiveStatus (by decide)
  refine ⟨⟨h.consecutive, fun pointer hpointer => ?_⟩,
    ⟨h.kept, fun snapshot hmem => by rw [h.runSnapshots]; exact hmem, hretired,
      fun pointer hpointer => ?_⟩⟩
  · rcases (hpointers pointer).mp hpointer with rfl | ⟨hold, hne⟩
    · exact h.candidate
    · obtain ⟨row, hrow, hmode, hactive⟩ := hsound.pointers pointer hold
      refine ⟨row, h.others _ row hrow ?_ fun htenant hdefault => ?_, hmode, hactive⟩
      · intro hpack
        rw [hpack] at hrow
        obtain ⟨hcandidate, -⟩ := h.before row hrow
        apply hne
        rw [← hcandidate, hmode]
        exact congrArg (PointerKey.mk · pointer.key.mode) (congrArg PackKey.tenantId hpack)
      · obtain ⟨found, hfound, hfoundMode, -⟩ := hsound.pointers _ hdefault
        dsimp only at hfound hfoundMode htenant
        rw [← htenant, hrow] at hfound
        apply hne
        rw [← hfoundMode, ← Option.some.inj hfound, hmode, ← htenant]
  · by_cases hkey : pointer.key = ⟨attempt.tenantId, mode⟩
    · obtain ⟨⟨tenantId, pointerMode⟩, rulePackId⟩ := pointer
      cases hkey
      by_cases hsame : rulePackId = attempt.rulePackId
      · exact Or.inl ((hpointers _).mpr (Or.inl (by rw [hsame])))
      · exact Or.inr (h.superseded rulePackId hpointer hsame)
    · exact Or.inl ((hpointers pointer).mpr (Or.inr ⟨hpointer, hkey⟩))

structure Transaction (Files : Type) where
  attempt : Attempt
  compute : Registry → Files → Except RulepackError (Registry × ActivationRecord)

def Call.transaction (rules : StoreRules Files) : Call Files → Option (Transaction Files)
  | .addPack _ _ => none
  | .addRunSnapshot _ => none
  | .activate call actor reason =>
    some ⟨activationAttempt rules call reason, fun registry files =>
      activateRulepack rules.pack registry call.rulePackId call.tenantId actor reason files
        call.gapIds⟩
  | .review call given =>
    some ⟨reviewAttempt rules call given, fun registry files =>
      recordAiDelegatedReview rules.pack registry call.rulePackId call.tenantId given files
        call.gapIds⟩

/-- The call is made before a time. -/
def Call.Before (time : Int) : Call Files → Prop
  | .addPack _ _ => True
  | .addRunSnapshot _ => True
  | .activate call _ _ => call.now < time
  | .review call _ => call.now < time

section Transactions

variable {transaction : Transaction Files} {response : StoredActivation} {call : Call Files}

theorem transaction_computes (h : call.transaction rules = some transaction) :
    Computes transaction.attempt transaction.compute := by
  cases call with
  | addPack pack files => cases h
  | addRunSnapshot snapshot => cases h
  | activate call actor reason =>
    cases h
    exact fun _ _ _ _ hconsistent hcomputed => activateRulepack_ok hconsistent hcomputed
  | review call given =>
    cases h
    exact fun _ _ _ _ hconsistent hcomputed => recordAiDelegatedReview_ok hconsistent hcomputed

theorem answer_transaction [DecidableEq Files] (h : call.transaction rules = some transaction) :
    answer rules store call =
      (transact store transaction.attempt transaction.compute).map fun result =>
        (some result.1, result.2) := by
  cases call with
  | addPack pack files => cases h
  | addRunSnapshot snapshot => cases h
  | activate call actor reason =>
    cases h
    rfl
  | review call given =>
    cases h
    rfl

theorem before_transaction {time : Int} (h : call.transaction rules = some transaction)
    (hbefore : call.Before time) : transaction.attempt.now < time := by
  cases call with
  | addPack pack files => cases h
  | addRunSnapshot snapshot => cases h
  | activate call actor reason | review call given =>
    cases h
    exact hbefore

theorem transact_step {attempt : Attempt}
    {compute : Registry → Files → Except RulepackError (Registry × ActivationRecord)}
    (hsound : Sound store) (hcompute : Computes attempt compute)
    (h : transact store attempt compute = .ok (response, after)) :
    Sound after ∧ Lasting store after ∧ Replays after attempt response ∧
      ∀ row, store.idempotency.find row.key = some row → attempt.now < row.expiresAt →
        after.idempotency.find row.key = some row := by
  rcases transact_ok h with ⟨hreplays, rfl⟩ | ⟨hunanswered, idempotency, hothers, hfresh⟩
  · exact ⟨hsound, Lasting.refl after, hreplays, fun _ hrow _ => hrow⟩
  · have hforgotten := sound_forget hsound idempotency
    obtain ⟨mode, hactivated⟩ := activateFresh_ok hforgotten hcompute hfresh
    obtain ⟨hafter, hlasting⟩ := hactivated.step hforgotten
    refine ⟨hafter, ⟨hlasting.revisions, hlasting.runSnapshots, hlasting.retired,
      hlasting.pointers⟩, ?_, fun row hrow hlive => ?_⟩
    · refine ⟨attempt.row response, ?_, ?_, rfl, rfl⟩
      · rw [find_insert? hactivated.stored]
        exact if_pos rfl
      · show attempt.now < attempt.now + idempotencyTtl
        exact Int.lt_add_of_pos_right _ (by decide)
    · refine find_insert?_of_some hactivated.stored ((hothers row.key fun hkey => ?_).trans hrow)
      -- An unexpired row of the attempt would have answered it.
      have hexpired := hunanswered row (by rw [← hkey]; exact hrow)
      omega

/-- So does every answered call. -/
theorem answer_step [DecidableEq Files] {result : Option StoredActivation} (hsound : Sound store)
    (h : answer rules store call = .ok (result, after)) :
    Sound after ∧ Lasting store after ∧
      ∀ row, store.idempotency.find row.key = some row → call.Before row.expiresAt →
        after.idempotency.find row.key = some row := by
  cases htransaction : call.transaction rules with
  | some transaction =>
    rw [answer_transaction htransaction] at h
    obtain ⟨⟨response, written⟩, htransact, hresult⟩ := map_ok_iff.mp h
    cases hresult
    obtain ⟨hafter, hlasting, -, hkept⟩ :=
      transact_step hsound (transaction_computes htransaction) htransact
    exact ⟨hafter, hlasting, fun row hrow hbefore =>
      hkept row hrow (before_transaction htransaction hbefore)⟩
  | none =>
    cases call with
    | addPack pack files =>
      obtain ⟨⟨revision, written⟩, hadd, hresult⟩ := map_ok_iff.mp h
      cases hresult
      obtain ⟨hafter, hlasting, hsame⟩ := addPack_step hsound hadd
      exact ⟨hafter, hlasting, fun row hrow _ => by rw [hsame]; exact hrow⟩
    | addRunSnapshot snapshot =>
      obtain ⟨written, hadd, hresult⟩ := map_ok_iff.mp h
      cases hresult
      obtain ⟨hafter, hlasting, hsame⟩ := addRunSnapshot_step hsound hadd
      exact ⟨hafter, hlasting, fun row hrow _ => by rw [hsame]; exact hrow⟩
    | activate call actor reason | review call given => cases htransaction

end Transactions

section Runs

variable [DecidableEq Files]

theorem next_step (hsound : Sound store) (call : Call Files) :
    Sound (next rules store call) ∧ Lasting store (next rules store call) ∧
      ∀ row, store.idempotency.find row.key = some row → call.Before row.expiresAt →
        (next rules store call).idempotency.find row.key = some row := by
  unfold next
  cases hanswer : answer rules store call with
  | error error => exact ⟨hsound, Lasting.refl store, fun _ hrow _ => hrow⟩
  | ok result => exact answer_step hsound hanswer

theorem after_sound (hsound : Sound store) (calls : List (Call Files)) :
    Sound (Machine.after (next rules) store calls) := by
  have hstep : ∀ store call, Sound store → Sound (next rules store call) :=
    fun _ call h => (next_step h call).1
  exact Machine.after_invariant hstep hsound calls

theorem after_lasting (hsound : Sound store) (calls : List (Call Files)) :
    Lasting store (Machine.after (next rules) store calls) := by
  have hstep : ∀ store call, Sound store → Sound (next rules store call) :=
    fun _ call h => (next_step h call).1
  exact Machine.after_related hstep Lasting.refl Lasting.trans
    (fun _ call h => (next_step h call).2.1) hsound calls

theorem after_response (hsound : Sound store) {row : IdempotencyRow}
    (hrow : store.idempotency.find row.key = some row) {calls : List (Call Files)}
    (hbefore : ∀ call ∈ calls, call.Before row.expiresAt) :
    (Machine.after (next rules) store calls).idempotency.find row.key = some row := by
  induction calls generalizing store with
  | nil => exact hrow
  | cons call calls ih =>
    rw [List.forall_mem_cons] at hbefore
    obtain ⟨hafter, -, hkept⟩ := @next_step _ rules store _ hsound call
    exact ih hafter (hkept row hrow hbefore.1) hbefore.2

def Refused (store : Store Files) (transaction : Transaction Files) : Prop :=
  (∀ head ∈ store.heads.find transaction.attempt.pack,
    head.revision ≠ transaction.attempt.expectedRevision) ∨
  ∀ own ∈ store.head transaction.attempt.pack, ∃ error,
    transaction.compute (loaded store transaction.attempt.tenantId) own.files = .error error

theorem next_of_refused {call : Call Files} {transaction : Transaction Files}
    (htransaction : call.transaction rules = some transaction)
    (hrefused : Refused store transaction) : next rules store call = store := by
  unfold next
  rw [answer_transaction htransaction]
  cases htransact : transact store transaction.attempt transaction.compute with
  | error error => rfl
  | ok result =>
    rcases transact_ok htransact with ⟨-, rfl⟩ | ⟨-, idempotency, -, hfresh⟩
    · rfl
    · obtain ⟨head, updated, record, ⟨own, hown, hcomputed⟩, ⟨hhead, hrevision⟩, -⟩ :=
        activateFresh_commits hfresh
      rcases hrefused with hstale | hchecked
      · exact absurd hrevision (hstale head hhead)
      · obtain ⟨error, herror⟩ := hchecked own hown
        exact absurd (herror.symm.trans hcomputed) (by simp)

structure StoreSafe (rules : StoreRules Files) (store : Store Files) (calls : List (Call Files))
    (later : Store Files) : Prop where
  sound : Sound later
  lasting : Lasting store later
  raised : ∀ call error, answer rules later call = .error error → next rules later call = later
  refused : ∀ call transaction, call.transaction rules = some transaction →
    Refused later transaction → next rules later call = later
  stored : ∀ call transaction response after, call.transaction rules = some transaction →
    answer rules store call = .ok (some response, after) →
      Replays after transaction.attempt response
  replayed : ∀ row, store.idempotency.find row.key = some row →
    (∀ call ∈ calls, call.Before row.expiresAt) →
      ∀ call transaction, call.transaction rules = some transaction →
        transaction.attempt.idempotency = row.key →
        transaction.attempt.requestHash = row.requestHash →
        transaction.attempt.now < row.expiresAt →
          answer rules later call = .ok (some row.response, later)

/-- **The rule-pack store.**  In every run: revisions are consecutive and kept, the pointer of a
mode names an active head, a superseded pack retires for good, run snapshots last, what raises
changes nothing, and a response answers its request until it expires. -/
theorem rulepack_store (rules : StoreRules Files) (front back : List (Call Files)) :
    StoreSafe rules (Machine.after (next rules) Store.initial front) back
      (Machine.after (next rules) Store.initial (front ++ back)) := by
  have hfront : Sound (Machine.after (next rules) Store.initial front) :=
    after_sound sound_initial front
  rw [Machine.after_append]
  refine
    { sound := after_sound hfront back
      lasting := after_lasting hfront back
      raised := fun call error herror => by simp only [next, herror]
      refused := fun call transaction htransaction hrefused => next_of_refused htransaction hrefused
      stored := fun call transaction response after htransaction hanswer => ?_
      replayed := fun row hrow hbefore call transaction htransaction hkey hhash hlive => ?_ }
  · rw [answer_transaction htransaction] at hanswer
    obtain ⟨⟨given, written⟩, htransact, hresult⟩ := map_ok_iff.mp hanswer
    cases hresult
    exact (transact_step hfront (transaction_computes htransaction) htransact).2.2.1
  · have hkept := @after_response _ rules _ _ hfront row hrow back hbefore
    rw [answer_transaction htransaction]
    have hreplay : Replays
        (Machine.after (next rules) (Machine.after (next rules) Store.initial front) back)
        transaction.attempt row.response :=
      ⟨row, by rw [hkey]; exact hkept, hlive, hhash.symm, rfl⟩
    rw [transact_replay hreplay]
    rfl

end Runs

end Lasting

namespace Sample

def rules : StoreRules Unit where
  pack := { validates := fun _ _ _ => true, isTzAwareIso := fun _ => true, toReason := fun _ => "" }
  keyHash := id
  activationHash := fun rulePackId reason => rulePackId ++ reason
  reviewHash := fun rulePackId review => rulePackId ++ review.note

def approved : RulePackRecord where
  rulePackId := "pack"
  tenantId := "tenant"
  version := "1"
  effectiveDate := "2026-01-01"
  mode := "cf1"
  status := "validated"
  ontologyVersion := "1"
  sourceDocumentSha256 := "source"
  files := []
  sha256 := "sha"
  unresolvedGapIds := []
  approvedBy := some "reviewer"
  approvedAt := some "2026-01-02"

def request (now : Int) : Call Unit :=
  .activate ⟨"tenant", "pack", 1, "key", [], now, "activation"⟩ "actor" "reason"

def activated : Store Unit :=
  Machine.after (next rules) Store.initial [.addPack approved (), request 0]

def answered (now : Int) : Except RulepackError (Option StoredActivation) :=
  (answer rules activated (request now)).map Prod.fst

end Sample

theorem replay_expires :
    Sample.answered 86399 =
      .ok (some ⟨project { Sample.approved with status := "active" }, 2⟩) ∧
    Sample.answered 86400 = .error (.stale 2) := by
  decide +kernel

end ProofOps.Adapters.Local.Rulepacks
