import Mathlib.Data.List.Sort
import ProofOps.Domain.Audit
import ProofOps.Foundation.Machine
import ProofOps.Foundation.Rendering
import ProofOps.Foundation.Table

/-!
# The audit store

`LocalSQLiteAuditStore.append` inserts the next event of a stream and moves the
stream's head in one transaction.  The writes are made one by one, and a refusal in
between is rolled back, so what is stored are complete streams: each passes
verification against its head, and only an accepted append changes one.
-/

namespace ProofOps.Adapters.Local.AuditStore

open Foundation Foundation.Checked Foundation.Rendering Domain.Audit

/-! ### Records -/

structure HeadRow where
  (tenantId runId : String)
  sequence : Nat
  (eventHash updatedAt : String)
  positive : 0 < sequence

def HeadRow.key (row : HeadRow) : StreamKey :=
  (row.tenantId, row.runId)

def eventKey (event : AuditEvent) : String × String × Nat :=
  (event.body.tenantId, event.body.runId, event.body.sequence)

/-- `LocalSQLiteAuditStore`. -/
structure AuditDatabase where
  heads : Table HeadRow HeadRow.key
  events : Table AuditEvent eventKey

def AuditDatabase.initial : AuditDatabase where
  heads := Table.empty
  events := Table.empty

structure Append where
  change : ChangeSet
  expectedHead : AuditHead
  (eventId timestamp : String)

def HeadRow.head (row : HeadRow) : AuditHead where
  tenantId := row.tenantId
  runId := row.runId
  sequence := row.sequence
  eventHash := some row.eventHash
  empty_iff := ⟨fun hzero => absurd hzero (Nat.ne_of_gt row.positive), fun hnone => by cases hnone⟩

/-- `read_audit_head`. -/
def readHead (db : AuditDatabase) (key : StreamKey) : AuditHead :=
  match db.heads.find key with
  | none => AuditHead.empty key
  | some row => row.head

def rowsOf (db : AuditDatabase) (key : StreamKey) : List AuditEvent :=
  db.events.rows.filter fun event => event.stream = key

def streamOf (db : AuditDatabase) (key : StreamKey) : List AuditEvent :=
  (rowsOf db key).insertionSort fun first second => first.body.sequence ≤ second.body.sequence

def insertEvent (db : AuditDatabase) (event : AuditEvent) : Except AuditError AuditDatabase :=
  if 2 ^ 63 ≤ event.body.sequence ∨ 2 ^ 63 ≤ event.body.revision then .error .overflow
  else if db.events.rows.any fun row =>
      row.stream = event.stream && row.body.eventId = event.body.eventId then
    .error (.conflict "audit append condition failed; no event was appended")
  else do
    let events ← db.events.insertOr
      (.conflict "audit append condition failed; no event was appended") event
    return { db with events := events }

/-- The row of a new head. -/
def headRow (event : AuditEvent) (h : 0 < event.body.sequence) : HeadRow where
  tenantId := event.body.tenantId
  runId := event.body.runId
  sequence := event.body.sequence
  eventHash := event.eventHash
  updatedAt := event.body.timestamp
  positive := h

def writeHead (db : AuditDatabase) (expectedHead : AuditHead) (row : HeadRow) :
    Except AuditError AuditDatabase :=
  if expectedHead.sequence = 0 then do
    let heads ← db.heads.insertOr
      (.conflict "audit append condition failed; no event was appended") row
    return { db with heads := heads }
  else if (db.heads.find row.key).any fun old =>
      old.sequence = expectedHead.sequence ∧ some old.eventHash = expectedHead.eventHash then
    .ok { db with heads := db.heads.put row }
  else
    .error (.conflict "audit HEAD is stale; no event was appended")

variable (rules : AuditRules)

def appendTransaction (db : AuditDatabase) (request : Append) :
    Except AuditError (AuditEvent × AuditHead) × AuditDatabase :=
  if readHead db request.change.stream ≠ request.expectedHead then
    (.error (.conflict "audit HEAD is stale; no event was appended"), db)
  else
    match newAuditEvent rules request.change request.expectedHead request.eventId
        request.timestamp with
    | .error error => (.error error, db)
    | .ok (event, head) =>
      match insertEvent db event with
      | .error error => (.error error, db)
      | .ok inserted =>
        -- From here on the event is in the table.
        if h : 0 < event.body.sequence then
          match writeHead inserted request.expectedHead (headRow event h) with
          | .error error => (.error error, inserted)
          | .ok written => (.ok (event, head), written)
        else
          (.error (.conflict "audit append condition failed; no event was appended"), inserted)

def append (db : AuditDatabase) (request : Append) :
    Except AuditError (AuditEvent × AuditHead) × AuditDatabase :=
  match appendTransaction rules db request with
  | (.ok made, after) => (.ok made, after)
  | (.error error, _) => (.error error, db)

def next (db : AuditDatabase) (request : Append) : AuditDatabase :=
  (append rules db request).2

def reached (requests : List Append) : AuditDatabase :=
  Machine.after (next rules) AuditDatabase.initial requests

def storedEvents (db : AuditDatabase) (key : StreamKey) : Except AuditError (List AuditEvent) := do
  verifyAuditChain rules (streamOf db key) (readHead db key)
  return streamOf db key

/-! ### What an accepted append does -/

variable {rules} {db after : AuditDatabase} {request : Append}

theorem readHead_stream (db : AuditDatabase) (key : StreamKey) : (readHead db key).stream = key := by
  unfold readHead
  cases hrow : db.heads.find key with
  | none => rfl
  | some row => exact (Table.find_eq_some_iff.mp hrow).2

theorem readHead_of_find {key : StreamKey} {row : HeadRow} (h : db.heads.find key = some row) :
    readHead db key = row.head := by
  unfold readHead
  rw [h]

variable {head : AuditHead} {event : AuditEvent}

theorem newAuditEvent_ok {change : ChangeSet} {newHead : AuditHead} {eventId timestamp : String}
    (h : newAuditEvent rules change head eventId timestamp = .ok (event, newHead)) :
    event = sealed rules (nextBody change head eventId timestamp) ∧
      ∃ hpositive, newHead = headAfter event hpositive := by
  unfold newAuditEvent at h
  split_ifs at h
  replace h := rest_ok h
  replace h := rest_ok h
  obtain ⟨rfl, rfl⟩ := h
  exact ⟨rfl, _, rfl⟩

theorem insertEvent_ok (h : insertEvent db event = .ok after) :
    ∃ events, db.events.insert? event = some events ∧ after = { db with events := events } := by
  unfold insertEvent at h
  split_ifs at h
  obtain ⟨events, hevents, h⟩ := bind_ok h
  cases pure_ok h
  exact ⟨events, Table.insertOr_ok hevents, rfl⟩

theorem writeHead_ok {row : HeadRow} (h : writeHead db head row = .ok after) :
    after.events = db.events ∧
      ∀ key, after.heads.find key = if row.key = key then some row else db.heads.find key := by
  unfold writeHead at h
  split_ifs at h
  · obtain ⟨heads, hheads, h⟩ := bind_ok h
    cases pure_ok h
    exact ⟨rfl, fun key => Table.find_insert? (Table.insertOr_ok hheads) key⟩
  · cases h
    exact ⟨rfl, fun key => Table.find_put db.heads row key⟩

structure Appended (rules : AuditRules) (db : AuditDatabase) (request : Append) (event : AuditEvent)
    (head : AuditHead) (after : AuditDatabase) : Prop where
  fresh : readHead db request.change.stream = request.expectedHead
  event_eq : event = sealed rules
    (nextBody request.change request.expectedHead request.eventId request.timestamp)
  rows : ∀ key, rowsOf after key = rowsOf db key ++
    if request.change.stream = key then [event] else []
  head_eq : readHead after request.change.stream = head
  sequence : head.sequence = event.body.sequence
  hash : head.eventHash = some event.eventHash
  others : ∀ key, request.change.stream ≠ key → readHead after key = readHead db key

theorem appendTransaction_ok (h : appendTransaction rules db request = (.ok (event, head), after)) :
    Appended rules db request event head after := by
  unfold appendTransaction at h
  split_ifs at h with hstale
  · simp at h
  cases hnew : newAuditEvent rules request.change request.expectedHead request.eventId
      request.timestamp with
  | error error => simp [hnew] at h
  | ok made =>
    obtain ⟨made, madeHead⟩ := made
    obtain ⟨hevent, hpositive, hhead⟩ := newAuditEvent_ok hnew
    simp only [hnew] at h
    cases hinsert : insertEvent db made with
    | error error => simp [hinsert] at h
    | ok inserted =>
      obtain ⟨events, hevents, rfl⟩ := insertEvent_ok hinsert
      simp only [hinsert] at h
      rw [dif_pos hpositive] at h
      cases hwrite : writeHead { db with events := events } request.expectedHead
          (headRow made hpositive) with
      | error error => simp [hwrite] at h
      | ok written =>
        simp only [hwrite, Prod.mk.injEq, Except.ok.injEq] at h
        obtain ⟨⟨rfl, rfl⟩, rfl⟩ := h
        obtain ⟨hsame, hwritten⟩ := writeHead_ok hwrite
        have hstream : made.stream = request.change.stream := by
          rw [hevent]
          rfl
        have hheads : ∀ key, written.heads.find key =
            if request.change.stream = key then some (headRow made hpositive)
            else db.heads.find key := by
          rw [← hstream]
          exact hwritten
        refine ⟨not_not.mp hstale, hevent, fun key => ?_, ?_, ?_, ?_, fun key hother => ?_⟩
        · unfold rowsOf
          rw [hsame, Table.insert?_rows hevents, List.filter_append]
          by_cases hkey : request.change.stream = key
          · rw [if_pos hkey, List.filter_cons_of_pos (by simpa [hstream] using hkey),
              List.filter_nil]
          · rw [if_neg hkey, List.filter_cons_of_neg (by simpa [hstream] using hkey),
              List.filter_nil]
        · rw [readHead_of_find ((hheads _).trans (if_pos rfl)), hhead]
          rfl
        · rw [hhead]
          rfl
        · rw [hhead]
          rfl
        · unfold readHead
          rw [hheads, if_neg hother]

theorem append_ok (h : append rules db request = (.ok (event, head), after)) :
    Appended rules db request event head after := by
  unfold append at h
  split at h
  · rename_i accepted written htransaction
    obtain ⟨rfl, rfl⟩ := h
    exact appendTransaction_ok htransaction
  · simp at h

theorem append_error {error : AuditError} (h : append rules db request = (.error error, after)) :
    after = db := by
  unfold append at h
  split at h
  · simp at h
  · simp only [Prod.mk.injEq] at h
    exact h.2.symm

theorem append_stale (h : readHead db request.change.stream ≠ request.expectedHead) :
    append rules db request =
      (.error (.conflict "audit HEAD is stale; no event was appended"), db) := by
  unfold append appendTransaction
  rw [if_pos h]

def Sound (rules : AuditRules) (db : AuditDatabase) : Prop :=
  ∀ key, verifyAuditChain rules (rowsOf db key) (readHead db key) = .ok ()

theorem Sound.initial : Sound rules AuditDatabase.initial := by
  intro key
  exact verifyAuditChain_ok_iff.mpr ⟨trivial, trivial, rfl, rfl⟩

/-- An append keeps the log sound. -/
theorem Sound.appended (h : Sound rules db)
    (happended : Appended rules db request event head after) : Sound rules after := by
  intro key
  rw [happended.rows key]
  by_cases hkey : request.change.stream = key
  · subst hkey
    have hold := h request.change.stream
    rw [happended.fresh, verifyAuditChain_ok_iff] at hold
    obtain ⟨hnumbered, hlinked, hsequence, hhash⟩ := hold
    have hstream : request.expectedHead.stream = request.change.stream := by
      rw [← happended.fresh]
      exact readHead_stream db _
    have hnumber : event.body.sequence = request.expectedHead.sequence + 1 := by
      rw [happended.event_eq]
      rfl
    have hbody : event.stream = request.change.stream ∧
        previousHash event = request.expectedHead.eventHash ∧
        event.eventHash = rules.hashEvent event.body := by
      rw [happended.event_eq]
      exact ⟨rfl, rfl, rfl⟩
    rw [if_pos rfl, verifyAuditChain_ok_iff, numbered_append_singleton,
      HashChain.linked_append_singleton, HashChain.tip_append_singleton, readHead_stream,
      happended.head_eq, happended.sequence, happended.hash]
    refine ⟨⟨hstream ▸ hnumbered, hbody.1, by omega, hbody.2.2⟩, ⟨hlinked, hbody.2.1.trans hhash⟩,
      ?_, rfl⟩
    rw [hnumber, hsequence, List.length_append]
    rfl
  · rw [if_neg hkey, List.append_nil, happended.others key hkey]
    exact h key

/-- A request keeps the log sound, whatever comes of it. -/
theorem next_sound (db : AuditDatabase) (request : Append) (h : Sound rules db) :
    Sound rules (next rules db request) := by
  unfold next
  cases happend : append rules db request with
  | mk answer after =>
    cases answer with
    | error error =>
      rw [append_error happend]
      exact h
    | ok made =>
      exact h.appended (append_ok happend)

theorem Sound.reached (requests : List Append) : Sound rules (reached rules requests) :=
  Machine.after_invariant next_sound Sound.initial requests

theorem pairwise_of_numbered {key : StreamKey} {sequence : Nat} {events : List AuditEvent}
    (h : Numbered rules key sequence events) :
    (∀ event ∈ events, sequence ≤ event.body.sequence) ∧
      events.Pairwise fun first second => first.body.sequence ≤ second.body.sequence := by
  induction events generalizing sequence with
  | nil => exact ⟨nofun, List.Pairwise.nil⟩
  | cons event events ih =>
    obtain ⟨-, hsequence, -, hrest⟩ := h
    obtain ⟨hlower, hpairwise⟩ := ih hrest
    refine ⟨fun other hother => ?_, List.pairwise_cons.mpr ⟨fun other hother => ?_, hpairwise⟩⟩
    · rcases List.mem_cons.mp hother with rfl | htail
      · exact hsequence.ge
      · exact (Nat.le_succ sequence).trans (hlower other htail)
    · have := hlower other hother
      omega

theorem Sound.streamOf_eq (h : Sound rules db) (key : StreamKey) :
    streamOf db key = rowsOf db key := by
  have hpairwise := (pairwise_of_numbered (verifyAuditChain_ok_iff.mp (h key)).1).2
  exact hpairwise.insertionSort_eq

/-- **The audit chain.**  With an injective event hash, after every list of appends each
stored stream passes verification against its stored head; an append that expects
another head, or is rejected, changes nothing; an accepted one adds one event to its
stream; and no other list of events is verified under a head that verifies one. -/
theorem audit_chain_integrity (rules : AuditRules) (hinj : Function.Injective rules.hashEvent)
    (requests : List Append) :
    (∀ key, verifyAuditChain rules (streamOf (reached rules requests) key)
      (readHead (reached rules requests) key) = .ok ()) ∧
    (∀ request, readHead (reached rules requests) request.change.stream ≠ request.expectedHead →
      ∃ error, append rules (reached rules requests) request = (.error error, reached rules requests)) ∧
    (∀ request error after, append rules (reached rules requests) request = (.error error, after) →
      after = reached rules requests) ∧
    (∀ request event head after,
      append rules (reached rules requests) request = (.ok (event, head), after) →
        (∀ key, streamOf after key = streamOf (reached rules requests) key ++
          if request.change.stream = key then [event] else []) ∧
        readHead after request.change.stream = head) ∧
    ∀ head events others, verifyAuditChain rules events head = .ok () →
      verifyAuditChain rules others head = .ok () → events = others := by
  have hsound : Sound rules (reached rules requests) := Sound.reached requests
  refine ⟨fun key => ?_, fun request hstale => ⟨_, append_stale hstale⟩,
    fun request error after h => append_error h, fun request event head after h => ?_,
    fun head events others h h' => verified_unique hinj h h'⟩
  · rw [hsound.streamOf_eq]
    exact hsound key
  · have happended := append_ok h
    refine ⟨fun key => ?_, happended.head_eq⟩
    rw [(hsound.appended happended).streamOf_eq, hsound.streamOf_eq]
    exact happended.rows key

theorem Sound.storedEvents (h : Sound rules db) (key : StreamKey) :
    storedEvents rules db key = .ok (rowsOf db key) := by
  have hverified : verifyAuditChain rules (rowsOf db key) (readHead db key) = .ok () := h key
  unfold AuditStore.storedEvents
  rw [h.streamOf_eq, hverified]
  rfl

theorem rowsOf_next (rules : AuditRules) (db : AuditDatabase) (request : Append) (key : StreamKey) :
    rowsOf db key <+: rowsOf (next rules db request) key := by
  unfold next
  cases happend : append rules db request with
  | mk answer after =>
    cases answer with
    | error error =>
      obtain rfl := append_error happend
      exact List.prefix_refl _
    | ok made =>
      rw [(append_ok happend).rows key]
      exact List.prefix_append _ _

/-- **Streams are append-only.**  After every list of appends `events` returns the stream, and
after whatever follows it returns the same events, with others behind them. -/
theorem events_append_only (rules : AuditRules) (requests later : List Append) (key : StreamKey) :
    ∃ events more, storedEvents rules (reached rules requests) key = .ok events ∧
      storedEvents rules (reached rules (requests ++ later)) key = .ok (events ++ more) := by
  have hkept : rowsOf (reached rules requests) key <+:
      rowsOf (reached rules (requests ++ later)) key := by
    unfold reached
    rw [Machine.after_append]
    exact @Machine.after_related _ _ (next rules) (fun _ => True)
      (fun before after => rowsOf before key <+: rowsOf after key) (fun _ _ _ => trivial)
      (fun _ => List.prefix_refl _) List.IsPrefix.trans
      (fun db request _ => rowsOf_next rules db request key) _ trivial later
  obtain ⟨more, hmore⟩ := hkept
  refine ⟨_, more, (Sound.reached requests).storedEvents key, ?_⟩
  rw [hmore]
  exact (Sound.reached (requests ++ later)).storedEvents key

/-! ### An injective rendering of events -/

def renderEvent (body : EventBody) : String :=
  String.ofList (rendered
    [body.tenantId.toList, body.runId.toList, body.eventId.toList, natural body.sequence,
      body.actorSub.toList, body.action.toList, body.targetId.toList,
      optional String.toList body.beforeHash, body.afterHash.toList, natural body.revision,
      optional String.toList body.previousEventHash, body.timestamp.toList,
      optional String.toList body.reason])

theorem renderEvent_injective : Function.Injective renderEvent := by
  intro first second h
  have hfields := rendered_injective (String.ofList_injective h)
  have htext : Function.Injective String.toList := fun _ _ => String.toList_inj.mp
  simp only [List.cons.injEq, htext.eq_iff, natural_injective.eq_iff,
    (optional_injective htext).eq_iff, and_true] at hfields
  obtain ⟨htenant, hrun, hevent, hsequence, hactor, haction, htarget, hbefore, hafter, hrevision,
    hprevious, htimestamp, hreason⟩ := hfields
  cases first
  cases second
  simp only [EventBody.mk.injEq]
  exact ⟨htenant, hrun, hevent, hsequence, hactor, haction, htarget, hbefore, hafter, hrevision,
    hprevious, htimestamp, hreason⟩

def renderedRules : AuditRules where
  hashEvent := renderEvent
  isUuid := fun text => text ≠ ""
  isSha256 := fun text => text ≠ ""
  isTimestamp := fun text => text ≠ ""

def firstAppend : Append where
  change :=
    { tenantId := "t"
      runId := "r"
      actorSub := "a"
      action := "publish"
      targetId := "x"
      beforeHash := none
      afterHash := "h"
      revision := 1
      reason := none }
  expectedHead := AuditHead.empty ("t", "r")
  eventId := "e"
  timestamp := "2026-01-01T00:00:00Z"

theorem audit_chain_integrity_rendered :
    (streamOf (reached renderedRules [firstAppend, firstAppend]) ("t", "r")).length = 1 ∧
      verifyAuditChain renderedRules
        (streamOf (reached renderedRules [firstAppend, firstAppend]) ("t", "r"))
        (readHead (reached renderedRules [firstAppend, firstAppend]) ("t", "r")) = .ok () :=
  ⟨by decide +kernel,
    (audit_chain_integrity renderedRules renderEvent_injective [firstAppend, firstAppend]).1 _⟩

end ProofOps.Adapters.Local.AuditStore
