import Mathlib.Data.List.Range
import ProofOps.Foundation.Checked
import ProofOps.Foundation.HashChain
import ProofOps.Foundation.Table

/-!
# The audit log of the uploads

`_audit` appends an event to the log of a document: it numbers the event after the last one and
links it to the hash of that one.  The log of a document is a chain from the first event on.
-/

namespace ProofOps.Application.Uploads

open Foundation Foundation.Checked Foundation.Table

/-! ### Events -/

/-- A stream: the events of one document. -/
structure StreamKey where
  (tenantId documentId : String)
  deriving DecidableEq

/-- What the caller of `_audit` supplies. -/
structure Change where
  stream : StreamKey
  (action actorSub : String)
  beforeHash : Option String
  afterHash : String
  (uploadId versionId jobId sourceSha256 : Option String)

/-- What the hash of an event covers. -/
structure EventBody where
  change : Change
  sequence : Nat
  eventId : String
  timestamp : Int
  previousEventHash : Option String

/-- A row of `upload_audit`. -/
structure UploadEvent where
  body : EventBody
  eventHash : String

/-- The stream of an event. -/
def UploadEvent.stream (event : UploadEvent) : StreamKey :=
  event.body.change.stream

def UploadEvent.key (event : UploadEvent) : StreamKey × Nat :=
  (event.stream, event.body.sequence)

abbrev AuditLog := Table UploadEvent UploadEvent.key

def AuditLog.streamOf (log : AuditLog) (stream : StreamKey) : List UploadEvent :=
  log.rows.filter fun event => event.stream = stream

def latest (events : List UploadEvent) : Option UploadEvent :=
  events.find? fun event => events.all fun other => other.body.sequence ≤ event.body.sequence

def nextEvent (hashEvent : EventBody → String) (log : AuditLog) (change : Change) (eventId : String)
    (timestamp : Int) : UploadEvent :=
  let row := latest (log.streamOf change.stream)
  let body : EventBody :=
    { change, eventId, timestamp
      sequence := (row.map fun event => event.body.sequence + 1).getD 1
      previousEventHash := row.map UploadEvent.eventHash }
  ⟨body, hashEvent body⟩

def audit {ε : Type} (error : ε) (hashEvent : EventBody → String) (log : AuditLog) (change : Change)
    (eventId : String) (timestamp : Int) : Except ε AuditLog :=
  log.insertOr error (nextEvent hashEvent log change eventId timestamp)

structure Chain (hashEvent : EventBody → String) (events : List UploadEvent) : Prop where
  numbered : events.map (fun event => event.body.sequence) = List.range' 1 events.length
  linked : HashChain.Linked UploadEvent.eventHash (fun event => event.body.previousEventHash) none
    events
  hashed : ∀ event ∈ events, event.eventHash = hashEvent event.body

/-- Every stream is a chain. -/
def Chained (hashEvent : EventBody → String) (log : AuditLog) : Prop :=
  ∀ stream, Chain hashEvent (log.streamOf stream)

variable {hashEvent : EventBody → String}

theorem chain_nil : Chain hashEvent [] where
  numbered := rfl
  linked := trivial
  hashed := fun _ h => by cases h

theorem chained_empty : Chained hashEvent Table.empty := fun _ => chain_nil

variable {events : List UploadEvent} {event : UploadEvent}

/-- The latest of numbered events is the last one. -/
theorem latest_append_singleton
    (hnumbered : (events ++ [event]).map (fun event => event.body.sequence) =
      List.range' 1 (events ++ [event]).length) : latest (events ++ [event]) = some event := by
  rw [List.length_append, List.length_singleton, List.range'_concat, List.map_append] at hnumbered
  obtain ⟨hrest, hlast⟩ := List.append_inj hnumbered (by simp)
  have hsequence : event.body.sequence = 1 + events.length := by simpa using hlast
  have hsmaller : ∀ other ∈ events, other.body.sequence < event.body.sequence := by
    intro other hother
    have hmem : other.body.sequence ∈ List.range' 1 events.length := by
      rw [← hrest]
      exact List.mem_map_of_mem hother
    rw [List.mem_range'_1] at hmem
    omega
  unfold latest
  rw [List.find?_append]
  have hnone : events.find? (fun candidate => (events ++ [event]).all fun other =>
      other.body.sequence ≤ candidate.body.sequence) = none := by
    rw [List.find?_eq_none]
    intro candidate hcandidate hall
    rw [List.all_eq_true] at hall
    have hle := hall event (by simp)
    have hlt := hsmaller candidate hcandidate
    rw [decide_eq_true_eq] at hle
    omega
  rw [hnone, Option.none_or]
  have hall : ((events ++ [event]).all fun other =>
      other.body.sequence ≤ event.body.sequence) = true := by
    rw [List.all_eq_true]
    intro other hother
    rw [decide_eq_true_eq]
    rcases List.mem_append.mp hother with hold | hnew
    · exact Nat.le_of_lt (hsmaller other hold)
    · rw [List.mem_singleton.mp hnew]
  rw [List.find?_cons, hall]

theorem Chain.latest_eq (h : Chain hashEvent events) :
    ((latest events).map fun event => event.body.sequence + 1).getD 1 = events.length + 1 ∧
      (latest events).map UploadEvent.eventHash =
        HashChain.tip UploadEvent.eventHash none events := by
  induction events using List.reverseRecOn with
  | nil => exact ⟨rfl, rfl⟩
  | append_singleton events event _ =>
    rw [latest_append_singleton h.numbered, HashChain.tip_append_singleton]
    refine ⟨?_, rfl⟩
    have hnumbered := h.numbered
    rw [List.length_append, List.length_singleton, List.range'_concat, List.map_append]
      at hnumbered
    have hlast := (List.append_inj hnumbered (by simp)).2
    have hsequence : event.body.sequence = 1 + events.length := by simpa using hlast
    show event.body.sequence + 1 = (events ++ [event]).length + 1
    rw [List.length_append, List.length_singleton]
    omega

theorem Chain.concat (h : Chain hashEvent events)
    (hsequence : event.body.sequence = events.length + 1)
    (hlink : event.body.previousEventHash = HashChain.tip UploadEvent.eventHash none events)
    (hhash : event.eventHash = hashEvent event.body) : Chain hashEvent (events ++ [event]) where
  numbered := by
    rw [List.length_append, List.length_singleton, List.range'_concat, List.map_append, h.numbered,
      List.map_singleton, hsequence]
    congr 2
    omega
  linked := HashChain.linked_append_singleton.mpr ⟨h.linked, hlink⟩
  hashed := fun other hother => by
    rcases List.mem_append.mp hother with hold | hnew
    · exact h.hashed other hold
    · rw [List.mem_singleton.mp hnew]
      exact hhash

theorem audit_ok {ε : Type} {error : ε} {log after : AuditLog} {change : Change} {eventId : String}
    {timestamp : Int} (hchained : Chained hashEvent log)
    (h : audit error hashEvent log change eventId timestamp = .ok after) :
    Chained hashEvent after ∧ ∀ event ∈ log, event ∈ after := by
  have hinsert := insertOr_ok h
  refine ⟨fun stream => ?_, fun event hevent => (mem_insert? hinsert).mpr (Or.inl hevent)⟩
  unfold AuditLog.streamOf
  rw [insert?_rows hinsert, List.filter_append]
  by_cases hstream : change.stream = stream
  · subst hstream
    obtain ⟨hsequence, hlink⟩ := (hchained change.stream).latest_eq
    have hown : [nextEvent hashEvent log change eventId timestamp].filter
        (fun event => decide (event.stream = change.stream)) =
          [nextEvent hashEvent log change eventId timestamp] :=
      List.filter_cons_of_pos (decide_eq_true rfl)
    rw [hown]
    exact (hchained change.stream).concat hsequence hlink rfl
  · have hother : [nextEvent hashEvent log change eventId timestamp].filter
        (fun event => decide (event.stream = stream)) = [] :=
      List.filter_cons_of_neg (by rw [decide_eq_true_eq]; exact hstream)
    rw [hother, List.append_nil]
    exact hchained stream

end ProofOps.Application.Uploads
