import ProofOps.Foundation.Checked
import ProofOps.Foundation.HashChain

/-!
# Audit events

A change of a run becomes the next event of the run's stream: its hash covers every
other field, the sequence number and the hash of the event before it among them.
`verifyAuditChain` reads a complete stream against the head it should end in.
-/

namespace ProofOps.Domain.Audit

open Foundation

/-- `AuditConflict`. -/
inductive AuditError where
  | validation (message : String)
  | conflict (message : String)
  | integrity (message : String)
  | overflow
  deriving DecidableEq

/-- `(tenant, run)`. -/
abbrev StreamKey := String × String

/-- What the hash of an event covers. -/
structure EventBody where
  (tenantId runId eventId : String)
  sequence : Nat
  (actorSub action targetId : String)
  beforeHash : Option String
  afterHash : String
  revision : Nat
  previousEventHash : Option String
  timestamp : String
  reason : Option String

/-- `AuditEvent`. -/
structure AuditEvent where
  body : EventBody
  eventHash : String

def AuditEvent.stream (event : AuditEvent) : StreamKey :=
  (event.body.tenantId, event.body.runId)

/-- `AuditHead`. -/
structure AuditHead where
  (tenantId runId : String)
  sequence : Nat
  eventHash : Option String
  empty_iff : sequence = 0 ↔ eventHash = none
  deriving DecidableEq

/-- The stream a head is of. -/
def AuditHead.stream (head : AuditHead) : StreamKey :=
  (head.tenantId, head.runId)

/-- `AuditHead.empty`. -/
def AuditHead.empty (key : StreamKey) : AuditHead where
  tenantId := key.1
  runId := key.2
  sequence := 0
  eventHash := none
  empty_iff := ⟨fun _ => rfl, fun _ => rfl⟩

/-- `ChangeSet`. -/
structure ChangeSet where
  (tenantId runId actorSub action targetId : String)
  beforeHash : Option String
  afterHash : String
  revision : Nat
  reason : Option String

def ChangeSet.stream (change : ChangeSet) : StreamKey :=
  (change.tenantId, change.runId)

/-- `_utc_timestamp`. -/
structure AuditRules where
  hashEvent : EventBody → String
  isUuid : String → Bool
  isSha256 : String → Bool
  isTimestamp : String → Bool

variable (rules : AuditRules)

def require (holds : Bool) (message : String) : Except AuditError Unit :=
  if holds then .ok () else .error (.validation message)

/-- `_required_text`. -/
def checkEvent (event : AuditEvent) : Except AuditError Unit := do
  require (rules.isUuid event.body.tenantId) "tenant_id"
  require (rules.isUuid event.body.runId) "run_id"
  require (rules.isUuid event.body.eventId) "event_id"
  require (1 ≤ event.body.sequence) "sequence must be positive"
  require (event.body.actorSub ≠ "") "actor_sub must be a non-empty string"
  require (event.body.action ≠ "") "action must be a non-empty string"
  require (rules.isUuid event.body.targetId) "target_id"
  require (event.body.beforeHash.all rules.isSha256) "before_hash"
  require (rules.isSha256 event.body.afterHash) "after_hash"
  require (1 ≤ event.body.revision) "revision must be positive"
  require (event.body.previousEventHash.all rules.isSha256) "previous_event_hash"
  require (rules.isSha256 event.eventHash) "event_hash"
  require (rules.isTimestamp event.body.timestamp) "timestamp must be UTC RFC3339 ending in Z"
  require (event.body.reason.all (· ≠ "")) "reason must be a non-empty string"

def nextBody (change : ChangeSet) (head : AuditHead) (eventId timestamp : String) : EventBody where
  tenantId := change.tenantId
  runId := change.runId
  eventId := eventId
  sequence := head.sequence + 1
  actorSub := change.actorSub
  action := change.action
  targetId := change.targetId
  beforeHash := change.beforeHash
  afterHash := change.afterHash
  revision := change.revision
  previousEventHash := head.eventHash
  timestamp := timestamp
  reason := change.reason

/-- A body under its hash. -/
def sealed (body : EventBody) : AuditEvent where
  body := body
  eventHash := rules.hashEvent body

def headAfter (event : AuditEvent) (h : 0 < event.body.sequence) : AuditHead where
  tenantId := event.body.tenantId
  runId := event.body.runId
  sequence := event.body.sequence
  eventHash := some event.eventHash
  empty_iff := ⟨fun hzero => absurd hzero (Nat.ne_of_gt h), fun hnone => by cases hnone⟩

/-- `new_audit_event`. -/
def newAuditEvent (change : ChangeSet) (expectedHead : AuditHead) (eventId timestamp : String) :
    Except AuditError (AuditEvent × AuditHead) :=
  if change.stream ≠ expectedHead.stream then
    .error (.conflict "expected audit HEAD belongs to another tenant or run")
  else do
    let body := nextBody change expectedHead eventId timestamp
    checkEvent rules ⟨body, String.ofList (List.replicate 64 '0')⟩
    checkEvent rules (sealed rules body)
    return (sealed rules body, headAfter (sealed rules body) (Nat.succ_pos _))

/-! ### Verifying a stream -/

def verifyFrom (key : StreamKey) :
    Nat → Option String → List AuditEvent → Except AuditError (Option String)
  | _, previous, [] => .ok previous
  | sequence, previous, event :: events =>
    if event.stream ≠ key then
      .error (.integrity "audit event belongs to another tenant or run")
    else if event.body.sequence ≠ sequence ∨ event.body.previousEventHash ≠ previous then
      .error (.integrity "audit event sequence or previous hash is invalid")
    else if event.eventHash ≠ rules.hashEvent event.body then
      .error (.integrity "audit event hash is invalid")
    else
      verifyFrom key (sequence + 1) (some event.eventHash) events

/-- `verify_audit_chain`. -/
def verifyAuditChain (events : List AuditEvent) (expectedHead : AuditHead) :
    Except AuditError Unit := do
  let previous ← verifyFrom rules expectedHead.stream 1 none events
  if expectedHead.sequence ≠ events.length ∨ expectedHead.eventHash ≠ previous then
    .error (.integrity "audit events do not reach the expected HEAD")
  else
    .ok ()

def Numbered (key : StreamKey) : Nat → List AuditEvent → Prop
  | _, [] => True
  | sequence, event :: events =>
    event.stream = key ∧ event.body.sequence = sequence ∧
      event.eventHash = rules.hashEvent event.body ∧ Numbered key (sequence + 1) events

def previousHash (event : AuditEvent) : Option String :=
  event.body.previousEventHash

variable {rules}

variable {key : StreamKey} {sequence : Nat} {events : List AuditEvent}

theorem verifyFrom_ok_iff {previous : Option String} {last : Option String} :
    verifyFrom rules key sequence previous events = .ok last ↔
      Numbered rules key sequence events ∧
        HashChain.Linked AuditEvent.eventHash previousHash previous events ∧
        last = HashChain.tip AuditEvent.eventHash previous events := by
  induction events generalizing sequence previous with
  | nil => simp [verifyFrom, Numbered, HashChain.Linked, HashChain.tip, eq_comm]
  | cons event events ih =>
    unfold verifyFrom Numbered HashChain.Linked HashChain.tip
    split_ifs with hstream hlink hhash
    · simp [hstream]
    · rcases hlink with hsequence | hprevious
      · simp [hsequence]
      · simp [previousHash, hprevious]
    · simp [hhash]
    · rw [ih]
      rw [not_or, not_not, not_not] at hlink
      simp only [not_not.mp hstream, hlink.1, not_not.mp hhash, true_and, previousHash, hlink.2]

theorem verifyAuditChain_ok_iff {head : AuditHead} :
    verifyAuditChain rules events head = .ok () ↔
      Numbered rules head.stream 1 events ∧
        HashChain.Linked AuditEvent.eventHash previousHash none events ∧
        head.sequence = events.length ∧
        head.eventHash = HashChain.tip AuditEvent.eventHash none events := by
  unfold verifyAuditChain
  rw [Checked.bind_ok_iff]
  constructor
  · rintro ⟨last, hlast, h⟩
    obtain ⟨hnumbered, hlinked, rfl⟩ := verifyFrom_ok_iff.mp hlast
    split_ifs at h with hreaches
    rw [not_or, not_not, not_not] at hreaches
    exact ⟨hnumbered, hlinked, hreaches⟩
  · rintro ⟨hnumbered, hlinked, hsequence, hhash⟩
    refine ⟨_, verifyFrom_ok_iff.mpr ⟨hnumbered, hlinked, rfl⟩, ?_⟩
    rw [if_neg]
    rw [not_or, not_not, not_not]
    exact ⟨hsequence, hhash⟩

/-- Every event of a numbered list has the hash of its body. -/
theorem Numbered.hash (h : Numbered rules key sequence events) :
    ∀ event ∈ events, event.eventHash = rules.hashEvent event.body := by
  induction events generalizing sequence with
  | nil => simp
  | cons event events ih =>
    rw [List.forall_mem_cons]
    exact ⟨h.2.2.1, ih h.2.2.2⟩

theorem numbered_append_singleton {event : AuditEvent} :
    Numbered rules key sequence (events ++ [event]) ↔
      Numbered rules key sequence events ∧ event.stream = key ∧
        event.body.sequence = sequence + events.length ∧
        event.eventHash = rules.hashEvent event.body := by
  induction events generalizing sequence with
  | nil => simp [Numbered]
  | cons first events ih =>
    rw [List.cons_append]
    unfold Numbered
    rw [ih, List.length_cons, Nat.add_right_comm sequence 1, Nat.add_assoc sequence]
    simp only [and_assoc]

theorem eq_of_eventHash_eq (hinj : Function.Injective rules.hashEvent) {event other : AuditEvent}
    (hevent : event.eventHash = rules.hashEvent event.body)
    (hother : other.eventHash = rules.hashEvent other.body)
    (h : event.eventHash = other.eventHash) : event = other := by
  have hbody : event.body = other.body := hinj (hevent.symm.trans (h.trans hother))
  cases event
  simp only at hbody h
  rw [hbody, h]

theorem verified_unique (hinj : Function.Injective rules.hashEvent) {head : AuditHead}
    {others : List AuditEvent} (h : verifyAuditChain rules events head = .ok ())
    (h' : verifyAuditChain rules others head = .ok ()) : events = others := by
  obtain ⟨hnumbered, hlinked, hsequence, hhash⟩ := verifyAuditChain_ok_iff.mp h
  obtain ⟨hnumbered', hlinked', hsequence', hhash'⟩ := verifyAuditChain_ok_iff.mp h'
  refine HashChain.eq_of_tip_eq (fun event hevent other hother heq => ?_) hlinked hlinked'
    (hsequence.symm.trans hsequence') (hhash.symm.trans hhash')
  exact eq_of_eventHash_eq hinj (hnumbered.hash event hevent) (hnumbered'.hash other hother) heq

end ProofOps.Domain.Audit
