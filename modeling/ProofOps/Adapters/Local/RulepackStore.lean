import ProofOps.Application.Rulepacks
import ProofOps.Foundation.Revisions

/-!
# The rule-pack store

`RulePackSqliteStore`: immutable revisions of packs under a head each, one active pointer for
each tenant and mode, frozen run snapshots, activation events and stored responses.  Every
call is one transaction, which an exception rolls back.
-/

namespace ProofOps.Adapters.Local.Rulepacks

open Foundation Foundation.Checked Application.Rulepacks

def idempotencyTtl : Int := 86400

/-! ### Records -/

structure PackKey where
  (tenantId rulePackId : String)
  deriving DecidableEq

/-- A row of `rulepack_revisions`. -/
structure RevisionRow (Files : Type) where
  pack : PackKey
  revision : Nat
  record : RulePackRecord
  files : Files

def RevisionRow.key {Files : Type} (row : RevisionRow Files) : PackKey × Nat :=
  (row.pack, row.revision)

/-- A row of `rulepack_heads`. -/
structure HeadRow where
  pack : PackKey
  revision : Nat

structure PointerKey where
  (tenantId mode : String)
  deriving DecidableEq

/-- A row of `rulepack_active_pointers`. -/
structure PointerRow where
  key : PointerKey
  rulePackId : String

structure RunSnapshotKey where
  (tenantId runId : String)
  deriving DecidableEq

/-- `RunSnapshot`. -/
structure RunSnapshot where
  key : RunSnapshotKey
  (rulePackId rulePackSha256 status : String)
  deriving DecidableEq

/-- `_project_rule_pack`. -/
structure Projection where
  (rulePackId version sha256 status mode effectiveDate : String)
  unresolvedGapIds : List String
  deriving DecidableEq

/-- `_project_rule_pack`. -/
def project (pack : RulePackRecord) : Projection where
  rulePackId := pack.rulePackId
  version := pack.version
  sha256 := pack.sha256
  status := pack.status
  mode := pack.mode
  effectiveDate := pack.effectiveDate
  unresolvedGapIds := pack.unresolvedGapIds

/-- `StoredActivation`. -/
structure StoredActivation where
  body : Projection
  revision : Nat
  deriving DecidableEq

structure IdempotencyKey where
  (tenantId route keyHash : String)
  deriving DecidableEq

structure IdempotencyRow where
  key : IdempotencyKey
  requestHash : String
  response : StoredActivation
  expiresAt : Int

structure EventKey where
  (tenantId activationId : String)
  deriving DecidableEq

/-- A row of `rulepack_activation_events`. -/
structure EventRow where
  key : EventKey
  (rulePackId actor reason : String)
  beforePackId : Option String
  afterPackId : String
  activatedAt : Int

/-- The tables of the store. -/
structure Store (Files : Type) where
  revisions : Table (RevisionRow Files) RevisionRow.key
  heads : Table HeadRow HeadRow.pack
  pointers : Table PointerRow PointerRow.key
  runSnapshots : Table RunSnapshot RunSnapshot.key
  idempotency : Table IdempotencyRow IdempotencyRow.key
  events : Table EventRow EventRow.key

structure StoreRules (Files : Type) where
  pack : PackRules Files
  keyHash : String → String
  activationHash : String → String → String
  reviewHash : String → Review → String

variable {Files : Type}

def Store.initial : Store Files where
  revisions := Table.empty
  heads := Table.empty
  pointers := Table.empty
  runSnapshots := Table.empty
  idempotency := Table.empty
  events := Table.empty

def Store.head (store : Store Files) (key : PackKey) : Option (RevisionRow Files) :=
  (store.heads.find key).bind fun head => store.revisions.find (key, head.revision)

def addPack [DecidableEq Files] (store : Store Files) (pack : RulePackRecord) (files : Files) :
    Except RulepackError (Nat × Store Files) :=
  let key : PackKey := ⟨pack.tenantId, pack.rulePackId⟩
  match store.head key with
  | some row => do
    refuse (¬(row.record = pack ∧ row.files = files))
      (.valueError "immutable rule-pack identity cannot be overwritten")
    return (row.revision, store)
  | none => do
    let revisions ← store.revisions.insertOr .integrity ⟨key, 1, pack, files⟩
    let heads ← store.heads.insertOr .integrity ⟨key, 1⟩
    return (1, { store with revisions, heads })

variable (rules : StoreRules Files) (store : Store Files)

def addRunSnapshot (snapshot : RunSnapshot) : Except RulepackError (Store Files) :=
  match store.runSnapshots.insert? snapshot with
  | some runSnapshots => .ok { store with runSnapshots }
  | none => do
    refuse (store.runSnapshots.find snapshot.key ≠ some snapshot)
      (.valueError "immutable run snapshot cannot be overwritten")
    return store

/-! ### Activating -/

def loadRows (tenantId : String) : List (RevisionRow Files) :=
  (store.heads.rows.filter fun head => head.pack.tenantId = tenantId).filterMap fun head =>
    store.revisions.find (head.pack, head.revision)

def registryOf (tenantId : String) (rows : List (RevisionRow Files)) : Registry where
  packs := rows.map RevisionRow.record
  active := (store.pointers.rows.filter fun row => row.key.tenantId = tenantId).map fun row =>
    ⟨tenantId, row.key.mode, row.rulePackId⟩

def rowOf (rows : List (RevisionRow Files)) (rulePackId : String) :
    Except RulepackError (RevisionRow Files) :=
  match rows.find? fun row => row.pack.rulePackId = rulePackId with
  | some row => .ok row
  | none => .error .integrity

def writeRevision (row : RevisionRow Files) (pack : RulePackRecord) :
    Except RulepackError (Store Files) := do
  let revisions ← store.revisions.insertOr .integrity
    { row with revision := row.revision + 1, record := pack }
  refuse ((store.heads.find row.pack).map HeadRow.revision ≠ some row.revision)
    (.stale row.revision)
  return { store with revisions, heads := store.heads.put ⟨row.pack, row.revision + 1⟩ }

def writeChanged (rows : List (RevisionRow Files)) (rulePackId : String) :
    List RulePackRecord → Store Files → Nat → Except RulepackError (Store Files × Nat)
  | [], store, response => .ok (store, response)
  | pack :: packs, store, response => do
    let row ← rowOf rows pack.rulePackId
    if row.record = pack then writeChanged rows rulePackId packs store response
    else do
      let written ← writeRevision store row pack
      writeChanged rows rulePackId packs written
        (if pack.rulePackId = rulePackId then row.revision + 1 else response)

structure Attempt where
  (tenantId rulePackId : String)
  expectedRevision : Nat
  (route keyHash requestHash : String)
  now : Int
  activationId : String

variable (attempt : Attempt)

def Attempt.pack : PackKey :=
  ⟨attempt.tenantId, attempt.rulePackId⟩

def Attempt.idempotency : IdempotencyKey :=
  ⟨attempt.tenantId, attempt.route, attempt.keyHash⟩

def commitActivation (rows : List (RevisionRow Files)) (updated : Registry)
    (record : ActivationRecord) (currentRevision : Nat) :
    Except RulepackError (StoredActivation × Store Files) := do
  let (written, revision) ←
    writeChanged rows attempt.rulePackId updated.packs store currentRevision
  let activated ← updated.getPack attempt.tenantId attempt.rulePackId
  let response : StoredActivation := ⟨project activated, revision⟩
  let events ← written.events.insertOr .integrity
    { key := ⟨attempt.tenantId, attempt.activationId⟩, rulePackId := attempt.rulePackId
      actor := record.actor, reason := record.reason, beforePackId := record.beforePackId
      afterPackId := record.afterPackId, activatedAt := attempt.now }
  let idempotency ← written.idempotency.insertOr .integrity
    { key := attempt.idempotency, requestHash := attempt.requestHash, response
      expiresAt := attempt.now + idempotencyTtl }
  return (response, { written with
    pointers := written.pointers.put ⟨⟨attempt.tenantId, activated.mode⟩, attempt.rulePackId⟩
    events, idempotency })

variable (compute : Registry → Files → Except RulepackError (Registry × ActivationRecord))

def activateFresh
    :
    Except RulepackError (StoredActivation × Store Files) := do
  let head ← match store.heads.find attempt.pack with
    | some head => .ok head
    | none => .error .notFound
  refuse (head.revision ≠ attempt.expectedRevision) (.stale head.revision)
  let rows := loadRows store attempt.tenantId
  let own ← rowOf rows attempt.rulePackId
  let (updated, record) ← compute (registryOf store attempt.tenantId rows) own.files
  commitActivation store attempt rows updated record head.revision

def transact
    :
    Except RulepackError (StoredActivation × Store Files) :=
  match store.idempotency.find attempt.idempotency with
  | none => activateFresh store attempt compute
  | some replay =>
    if attempt.now < replay.expiresAt then do
      refuse (replay.requestHash ≠ attempt.requestHash) .idempotencyConflict
      return (replay.response, store)
    else
      activateFresh
        { store with idempotency := store.idempotency.delete fun row => row.key = attempt.idempotency }
        attempt compute

structure ActivationCall where
  (tenantId rulePackId : String)
  expectedRevision : Nat
  idempotencyKey : String
  gapIds : List String
  now : Int
  activationId : String

def activateRoute : String := "POST /v1/rule-packs/\x7brule_pack_id\x7d/activate"

variable (call : ActivationCall)

def activationAttempt (reason : String) : Attempt where
  tenantId := call.tenantId
  rulePackId := call.rulePackId
  expectedRevision := call.expectedRevision
  route := activateRoute
  keyHash := rules.keyHash call.idempotencyKey
  requestHash := rules.activationHash call.rulePackId reason
  now := call.now
  activationId := call.activationId

def reviewAttempt (review : Review) : Attempt where
  tenantId := call.tenantId
  rulePackId := call.rulePackId
  expectedRevision := call.expectedRevision
  route := activateRoute ++ "#ai-delegated-review"
  keyHash := rules.keyHash call.idempotencyKey
  requestHash := rules.reviewHash call.rulePackId review
  now := call.now
  activationId := call.activationId

def activate (actor reason : String) : Except RulepackError (StoredActivation × Store Files) :=
  transact store (activationAttempt rules call reason) fun registry files =>
    activateRulepack rules.pack registry call.rulePackId call.tenantId actor reason files call.gapIds

def review (rules : StoreRules Files) (store : Store Files) (call : ActivationCall)
    (review : Review) : Except RulepackError (StoredActivation × Store Files) :=
  transact store (reviewAttempt rules call review) fun registry files =>
    recordAiDelegatedReview rules.pack registry call.rulePackId call.tenantId review files call.gapIds

/-- The calls that write to the store. -/
inductive Call (Files : Type) where
  | addPack (pack : RulePackRecord) (files : Files)
  | addRunSnapshot (snapshot : RunSnapshot)
  | activate (call : ActivationCall) (actor reason : String)
  | review (call : ActivationCall) (review : Review)

def answer [DecidableEq Files] (rules : StoreRules Files) (store : Store Files) :
    Call Files → Except RulepackError (Option StoredActivation × Store Files)
  | .addPack pack files => (addPack store pack files).map fun result => (none, result.2)
  | .addRunSnapshot snapshot => (addRunSnapshot store snapshot).map fun result => (none, result)
  | .activate call actor reason =>
    (activate rules store call actor reason).map fun result => (some result.1, result.2)
  | .review call given =>
    (review rules store call given).map fun result => (some result.1, result.2)

def next [DecidableEq Files] (rules : StoreRules Files) (store : Store Files) (call : Call Files) :
    Store Files :=
  match answer rules store call with
  | .ok (_, store) => store
  | .error _ => store

end ProofOps.Adapters.Local.Rulepacks
