import ProofOps.Adapters.Local.ReviewChain
import ProofOps.Foundation.Sorting

/-!
# The local rescore store

`LocalSQLiteRescoreStore`: a rescore captures a run with its claims and the target rule pack in one
transaction, is evaluated outside of any, and commits in a second one, which compares what it
reads with what was captured.  Claims, runs and packs have other writers in between.
-/

namespace ProofOps.Adapters.Local.RescoreStore

open Foundation Foundation.Checked Foundation.Sorting Domain.Audit
open ReviewStore (ClaimHead RunsKept)

/-! ### Records -/

/-- A `tag_revision` row. -/
structure TagRow where
  claim : String × String × String
  revision : Nat
  value : String
  deriving DecidableEq

def TagRow.key (row : TagRow) : (String × String × String) × Nat :=
  (row.claim, row.revision)

/-- A `decision_revision` row. -/
structure DecisionRow where
  claim : String × String × String
  revision : Nat
  (status value : String)
  deriving DecidableEq

def DecisionRow.key (row : DecisionRow) : (String × String × String) × Nat :=
  (row.claim, row.revision)

/-- `RulePackSnapshot`. -/
structure Pack where
  (tenantId mode rulePackId status content : String)
  deriving DecidableEq

structure PackRow where
  (tenantId mode rulePackId : String)
  pack : Pack
  validates : Bool

def PackRow.key (row : PackRow) : String × String × String :=
  (row.tenantId, row.mode, row.rulePackId)

/-- A `run_snapshots` row. -/
structure SnapshotRow where
  (tenantId runId mode value : String)
  deriving DecidableEq

def SnapshotRow.key (row : SnapshotRow) : RunKey :=
  (row.tenantId, row.runId)

/-- The entry of a claim in `_claims`. -/
structure ClaimRecord where
  head : ClaimHead
  tag : TagRow
  decision : Option DecisionRow
  deriving DecidableEq

structure Response where
  (jobId resourceId status statusUrl : String)
  deriving DecidableEq

structure Prepared where
  claimId : String
  decisionRevision : Nat
  (status value : String)

/-- A `rescore_artifact` row. -/
structure Artifact where
  response : Response
  (tenantId runId : String)
  targetPack : Pack
  originalRunSnapshotSha256 : String
  previousRunRevision : Nat
  previousHeads : List ClaimHead
  decisions : List Prepared
  (actorSub reason createdAt : String)

def Artifact.key (artifact : Artifact) : String × String × String :=
  (artifact.tenantId, artifact.runId, artifact.response.resourceId)

/-- A `rescore_idempotency` row. -/
structure Replay where
  (tenantId runId recordId requestHash : String)
  response : Response

def Replay.key (replay : Replay) : String × String × String :=
  (replay.tenantId, replay.runId, replay.recordId)

structure Rescores where
  claimHeads : Table ClaimHead ClaimHead.key
  tags : Table TagRow TagRow.key
  decisions : Table DecisionRow DecisionRow.key
  snapshots : Table SnapshotRow SnapshotRow.key
  packs : Table PackRow PackRow.key
  artifacts : Table Artifact Artifact.key
  replays : Table Replay Replay.key
  audit : AuditStore.AuditDatabase

abbrev Store := JobStore Rescores

structure RescoreRules where
  audit : AuditRules
  replayKey : String → String → String
  requestHash : String → String → String → Option Nat → String
  hashClaims : List ClaimRecord → String
  hashArtifact : Artifact → String
  hashSnapshot : SnapshotRow → String

/-- `RescoreRejected`. -/
inductive RescoreError where
  | rejected (code : String) (status : Nat)
  | runRejected (code : String) (status : Nat)
  | refused (refusal : Refusal)
  | audit (error : AuditError)
  | integrity
  | valueError (message : String)

def decidedHeads (rescores : Rescores) (key : RunKey) : Nat :=
  (rescores.claimHeads.rows.filter fun head =>
    (head.tenantId, head.runId) = key ∧
      (rescores.decisions.find (head.key, head.decisionRevision)).any fun row =>
        row.status = "decided").length

variable (rules : RescoreRules) (hooks : Hooks Rescores)

def rescoreHooks (deleted : String → String → Bool) : Hooks Rescores :=
  { hooks with versionDeleted := fun _ => deleted, decidedHeads := decidedHeads }

variable (store : Store)

/-- `_run`. -/
def findRun (key : RunKey) : Except RescoreError RunRecord :=
  (getRun hooks store key).mapError fun _ => .rejected "RESOURCE_NOT_FOUND" 404

def findReplay (tenantId recordId : String) : Option Replay :=
  store.rest.replays.rows.find? fun replay =>
    replay.tenantId = tenantId ∧ replay.recordId = recordId

/-- `_replay`. -/
def replayed (tenantId recordId requestHash : String) : Except RescoreError (Option Response) :=
  match findReplay store tenantId recordId with
  | none => .ok none
  | some saved =>
    if saved.requestHash ≠ requestHash then .error (.rejected "IDEMPOTENCY_CONFLICT" 409)
    else .ok (some saved.response)

def target (tenantId mode rulePackId : String) : Except RescoreError Pack := do
  let row ← orRaise (store.rest.packs.find (tenantId, mode, rulePackId))
    (.rejected "RESOURCE_NOT_FOUND" 404)
  refuse (row.validates = false) (.valueError "active rule pack validation failed")
  refuse (row.pack.status ≠ "active") (.rejected "RULE_PACK_NOT_ACTIVE" 409)
  return row.pack

def claimRecord (head : ClaimHead) : Except RescoreError ClaimRecord := do
  let tag ← orRaise (store.rest.tags.find (head.key, head.tagRevision))
    (.rejected "RETAG_REQUIRED" 409)
  if head.decisionRevision = 0 then
    return ⟨head, tag, none⟩
  else do
    let decision ← orRaise (store.rest.decisions.find (head.key, head.decisionRevision))
      (.rejected "RETAG_REQUIRED" 409)
    return ⟨head, tag, some decision⟩

def headsOf (key : RunKey) : List ClaimHead :=
  sortedBy ClaimHead.claimId
    (store.rest.claimHeads.rows.filter fun head => (head.tenantId, head.runId) = key)

/-- `_claims`. -/
def claimsOf (key : RunKey) : Except RescoreError (List ClaimRecord) := do
  let claims ← (headsOf store key).mapM (claimRecord store)
  refuse (claims = []) (.rejected "RETAG_REQUIRED" 409)
  return claims

structure Request where
  (tenantId userSub runId rulePackId reason key : String)
  expected : Option Nat

variable (request : Request)

def Request.runKey : RunKey :=
  (request.tenantId, request.runId)

def Request.replayKey : String :=
  rules.replayKey request.userSub request.key

def Request.hash : String :=
  rules.requestHash request.runId request.rulePackId request.reason request.expected

structure Captured where
  run : RunRecord
  runSnapshot : SnapshotRow
  claims : List ClaimRecord
  targetPack : Pack
  (replayKey requestHash : String)
  deriving DecidableEq

inductive Capture where
  | replayed (response : Response)
  | fresh (captured : Captured)
  deriving DecidableEq

def captureFresh (run : RunRecord) : Except RescoreError Captured := do
  refuse (request.expected.any fun revision => run.revision ≠ revision)
    (.rejected "STALE_RUN_REVISION" 412)
  refuse (run.status ≠ .partially ∧ run.status ≠ .completed) (.rejected "RUN_NOT_RESCOREABLE" 409)
  let snapshot ← orRaise (store.rest.snapshots.find request.runKey)
    (.runRejected "RESOURCE_NOT_FOUND" 404)
  let claims ← claimsOf store request.runKey
  let pack ← target store request.tenantId snapshot.mode request.rulePackId
  return {
    run := run
    runSnapshot := snapshot
    claims := claims
    targetPack := pack
    replayKey := request.replayKey rules
    requestHash := request.hash rules }

def capture : Except RescoreError Capture := do
  let run ← findRun hooks store request.runKey
  match ← replayed store request.tenantId (request.replayKey rules) (request.hash rules) with
  | some response => return .replayed response
  | none => do
    let captured ← captureFresh rules store request run
    return .fresh captured

/-! ### Committing -/

structure Stamp where
  (rescoreId jobId eventId now : String)

def makeResponse (stamp : Stamp) : Response where
  jobId := stamp.jobId
  resourceId := stamp.rescoreId
  status := "ready"
  statusUrl := "/v1/runs/" ++ request.runId ++ "/rescores/" ++ stamp.rescoreId

def decisionRow (decision : Prepared) : DecisionRow where
  claim := (request.tenantId, request.runId, decision.claimId)
  revision := decision.decisionRevision
  status := decision.status
  value := decision.value

variable (captured : Captured)

def writeDecision (request : Request) (rescores : Rescores)
    (decision : Prepared) : Except RescoreError Rescores := do
  let claim ← orRaise (captured.claims.find? fun claim => claim.head.claimId = decision.claimId)
    (.rejected "INCOMPLETE_RESCORE" 409)
  refuse (decision.decisionRevision ≠ claim.head.decisionRevision + 1)
    (.rejected "STALE_DECISION_REVISION" 412)
  let decisions ← rescores.decisions.insertOr .integrity (decisionRow request decision)
  return { rescores with
    decisions := decisions
    claimHeads := rescores.claimHeads.put
      { claim.head with decisionRevision := decision.decisionRevision } }

def writeDecisions (captured : Captured) (request : Request) :
    Rescores → List Prepared → Except RescoreError Rescores
  | rescores, [] => .ok rescores
  | rescores, decision :: decisions => do
    let written ← writeDecision captured request rescores decision
    writeDecisions captured request written decisions

variable (prepared : List Prepared)

def artifactOf (run : RunRecord) (stamp : Stamp) : Artifact where
  response := makeResponse request stamp
  tenantId := request.tenantId
  runId := request.runId
  targetPack := captured.targetPack
  originalRunSnapshotSha256 := rules.hashSnapshot captured.runSnapshot
  previousRunRevision := run.revision
  previousHeads := captured.claims.map ClaimRecord.head
  decisions := prepared
  actorSub := request.userSub
  reason := request.reason
  createdAt := stamp.now

def rescoredChange (artifact : Artifact) (bumped : RunRecord) : ChangeSet where
  tenantId := request.tenantId
  runId := request.runId
  actorSub := request.userSub
  action := "run_rescored"
  targetId := artifact.response.resourceId
  beforeHash := some (rules.hashClaims captured.claims)
  afterHash := rules.hashArtifact artifact
  revision := bumped.revision
  reason := some request.reason

def appendAudit (audit : AuditStore.AuditDatabase) (change : ChangeSet) (stamp : Stamp) :
    Except RescoreError AuditStore.AuditDatabase :=
  match AuditStore.appendTransaction rules.audit audit
      ⟨change, AuditStore.readHead audit change.stream, stamp.eventId, stamp.now⟩ with
  | (.ok _, after) => .ok after
  | (.error error, _) => .error (.audit error)

def checkCaptured (run : RunRecord) : Except RescoreError Unit := do
  let claims ← claimsOf store request.runKey
  refuse (run ≠ captured.run ∨ claims ≠ captured.claims) (.rejected "STALE_RUN_REVISION" 412)
  let pack ← target store request.tenantId captured.targetPack.mode request.rulePackId
  refuse (pack ≠ captured.targetPack) (.rejected "RULE_PACK_CHANGED" 412)
  refuse (¬(prepared.map Prepared.claimId).Perm
      (captured.claims.map fun claim => claim.head.claimId))
    (.rejected "INCOMPLETE_RESCORE" 409)

def writeRescore (stamp : Stamp) (run : RunRecord) : Except RescoreError (Response × Store) := do
  let written ← writeDecisions captured request store.rest prepared
  let artifact := artifactOf rules request captured prepared run stamp
  let artifacts ← written.artifacts.insertOr .integrity artifact
  let (bumped, moved) ← (bumpRun hooks { store with rest := written } run none true).mapError .refused
  let audit ← appendAudit rules written.audit
    (rescoredChange rules request captured artifact bumped) stamp
  let replays ← written.replays.insertOr .integrity
    { tenantId := request.tenantId
      runId := request.runId
      recordId := captured.replayKey
      requestHash := captured.requestHash
      response := artifact.response }
  return (artifact.response, { moved with
    rest := { written with artifacts := artifacts, audit := audit, replays := replays } })

/-- The answer of a commit. -/
inductive Answer where
  | accepted (response : Response)
  | replayed (response : Response)
  deriving DecidableEq

def commit (stamp : Stamp) : Except RescoreError (Answer × Store) := do
  let run ← findRun hooks store request.runKey
  match ← replayed store request.tenantId captured.replayKey captured.requestHash with
  | some response => return (.replayed response, store)
  | none => do
    checkCaptured store request captured prepared run
    let (response, after) ← writeRescore rules hooks store request captured prepared stamp run
    return (.accepted response, after)

structure Keeps (before after : Store) : Prop where
  runs : RunsKept before.runs after.runs
  decisions : ∀ row ∈ before.rest.decisions, row ∈ after.rest.decisions
  artifacts : after.rest.artifacts = before.rest.artifacts
  replays : after.rest.replays = before.rest.replays

structure Writer where
  change : Store → Store
  keeps : ∀ store, Keeps store (change store)

/-- `RescoreService`. -/
inductive Call where
  | capture (request : Request)
  | commit (request : Request) (captured : Captured) (prepared : List Prepared) (stamp : Stamp)
  | other (writer : Writer)

def next : Call → Store
  | .capture _ => store
  | .commit request captured prepared stamp =>
    match commit rules hooks store request captured prepared stamp with
    | .ok (_, after) => after
    | .error _ => store
  | .other writer => writer.change store

end ProofOps.Adapters.Local.RescoreStore
