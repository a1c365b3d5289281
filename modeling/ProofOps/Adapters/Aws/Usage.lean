import ProofOps.Foundation.Checked
import ProofOps.Foundation.Machine
import ProofOps.Foundation.PyText
import ProofOps.Foundation.Totals

/-!
# The token budget store

`LocalSQLiteUsageStore`: a run has one immutable budget, and every provider call
is an attempt row that is reserved, dispatched, and settled with the usage the
provider reported, or released before it was dispatched.  Nothing is totalled in
the database: a reservation adds the rows of its run up again.
-/

namespace ProofOps.Adapters.Aws

open Foundation Foundation.PyText

/-- `BudgetExceeded`. -/
inductive Refusal where
  | notFound (message : String)
  | conflict (message : String)
  | exceeded (message : String)
  | valueError (message : String)

/-! ### Records -/

/-- `RoleLimit`. -/
structure RoleLimit where
  role : String
  (maxCalls maxInputTokens maxOutputTokens maxContextTokens : Nat)
  deriving DecidableEq

/-- `BudgetLimits`. -/
structure BudgetLimits where
  (inputTokens outputTokens : Nat)
  roles : List RoleLimit
  maxAttempts : Nat
  distinct : (roles.map RoleLimit.role).Nodup
  attempts_range : 1 ≤ maxAttempts ∧ maxAttempts ≤ 3
  deriving DecidableEq

/-- `BudgetCall`. -/
structure BudgetCall where
  (tenantId runId documentVersionId requestId : String)
  attempt : Nat
  (role modelId region modelBindingHash requestSignature : String)
  replicateId : Option Nat
  deriving DecidableEq

/-- `PricingSnapshot.to_dict`. -/
structure PricingSnapshot where
  (snapshotId modelId region capturedAt inputPerMillion outputPerMillion : String)
  (cacheReadPerMillion cacheWritePerMillion : Option String)
  deriving DecidableEq

/-- How a call ended. -/
inductive UsageStatus where
  | succeeded
  | failed
  | cancelled
  deriving DecidableEq

structure TokenUsage where
  (inputTokens outputTokens cacheReadTokens cacheWriteTokens : Option Nat)
  latencyMs : Nat
  status : UsageStatus
  (providerRequestId errorCode : Option String)
  deriving DecidableEq

structure Reservation where
  call : BudgetCall
  (inputTokens maxOutputTokens : Nat)
  pricing : Option PricingSnapshot
  createdAt : Nat
  deriving DecidableEq

structure Ledger where
  call : BudgetCall
  usage : TokenUsage
  recordedAt : Nat
  (costDecimal pricingSnapshotId pricingSnapshotHash : Option String)

/-- Why an attempt was given back. -/
structure Release where
  reason : String
  releasedAt : Nat
  responseCacheHit : Bool

/-- The states of an attempt. -/
inductive AttemptState where
  | reserved
  | dispatched
  | released
  | settled
  deriving DecidableEq

/-- A `usage_attempts` row. -/
structure Attempt where
  reservation : Reservation
  state : AttemptState
  ledger : Option Ledger
  release : Option Release

/-- `(tenant, run)`. -/
abbrev RunKey := String × String

abbrev AttemptKey := String × String × String × Nat

def BudgetCall.runKey (call : BudgetCall) : RunKey :=
  (call.tenantId, call.runId)

/-- What names an attempt. -/
def BudgetCall.key (call : BudgetCall) : AttemptKey :=
  (call.tenantId, call.runId, call.requestId, call.attempt)

/-- The call of an attempt. -/
def Attempt.call (row : Attempt) : BudgetCall :=
  row.reservation.call

def Attempt.key (row : Attempt) : AttemptKey :=
  row.call.key

/-- A `usage_runs` row. -/
structure BudgetRun where
  (tenantId runId documentVersionId : String)
  limits : BudgetLimits

def BudgetRun.key (run : BudgetRun) : RunKey :=
  (run.tenantId, run.runId)

/-- `LocalSQLiteUsageStore`. -/
structure UsageStore where
  runs : Table BudgetRun BudgetRun.key
  prices : Table PricingSnapshot PricingSnapshot.snapshotId
  attempts : Table Attempt Attempt.key

def UsageStore.initial : UsageStore where
  runs := Table.empty
  prices := Table.empty
  attempts := Table.empty

structure PriceRules where
  usageCost : TokenUsage → Option PricingSnapshot → Option String
  canonicalHash : PricingSnapshot → String

/-! ### The two kinds of tokens -/

/-- The names the token loops run over. -/
inductive TokenKind where
  | inputTokens
  | outputTokens

def TokenKind.name : TokenKind → String
  | .inputTokens => "input_tokens"
  | .outputTokens => "output_tokens"

variable (limits : BudgetLimits)

def BudgetLimits.tokens : TokenKind → Nat
  | .inputTokens => limits.inputTokens
  | .outputTokens => limits.outputTokens

def Reservation.tokens (reservation : Reservation) : TokenKind → Nat
  | .inputTokens => reservation.inputTokens
  | .outputTokens => reservation.maxOutputTokens

def TokenUsage.tokens (usage : TokenUsage) : TokenKind → Option Nat
  | .inputTokens => usage.inputTokens
  | .outputTokens => usage.outputTokens

def Attempt.actual (row : Attempt) (kind : TokenKind) : Option Nat :=
  row.ledger.bind fun ledger => ledger.usage.tokens kind

def Attempt.charge (kind : TokenKind) (row : Attempt) : Nat :=
  (row.actual kind).getD (row.reservation.tokens kind)

def Attempt.overran (row : Attempt) (kind : TokenKind) : Bool :=
  (row.actual kind).any fun actual => row.reservation.tokens kind < actual

/-- `count`. -/
def count (name : String) (value : Int) (minimum : Nat) : Except Refusal Nat :=
  if (minimum : Int) ≤ value ∧ value ≤ 2 ^ 63 - 1 then .ok value.toNat
  else .error (.valueError (name ++ " is outside the supported token/count range"))

/-- `text_field`. -/
def textField (name value : String) : Except Refusal Unit :=
  if !nonBlank value || decide (512 < value.length) then
    .error (.valueError (name ++ " must be non-empty text of at most 512 characters"))
  else
    .ok ()

variable (rules : PriceRules) (store : UsageStore)

/-- `_run`. -/
def getRun (key : RunKey) : Except Refusal BudgetRun :=
  match store.runs.find key with
  | none => .error (.notFound "run not found")
  | some run => .ok run

def getAttempt (call : BudgetCall) : Except Refusal Attempt :=
  match store.attempts.find call.key with
  | none => .error (.notFound "reservation not found")
  | some row =>
    if row.call ≠ call then .error (.conflict "reservation identity differs") else .ok row

def records (key : RunKey) : List Attempt :=
  store.attempts.rows.filter fun row => row.call.runKey = key

def createBudget (tenantId runId documentVersionId : String) (limits : BudgetLimits) :
    Except Refusal UsageStore :=
  match store.runs.find (tenantId, runId) with
  | some previous =>
    if previous.documentVersionId ≠ documentVersionId ∨ previous.limits ≠ limits then
      .error (.conflict "immutable run budget differs; automatic increases forbidden")
    else
      .ok store
  | none => do
    let runs ← store.runs.insertOr (.conflict "usage_runs") { tenantId, runId, documentVersionId, limits }
    return { store with runs := runs }

/-! ### Reserving -/

def checkRole (call : BudgetCall) (inputTokens maxOutputTokens : Nat) : Except Refusal RoleLimit :=
  match limits.roles.find? fun role => role.role = call.role with
  | none => .error (.exceeded "BUDGET_EXHAUSTED: role/context/output limit")
  | some role =>
    if role.maxInputTokens < inputTokens ∨ role.maxOutputTokens < maxOutputTokens ∨
        role.maxContextTokens < inputTokens + maxOutputTokens then
      .error (.exceeded "BUDGET_EXHAUSTED: role/context/output limit")
    else
      .ok role

def BudgetCall.retriedAs (existing call : BudgetCall) : BudgetCall :=
  { existing with attempt := call.attempt, requestSignature := call.requestSignature }

def findReservation (candidate : Reservation) : List Attempt → Except Refusal Bool
  | [] => .ok false
  | row :: rows =>
    if row.call.requestId ≠ candidate.call.requestId then findReservation candidate rows
    else if row.call.retriedAs candidate.call ≠ candidate.call then
      .error (.conflict "request identity cannot change between attempts")
    else if row.call.attempt = candidate.call.attempt then
      if { row.reservation with createdAt := candidate.createdAt } ≠ candidate then
        .error (.conflict "immutable reservation differs")
      else
        .ok true
    else findReservation candidate rows

variable (rows : List Attempt)

def checkOverrun : Except Refusal Unit :=
  if rows.any fun row => row.overran .inputTokens || row.overran .outputTokens then
    .error (.exceeded "BUDGET_EXHAUSTED: provider usage exceeded reservation")
  else
    .ok ()

variable (call : BudgetCall)

def priorAttempts : List Nat :=
  (rows.filter fun row => row.call.requestId = call.requestId).map fun row => row.call.attempt

def checkAttempt : Except Refusal Unit :=
  if limits.maxAttempts < call.attempt then
    .error (.exceeded "BUDGET_EXHAUSTED: request attempt limit")
  else if call.attempt ≠ (priorAttempts rows call).max?.getD 0 + 1 then
    .error (.conflict "attempts must be consecutive")
  else
    .ok ()

variable (row : Attempt)

def Attempt.active : Bool :=
  row.state ≠ .released

def activeCalls (role : String) : Nat :=
  ((rows.filter Attempt.active).filter fun row => row.call.role = role).length

def checkCalls (role : RoleLimit) (rows : List Attempt) (call : BudgetCall) : Except Refusal Unit :=
  if role.maxCalls ≤ activeCalls rows call.role then
    .error (.exceeded "BUDGET_EXHAUSTED: role call limit")
  else
    .ok ()

def Attempt.errorCode : Option String :=
  row.ledger.bind fun ledger => ledger.usage.errorCode

def isRetryable (errorCode : Option String) : Bool :=
  errorCode.any fun code =>
    ["MODEL_THROTTLED", "PROVIDER_5XX", "MODEL_TIMEOUT", "LLM_SCHEMA_INVALID"].contains code

def checkSettled (previous : Attempt) (call : BudgetCall) : Except Refusal Unit :=
  match previous.ledger with
  | none => .error (.conflict "previous attempt is not settled and retryable")
  | some ledger =>
    if previous.state ≠ .settled ∨ ledger.usage.status = .succeeded ∨
        isRetryable ledger.usage.errorCode = false then
      .error (.conflict "previous attempt is not settled and retryable")
    else if ledger.usage.errorCode = some "LLM_SCHEMA_INVALID" ∧
        1 < (rows.filter fun row => row.call.requestId = call.requestId ∧
          row.errorCode = some "LLM_SCHEMA_INVALID").length then
      .error (.conflict "schema repair is limited to one attempt")
    else
      .ok ()

def checkRetry : Except Refusal Unit :=
  match rows.find? fun row =>
      row.call.requestId = call.requestId ∧ row.call.attempt + 1 = call.attempt with
  | none => .ok () -- the first attempt
  | some previous =>
    if previous.call.requestSignature ≠ call.requestSignature ∧
        previous.errorCode ≠ some "LLM_SCHEMA_INVALID" then
      .error (.conflict "only schema repair may change the retry request signature")
    else if previous.state ≠ .released then checkSettled rows previous call
    else .ok ()

def used (kind : TokenKind) : Nat :=
  ((rows.filter Attempt.active).map (Attempt.charge kind)).sum

def checkTokens (kind : TokenKind) (requested : Nat) : Except Refusal Unit :=
  if limits.tokens kind ≤ used rows kind ∨ limits.tokens kind < used rows kind + requested then
    .error (.exceeded ("BUDGET_EXHAUSTED: " ++ kind.name ++ "; partial_no_silent_sampling"))
  else
    .ok ()

def insertPrice (price : Option PricingSnapshot) : Except Refusal UsageStore :=
  match price with
  | none => .ok store
  | some price =>
    match store.prices.find price.snapshotId with
    | some old =>
      if old ≠ price then
        .error (.conflict "pricing snapshot ID has different immutable content")
      else
        .ok store
    | none => do
      let prices ← store.prices.insertOr (.conflict "usage_prices") price
      return { store with prices := prices }

def checkReservation (run : BudgetRun) (role : RoleLimit) (rows : List Attempt)
    (candidate : Reservation) : Except Refusal Unit := do
  checkOverrun rows
  checkAttempt run.limits rows candidate.call
  checkCalls role rows candidate.call
  checkRetry rows candidate.call
  checkTokens run.limits rows .inputTokens candidate.inputTokens
  checkTokens run.limits rows .outputTokens candidate.maxOutputTokens

def insertReservation (candidate : Reservation) : Except Refusal UsageStore := do
  let store ← insertPrice store candidate.pricing
  let attempts ← store.attempts.insertOr (.conflict "usage_attempts")
    { reservation := candidate, state := .reserved, ledger := none, release := none }
  return { store with attempts := attempts }

def reserveCandidate (candidate : Reservation) : Except Refusal (Bool × UsageStore) := do
  let run ← getRun store candidate.call.runKey
  if run.documentVersionId ≠ candidate.call.documentVersionId then
    .error (.notFound "run not found")
  else do
    let role ← checkRole run.limits candidate.call candidate.inputTokens candidate.maxOutputTokens
    let rows := records store candidate.call.runKey
    match ← findReservation candidate rows with
    | true => return (false, store)
    | false => do
      checkReservation run role rows candidate
      let store ← insertReservation store candidate
      return (true, store)

def reserveBudget (inputTokens maxOutputTokens : Int)
    (pricing : Option PricingSnapshot) (now : Int) : Except Refusal (Bool × UsageStore) := do
  let inputTokens ← count "input_tokens" inputTokens 0
  let maxOutputTokens ← count "max_output_tokens" maxOutputTokens 1
  let createdAt ← count "now" now 0
  if pricing.any fun price => price.modelId ≠ call.modelId ∨ price.region ≠ call.region then
    .error (.valueError "pricing snapshot must match the bound model and region")
  else
    reserveCandidate store { call, inputTokens, maxOutputTokens, pricing, createdAt }

def writeAttempt : UsageStore :=
  { store with attempts := store.attempts.put row }

def markDispatched : Except Refusal (Bool × UsageStore) := do
  let row ← getAttempt store call
  if row.state ≠ .reserved then
    return (false, store)
  else do
    checkOverrun (records store call.runKey)
    return (true, writeAttempt store { row with state := .dispatched })

def repeatRelease (reason : String) (responseCacheHit : Bool) : Except Refusal UsageStore :=
  if row.release.any fun release =>
      release.reason = reason ∧ release.responseCacheHit = responseCacheHit then
    .ok store
  else
    .error (.conflict "immutable release metadata differs")

def releaseBudget (reason : String) (now : Int) (responseCacheHit : Bool) :
    Except Refusal UsageStore := do
  textField "reason" reason
  let releasedAt ← count "now" now 0
  let row ← getAttempt store call
  match row.state with
  | .released => repeatRelease store row reason responseCacheHit
  | .reserved =>
    return writeAttempt store
      { row with state := .released, release := some { reason, releasedAt, responseCacheHit } }
  | _ => .error (.conflict "dispatched usage is unknown; record it without refunding")

def ledgerOf (usage : TokenUsage) (recordedAt : Nat) : Ledger where
  call := row.call
  usage := usage
  recordedAt := recordedAt
  costDecimal := rules.usageCost usage row.reservation.pricing
  pricingSnapshotId := row.reservation.pricing.map PricingSnapshot.snapshotId
  pricingSnapshotHash := row.reservation.pricing.map rules.canonicalHash

def recordUsage (usage : TokenUsage) (now : Int) : Except Refusal (Ledger × UsageStore) := do
  let recordedAt ← count "now" now 0
  let row ← getAttempt store call
  match row.ledger with
  | some previous =>
    if previous.usage ≠ usage then .error (.conflict "immutable usage differs")
    else .ok (previous, store)
  | none =>
    if row.state ≠ .dispatched then
      .error (.conflict "usage requires a dispatched reservation")
    else
      let ledger := ledgerOf rules row usage recordedAt
      .ok (ledger, writeAttempt store { row with state := .settled, ledger := some ledger })

/-- The calls of the store. -/
inductive Call where
  | createBudget (tenantId runId documentVersionId : String) (limits : BudgetLimits)
  | reserve (call : BudgetCall) (inputTokens maxOutputTokens : Int)
      (pricing : Option PricingSnapshot) (now : Int)
  | markDispatched (call : BudgetCall)
  | release (call : BudgetCall) (reason : String) (now : Int) (responseCacheHit : Bool)
  | record (call : BudgetCall) (usage : TokenUsage) (now : Int)

/-- What they answer. -/
inductive Reply where
  | done
  | reserved (made : Bool)
  | dispatched (made : Bool)
  | recorded (ledger : Ledger)

/-- One call. -/
def perform (call : Call) : Except Refusal (Reply × UsageStore) :=
  match call with
  | .createBudget tenantId runId documentVersionId limits =>
    (createBudget store tenantId runId documentVersionId limits).map fun store => (.done, store)
  | .reserve call inputTokens maxOutputTokens pricing now =>
    (reserveBudget store call inputTokens maxOutputTokens pricing now).map
      fun made => (.reserved made.1, made.2)
  | .markDispatched call =>
    (markDispatched store call).map fun made => (.dispatched made.1, made.2)
  | .release call reason now responseCacheHit =>
    (releaseBudget store call reason now responseCacheHit).map fun store => (.done, store)
  | .record call usage now =>
    (recordUsage rules store call usage now).map fun made => (.recorded made.1, made.2)

def next (call : Call) : UsageStore :=
  match perform rules store call with
  | .ok (_, store) => store
  | .error _ => store

def reached (calls : List Call) : UsageStore :=
  Machine.after (next rules) UsageStore.initial calls

def Answers (call : Call) (reply : Reply) : Prop :=
  ∃ after, perform rules store call = .ok (reply, after)

end ProofOps.Adapters.Aws
