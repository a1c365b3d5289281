import ProofOps.Foundation.Table

/-!
# Model responses

`model_response_cache` under `OpenAI.complete`: calls of any number of processes share one cache.
A call claims its key with a pending marker, reserves and dispatches, and settles; then it keeps
the origin of a valid response and publishes it, or it releases its marker.  The marker, the
ledger row and the origin file are written at different moments, so a call is a sequence of
steps, each of them one transaction, one file or one request, and it may stop between any two.

The choices of a step are the environment's: what the provider answers, where an exception
is raised and where a process stops.
-/

namespace ProofOps.Adapters.Local.ModelResponses

open Foundation

/-! ### Records -/

structure ResponseRequest where
  role : String
  replica : Int
  (wireSha256 schemaSha256 policySha256 : String)
  deriving DecidableEq

structure CallInfo where
  (ledger requestId : String)
  request : ResponseRequest

/-- `response_reuse`. -/
structure Reuse where
  (key role : String)
  replica : Int
  (sourceRequestId sourceReceiptSha256 : String)
  sourceResponseSha256 : Option String
  deriving DecidableEq

structure Receipt where
  requestId : String
  schemaValid : Bool
  costWithVatReserveUsd : String
  responseSha256 : Option String
  attempts : Nat
  responseRequest : Option ResponseRequest
  dispatchState : Option String
  responseReuse : Option Reuse
  deriving DecidableEq

/-- What a call returns. -/
structure Result where
  receipt : Receipt
  content : String
  deriving DecidableEq

/-- `ModelResponseCache`. -/
structure Data where
  id : String
  content : Option String
  deriving DecidableEq

inductive Place where
  | ledger (path : String)
  | origin (key : String)

structure CacheRow where
  key : String
  place : Place
  requestId : String
  payload : Option (Result × String)

structure LedgerRow where
  (ledger requestId signature committed : String)
  receipt : Option Receipt

def LedgerRow.key (row : LedgerRow) : String × String :=
  (row.ledger, row.requestId)

/-- A reply as it was stored. -/
structure ResponseFile where
  (ledger requestId : String)
  attempt : Nat
  data : Data

def ResponseFile.key (file : ResponseFile) : String × String × Nat :=
  (file.ledger, file.requestId, file.attempt)

structure Origin where
  key : String
  receipt : Receipt
  (receiptSha256 wireSha256 : String)
  data : Data

/-- The digests, which are parameters. -/
structure Rules where
  keyOf : ResponseRequest → String
  resultHash : Result → String
  receiptHash : Receipt → String
  dataHash : Data → String
  reservationUsd : String

/-! ### Calls under way -/

inductive Phase where
  | ready
  | hit (source : Result) (receiptSha256 : String)
  | claimed
  | reserved (attempts : Nat)
  | awaiting (attempts : Nat)
  | answered (attempts : Nat) (data : Data) (valid : Bool)
  | settled (result : Result)
  | stored (result : Result)
  | failed
  | releasing (result : Option Result)
  | returned (result : Result)
  | raised
  | crashed
  deriving DecidableEq

inductive Choice where
  | look
  | record
  | reserve
  | send
  | reply (data : Data) (valid : Bool)
  | neverSent
  | settle (cost : String)
  | keepOrigin
  | publish
  | release
  | delete
  | fail
  | crash
  deriving DecidableEq

/-- `OpenAIProbe`. -/
structure State where
  phases : Nat → Phase
  cache : Table CacheRow CacheRow.key
  ledgers : Table LedgerRow LedgerRow.key
  files : Table ResponseFile ResponseFile.key
  origins : Table Origin Origin.key
  provider : List Nat

/-- No call has begun. -/
def State.initial : State where
  phases := fun _ => .ready
  cache := Table.empty
  ledgers := Table.empty
  files := Table.empty
  origins := Table.empty
  provider := []

def State.enter (state : State) (id : Nat) (phase : Phase) : State :=
  { state with phases := Function.update state.phases id phase }

section Steps

variable (rules : Rules) (calls : Nat → CallInfo)

def keyOf (id : Nat) : String :=
  rules.keyOf (calls id).request

def ledgerKey (id : Nat) : String × String :=
  ((calls id).ledger, (calls id).requestId)

/-- What the original of a result says. -/
structure Original where
  cost : String
  receipt : Receipt
  wireSha256 : String
  data : Data

variable (state : State)

/-- The original at a place. -/
def readOriginal : Place → String → Option Original
  | .origin key, _ => do
    let origin ← state.origins.find key
    guard (rules.receiptHash origin.receipt = origin.receiptSha256)
    return {
      cost := origin.receipt.costWithVatReserveUsd
      receipt := origin.receipt
      wireSha256 := origin.wireSha256
      data := origin.data }
  | .ledger path, requestId => do
    let row ← state.ledgers.find (path, requestId)
    let receipt ← row.receipt
    let file ← state.files.find (path, requestId, receipt.attempts - 1)
    return {
      cost := row.committed
      receipt := receipt
      wireSha256 := row.signature
      data := file.data }

/-- The result is what the original says. -/
structure Agrees (key : String) (result : Result) (original : Original) : Prop where
  valid : result.receipt.schemaValid = true
  key : original.receipt.responseRequest.map rules.keyOf = some key
  wire : original.receipt.responseRequest.map ResponseRequest.wireSha256 = some original.wireSha256
  receipt : original.receipt = result.receipt
  cost : original.cost = original.receipt.costWithVatReserveUsd
  data : some (rules.dataHash original.data) = original.receipt.responseSha256
  content : original.data.content = some result.content

instance (key : String) (result : Result) (original : Original) :
    Decidable (Agrees rules key result original) :=
  decidable_of_iff (result.receipt.schemaValid = true ∧
    original.receipt.responseRequest.map rules.keyOf = some key ∧
    original.receipt.responseRequest.map ResponseRequest.wireSha256 = some original.wireSha256 ∧
    original.receipt = result.receipt ∧ original.cost = original.receipt.costWithVatReserveUsd ∧
    some (rules.dataHash original.data) = original.receipt.responseSha256 ∧
    original.data.content = some result.content)
    ⟨fun ⟨h1, h2, h3, h4, h5, h6, h7⟩ => ⟨h1, h2, h3, h4, h5, h6, h7⟩,
      fun ⟨h1, h2, h3, h4, h5, h6, h7⟩ => ⟨h1, h2, h3, h4, h5, h6, h7⟩⟩

def verified (key : String) (place : Place) (requestId : String) (result : Result)
    (digest : String) : Option String :=
  (readOriginal rules state place requestId).bind fun original =>
    if rules.resultHash result = digest ∧ Agrees rules key result original then
      some (rules.receiptHash original.receipt)
    else none

/-! ### Steps -/

variable (id : Nat)

def marker : CacheRow where
  key := keyOf rules calls id
  place := .ledger (calls id).ledger
  requestId := (calls id).requestId
  payload := none

def hasReplica : Bool :=
  (calls id).request.role = "extract" || [1, 2, 3].contains (calls id).request.replica

def look : State :=
  if hasReplica calls id = false ∨ (state.ledgers.find (ledgerKey calls id)).isSome then
    state.enter id .raised
  else
    match state.cache.find (keyOf rules calls id) with
    | none =>
      match state.cache.insert? (marker rules calls id) with
      | some cache => { state.enter id .claimed with cache := cache }
      | none => state
    | some row =>
      match row.payload with
      -- Another call has the marker: the loop goes on until its deadline.
      | none => state
      | some (result, digest) =>
        match verified rules state row.key row.place row.requestId result digest with
        | some receiptSha256 => state.enter id (.hit result receiptSha256)
        | none => state.enter id .raised

def reused (source : Result) (receiptSha256 : String) : Result where
  receipt :=
    { source.receipt with
      requestId := (calls id).requestId
      costWithVatReserveUsd := "0"
      attempts := 0
      responseReuse := some
        { key := keyOf rules calls id
          role := (calls id).request.role
          replica := (calls id).request.replica
          sourceRequestId := source.receipt.requestId
          sourceReceiptSha256 := receiptSha256
          sourceResponseSha256 := source.receipt.responseSha256 } }
  content := source.content

def record (source : Result) (receiptSha256 : String) : State :=
  let result := reused rules calls id source receiptSha256
  match state.ledgers.insert?
      { ledger := (calls id).ledger
        requestId := (calls id).requestId
        signature := (calls id).request.wireSha256
        committed := "0"
        receipt := some result.receipt } with
  | some ledgers => { state.enter id (.returned result) with ledgers := ledgers }
  | none => state.enter id .raised

def reserve (state : State) (id : Nat) : State :=
  match state.ledgers.insert?
      { ledger := (calls id).ledger
        requestId := (calls id).requestId
        signature := (calls id).request.wireSha256
        committed := rules.reservationUsd
        receipt := none } with
  | some ledgers => { state.enter id (.reserved 0) with ledgers := ledgers }
  | none => state.enter id .failed

/-- `OpenAIProbe._post`. -/
def send (id attempts : Nat) : State :=
  if attempts < 2 then
    { state.enter id (.awaiting attempts) with provider := state.provider ++ [id] }
  else state

def reply (id attempts : Nat) (data : Data) (valid : Bool) : State :=
  match state.files.insert?
      { ledger := (calls id).ledger
        requestId := (calls id).requestId
        attempt := attempts
        data := data } with
  | none => state.enter id .failed
  | some files =>
    if data.content = none then { state.enter id .failed with files := files }
    else if valid = true ∨ attempts = 1 then
      { state.enter id (.answered (attempts + 1) data valid) with files := files }
    else { state.enter id (.reserved (attempts + 1)) with files := files }

def neverSentReceipt : Receipt where
  requestId := (calls id).requestId
  schemaValid := false
  costWithVatReserveUsd := "0"
  responseSha256 := none
  attempts := 0
  responseRequest := none
  dispatchState := some "never_sent"
  responseReuse := none

def settledRow (cost : String) (receipt : Receipt) : LedgerRow where
  ledger := (calls id).ledger
  requestId := (calls id).requestId
  signature := (calls id).request.wireSha256
  committed := cost
  receipt := some receipt

def settleRow (cost : String) (receipt : Receipt) : Option (Table LedgerRow LedgerRow.key) :=
  match state.ledgers.find (ledgerKey calls id) with
  | some row =>
    if row.receipt = none then some (state.ledgers.put (settledRow calls id cost receipt))
    else none
  | none => none

def neverSent : State :=
  match settleRow calls state id "0" (neverSentReceipt calls id) with
  | some ledgers => { state.enter id .failed with ledgers := ledgers }
  | none => state.enter id .failed

/-- The result of a reply. -/
def settledResult (id attempts : Nat) (data : Data) (valid : Bool) (cost : String) : Result where
  receipt :=
    { requestId := (calls id).requestId
      schemaValid := valid
      costWithVatReserveUsd := cost
      responseSha256 := some (rules.dataHash data)
      attempts := attempts
      responseRequest := some (calls id).request
      dispatchState := none
      responseReuse := none }
  content := data.content.getD ""

def settle (state : State) (id attempts : Nat) (data : Data) (valid : Bool) (cost : String) :
    State :=
  let result := settledResult rules calls id attempts data valid cost
  match settleRow calls state id cost result.receipt with
  | some ledgers => { state.enter id (.settled result) with ledgers := ledgers }
  | none => state.enter id .failed

def pendingRow (key : String) : Option CacheRow :=
  (state.cache.find key).bind fun row => if row.payload = none then some row else none

def originOf (key : String) (row : CacheRow) (result : Result) : Option Origin := do
  let _ ← verified rules state key row.place row.requestId result (rules.resultHash result)
  let original ← readOriginal rules state row.place row.requestId
  return {
    key := key
    receipt := result.receipt
    receiptSha256 := rules.receiptHash result.receipt
    wireSha256 := original.wireSha256
    data := original.data }

def keepOrigin (result : Result) : State :=
  let key := keyOf rules calls id
  let origins := do
    let row ← pendingRow state key
    let origin ← originOf rules state key row result
    state.origins.insert? origin
  match origins with
  | some origins => { state.enter id (.stored result) with origins := origins }
  | none => state.enter id .failed

def publish (result : Result) : State :=
  let key := keyOf rules calls id
  match pendingRow state key with
  | some row =>
    { state.enter id (.returned result) with
      cache := state.cache.put
        { row with place := .origin key, payload := some (result, rules.resultHash result) } }
  | none => state.enter id .failed

def isReleasable : Bool :=
  match state.ledgers.find (ledgerKey calls id) with
  | none => true
  | some row => row.receipt.any fun receipt => !receipt.schemaValid

def ended : Option Result → Phase
  | some result => .returned result
  | none => .raised

def release (result : Option Result) : State :=
  state.enter id (if isReleasable calls state id then .releasing result else ended result)

def deleteMarker (result : Option Result) : State :=
  { state.enter id (ended result) with
    cache := state.cache.delete fun row =>
      decide (row.key = keyOf rules calls id ∧ row.payload = none) }

def afterException : Phase → Phase
  | .ready | .hit _ _ | .failed | .releasing none => .raised
  | .claimed | .reserved _ | .awaiting _ | .answered _ _ _ | .settled _ | .stored _
    | .releasing (some _) => .failed
  | phase => phase

def afterCrash : Phase → Phase
  | .returned result => .returned result
  | .raised => .raised
  | _ => .crashed

/-- `OpenAIProbe.complete`. -/
def next (step : Nat × Choice) : State :=
  let id := step.1
  match state.phases id, step.2 with
  | phase, .crash => state.enter id (afterCrash phase)
  | phase, .fail => state.enter id (afterException phase)
  | .ready, .look => look rules calls state id
  | .hit source receiptSha256, .record => record rules calls state id source receiptSha256
  | .claimed, .reserve => reserve rules calls state id
  | .reserved attempts, .send => send state id attempts
  | .reserved 0, .neverSent => neverSent calls state id
  | .awaiting attempts, .reply data valid => reply calls state id attempts data valid
  | .answered attempts data valid, .settle cost =>
    settle rules calls state id attempts data valid cost
  | .settled result, .keepOrigin =>
    if result.receipt.schemaValid then keepOrigin rules calls state id result else state
  | .stored result, .publish => publish rules calls state id result
  | .settled result, .release =>
    if result.receipt.schemaValid then state else release calls state id (some result)
  | .failed, .release => release calls state id none
  | .releasing result, .delete => deleteMarker rules calls state id result
  | _, _ => state

end Steps

end ProofOps.Adapters.Local.ModelResponses
