import ProofOps.Foundation.Checked
import ProofOps.Foundation.Decimal
import ProofOps.Foundation.Machine
import ProofOps.Foundation.Table

/-!
# The spend guard

`SpendGuard`: a sidecar database of events, runs and charges.  A call reserves its
bound before it is made and is settled with what it was charged; a call that came to
an unknown end keeps its bound.  A reservation adds the exposures of its event up
again, with the additions of the default decimal context: twenty-eight digits,
rounded half to even.  A sum beyond the largest exponent raises where this model
compares it with the cap; both refuse the reservation.
-/

namespace ProofOps.Adapters.Local.SpendGuard

open Foundation Foundation.Checked

/-- The exceptions of a spend guard. -/
inductive Refusal where
  | conflict (message : String)
  | exceeded (message : String)
  | valueError (message : String)
  | invalidOperation

inductive Numeral where
  | finite (negative : Bool) (number : Decimal)
  | special
  | malformed
  deriving DecidableEq

structure Amount where
  negative : Bool
  number : Decimal
  nonneg : negative = true → number.coefficient = 0
  deriving DecidableEq

/-- `amount`. -/
def amount (value : Numeral) : Except Refusal Amount :=
  match value with
  | .finite negative number =>
    if h : negative = true → number.coefficient = 0 then .ok ⟨negative, number, h⟩
    else .error (.valueError "INVALID_SPEND_AMOUNT")
  | .special => .error (.valueError "INVALID_SPEND_AMOUNT")
  | .malformed => .error .invalidOperation

/-- An `events` row. -/
structure SpendEvent where
  id : String
  (daily cap : Amount)
  deriving DecidableEq

structure SpendRun where
  (id event day : String)
  cap : Amount
  group : Option (String × Amount)
  deriving DecidableEq

inductive ChargeState where
  | reserved
  | settled
  | uncertain
  deriving DecidableEq

/-- A `charges` row. -/
structure Charge where
  (id run provider : String)
  (bound exposure : Amount)
  state : ChargeState

structure SpendStore where
  events : Table SpendEvent SpendEvent.id
  runs : Table SpendRun SpendRun.id
  charges : Table Charge Charge.id

def SpendStore.initial : SpendStore where
  events := Table.empty
  runs := Table.empty
  charges := Table.empty

def insertOrIgnore {α κ : Type} [DecidableEq κ] {key : α → κ} (table : Table α key) (row : α) :
    Table α key :=
  (table.insert? row).getD table

variable (store : SpendStore) (eventId : String)

/-- `SpendGuard`. -/
def openGuard (dailyLimit eventLimit : Numeral) : Except Refusal SpendStore := do
  let daily ← amount dailyLimit
  let cap ← amount eventLimit
  if (store.events.find eventId).any fun old => old ≠ { id := eventId, daily, cap } then
    .error (.conflict "SPEND_POLICY_CHANGED")
  else
    return { store with events := insertOrIgnore store.events { id := eventId, daily, cap } }

def groupAmount (groupLimit : Option Numeral) : Except Refusal (Option Amount) :=
  match groupLimit with
  | none => .ok none
  | some limit => (amount limit).map some

def pairGroup (group : Option String) (limit : Option Amount) :
    Except Refusal (Option (String × Amount)) :=
  match group, limit with
  | none, none => .ok none
  | some group, some limit => .ok (some (group, limit))
  | _, _ => .error (.valueError "INVALID_SPEND_GROUP")

def groupDiffers (pin : SpendRun) : Bool :=
  pin.group.any fun named => store.runs.rows.any fun run =>
    run.event = pin.event && run.group.any fun other => other.1 = named.1 && other.2 ≠ named.2

def pinRun (runId day : String) (runLimit : Numeral) (group : Option String)
    (groupLimit : Option Numeral) : Except Refusal SpendRun := do
  let cap ← amount runLimit
  let limit ← groupAmount groupLimit
  if day = "" ∨ runId = "" ∨ Decimal.lt Decimal.zero cap.number = false ∨
      Decimal.lt ⟨1, 0⟩ cap.number = true then
    .error (.valueError "INVALID_SPEND_RUN")
  else do
    let group ← pairGroup group limit
    return { id := runId, event := eventId, day, cap, group }

def configureRun (runId day : String) (runLimit : Numeral) (group : Option String)
    (groupLimit : Option Numeral) : Except Refusal SpendStore := do
  let pin ← pinRun eventId runId day runLimit group groupLimit
  if (store.runs.find runId).any fun old => old ≠ pin then
    .error (.conflict "SPEND_RUN_CHANGED")
  else if groupDiffers store pin then
    .error (.conflict "SPEND_GROUP_CHANGED")
  else
    return { store with runs := insertOrIgnore store.runs pin }

/-! ### Reserving -/

def chargeRun (charge : Charge) : Option SpendRun :=
  store.runs.find charge.run

def exposures (test : SpendRun → Bool) : List Decimal :=
  (store.charges.rows.filter fun charge => (chargeRun store charge).any test).map
    fun charge => charge.exposure.number

inductive Scope where
  | event (id : String)
  | day (event day : String)
  | run (event id : String)
  | group (event id : String)

def Scope.holds (scope : Scope) (run : SpendRun) : Bool :=
  match scope with
  | .event id => run.event = id
  | .day eventId date => run.event = eventId && run.day = date
  | .run eventId id => run.event = eventId && run.id = id
  | .group eventId id => run.event = eventId && run.group.any fun named => named.1 = id

def overCap (scope : Scope) (bound : Amount) (cap : Amount) : Bool :=
  Decimal.lt cap.number
    (Decimal.add Decimal.standard (Decimal.sum Decimal.standard (exposures store scope.holds)) bound.number)

def capsOf (event : SpendEvent) (run : SpendRun) : List (Scope × Amount) :=
  [(.event event.id, event.cap), (.day event.id run.day, event.daily),
    (.run event.id run.id, run.cap)] ++
    (run.group.map fun named => (.group event.id named.1, named.2)).toList

def findRun (runId : String) : Except Refusal (SpendEvent × SpendRun) :=
  match (store.runs.find runId).filter fun run => run.event = eventId with
  | none => .error (.valueError "SPEND_RUN_NOT_CONFIGURED")
  | some run =>
    match store.events.find eventId with
    | none => .error (.valueError "cannot unpack non-iterable NoneType object")
    | some event => .ok (event, run)

def Charge.reserved (id run provider : String) (bound : Amount) : Charge where
  id := id
  run := run
  provider := provider
  bound := bound
  exposure := bound
  state := .reserved

variable (eventId runId provider requestId : String)

def reserveNew (bound : Amount) : Except Refusal SpendStore := do
  let (event, run) ← findRun store eventId runId
  if (capsOf event run).any fun (scope, cap) => overCap store scope bound cap then
    .error (.exceeded "BUDGET_EXHAUSTED")
  else do
    let charges ← store.charges.insertOr (.conflict "charges")
      (Charge.reserved requestId runId provider bound)
    return { store with charges := charges }

/-- `SpendGuard.reserve`. -/
def reserve (bound : Numeral) : Except Refusal SpendStore := do
  let bound ← amount bound
  if Decimal.lt Decimal.zero bound.number = false then
    .error (.valueError "INVALID_SPEND_BOUND")
  else
    match store.charges.find requestId with
    | some old =>
      if old.run ≠ runId ∨ old.provider ≠ provider ∨ old.bound ≠ bound then
        .error (.conflict "SPEND_REQUEST_CHANGED")
      else
        .error (.valueError "SPEND_DUPLICATE_OR_UNCERTAIN_DISPATCH")
    | none => reserveNew store eventId runId provider requestId bound

def settlement (row : Charge) (charged : Option Numeral) :
    Except Refusal (Amount × ChargeState) :=
  match charged with
  | none => .ok (row.bound, .uncertain)
  | some value => (amount value).map fun exposure => (exposure, .settled)

/-- `SpendGuard.settle`. -/
def settle (requestId : String) (charged : Option Numeral) : Except Refusal SpendStore :=
  match store.charges.find requestId with
  | none => .error (.conflict "SPEND_RESERVATION_MISSING")
  | some row => do
    let (exposure, state) ← settlement row charged
    if Decimal.lt row.bound.number exposure.number then
      .error (.conflict "SPEND_BOUND_EXCEEDED")
    else if row.state ≠ .reserved ∧ (row.exposure, row.state) ≠ (exposure, state) then
      .error (.conflict "SPEND_SETTLEMENT_CHANGED")
    else
      return { store with charges := store.charges.put { row with exposure, state } }

inductive Call where
  | openGuard (eventId : String) (dailyLimit eventLimit : Numeral)
  | configureRun (eventId runId day : String) (runLimit : Numeral) (group : Option String)
      (groupLimit : Option Numeral)
  | reserve (eventId runId provider requestId : String) (bound : Numeral)
  | settle (requestId : String) (charged : Option Numeral)

def perform (call : Call) : Except Refusal SpendStore :=
  match call with
  | .openGuard eventId dailyLimit eventLimit => openGuard store eventId dailyLimit eventLimit
  | .configureRun eventId runId day runLimit group groupLimit =>
    configureRun store eventId runId day runLimit group groupLimit
  | .reserve eventId runId provider requestId bound =>
    reserve store eventId runId provider requestId bound
  | .settle requestId charged => settle store requestId charged

def next (call : Call) : SpendStore :=
  match perform store call with
  | .ok store => store
  | .error _ => store

def reached (calls : List Call) : SpendStore :=
  Machine.after next SpendStore.initial calls

def ledgerCharge (row : Option (Numeral × Bool)) : Option Numeral :=
  match row with
  | some (committed, true) => some committed
  | some (_, false) => none
  | none => some (.finite false Decimal.zero)

/-- `SpendGuard.guarded`. -/
def guarded (bound : Numeral) (row : Option (Numeral × Bool)) : List Call :=
  [.reserve eventId runId provider (provider ++ ":" ++ requestId) bound,
    .settle (provider ++ ":" ++ requestId) (ledgerCharge row)]

end ProofOps.Adapters.Local.SpendGuard
