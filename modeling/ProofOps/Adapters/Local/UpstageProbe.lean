import ProofOps.Adapters.Local.SpendGuard
import ProofOps.Application.Budget
import ProofOps.Foundation.JsonText
import ProofOps.Foundation.PyJson

/-!
# The probe and its ledger

`UpstageProbe` reserves one dollar in an SQLite ledger before each request and settles the call to
its cost.  The limit of the ledger and the sum of its calls are computed anew from all rows in
every transaction, and a row that does not pass its checks makes the whole ledger invalid.  The
text columns of amounts and of receipts are represented by what `Decimal` and `json.loads` read in
them, `authorized_at` by what `fromisoformat` reads; the reason of an extension is the text itself.
A ledger of the probe has none of the tables that other transports add.
-/

namespace ProofOps.Adapters.Local.UpstageProbe

open Foundation Foundation.PyJson
open SpendGuard (Numeral)

/-! ### Prices and policy -/

structure PricingSnapshot where
  (snapshotId modelId region capturedAt : String)
  (inputPerMillion outputPerMillion : Decimal)

/-- `UpstageProbe.model`. -/
inductive Model where
  | pro3
  | pro4

def Model.name : Model → String
  | .pro3 => "solar-pro3"
  | .pro4 => "solar-pro4"

def Model.allowed : Model → List String
  | .pro3 => ["solar-pro3", "solar-pro3-260323"]
  | .pro4 => ["solar-pro4", "solar-pro4-260806"]

/-- `_PRICES`. -/
def Model.price : Model → PricingSnapshot
  | .pro3 =>
    { snapshotId := "upstage-solar-pro3-2026-09-09"
      modelId := "solar-pro3"
      region := "provider-managed-unverified"
      capturedAt := "2026-09-09T00:00:00Z"
      inputPerMillion := ⟨15, -2⟩
      outputPerMillion := ⟨60, -2⟩ }
  | .pro4 =>
    { snapshotId := "upstage-solar-pro4-2026-09-12"
      modelId := "solar-pro4"
      region := "provider-managed-unverified"
      capturedAt := "2026-09-12T00:00:00Z"
      inputPerMillion := ⟨30, -2⟩
      outputPerMillion := ⟨120, -2⟩ }

def policyText : String :=
  "\x7b\"limit_usd\": \"10.00\", \"max_output_tokens\": 4096, \"max_request_bytes\": 16384, " ++
  "\"price\": \x7b\"cache_read_per_million\": null, \"cache_write_per_million\": null, " ++
  "\"captured_at\": \"2026-09-09T00:00:00Z\", \"input_per_million\": \"0.15\", " ++
  "\"model_id\": \"solar-pro3\", \"output_per_million\": \"0.60\", " ++
  "\"region\": \"provider-managed-unverified\", " ++
  "\"snapshot_id\": \"upstage-solar-pro3-2026-09-09\"\x7d, " ++
  "\"reservation_usd\": \"1.00\", \"vat_allowance\": \"1.10\"\x7d"

/-- `POLICY["limit_usd"]`. -/
def limitUsd : Decimal := ⟨1000, -2⟩

def reservationUsd : Decimal := ⟨100, -2⟩

def generalCeilingUsd : Decimal := ⟨3000, -2⟩

def r32HistoricalGeneralUsd : Decimal := ⟨2000, -2⟩

def recordedGeneralReason : String :=
  "User 2026-09-18 approved additional USD10, cumulative USD20; " ++
  "existing spend and unsettled reservations preserved."

def r32Reason : String :=
  "2026-09-24 user: 이번 평가용 누적 $22 승인; R32 Samsung/Kakao/Hana " ++
  "fixed-report evaluation only; cumulative USD22 including prior reservations; " ++
  "no unrelated runs."

/-- What `datetime.fromisoformat` reads. -/
structure Timestamp where
  micros : Int
  offset : Option Int

/-- A `probe_extensions` row. -/
structure Extension where
  id : Nat
  additionalUsd : Numeral
  reason : String
  authorizedAt : Option Timestamp

structure Receipt where
  model : String
  providerRequestId : Option String
  providerModel : String
  (inputTokens outputTokens : Nat)
  priceSnapshot : PricingSnapshot
  costWithVatReserveUsd : Numeral
  responseSha256 : String
  jsonMode : Bool

/-- A `probe_calls` row. -/
structure CallRow where
  (requestId signature : String)
  committed : Numeral
  receipt : Option Receipt

/-- `UpstageProbe`. -/
structure Ledger where
  policy : Option String
  extensions : List Extension
  sequence : Nat
  calls : Table CallRow CallRow.requestId

def Ledger.initial : Ledger where
  policy := some policyText
  extensions := []
  sequence := 0
  calls := Table.empty

/-! ### The limit -/

def positiveAmount : Numeral → Option Decimal
  | .finite false number => if number.coefficient = 0 then none else some number
  | .finite true _ | .special | .malformed => none

def storedReason (reason : String) : String :=
  "\x7b\"reason\":\"" ++ String.ofList (JsonText.escaped reason.toList) ++
    "\",\"scope\":\"general\"\x7d"

def generalReason (text : String) : Option String :=
  let head := "\x7b\"reason\":\"".toList
  let tail := "\",\"scope\":\"general\"\x7d".toList
  if head.isPrefixOf text.toList && tail.isSuffixOf text.toList then
    (JsonText.unescaped ((text.toList.drop head.length).rdrop tail.length)).map String.ofList
  else none

def canonicalGeneral (text : String) : Bool :=
  match generalReason text with
  | some reason => PyText.nonBlank reason && text = storedReason reason
  | none => false

structure Grants where
  general : Decimal
  scopedCount : Nat

def grantScoped (grants : Grants) (id : Nat) (amount : Decimal) : Option Grants :=
  if id = 2 ∧ Decimal.same amount ⟨200, -2⟩ ∧ grants.scopedCount = 0 ∧
      Decimal.same grants.general r32HistoricalGeneralUsd then
    some { grants with scopedCount := grants.scopedCount + 1 }
  else none

def grantGeneral (grants : Grants) (id : Nat) (amount : Decimal) (reason : String) :
    Option Grants :=
  let canonical := canonicalGeneral reason
  let recorded := id = 1 ∧ Decimal.same amount ⟨1000, -2⟩ ∧ reason = recordedGeneralReason
  let general := Decimal.add Decimal.standard grants.general amount
  if ¬(canonical ∨ recorded) ∨
      (grants.scopedCount ≠ 0 ∧ (id ≠ 3 ∨ Decimal.same amount ⟨1000, -2⟩ = false ∨ ¬canonical)) then none
  else if Decimal.lt generalCeilingUsd general then none
  else some { grants with general := general }

def grantNext (grants : Grants) (extension : Extension) : Option Grants :=
  match positiveAmount extension.additionalUsd with
  | none => none
  | some amount =>
    if PyText.nonBlank extension.reason = false ∨ 512 < extension.reason.length ∨
        (extension.authorizedAt.bind Timestamp.offset).isNone then none
    else if extension.reason = r32Reason then grantScoped grants extension.id amount
    else grantGeneral grants extension.id amount extension.reason

variable (ledger : Ledger)

def authorizedLimit : Option Decimal :=
  if ledger.policy = some policyText then
    (ledger.extensions.foldlM grantNext ⟨limitUsd, 0⟩).map Grants.general
  else none

def sameNumeral : Numeral → Numeral → Bool
  | .finite negative number, .finite negative' number' =>
    Decimal.same number number' && (negative = negative' || number.coefficient = 0)
  | _, _ => false

def CallRow.amount (row : CallRow) : Option Decimal :=
  match row.committed with
  | .finite negative number =>
    if (negative && number.coefficient ≠ 0) || Decimal.lt reservationUsd number then none
    else
      match row.receipt with
      | none => if Decimal.same number reservationUsd then some number else none
      | some receipt =>
        if sameNumeral receipt.costWithVatReserveUsd row.committed then some number else none
  | .special | .malformed => none

def callTotal : Option Decimal :=
  (ledger.calls.rows.mapM CallRow.amount).map (Decimal.sum Decimal.standard)

/-- A request to the provider. -/
structure Request where
  model : Model
  (system userJson requestId : String)
  maxTokens : Int
  jsonMode : Bool

structure Rules where
  signature : Request → String
  bodyBytes : Request → Nat
  responseHash : Json → String

def requestBody (rules : Rules) (request : Request) (expired : Bool) : Except String Unit :=
  if expired then .error "PRICE_RECHECK_REQUIRED"
  else if ¬(1 ≤ request.requestId.length ∧ request.requestId.length ≤ 128 ∧
      1 ≤ request.maxTokens ∧ request.maxTokens ≤ 4096) then .error "INVALID_PROBE_REQUEST"
  else if 16384 < rules.bodyBytes request then .error "PROBE_REQUEST_TOO_LARGE"
  else .ok ()

variable (amount : Decimal)

def addBucket (tokens : Nat) (rate : Decimal) : Decimal :=
  if tokens = 0 then amount
  else Decimal.add Decimal.wide amount (Application.Budget.rateCost tokens rate)

def usageCost (price : PricingSnapshot) (inputTokens outputTokens : Nat) : Decimal :=
  Decimal.fixed (addBucket (addBucket Decimal.zero inputTokens price.inputPerMillion) outputTokens
    price.outputPerMillion)

def costOf (model : Model) (inputTokens outputTokens : Nat) : Decimal :=
  Decimal.times Decimal.standard (usageCost model.price inputTokens outputTokens) ⟨110, -2⟩

def field (data : Json) (key : String) : Option Json :=
  match data with
  | .obj fields => Fields.get fields key
  | _ => none

/-- `count`. -/
def tokenCount : Json → Option Nat
  | .int tokens => if 0 ≤ tokens ∧ tokens ≤ 2 ^ 63 - 1 then some tokens.toNat else none
  | _ => none

def providerId : Json → Option (Option String)
  | .null => some none
  | .str id => if PyText.nonBlank id = true ∧ id.length ≤ 512 then some (some id) else none
  | _ => none

/-- `data["choices"][0]`. -/
def firstChoice (data : Json) : Option Json :=
  match field data "choices" with
  | some (.arr (choice :: _)) => some choice
  | _ => none

/-- A text field. -/
def text : Json → Option String
  | .str value => some value
  | _ => none

def content (choice : Json) : Option String := do
  let message ← field choice "message"
  let value ← (field message "content").bind text
  guard (field choice "finish_reason" = some (.str "stop"))
  guard (PyText.nonBlank value)
  return value

def receiptOf (rules : Rules) (request : Request) (data : Json) : Option (Receipt × String) := do
  let native ← field data "usage"
  let inputTokens ← (field native "prompt_tokens").bind tokenCount
  let outputTokens ← (field native "completion_tokens").bind tokenCount
  let providerRequestId ← (field data "id").bind providerId
  let choice ← firstChoice data
  let value ← content choice
  let providerModel ← (field data "model").bind text
  let cost := costOf request.model inputTokens outputTokens
  guard (providerModel ∈ request.model.allowed)
  guard ((outputTokens : Int) ≤ request.maxTokens)
  guard (Decimal.lt ⟨100, -2⟩ cost = false)
  return ({
    model := request.model.name
    providerRequestId := providerRequestId
    providerModel := providerModel
    inputTokens := inputTokens
    outputTokens := outputTokens
    priceSnapshot := request.model.price
    costWithVatReserveUsd := .finite false cost
    responseSha256 := rules.responseHash data
    jsonMode := request.jsonMode }, value)

def reservedRow (rules : Rules) (request : Request) : CallRow where
  requestId := request.requestId
  signature := rules.signature request
  committed := .finite false reservationUsd
  receipt := none

/-- `UpstageProbe._reserve`. -/
def reserve (rules : Rules) (ledger : Ledger) (request : Request) : Except String Ledger :=
  match authorizedLimit ledger with
  | none => .error "BUDGET_POLICY_MISMATCH"
  | some limit =>
    match ledger.calls.insert? (reservedRow rules request) with
    | none => .error "DUPLICATE_PROBE_REQUEST"
    | some calls =>
      match callTotal ledger with
      | none => .error "BUDGET_LEDGER_INVALID"
      | some total =>
        if Decimal.lt limit (Decimal.add Decimal.standard total reservationUsd) then
          .error "BUDGET_EXHAUSTED"
        else .ok { ledger with calls := calls }

/-- `UpstageProbe._settle`. -/
def settle (requestId : String) (receipt : Receipt) : Except String Ledger :=
  match ledger.calls.find requestId with
  | some row =>
    if row.receipt = none ∧ row.committed = .finite false reservationUsd then
      .ok { ledger with
        calls := ledger.calls.put
          { row with committed := receipt.costWithVatReserveUsd, receipt := some receipt } }
    else .error "BUDGET_SETTLEMENT_INVALID"
  | none => .error "BUDGET_SETTLEMENT_INVALID"

structure Additional where
  amount : Option Numeral
  reason : Option String
  now : Int

def extensionOf (reason : String) (now : Int) : Extension where
  id := ledger.sequence + 1
  additionalUsd := .finite false (Decimal.fixed amount)
  reason := storedReason reason
  authorizedAt := some ⟨now, some 0⟩

def extend (reason : String) (now : Int) : Except String Ledger :=
  match authorizedLimit ledger with
  | none => .error "BUDGET_POLICY_MISMATCH"
  | some current =>
    if Decimal.lt generalCeilingUsd (Decimal.add Decimal.standard current amount) then
      .error "AUTHORIZATION_EXCEEDS_CEILING"
    else
      let extended := { ledger with
        extensions := ledger.extensions ++ [extensionOf ledger amount reason now]
        sequence := ledger.sequence + 1 }
      match authorizedLimit extended with
      | none => .error "BUDGET_POLICY_MISMATCH"
      | some _ => .ok extended

def authorizeAdditionalBudget (additional : Additional) : Except String Ledger :=
  match additional.amount, additional.reason with
  | none, _ => .error "AUTHORIZATION_AMOUNT_INVALID"
  | some _, none => .error "AUTHORIZATION_REASON_REQUIRED"
  | some numeral, some reason =>
    if PyText.nonBlank reason = false ∨ 512 < reason.length ∨
        512 < (storedReason (PyText.strip reason)).length then
      .error "AUTHORIZATION_REASON_REQUIRED"
    else
      match positiveAmount numeral with
      | none => .error "AUTHORIZATION_AMOUNT_INVALID"
      | some amount => extend ledger amount (PyText.strip reason) additional.now

/-! ### Calls under way -/

/-- How far a call of `complete` is. -/
inductive Phase where
  | ready
  | reserved
  | awaiting
  | replied (data : Json)
  | ended
  deriving DecidableEq

/-- `UpstageProbe._post`. -/
inductive Step where
  | reserve (id : Nat) (expired : Bool)
  | post (id : Nat)
  | reply (id : Nat) (data : Json)
  | settle (id : Nat)
  | fail (id : Nat)
  | authorize (additional : Additional)

/-- The ledger with the calls under way. -/
structure State where
  ledger : Ledger
  phases : Nat → Phase
  posted : List String

def State.initial : State where
  ledger := Ledger.initial
  phases := fun _ => .ready
  posted := []

/-- The call enters a phase. -/
def State.enter (state : State) (id : Nat) (phase : Phase) : State :=
  { state with phases := Function.update state.phases id phase }

section Steps

variable (rules : Rules) (requests : Nat → Request)

def transaction (state : State) : Step → Option (Except String Ledger)
  | .reserve id expired =>
    if state.phases id = .ready then
      some ((requestBody rules (requests id) expired).bind fun _ =>
        reserve rules state.ledger (requests id))
    else none
  | .settle id =>
    match state.phases id with
    | .replied data =>
      (receiptOf rules (requests id) data).map fun accepted =>
        settle state.ledger (requests id).requestId accepted.1
    | _ => none
  | .authorize additional => some (authorizeAdditionalBudget state.ledger additional)
  | .post _ | .reply _ _ | .fail _ => none

def committed : Option (Except String Ledger) → Ledger
  | some (.ok after) => after
  | some (.error _) | none => ledger

/-- `UpstageProbe.complete`. -/
def move (state : State) : Step → State
  | .reserve id expired =>
    match transaction rules requests state (.reserve id expired) with
    | some (.ok _) => state.enter id .reserved
    | some (.error _) => state.enter id .ended
    | none => state
  | .post id =>
    if state.phases id = .reserved then
      { state.enter id .awaiting with posted := state.posted ++ [(requests id).requestId] }
    else state
  | .reply id data => if state.phases id = .awaiting then state.enter id (.replied data) else state
  | .settle id =>
    match state.phases id with
    | .replied _ => state.enter id .ended
    | _ => state
  | .fail id => state.enter id .ended
  | .authorize _ => state

def next (state : State) (step : Step) : State :=
  { move rules requests state step with
    ledger := committed state.ledger (transaction rules requests state step) }

end Steps

end ProofOps.Adapters.Local.UpstageProbe
