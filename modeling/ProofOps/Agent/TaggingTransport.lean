import ProofOps.Foundation.Table

/-!
# The tagging transport and its stop

Calls of `UpstageTaggingTransport.invoke` share a receipt root: a directory for each request, a
`response.json` in it when the request was answered, and stop records beside them.  Before a call
creates its directory it passes a gate under the mutex of its transport; a `TransportResume`
replaces the stop check by its own scan of the root, which it makes once and keeps.  The steps of
all calls interleave, also between the gate and the charge of an authorization that transports of
several roots share, and a transport can crash between any two of them.
-/

namespace ProofOps.Agent.TaggingTransport

open Foundation

/-- `usage.status` of a stored response. -/
inductive Status where
  | succeeded
  | failed
  deriving DecidableEq

/-- What is in a `response.json`. -/
inductive Response where
  | unreadable
  | stored (status : Status)

structure Directory where
  (root requestId : String)
  response : Option Response

def Directory.key (directory : Directory) : String × String :=
  (directory.root, directory.requestId)

structure Stop where
  root : String
  chained : Option String
  requestId : Option String

def Stop.key (stop : Stop) : String × Option String :=
  (stop.root, stop.chained)

structure Receipts where
  directories : Table Directory Directory.key
  stops : Table Stop Stop.key

/-! ### Authorizations -/

structure Authorization where
  acknowledgedFailures : List String
  (maxNewRequests alreadyDispatched : Nat)
  bounded : 1 ≤ maxNewRequests ∧ maxNewRequests ≤ 200
  unspent : alreadyDispatched < maxNewRequests

/-- `TransportResume`. -/
structure Resume where
  remaining : Int
  dispatched : List String
  armed : String → Option Bool

def Authorization.resume (authorization : Authorization) : Resume where
  remaining := authorization.maxNewRequests - authorization.alreadyDispatched
  dispatched := []
  armed := fun _ => none

def Directory.accepted (acknowledged : List String) (directory : Directory) : Bool :=
  match directory.response with
  | some (.stored .succeeded) => true
  | some (.stored .failed) => acknowledged.contains directory.requestId
  | some .unreadable | none => false

def Stop.accepted (acknowledged : List String) (stop : Stop) : Bool :=
  match stop.requestId with
  | some requestId => acknowledged.contains requestId
  | none => false

/-- `TransportResume._scan`. -/
def scan (receipts : Receipts) (acknowledged : List String) (root : String) : Bool :=
  (receipts.directories.rows.all fun directory =>
    directory.root ≠ root || directory.accepted acknowledged) &&
  receipts.stops.rows.all fun stop => stop.root ≠ root || stop.accepted acknowledged

/-- `TransportResume.armed`. -/
def Resume.scanned (resume : Resume) (receipts : Receipts) (acknowledged : List String)
    (root : String) : Resume :=
  match resume.armed root with
  | some _ => resume
  | none =>
    { resume with
      armed := Function.update resume.armed root (some (scan receipts acknowledged root)) }

def Resume.allows (resume : Resume) (receipts : Receipts) (acknowledged : List String)
    (root : String) : Bool × Resume :=
  if 0 < resume.remaining then
    let resume := resume.scanned receipts acknowledged root
    (resume.armed root = some true, resume)
  else (false, resume)

def Resume.charge (resume : Resume) (requestId : String) : Resume :=
  if resume.dispatched.contains requestId then resume
  else
    { resume with
      remaining := resume.remaining - 1
      dispatched := resume.dispatched ++ [requestId] }

def Resume.disarm (resume : Resume) (root : String) : Resume :=
  { resume with
    remaining := 0
    armed := Function.update resume.armed root (some false) }

/-! ### Calls under way -/

/-- `UpstageTaggingTransport`. -/
structure TransportInfo where
  root : String
  authorization : Option Nat

structure CallInfo where
  transport : Nat
  requestId : String

inductive Outcome where
  | succeeded
  | isolated
  | stops
  deriving DecidableEq

/-- How far a call has come. -/
inductive Phase where
  | ready
  | entered
  | passed
  | created
  | awaiting
  | stopping
  | recording (chained : Option String)
  | noting (chained : Option String)
  | withdrawing
  | finishing (status : Status) (stops : Bool)
  | filling (status : Status) (stops : Bool)
  | leaving
  | ended
  deriving DecidableEq

/-- What a call may do next. -/
inductive Choice where
  | enter
  | gate
  | take
  | send
  | answer (outcome : Outcome)
  | look
  | create
  | note
  | withdraw
  | respond
  | complete
  | fail
  | leave
  deriving DecidableEq

inductive Step where
  | call (id : Nat) (choice : Choice)
  | crash (transport : Nat)

structure Operation where
  users : Nat
  gate : Option Nat
  active : List String

def Operation.idle : Operation where
  users := 0
  gate := none
  active := []

structure State where
  receipts : Receipts
  locks : String → Option Nat
  operations : Nat → Operation
  resumes : Nat → Resume
  phases : Nat → Phase
  crashed : Nat → Bool
  made : List Nat
  provider : List Nat

section Steps

variable (authorizations : Nat → Authorization) (transports : Nat → TransportInfo)
  (calls : Nat → CallInfo)

/-- Before the first call. -/
def State.initial (receipts : Receipts) : State where
  receipts := receipts
  locks := fun _ => none
  operations := fun _ => Operation.idle
  resumes := fun authorization => (authorizations authorization).resume
  phases := fun _ => .ready
  crashed := fun _ => false
  made := []
  provider := []

variable (state : State) (id : Nat)

def State.enter (phase : Phase) : State :=
  { state with phases := Function.update state.phases id phase }

def State.operate (transport : Nat) (operation : Operation) : State :=
  { state with operations := Function.update state.operations transport operation }

def State.authorize (authorization : Nat) (resume : Resume) : State :=
  { state with resumes := Function.update state.resumes authorization resume }

def State.withDirectories (directories : Table Directory Directory.key) : State :=
  { state with receipts := { state.receipts with directories := directories } }

def State.withStops (stops : Table Stop Stop.key) : State :=
  { state with receipts := { state.receipts with stops := stops } }

def rootOf : String :=
  (transports (calls id).transport).root

def authorizationOf : Option Nat :=
  (transports (calls id).transport).authorization

def receiptKey : String × String :=
  (rootOf transports calls id, (calls id).requestId)

def Receipts.stopped (receipts : Receipts) (root : String) : Bool :=
  receipts.stops.rows.any fun stop => stop.root = root

def Receipts.incomplete (receipts : Receipts) (root : String) (active : List String) : Bool :=
  receipts.directories.rows.any fun directory =>
    directory.root = root && !active.contains directory.requestId && directory.response.isNone

/-! ### Steps -/

def enter : State :=
  let transport := (calls id).transport
  let operation := state.operations transport
  let root := rootOf transports calls id
  match operation.gate with
  | some _ => state
  | none =>
    if operation.users = 0 then
      match state.locks root with
      | some _ => state.enter id .ended
      | none =>
        { (state.enter id .entered).operate transport { operation with users := 1 } with
          locks := Function.update state.locks root (some transport) }
    else
      (state.enter id .entered).operate transport { operation with users := operation.users + 1 }

def permitted : Bool × State :=
  let root := rootOf transports calls id
  match authorizationOf transports calls id with
  | none => (!state.receipts.stopped root, state)
  | some authorization =>
    let answer := (state.resumes authorization).allows state.receipts
      (authorizations authorization).acknowledgedFailures root
    (answer.1, state.authorize authorization answer.2)

def gate (state : State) (id : Nat) : State :=
  let transport := (calls id).transport
  let operation := state.operations transport
  match operation.gate with
  | some _ => state
  | none =>
    let incomplete := state.receipts.incomplete (rootOf transports calls id) operation.active
    let answer := permitted authorizations transports calls state id
    if incomplete || !answer.1 then answer.2.enter id .leaving
    else (answer.2.enter id .passed).operate transport { operation with gate := some id }

def charge : State :=
  match authorizationOf transports calls id with
  | none => state
  | some authorization =>
    state.authorize authorization
      ((state.resumes authorization).charge (calls id).requestId)

def take : State :=
  let transport := (calls id).transport
  let operation := { state.operations transport with gate := none }
  let charged := charge transports calls state id
  match state.receipts.directories.insert?
      { root := rootOf transports calls id
        requestId := (calls id).requestId
        response := none } with
  | none => (charged.enter id .leaving).operate transport operation
  | some directories =>
    { ((charged.enter id .created).operate transport
        { operation with active := operation.active ++ [(calls id).requestId] }).withDirectories
        directories with
      made := state.made ++ [id] }

def send : State :=
  { state.enter id .awaiting with provider := state.provider ++ [id] }

def answer : Outcome → State
  | .succeeded => state.enter id (.finishing .succeeded false)
  | .isolated => state.enter id (.finishing .failed false)
  | .stops => state.enter id .stopping

def look : State :=
  let root := rootOf transports calls id
  let requestId := (calls id).requestId
  if state.receipts.stops.find (root, none) = none then state.enter id (.recording none)
  else if state.receipts.stops.find (root, some requestId) = none then
    state.enter id (.recording (some requestId))
  else state.enter id .withdrawing

def create (chained : Option String) : State :=
  match state.receipts.stops.insert?
      { root := rootOf transports calls id
        chained := chained
        requestId := none } with
  | none => state.enter id .leaving
  | some stops => (state.enter id (.noting chained)).withStops stops

/-- Records the stop. -/
def note (chained : Option String) : State :=
  (state.enter id .withdrawing).withStops
    (state.receipts.stops.put
      { root := rootOf transports calls id
        chained := chained
        requestId := some (calls id).requestId })

def withdraw : State :=
  match authorizationOf transports calls id with
  | none => state.enter id (.finishing .failed true)
  | some authorization =>
    (state.enter id (.finishing .failed true)).authorize authorization
      ((state.resumes authorization).disarm (rootOf transports calls id))

def answered (response : Response) : Directory where
  root := rootOf transports calls id
  requestId := (calls id).requestId
  response := some response

def respond (status : Status) (stops : Bool) : State :=
  match state.receipts.directories.find (receiptKey transports calls id) with
  | none => state.enter id .leaving
  | some directory =>
    if directory.response.isSome then state.enter id .leaving
    else
      (state.enter id (.filling status stops)).withDirectories
        (state.receipts.directories.put (answered transports calls id .unreadable))

def complete (status : Status) : State :=
  (state.enter id .leaving).withDirectories
    (state.receipts.directories.put (answered transports calls id (.stored status)))

def leave : State :=
  let transport := (calls id).transport
  let operation := state.operations transport
  let root := rootOf transports calls id
  match operation.gate with
  | some _ => state
  | none =>
    let left := (state.enter id .ended).operate transport
      { operation with
        active := operation.active.filter (· ≠ (calls id).requestId)
        users := operation.users - 1 }
    if operation.users = 1 then { left with locks := Function.update state.locks root none }
    else left

def fail : State :=
  let transport := (calls id).transport
  match state.phases id with
  | .ready | .leaving | .ended => state
  | .passed =>
    (state.enter id .leaving).operate transport
      { state.operations transport with gate := none }
  | _ => state.enter id .leaving

def call (choice : Choice) : State :=
  match state.phases id, choice with
  | .ready, .enter => enter transports calls state id
  | .entered, .gate => gate authorizations transports calls state id
  | .passed, .take => take transports calls state id
  | .created, .send => send state id
  | .awaiting, .answer outcome => answer state id outcome
  | .stopping, .look => look transports calls state id
  | .recording chained, .create => create transports calls state id chained
  | .noting chained, .note => note transports calls state id chained
  | .withdrawing, .withdraw => withdraw transports calls state id
  | .finishing status stops, .respond => respond transports calls state id status stops
  | .filling status _, .complete => complete transports calls state id status
  | .leaving, .leave => leave transports calls state id
  | _, .fail => fail calls state id
  | _, _ => state

def crash (transport : Nat) : State :=
  let root := (transports transport).root
  { state.operate transport Operation.idle with
    crashed := Function.update state.crashed transport true
    locks :=
      if state.locks root = some transport then Function.update state.locks root none
      else state.locks }

def next : Step → State
  | .call id choice =>
    if state.crashed (calls id).transport then state
    else call authorizations transports calls state id choice
  | .crash transport => crash transports state transport

end Steps

end ProofOps.Agent.TaggingTransport
