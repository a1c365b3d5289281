import ProofOps.Foundation.Checked
import ProofOps.Foundation.PyJson

/-!
# Extraction receipts

`UpstageClaimExtractor` keeps a directory for each request identity.  The first call makes it,
stores the packet and the request, calls the provider, and stores the raw response and what came
of it.  Every later call of the identity replays what it finds there.  A call is its effects, in
order, and its reply; a crash performs only the first of them.

The model starts where the request identity has been computed.  `_resolve_payload`, the one site
that both paths use, is a function of the call.
-/

namespace ProofOps.Agent.UpstageExtraction

open Foundation Foundation.Checked Foundation.PyJson

inductive Text where
  | canonical (value : Json)
  | spelled (value : Json)
  | malformed
  deriving DecidableEq

def Text.loads : Text → Option Json
  | .canonical value | .spelled value => some value
  | .malformed => none

/-- The files of a receipt. -/
inductive File where
  | packet
  | request
  | identity
  | candidateDiagnostics
  | rawResponse
  | failure
  | result
  deriving DecidableEq

abbrev Directory := File → Option Text

/-! ### Replies -/

structure Span where
  (charStart charEnd : Int)
  (quote kind : String)
  reason : Option String
  topicIds : List String
  deriving DecidableEq

/-- The span in `resolved`. -/
def Span.toJson (span : Span) : Json :=
  .obj [("char_end", .int span.charEnd), ("char_start", .int span.charStart),
    ("kind", .str span.kind), ("quote", .str span.quote),
    ("reason", (span.reason.map Json.str).getD .null),
    ("topic_ids", .arr (span.topicIds.map Json.str))]

inductive Refusal where
  | outputError (message : Json) (failureCode : Option String)
  | valueError (message : String)
  | raised
  deriving DecidableEq

abbrev Reply := Except Refusal (List Span)

def Agree : Reply → Reply → Prop
  | .ok spans, .ok others => spans = others
  | .error (.outputError message _), .error (.outputError other _) => message = other
  | .error refusal, .error other => refusal = other
  | _, _ => False

def failureCodeHeads : List String :=
  ["MODEL", "EXTRACTION", "UPSTAGE", "UPSTREAM", "TABLE", "DISPLAY"]

def isFailureCode (code : String) : Bool :=
  failureCodeHeads.any fun head =>
    let rest := code.toList.drop (head.length + 1)
    (head ++ "_").toList.isPrefixOf code.toList && 1 ≤ rest.length && rest.length ≤ 72 &&
      rest.all fun char => char.isUpper || char.isDigit || char = '_'

def failureCode : Option Json → Option String
  | some (.str code) => if isFailureCode code then some code else none
  | _ => none

def stopStatuses : List String :=
  ["400", "401", "403", "404", "429", "500", "502", "503"]

def transportStopCodes : List String :=
  ["BUDGET_EXHAUSTED", "BUDGET_POLICY_MISMATCH", "DUPLICATE_PROBE_REQUEST",
    "BUDGET_SETTLEMENT_INVALID", "PRICE_RECHECK_REQUIRED", "PROBE_REQUEST_TOO_LARGE",
    "UPSTAGE_REQUEST_FAILED", "UPSTAGE_RECEIPT_INVALID_RESERVATION_RETAINED",
    "UPSTREAM_UNAVAILABLE", "OPENAI_REQUEST_FAILED",
    "OPENAI_RECEIPT_INVALID_RESERVATION_RETAINED", "OPENROUTER_REQUEST_FAILED",
    "OPENROUTER_RECEIPT_INVALID_RESERVATION_RETAINED"] ++
  stopStatuses.map ("OPENAI_HTTP_" ++ ·) ++ stopStatuses.map ("OPENROUTER_HTTP_" ++ ·) ++
  stopStatuses.map ("UPSTAGE_HTTP_" ++ ·)

def isolatedCodes : List String :=
  ["PROVIDER_PROCESSING_FAILED", "PROVIDER_CIRCUIT_OPEN"]

def contentError : String := "MODEL_SPAN_OR_SCHEMA_INVALID"

/-! ### Calls -/

/-- `UpstageClaimExtractor.__init__`. -/
structure Options where
  (displayTextProfile context sourceIds atomic tableRows positionOrder j3 j7 : Bool)
  (failureDiagnostics locatedTableContext resilient : Bool)

def Options.exactRequest (options : Options) : Bool :=
  options.displayTextProfile || options.sourceIds || options.context

def resultKeys : List String :=
  ["content_sha256", "context_ordering", "packet_sha256", "profile", "provider_model",
    "request_id", "response_sha256", "spans"]

structure Rejected where
  fields : Dict
  ordered : Fields.Ordered fields
  unreserved : ∀ key ∈ resultKeys, Fields.get fields key = none

inductive Resolved where
  | spans (spans : List Span) (rejected : Rejected)
  | undecodable
  | invalid (message : String)
  | missingKey
  | raised

structure Call where
  requestId : String
  packet : Json
  packetSha : String
  request : Dict
  requestNamed : Fields.get request "request_id" = some (.str requestId)
  identity : Option Json
  candidateDiagnostics : Dict
  noSentences : Bool
  options : Options
  profile : Dict
  contextOrderPolicy : Json
  canonicalHash : String → String
  resolve : String → Resolved

variable (call : Call)

def Call.localEmpty : Bool :=
  (call.options.atomic || call.options.tableRows) && call.noSentences

/-- What `complete` came to. -/
inductive Completion where
  | returned (result : Dict)
  | returnedOther (typeName : String)
  | raised (code : String)

def localResult : Dict :=
  [("content", .str "\x7b\"sentence_ids\":[]\x7d"), ("provider", .str "local")]

def Call.completed (completion : Completion) : Completion :=
  if call.localEmpty then .returned localResult else completion

def providerMetadataKeys : List String :=
  ["provider", "model", "provider_request_id", "provider_model", "input_tokens",
    "output_tokens", "price_snapshot", "cost_with_vat_reserve_usd", "cost_source", "attempts",
    "schema_valid", "response_sha256", "response_format", "wire_policy", "cached_tokens",
    "cache_write_tokens", "response_reuse", "response_request"]

def metadata (result : Dict) : Dict :=
  Fields.restrict result (providerMetadataKeys ++ ["content"])

def Call.resultRecord (metadata : Dict) (content : String) (spans : List Span) : Dict :=
  [("content_sha256", .str (call.canonicalHash content)),
    ("packet_sha256", .str call.packetSha),
    ("profile", .obj call.profile),
    ("provider_model", (Fields.get metadata "provider_model").getD .null),
    ("request_id", .str call.requestId),
    ("response_sha256", (Fields.get metadata "response_sha256").getD .null),
    ("spans", .arr (spans.map Span.toJson))]

def Call.result (metadata : Dict) (content : String) (spans : List Span)
    (rejected : Rejected) : Dict :=
  let record := Fields.merge (call.resultRecord metadata content spans) rejected.fields
  if call.options.positionOrder then
    Fields.set record "context_ordering" call.contextOrderPolicy
  else record

/-! ### The live path -/

inductive Effect where
  | mkdir
  | write (file : File) (text : Text)
  | dispatch

def Call.opening : List Effect :=
  [.mkdir, .write .packet (.canonical call.packet), .write .request (.canonical (.obj call.request))]
  ++ (call.identity.map fun identity => Effect.write .identity (.canonical identity)).toList
  ++ (if call.options.atomic then
        [.write .candidateDiagnostics (.canonical (.obj
          (Fields.set call.candidateDiagnostics "model_call_skipped" (.bool call.localEmpty))))]
      else [])
  ++ if call.localEmpty then [] else [.dispatch]

def Call.failureRecord (error : String) (reason : Option String) : Dict :=
  let record : Dict :=
    [("error", .str error), ("packet_sha256", .str call.packetSha),
      ("request_id", .str call.requestId)]
  match reason with
  | some code => Fields.set record "reason_code" (.str code)
  | none => record

variable (check : Json → Bool)

def recordedTruncation (request : Option Text) (error : String) : Bool :=
  error = "UPSTAGE_RECEIPT_INVALID_RESERVATION_RETAINED" &&
    match request.bind Text.loads with
    | some request => check request
    | none => false

variable (code : String)

def Call.reasonCode : Option String :=
  if call.options.locatedTableContext || call.options.failureDiagnostics then some code else none

def Call.diagnosed (code : Option Json) : Option String :=
  if call.options.failureDiagnostics then failureCode code else none

/-- `_fail` for a content. -/
def Call.failContent : List Effect × Reply :=
  ([.write .failure (.canonical (.obj (call.failureRecord contentError (call.reasonCode code))))],
    .error (.outputError (.str contentError) (call.diagnosed (some (.str code)))))

def Call.transportError : String :=
  if call.options.resilient && isolatedCodes.contains code then code
  else if transportStopCodes.contains code then code
  else "UPSTREAM_UNAVAILABLE"

/-- `_fail` for the transport. -/
def Call.failTransport : List Effect × Reply :=
  let error := call.transportError code
  ([.write .failure (.canonical (.obj (call.failureRecord error none)))],
    .error <|
      if call.options.resilient && isolatedCodes.contains code then
        .outputError (.str error) (call.diagnosed (some (.str code)))
      else if recordedTruncation check (some (.canonical (.obj call.request))) error then
        .outputError (.str "MODEL_OUTPUT_TRUNCATED") (call.diagnosed (some (.str code)))
      else .valueError error)

def invalidCode (message : String) : String :=
  if message = "unknown or repeated sentence id" then "MODEL_SELECTOR_INVALID"
  else "MODEL_SPAN_INVALID"

def Call.conclude (metadata : Dict) (content : String) : List Effect × Reply :=
  match call.resolve content with
  | .spans spans rejected =>
    ([.write .result (.canonical (.obj (call.result metadata content spans rejected)))],
      .ok spans)
  | .undecodable => call.failContent "MODEL_JSON_INVALID"
  | .invalid message => call.failContent (invalidCode message)
  | .missingKey | .raised => ([], .error .raised)

def Call.settle (result : Dict) : List Effect × Reply :=
  if Fields.get result "schema_valid" = some (.bool false) then
    call.failContent "MODEL_SCHEMA_INVALID"
  else
    match Fields.get result "content" with
    | some (.str content) => call.conclude (metadata result) content
    | _ => call.failContent "MODEL_SCHEMA_INVALID"

def rawResponse : Completion → Option Json
  | .returned result => some (.obj (metadata result))
  | .returnedOther typeName => some (.obj [("invalid_transport_type", .str typeName)])
  | .raised _ => none

def Call.ending : Completion → List Effect × Reply
  | .returned result => call.settle result
  | .returnedOther _ => call.failContent "MODEL_SCHEMA_INVALID"
  | .raised code => call.failTransport check code

def Call.live (completion : Completion) : List Effect × Reply :=
  let completed := call.completed completion
  let ending := call.ending check completed
  (call.opening
      ++ ((rawResponse completed).map fun raw => Effect.write .rawResponse (.canonical raw)).toList
      ++ ending.1,
    ending.2)

/-! ### `_replay_receipt` -/

variable (directory : Directory)

def Call.checkWire : Except Refusal Unit :=
  refuse (call.options.exactRequest ∧
      directory .request ≠ some (.canonical (.obj call.request)))
    (.valueError "EXTRACTION_RECEIPT_EXISTS")

variable (stored : Dict)

def reasonOr (error : String) : Option Json :=
  match Fields.get stored "reason_code" with
  | some reason => if reason.truthy then some reason else some (.str error)
  | none => some (.str error)

def Call.storedError
    : Refusal :=
  match Fields.get stored "error" with
  -- A list or a dictionary is no member of a set.
  | some (.arr _) | some (.obj _) => .raised
  | some (.str error) =>
    if call.options.resilient && isolatedCodes.contains error then
      .outputError (.str error) none
    else if ["UPSTAGE_REQUEST_FAILED", "UPSTREAM_UNAVAILABLE"].contains error then
      .outputError (.str "PREVIOUS_TRANSPORT_FAILED") (call.diagnosed (reasonOr stored error))
    else if transportStopCodes.contains error then
      if recordedTruncation check (directory .request) error then
        .outputError (.str "MODEL_OUTPUT_TRUNCATED") none
      else .valueError error
    else
      .outputError (.str (if error = "" then contentError else error))
        (call.diagnosed (Fields.get stored "reason_code"))
  | some error =>
    .outputError (if error.truthy then error else .str contentError)
      (call.diagnosed (Fields.get stored "reason_code"))
  | none => .outputError (.str contentError) (call.diagnosed (Fields.get stored "reason_code"))

def Call.storedFailure
    : Refusal :=
  if Fields.get stored "packet_sha256" ≠ some (.str call.packetSha) ∨
      ((call.options.context || call.options.sourceIds) ∧
        Fields.get stored "request_id" ≠ some (.str call.requestId)) then
    .valueError "EXTRACTION_RECEIPT_EXISTS"
  else call.storedError check directory stored

def Call.checkFailure : Except Refusal Unit :=
  match directory .failure with
  | none => .ok ()
  | some text =>
    match text.loads with
    | some (.obj stored) => .error (call.storedFailure check directory stored)
    | _ => .error .raised

def Call.checkRequest : Except Refusal Unit :=
  match (directory .request).bind Text.loads with
  | none => .error (.valueError "EXTRACTION_RECEIPT_UNSETTLED")
  | some (.obj stored) =>
    refuse (Fields.get stored "request_id" ≠ some (.str call.requestId))
      (.valueError "EXTRACTION_RECEIPT_UNSETTLED")
  | some _ => .error .raised

def readResponse : Except Refusal (Dict × String) :=
  match (directory .rawResponse).bind Text.loads with
  | some (.obj stored) =>
    match Fields.get stored "content" with
    | some (.str content) => .ok (stored, content)
    | _ => .error (.valueError "EXTRACTION_RECEIPT_UNSETTLED")
  | _ => .error (.valueError "EXTRACTION_RECEIPT_UNSETTLED")

def Call.reconstruct (content : String) : Except Refusal (List Span × Rejected) :=
  match call.resolve content with
  | .spans spans rejected => .ok (spans, rejected)
  | .undecodable | .invalid _ | .missingKey => .error (.outputError (.str contentError) none)
  | .raised => .error .raised

def Options.refinementKeys (options : Options) : List String :=
  if options.j7 then ["j7_refinements", "j7_refinement_rejected"]
  else ["j3_refinements", "j3_refinement_rejected"]

def storedIs (key : String) (value : Json) : Bool :=
  pyEqual ((Fields.get stored key).getD .null) value

def Call.sameResult (spans : List Span) (rejected : Rejected) : Bool :=
  storedIs stored "request_id" (.str call.requestId) &&
  storedIs stored "packet_sha256" (.str call.packetSha) &&
  storedIs stored "profile" (.obj call.profile) &&
  (!call.options.positionOrder || storedIs stored "context_ordering" call.contextOrderPolicy) &&
  (!call.options.j3 || call.options.refinementKeys.all fun key =>
    storedIs stored key ((Fields.get rejected.fields key).getD .null)) &&
  storedIs stored "spans" (.arr (spans.map Span.toJson))

def Call.checkResult (spans : List Span) (rejected : Rejected) : Except Refusal Unit :=
  match directory .result with
  | none => .ok ()
  | some text =>
    match text.loads with
    | some (.obj stored) =>
      refuse (call.sameResult stored spans rejected = false)
        (.valueError "EXTRACTION_RECEIPT_EXISTS")
    | some _ => .error .raised
    | none => .error (.valueError "EXTRACTION_RECEIPT_EXISTS")

/-- What a replay reads back. -/
structure Reconstruction where
  metadata : Dict
  content : String
  spans : List Span
  rejected : Rejected

def Call.reconstruction : Except Refusal Reconstruction := do
  call.checkWire directory
  call.checkFailure check directory
  refuse (directory .rawResponse = none) (.valueError "EXTRACTION_RECEIPT_UNSETTLED")
  refuse (directory .packet ≠ some (.canonical call.packet))
    (.valueError "EXTRACTION_RECEIPT_EXISTS")
  call.checkRequest directory
  let response ← readResponse directory
  let resolved ← call.reconstruct response.2
  call.checkResult directory resolved.1 resolved.2
  pure ⟨response.1, response.2, resolved.1, resolved.2⟩

def Call.replay : List Effect × Reply :=
  match call.reconstruction check directory with
  | .error refusal => ([], .error refusal)
  | .ok found =>
    (if (directory .result).isSome then []
      else [.write .result (.canonical (.obj
        (call.result found.metadata found.content found.spans found.rejected)))],
      .ok found.spans)

/-- `UpstageClaimExtractor`. -/
structure World where
  receipts : String → Option Directory
  dispatched : List String

def World.perform (requestId : String) (world : World) : Effect → World
  | .mkdir =>
    { world with receipts := Function.update world.receipts requestId (some fun _ => none) }
  | .write file text =>
    { world with
      receipts := Function.update world.receipts requestId
        ((world.receipts requestId).map fun directory =>
          Function.update directory file (some text)) }
  | .dispatch => { world with dispatched := world.dispatched ++ [requestId] }

structure Step where
  call : Call
  completion : Completion
  truncationCheck : Json → Bool
  crash : Option Nat

variable (world : World) (step : Step)

def World.answer : List Effect × Reply :=
  match world.receipts step.call.requestId with
  | none => step.call.live step.truncationCheck step.completion
  | some directory => step.call.replay step.truncationCheck directory

def World.effects : List Effect :=
  match step.crash with
  | none => (world.answer step).1
  | some count => (world.answer step).1.take count

/-- The world after a step. -/
def World.next : World :=
  (world.effects step).foldl (World.perform step.call.requestId) world

def World.reply : Option Reply :=
  match step.crash with
  | none => some (world.answer step).2
  | some _ => none

end ProofOps.Agent.UpstageExtraction
