import ProofOps.Foundation.Exploration

/-!
# The scan of a PDF for actions

The object scan of `_inspect_legacy`: every indexed object and everything it leads to is looked at once;
actions are checked by an allowlist that depends on what triggers them, along their `/Next` links.

A document is what the reader makes of a file: containers with an identity, values inside them, and
what a reference resolves to.  Containers may be shared and cyclic.
-/

namespace ProofOps.Application.Uploads.ActionScan

open Foundation Foundation.Checked Foundation.Exploration

/-! ### Documents -/

/-- `UploadRejected`. -/
inductive ScanError where
  | pdfInvalid
  | limitExceeded
  | reader
  | recursionError
  deriving DecidableEq

inductive Value (ι : Type) where
  | reference (number generation : Nat)
  | name (text : String)
  | text (text : String)
  | integer (value : Int)
  | boolean (value : Bool)
  | other
  | node (id : ι)
  | emptyArray
  deriving DecidableEq

/-- The entries of a dictionary. -/
abbrev Dictionary (ι : Type) := List (String × Value ι)

/-- What a node holds. -/
inductive Container (ι : Type) where
  | dictionary (entries : Dictionary ι) (isStream : Bool)
  | array (items : List (Value ι))

structure Document (ι : Type) where
  container : ι → Container ι
  resolve : Nat → Nat → Except ScanError (Value ι)
  str : Value ι → Except ScanError String
  dataLength : ι → Except ScanError Nat

/-- `PdfLimits`. -/
structure ScanLimits where
  (nullNavigation plaintextMetadata : Bool)
  (maxObjects maxDecodedBytes : Nat)
  recursionLimit : Nat

variable {ι : Type} (doc : Document ι)

def deref : Value ι → Except ScanError (Value ι)
  | .reference number generation => doc.resolve number generation
  | value => .ok value

def asDictionary : Value ι → Option (Dictionary ι)
  | .node id =>
    match doc.container id with
    | .dictionary entries _ => some entries
    | .array _ => none
  | _ => none

def asArray : Value ι → Option (List (Value ι))
  | .node id =>
    match doc.container id with
    | .dictionary _ _ => none
    | .array items => some items
  | .emptyArray => some []
  | _ => none

/-- `isinstance(value, str)`. -/
def isStr : Value ι → Bool
  | .name _ => true
  | .text _ => true
  | _ => false

def isText (value : Option (Value ι)) (text : String) : Bool :=
  match value with
  | some (.name given) => given = text
  | some (.text given) => given = text
  | _ => false

def strOf (entries : Dictionary ι) (key default : String) : Except ScanError String :=
  match entries.lookup key with
  | none => .ok default
  | some value => doc.str value

/-- The dictionary has the key. -/
def hasKey (entries : Dictionary ι) (key : String) : Bool :=
  (entries.lookup key).isSome

def hasAnyKey (entries : Dictionary ι) (keys : List String) : Bool :=
  keys.any (hasKey entries)

/-! ### Actions -/

def forbidden : List String :=
  ["/JavaScript", "/JS", "/Launch", "/SubmitForm", "/ImportData", "/GoToR", "/GoToE", "/Rendition",
    "/RichMedia", "/EmbeddedFiles", "/EmbeddedFile", "/XFA"]

def inertActionSubtypes : List String :=
  ["/Named", "/GoTo"]

def userGestureInertSubtypes : List String :=
  inertActionSubtypes ++ ["/URI", "/Hide"]

def linkClickSubtypes : List String :=
  userGestureInertSubtypes ++ ["/GoToR"]

def widgetInteractionSubtypes : List String :=
  inertActionSubtypes ++ ["/Hide"]

def inertNamedDestinations : List String :=
  ["/NextPage", "/PrevPage", "/FirstPage", "/LastPage", "/GoBack", "/GoForward"]

def userNamedDestinations : List String :=
  ["/Print", "/Find", "/FitPage", "/FitWidth", "/FitHeight", "/ActualSize"]

variable (limits : ScanLimits)

def isNullReference (value : Value ι) : Bool :=
  limits.nullNavigation &&
    match value with
    | .reference 0 0 => true
    | _ => false

def isPage (page : Value ι) : Except ScanError Bool :=
  if isNullReference limits page then .ok true
  else do
    let target ← deref doc page
    match asDictionary doc target with
    | none => return false
    | some entries => do
      let kind ← strOf doc entries "/Type" ""
      return ["/Page", "/Pages"].contains kind

def isInternalDestination (destination : Value ι) : Except ScanError Bool := do
  let found ← deref doc destination
  if isStr found then return true
  else
    match asArray doc found with
    | some (page :: _ :: _) => isPage doc limits page
    | _ => return false

def isInternalHideTarget (doc : Document ι) : Nat → Value ι → Except ScanError Bool
  | 0, _ => .error .recursionError
  | frames + 1, target => do
    let found ← deref doc target
    if isStr found then return true
    else
      match asDictionary doc found with
      | some entries =>
        if hasAnyKey entries forbidden || hasAnyKey entries ["/FS", "/EF"] then return false
        else do
          let kind ← strOf doc entries "/Type" ""
          return kind = "/Annot"
      | none =>
        match asArray doc found with
        | some [] => return false
        | some items => items.allM (isInternalHideTarget doc frames)
        | none => return false

variable (entries : Dictionary ι)

def requireValue (key : String) : Except ScanError (Value ι) :=
  match entries.lookup key with
  | none => .error .pdfInvalid
  | some value => deref doc value

def isFileNamed (file : Dictionary ι) : Bool :=
  match file.lookup "/F" with
  | some value => isStr value
  | none => false

def checkRemoteFile (target : Value ι) : Except ScanError Unit :=
  match asDictionary doc target with
  | some file => do
    let kind ← strOf doc file "/Type" ""
    refuse (kind ≠ "/Filespec" ∨ isFileNamed file = false ∨
      hasAnyKey file ["/EF", "/AF", "/FS"] = true) .pdfInvalid
  | none => refuse (isStr target = false) .pdfInvalid

def checkRemoteDestination (destination : Value ι) : Except ScanError Unit :=
  match asArray doc destination with
  | some (.integer page :: _ :: _) => refuse (page < 0) .pdfInvalid
  | some _ => .error .pdfInvalid
  | none => refuse (isStr destination = false) .pdfInvalid

def checkRemote : Except ScanError Unit := do
  let target ← requireValue doc entries "/F"
  checkRemoteFile doc target
  let destination ← requireValue doc entries "/D"
  checkRemoteDestination doc destination

def isHiddenFlag : Option (Value ι) → Bool
  | none => true
  | some (.boolean _) => true
  | some _ => false

def checkAction (allowed : List String)
    (allowUserNamedAction : Bool) (entries : Dictionary ι) : Except ScanError Unit := do
  let subtype ← strOf doc entries "/S" ""
  refuse (subtype ∉ allowed) .pdfInvalid
  refuse (hasAnyKey entries forbidden = true) .pdfInvalid
  if subtype = "/Named" then do
    let destination ← strOf doc entries "/N" "None"
    refuse (destination ∉ inertNamedDestinations ∧
      ¬(allowUserNamedAction = true ∧ destination ∈ userNamedDestinations)) .pdfInvalid
  else if subtype = "/GoTo" then
    match entries.lookup "/D" with
    | none => .error .pdfInvalid
    | some destination => do
      let inside ← isInternalDestination doc limits destination
      refuse (inside = false) .pdfInvalid
  else if subtype = "/GoToR" then checkRemote doc entries
  else if subtype = "/URI" then refuse (hasKey entries "/URI" = false) .pdfInvalid
  else if subtype = "/Hide" then do
    refuse (isHiddenFlag (entries.lookup "/H") = false) .pdfInvalid
    match entries.lookup "/T" with
    | none => .error .pdfInvalid
    | some target => do
      let inside ← isInternalHideTarget doc limits.recursionLimit target
      refuse (inside = false) .pdfInvalid
  else return ()

def actionShape (action : Value ι) : Except ScanError (Shape ι (Value ι)) := do
  let found ← deref doc action
  match asArray doc found with
  | some items => return .branch items
  | none =>
    match found with
    | .node id => return .node id
    | _ => .error .pdfInvalid

def nextActions (id : ι) : List (Value ι) :=
  match doc.container id with
  | .dictionary entries _ => (entries.lookup "/Next").toList
  | .array _ => []

def visitAction (allowed : List String)
    (allowUserNamedAction : Bool) (id : ι) : Except ScanError (List (Value ι)) :=
  match doc.container id with
  | .dictionary entries _ => do
    checkAction doc limits allowed allowUserNamedAction entries
    return nextActions doc id
  | .array _ => .error .pdfInvalid

variable [DecidableEq ι]

def rejectDangerousActionChain (doc : Document ι) (limits : ScanLimits) (allowed : List String)
    (allowUserNamedAction : Bool) (action : Value ι) : Except ScanError Unit := do
  let _ ← walk .pdfInvalid (actionShape doc)
    (visitAction doc limits allowed allowUserNamedAction) 33 [] action
  return ()

def directSubtypes (allowUri linkClick : Bool) : List String :=
  if linkClick then linkClickSubtypes
  else if allowUri then userGestureInertSubtypes
  else inertActionSubtypes

def rejectDangerousOpenAction (doc : Document ι) (limits : ScanLimits) (allowUri linkClick : Bool)
    (openAction : Value ι) : Except ScanError Unit := do
  let found ← deref doc openAction
  match asArray doc found with
  | some _ => do
    let inside ← isInternalDestination doc limits found
    refuse (inside = false) .pdfInvalid
  | none =>
    rejectDangerousActionChain doc limits (directSubtypes allowUri linkClick) allowUri found

/-! ### One dictionary -/

def isWidget : Except ScanError Bool := do
  let kind ← strOf doc entries "/Type" ""
  if kind = "/Annot" then do
    let subtype ← strOf doc entries "/Subtype" ""
    return subtype = "/Widget"
  else return false

def isGesture (widget : Bool) (trigger : String) : Bool :=
  widget && ["/D", "/U"].contains trigger

def triggerSubtypes (widget : Bool) (trigger : String) : List String :=
  if isGesture widget trigger then userGestureInertSubtypes
  else if widget && ["/E", "/X", "/Fo", "/Bl"].contains trigger then widgetInteractionSubtypes
  else inertActionSubtypes

/-- The actions of `/AA`. -/
def checkActionTable (doc : Document ι) (limits : ScanLimits) (entries : Dictionary ι)
    (table : Value ι) : Except ScanError Unit := do
  let found ← deref doc table
  match asDictionary doc found with
  | none => .error .pdfInvalid
  | some triggers =>
    triggers.forM fun trigger => do
      let widget ← isWidget doc entries
      rejectDangerousActionChain doc limits (triggerSubtypes widget trigger.1)
        (isGesture widget trigger.1) trigger.2

def isActionShaped (found : Value ι) : Bool :=
  match asDictionary doc found with
  | some entries => hasKey entries "/S"
  | none => false

def isLink : Bool :=
  isText (entries.lookup "/Type") "/Annot" && isText (entries.lookup "/Subtype") "/Link"

def checkDirectAction (doc : Document ι) (limits : ScanLimits) (entries : Dictionary ι)
    (target : Value ι) : Except ScanError Unit := do
  let found ← deref doc target
  if isActionShaped doc found then
    rejectDangerousOpenAction doc limits true (isLink entries) target
  else return ()

def checkMarkedAction (doc : Document ι) (limits : ScanLimits) (id : ι) (entries : Dictionary ι)
    (kind : String) : Except ScanError Unit :=
  if kind = "/Action" ∨ isText (entries.lookup "/S") "/GoToR" = true then
    rejectDangerousActionChain doc limits linkClickSubtypes true (.node id)
  else .ok ()

def whenPresent (value : Option (Value ι)) (check : Value ι → Except ScanError Unit) :
    Except ScanError Unit :=
  match value with
  | none => .ok ()
  | some found => check found

def checkDictionary (doc : Document ι) (limits : ScanLimits) (id : ι) (entries : Dictionary ι) :
    Except ScanError Unit := do
  refuse (hasAnyKey entries forbidden = true) .pdfInvalid
  let subtype ← strOf doc entries "/S" ""
  refuse (subtype ∈ forbidden ∧ subtype ≠ "/GoToR") .pdfInvalid
  let kind ← strOf doc entries "/Type" ""
  refuse (kind = "/EmbeddedFile") .pdfInvalid
  checkMarkedAction doc limits id entries kind
  whenPresent (entries.lookup "/AA") (checkActionTable doc limits entries)
  whenPresent (entries.lookup "/OpenAction") (rejectDangerousOpenAction doc limits false false)
  whenPresent (entries.lookup "/A") (checkDirectAction doc limits entries)

/-! ### Streams -/

def allowedFilters : List String :=
  ["/FlateDecode", "/ASCIIHexDecode", "/ASCII85Decode", "/LZWDecode", "/RunLengthDecode", "/DCTDecode",
    "/JPXDecode", "/CCITTFaxDecode"]

def isPlaintextMetadata : Bool :=
  limits.plaintextMetadata && isText (entries.lookup "/Type") "/Metadata" &&
    (match (entries.lookup "/Filter").bind (asArray doc) with
      | some [filter] => isText (some filter) "/Crypt"
      | _ => false) &&
    !hasKey entries "/DecodeParms"

def filtersOf : List (Value ι) :=
  match entries.lookup "/Filter" with
  | none => []
  | some filters => (asArray doc filters).getD [filters]

def withoutFilters : Dictionary ι → Dictionary ι
  | [] => []
  | entry :: entries =>
    if entry.1 = "/Filter" then (entry.1, .emptyArray) :: entries
    else entry :: withoutFilters entries

structure ScanState where
  (nullReferences decoded : Nat)
  fresh : Nat
  deriving DecidableEq

def checkStream (state : ScanState) (id : ι)
    (entries : Dictionary ι) : Except ScanError (Dictionary ι × ScanState) := do
  refuse (hasKey entries "/F" = true) .pdfInvalid
  let plaintext := isPlaintextMetadata doc limits entries
  let filters := if plaintext then [] else filtersOf doc entries
  filters.forM fun filter => do
    let name ← doc.str filter
    refuse (name ∉ allowedFilters) .pdfInvalid
  let length ← doc.dataLength id
  refuse (limits.maxDecodedBytes < state.decoded + length) .limitExceeded
  return (if plaintext then withoutFilters entries else entries,
    { state with decoded := state.decoded + length })

def look (seen : Finset ι) (state : ScanState)
    (value : Value ι) : Except ScanError (Option ι × ScanState) :=
  if isNullReference limits value then
    .ok (none, { state with nullReferences := state.nullReferences + 1 })
  else do
    let found ← deref doc value
    match found with
    | .node id => return (some id, state)
    | .emptyArray => do
      refuse (limits.maxObjects < seen.card + (state.fresh + 1)) .limitExceeded
      return (none, { state with fresh := state.fresh + 1 })
    | _ => do
      refuse (limits.maxObjects < seen.card + state.fresh) .limitExceeded
      return (none, state)

def visit (doc : Document ι) (limits : ScanLimits) (seen : Finset ι) (state : ScanState) (id : ι) :
    Except ScanError (List (Value ι) × ScanState) := do
  refuse (limits.maxObjects < seen.card + state.fresh) .limitExceeded
  match doc.container id with
  | .array items => return (items, state)
  | .dictionary entries isStream => do
    checkDictionary doc limits id entries
    if isStream then do
      let (kept, state) ← checkStream doc limits state id entries
      return (kept.map Prod.snd, state)
    else return (entries.map Prod.snd, state)

/-- `_inspect_legacy`. -/
def scan (doc : Document ι) (limits : ScanLimits) (fuel : Nat) (references : List (Nat × Nat)) :
    Option (Except ScanError (Finset ι × ScanState)) :=
  if limits.maxObjects < references.length then some (.error .limitExceeded)
  else
    explore (look doc limits) (visit doc limits) fuel ∅ ⟨0, 0, 0⟩
      (references.map fun place => Value.reference place.1 place.2).reverse

end ProofOps.Application.Uploads.ActionScan
