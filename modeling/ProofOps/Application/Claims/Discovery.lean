import ProofOps.Application.Evidence.Citations
import ProofOps.Foundation.PyJson

/-!
# Claim discovery

`discover_atomic_claims`: every block of a document is either left out with a reason, or sent to
an extraction model, whose spans become claims and exclusions.  Offsets of a reply count code
points of the NFC text, and each is mapped back to the raw text.

The model is a function of the packets that it was sent before.  The packets that a discovery
sends stand beside its result.
-/

namespace ProofOps.Application.Claims

open Foundation Foundation.Checked Foundation.PyJson Foundation.Sorting Evidence Domain
open Domain.Numeric Ingest

structure TextRules where
  nfc : String → String
  isAlnum : Char → Bool
  isDigit : Char → Bool

/-- What the model says that a span is. -/
inductive SpanKind where
  | claim
  | excluded
  | unknown
  deriving DecidableEq

/-- `ExtractionSpan`. -/
structure ExtractionSpan where
  (charStart charEnd : Nat)
  quote : String
  kind : SpanKind
  reason : Option String
  topicIds : List String

def fieldOf (fields : Dict) (name : String) : Json :=
  (Fields.get fields name).getD .null

def groupsLength (isDigit : Char → Bool) : Nat → List Char → Nat
  | 0, _ => 0
  | _, [] => 0
  | fuel + 1, c :: rest =>
    let digits := (rest.takeWhile isDigit).length
    if (c = ',' ∨ c = '.') ∧ 0 < digits then
      1 + digits + groupsLength isDigit fuel (rest.drop digits)
    else 0

def numberLength (isDigit : Char → Bool) (chars : List Char) : Option Nat :=
  let sign := (chars.take 1).countP fun c => c = '+' ∨ c = '−' ∨ c = '-'
  let digits := ((chars.drop sign).takeWhile isDigit).length
  if digits = 0 then none
  else
    let rest := chars.drop (sign + digits)
    let groups := groupsLength isDigit rest.length rest
    let percent := ((rest.drop groups).take 1).countP fun c => c = '%'
    some (sign + digits + groups + percent)

def numberRanges (isDigit : Char → Bool) : Nat → Nat → List Char → List (Nat × Nat)
  | 0, _, _ => []
  | _, _, [] => []
  | fuel + 1, position, c :: rest =>
    match numberLength isDigit (c :: rest) with
    | some length =>
      (position, position + length) ::
        numberRanges isDigit fuel (position + length) ((c :: rest).drop length)
    | none => numberRanges isDigit fuel (position + 1) rest

variable (rules : TextRules)

def cutsWord (chars : List Char) (offset : Nat) : Bool :=
  0 < offset && (chars[offset - 1]?).any rules.isAlnum && (chars[offset]?).any rules.isAlnum

def cutsToken (chars : List Char) (start stop : Nat) : Bool :=
  cutsWord rules chars start || cutsWord rules chars stop ||
    (numberRanges rules.isDigit chars.length 0 chars).any fun number =>
      [start, stop].any fun boundary => number.1 < boundary && boundary < number.2

/-! ### Spans -/

def checkOffsets (text : String) (fields : Dict) :
    Except String (Nat × Nat × String) :=
  match fieldOf fields "char_start", fieldOf fields "char_end" with
  | .int start, .int stop =>
    let quote := slice text start.toNat stop.toNat
    if 0 ≤ start ∧ start < stop ∧ stop ≤ text.length then
      match fieldOf fields "quote" with
      | .str given =>
        if given = quote ∧ PyText.nonBlank quote = true then .ok (start.toNat, stop.toNat, quote)
        else .error "extraction quote/offset does not match source"
      | _ => .error "extraction quote/offset does not match source"
    else .error "extraction quote/offset does not match source"
  | _, _ => .error "extraction quote/offset does not match source"

def topicOf : Json → Option String
  | .str topic => if PyText.nonBlank topic then some topic else none
  | _ => none

def topicsOf : Json → Option (List String)
  | .arr items => items.mapM topicOf
  | _ => none

def kindOf (kind reason : Json) : Option (SpanKind × Option String) :=
  match kind, reason with
  | .str "claim", .null => some (.claim, none)
  | .str "excluded", .str reason =>
    if PyText.nonBlank reason then some (.excluded, some reason) else none
  | .str "unknown", .str reason =>
    if PyText.nonBlank reason then some (.unknown, some reason) else none
  | _, _ => none

/-- One item of `spans`. -/
def validateSpan (text : String) : Json → Except String ExtractionSpan
  | .obj fields => do
    refuse (Fields.keysAre fields ["char_start", "char_end", "quote", "kind", "reason", "topic_ids"] = false)
      "invalid extraction fields; grades and labels are prohibited"
    let (start, stop, quote) ← checkOffsets text fields
    let isClaim := match fieldOf fields "kind" with
      | .str kind => decide (kind = "claim")
      | _ => false
    refuse (isClaim = true ∧ cutsToken rules text.toList start stop = true)
      "claim quote cuts a token boundary"
    match kindOf (fieldOf fields "kind") (fieldOf fields "reason"),
        topicsOf (fieldOf fields "topic_ids") with
    | some (kind, reason), some topics => return ⟨start, stop, quote, kind, reason, topics⟩
    | _, _ => .error "invalid extraction kind/reason/topics"
  | _ => .error "invalid extraction fields; grades and labels are prohibited"

def validateExtractionResponse (payload : Json) (text : String) :
    Except String (List ExtractionSpan) :=
  match payload with
  | .obj fields => do
    refuse (Fields.keysAre fields ["spans"] = false) "extraction response must contain only spans"
    match fieldOf fields "spans" with
    | .arr items => do
      let spans ← items.mapM (validateSpan rules text)
      let ordered := sortedBy ExtractionSpan.charStart spans
      refuse (¬ordered.IsChain fun left right => left.charEnd ≤ right.charStart)
        "overlapping extraction spans"
      return ordered
    | _ => .error "spans must be an array"
  | _ => .error "extraction response must contain only spans"

structure QuotesText (text : String) (span : ExtractionSpan) : Prop where
  nonempty : span.charStart < span.charEnd
  inside : span.charEnd ≤ text.length
  quote : span.quote = slice text span.charStart span.charEnd

variable {text : String}

theorem checkOffsets_ok {fields : Dict} {start stop : Nat} {quote : String}
    (h : checkOffsets text fields = .ok (start, stop, quote)) :
    start < stop ∧ stop ≤ text.length ∧ quote = slice text start stop := by
  unfold checkOffsets at h
  split at h
  · dsimp only at h
    split_ifs at h with hrange
    split at h
    · split_ifs at h
      cases h
      exact ⟨by omega, by omega, rfl⟩
    · cases h
  · cases h

variable {rules}

/-- A valid span quotes its text. -/
theorem validateSpan_ok {item : Json} {span : ExtractionSpan}
    (h : validateSpan rules text item = .ok span) : QuotesText text span := by
  cases item with
  | obj fields =>
    replace h := rest_ok h
    obtain ⟨⟨start, stop, quote⟩, hoffsets, h⟩ := bind_ok h
    replace h := rest_ok h
    obtain ⟨hlt, hle, hquote⟩ := checkOffsets_ok hoffsets
    split at h
    · cases pure_ok h
      exact ⟨hlt, hle, hquote⟩
    · cases h
  | _ => cases h

theorem validateExtractionResponse_ok {payload : Json} {spans : List ExtractionSpan}
    (h : validateExtractionResponse rules payload text = .ok spans) :
    (∀ span ∈ spans, QuotesText text span) ∧
      spans.IsChain fun left right => left.charEnd ≤ right.charStart := by
  unfold validateExtractionResponse at h
  split at h
  · replace h := rest_ok h
    split at h
    · obtain ⟨given, hgiven, h⟩ := bind_ok h
      obtain ⟨⟨⟩, hchain, h⟩ := bind_ok h
      cases pure_ok h
      rw [refuse_ok_iff, not_not] at hchain
      refine ⟨fun span hspan => ?_, hchain⟩
      obtain ⟨item, -, hitem⟩ := (mem_of_mapM_ok hgiven).mp (mem_sortedBy.mp hspan)
      exact validateSpan_ok hitem
    · cases h
  · cases h

/-! ### Records -/

inductive ScopeMode where
  | full
  | declaredSubset
  deriving DecidableEq

/-- `ClaimScope`. -/
structure ClaimScope where
  (tenantId documentVersionId parseManifestId : String)
  mode : ScopeMode
  selectedPages : List Nat
  positive : ∀ page ∈ selectedPages, 1 ≤ page
  increasing : selectedPages.Pairwise (· < ·)
  subset_iff : mode = .full ↔ selectedPages = []

/-- `ExtractionProfile`. -/
structure ExtractionProfile where
  (modelSha256 promptSha256 ruleSha256 : String)
  synthetic : Bool
  (replicateId extractionEpoch : Nat)
  replicate_mem : replicateId ∈ [1, 2, 3]
  epoch_pos : 1 ≤ extractionEpoch

structure Packet where
  (tenantId documentVersionId parseManifestId sourceSha256 : String)
  profile : ExtractionProfile
  sourceId : String
  pageNum : Nat
  kind : Kind
  text : String

/-- `ExtractionOutputError`. -/
inductive DiscoveryError where
  | refused (error : PyError)
  | indexError
  | extractor
  deriving DecidableEq

/-- What the model returns or raises. -/
inductive Reply where
  | payload (value : Json)
  | outputError (failureCode : Option String)
  | transportError
  | raised

inductive ReceiptStatus where
  | failed
  | processed
  deriving DecidableEq

/-- The receipt of a packet. -/
structure ExtractionReceipt where
  (sourceId packetSha256 : String)
  (responseSha256 rawResponseJson : Option String)
  profile : ExtractionProfile
  status : ReceiptStatus

/-- `Claim`. -/
structure Claim where
  (claimId tenantId documentVersionId parseManifestId sourceSha256 quote : String)
  sourceRefs : List SourceRef
  sourceQuality : String
  topicIds : List String
  receipt : ExtractionReceipt
  revision : Nat

/-- `ClaimExclusion`. -/
structure ClaimExclusion where
  sourceId : String
  pageNum : Nat
  (reason state : String)
  sourceRef : Option SourceRef

/-- `ClaimDiscovery`. -/
structure ClaimDiscovery where
  scope : ClaimScope
  sourceSha256 : String
  claims : List Claim
  exclusions : List ClaimExclusion
  processedSourceIds : List String
  receipts : List ExtractionReceipt
  synthetic : Bool
  qualityIssues : List QualityIssue

/-- What the id of a claim is made from. -/
structure ClaimKey where
  (tenantId sourceSha256 : String)
  source : SourceRef
  receipt : ExtractionReceipt

structure DiscoveryRules where
  text : TextRules
  citation : CitationRules
  requireUuid : String → String → Except PyError Unit
  packetHash : Packet → String
  responseHash : Json → String
  responseJson : Json → String
  claimHash : ClaimKey → String
  uuid5 : String → String → String

/-- `_find_raw_boundary`. -/
def findRawBoundary (nfc : String → String) (raw normalized : String) (offset : Nat) :
    Except PyError Nat :=
  let boundary := (List.range (raw.length + 1)).find? fun index =>
    nfc (slice raw 0 index) = slice normalized 0 offset ∧
      nfc (slice raw index raw.length) = slice normalized offset normalized.length
  match boundary with
  | some index => .ok index
  | none => .error (.domainValidation "normalized offset does not land on a raw-text cluster boundary")

def mapOffsets (nfc : String → String) (raw : String) (start stop : Nat) :
    Except PyError (Nat × Nat) := do
  let normalized := nfc raw
  refuse (normalized.length < stop) (.domainValidation "normalized offsets are out of range for raw_text")
  refuse (stop < start) (.domainValidation "normalized_char_end must be >= normalized_char_start")
  let rawStart ← findRawBoundary nfc raw normalized start
  let rawStop ← findRawBoundary nfc raw normalized stop
  return (rawStart, rawStop)

variable (rules : DiscoveryRules) (block : CanonicalBlock)

def spanSourceRef (start stop : Nat) : Except PyError SourceRef :=
  match block.winning with
  | none => .error (.valueError "conflicted candidate has no selected source")
  | some candidate => do
    let source := candidate.source
    let (charStart, charEnd) ← mapOffsets rules.text.nfc source.rawText start stop
    refuse (rules.text.nfc (slice source.rawText charStart charEnd) ≠
      slice (rules.text.nfc source.rawText) start stop)
      (.domainValidation "normalized-to-raw offset mapping did not round-trip")
    refuse (candidate.hasInvalidGeometry = true)
      (.domainValidation "canonical bbox outside the page's displayed extents")
    if h : 1 ≤ source.physicalPage ∧ charStart ≤ charEnd then
      .ok
        { sourceId := block.sourceId
          documentVersionId := source.documentVersionId
          parseManifestId := source.parseManifestId
          pageNum := source.physicalPage
          printedPageLabel := source.printedPageLabel
          bbox := candidate.bbox
          rawTextSha256 := rules.citation.sha256 source.rawText
          quote := slice source.rawText charStart charEnd
          charStart := charStart
          charEnd := charEnd
          locationQuality := if candidate.bbox.isSome then .located else .unlocated
          verificationState := .candidate
          page_pos := h.1
          offsets_ordered := h.2 }
    else .error (.domainValidation "invalid source reference")

def normalizedText : String :=
  rules.text.nfc block.rawText

/-! ### Continuations -/

def joinContext : String := "source_recovery_join=ps1-v1"

def continuationInvalid : DiscoveryError := .refused (.valueError "SOURCE_CONTINUATION_INVALID")

def readable : Bool :=
  block.quality = "verified" || block.quality = "unverified"

def isJoined : Except DiscoveryError Bool :=
  if block.winner = none ∨ readable block = false then .ok false
  else
    match block.winning with
    | none => .error .indexError
    | some candidate => .ok (candidate.context.contains joinContext)

def targetOf (blocks : List CanonicalBlock) (edge : CanonicalEdge) :
    Except DiscoveryError CanonicalBlock :=
  match blockOf blocks edge.targetId with
  | some block => .ok block
  | none => .error (.refused (.keyError edge.targetId))

def checkPart (page : Nat) (part : CanonicalBlock) : Except DiscoveryError (Bbox × CanonicalBlock) := do
  refuse (part.kind ≠ .paragraph ∨ part.winner = none) continuationInvalid
  match part.candidates.head? with
  | none => .error .indexError
  | some first =>
    -- a rectangle outside the page is none
    match first.bbox with
    | none => .error continuationInvalid
    | some box => do
      refuse (readable part = false ∨ part.pageNum ≠ page) continuationInvalid
      return (box, part)

variable (setting : Setting) (graph : CanonicalDocumentGraph) (block : CanonicalBlock)

def continuationParts : Except DiscoveryError (List CanonicalBlock) := do
  let targets ← (graph.edges.filter fun edge =>
    edge.sourceId = block.sourceId ∧ edge.relation = .derivedFrom).mapM (targetOf graph.blocks)
  let checked ← targets.mapM (checkPart block.pageNum)
  let parts := (sortedBy (fun part => toLex (part.1.y0, part.1.x0)) checked).map Prod.snd
  refuse (parts.length < 2) continuationInvalid
  refuse (∃ part ∈ parts, part.winning = none) .indexError
  refuse ("\n".intercalate (parts.map CanonicalBlock.rawText) ≠ block.rawText) continuationInvalid
  return parts

abbrev Continuation := String × List CanonicalBlock

def continuationOf : Except DiscoveryError (Option Continuation) := do
  let joined ← isJoined block
  if joined then do
    let parts ← continuationParts graph block
    return some (block.sourceId, parts)
  else return none

/-- `continuations`. -/
def continuations : Except DiscoveryError (List Continuation) := do
  let groups ← graph.blocks.mapM (continuationOf graph)
  return groups.reduceOption

def fragmentRef (part : CanonicalBlock) (start stop : Nat) : Except PyError (List SourceRef) :=
  if start < stop then do
    let ref ← spanSourceRef rules part start stop
    return [ref]
  else return []

/-- `fragment_refs`. -/
def fragmentRefs (rules : DiscoveryRules) (start stop : Nat) :
    Nat → List CanonicalBlock → Except PyError (List SourceRef)
  | _, [] => .ok []
  | cursor, part :: parts => do
    let length := (normalizedText rules part).length
    let here ← fragmentRef rules part (start - cursor) (min length (stop - cursor))
    let later ← fragmentRefs rules start stop (cursor + length + 1) parts
    return here ++ later

/-! ### One block -/

structure Setting where
  rules : DiscoveryRules
  graph : CanonicalDocumentGraph
  scope : ClaimScope
  profile : ExtractionProfile
  joined : List Continuation

def Setting.isFragment (sourceId : String) : Bool :=
  setting.joined.any fun group => group.2.any fun part => part.sourceId = sourceId

def Setting.partsOf (sourceId : String) : List CanonicalBlock :=
  ((setting.joined.find? fun group => group.1 = sourceId).map Prod.snd).getD []

/-- A claim or an exclusion. -/
inductive Entry where
  | claim (claim : Claim)
  | exclusion (exclusion : ClaimExclusion)

/-- What the visit of one block leaves. -/
structure Visit where
  entries : List Entry
  processed : List String
  receipts : List ExtractionReceipt
  sent : List Packet

def leftOut (reason state : String) (ref : Option SourceRef) : Visit where
  entries := [.exclusion ⟨block.sourceId, block.pageNum, reason, state, ref⟩]
  processed := []
  receipts := []
  sent := []

def leftOutInPlace (reason state : String) : Except DiscoveryError Visit := do
  let ref ← (blockSourceRef setting.rules.citation block).mapError .refused
  return leftOut block reason state (some ref)

def qualityState (quality : String) : String :=
  if quality = "conflicted" then "conflict"
  else if quality = "unreadable" then "unreadable"
  else "unknown"

/-- The packet of a block. -/
def packetOf : Packet where
  tenantId := setting.scope.tenantId
  documentVersionId := setting.scope.documentVersionId
  parseManifestId := setting.scope.parseManifestId
  sourceSha256 := setting.graph.identity.sourceSha256
  profile := setting.profile
  sourceId := block.sourceId
  pageNum := block.pageNum
  kind := block.kind
  text := normalizedText setting.rules block

def isFailureCode (code : String) : Bool :=
  ["MODEL", "EXTRACTION", "UPSTAGE", "UPSTREAM", "TABLE", "DISPLAY"].any fun origin =>
    let name := code.toList.drop (origin.length + 1)
    PyText.startsWith code (origin ++ "_") && 1 ≤ name.length && name.length ≤ 72 &&
      name.all fun c => ('A' ≤ c && c ≤ 'Z') || ('0' ≤ c && c ≤ '9') || c == '_'

def failureReason (failureCode : Option String) : String :=
  (failureCode.filter isFailureCode).getD "extraction_failed"

def failed (reason : String) : Except DiscoveryError Visit := do
  let packet := packetOf setting block
  let ref ← (blockSourceRef setting.rules.citation block).mapError .refused
  .ok
    { entries := [.exclusion ⟨block.sourceId, block.pageNum, reason, "unknown", some ref⟩]
      processed := []
      receipts :=
        [⟨block.sourceId, setting.rules.packetHash packet, none, none, setting.profile, .failed⟩]
      sent := [packet] }

def refOf (start stop : Nat) : Except DiscoveryError SourceRef :=
  (spanSourceRef setting.rules block start stop).mapError .refused

def gapEntries (text : String) (cursor start : Nat) : Except DiscoveryError (List Entry) :=
  if PyText.nonBlank (slice text cursor start) then do
    let ref ← refOf setting block cursor start
    return [.exclusion ⟨block.sourceId, block.pageNum, "unprocessed_span", "unknown", some ref⟩]
  else return []

def claimKey (ref : SourceRef) (receipt : ExtractionReceipt) : ClaimKey where
  tenantId := setting.scope.tenantId
  sourceSha256 := setting.graph.identity.sourceSha256
  source := ref
  receipt := receipt

def claimId (ref : SourceRef) (receipt : ExtractionReceipt) : String :=
  setting.rules.uuid5 setting.scope.parseManifestId
    (setting.rules.claimHash (claimKey setting ref receipt))

def spanReason (span : ExtractionSpan) : String :=
  (span.reason.filter fun reason => reason != "").getD "unclassified"

def SpanKind.name : SpanKind → String
  | .claim => "claim"
  | .excluded => "excluded"
  | .unknown => "unknown"

def spanEntry (receipt : ExtractionReceipt) (span : ExtractionSpan)
    (ref : SourceRef) : Except DiscoveryError Entry :=
  if span.kind = .claim then do
    let fragments ← (fragmentRefs setting.rules span.charStart span.charEnd 0
      (setting.partsOf block.sourceId)).mapError .refused
    return .claim
      { claimId := claimId setting ref receipt
        tenantId := setting.scope.tenantId
        documentVersionId := setting.scope.documentVersionId
        parseManifestId := setting.scope.parseManifestId
        sourceSha256 := setting.graph.identity.sourceSha256
        quote := ref.quote
        sourceRefs := ref :: fragments
        sourceQuality := block.quality
        topicIds := span.topicIds
        receipt := receipt
        revision := 1 }
  else
    return .exclusion
      ⟨block.sourceId, block.pageNum, spanReason span, span.kind.name, some ref⟩

def accountSpans (setting : Setting) (block : CanonicalBlock) (receipt : ExtractionReceipt)
    (text : String) : Nat → List ExtractionSpan → Except DiscoveryError (List Entry)
  | _, [] => .ok []
  | cursor, span :: spans => do
    let gap ← gapEntries setting block text cursor span.charStart
    if span.charStart = span.charEnd then return gap
    else do
      let ref ← refOf setting block span.charStart span.charEnd
      let entry ← spanEntry setting block receipt span ref
      let later ← accountSpans setting block receipt text span.charEnd spans
      return gap ++ entry :: later

def endSpan (text : String) : ExtractionSpan where
  charStart := text.length
  charEnd := text.length
  quote := ""
  kind := .unknown
  reason := none
  topicIds := []

def accounted (payload : Json) (spans : List ExtractionSpan) : Except DiscoveryError Visit := do
  let packet := packetOf setting block
  let receipt : ExtractionReceipt :=
    ⟨block.sourceId, setting.rules.packetHash packet, some (setting.rules.responseHash payload),
      some (setting.rules.responseJson payload), setting.profile, .processed⟩
  let entries ← accountSpans setting block receipt packet.text 0 (spans ++ [endSpan packet.text])
  .ok
    { entries := entries
      processed := [block.sourceId]
      receipts := [receipt]
      sent := [packet] }

def visitText (reply : Reply) : Except DiscoveryError Visit :=
  match reply with
  | .outputError failureCode => failed setting block (failureReason failureCode)
  | .transportError => failed setting block "extraction_failed"
  | .raised => .error .extractor
  | .payload payload =>
    match validateExtractionResponse setting.rules.text payload (normalizedText setting.rules block) with
    | .error _ => failed setting block "MODEL_SPAN_OR_SCHEMA_INVALID"
    | .ok spans => accounted setting block payload spans

def visitBlock (extract : Packet → Reply) (block : CanonicalBlock) : Except DiscoveryError Visit :=
  if setting.scope.mode = .declaredSubset ∧ block.pageNum ∉ setting.scope.selectedPages then
    .ok (leftOut block "outside_declared_subset" "excluded" none)
  else if setting.isFragment block.sourceId then
    leftOutInPlace setting block "source_continuation_fragment" "excluded"
  else if readable block = false ∨ block.winner = none then
    .ok (leftOut block block.quality (qualityState block.quality) none)
  else if block.winning = none then .error .indexError
  else if PyText.nonBlank (normalizedText setting.rules block) = false then
    leftOutInPlace setting block "empty_source" "unknown"
  else visitText setting block (extract (packetOf setting block))

/-! ### A document -/

/-- `ClaimExtractorPort`. -/
structure ClaimExtractor where
  profile : ExtractionProfile
  extract : List Packet → Packet → Reply

def visitBlocks (setting : Setting) (extract : List Packet → Packet → Reply) :
    List Packet → List CanonicalBlock → Except DiscoveryError (List Visit)
  | _, [] => .ok []
  | sent, block :: blocks => do
    let visit ← visitBlock setting (extract sent) block
    let later ← visitBlocks setting extract (sent ++ visit.sent) blocks
    return visit :: later

def requireSha256 (name value : String) : Except PyError Unit :=
  refuse (value.length ≠ 64 ∨ value.toList.any fun c => !("0123456789abcdef".toList.contains c))
    (.domainValidation (name ++ " must be a 64-char lowercase hex sha256"))

def scopeIdentity (owner : Numeric.Identity) : String × String × String :=
  (owner.tenantId, owner.documentVersionId, owner.parseManifestId)

def checkBatch (identity : String × String × String) (batch : CandidateBatch) :
    Except PyError Unit := do
  refuse (scopeIdentity batch.identity ≠ identity) (.valueError "candidate identity mismatch")
  refuse (batch.identity.sourceSha256 ≠ graph.identity.sourceSha256)
    (.valueError "candidate artifact identity mismatch")

def checkBlocks (rules : DiscoveryRules) (scope : ClaimScope) :
    List String → List CanonicalBlock → Except PyError Unit
  | _, [] => .ok ()
  | ids, block :: blocks => do
    rules.requireUuid "source_id" block.sourceId
    refuse (block.candidates = [] ∨ block.sourceId ∈ ids)
      (.valueError "empty/duplicate canonical source")
    refuse (∃ candidate ∈ block.candidates,
      (candidate.source.documentVersionId, candidate.source.parseManifestId) ≠
        (scope.documentVersionId, scope.parseManifestId))
      (.valueError "source identity mismatch")
    checkBlocks rules scope (ids ++ [block.sourceId]) blocks

def checkGraph (scope : ClaimScope) : Except PyError Unit := do
  let identity := (scope.tenantId, scope.documentVersionId, scope.parseManifestId)
  refuse (scopeIdentity graph.identity ≠ identity) (.valueError "graph identity mismatch")
  requireSha256 "source_sha256" graph.identity.sourceSha256
  graph.candidates.forM (checkBatch graph identity)
  checkBlocks rules scope [] graph.blocks

def claimOf : Entry → Option Claim
  | .claim claim => some claim
  | .exclusion _ => none

def exclusionOf : Entry → Option ClaimExclusion
  | .claim _ => none
  | .exclusion exclusion => some exclusion

def resultOf (visits : List Visit) : ClaimDiscovery where
  scope := setting.scope
  sourceSha256 := setting.graph.identity.sourceSha256
  claims := (visits.flatMap Visit.entries).filterMap claimOf
  exclusions := (visits.flatMap Visit.entries).filterMap exclusionOf
  processedSourceIds := visits.flatMap Visit.processed
  receipts := visits.flatMap Visit.receipts
  synthetic := setting.profile.synthetic || setting.graph.candidates.any fun batch => batch.synthetic
  qualityIssues := setting.graph.issues

def discoverAtomicClaims (scope : ClaimScope) (extractor : ClaimExtractor) :
    Except DiscoveryError (ClaimDiscovery × List Packet) := do
  (checkGraph rules graph scope).mapError .refused
  let joined ← continuations graph
  let setting : Setting := ⟨rules, graph, scope, extractor.profile, joined⟩
  let ordered := sortedBy (fun block => toLex (block.pageNum, block.sourceId)) graph.blocks
  let visits ← visitBlocks setting extractor.extract [] ordered
  return (resultOf setting visits, visits.flatMap Visit.sent)

end ProofOps.Application.Claims
