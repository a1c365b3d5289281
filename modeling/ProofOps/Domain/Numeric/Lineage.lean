import Mathlib.Data.List.Dedup
import ProofOps.Domain.Numeric.Literals
import ProofOps.Domain.Values

/-!
# Source verification and lineage

Verification of a source reference against the pinned snapshot, and the lineage
sweeps: which table a cell belongs to, which notes and which open issues reach
it.  Python sets are lists here; only membership and emptiness are read, and a
caller that sorts a set removes repetitions first.
-/

namespace ProofOps.Domain.Numeric

open Foundation Foundation.PyText

/-! ### Records of the numeric check -/

/-- The kinds of numeric claims. -/
inductive CheckKind where
  | comparison
  | sum
  | reduction
  | growth
  | productReduction
  deriving DecidableEq

/-- The states of a check. -/
inductive CheckStatus where
  | consistent
  | inconsistent
  | notComparable
  | notComputable
  deriving DecidableEq

/-- `NativeSource`. -/
structure NativeSource where
  (documentVersionId parseManifestId parserRunId sourceNativeId : String)
  physicalPage : Nat
  printedPageLabel : Option String
  nativeBbox : Option Bbox
  rawText : String
  (charStart charEnd : Nat)
  deriving DecidableEq

/-- `NumericCandidate`. -/
structure NumericCandidate where
  source : NativeSource
  (rowNumber columnNumber columnSpan : Option Int)
  bbox : Option Bbox
  geometry : String
  deriving DecidableEq

/-- `NumericBlock`. -/
structure NumericBlock where
  (sourceId kind : String)
  candidates : List NumericCandidate
  independentFamilies : List String
  quality : String
  winner : Option Int
  deriving DecidableEq

def NumericBlock.winning (block : NumericBlock) : Option NumericCandidate :=
  match block.winner with
  | some (.ofNat index) => block.candidates[index]?
  | _ => none

/-- `_identity`. -/
structure Identity where
  (tenantId documentVersionId parseManifestId sourceSha256 : String)
  deriving DecidableEq

/-- `NumericBatch`. -/
structure NumericBatch where
  identity : Identity
  parserRunId : String
  blocks : List NumericCandidate

/-- `NumericEdge`. -/
structure NumericEdge where
  (sourceId targetId relation : String)

/-- `NumericIssue`. -/
structure NumericIssue where
  issueId : String
  sourceIds : List String
  state : String

/-- `NumericSnapshot`. -/
structure NumericSnapshot where
  identity : Identity
  blocks : List NumericBlock
  candidates : List NumericBatch
  edges : List NumericEdge
  issues : List NumericIssue

/-- `NumericClaim`. -/
structure NumericClaim where
  claimId : String
  identity : Identity
  (quote sourceQuality : String)
  sourceRefs : List SourceRef

structure ParentRelation where
  (source target name : String)

/-- `NumericObservation`. -/
structure NumericObservation where
  (observationId tableId : String)
  (row column : Int)
  identity : Identity
  metricRaw : String
  (scope subject : Option String)
  reportingPeriod : String
  (scope2Basis organizationalBoundary unitRaw unitCanonical : Option String)
  scaleMultiplier : String
  denominator : Option String
  valueRaw : String
  valueDecimal : Option String
  (valueState quality : String)
  sourceRefs : List SourceRef
  sourceBlocks : List NumericBlock
  parentRelations : List ParentRelation

/-- `AggregationRelation`. -/
structure AggregationRelation where
  targetClaimId : String
  observationIds : List String
  bindingSha256 : String
  sourceRefs : List SourceRef
  (relation acceptanceState : String)

/-- `NumericCondition`. -/
structure NumericCondition where
  sourceRef : SourceRef
  observationIds : List String
  (bindingSha256 relation acceptanceState reviewedBy : String)

/-- What a quantity measures. -/
inductive QuantityKind where
  | absolute
  | intensity
  deriving DecidableEq

/-- `ClaimBinding`. -/
structure ClaimBinding where
  (claimId tenantId documentVersionId : String)
  kind : CheckKind
  observationIds : List String
  reportedValue : Option String
  metricRaw : String
  (scope subject scope2Basis organizationalBoundary unit denominator : Option String)
  sourceRefs : List SourceRef
  (parseManifestId reportingPeriod : Option String)
  quantityKind : Option QuantityKind
  baselinePeriod : Option String
  reportedValueRef : Option SourceRef
  bindingAccepted : Bool
  aggregation : Option AggregationRelation
  baselineSubject : Option String
  (subjectRef baselineSubjectRef : Option SourceRef)
  productComparisonAccepted : Bool
  conditions : List NumericCondition
  ids_nonempty : claimId ≠ "" ∧ tenantId ≠ "" ∧ documentVersionId ≠ ""
  observations_nonempty : observationIds ≠ []
  observations_nodup : observationIds.Nodup
  comparison_single : kind = .comparison → observationIds.length = 1
  rate_pair : kind = .reduction ∨ kind = .growth ∨ kind = .productReduction →
    observationIds.length = 2
  refs_nonempty : sourceRefs ≠ []
  refs_same_document : ∀ ref ∈ sourceRefs, ref.documentVersionId = documentVersionId
  conditions_rate : conditions ≠ [] → kind = .growth ∨ kind = .productReduction

/-- `CheckResult`. -/
structure CheckResult where
  claimId : String
  kind : CheckKind
  status : CheckStatus
  (reportedValue computedValue : Option String)
  observationIds : List String
  sourceRefs : List SourceRef
  reason : Option String
  exactRatio : Option (String × String)

/-- The hashes the checks compare. -/
structure NumericHash where
  text : String → String
  conditionBinding : ClaimBinding → String
  aggregationBinding : ClaimBinding → String
  legacyAggregationBinding : ClaimBinding → String

def lastBlock (blocks : List NumericBlock) (sourceId : String) : Option NumericBlock :=
  blocks.reverse.find? fun block => block.sourceId == sourceId

variable (original : NumericSnapshot)

def blocksDistinct : Bool :=
  decide (original.blocks.map NumericBlock.sourceId).Nodup

def winningCandidate (ref : SourceRef) : Option NumericCandidate :=
  match lastBlock original.blocks ref.sourceId with
  | some block => if block.quality == "verified" then block.winning else none
  | none => none

def candidateRegistered (candidate : NumericCandidate) : Bool :=
  original.candidates.any fun batch =>
    batch.identity == original.identity && batch.parserRunId == candidate.source.parserRunId &&
      batch.blocks.contains candidate

variable (hash : NumericHash)

def quotesCandidate (original : NumericSnapshot) (ref : SourceRef)
    (candidate : NumericCandidate) : Bool :=
  let source := candidate.source
  let text := source.rawText.toList
  source.documentVersionId == original.identity.documentVersionId &&
    source.parseManifestId == original.identity.parseManifestId &&
    source.physicalPage == ref.pageNum && source.printedPageLabel == ref.printedPageLabel &&
    candidate.bbox == ref.bbox && hash.text source.rawText == ref.rawTextSha256 &&
    ref.charStart < ref.charEnd && ref.charEnd ≤ text.length &&
    ((text.drop ref.charStart).take (ref.charEnd - ref.charStart)) == ref.quote.toList &&
    nonBlank ref.quote

/-- `_verified`. -/
def verified (original : NumericSnapshot) (ref : SourceRef) : Bool :=
  ref.verificationState == .verified && ref.locationQuality == .located && ref.bbox.isSome &&
    ref.documentVersionId == original.identity.documentVersionId &&
    ref.parseManifestId == original.identity.parseManifestId && blocksDistinct original &&
    match winningCandidate original ref with
    | some candidate =>
      candidateRegistered original candidate && quotesCandidate hash original ref candidate
    | none => false

/-! ### Sweeps -/

def sweep (next : String → List String) : Nat → List String → List String → List String
  | 0, seen, _ => seen
  | _ + 1, seen, [] => seen
  | fuel + 1, seen, node :: pending =>
    let fresh := (next node).dedup.filter fun target => !seen.contains target
    sweep next fuel (seen ++ fresh) (fresh ++ pending)

def sweepFrom (edges : List NumericEdge) (next : String → List String) (starts : List String) :
    List String :=
  sweep next (starts.length + edges.length) starts starts

def tableParents (edges : List NumericEdge) (node : String) : List String :=
  (edges.filter fun edge => edge.relation == "table_parent" && edge.sourceId == node).map
    NumericEdge.targetId

def intersects (first second : List String) : Bool :=
  first.any second.contains

def unresolvedSourceIssueIds (sourceIds : List String) : List String :=
  let related := sweepFrom original.edges (tableParents original.edges) sourceIds
  (original.issues.filter fun issue =>
    (issue.state == "open" || issue.state == "unreadable") &&
      intersects related issue.sourceIds).map NumericIssue.issueId

structure CellPosition where
  source : String
  (row start stop : Int)

def cellPositions (tableId : String) : List CellPosition :=
  let children := (original.edges.filter fun edge =>
    edge.relation == "table_parent" && edge.targetId == tableId).map NumericEdge.sourceId
  (original.blocks.filter fun block => children.contains block.sourceId).flatMap fun block =>
    block.candidates.filterMap fun candidate =>
      match candidate.rowNumber, candidate.columnNumber with
      | some row, some column =>
        let span := if candidate.columnSpan.getD 0 = 0 then 1 else candidate.columnSpan.getD 0
        some { source := block.sourceId, row := row, start := column, stop := column + span }
      | _, _ => none

/-- `column_note_targets`. -/
def columnNoteTargets (tableId : String) (targets : List String) : List String :=
  let positioned := cellPositions original tableId
  match (positioned.map CellPosition.row).min? with
  | none => []
  | some firstRow =>
    let columns := positioned.filter fun cell => targets.contains cell.source
    (positioned.filter fun cell =>
      cell.row == firstRow &&
        columns.any fun column => cell.start < column.stop && column.start < cell.stop).map
      CellPosition.source

def footnoteIds : List String :=
  (original.blocks.filter fun block => block.kind == "footnote").map NumericBlock.sourceId

variable (item : NumericObservation)

def relationSources : List String :=
  (item.parentRelations.map ParentRelation.source).dedup

/-- `_note_targets`. -/
def noteTargets (original : NumericSnapshot) : List String :=
  let targets := sweepFrom original.edges (tableParents original.edges) (relationSources item)
  if targets.contains item.tableId then
    let related := (item.parentRelations.map ParentRelation.target).filter fun target =>
      !(footnoteIds original).contains target
    let targets := targets ++ related
    targets ++ columnNoteTargets original item.tableId targets
  else
    []

def notesOf (targets : List String) : List String :=
  (original.edges.filter fun edge =>
    edge.relation == "footnote_of" && targets.contains edge.targetId).map NumericEdge.sourceId

def ownedNodes : List String :=
  let tables := (original.blocks.filter fun block => block.kind == "table").map
    NumericBlock.sourceId
  let known := (original.blocks.filter fun block =>
    block.kind == "table_cell" || block.kind == "table_row").map NumericBlock.sourceId
  let children := fun node => (original.edges.filter fun edge =>
    edge.relation == "table_parent" && edge.targetId == node && known.contains edge.sourceId).map
      NumericEdge.sourceId
  sweepFrom original.edges children tables

def pagesOf (sourceId : String) : List Nat :=
  ((lastBlock original.blocks sourceId).map fun block =>
    block.candidates.map fun candidate => candidate.source.physicalPage).getD []

/-- `unassigned_note_ids`. -/
def unassignedNoteIds (sourceId : String) : List String :=
  match lastBlock original.blocks sourceId with
  | none => []
  | some block =>
    if !(["table", "table_row", "table_cell", "footnote"].contains block.kind) then []
    else
      let owned := ownedNodes original
      let assigned := notesOf original owned
      if block.kind == "footnote" then
        if assigned.contains sourceId then [] else [sourceId]
      else
        let parents := fun node =>
          (tableParents original.edges node).filter fun parent => owned.contains parent
        let related := sweepFrom original.edges parents [sourceId]
        let pages := related.flatMap (pagesOf original)
        (original.blocks.filter fun note =>
          note.kind == "footnote" && !assigned.contains note.sourceId &&
            note.candidates.any fun candidate =>
              pages.contains candidate.source.physicalPage).map NumericBlock.sourceId

def rootHolds (original : NumericSnapshot) (root : NumericBlock) : List String × List String :=
  let unassigned := unassignedNoteIds original root.sourceId
  let owner := if unassigned ≠ [] then ["footnote_owner_unresolved"] else []
  match root.winning with
  | none => (unassigned, owner ++ ["observation_root_unresolved"])
  | some candidate =>
    let placed := candidate.rowNumber == some item.row &&
      candidate.columnNumber == some item.column
    let sourced := item.sourceRefs.any fun ref =>
      ref.sourceId == root.sourceId && ref.quote == item.valueRaw && verified hash original ref
    (unassigned, owner ++ if placed && sourced then [] else ["observation_source_unverified"])

def noteHolds (original : NumericSnapshot)
    (acceptedNoteIds : List String) (note : NumericBlock) : List String × List String :=
  match note.winning with
  | none => ([note.sourceId], ["footnote_source_unverified"])
  | some candidate =>
    let raw := candidate.source.rawText
    let unit := unitNoteLiteral raw
    let scope := scopeNoteLiteral raw
    let read := acceptedNoteIds.contains note.sourceId || (unit.isSome && unit == item.unitRaw) ||
      (scope.isSome && scope == item.scope)
    let sourced := item.sourceRefs.any fun ref =>
      ref.sourceId == note.sourceId && ref.quote == raw && verified hash original ref
    (if read && sourced then [] else [note.sourceId],
      (if read then [] else ["footnote_condition_unsupported_or_mismatched"]) ++
        if sourced then [] else ["footnote_source_unverified"])

/-- `_footnote_holds`. -/
def footnoteHolds (original : NumericSnapshot)
    (acceptedNoteIds : List String) : List String × List String :=
  let rootIds := relationSources item
  let roots := item.sourceBlocks.filter fun block => rootIds.contains block.sourceId
  let rootReason := if rootIds.length ≠ 1 ∨ roots.length ≠ 1 then ["observation_root_unresolved"]
    else []
  let rootResults := roots.map (rootHolds hash item original)
  let targets := noteTargets item original
  let tableReason := if targets.contains item.tableId then []
    else ["observation_table_lineage_unresolved"]
  let required := (notesOf original targets).dedup
  let selected := original.blocks.filter fun block => required.contains block.sourceId
  let found := (selected.map NumericBlock.sourceId).dedup
  let ambiguous := found.length ≠ selected.length
  let missing := required.filter fun note => !found.contains note
  let noteResults := (found.filterMap (lastBlock selected)).map
    (noteHolds hash item original acceptedNoteIds)
  (rootResults.flatMap Prod.fst ++ (if ambiguous then required else []) ++ missing ++
      noteResults.flatMap Prod.fst,
    rootReason ++ rootResults.flatMap Prod.snd ++ tableReason ++
      (if ambiguous then ["footnote_source_ambiguous"] else []) ++
      (if missing ≠ [] then ["footnote_source_missing"] else []) ++
      noteResults.flatMap Prod.snd)

/-- `_unresolved_footnotes`. -/
def unresolvedFootnotes (original : NumericSnapshot) (acceptedNoteIds : List String) : Bool :=
  !(footnoteHolds hash item original acceptedNoteIds).2.isEmpty

end ProofOps.Domain.Numeric
