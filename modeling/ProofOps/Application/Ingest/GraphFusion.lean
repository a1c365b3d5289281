import Mathlib.Data.Prod.Lex
import Mathlib.Data.String.Basic
import ProofOps.Domain.Numeric.Lineage
import ProofOps.Foundation.Binary64
import ProofOps.Foundation.Grouping
import ProofOps.Foundation.Sorting

/-!
# Fusion of parser candidates

`proofops.application.ingest.graph_fusion`: the candidate batches of one document, the
alignment test, and the greedy grouping of aligned candidates into canonical blocks.  The
groups of one page and kind form a bucket, and a candidate is tested against the groups of
its own bucket only.
-/

namespace ProofOps.Application.Ingest

open Foundation Domain Foundation.Checked Foundation.Sorting Domain.Numeric

/-! ### Page geometry -/

inductive Rotation where
  | r0
  | r90
  | r180
  | r270
  deriving DecidableEq

structure Affine where
  (a b c d e f : Binary64)

/-- `_compose_affine`. -/
def composeAffine (outer inner : Affine) : Affine where
  a := (outer.a.mul inner.a).add (outer.c.mul inner.b)
  b := (outer.b.mul inner.a).add (outer.d.mul inner.b)
  c := (outer.a.mul inner.c).add (outer.c.mul inner.d)
  d := (outer.b.mul inner.c).add (outer.d.mul inner.d)
  e := ((outer.a.mul inner.e).add (outer.c.mul inner.f)).add outer.e
  f := ((outer.b.mul inner.e).add (outer.d.mul inner.f)).add outer.f

/-- `affine_apply`. -/
def affineApply (matrix : Affine) (x y : Binary64) : Binary64 × Binary64 :=
  (((matrix.a.mul x).add (matrix.c.mul y)).add matrix.e,
    ((matrix.b.mul x).add (matrix.d.mul y)).add matrix.f)

/-- `abs(x)`. -/
def absolute (x : Binary64) : Binary64 :=
  if x.lt (.finite 0) then x.neg else x

def tolerance : Binary64 :=
  .ofRat (1 / 1000000)

variable (box : Bbox)

def width : Binary64 :=
  Binary64.sub (.finite box.x1) (.finite box.x0)

def height : Binary64 :=
  Binary64.sub (.finite box.y1) (.finite box.y0)

def displayed (rotation : Rotation) (cropBox : Bbox) : Binary64 × Binary64 :=
  match rotation with
  | .r0 | .r180 => (width cropBox, height cropBox)
  | .r90 | .r270 => (height cropBox, width cropBox)

def extentsConsistent (widthPt heightPt : ℚ) (rotation : Rotation) (cropBox : Bbox) : Bool :=
  let expected := displayed rotation cropBox
  !(tolerance.lt (absolute (Binary64.sub (.finite widthPt) expected.1)) ||
    tolerance.lt (absolute (Binary64.sub (.finite heightPt) expected.2)))

/-- `PageGeometry`. -/
structure PageGeometry where
  (widthPt heightPt : ℚ)
  rotation : Rotation
  cropBox : Bbox
  width_pos : 0 < widthPt
  height_pos : 0 < heightPt
  consistent : extentsConsistent widthPt heightPt rotation cropBox = true
  deriving DecidableEq

variable (geometry : PageGeometry)

def PageGeometry.toCanonicalAffine : Affine :=
  let zero := Binary64.finite 0
  let one := Binary64.finite 1
  let minus := Binary64.finite (-1)
  let cropWidth := width geometry.cropBox
  let cropHeight := height geometry.cropBox
  let translate : Affine :=
    ⟨one, zero, zero, one, .finite (-geometry.cropBox.x0), .finite (-geometry.cropBox.y0)⟩
  let rotate : Affine :=
    match geometry.rotation with
    | .r0 => ⟨one, zero, zero, one, zero, zero⟩
    | .r90 => ⟨zero, minus, one, zero, zero, cropWidth⟩
    | .r180 => ⟨minus, zero, zero, minus, cropWidth, cropHeight⟩
    | .r270 => ⟨zero, one, minus, zero, cropHeight, zero⟩
  let flip : Affine := ⟨one, zero, zero, minus, zero, .finite geometry.heightPt⟩
  composeAffine flip (composeAffine rotate translate)

/-- `_bbox_corners`. -/
def projectNativeBbox : (Binary64 × Binary64) × Binary64 × Binary64 :=
  let corner := fun x y => affineApply geometry.toCanonicalAffine (.finite x) (.finite y)
  let first := corner box.x0 box.y0
  let others := [corner box.x1 box.y0, corner box.x1 box.y1, corner box.x0 box.y1]
  let xs := others.map Prod.fst
  let ys := others.map Prod.snd
  ((xs.foldl Binary64.min first.1, ys.foldl Binary64.min first.2),
    xs.foldl Binary64.max first.1, ys.foldl Binary64.max first.2)

def onPage (box : Bbox) : Bool :=
  !((Binary64.finite box.x0).lt tolerance.neg || (Binary64.finite box.y0).lt tolerance.neg ||
    ((Binary64.finite geometry.widthPt).add tolerance).lt (.finite box.x1) ||
    ((Binary64.finite geometry.heightPt).add tolerance).lt (.finite box.y1))

def canonicalBboxFromNative (nativeBbox : Option Bbox) (geometry : PageGeometry) : Option Bbox :=
  match nativeBbox with
  | none => none
  | some native =>
    match projectNativeBbox native geometry with
    | ((.finite x0, .finite y0), .finite x1, .finite y1) =>
      if h : x0 < x1 ∧ y0 < y1 then
        let box : Bbox := ⟨x0, y0, x1, y1, h.1, h.2⟩
        if onPage geometry box then some box else none
      else none
    | _ => none

/-! ### Intersection over union -/

def common (start stop start' stop' : ℚ) : Binary64 :=
  Binary64.max (.finite 0) (Binary64.sub (.finite (min stop stop')) (.finite (max start start')))

variable (a b : Bbox)

def intersection : Binary64 :=
  (common a.x0 a.x1 b.x0 b.x1).mul (common a.y0 a.y1 b.y0 b.y1)

/-- The area of a box. -/
def area : Binary64 :=
  (width box).mul (height box)

def union : Binary64 :=
  ((area a).add (area b)).sub (intersection a b)

def overlaps : Option Bool :=
  ((intersection a b).div (union a b)).map fun ratio => (Binary64.ofRat (4 / 5)).le ratio

theorem common_comm (start stop start' stop' : ℚ) :
    common start stop start' stop' = common start' stop' start stop := by
  unfold common
  rw [min_comm, max_comm]

/-- Sharing is symmetric. -/
theorem intersection_comm : intersection a b = intersection b a := by
  unfold intersection
  rw [common_comm a.x0, common_comm a.y0]

theorem overlaps_comm : overlaps a b = overlaps b a := by
  unfold overlaps union
  rw [intersection_comm a b, Binary64.add_comm (area a)]

theorem common_within {start stop start' stop' : ℚ} (h : start < stop) :
    Binary64.Within (common start stop start' stop')
      (Binary64.sub (.finite stop) (.finite start)) := by
  have hlength : min stop stop' + -max start start' ≤ stop + -start :=
    add_le_add (min_le_left _ _) (neg_le_neg (le_max_left _ _))
  exact Binary64.within_clipped (by linarith) hlength

theorem intersection_le {a b : Bbox} {value : ℚ} (h : area a = .finite value) :
    Rounding.Representable value ∧ ∃ smaller, intersection a b = .finite smaller ∧
      Rounding.Representable smaller ∧ 0 ≤ smaller ∧ smaller ≤ value :=
  Binary64.mul_mono (common_within a.width_pos) (common_within a.height_pos) h

theorem intersection_of_area_zero {a b : Bbox} (h : area a = .finite 0) :
    intersection a b = .finite 0 := by
  obtain ⟨-, smaller, hsmaller, -, hnonneg, hle⟩ := @intersection_le a b 0 h
  rw [hsmaller, le_antisymm hle hnonneg]

theorem union_eq_zero_iff {a b : Bbox} :
    union a b = .finite 0 ↔ area a = .finite 0 ∧ area b = .finite 0 := by
  constructor
  · intro h
    obtain ⟨total, part, htotal, hpart⟩ := Binary64.sub_finite h
    obtain ⟨x, y, hx, hy⟩ := Binary64.add_finite htotal
    obtain ⟨hxr, smaller, hsmaller, hsr, hnonneg, hsx⟩ := @intersection_le a b x hx
    obtain ⟨hyr, other, hother, -, -, hsy⟩ := @intersection_le b a y hy
    rw [intersection_comm, hsmaller] at hother
    cases hother
    unfold union at h
    rw [hx, hy, hsmaller] at h
    obtain ⟨rfl, rfl⟩ := Binary64.eq_zero_of_add_sub hxr hyr hsr hnonneg hsx hsy h
    exact ⟨hx, hy⟩
  · rintro ⟨ha, hb⟩
    unfold union
    rw [ha, hb, intersection_of_area_zero ha]
    simp [Binary64.add, Binary64.sub, Binary64.neg]

theorem overlaps_eq_none_iff {a b : Bbox} :
    overlaps a b = none ↔ area a = .finite 0 ∧ area b = .finite 0 := by
  unfold overlaps
  rw [Option.map_eq_none_iff, Binary64.div_eq_none_iff, union_eq_zero_iff]

theorem overlaps_of_area_zero {a b : Bbox} (h : area a = .finite 0) : overlaps a b ≠ some true := by
  unfold overlaps
  rw [intersection_of_area_zero h]
  intro hoverlap
  obtain ⟨ratio, hratio, hle⟩ := Option.map_eq_some_iff.mp hoverlap
  rcases Binary64.zero_div hratio with rfl | rfl
  · revert hle
    decide +kernel
  · revert hle
    decide +kernel

/-- What `fuse_candidates` raises. -/
inductive FusionError where
  | valueError (message : String)
  | zeroDivision
  deriving DecidableEq

/-- `KINDS`. -/
inductive Kind where
  | paragraph
  | heading
  | table
  | tableRow
  | tableCell
  | caption
  | footnote
  | figure
  | unknown
  deriving DecidableEq

/-- `RELATIONS`. -/
inductive Relation where
  | derivedFrom
  | tableParent
  | captionOf
  | footnoteOf
  | sameStatement
  | sectionParent
  | aliasOf
  deriving DecidableEq

def Relation.name : Relation → String
  | derivedFrom => "derived_from"
  | tableParent => "table_parent"
  | captionOf => "caption_of"
  | footnoteOf => "footnote_of"
  | sameStatement => "same_statement"
  | sectionParent => "section_parent"
  | aliasOf => "alias_of"

/-- `CandidateBlock`. -/
structure CandidateBlock where
  kind : Kind
  source : NativeSource
  geometry : PageGeometry
  context : List String
  tableNativeId : Option String
  (rowNumber columnNumber rowSpan columnSpan : Option Int)
  deriving DecidableEq

/-- `CandidateBlock.bbox`. -/
def CandidateBlock.bbox (block : CandidateBlock) : Option Bbox :=
  canonicalBboxFromNative block.source.nativeBbox block.geometry

def CandidateBlock.hasInvalidGeometry (block : CandidateBlock) : Bool :=
  block.source.nativeBbox.isSome && block.bbox.isNone

structure CandidateEdge where
  (sourceNativeId targetNativeId : String)
  relation : Relation
  deriving DecidableEq

/-- `CandidateBatch`. -/
structure CandidateBatch where
  identity : Identity
  (parserRunId parserName parserFamily : String)
  blocks : List CandidateBlock
  edges : List CandidateEdge
  synthetic : Bool
  own_blocks : ∀ block ∈ blocks, block.source.documentVersionId = identity.documentVersionId ∧
    block.source.parseManifestId = identity.parseManifestId ∧
    block.source.parserRunId = parserRunId
  native_nodup : (blocks.map fun block => block.source.sourceNativeId).Nodup
  deriving DecidableEq

/-- `CanonicalEdge`. -/
structure CanonicalEdge where
  (sourceId targetId : String)
  relation : Relation
  deriving DecidableEq

/-- `QualityIssue`. -/
structure QualityIssue where
  (issueId kind : String)
  pageNum : Nat
  sourceIds : List String
  (state reason : String)
  deriving DecidableEq

/-- `CanonicalBlock`. -/
structure CanonicalBlock where
  sourceId : String
  kind : Kind
  candidates : List CandidateBlock
  independentFamilies : List String
  quality : String
  winner : Option Nat
  deriving DecidableEq

variable (block : CanonicalBlock)

def CanonicalBlock.pageNum : Nat :=
  (block.candidates.head?.map fun candidate => candidate.source.physicalPage).getD 0

/-- `candidates[winner]`. -/
def CanonicalBlock.winning : Option CandidateBlock :=
  block.winner.bind fun index => block.candidates[index]?

def CanonicalBlock.rawText : String :=
  (block.winning.map fun candidate => candidate.source.rawText).getD ""

/-- The graph of a document. -/
structure CanonicalDocumentGraph where
  identity : Identity
  blocks : List CanonicalBlock
  edges : List CanonicalEdge
  issues : List QualityIssue
  candidates : List CandidateBatch
  deriving DecidableEq

variable (version : Nat)

def fusedContext (block : CandidateBlock) : List String :=
  let entries := block.context.filter fun entry =>
    version < 5 || !(PyText.startsWith entry "mixed_parser_name=" ||
      PyText.startsWith entry "mixed_parser_version=")
  if 2 ≤ version ∧ block.kind = .tableCell then
    entries.filter fun entry =>
      !(PyText.startsWith entry "row number=" || PyText.startsWith entry "column number=")
  else entries

/-- `_matches`. -/
def matchesBlock (left right : CandidateBlock) : Except FusionError Bool :=
  if left.kind ≠ right.kind ∨ left.source.physicalPage ≠ right.source.physicalPage then .ok false
  else
    match left.bbox, right.bbox with
    | some a, some b =>
      if fusedContext version left ≠ fusedContext version right then .ok false
      else
        match overlaps a b with
        | some aligned => .ok aligned
        | none => .error .zeroDivision
    | _, _ => .ok false

abbrev Entry := CandidateBatch × CandidateBlock

variable (candidates : List CandidateBatch)

def entriesOf : List Entry :=
  candidates.flatMap fun batch => batch.blocks.map fun block => (batch, block)

def Entry.key (entry : Entry) : String × String :=
  (entry.1.parserRunId, entry.2.source.sourceNativeId)

def tableOf (entry : Entry) : Option CandidateBlock :=
  entry.2.tableNativeId.bind fun native =>
    (((entriesOf candidates).filter fun other => other.2.kind = .table).reverse.find? fun other =>
      Entry.key other = (entry.1.parserRunId, native)).map Prod.snd

def compatibleTables (left right : Entry) : Except FusionError Bool :=
  if version < 4 ∨ left.2.kind = .table then .ok true
  else if left.2.tableNativeId = none ∧ right.2.tableNativeId = none then .ok true
  else
    match tableOf candidates left, tableOf candidates right with
    | some a, some b => matchesBlock version a b
    | _, _ => .ok false

def joins (item entry : Entry) : Except FusionError Bool :=
  match matchesBlock version item.2 entry.2 with
  | .ok true => compatibleTables version candidates item entry
  | other => other

abbrev Group := List Entry

def Entry.bucket (entry : Entry) : Nat × Kind :=
  (entry.2.source.physicalPage, entry.2.kind)

def orderedBatches : List CandidateBatch :=
  sortedBy (fun batch => toLex (batch.parserName, batch.parserRunId)) candidates

def orderedEntries (batch : CandidateBatch) : List Entry :=
  (sortedBy (fun block => toLex (block.source.physicalPage, block.source.sourceNativeId))
    batch.blocks).map fun block => (batch, block)

def scanOrder (ordered : List CandidateBatch) : List Entry :=
  ordered.flatMap orderedEntries

def groupCandidates (ordered : List CandidateBatch) : Except FusionError (List Group) :=
  (Grouping.Buckets.empty.placeAll (joins version candidates) Entry.bucket
    (scanOrder ordered)).map Grouping.Buckets.groups

/-! ### Canonical blocks -/

/-- `_hash`. -/
structure FusionRules where
  normalize : String → String
  blockId : String → String → List (String × String) → String
  issueId : String → String → String

variable (rules : FusionRules)

def hasConflict (group : Group) : Bool :=
  ((group.map fun entry => rules.normalize entry.2.source.rawText).dedup).length > 1

def groupQuality (group : Group) : String :=
  if hasConflict rules group then "conflicted"
  else if (group.head?.bind fun entry => entry.2.bbox).isNone then "unlocated"
  else "unverified"

variable (identity : Identity)

def canonicalBlock (group : Group) : CanonicalBlock where
  sourceId := rules.blockId identity.parseManifestId identity.tenantId (group.map Entry.key)
  kind := (group.head?.map fun entry => entry.2.kind).getD .unknown
  candidates := group.map Prod.snd
  independentFamilies := sortedBy id (group.map fun entry => entry.1.parserFamily).dedup
  quality := groupQuality rules group
  winner := if hasConflict rules group then none else some 0

def groupIssue (group : Group) : Option QualityIssue :=
  let canonical := canonicalBlock rules identity group
  if canonical.quality = "conflicted" ∨ canonical.quality = "unlocated" then
    let invalid := group.any fun entry => entry.2.hasInvalidGeometry
    let conflict := hasConflict rules group
    some
      { issueId := rules.issueId canonical.sourceId canonical.quality
        kind :=
          if invalid then "source_geometry_invalid"
          else if conflict then "parse_conflict" else "source_unlocated"
        pageNum := canonical.pageNum
        sourceIds := [canonical.sourceId]
        state := if invalid then "unreadable" else "open"
        reason :=
          if invalid then "Parser geometry is outside page bounds; original coordinates retained."
          else if conflict then "Candidate content disagrees; no winner selected."
          else "Parser did not provide source geometry." }
  else none

def aliasOf (groups : List Group) (key : String × String) : Option String :=
  (groups.reverse.find? fun group => (group.map Entry.key).contains key).map fun group =>
    (canonicalBlock rules identity group).sourceId

def canonicalEdge (groups : List Group)
    (batch : CandidateBatch) (edge : CandidateEdge) : Except FusionError CanonicalEdge :=
  match aliasOf rules identity groups (batch.parserRunId, edge.sourceNativeId),
    aliasOf rules identity groups (batch.parserRunId, edge.targetNativeId) with
  | some origin, some target => .ok ⟨origin, target, edge.relation⟩
  | _, _ => .error (.valueError "dangling native edge")

def admitBatches (identity : Identity) : List String → List CandidateBatch → Except FusionError Unit
  | _, [] => .ok ()
  | seen, batch :: rest => do
    refuse (batch.identity ≠ identity) (.valueError "tenant/version/source/manifest mismatch")
    refuse (batch.parserRunId ∈ seen) (.valueError "duplicate parser run")
    admitBatches identity (batch.parserRunId :: seen) rest

def admitted (tenantId : String) (version : Nat)
    (mixedParser : Bool) : Except FusionError Identity :=
  match candidates with
  | [] => .error (.valueError
      "no parser candidates; parser failure is not an empty successful graph")
  | first :: _ => do
    refuse (version ∉ [1, 2, 3, 4, 5]) (.valueError "unsupported fusion version")
    refuse (version = 5 ∧ mixedParser = false)
      (.valueError "unsupported fusion version without mixed profile")
    refuse (version < 3 ∧ ∃ entry ∈ entriesOf candidates, entry.2.hasInvalidGeometry = true)
      (.valueError "legacy fusion does not admit invalid geometry")
    let identity := { first.identity with tenantId := tenantId }
    admitBatches identity [] candidates
    .ok identity

def assemble (ordered : List CandidateBatch)
    (groups : List Group) : Except FusionError CanonicalDocumentGraph := do
  let edges ← (ordered.flatMap fun batch => batch.edges.map fun edge => (batch, edge)).mapM
    fun pair => canonicalEdge rules identity groups pair.1 pair.2
  .ok
    { identity := identity
      blocks := sortedBy (fun block => toLex (block.pageNum, block.sourceId))
        (groups.map (canonicalBlock rules identity))
      edges := sortedBy
        (fun edge => toLex (edge.sourceId, toLex (edge.targetId, edge.relation.name))) edges.dedup
      issues := sortedBy QualityIssue.issueId (groups.filterMap (groupIssue rules identity))
      candidates := ordered }

/-- `fuse_candidates`. -/
def fuseCandidates (rules : FusionRules) (candidates : List CandidateBatch) (tenantId : String)
    (version : Nat) (mixedParser : Bool) : Except FusionError CanonicalDocumentGraph := do
  let identity ← admitted candidates tenantId version mixedParser
  let ordered := orderedBatches candidates
  let groups ← groupCandidates version candidates ordered
  assemble rules identity ordered groups

end ProofOps.Application.Ingest
