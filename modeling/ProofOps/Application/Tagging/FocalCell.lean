import ProofOps.Application.Ingest.TableRows

/-!
# The focal cell of a claim

`_focal_cell` of `table_sources`: rows are read from the NFC text of a table, and compared with the
offsets of a reference into its raw text.  Without such a row the cell is looked for among the
ancestors of the block (`focal_cell_nearest`).
-/

namespace ProofOps.Application.Tagging.FocalCell

open Foundation Foundation.Checked Domain Evidence Ingest Claims
open TableRows (Alphabet Row)

/-- What `_coordinates` returns. -/
structure Coordinates where
  tableNativeId : String
  (row column rowSpan columnSpan : Nat)

def natural (value : Option Int) : Option Nat :=
  match value with
  | some (.ofNat value) => some value
  | _ => none

def spanOf (value : Option Int) : Option Nat :=
  match value with
  | none => some 1
  | some (.ofNat (value + 1)) => some (value + 1)
  | some _ => none

/-- `_coordinates`. -/
def coordinates (block : CanonicalBlock) : Option Coordinates := do
  let candidate ← block.winning
  let tableNativeId ← candidate.tableNativeId
  if tableNativeId = "" then none
  else do
    let row ← natural candidate.rowNumber
    let column ← natural candidate.columnNumber
    let rowSpan ← spanOf candidate.rowSpan
    let columnSpan ← spanOf candidate.columnSpan
    return ⟨tableNativeId, row, column, rowSpan, columnSpan⟩

/-- `_lineage_identity`. -/
def lineageIdentity (block : CanonicalBlock) : Option (String × Nat) :=
  block.winning.map fun candidate => (candidate.source.parserRunId, candidate.source.physicalPage)

variable (graph : CanonicalDocumentGraph)

def parentsOf (sourceId : String) : List String :=
  (graph.edges.filter fun edge => edge.relation = .tableParent ∧ edge.sourceId = sourceId).map
    CanonicalEdge.targetId

def levelUp (identity : Option (String × Nat)) (frontier : List String) : List CanonicalBlock :=
  (frontier.flatMap (parentsOf graph)).filterMap fun target =>
    (blockOf graph.blocks target).filter fun block => lineageIdentity block = identity

def ascend (graph : CanonicalDocumentGraph) (identity : Option (String × Nat)) :
    Nat → List String → Option CanonicalBlock
  | 0, _ => none
  | depth + 1, frontier =>
    let level := levelUp graph identity frontier
    let candidates := (level.filter fun block => (coordinates block).isSome).dedup
    let upward := (level.filter fun block => (coordinates block).isNone).map CanonicalBlock.sourceId
    match candidates with
    | [block] => some block
    | _ :: _ :: _ => none
    | [] =>
      if upward = [] then none
      else ascend graph identity depth (Sorting.sortedBy id upward.dedup)

/-- The readers of table rows. -/
structure TableRules where
  observations : String → String → Except PyError (List Row)
  observationsFor : CanonicalBlock → CanonicalDocumentGraph → Except PyError (List Row)

variable (rules : DiscoveryRules)

def tableRules (alphabet : Alphabet) : TableRules where
  observations := TableRows.observations alphabet
  observationsFor table graph := TableRows.observationsFor alphabet graph table rules

def originContext : String := "h1-origin-context-v1"

def rowsOf (tables : TableRules) (graph : CanonicalDocumentGraph) (block : CanonicalBlock)
    (candidate : CandidateBlock) : Except PyError (List Row) :=
  if originContext ∈ candidate.context then tables.observationsFor block graph
  else tables.observations (normalizedText rules block) (" ".intercalate candidate.context)

def rowHolds (ref : SourceRef) (row : Row) : Bool :=
  row.start ≤ ref.charStart && ref.charStart < ref.charEnd && ref.charEnd ≤ row.stop

def selectedRow (tables : TableRules) (graph : CanonicalDocumentGraph) (block : CanonicalBlock)
    (ref : SourceRef) : Except PyError (Option Row) :=
  match block.winning with
  | none => .ok none
  | some candidate =>
    if block.kind = .table ∧ "pb1_table_claims" ∈ candidate.context then
      (rowsOf rules tables graph block candidate).map fun rows => rows.find? (rowHolds ref)
    else .ok none

def valueCells (block : CanonicalBlock) (row : Row) : List CanonicalBlock :=
  graph.blocks.filter fun cell =>
    match cell.winning, block.winning with
    | some candidate, some table =>
      block.sourceId ∈ parentsOf graph cell.sourceId ∧
        candidate.rowNumber = some (row.row : Int) ∧
        candidate.columnNumber = some (row.valueColumn : Int) ∧
        (originContext ∈ table.context → candidate.source.parserRunId = table.source.parserRunId ∧
          candidate.tableNativeId = some table.source.sourceNativeId)
    | _, _ => False

/-- `_focal_cell`. -/
def focalCell (tables : TableRules) (graph : CanonicalDocumentGraph) (ref : SourceRef) :
    Except PyError (Option CanonicalBlock) :=
  match blockOf graph.blocks ref.sourceId with
  | none => .ok none
  | some block =>
    if block.winning = none then .ok none
    else
      (selectedRow rules tables graph block ref).map fun selected =>
        match selected with
        | some row =>
          match valueCells graph block row with
          | [cell] => some cell
          | _ => none
        | none =>
          if (coordinates block).isSome then some block
          else ascend graph (lineageIdentity block) 4 [block.sourceId]

/-! ### The nearest cell -/

section Lineage

variable {graph : CanonicalDocumentGraph} {identity : Option (String × Nat)}
  {frontier next : List String} {block : CanonicalBlock} {depth levels : Nat}

inductive Climbs (graph : CanonicalDocumentGraph) (identity : Option (String × Nat)) :
    Nat → String → CanonicalBlock → Prop
  | parent {start : String} {block : CanonicalBlock} (h : block ∈ levelUp graph identity [start]) :
      Climbs graph identity 0 start block
  | through {start : String} {middle block : CanonicalBlock} {levels : Nat}
      (h : middle ∈ levelUp graph identity [start]) (hbare : coordinates middle = none)
      (hrest : Climbs graph identity levels middle.sourceId block) :
      Climbs graph identity (levels + 1) start block

def Above (graph : CanonicalDocumentGraph) (identity : Option (String × Nat)) (frontier : List String)
    (levels : Nat) (block : CanonicalBlock) : Prop :=
  ∃ start ∈ frontier, Climbs graph identity levels start block

theorem mem_levelUp :
    block ∈ levelUp graph identity frontier ↔
      ∃ start ∈ frontier, block ∈ levelUp graph identity [start] := by
  simp only [levelUp, List.mem_filterMap, List.mem_flatMap, List.mem_singleton, exists_eq_left]
  constructor
  · rintro ⟨target, ⟨start, hstart, htarget⟩, hblock⟩
    exact ⟨start, hstart, target, htarget, hblock⟩
  · rintro ⟨start, hstart, target, htarget, hblock⟩
    exact ⟨target, ⟨start, hstart, htarget⟩, hblock⟩

theorem above_zero :
    Above graph identity frontier 0 block ↔ block ∈ levelUp graph identity frontier := by
  rw [mem_levelUp]
  constructor
  · rintro ⟨start, hstart, ⟨h⟩⟩
    exact ⟨start, hstart, h⟩
  · rintro ⟨start, hstart, h⟩
    exact ⟨start, hstart, .parent h⟩

def Upward (graph : CanonicalDocumentGraph) (identity : Option (String × Nat))
    (frontier next : List String) : Prop :=
  ∀ start, start ∈ next ↔ ∃ middle ∈ levelUp graph identity frontier,
    coordinates middle = none ∧ middle.sourceId = start

theorem upward_levelUp :
    Upward graph identity frontier (Sorting.sortedBy id
      (((levelUp graph identity frontier).filter fun block =>
        (coordinates block).isNone).map CanonicalBlock.sourceId).dedup) := by
  simp [Upward, Sorting.mem_sortedBy, and_assoc]

theorem above_succ (hnext : Upward graph identity frontier next) :
    Above graph identity frontier (levels + 1) block ↔ Above graph identity next levels block := by
  constructor
  · rintro ⟨start, hstart, hclimbs⟩
    cases hclimbs with
    | @through _ middle _ _ h hbare hrest =>
      exact ⟨_, (hnext _).mpr ⟨middle, mem_levelUp.mpr ⟨start, hstart, h⟩, hbare, rfl⟩, hrest⟩
  · rintro ⟨_, hstart, hclimbs⟩
    obtain ⟨middle, hmiddle, hbare, rfl⟩ := (hnext _).mp hstart
    obtain ⟨start, hmem, h⟩ := mem_levelUp.mp hmiddle
    exact ⟨start, hmem, .through h hbare hclimbs⟩

def Nearest (graph : CanonicalDocumentGraph) (identity : Option (String × Nat))
    (frontier : List String) (depth : Nat) (block : CanonicalBlock) : Prop :=
  ∃ levels < depth,
    (∀ other, Above graph identity frontier levels other ∧ (coordinates other).isSome ↔
      other = block) ∧
    ∀ lower < levels, ∀ other, Above graph identity frontier lower other → coordinates other = none

theorem nearest_succ (hnext : Upward graph identity frontier next)
    (hnone : ∀ other, Above graph identity frontier 0 other → coordinates other = none) :
    Nearest graph identity frontier (depth + 1) block ↔ Nearest graph identity next depth block := by
  constructor
  · rintro ⟨levels, hlevels, honly, hlower⟩
    cases levels with
    | zero =>
      obtain ⟨habove, hsome⟩ := (honly block).mpr rfl
      rw [hnone block habove] at hsome
      cases hsome
    | succ levels =>
      simp only [above_succ hnext] at honly
      refine ⟨levels, Nat.lt_of_succ_lt_succ hlevels, honly, fun lower hlt other habove => ?_⟩
      exact hlower (lower + 1) (Nat.succ_lt_succ hlt) other ((above_succ hnext).mpr habove)
  · rintro ⟨levels, hlevels, honly, hlower⟩
    refine ⟨levels + 1, Nat.succ_lt_succ hlevels, ?_, fun lower hlt other habove => ?_⟩
    · simpa only [above_succ hnext] using honly
    · cases lower with
      | zero => exact hnone other habove
      | succ lower =>
        exact hlower lower (Nat.lt_of_succ_lt_succ hlt) other ((above_succ hnext).mp habove)

variable {cell : CanonicalBlock}

/-- With a cell on the first level nothing else counts. -/
theorem nearest_first (hcell : Above graph identity frontier 0 cell ∧ (coordinates cell).isSome) :
    Nearest graph identity frontier (depth + 1) block ↔
      ∀ other, Above graph identity frontier 0 other ∧ (coordinates other).isSome ↔ other = block := by
  constructor
  · rintro ⟨levels, -, honly, hlower⟩
    cases levels with
    | zero => exact honly
    | succ levels =>
      have hnone := hlower 0 (Nat.succ_pos levels) cell hcell.1
      rw [hnone] at hcell
      cases hcell.2
  · exact fun honly => ⟨0, Nat.succ_pos depth, honly, fun _ h => absurd h (Nat.not_lt_zero _)⟩

theorem not_nearest_of_two {other : CanonicalBlock}
    (hcell : Above graph identity frontier 0 cell ∧ (coordinates cell).isSome)
    (hother : Above graph identity frontier 0 other ∧ (coordinates other).isSome)
    (hne : cell ≠ other) : ¬Nearest graph identity frontier (depth + 1) block := by
  rw [nearest_first hcell]
  exact fun honly => hne (((honly cell).mp hcell).trans ((honly other).mp hother).symm)

theorem ascend_eq_some_iff :
    ascend graph identity depth frontier = some block ↔
      Nearest graph identity frontier depth block := by
  -- Over the levels that are left: one that holds a cell decides, an empty one moves the frontier.
  induction depth generalizing frontier with
  | zero =>
    simp [ascend, Nearest]
  | succ depth ih =>
    unfold ascend
    dsimp only
    generalize hcells : ((levelUp graph identity frontier).filter fun block =>
      (coordinates block).isSome).dedup = cells
    have hnodup : cells.Nodup := hcells ▸ List.nodup_dedup _
    have hmem : ∀ other, other ∈ cells ↔
        Above graph identity frontier 0 other ∧ (coordinates other).isSome := by
      simp [← hcells, above_zero]
    cases cells with
    | nil =>
      have hnone : ∀ other, Above graph identity frontier 0 other → coordinates other = none := by
        intro other habove
        rw [← Option.not_isSome_iff_eq_none]
        exact fun hsome => List.not_mem_nil ((hmem other).mpr ⟨habove, hsome⟩)
      rw [nearest_succ upward_levelUp hnone]
      split_ifs with hempty
      · -- Without a parent nothing is above.
        refine iff_of_false (by simp) ?_
        rintro ⟨levels, -, honly, -⟩
        obtain ⟨⟨start, hstart, -⟩, -⟩ := (honly block).mpr rfl
        simp [hempty, Sorting.mem_sortedBy] at hstart
      · exact ih
    | cons first rest =>
      have hfirst := (hmem first).mp List.mem_cons_self
      cases rest with
      | nil =>
        rw [nearest_first hfirst]
        constructor
        · rintro ⟨⟩
          exact fun other => (hmem other).symm.trans List.mem_singleton
        · exact fun honly => congrArg some ((honly first).mp hfirst)
      | cons second rest =>
        have hne : first ≠ second := by
          rintro rfl
          simp at hnodup
        exact iff_of_false (by simp)
          (not_nearest_of_two hfirst ((hmem second).mp (by simp)) hne)

end Lineage

/-- **The focal cell is the nearest one.**  A reference into a table row has the only value cell
of that row; any other one has its own block, if that has coordinates, or the nearest ancestor
with coordinates on its parser run and page: at most four levels up over blocks without
coordinates, and the only one of its level. -/
theorem focal_cell_nearest (rules : DiscoveryRules) (tables : TableRules)
    (graph : CanonicalDocumentGraph) (ref : SourceRef) (cell : CanonicalBlock) :
    focalCell rules tables graph ref = .ok (some cell) ↔
      ∃ block, blockOf graph.blocks ref.sourceId = some block ∧ block.winning ≠ none ∧
        ((∃ row, selectedRow rules tables graph block ref = .ok (some row) ∧
            valueCells graph block row = [cell]) ∨
          selectedRow rules tables graph block ref = .ok none ∧
            ((coordinates block).isSome ∧ block = cell ∨ coordinates block = none ∧
              Nearest graph (lineageIdentity block) [block.sourceId] 4 cell)) := by
  unfold focalCell
  cases hblock : blockOf graph.blocks ref.sourceId with
  | none => simp
  | some block =>
    by_cases hwinning : block.winning = none
    · simp [hwinning]
    · simp only [hwinning, if_false, Option.some.injEq, exists_eq_left', ne_eq, not_false_eq_true,
        true_and]
      cases hselected : selectedRow rules tables graph block ref with
      | error error => simp [Except.map]
      | ok selected =>
        cases selected with
        | none =>
          cases hcoordinates : coordinates block with
          | none => simp [Except.map, ascend_eq_some_iff]
          | some found => simp [Except.map]
        | some row =>
          simp only [Except.map, Except.ok.injEq, Option.some.injEq, exists_eq_left', reduceCtorEq,
            false_and, or_false]
          cases valueCells graph block row with
          | nil => simp
          | cons first rest => cases rest <;> simp

end ProofOps.Application.Tagging.FocalCell
