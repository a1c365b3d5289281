import ProofOps.Application.Claims.CanonicalRefs
import ProofOps.Foundation.RowSpans

/-!
# Observed rows of a table

`observations` of `pb1_tables` reads the lines of a table as rows, `observations` of `w9_tables` the
rows of a grid of parser cells.  Both read rows with a unit and a number under the latest of the
explicit years in the header.

Every row that is read is a whole row of the table text (`observations_span`), whatever the
patterns accept.
-/

namespace ProofOps.Application.Ingest.TableRows

open Foundation Foundation.Checked Foundation.PyText Foundation.RowSpans Domain Evidence Claims

structure Alphabet where
  isDigit : Char → Bool
  fold : Char → Char

structure Row where
  (start stop row valueColumn : Nat)
  deriving DecidableEq

/-! ### Patterns -/

section Patterns

variable (alphabet : Alphabet) (text : List Char)

/-- `NUMERIC.fullmatch`. -/
def isNumeric : Bool :=
  numberLength alphabet.isDigit text = some text.length

def yearOf : Option String :=
  match text with
  | century :: decade :: tens :: ones :: rest =>
    if (century = '1' ∧ decade = '9' ∨ century = '2' ∧ decade = '0') ∧
        alphabet.isDigit tens ∧ alphabet.isDigit ones ∧
        (rest = [] ∨ rest.dropWhile isSpace = ['년']) then
      some (String.ofList [century, decade, tens, ones])
    else none
  | _ => none

def findsWord (words : List String) : Bool :=
  words.any fun word => word.toList <:+: text

def findsFolded (words : List String) : Bool :=
  words.any fun word => word.toList.map alphabet.fold <:+: text.map alphabet.fold

def hasUnit : Bool :=
  findsWord text
      ["tCO₂", "tCO2", "MWh", "GJ", "TJ", "kWh", "톤", "m³", "m3", "㎥", "%", "MW"] ||
    text.tails.any fun tail =>
      tail.head? = some '천' && (tail.tail.dropWhile isSpace).head? = some 't'

/-- The words of `ENV`. -/
def environmentWords : List String :=
  ["온실가스", "배출", "에너지", "전력", "재생", "폐기물", "용수", "취수", "수자원", "친환경",
    "재활용", "탄소", "Scope", "CO₂", "CO2", "HEV", "PHEV", "EV", "태양광"]

def isEnvironmental : Bool :=
  findsFolded alphabet text environmentWords

/-- `HEADER.fullmatch`. -/
def isHeader : Bool :=
  ["지표명", "구분", "단위", "항목", "연도", "지표"].any fun word => text = word.toList

/-- `FOOTNOTE.match`. -/
def isFootnote : Bool :=
  let rest := text.dropWhile isSpace
  let behind := (rest.dropWhile alphabet.isDigit).head?
  (rest.head?.any alphabet.isDigit && (behind = some '.' || behind = some ')')) ||
    rest.head? = some '※' || rest.head? = some '*'

def isGridUnit : Bool :=
  ["", "천", "만"].any fun scale =>
    ["tCO₂", "tCO₂eq", "tCO₂e", "tCO2", "tCO2eq", "tCO2e", "MWh", "GJ", "TJ", "kWh", "톤", "t",
        "kg", "m³", "m3", "㎥", "%", "MW", "대"].any fun unit =>
      ["", "/백만원", "/천원", "/원", "/대", "/년", "/연", "/매출액", "/생산량"].any fun per =>
        (scale ++ unit ++ per).toList.map alphabet.fold = text.map alphabet.fold

/-- `_unit`. -/
def isUnit : Bool :=
  isGridUnit alphabet (Words.pieces isSpace text).flatten

def isGridEnvironmental : Bool :=
  findsFolded alphabet text
    (environmentWords ++ ["대기오염", "수질오염", "질소산화", "황산화", "COD", "TOC", "Dust"])

/-- `FINANCIAL.search`. -/
def isFinancial : Bool :=
  findsWord text ["자본변동표", "자본잉여금", "이익잉여금", "지배기업 소유주지분", "금융자산"]

end Patterns

/-! ### Years -/

structure YearCell where
  (row column : Nat)
  year : String

structure YearColumns where
  first : Nat
  current : Nat
  headerEnd : Nat

section Years

variable (alphabet : Alphabet) (rows : List (List (List Char)))

def yearCells : List YearCell :=
  (rows.take 4).zipIdx.flatMap fun (cells, row) =>
    cells.zipIdx.filterMap fun (cell, column) =>
      (yearOf alphabet (stripChars cell)).map fun year => ⟨row, column, year⟩

def addYear (years : List (Nat × String)) (cell : YearCell) : Option (List (Nat × String)) :=
  match years.lookup cell.column with
  | none => some (years ++ [(cell.column, cell.year)])
  | some year => if year = cell.year then some years else none

def yearColumns : Option YearColumns := do
  let cells := yearCells alphabet rows
  let years ← cells.foldlM addYear []
  guard (years.map Prod.snd).Nodup
  let current ← years.argmax Prod.snd
  let first ← (years.map Prod.fst).min?
  let headerEnd ← (cells.map YearCell.row).max?
  return ⟨first, current.1, headerEnd⟩

end Years

/-! ### Rows -/

section Reading

variable (alphabet : Alphabet)

def readRows (years : YearColumns) (reads : List (List Char) → Bool) (texts : List (List Char))
    (rows : List (List (List Char))) : List Row :=
  (((spans 0 texts).zip rows).zipIdx.filterMap fun ((span, cells), row) =>
    if years.headerEnd < row ∧ reads cells = true then
      some ⟨span.1, span.2, row, years.current⟩
    else none).take 24

def readsLine (context : List Char) (years : YearColumns) (cells : List (List Char)) : Bool :=
  let labels := (cells.take years.first).filter fun cell => stripChars cell ≠ []
  let units := labels.filter hasUnit
  match labels, cells[years.current]? with
  | metric :: _, some cell =>
    let value := stripChars cell
    units ≠ [] &&
      (isEnvironmental alphabet ([' '].intercalate labels) ||
        isEnvironmental alphabet context && units ≠ []) &&
      !isFootnote alphabet metric && !isHeader (stripChars metric) &&
      isNumeric alphabet value && (yearOf alphabet value).isNone
  | _, _ => false

variable (text : List Char)

def lineRows (context : List Char) : List Row :=
  let lines := text.splitOn '\n'
  let rows := lines.map (List.splitOn '\t')
  match yearColumns alphabet rows with
  | none => []
  | some years => readRows years (readsLine alphabet context years) lines rows

/-- A cell that `grid` reads. -/
structure GridCell where
  text : List Char
  (row column rowSpan columnSpan : Option Int)

structure PlacedCell where
  text : List Char
  (row column rowSpan columnSpan : Int)

def GridCell.placed (cell : GridCell) : Except PyError PlacedCell :=
  match cell.row, cell.column, cell.rowSpan, cell.columnSpan with
  | some row, some column, some rowSpan, some columnSpan =>
    .ok ⟨cell.text, row, column, rowSpan, columnSpan⟩
  | _, _, _, _ => .error .typeError

def cellsOf : List GridCell :=
  (text.splitOn '\n').zipIdx.flatMap fun (line, row) =>
    (line.splitOn '\t').zipIdx.map fun (value, column) =>
      ⟨value, some row, some column, some 1, some 1⟩

variable (cells : List PlacedCell)

def originAt (row column : Nat) : Option PlacedCell :=
  cells.find? fun cell => cell.row = (row : Int) ∧ cell.column = (column : Int)

def originsOf (height width : Int) : List (List (Option PlacedCell)) :=
  (List.range height.toNat).map fun row => (List.range width.toNat).map (originAt cells row)

def originText (origin : Option PlacedCell) : List Char :=
  (origin.map PlacedCell.text).getD []

/-- The texts of a grid. -/
def valuesOf (height width : Int) : List (List (List Char)) :=
  (originsOf cells height width).map (List.map originText)

def rowText (row : List (List Char)) : List Char :=
  ['\t'].intercalate row

/-- `nr`. -/
def heightOf : Int :=
  ((cells.map fun cell => cell.row + cell.rowSpan).max?).getD 0

/-- `nc`. -/
def widthOf : Int :=
  ((cells.map fun cell => cell.column + cell.columnSpan).max?).getD 0

def layOut (cells : List PlacedCell) :
    Except PyError (List (List (List Char))) := do
  refuse (¬(cells.map fun cell => (cell.row, cell.column)).Nodup ∨ 500 < heightOf cells ∨
    100 < widthOf cells) (.valueError "W9_GRID_INVALID")
  let rows := valuesOf cells (heightOf cells) (widthOf cells)
  refuse (['\n'].intercalate (rows.map rowText) ≠ text) (.valueError "W9_GRID_TEXT_MISMATCH")
  return rows

/-- `grid`. -/
def grid (cells : Option (List GridCell)) :
    Except PyError (List (List (List Char))) := do
  let cells ← (cells.getD (cellsOf text)).mapM GridCell.placed
  if cells.isEmpty then return [] else layOut text cells

def readsEntries (years : YearColumns) (entries : List (List Char)) : Bool :=
  let labels := entries.take years.first
  let value := stripChars (entries.getD years.current [])
  match labels.filter fun label => stripChars label ≠ [] && !isUnit alphabet label with
  | [] => false
  | metric :: _ =>
    (labels.filter (isUnit alphabet)).length = 1 && !isFootnote alphabet metric &&
      !isHeader (stripChars metric) && isNumeric alphabet value &&
      (yearOf alphabet value).isNone

/-- `observations`. -/
def gridObservations (cells : Option (List GridCell)) : Except PyError (List Row) :=
  if cells.isNone ∧ (yearCells alphabet ((text.splitOn '\n').map (List.splitOn '\t'))).isEmpty then
    .ok []
  else
    (grid text cells).map fun rows =>
      match yearColumns alphabet rows with
      | none => []
      | some years =>
        let labels := [' '].intercalate (rows.flatMap fun entries => entries.take years.first)
        if isFinancial labels || !isGridEnvironmental alphabet labels then []
        else readRows years (readsEntries alphabet years) (rows.map rowText) rows

def gridProfile : String := "pb1-w9-v1"

/-- `observations`. -/
def observations (text context : String) : Except PyError (List Row) :=
  if gridProfile ∈ splitText context then gridObservations alphabet text.toList none
  else .ok (lineRows alphabet text.toList context.toList)

variable (nfc : String → String) (graph : CanonicalDocumentGraph) (table : CanonicalBlock)

/-- `graph_cells`. -/
def graphCells : List GridCell :=
  match table.winning with
  | none => []
  | some origin =>
    let ids := (graph.edges.filter fun edge =>
      edge.relation = .tableParent ∧ edge.targetId = table.sourceId).map CanonicalEdge.sourceId
    (graph.blocks.filter fun block => block.sourceId ∈ ids ∧ block.kind = .tableCell).flatMap
      fun block => (block.candidates.filter fun candidate =>
          candidate.source.parserRunId = origin.source.parserRunId ∧
            candidate.source.physicalPage = table.pageNum ∧
            candidate.tableNativeId = some origin.source.sourceNativeId).map
        fun candidate => ⟨(nfc candidate.source.rawText).toList, candidate.rowNumber,
          candidate.columnNumber, candidate.rowSpan, candidate.columnSpan⟩

/-- `observations_for`. -/
def observationsFor (rules : DiscoveryRules) : Except PyError (List Row) :=
  let context := (table.winning.map CandidateBlock.context).getD []
  if gridProfile ∈ context then
    gridObservations alphabet (normalizedText rules table).toList
      (some (graphCells rules.text.nfc graph table))
  else observations alphabet (normalizedText rules table) (" ".intercalate context)

end Reading

/-! ### Whole rows -/

section Spans

variable {alphabet : Alphabet} {texts : List (List Char)} {text : List Char} {row : Row}

def IsSpan (texts : List (List Char)) (row : Row) : Prop :=
  (row.start, row.stop) ∈ spans 0 texts

variable {rows : List (List (List Char))}

theorem readRows_span {years : YearColumns} {reads : List (List Char) → Bool}
    (h : row ∈ readRows years reads texts rows) : IsSpan texts row := by
  obtain ⟨⟨⟨span, cells⟩, index⟩, hmem, hread⟩ := List.mem_filterMap.mp (List.mem_of_mem_take h)
  have hspan := (List.of_mem_zip (List.fst_mem_of_mem_zipIdx hmem)).1
  dsimp only at hread
  split_ifs at hread
  cases hread
  exact hspan

theorem lineRows_span {context : List Char} (h : row ∈ lineRows alphabet text context) :
    IsSpan (text.splitOn '\n') row := by
  unfold lineRows at h
  dsimp only at h
  split at h
  · cases h
  · exact readRows_span h

theorem layOut_ok {cells : List PlacedCell} (h : layOut text cells = .ok rows) :
    ['\n'].intercalate (rows.map rowText) = text ∧
      rows = valuesOf cells (heightOf cells) (widthOf cells) := by
  replace h := rest_ok h
  obtain ⟨⟨⟩, htext, h⟩ := bind_ok h
  cases pure_ok h
  exact ⟨not_not.mp (refuse_ok_iff.mp htext), rfl⟩

variable {cells : Option (List GridCell)}

theorem grid_ok (h : grid text cells = .ok rows) (hne : rows ≠ []) :
    ['\n'].intercalate (rows.map rowText) = text ∧ ∃ placed,
      (cells.getD (cellsOf text)).mapM GridCell.placed = .ok placed ∧
        rows = valuesOf placed (heightOf placed) (widthOf placed) := by
  obtain ⟨placed, hplaced, h⟩ := bind_ok h
  split_ifs at h with hempty
  · exact absurd (pure_ok h).symm hne
  · obtain ⟨htext, hrows⟩ := layOut_ok h
    exact ⟨htext, placed, hplaced, hrows⟩

theorem not_mem_splitOn {c : Char} {line : List Char} (h : line ∈ text.splitOn c) : c ∉ line := by
  exact Words.isWord_beq_iff.mp (Words.isWord_of_mem h)

theorem cellsOf_plain {cell : GridCell} (h : cell ∈ cellsOf text) : '\n' ∉ cell.text := by
  obtain ⟨⟨line, row⟩, hline, h⟩ := List.mem_flatMap.mp h
  obtain ⟨⟨value, column⟩, hvalue, rfl⟩ := List.mem_map.mp h
  have hmem := List.fst_mem_of_mem_zipIdx hline
  have hpiece := List.fst_mem_of_mem_zipIdx hvalue
  intro hbreak
  apply not_mem_splitOn hmem
  rw [← @List.intercalate_splitOn _ line _ _ '\t', mem_intercalate_iff (by decide)]
  exact ⟨value, hpiece, hbreak⟩

theorem placed_text {cell : GridCell} {placed : PlacedCell} (h : cell.placed = .ok placed) :
    placed.text = cell.text := by
  unfold GridCell.placed at h
  split at h
  · cases h
    rfl
  · cases h

/-- Squares hold texts of cells, or nothing. -/
theorem valuesOf_plain {cells : List PlacedCell} {height width : Int} {c : Char}
    (h : ∀ cell ∈ cells, c ∉ cell.text) : ∀ row ∈ valuesOf cells height width, ∀ value ∈ row,
      c ∉ value := by
  intro row hrow value hvalue
  obtain ⟨origins, horigins, rfl⟩ := List.mem_map.mp hrow
  obtain ⟨origin, horigin, rfl⟩ := List.mem_map.mp hvalue
  obtain ⟨rowNumber, -, rfl⟩ := List.mem_map.mp horigins
  obtain ⟨columnNumber, -, rfl⟩ := List.mem_map.mp horigin
  cases hfound : originAt cells rowNumber columnNumber with
  | none => exact List.not_mem_nil
  | some cell => exact h cell (List.mem_of_find?_eq_some hfound)

theorem grid_lines (h : grid text none = .ok rows) (hne : rows ≠ []) :
    rows.map rowText = text.splitOn '\n' := by
  obtain ⟨htext, placed, hplaced, rfl⟩ := grid_ok h hne
  have hplain : ∀ row ∈ (valuesOf placed (heightOf placed) (widthOf placed)).map rowText,
      '\n' ∉ row := by
    intro row hrow
    obtain ⟨values, hvalues, rfl⟩ := List.mem_map.mp hrow
    unfold rowText
    rw [mem_intercalate_iff (by decide)]
    rintro ⟨value, hvalue, hbreak⟩
    refine valuesOf_plain (fun cell hcell => ?_) values hvalues value hvalue hbreak
    obtain ⟨origin, horigin, hplace⟩ := (mem_of_mapM_ok hplaced).mp hcell
    rw [placed_text hplace]
    exact cellsOf_plain horigin
  rw [← htext, List.splitOn_intercalate '\n' hplain]
  rwa [Ne, List.map_eq_nil_iff]

theorem gridObservations_span {found : List Row}
    (h : gridObservations alphabet text cells = .ok found) (hrow : row ∈ found) :
    ∃ rows, grid text cells = .ok rows ∧ IsSpan (rows.map rowText) row := by
  unfold gridObservations at h
  split_ifs at h
  · cases h
    cases hrow
  · obtain ⟨rows, hrows, rfl⟩ := map_ok_iff.mp h
    refine ⟨rows, hrows, ?_⟩
    dsimp only at hrow
    split at hrow
    · cases hrow
    · split_ifs at hrow
      · cases hrow
      · exact readRows_span hrow

theorem IsSpan.ne_nil (h : IsSpan texts row) : texts ≠ [] := by
  rintro rfl
  cases h

theorem observations_span {text context : String} {found : List Row}
    (h : observations alphabet text context = .ok found) (hrow : row ∈ found) :
    IsSpan (text.toList.splitOn '\n') row := by
  unfold observations at h
  split_ifs at h
  · obtain ⟨rows, hrows, hspan⟩ := gridObservations_span h hrow
    have hne := hspan.ne_nil
    rw [Ne, List.map_eq_nil_iff] at hne
    rwa [grid_lines hrows hne] at hspan
  · cases h
    exact lineRows_span hrow

theorem grid_joins (h : grid text cells = .ok rows) (hne : rows ≠ []) :
    ['\n'].intercalate (rows.map rowText) = text :=
  (grid_ok h hne).1

variable {graph : CanonicalDocumentGraph} {table : CanonicalBlock} {rules : DiscoveryRules}
  {found : List Row}

end Spans

end ProofOps.Application.Ingest.TableRows
