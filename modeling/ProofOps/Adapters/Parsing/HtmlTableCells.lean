import ProofOps.Domain.Values
import ProofOps.Foundation.Checked
import ProofOps.Foundation.PyText
import ProofOps.Foundation.Tiling

/-!
# Table cells of an HTML fragment

`proofops.adapters.parsing.html_table_cells` over the handler calls of the standard
library's `HTMLParser`.  Every raise is a `ValueError`; the state a raising handler leaves
behind is read by nobody, so a handler returns the next state or raises.
-/

namespace ProofOps.Adapters.Parsing

open Foundation Foundation.Checked Foundation.Tiling Domain

def maxHtmlChars : Nat := 200000
def maxRows : Nat := 500
def maxColumns : Nat := 100
def maxCells : Nat := 10000

def maxIntDigits : Nat := 4300

structure Digits where
  isDigit : Char → Bool
  decimal : Char → Option Nat

inductive Event where
  | startTag (tag : String) (attrs : List (String × Option String))
  | endTag (tag : String)
  | startEndTag (tag : String) (attrs : List (String × Option String))
  | data (text : String)
  | other

variable (digits : Digits)

/-- `t.isdigit()`. -/
def isDigits (text : String) : Bool :=
  text != "" && text.toList.all digits.isDigit

def parseInt (text : String) : Except PyError Nat := do
  refuse (maxIntDigits < text.length)
    (.valueError "Exceeds the limit (4300 digits) for integer string conversion")
  match text.toList.mapM digits.decimal with
  | some values => .ok (values.foldl (fun number value => 10 * number + value) 0)
  | none => .error (.valueError "invalid literal for int() with base 10")

/-- `_span`. -/
def span (attrs : List (String × Option String)) (name : String) : Except PyError Nat :=
  match attrs.filter fun attr => attr.1.toLower == name with
  | [] => .ok 1
  | [(_, some value)] => do
    refuse (isDigits digits (PyText.strip value) = false) (.valueError ("bad " ++ name))
    let number ← parseInt digits (PyText.strip value)
    refuse (number < 1) (.valueError ("bad " ++ name))
    .ok number
  | _ => .error (.valueError ("bad " ++ name))

structure Cell where
  text : String
  (row column rowSpan columnSpan : Nat)

def Cell.tile (cell : Cell) : Tile where
  row := cell.row
  column := cell.column
  height := cell.rowSpan
  width := cell.columnSpan

def tiles (cells : List Cell) : List Tile :=
  cells.map Cell.tile

/-- `_TableParser`. -/
structure TableParser where
  tableCount : Nat
  (closed rowOpen : Bool)
  rowIndex : Nat
  cellTag : Option String
  parts : List String
  span : Nat × Nat
  occupied : List (Nat × Nat)
  cells : List Cell
  (maxRow maxColumn : Int)

/-- `_TableParser()`. -/
def TableParser.new : TableParser where
  tableCount := 0
  closed := false
  rowOpen := false
  rowIndex := 0
  cellTag := none
  parts := []
  span := (1, 1)
  occupied := []
  cells := []
  maxRow := -1
  maxColumn := -1

variable (p : TableParser)

def startTable : Except PyError TableParser := do
  refuse (p.tableCount + 1 > 1 ∨ p.rowOpen = true ∨ p.cellTag ≠ none)
    (.valueError "one table only")
  .ok { p with tableCount := p.tableCount + 1 }

def startRow : Except PyError TableParser := do
  refuse (p.tableCount ≠ 1 ∨ p.closed = true ∨ p.rowOpen = true ∨ p.cellTag ≠ none)
    (.valueError "bad row")
  refuse (p.rowIndex ≥ maxRows) (.valueError "too many rows")
  .ok { p with rowOpen := true }

def startCell (name : String) (attrs : List (String × Option String)) :
    Except PyError TableParser := do
  refuse (p.tableCount ≠ 1 ∨ p.closed = true ∨ p.rowOpen = false ∨ p.cellTag ≠ none)
    (.valueError "bad cell")
  refuse (p.cells.length ≥ maxCells) (.valueError "too many cells")
  let rowSpan ← span digits attrs "rowspan"
  let columnSpan ← span digits attrs "colspan"
  refuse (columnSpan > maxColumns ∨ rowSpan > maxRows) (.valueError "span too large")
  .ok { p with cellTag := some name, parts := [], span := (rowSpan, columnSpan) }

def startSection : Except PyError TableParser := do
  refuse (p.tableCount ≠ 1 ∨ p.closed = true) (.valueError "bad section")
  .ok p

def TableParser.append (text : String) : TableParser :=
  if p.cellTag = none then p else { p with parts := p.parts ++ [text] }

def handleStartTag (tag : String) (attrs : List (String × Option String)) :
    Except PyError TableParser :=
  let name := tag.toLower
  if name = "table" then startTable p
  else if name = "tr" then startRow p
  else if name = "td" ∨ name = "th" then startCell digits p name attrs
  else if name = "br" then .ok (p.append "\n")
  else if name = "thead" ∨ name = "tbody" ∨ name = "tfoot" then startSection p
  else .ok p

/-! ### End tags -/

def endTable : Except PyError TableParser := do
  refuse (p.tableCount ≠ 1 ∨ p.closed = true ∨ p.rowOpen = true ∨ p.cellTag ≠ none)
    (.valueError "bad table close")
  .ok { p with closed := true }

def endRow : Except PyError TableParser := do
  refuse (p.rowOpen = false ∨ p.cellTag ≠ none) (.valueError "bad row close")
  .ok { p with rowOpen := false, rowIndex := p.rowIndex + 1 }

def occupy : List (Nat × Nat) → List (Nat × Nat) → Except PyError (List (Nat × Nat))
  | occupied, [] => .ok occupied
  | occupied, square :: squares =>
    if occupied.contains square then .error (.valueError "overlap")
    else occupy (square :: occupied) squares

def TableParser.closing : Cell where
  text := PyText.strip (String.join p.parts)
  row := p.rowIndex
  column := firstFree p.occupied p.rowIndex
  rowSpan := p.span.1
  columnSpan := p.span.2

def endCell (name : String) : Except PyError TableParser := do
  refuse (p.cellTag ≠ some name) (.valueError "bad cell close")
  let cell := p.closing
  refuse (cell.column + cell.columnSpan > maxColumns ∨ cell.row + cell.rowSpan > maxRows)
    (.valueError "table too large")
  let occupied ← occupy p.occupied cell.tile.squares
  .ok { p with
    occupied := occupied
    maxRow := max p.maxRow (cell.row + cell.rowSpan - 1)
    maxColumn := max p.maxColumn (cell.column + cell.columnSpan - 1)
    cells := p.cells ++ [cell]
    cellTag := none
    parts := []
    span := (1, 1) }

def handleEndTag (tag : String) : Except PyError TableParser :=
  let name := tag.toLower
  if name = "table" then endTable p
  else if name = "tr" then endRow p
  else if name = "td" ∨ name = "th" then endCell p name
  else .ok p

def handleStartEndTag (tag : String) (attrs : List (String × Option String)) :
    Except PyError TableParser :=
  let name := tag.toLower
  if name = "br" then .ok (p.append "\n")
  else do
    let p ← handleStartTag digits p tag attrs
    if name = "td" ∨ name = "th" ∨ name = "tr" ∨ name = "table" then handleEndTag p tag
    else .ok p

def handle : Event → Except PyError TableParser
  | .startTag tag attrs => handleStartTag digits p tag attrs
  | .endTag tag => handleEndTag p tag
  | .startEndTag tag attrs => handleStartEndTag digits p tag attrs
  | .data text => .ok (p.append text)
  | .other => .ok p

def feed (digits : Digits) : TableParser → List Event → Except PyError TableParser
  | p, [] => .ok p
  | p, event :: events => do
    let p ← handle digits p event
    feed digits p events

def finish : Except PyError (List Cell) := do
  refuse (p.tableCount ≠ 1 ∨ p.closed = false ∨ p.rowOpen = true ∨ p.cellTag ≠ none ∨
    p.cells = []) (.valueError "one closed table required")
  let rows := p.maxRow + 1
  let columns := p.maxColumn + 1
  refuse (rows ≠ p.rowIndex ∨ rows > maxRows ∨ columns > maxColumns ∨
    p.cells.length > maxCells) (.valueError "table too large")
  refuse (∃ row ∈ List.range rows.toNat, ∃ column ∈ List.range columns.toNat,
    p.occupied.contains (row, column) = false) (.valueError "ragged grid")
  .ok p.cells

/-- `parse_table_cells`. -/
def parseTableCells (html : String) (events : List Event) : Except PyError (List Cell) := do
  refuse (PyText.nonBlank html = false) (.valueError "invalid html")
  refuse (html.length > maxHtmlChars) (.valueError "html too large")
  let p ← feed digits .new events
  finish p

end ProofOps.Adapters.Parsing
