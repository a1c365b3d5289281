import ProofOps.Adapters.Parsing.HtmlTableCells

/-!
# The grid of a table is tiled exactly

While a fragment is read, the cells are placed first-fit and the occupied squares are
the ones they cover.  The checks at the end leave no square of the grid free.
-/

namespace ProofOps.Adapters.Parsing

open Foundation Foundation.Checked Foundation.Tiling Domain

def Event.closes (names : List String) : Event → Bool
  | .endTag tag => names.contains tag.toLower
  | .startEndTag tag _ => names.contains tag.toLower
  | _ => false

def Event.closesRow : Event → Bool :=
  Event.closes ["tr"]

def Event.closesCell : Event → Bool :=
  Event.closes ["td", "th"]

def closedRows (events : List Event) : Nat :=
  events.countP Event.closesRow

def cellRows : Nat → List Event → List Nat
  | _, [] => []
  | row, event :: events =>
    (if event.closesCell then [row] else []) ++
      cellRows (if event.closesRow then row + 1 else row) events

structure TableParser.Sound (p : TableParser) : Prop where
  placed : Placed (tiles p.cells)
  occupied : ∀ row column, (row, column) ∈ p.occupied ↔ Covered (tiles p.cells) row column
  inside : ∀ cell ∈ p.cells, (cell.row + cell.rowSpan : Int) ≤ p.maxRow + 1 ∧
    (cell.column + cell.columnSpan : Int) ≤ p.maxColumn + 1
  spans_pos : ∀ cell ∈ p.cells, 1 ≤ cell.rowSpan ∧ 1 ≤ cell.columnSpan
  span_pos : 1 ≤ p.span.1 ∧ 1 ≤ p.span.2

theorem TableParser.Sound.new : TableParser.Sound .new where
  placed := Placed.nil
  occupied := fun row column =>
    iff_of_false List.not_mem_nil (covered_nil row column)
  inside := fun _ h => absurd h List.not_mem_nil
  spans_pos := fun _ h => absurd h List.not_mem_nil
  span_pos := ⟨le_refl 1, le_refl 1⟩

structure TableParser.Keeps (p q : TableParser) : Prop where
  cells : q.cells = p.cells
  occupied : q.occupied = p.occupied
  maxRow : q.maxRow = p.maxRow
  maxColumn : q.maxColumn = p.maxColumn
  span_pos : 1 ≤ p.span.1 ∧ 1 ≤ p.span.2 → 1 ≤ q.span.1 ∧ 1 ≤ q.span.2

theorem TableParser.Keeps.refl (p : TableParser) : p.Keeps p :=
  ⟨rfl, rfl, rfl, rfl, id⟩

variable {p q : TableParser}

theorem TableParser.Keeps.sound (h : p.Keeps q) (hp : p.Sound) : q.Sound where
  placed := h.cells ▸ hp.placed
  occupied := by
    rw [h.occupied, h.cells]
    exact hp.occupied
  inside := by
    rw [h.cells, h.maxRow, h.maxColumn]
    exact hp.inside
  spans_pos := h.cells ▸ hp.spans_pos
  span_pos := h.span_pos hp.span_pos

variable {digits : Digits} {attrs : List (String × Option String)} {name : String}

theorem span_pos {number : Nat} (h : span digits attrs name = .ok number) : 1 ≤ number := by
  unfold span at h
  split at h
  · cases h
    exact le_refl 1
  · replace h := rest_ok h
    obtain ⟨read, -, h⟩ := bind_ok h
    obtain ⟨⟨⟩, hsmall, h⟩ := bind_ok h
    cases h
    exact not_lt.mp (refuse_ok_iff.mp hsmall)
  · cases h

theorem append_keeps (p : TableParser) (text : String) :
    p.Keeps (p.append text) ∧ (p.append text).rowIndex = p.rowIndex := by
  unfold TableParser.append
  split_ifs
  · exact ⟨.refl p, rfl⟩
  · exact ⟨⟨rfl, rfl, rfl, rfl, id⟩, rfl⟩

theorem startCell_keeps (h : startCell digits p name attrs = .ok q) :
    p.Keeps q ∧ q.rowIndex = p.rowIndex := by
  replace h := rest_ok h
  replace h := rest_ok h
  obtain ⟨rowSpan, hrow, h⟩ := bind_ok h
  obtain ⟨columnSpan, hcolumn, h⟩ := bind_ok h
  replace h := rest_ok h
  cases h
  exact ⟨⟨rfl, rfl, rfl, rfl, fun _ => ⟨span_pos hrow, span_pos hcolumn⟩⟩, rfl⟩

theorem handleStartTag_keeps {tag : String} (h : handleStartTag digits p tag attrs = .ok q) :
    p.Keeps q ∧ q.rowIndex = p.rowIndex := by
  unfold handleStartTag at h
  simp only at h
  split_ifs at h
  case pos =>
    replace h := rest_ok h
    cases h
    exact ⟨⟨rfl, rfl, rfl, rfl, id⟩, rfl⟩
  case pos =>
    replace h := rest_ok h
    replace h := rest_ok h
    cases h
    exact ⟨⟨rfl, rfl, rfl, rfl, id⟩, rfl⟩
  case pos => exact startCell_keeps h
  case pos =>
    cases h
    exact append_keeps p "\n"
  case pos =>
    replace h := rest_ok h
    cases h
    exact ⟨.refl p, rfl⟩
  case neg =>
    cases h
    exact ⟨.refl p, rfl⟩

theorem occupy_spec {occupied squares result : List (Nat × Nat)}
    (h : occupy occupied squares = .ok result) :
    (∀ square, square ∈ result ↔ square ∈ occupied ∨ square ∈ squares) ∧
      ∀ square ∈ squares, square ∉ occupied := by
  induction squares generalizing occupied with
  | nil =>
    cases h
    exact ⟨fun square => by simp, fun square hsquare => absurd hsquare List.not_mem_nil⟩
  | cons square squares ih =>
    unfold occupy at h
    split_ifs at h with htaken
    obtain ⟨hmem, hfree⟩ := ih h
    constructor
    · intro other
      rw [hmem other, List.mem_cons, List.mem_cons]
      tauto
    · intro other hother
      rcases List.mem_cons.mp hother with rfl | hrest
      · exact mt List.contains_iff_mem.mpr htaken
      · exact fun hold => hfree other hrest (List.mem_cons_of_mem _ hold)

theorem endCell_sound (hp : p.Sound) (h : endCell p name = .ok q) :
    q.Sound ∧ q.rowIndex = p.rowIndex ∧ q.cells = p.cells ++ [p.closing] := by
  replace h := rest_ok h
  replace h := rest_ok h
  obtain ⟨occupied, hoccupied, h⟩ := bind_ok h
  cases h
  obtain ⟨hmem, hfree⟩ := occupy_spec hoccupied
  obtain ⟨hfirst, hbefore⟩ := firstFree_spec p.occupied p.rowIndex
  have htiles : tiles (p.cells ++ [p.closing]) = tiles p.cells ++ [p.closing.tile] := by
    unfold tiles
    rw [List.map_append, List.map_singleton]
  refine ⟨?_, rfl, rfl⟩
  constructor
  case placed =>
    rw [htiles]
    refine hp.placed.snoc ⟨?_, ?_⟩ ?_
    · rw [← hp.occupied]
      exact hfirst
    · intro column hcolumn
      rw [← hp.occupied]
      exact hbefore column hcolumn
    · intro row column hcovers
      rw [← hp.occupied]
      exact hfree (row, column) (mem_squares.mpr hcovers)
  case occupied =>
    intro row column
    rw [htiles, covered_append, covered_singleton, hmem, hp.occupied, mem_squares]
  case inside =>
    intro cell hcell
    rcases List.mem_append.mp hcell with hold | hnew
    · obtain ⟨hrow, hcolumn⟩ := hp.inside cell hold
      show _ ≤ max p.maxRow _ + 1 ∧ _ ≤ max p.maxColumn _ + 1
      omega
    · cases List.mem_singleton.mp hnew
      show _ ≤ max p.maxRow _ + 1 ∧ _ ≤ max p.maxColumn _ + 1
      omega
  case spans_pos =>
    intro cell hcell
    rcases List.mem_append.mp hcell with hold | hnew
    · exact hp.spans_pos cell hold
    · cases List.mem_singleton.mp hnew
      exact hp.span_pos
  case span_pos => exact ⟨le_refl 1, le_refl 1⟩

structure Advance (p q : TableParser) (closesRow closesCell : Bool) : Prop where
  sound : q.Sound
  rowIndex : q.rowIndex = p.rowIndex + if closesRow then 1 else 0
  rows : q.cells.map Cell.row = p.cells.map Cell.row ++ if closesCell then [p.rowIndex] else []

theorem TableParser.Keeps.advance {p q : TableParser} (h : p.Keeps q)
    (hrow : q.rowIndex = p.rowIndex) (hp : p.Sound) : Advance p q false false where
  sound := h.sound hp
  rowIndex := hrow
  rows := by
    rw [h.cells]
    exact (List.append_nil _).symm

/-- An end tag closes what its name says. -/
theorem handleEndTag_advance {tag : String} (hp : p.Sound) (h : handleEndTag p tag = .ok q) :
    Advance p q (["tr"].contains tag.toLower) (["td", "th"].contains tag.toLower) := by
  unfold handleEndTag at h
  simp only at h
  split_ifs at h with htable hrow hcell
  · rw [htable]
    replace h := rest_ok h
    cases h
    exact TableParser.Keeps.advance ⟨rfl, rfl, rfl, rfl, id⟩ rfl hp
  · rw [hrow]
    replace h := rest_ok h
    cases h
    have hkeeps : p.Keeps { p with rowOpen := false, rowIndex := p.rowIndex + 1 } :=
      ⟨rfl, rfl, rfl, rfl, id⟩
    exact
      { sound := hkeeps.sound hp
        rowIndex := rfl
        rows := (List.append_nil _).symm }
  · obtain ⟨hsound, hindex, hcells⟩ := endCell_sound hp h
    have hnames : ["tr"].contains tag.toLower = false ∧
        ["td", "th"].contains tag.toLower = true := by
      rcases hcell with hname | hname
      · rw [hname]
        decide
      · rw [hname]
        decide
    rw [hnames.1, hnames.2]
    refine ⟨hsound, hindex, ?_⟩
    rw [hcells, List.map_append]
    rfl
  · cases h
    have hnames : ["tr"].contains tag.toLower = false ∧
        ["td", "th"].contains tag.toLower = false := by
      simp only [List.contains_cons, List.contains_nil, Bool.or_false, Bool.or_eq_false_iff,
        beq_eq_false_iff_ne]
      exact ⟨hrow, fun h => hcell (Or.inl h), fun h => hcell (Or.inr h)⟩
    rw [hnames.1, hnames.2]
    exact (TableParser.Keeps.refl p).advance rfl hp

theorem Advance.after {mid : TableParser} {closesRow closesCell : Bool} (hkeeps : p.Keeps mid)
    (hindex : mid.rowIndex = p.rowIndex) (h : Advance mid q closesRow closesCell) :
    Advance p q closesRow closesCell where
  sound := h.sound
  rowIndex := by
    rw [h.rowIndex, hindex]
  rows := by
    rw [h.rows, hkeeps.cells, hindex]

theorem handle_advance {event : Event} (hp : p.Sound)
    (h : handle digits p event = .ok q) : Advance p q event.closesRow event.closesCell := by
  cases event with
  | startTag tag attrs =>
    obtain ⟨hkeeps, hindex⟩ := handleStartTag_keeps h
    exact hkeeps.advance hindex hp
  | endTag tag => exact handleEndTag_advance hp h
  | startEndTag tag attrs =>
    simp only [handle, handleStartEndTag] at h
    split_ifs at h with hbr hnames
    · cases h
      obtain ⟨hkeeps, hindex⟩ := append_keeps p "\n"
      simp only [Event.closesRow, Event.closesCell, Event.closes, hbr]
      exact hkeeps.advance hindex hp
    · obtain ⟨mid, hmid, h⟩ := bind_ok h
      obtain ⟨hkeeps, hindex⟩ := handleStartTag_keeps hmid
      exact Advance.after hkeeps hindex (handleEndTag_advance (hkeeps.sound hp) h)
    · obtain ⟨mid, hmid, h⟩ := bind_ok h
      obtain ⟨hkeeps, hindex⟩ := handleStartTag_keeps hmid
      -- The end handler would have ignored the name as well.
      have hend : handleEndTag mid tag = .ok q := by
        simp only [not_or] at hnames
        unfold handleEndTag
        simp only [hnames, if_false, or_self]
        exact h
      exact Advance.after hkeeps hindex (handleEndTag_advance (hkeeps.sound hp) hend)
  | data text =>
    cases h
    obtain ⟨hkeeps, hindex⟩ := append_keeps p text
    exact hkeeps.advance hindex hp
  | other =>
    cases h
    exact (TableParser.Keeps.refl p).advance rfl hp

/-- So does a list of events. -/
theorem feed_advance {events : List Event} (hp : p.Sound) (h : feed digits p events = .ok q) :
    q.Sound ∧ q.rowIndex = p.rowIndex + closedRows events ∧
      q.cells.map Cell.row = p.cells.map Cell.row ++ cellRows p.rowIndex events := by
  induction events generalizing p with
  | nil =>
    cases h
    exact ⟨hp, rfl, (List.append_nil _).symm⟩
  | cons event events ih =>
    obtain ⟨mid, hmid, h⟩ := bind_ok h
    have hstep := handle_advance hp hmid
    obtain ⟨hsound, hindex, hrows⟩ := ih hstep.sound h
    refine ⟨hsound, ?_, ?_⟩
    · rw [hindex, hstep.rowIndex, closedRows, closedRows, List.countP_cons]
      omega
    · rw [hrows, hstep.rows, hstep.rowIndex, List.append_assoc]
      cases hclose : event.closesRow <;> simp [cellRows, hclose]

structure TilesGrid (cells : List Cell) (rows columns : Nat) : Prop where
  inside : ∀ row column, Covered (tiles cells) row column → row < rows ∧ column < columns
  exact_once : ∀ row < rows, ∀ column < columns,
    ∃! index : Nat, ∃ cell, cells[index]? = some cell ∧ cell.tile.Covers row column
  first_fit : ∀ front cell back, cells = front ++ cell :: back → StartsFree (tiles front) cell.tile
  spans_pos : ∀ cell ∈ cells, 1 ≤ cell.rowSpan ∧ 1 ≤ cell.columnSpan

theorem finish_tiles {cells : List Cell} (hp : p.Sound) (h : finish p = .ok cells) :
    cells = p.cells ∧ ∃ columns, TilesGrid cells p.rowIndex columns ∧ p.rowIndex ≤ maxRows ∧
      columns ≤ maxColumns ∧ cells.length ≤ maxCells := by
  replace h := rest_ok h
  obtain ⟨⟨⟩, hsize, h⟩ := bind_ok h
  obtain ⟨⟨⟩, hragged, h⟩ := bind_ok h
  cases h
  have hsize := refuse_ok_iff.mp hsize
  have hragged := refuse_ok_iff.mp hragged
  simp only [not_or, not_not, gt_iff_lt, not_lt] at hsize
  obtain ⟨hrows, hmaxRows, hmaxColumns, hcells⟩ := hsize
  simp only [List.mem_range, not_exists, not_and, hrows, Int.toNat_natCast, Bool.not_eq_false,
    List.contains_iff_mem] at hragged
  refine ⟨rfl, (p.maxColumn + 1).toNat, ?_, by omega, by omega, hcells⟩
  constructor
  case inside =>
    rintro row column ⟨tile, hmem, ⟨-, hrow⟩, -, hcolumn⟩
    obtain ⟨cell, hcell, rfl⟩ := List.mem_map.mp hmem
    obtain ⟨hinRow, hinColumn⟩ := hp.inside cell hcell
    simp only [Cell.tile] at hrow hcolumn
    omega
  case exact_once =>
    intro row hrow column hcolumn
    have hcovered : Covered (tiles p.cells) row column := by
      rw [← hp.occupied]
      exact hragged row hrow column hcolumn
    have hindex : ∀ index : Nat,
        (∃ tile, (tiles p.cells)[index]? = some tile ∧ tile.Covers row column) ↔
          ∃ cell, p.cells[index]? = some cell ∧ cell.tile.Covers row column := by
      intro index
      unfold tiles
      rw [List.getElem?_map]
      simp only [Option.map_eq_some_iff, exists_exists_and_eq_and]
    obtain ⟨index, hcovers, hunique⟩ := hp.placed.unique hcovered
    exact ⟨index, (hindex index).mp hcovers, fun other hother =>
      hunique other ((hindex other).mpr hother)⟩
  case first_fit =>
    intro front cell back hsplit
    refine @Placed.startsFree _ hp.placed (tiles front) (tiles back) cell.tile ?_
    rw [hsplit]
    unfold tiles
    rw [List.map_append, List.map_cons]
  case spans_pos => exact hp.spans_pos

/-! ### Errors -/

/-- The error is a `ValueError`. -/
def IsValueError (error : PyError) : Prop :=
  ∃ message, error = .valueError message

theorem refuse_raises {p : Prop} [Decidable p] {message : String} :
    RaisesOnly IsValueError (refuse p (.valueError message)) :=
  raisesOnly_refuse ⟨message, rfl⟩

theorem span_raises (digits : Digits) (attrs : List (String × Option String)) (name : String) :
    RaisesOnly IsValueError (span digits attrs name) := by
  have hparse : ∀ text, RaisesOnly IsValueError (parseInt digits text) := by
    intro text
    refine refuse_raises.bind fun _ => ?_
    cases text.toList.mapM digits.decimal with
    | some values => exact raisesOnly_ok _
    | none => exact raisesOnly_error ⟨_, rfl⟩
  unfold span
  split
  · exact raisesOnly_ok 1
  · refine refuse_raises.bind fun _ => (hparse _).bind fun _ => ?_
    exact refuse_raises.bind fun _ => raisesOnly_ok _
  · exact raisesOnly_error ⟨_, rfl⟩

theorem handleStartTag_raises (digits : Digits) (p : TableParser) (tag : String)
    (attrs : List (String × Option String)) :
    RaisesOnly IsValueError (handleStartTag digits p tag attrs) := by
  unfold handleStartTag
  simp only
  split_ifs
  · exact refuse_raises.bind fun _ => raisesOnly_ok _
  · exact refuse_raises.bind fun _ =>
      refuse_raises.bind fun _ => raisesOnly_ok _
  · refine refuse_raises.bind fun _ => refuse_raises.bind fun _ => ?_
    refine (span_raises digits attrs _).bind fun _ => (span_raises digits attrs _).bind fun _ => ?_
    exact refuse_raises.bind fun _ => raisesOnly_ok _
  · exact raisesOnly_ok _
  · exact refuse_raises.bind fun _ => raisesOnly_ok _
  · exact raisesOnly_ok _

theorem occupy_raises (occupied squares : List (Nat × Nat)) :
    RaisesOnly IsValueError (occupy occupied squares) := by
  induction squares generalizing occupied with
  | nil => exact raisesOnly_ok _
  | cons square squares ih =>
    unfold occupy
    split_ifs
    · exact raisesOnly_error ⟨_, rfl⟩
    · exact ih _

/-- Nor does an end tag. -/
theorem handleEndTag_raises (p : TableParser) (tag : String) :
    RaisesOnly IsValueError (handleEndTag p tag) := by
  unfold handleEndTag
  simp only
  split_ifs
  · exact refuse_raises.bind fun _ => raisesOnly_ok _
  · exact refuse_raises.bind fun _ => raisesOnly_ok _
  · refine refuse_raises.bind fun _ => refuse_raises.bind fun _ => ?_
    exact (occupy_raises _ _).bind fun _ => raisesOnly_ok _
  · exact raisesOnly_ok _

theorem feed_raises (digits : Digits) (p : TableParser) (events : List Event) :
    RaisesOnly IsValueError (feed digits p events) := by
  induction events generalizing p with
  | nil => exact raisesOnly_ok p
  | cons event events ih =>
    refine RaisesOnly.bind ?_ ih
    cases event with
    | startTag tag attrs => exact handleStartTag_raises digits p tag attrs
    | endTag tag => exact handleEndTag_raises p tag
    | startEndTag tag attrs =>
      simp only [handle, handleStartEndTag]
      split_ifs
      · exact raisesOnly_ok _
      · exact (handleStartTag_raises digits p tag attrs).bind fun _ => handleEndTag_raises _ _
      · exact (handleStartTag_raises digits p tag attrs).bind fun _ => raisesOnly_ok _
    | data text | other => exact raisesOnly_ok _

theorem parseTableCells_raises (digits : Digits) (html : String) (events : List Event) :
    RaisesOnly IsValueError (parseTableCells digits html events) := by
  refine refuse_raises.bind fun _ => refuse_raises.bind fun _ => ?_
  refine (feed_raises digits .new events).bind fun p => ?_
  refine refuse_raises.bind fun _ => refuse_raises.bind fun _ => ?_
  exact refuse_raises.bind fun _ => raisesOnly_ok _

/-- For every stream of parser events: returned cells tile the grid of the closed rows
exactly, each at the first free column of the row that was open, within every limit; and
nothing but a `ValueError` is raised. -/
theorem parseTableCells_exact (digits : Digits) (html : String) (events : List Event) :
    match parseTableCells digits html events with
    | .ok cells =>
      (∃ columns, TilesGrid cells (closedRows events) columns ∧
        closedRows events ≤ maxRows ∧ columns ≤ maxColumns ∧ cells.length ≤ maxCells) ∧
      cells.map Cell.row = cellRows 0 events ∧ html.length ≤ maxHtmlChars
    | .error error => ∃ message, error = .valueError message := by
  cases hresult : parseTableCells digits html events with
  | error error => exact parseTableCells_raises digits html events error hresult
  | ok cells =>
    obtain ⟨⟨⟩, -, h⟩ := bind_ok hresult
    obtain ⟨⟨⟩, hsize, h⟩ := bind_ok h
    obtain ⟨p, hfeed, h⟩ := bind_ok h
    obtain ⟨hsound, hindex, hrows⟩ := feed_advance .new hfeed
    obtain ⟨rfl, columns, htiles, hlimits⟩ := finish_tiles hsound h
    have hclosed : p.rowIndex = closedRows events := hindex.trans (Nat.zero_add _)
    rw [hclosed] at htiles hlimits
    exact ⟨⟨columns, htiles, hlimits⟩, hrows, not_lt.mp (refuse_ok_iff.mp hsize)⟩

end ProofOps.Adapters.Parsing
