import Mathlib.Algebra.BigOperators.Group.List.Basic
import Mathlib.Data.List.Infix

/-!
# Rows of a text

A text is made of rows with a separator between each two.  A row may hold separators of its own, and
then takes more than one line.  An offset is in the row that the number of separators before it says
(`enclosed_iff_sameRow`), so that an offset of another text with as many lines can be compared with
the rows of this one.
-/

namespace ProofOps.Foundation.RowSpans

variable {α : Type*} {c : α} {rows before after : List (List α)} {row text front back : List α}

/-! ### Ranges -/

def spans : Nat → List (List α) → List (Nat × Nat)
  | _, [] => []
  | start, row :: rows => (start, start + row.length) :: spans (start + row.length + 1) rows

def closed (c : α) (rows : List (List α)) : List α :=
  rows.flatMap fun row => row ++ [c]

def opened (c : α) (rows : List (List α)) : List α :=
  rows.flatMap fun row => c :: row

/-- A first row, closed. -/
@[simp]
theorem closed_cons : closed c (row :: rows) = row ++ c :: closed c rows := by
  simp [closed]

@[simp]
theorem opened_nil : opened c ([] : List (List α)) = [] := rfl

@[simp]
theorem opened_cons : opened c (row :: rows) = c :: (row ++ opened c rows) := by
  simp [opened]

def EndsRow (c : α) (text : List α) : Prop :=
  text = [] ∨ ∃ front, text = front ++ [c]

def BeginsRow (c : α) (text : List α) : Prop :=
  text = [] ∨ ∃ back, text = c :: back

theorem endsRow_closed (c : α) (rows : List (List α)) : EndsRow c (closed c rows) := by
  rcases List.eq_nil_or_concat' rows with rfl | ⟨init, last, rfl⟩
  · exact .inl rfl
  · refine .inr ⟨closed c init ++ last, ?_⟩
    simp [closed]

theorem beginsRow_opened (c : α) (rows : List (List α)) : BeginsRow c (opened c rows) := by
  cases rows with
  | nil => exact .inl rfl
  | cons row rows => exact .inr ⟨_, opened_cons⟩

theorem intercalate_cons (c : α) (row : List α) (rows : List (List α)) :
    [c].intercalate (row :: rows) = row ++ opened c rows := by
  induction rows generalizing row with
  | nil => simp
  | cons next rows ih =>
    rw [List.intercalate_cons_cons, ih, opened_cons, List.append_assoc, List.singleton_append]

theorem intercalate_append (c : α) (before : List (List α)) (row : List α)
    (after : List (List α)) :
    [c].intercalate (before ++ row :: after) = closed c before ++ row ++ opened c after := by
  induction before with
  | nil => simp [closed, intercalate_cons]
  | cons first before ih =>
    have hne : before ++ row :: after ≠ [] :=
      List.append_ne_nil_of_right_ne_nil _ (List.cons_ne_nil _ _)
    obtain ⟨next, rest, hrest⟩ := List.exists_cons_of_ne_nil hne
    rw [List.cons_append, hrest, List.intercalate_cons_cons, ← hrest, ih]
    simp

theorem mem_intercalate_iff {d : α} (hne : d ≠ c) :
    d ∈ [c].intercalate rows ↔ ∃ row ∈ rows, d ∈ row := by
  cases rows with
  | nil => simp
  | cons first rows => simp [intercalate_cons, opened, hne]

theorem mem_spans_iff {start : Nat} {span : Nat × Nat} :
    span ∈ spans start rows ↔ ∃ before row after, rows = before ++ row :: after ∧
      span = (start + (closed c before).length, start + (closed c before).length + row.length) := by
  induction rows generalizing start with
  | nil => simp [spans]
  | cons first rows ih =>
    rw [spans, List.mem_cons, ih]
    constructor
    · rintro (rfl | ⟨before, row, after, rfl, rfl⟩)
      · exact ⟨[], first, rows, rfl, rfl⟩
      · refine ⟨first :: before, row, after, rfl, ?_⟩
        simp [Nat.add_assoc, Nat.add_comm 1]
    · rintro ⟨before, row, after, hrows, rfl⟩
      cases before with
      | nil =>
        cases hrows
        exact .inl rfl
      | cons other before =>
        cases hrows
        refine .inr ⟨before, row, after, rfl, ?_⟩
        simp [Nat.add_assoc, Nat.add_comm 1]

/-! ### Lines -/

section Lines

variable [DecidableEq α] {offset line : Nat}

def breaksBefore (c : α) (text : List α) (offset : Nat) : Nat :=
  (text.take offset).count c

variable {first : Nat}

theorem breaksBefore_mono {second : Nat} (h : first ≤ second) :
    breaksBefore c text first ≤ breaksBefore c text second :=
  (List.take_sublist_take_left h).count_le c

theorem breaksBefore_le : breaksBefore c text offset ≤ text.count c :=
  (List.take_sublist _ _).count_le c

@[simp]
theorem breaksBefore_append : breaksBefore c (front ++ back) front.length = front.count c := by
  unfold breaksBefore
  rw [List.take_left]

theorem length_le_iff (h : EndsRow c front) :
    front.length ≤ offset ↔ front.count c ≤ breaksBefore c (front ++ back) offset := by
  constructor
  · intro hle
    have hmono : breaksBefore c (front ++ back) front.length ≤
        breaksBefore c (front ++ back) offset := breaksBefore_mono hle
    rwa [breaksBefore_append] at hmono
  · intro hle
    by_contra hlt
    rcases h with rfl | ⟨init, rfl⟩
    · exact hlt (Nat.zero_le _)
    · -- The separator at the end of the front is not counted yet.
      have hinit : offset ≤ init.length := by
        simp at hlt
        omega
      have hcount : breaksBefore c (init ++ [c] ++ back) offset ≤
          breaksBefore c (init ++ [c] ++ back) init.length := breaksBefore_mono hinit
      simp at hle hcount
      omega

theorem le_length_iff (h : BeginsRow c back) (hoffset : offset ≤ (front ++ back).length) :
    offset ≤ front.length ↔ breaksBefore c (front ++ back) offset ≤ front.count c := by
  constructor
  · intro hle
    have hmono : breaksBefore c (front ++ back) offset ≤
        breaksBefore c (front ++ back) front.length := breaksBefore_mono hle
    rwa [breaksBefore_append] at hmono
  · intro hle
    by_contra hlt
    rcases h with rfl | ⟨rest, rfl⟩
    · simp at hoffset
      omega
    · have hnext : (front ++ [c]).length ≤ offset := by
        simp
        omega
      have hcount : breaksBefore c (front ++ [c] ++ rest) (front ++ [c]).length ≤
          breaksBefore c (front ++ [c] ++ rest) offset := breaksBefore_mono hnext
      rw [breaksBefore_append] at hcount
      simp at hle hcount
      omega

/-- The first lines of the rows, from a line on. -/
def firstLines (c : α) : Nat → List (List α) → List Nat
  | _, [] => []
  | line, row :: rows => line :: firstLines c (line + row.count c + 1) rows

theorem mem_firstLines_iff :
    first ∈ firstLines c line rows ↔ ∃ before row after, rows = before ++ row :: after ∧
      first = line + (closed c before).count c := by
  induction rows generalizing line with
  | nil => simp [firstLines]
  | cons head rows ih =>
    rw [firstLines, List.mem_cons, ih]
    constructor
    · rintro (rfl | ⟨before, row, after, rfl, rfl⟩)
      · exact ⟨[], head, rows, rfl, rfl⟩
      · refine ⟨head :: before, row, after, rfl, ?_⟩
        simp
        omega
    · rintro ⟨before, row, after, hrows, rfl⟩
      cases before with
      | nil =>
        exact .inl rfl
      | cons other before =>
        cases hrows
        refine .inr ⟨before, row, after, rfl, ?_⟩
        simp
        omega

def SameRow (c : α) (rows : List (List α)) (line other : Nat) : Prop :=
  ∀ first ∈ firstLines c 0 rows, first ≤ line ↔ first ≤ other

instance (c : α) (rows : List (List α)) (line other : Nat) : Decidable (SameRow c rows line other) :=
  inferInstanceAs (Decidable (∀ first ∈ firstLines c 0 rows, first ≤ line ↔ first ≤ other))

theorem SameRow.refl (c : α) (rows : List (List α)) (line : Nat) : SameRow c rows line line :=
  fun _ _ => Iff.rfl

theorem firstLines_apart (hrows : rows = before ++ row :: after)
    (hfirst : first ∈ firstLines c 0 rows) :
    first ≤ (closed c before).count c ∨ (closed c before).count c + row.count c < first := by
  obtain ⟨before', row', after', hrows', rfl⟩ := mem_firstLines_iff.mp hfirst
  rw [hrows] at hrows'
  rcases List.append_eq_append_iff.mp hrows' with ⟨middle, rfl, hmiddle⟩ | ⟨middle, rfl, -⟩
  · cases middle with
    | nil => simp
    | cons head middle =>
      obtain ⟨rfl, -⟩ := hmiddle
      right
      simp [closed]
  · left
    simp [closed]

theorem enclosed_iff_sameRow (hrows : rows = before ++ row :: after) {last other : Nat}
    (hfirst : (closed c before).count c ≤ first ∧ first ≤ (closed c before).count c + row.count c)
    (hlast : (closed c before).count c ≤ last ∧ last ≤ (closed c before).count c + row.count c)
    (hordered : line ≤ other) (hother : other ≤ ([c].intercalate rows).count c) :
    (closed c before).count c ≤ line ∧ other ≤ (closed c before).count c + row.count c ↔
      SameRow c rows line first ∧ SameRow c rows other last := by
  constructor
  · rintro ⟨hline, hstop⟩
    constructor
    · intro begin hbegin
      have hapart := firstLines_apart hrows hbegin
      omega
    · intro begin hbegin
      have hapart := firstLines_apart hrows hbegin
      omega
  · rintro ⟨hline, hstop⟩
    constructor
    · have hmem : (closed c before).count c ∈ firstLines c 0 rows :=
        mem_firstLines_iff.mpr ⟨before, row, after, hrows, (Nat.zero_add _).symm⟩
      exact (hline _ hmem).mpr hfirst.1
    · cases after with
      | nil =>
        rw [hrows, intercalate_append, opened_nil, List.append_nil, List.count_append] at hother
        exact hother
      | cons next after =>
        have hmem : (closed c before).count c + row.count c + 1 ∈ firstLines c 0 rows := by
          refine mem_firstLines_iff.mpr ⟨before ++ [row], next, after, ?_, ?_⟩
          · rw [hrows, List.append_assoc, List.singleton_append]
          · simp [closed]
            omega
        have hnext := hstop _ hmem
        omega

theorem count_closed (hplain : ∀ row ∈ rows, c ∉ row) : (closed c rows).count c = rows.length := by
  induction rows with
  | nil => rfl
  | cons row rows ih =>
    rw [List.forall_mem_cons] at hplain
    simp [List.count_eq_zero_of_not_mem hplain.1, ih hplain.2]

theorem sameRow_iff_eq (hplain : ∀ row ∈ rows, c ∉ row) {other : Nat} (hline : line < rows.length)
    (hother : other < rows.length) : SameRow c rows line other ↔ line = other := by
  have hlines : ∀ n < rows.length, n ∈ firstLines c 0 rows := by
    intro n hn
    refine mem_firstLines_iff.mpr ⟨rows.take n, rows[n], rows.drop (n + 1), ?_, ?_⟩
    · rw [List.getElem_cons_drop, List.take_append_drop]
    · rw [count_closed fun row hrow => hplain row (List.mem_of_mem_take hrow), List.length_take]
      omega
  constructor
  · intro h
    have hfirst := (h line (hlines line hline)).mp le_rfl
    have hsecond := (h other (hlines other hother)).mpr le_rfl
    omega
  · rintro rfl
    exact SameRow.refl c rows line

theorem count_intercalate (hplain : ∀ row ∈ rows, c ∉ row) (hne : rows ≠ []) :
    ([c].intercalate rows).count c + 1 = rows.length := by
  obtain ⟨init, last, rfl⟩ := (List.eq_nil_or_concat' rows).resolve_left hne
  rw [List.forall_mem_append, List.forall_mem_singleton] at hplain
  rw [intercalate_append, opened_nil, List.append_nil, List.count_append, count_closed hplain.1,
    List.count_eq_zero_of_not_mem hplain.2, List.length_append, List.length_singleton]

end Lines

end ProofOps.Foundation.RowSpans
