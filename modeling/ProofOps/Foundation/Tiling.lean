import Mathlib.Data.List.Nodup
import Mathlib.Data.List.Perm.Subperm
import Mathlib.Data.List.Range

/-!
# First-fit tilings

Rectangles are placed one after another on the squares of a grid.  Each starts in its row
at the first column that no earlier one covers (`firstFree_spec`), and may not cover a
square a second time.  A covered square is then covered by exactly one of them
(`Placed.unique`).
-/

namespace ProofOps.Foundation.Tiling

/-- A tile of a grid. -/
structure Tile where
  (row column height width : Nat)

/-- The tile covers a square. -/
def Tile.Covers (tile : Tile) (row column : Nat) : Prop :=
  (tile.row ≤ row ∧ row < tile.row + tile.height) ∧
    tile.column ≤ column ∧ column < tile.column + tile.width

instance (tile : Tile) (row column : Nat) : Decidable (tile.Covers row column) :=
  inferInstanceAs (Decidable (_ ∧ _))

def Covered (tiles : List Tile) (row column : Nat) : Prop :=
  ∃ tile ∈ tiles, tile.Covers row column

instance (tiles : List Tile) (row column : Nat) : Decidable (Covered tiles row column) :=
  inferInstanceAs (Decidable (∃ tile ∈ tiles, _))

/-- The squares of a tile. -/
def Tile.squares (tile : Tile) : List (Nat × Nat) :=
  (List.range tile.height).flatMap fun down =>
    (List.range tile.width).map fun right => (tile.row + down, tile.column + right)

variable {column row : Nat}

theorem mem_squares {tile : Tile} :
    (row, column) ∈ tile.squares ↔ tile.Covers row column := by
  unfold Tile.squares Tile.Covers
  simp only [List.mem_flatMap, List.mem_map, List.mem_range, Prod.mk.injEq]
  constructor
  · rintro ⟨down, hdown, right, hright, hrow, hcolumn⟩
    omega
  · rintro ⟨hrow, hcolumn⟩
    exact ⟨row - tile.row, by omega, column - tile.column, by omega, by omega, by omega⟩

@[simp]
theorem covered_nil (row column : Nat) : ¬Covered [] row column := by
  rintro ⟨tile, hmem, -⟩
  cases hmem

/-- Tiles in two parts. -/
theorem covered_append {front back : List Tile} :
    Covered (front ++ back) row column ↔ Covered front row column ∨ Covered back row column := by
  simp only [Covered, List.mem_append, or_and_right, exists_or]

theorem covered_singleton {tile : Tile} :
    Covered [tile] row column ↔ tile.Covers row column := by
  simp [Covered]

def firstFreeFrom (taken : List (Nat × Nat)) (row : Nat) : Nat → Nat → Nat
  | 0, column => column
  | fuel + 1, column =>
    if (row, column) ∈ taken then firstFreeFrom taken row fuel (column + 1) else column

def firstFree (taken : List (Nat × Nat)) (row : Nat) : Nat :=
  firstFreeFrom taken row taken.length 0

theorem firstFreeFrom_spec {taken : List (Nat × Nat)} {row fuel start : Nat}
    (hstart : ∀ column < start, (row, column) ∈ taken) :
    (∀ column < firstFreeFrom taken row fuel start, (row, column) ∈ taken) ∧
      ((row, firstFreeFrom taken row fuel start) ∈ taken →
        start + fuel ≤ firstFreeFrom taken row fuel start) := by
  induction fuel generalizing start with
  | zero => exact ⟨hstart, fun _ => le_refl start⟩
  | succ fuel ih =>
    unfold firstFreeFrom
    by_cases htaken : (row, start) ∈ taken
    · rw [if_pos htaken]
      have hnext : ∀ column < start + 1, (row, column) ∈ taken := by
        intro column hcolumn
        by_cases hlast : column = start
        · exact hlast ▸ htaken
        · exact hstart column (by omega)
      obtain ⟨hpassed, hstop⟩ := ih hnext
      exact ⟨hpassed, fun hmem => by have := hstop hmem; omega⟩
    · rw [if_neg htaken]
      exact ⟨hstart, fun hmem => absurd hmem htaken⟩

theorem firstFree_spec (taken : List (Nat × Nat)) (row : Nat) :
    (row, firstFree taken row) ∉ taken ∧ ∀ column < firstFree taken row, (row, column) ∈ taken := by
  obtain ⟨hpassed, hstop⟩ := @firstFreeFrom_spec taken row taken.length 0
    (fun column h => absurd h (Nat.not_lt_zero column))
  refine ⟨fun hmem => ?_, hpassed⟩
  -- A taken stop would mean more taken squares in this row than there are at all.
  have hlong := hstop hmem
  have hnodup : ((List.range (taken.length + 1)).map fun column => (row, column)).Nodup :=
    List.Nodup.map (fun _ _ h => (Prod.mk.inj h).2) List.nodup_range
  have hsubset : ((List.range (taken.length + 1)).map fun column => (row, column)) ⊆ taken := by
    intro square hsquare
    obtain ⟨column, hcolumn, rfl⟩ := List.mem_map.mp hsquare
    rw [List.mem_range] at hcolumn
    by_cases hbefore : column < firstFree taken row
    · exact hpassed column hbefore
    · have hlast : column = firstFree taken row := by
        unfold firstFree at hbefore ⊢
        omega
      exact hlast ▸ hmem
  have hcount := (List.subperm_of_subset hnodup hsubset).length_le
  rw [List.length_map, List.length_range] at hcount
  omega

def StartsFree (earlier : List Tile) (tile : Tile) : Prop :=
  ¬Covered earlier tile.row tile.column ∧ ∀ column < tile.column, Covered earlier tile.row column

inductive Placed : List Tile → Prop where
  | nil : Placed []
  | snoc {tiles : List Tile} {tile : Tile} (earlier : Placed tiles) (start : StartsFree tiles tile)
      (free : ∀ row column, tile.Covers row column → ¬Covered tiles row column) :
      Placed (tiles ++ [tile])

theorem Placed.unique {tiles : List Tile} (h : Placed tiles) (hcovered : Covered tiles row column) :
    ∃! index : Nat, ∃ tile, tiles[index]? = some tile ∧ tile.Covers row column := by
  induction h with
  | nil => exact absurd hcovered (covered_nil row column)
  | @snoc tiles tile _ _ hfree ih =>
    rcases covered_append.mp hcovered with hearlier | hlast
    · -- An earlier tile covers it, so the last one does not.
      obtain ⟨index, ⟨found, hfound, hcovers⟩, hunique⟩ := ih hearlier
      have hindex : index < tiles.length := (List.getElem?_eq_some_iff.mp hfound).1
      refine ⟨index, ⟨found, ?_, hcovers⟩, ?_⟩
      · rw [List.getElem?_append_left hindex]
        exact hfound
      · rintro other ⟨second, hsecond, hcovers'⟩
        by_cases hother : other < tiles.length
        · rw [List.getElem?_append_left hother] at hsecond
          exact hunique other ⟨second, hsecond, hcovers'⟩
        · rw [List.getElem?_append_right (by omega), List.getElem?_singleton] at hsecond
          split_ifs at hsecond
          cases hsecond
          exact absurd hearlier (hfree row column hcovers')
    · rw [covered_singleton] at hlast
      refine ⟨tiles.length, ⟨tile, by simp, hlast⟩, ?_⟩
      rintro other ⟨second, hsecond, hcovers⟩
      have hother := (List.getElem?_eq_some_iff.mp hsecond).1
      rw [List.length_append, List.length_singleton] at hother
      by_cases hearlier : other < tiles.length
      · rw [List.getElem?_append_left hearlier] at hsecond
        exact absurd ⟨second, List.mem_of_getElem? hsecond, hcovers⟩ (hfree row column hlast)
      · omega

theorem Placed.startsFree {tiles : List Tile} (h : Placed tiles) {front back : List Tile}
    {tile : Tile} (hsplit : tiles = front ++ tile :: back) : StartsFree front tile := by
  induction h generalizing back with
  | nil => simp at hsplit
  | @snoc tiles last _ hstart _ ih =>
    rcases List.eq_nil_or_concat back with rfl | ⟨back, other, rfl⟩
    · obtain ⟨rfl, hlast⟩ := List.append_inj' hsplit rfl
      cases hlast
      exact hstart
    · rw [List.concat_eq_append, ← List.cons_append, ← List.append_assoc] at hsplit
      exact ih (List.append_inj_left' hsplit rfl)

end ProofOps.Foundation.Tiling
