import Mathlib.Data.List.Nodup
import ProofOps.Foundation.Scattered

/-!
# Lists without some of their positions

The positions that are kept when some are removed, in order, and the list that is left.  A range of
what is left and the range of the list between its first and its last position stand for each other.
-/

namespace ProofOps.Foundation.Thinning

open Scattered

universe u

variable {α : Type u}

def kept (removed : List Nat) (size : Nat) : List Nat :=
  (List.range size).filter fun index => index ∉ removed

/-- The items at these indices. -/
def thin (removed : List Nat) (items : List α) : List α :=
  (kept removed items.length).filterMap fun index => items[index]?

def position (removed : List Nat) (size index : Nat) : Nat :=
  (kept removed size).getD index 0

variable {removed : List Nat} {size : Nat} {items : List α} {index : Nat}

theorem mem_kept : index ∈ kept removed size ↔ index < size ∧ index ∉ removed := by
  simp [kept]

theorem kept_pairwise (removed : List Nat) (size : Nat) :
    (kept removed size).Pairwise fun first second => first < second :=
  List.Pairwise.filter _ List.pairwise_lt_range

theorem kept_nodup (removed : List Nat) (size : Nat) : (kept removed size).Nodup :=
  (kept_pairwise removed size).imp Nat.ne_of_lt

theorem position_eq (h : index < (kept removed size).length) :
    position removed size index = (kept removed size)[index] := by
  unfold position
  rw [List.getD_eq_getElem?_getD, List.getElem?_eq_getElem h]
  rfl

/-- A position was kept. -/
theorem position_mem {index : Nat} (h : index < (kept removed size).length) :
    position removed size index < size ∧ position removed size index ∉ removed := by
  rw [position_eq h, ← mem_kept]
  exact List.getElem_mem h

/-- Later indices stood later. -/
theorem position_lt {first second : Nat} (hlt : first < second)
    (hsecond : second < (kept removed size).length) :
    position removed size first < position removed size second := by
  rw [position_eq (Nat.lt_trans hlt hsecond), position_eq hsecond]
  exact List.pairwise_iff_getElem.mp (kept_pairwise removed size) first second _ hsecond hlt

theorem position_le {first second : Nat} (hle : first ≤ second)
    (hsecond : second < (kept removed size).length) :
    position removed size first ≤ position removed size second := by
  rcases Nat.eq_or_lt_of_le hle with rfl | hlt
  · exact Nat.le_refl _
  · exact Nat.le_of_lt (position_lt hlt hsecond)

theorem position_lt_iff {first second : Nat} (hfirst : first < (kept removed size).length)
    (hsecond : second < (kept removed size).length) :
    position removed size first < position removed size second ↔ first < second := by
  constructor
  · intro h
    by_contra hnot
    have := position_le (Nat.le_of_not_lt hnot) hfirst
    omega
  · exact fun h => position_lt h hsecond

theorem position_inj {first second : Nat} (hfirst : first < (kept removed size).length)
    (hsecond : second < (kept removed size).length)
    (h : position removed size first = position removed size second) : first = second := by
  rw [position_eq hfirst, position_eq hsecond] at h
  exact (List.Nodup.getElem_inj_iff (kept_nodup removed size)).mp h

theorem idxOf?_succ_eq_some {target index : Nat} :
    ((kept removed size).map (· + 1)).idxOf? (target + 1) = some index ↔
      index < (kept removed size).length ∧ position removed size index = target := by
  rw [List.idxOf?_eq_some_iff]
  constructor
  · rintro ⟨hindex, heq, -⟩
    rw [List.length_map] at hindex
    rw [List.getElem_map, Nat.add_right_cancel_iff] at heq
    exact ⟨hindex, by rw [position_eq hindex, heq]⟩
  · rintro ⟨hindex, rfl⟩
    refine ⟨by rw [List.length_map]; exact hindex, by rw [List.getElem_map, position_eq hindex], ?_⟩
    intro earlier hearlier heq
    rw [List.getElem_map, Nat.add_right_cancel_iff,
      ← position_eq (Nat.lt_trans hearlier hindex)] at heq
    have := position_inj (Nat.lt_trans hearlier hindex) hindex heq
    omega

theorem exists_position (hsize : index < size) (hnot : index ∉ removed) :
    ∃ place < (kept removed size).length, position removed size place = index := by
  obtain ⟨place, hplace, heq⟩ := List.getElem_of_mem (mem_kept.mpr ⟨hsize, hnot⟩)
  exact ⟨place, hplace, by rw [position_eq hplace, heq]⟩

theorem removed_between {other : Nat} (hindex : index + 1 < (kept removed size).length)
    (hlow : position removed size index < other)
    (hhigh : other < position removed size (index + 1)) : other ∈ removed := by
  by_contra hnot
  have hother : other < size := Nat.lt_trans hhigh (position_mem hindex).1
  obtain ⟨place, hplace, rfl⟩ := exists_position hother hnot
  have hfirst := (position_lt_iff (by omega) hplace).mp hlow
  have hsecond := (position_lt_iff hplace hindex).mp hhigh
  omega

/-! ### What is left -/

theorem filterMap_getElem?_map_some {indices : List Nat} (hall : ∀ index ∈ indices, index < items.length) :
    (indices.filterMap fun index => items[index]?).map some = indices.map fun index => items[index]? := by
  induction indices with
  | nil => rfl
  | cons index indices ih =>
    rw [List.forall_mem_cons] at hall
    have hget := List.getElem?_eq_getElem hall.1
    rw [List.filterMap_cons, hget, List.map_cons, List.map_cons, ih hall.2, hget]

theorem thin_eq_map (removed : List Nat) (items : List α) :
    (thin removed items).map some = (kept removed items.length).map fun index => items[index]? :=
  filterMap_getElem?_map_some fun _ hindex => (mem_kept.mp hindex).1

theorem thin_slice (removed : List Nat) (items : List α) (start stop : Nat) :
    ((thin removed items).take stop).drop start =
      (((kept removed items.length).take stop).drop start).filterMap fun index => items[index]? := by
  apply List.map_injective_iff.mpr (fun _ _ => Option.some.inj)
  rw [filterMap_getElem?_map_some fun index hindex =>
    (mem_kept.mp (List.mem_of_mem_take (List.mem_of_mem_drop hindex))).1]
  rw [List.map_drop, List.map_take, thin_eq_map, List.map_drop, List.map_take]

theorem thin_length (removed : List Nat) (items : List α) :
    (thin removed items).length = (kept removed items.length).length := by
  have hlengths := congrArg List.length (thin_eq_map removed items)
  rw [List.length_map, List.length_map] at hlengths
  exact hlengths

theorem thin_getElem? (h : index < (kept removed items.length).length) :
    (thin removed items)[index]? = items[position removed items.length index]? := by
  have hmap := congrArg (fun entries => entries[index]?) (thin_eq_map removed items)
  simp only [List.getElem?_map, List.getElem?_eq_getElem h, Option.map_some] at hmap
  rw [position_eq h]
  cases hthin : (thin removed items)[index]? with
  | none => rw [hthin] at hmap; cases hmap
  | some item =>
    rw [hthin, Option.map_some, Option.some.injEq] at hmap
    exact hmap

variable {stop : Nat}

theorem kept_slice {start : Nat} (hlt : start < stop) (hstop : stop ≤ (kept removed size).length) :
    ((kept removed size).take stop).drop start =
      (List.range' (position removed size start)
        (position removed size (stop - 1) + 1 - position removed size start)).filter
          fun index => index ∉ removed := by
  have hlast : stop - 1 < (kept removed size).length := by omega
  refine @List.Perm.eq_of_pairwise Nat (fun first second => first < second) _ _ ?_ ?_ ?_ ?_
  · intro first second _ _ hfirst hsecond
    omega
  · exact ((kept_pairwise removed size).sublist (List.take_sublist _ _)).sublist (List.drop_sublist _ _)
  · exact List.Pairwise.filter _ List.pairwise_lt_range'
  · refine (List.perm_ext_iff_of_nodup ?_ ?_).mpr fun index => ?_
    · exact ((kept_nodup removed size).sublist (List.take_sublist _ _)).sublist (List.drop_sublist _ _)
    · exact List.Nodup.filter _ List.nodup_range'
    · rw [List.mem_filter, decide_eq_true_eq, List.mem_range'_1]
      constructor
      · intro hmem
        obtain ⟨offset, hoffset, heq⟩ := List.getElem_of_mem hmem
        rw [List.length_drop, List.length_take, Nat.min_eq_left hstop] at hoffset
        rw [List.getElem_drop, List.getElem_take] at heq
        have hplace : start + offset < (kept removed size).length := by omega
        rw [← position_eq hplace] at heq
        have hlow := @position_le removed size _ _ (Nat.le_add_right start offset) hplace
        have hhigh := @position_le removed size _ _
          (by omega : start + offset ≤ stop - 1) hlast
        refine ⟨⟨by omega, by omega⟩, ?_⟩
        rw [← heq]
        exact (position_mem hplace).2
      · rintro ⟨⟨hlow, hhigh⟩, hnot⟩
        have hsize := (position_mem hlast).1
        obtain ⟨place, hplace, rfl⟩ := exists_position (by omega : index < size) hnot
        have hfirst : start ≤ place := by
          by_contra hlt'
          have := @position_lt removed size _ _ (Nat.lt_of_not_le hlt') (by omega)
          omega
        have hsecond : place < stop := by
          by_contra hge
          have := @position_lt removed size _ _ (by omega : stop - 1 < place) hplace
          omega
        rw [position_eq hplace]
        refine List.mem_iff_getElem.mpr ⟨place - start, ?_, ?_⟩
        · rw [List.length_drop, List.length_take, Nat.min_eq_left hstop]
          omega
        · rw [List.getElem_drop, List.getElem_take]
          congr 1
          omega

theorem succ_of_position {first second : Nat} (hfirst : first < (kept removed size).length)
    (hsecond : second < (kept removed size).length)
    (h : position removed size second = position removed size first + 1) : second = first + 1 := by
  have hlt := (position_lt_iff hfirst hsecond).mp (by omega)
  by_contra hnot
  have hbetween := @position_lt removed size _ _ (Nat.lt_add_one first) (by omega)
  have hbelow := @position_lt removed size _ _ (by omega : first + 1 < second) hsecond
  omega

theorem position_of_free {start : Nat} (hlt : start < stop)
    (hstop : stop ≤ (kept removed size).length)
    (hfree : ∀ index ∈ removed, ¬(position removed size start < index ∧
      index < position removed size (stop - 1) + 1)) :
    position removed size (stop - 1) + 1 = position removed size start + (stop - start) := by
  have hfirst := (@position_mem removed size start (by omega)).2
  have hlengths := congrArg List.length (kept_slice hlt hstop)
  rw [List.length_drop, List.length_take, Nat.min_eq_left hstop, List.filter_eq_self.mpr,
    List.length_range'] at hlengths
  · omega
  · intro index hindex
    rw [List.mem_range'_1] at hindex
    refine decide_eq_true fun hmem => ?_
    rcases Nat.eq_or_lt_of_le hindex.1 with heq | hbetween
    · rw [heq] at hfirst
      exact hfirst hmem
    · exact hfree index hmem ⟨hbetween, by omega⟩

theorem range_step {spacer : α} (hremoved : ∀ index ∈ removed, items[index]? = some spacer)
    {item : α} (hindex : index + 1 < (kept removed items.length).length)
    (hitem : items[position removed items.length index]? = some item)
    (hstop : position removed items.length (index + 1) < stop) (hinside : stop ≤ items.length) :
    (items.take stop).drop (position removed items.length index) =
      item :: (List.replicate
        (position removed items.length (index + 1) - position removed items.length index - 1) spacer ++
          (items.take stop).drop (position removed items.length (index + 1))) := by
  have hlt := @position_lt removed items.length _ _ (Nat.lt_add_one index) hindex
  have hlow : ∀ other, position removed items.length index < other →
      other < position removed items.length (index + 1) → other ∈ removed :=
    fun other => removed_between hindex
  generalize position removed items.length index = low at *
  generalize position removed items.length (index + 1) = high at *
  have hin : low < (items.take stop).length := by
    rw [List.length_take, Nat.min_eq_left hinside]
    omega
  have hfirst : (items.take stop)[low] = item := by
    rw [List.getElem_take]
    rw [List.getElem?_eq_getElem (by omega), Option.some.injEq] at hitem
    exact hitem
  have hmiddle : ((items.take stop).drop (low + 1)).take (high - low - 1) =
      List.replicate (high - low - 1) spacer := by
    rw [List.eq_replicate_iff]
    constructor
    · rw [List.length_take, List.length_drop, List.length_take, Nat.min_eq_left hinside]
      omega
    · intro other hother
      obtain ⟨offset, hoffset, heq⟩ := List.getElem_of_mem hother
      rw [List.getElem_take, List.getElem_drop, List.getElem_take] at heq
      rw [List.length_take, List.length_drop, List.length_take, Nat.min_eq_left hinside] at hoffset
      have hspacer := hremoved (low + 1 + offset) (hlow _ (by omega) (by omega))
      rw [List.getElem?_eq_getElem (by omega), Option.some.injEq] at hspacer
      rw [← heq, hspacer]
  have hsplit := List.take_append_drop (high - low - 1) ((items.take stop).drop (low + 1))
  have hsum : low + 1 + (high - low - 1) = high := by omega
  rw [hmiddle, List.drop_drop, hsum] at hsplit
  rw [List.drop_eq_getElem_cons hin, hfirst, hsplit]

/-- A word of what is left stood spread over spacers. -/
theorem spread_of_thin {spacer : α} (hremoved : ∀ index ∈ removed, items[index]? = some spacer)
    {word : List α} (hne : word ≠ []) {start : Nat}
    (hstop : start + word.length ≤ (kept removed items.length).length)
    (hword : ((thin removed items).drop start).take word.length = word) :
    Spread spacer word ((items.take (position removed items.length (start + word.length - 1) + 1)).drop
      (position removed items.length start)) := by
  induction word generalizing start with
  | nil => exact absurd rfl hne
  | cons c word ih =>
    rw [List.length_cons] at hstop
    have hstart : start < (kept removed items.length).length := by omega
    have hthin : start < (thin removed items).length := by
      rw [thin_length]
      exact hstart
    rw [List.drop_eq_getElem_cons hthin, List.length_cons, List.take_succ_cons,
      List.cons.injEq] at hword
    obtain ⟨hc, hrest⟩ := hword
    have hitem : items[position removed items.length start]? = some c := by
      rw [← thin_getElem? hstart, List.getElem?_eq_getElem hthin, hc]
    cases word with
    | nil =>
      have hplace := (position_mem hstart).1
      rw [List.getElem?_eq_getElem hplace, Option.some.injEq] at hitem
      have hfront : (items.take (position removed items.length start)).length =
          position removed items.length start := by
        rw [List.length_take, Nat.min_eq_left (Nat.le_of_lt hplace)]
      have hslice : (items.take (position removed items.length start + 1)).drop
          (position removed items.length start) = [c] := by
        rw [List.take_succ_eq_append_getElem hplace, List.drop_append_of_le_length hfront.ge,
          List.drop_eq_nil_iff.mpr hfront.le, hitem]
        rfl
      rw [List.length_singleton, Nat.add_sub_cancel, hslice]
      exact .last c
    | cons d word =>
      rw [List.length_cons] at hstop
      have hspread := @ih (List.cons_ne_nil d word) (start + 1) (by rw [List.length_cons]; omega) hrest
      have hlast : start + (c :: d :: word).length - 1 = start + 1 + (d :: word).length - 1 := by
        rw [List.length_cons, List.length_cons]
        omega
      have hlast_kept : start + 1 + (d :: word).length - 1 < (kept removed items.length).length := by
        rw [List.length_cons]
        omega
      have hle := @position_le removed items.length _ _
        (by rw [List.length_cons]; omega : start + 1 ≤ start + 1 + (d :: word).length - 1) hlast_kept
      rw [hlast, range_step hremoved (by omega) hitem (Nat.lt_succ_of_le hle)
        (position_mem hlast_kept).1]
      exact .cons c _ hspread

end ProofOps.Foundation.Thinning
