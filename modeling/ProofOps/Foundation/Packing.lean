import Mathlib.Algebra.Order.BigOperators.Group.List
import Mathlib.Algebra.Ring.Nat

/-!
# Greedy packing

Weighted items are cut into pieces and put into groups, as many in each as a limit allows.  The
pieces are the whole sequence, end to end (`cut_cuts`), and the groups hold every item once
(`pack_flatten`); no piece and no group exceeds the limit as long as no single item does.
-/

namespace ProofOps.Foundation.Packing

variable {α : Type}

def total (weight : α → Nat) (items : List α) : Nat :=
  (items.map weight).sum

/-- The items of a range. -/
def between (items : List α) (range : Nat × Nat) : List α :=
  (items.drop range.1).take (range.2 - range.1)

section Weight

variable {weight : α → Nat}

@[simp]
theorem total_nil : total weight [] = 0 :=
  rfl

@[simp]
theorem total_cons (item : α) (items : List α) :
    total weight (item :: items) = weight item + total weight items := by
  simp [total]

@[simp]
theorem total_append (front back : List α) :
    total weight (front ++ back) = total weight front + total weight back := by
  simp [total]

end Weight

/-! ### Cutting -/

def cutFrom (weight : α → Nat) (limit : Nat) : Nat → Nat → Nat → List α → List (Nat × Nat)
  | start, _, offset, [] => if start < offset then [(start, offset)] else []
  | start, size, offset, item :: items =>
    if limit < size + weight item then
      (start, offset) :: cutFrom weight limit offset (weight item) (offset + 1) items
    else cutFrom weight limit start (size + weight item) (offset + 1) items

def cut (weight : α → Nat) (limit : Nat) (items : List α) : List (Nat × Nat) :=
  cutFrom weight limit 0 0 0 items

inductive Cuts (weight : α → Nat) (limit : Nat) (items : List α) : Nat → List (Nat × Nat) → Prop where
  | nil : Cuts weight limit items items.length []
  | cons {start stop : Nat} {ranges : List (Nat × Nat)} (lt : start < stop)
      (le : stop ≤ items.length) (light : total weight (between items (start, stop)) ≤ limit)
      (rest : Cuts weight limit items stop ranges) :
      Cuts weight limit items start ((start, stop) :: ranges)

section Cuts

variable {weight : α → Nat} {limit start : Nat} {items : List α} {ranges : List (Nat × Nat)}

theorem between_append (front middle back : List α) :
    between (front ++ middle ++ back) (front.length, front.length + middle.length) = middle := by
  unfold between
  rw [List.append_assoc, List.drop_left, Nat.add_sub_cancel_left, List.take_left]

theorem Cuts.flatMap_between (h : Cuts weight limit items start ranges) :
    ranges.flatMap (between items) = items.drop start := by
  induction h with
  | nil =>
    rw [List.drop_length]
    rfl
  | @cons start stop ranges hlt hle _ _ ih =>
    rw [List.flatMap_cons, ih]
    show (items.drop start).take (stop - start) ++ items.drop stop = items.drop start
    have hrest : items.drop stop = (items.drop start).drop (stop - start) := by
      rw [List.drop_drop, Nat.add_sub_cancel' (Nat.le_of_lt hlt)]
    rw [hrest, List.take_append_drop]

theorem Cuts.of_mem (h : Cuts weight limit items start ranges) :
    ∀ range ∈ ranges, start ≤ range.1 ∧ range.1 < range.2 ∧ range.2 ≤ items.length ∧
      total weight (between items range) ≤ limit := by
  induction h with
  | nil => exact fun _ hrange => absurd hrange List.not_mem_nil
  | @cons start stop ranges hlt hle hlight _ ih =>
    intro range hrange
    rcases List.mem_cons.mp hrange with rfl | hrest
    · exact ⟨Nat.le_refl _, hlt, hle, hlight⟩
    · obtain ⟨hstart, hrange⟩ := ih range hrest
      exact ⟨Nat.le_trans (Nat.le_of_lt hlt) hstart, hrange⟩

theorem Cuts.pairwise_lt (h : Cuts weight limit items start ranges) :
    ranges.Pairwise fun first second => first.1 < second.1 := by
  induction h with
  | nil => exact List.Pairwise.nil
  | @cons start stop ranges hlt _ _ hrest ih =>
    refine List.Pairwise.cons ?_ ih
    intro range hrange
    exact Nat.lt_of_lt_of_le hlt (hrest.of_mem range hrange).1

theorem cutFrom_cuts {front piece rest : List α} (hrest : ∀ item ∈ rest, weight item ≤ limit)
    (hpiece : total weight piece ≤ limit) :
    Cuts weight limit (front ++ piece ++ rest) front.length
      (cutFrom weight limit front.length (total weight piece) (front.length + piece.length) rest) := by
  induction rest generalizing front piece with
  | nil =>
    unfold cutFrom
    rw [List.append_nil]
    split_ifs with hlt
    · refine .cons hlt ?_ ?_ ?_
      · exact Nat.le_of_eq List.length_append.symm
      · have hwhole := between_append front piece []
        rw [List.append_nil] at hwhole
        rw [hwhole]
        exact hpiece
      · rw [← List.length_append]
        exact .nil
    · have hempty : piece = [] := List.length_eq_zero_iff.mp (by omega)
      rw [hempty, List.append_nil]
      exact .nil
  | cons item rest ih =>
    rw [List.forall_mem_cons] at hrest
    unfold cutFrom
    split_ifs with hfull
    · have hsingle : total weight [item] ≤ limit := by
        exact hrest.1
      have hlater := @ih (front ++ piece) [item] hrest.2 hsingle
      rw [List.append_assoc _ [item], List.singleton_append, List.length_append,
        List.length_singleton, total_cons, total_nil, Nat.add_zero] at hlater
      -- A piece that an item does not fit into is not empty, since the item fits by itself.
      have hnonempty : piece ≠ [] := by
        rintro rfl
        rw [total_nil, Nat.zero_add] at hfull
        exact absurd hrest.1 (Nat.not_le.mpr hfull)
      refine .cons (Nat.lt_add_of_pos_right (List.length_pos_iff.mpr hnonempty)) ?_ ?_ hlater
      · simp only [List.length_append]
        omega
      · rw [between_append]
        exact hpiece
    · have hgrown : total weight (piece ++ [item]) ≤ limit := by
        rw [total_append, total_cons, total_nil, Nat.add_zero]
        exact Nat.not_lt.mp hfull
      have hlater := @ih front (piece ++ [item]) hrest.2 hgrown
      rw [total_append, total_cons, total_nil, Nat.add_zero, List.length_append,
        List.length_singleton, ← Nat.add_assoc, ← List.append_assoc front, List.append_assoc _ [item],
        List.singleton_append] at hlater
      exact hlater

theorem cut_cuts (h : ∀ item ∈ items, weight item ≤ limit) :
    Cuts weight limit items 0 (cut weight limit items) :=
  @cutFrom_cuts α weight limit [] [] items h (Nat.zero_le _)

end Cuts

def isFull (most : Option Nat) (group : List α) : Bool :=
  most.any fun count => count ≤ group.length

def packFrom (weight : α → Nat) (limit : Nat) (most : Option Nat) :
    List α → Nat → List α → List (List α)
  | current, _, [] => if current.isEmpty then [] else [current]
  | current, size, item :: items =>
    if !current.isEmpty && (decide (limit < size + weight item) || isFull most current) then
      current :: packFrom weight limit most [item] (weight item) items
    else packFrom weight limit most (current ++ [item]) (size + weight item) items

def pack (weight : α → Nat) (limit : Nat) (most : Option Nat) (items : List α) : List (List α) :=
  packFrom weight limit most [] 0 items

section Groups

variable {weight : α → Nat} {limit : Nat} {most : Option Nat} {items : List α}

theorem packFrom_flatten {current : List α} {size : Nat} :
    (packFrom weight limit most current size items).flatten = current ++ items := by
  induction items generalizing current size with
  | nil =>
    unfold packFrom
    split_ifs with hempty
    · rw [List.isEmpty_iff.mp hempty]
      rfl
    · rw [List.flatten_singleton, List.append_nil]
  | cons item items ih =>
    unfold packFrom
    split_ifs
    · rw [List.flatten_cons, ih, List.singleton_append]
    · rw [ih, List.append_assoc, List.singleton_append]

theorem pack_flatten : (pack weight limit most items).flatten = items :=
  packFrom_flatten

/-- Groups that begin light stay light. -/
theorem packFrom_light {current : List α} (hitems : ∀ item ∈ items, weight item ≤ limit)
    (hcurrent : total weight current ≤ limit) :
    ∀ group ∈ packFrom weight limit most current (total weight current) items,
      group ≠ [] ∧ total weight group ≤ limit := by
  induction items generalizing current with
  | nil =>
    unfold packFrom
    intro group hgroup
    split_ifs at hgroup with hempty
    · exact absurd hgroup List.not_mem_nil
    · cases List.mem_singleton.mp hgroup
      exact ⟨fun hnil => hempty (List.isEmpty_iff.mpr hnil), hcurrent⟩
  | cons item items ih =>
    rw [List.forall_mem_cons] at hitems
    unfold packFrom
    intro group hgroup
    split_ifs at hgroup with hcut
    · rw [Bool.and_eq_true, Bool.not_eq_true', List.isEmpty_eq_false_iff] at hcut
      rcases List.mem_cons.mp hgroup with rfl | hlater
      · exact ⟨hcut.1, hcurrent⟩
      · have hsingle : total weight [item] = weight item := by simp
        exact ih hitems.2 (hsingle ▸ hitems.1) group hlater
    · have hgrown : total weight (current ++ [item]) = total weight current + weight item := by simp
      have hle : total weight current + weight item ≤ limit := by
        cases hempty : current.isEmpty with
        | true =>
          rw [List.isEmpty_iff.mp hempty, total_nil, Nat.zero_add]
          exact hitems.1
        | false =>
          rw [hempty] at hcut
          simp only [Bool.not_false, Bool.true_and, Bool.or_eq_true, decide_eq_true_eq,
            not_or, Nat.not_lt] at hcut
          exact hcut.1
      rw [← hgrown] at hgroup hle
      exact ih hitems.2 hle group hgroup

theorem pack_light (h : ∀ item ∈ items, weight item ≤ limit) :
    ∀ group ∈ pack weight limit most items, group ≠ [] ∧ total weight group ≤ limit :=
  packFrom_light h (Nat.zero_le _)

end Groups

theorem filter_flatMap_owner {β κ : Type} [DecidableEq κ] {name : α → κ} {owner : β → κ}
    {contribution : α → List β} {items : List α}
    (howner : ∀ item ∈ items, ∀ value ∈ contribution item, owner value = name item)
    (hnames : (items.map name).Nodup) {item : α} (hitem : item ∈ items) :
    (items.flatMap contribution).filter (fun value => owner value = name item) =
      contribution item := by
  induction items with
  | nil => exact absurd hitem List.not_mem_nil
  | cons head items ih =>
    rw [List.forall_mem_cons] at howner
    rw [List.map_cons, List.nodup_cons] at hnames
    rw [List.flatMap_cons, List.filter_append]
    rcases List.mem_cons.mp hitem with rfl | hrest
    · have hothers : ∀ value ∈ items.flatMap contribution, owner value ≠ name item := by
        intro value hvalue heq
        obtain ⟨other, hother, hin⟩ := List.mem_flatMap.mp hvalue
        rw [howner.2 other hother value hin] at heq
        exact hnames.1 (heq ▸ List.mem_map_of_mem hother)
      rw [List.filter_eq_self.mpr (fun value hvalue => decide_eq_true (howner.1 value hvalue)),
        List.filter_eq_nil_iff.mpr, List.append_nil]
      intro value hvalue
      rw [decide_eq_true_eq]
      exact hothers value hvalue
    · have hhead : ∀ value ∈ contribution head, ¬decide (owner value = name item) = true := by
        intro value hvalue
        rw [decide_eq_true_eq, howner.1 value hvalue]
        exact fun heq => hnames.1 (heq ▸ List.mem_map_of_mem hrest)
      rw [List.filter_eq_nil_iff.mpr hhead, List.nil_append]
      exact ih howner.2 hnames.2 hrest

end ProofOps.Foundation.Packing
