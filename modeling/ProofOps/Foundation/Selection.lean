import Mathlib.Data.List.Induction
import Mathlib.Data.List.Pairwise
import Mathlib.Data.List.Perm.Basic
import Mathlib.Data.List.TakeWhile
import ProofOps.Foundation.Sorting

/-!
# Greedy selection

Items are taken by rank; an item that clashes with one taken before joins its group, any other one
leads a group of its own.  A group stands where its earliest member does, and only its leader is
kept (`select`).

The kept items do not clash, and each item is kept or clashes with a kept one.  Which items are kept
depends on the order of the items only through leaders of one rank (`select_order_free_iff`).
-/

namespace ProofOps.Foundation.Selection

open Sorting

universe u v

variable {α : Type u} {κ : Type v} [LinearOrder κ]

def place (clash : α → α → Bool) : List (α × Nat) → α × Nat → List (α × Nat)
  | [], item => [item]
  | group :: groups, item =>
    if clash group.1 item.1 then (group.1, min group.2 item.2) :: groups
    else group :: place clash groups item

variable (clash : α → α → Bool)

def gather (items : List (α × Nat)) : List (α × Nat) :=
  items.foldl (place clash) []

def byRank (rank : α → κ) (items : List α) : List (α × Nat) :=
  sortedBy (fun item => rank item.1) items.zipIdx

def select (rank : α → κ) (items : List α) : List α :=
  (sortedBy Prod.snd (gather clash (byRank rank items))).map Prod.fst

/-! ### Leaders -/

def keep (clash : α → α → Bool) (leaders : List α) (item : α) : List α :=
  if leaders.any (clash · item) then leaders else leaders ++ [item]

def leaders (items : List α) : List α :=
  items.foldl (keep clash) []

section Leaders

variable {clash : α → α → Bool} {items : List α} {item : α}

theorem leaders_append (front back : List α) :
    leaders clash (front ++ back) = back.foldl (keep clash) (leaders clash front) := by
  unfold leaders
  rw [List.foldl_append]

@[simp]
theorem leaders_concat (items : List α) (item : α) :
    leaders clash (items ++ [item]) = keep clash (leaders clash items) item :=
  leaders_append items [item]

theorem keep_of_clash {leader : α} {kept : List α} (hmem : leader ∈ kept)
    (h : clash leader item = true) : keep clash kept item = kept := by
  unfold keep
  rw [if_pos (List.any_eq_true.mpr ⟨leader, hmem, h⟩)]

theorem keep_of_forall {kept : List α} (h : ∀ leader ∈ kept, clash leader item = false) :
    keep clash kept item = kept ++ [item] := by
  unfold keep
  rw [if_neg]
  intro hany
  obtain ⟨leader, hmem, hclash⟩ := List.any_eq_true.mp hany
  rw [h leader hmem] at hclash
  cases hclash

/-- The two cases of an item. -/
theorem keep_cases (kept : List α) (item : α) :
    (∃ leader ∈ kept, clash leader item = true ∧ keep clash kept item = kept) ∨
      (∀ leader ∈ kept, clash leader item = false) ∧ keep clash kept item = kept ++ [item] := by
  by_cases h : ∃ leader ∈ kept, clash leader item = true
  · obtain ⟨leader, hmem, hclash⟩ := h
    exact .inl ⟨leader, hmem, hclash, keep_of_clash hmem hclash⟩
  · have hnone : ∀ leader ∈ kept, clash leader item = false := by
      intro leader hmem
      exact Bool.eq_false_iff.mpr fun hclash => h ⟨leader, hmem, hclash⟩
    exact .inr ⟨hnone, keep_of_forall hnone⟩

theorem leaders_sublist (items : List α) : (leaders clash items).Sublist items := by
  induction items using List.reverseRecOn with
  | nil => exact List.Sublist.refl _
  | append_singleton items item ih =>
    rw [leaders_concat]
    rcases keep_cases (leaders clash items) item with ⟨_, -, -, hkeep⟩ | ⟨-, hkeep⟩
    · rw [hkeep]
      exact ih.trans (List.sublist_append_left _ _)
    · rw [hkeep]
      exact ih.append_right _

/-- No two leaders clash. -/
theorem leaders_pairwise (items : List α) :
    (leaders clash items).Pairwise fun first second => clash first second = false := by
  induction items using List.reverseRecOn with
  | nil => exact List.Pairwise.nil
  | append_singleton items item ih =>
    rw [leaders_concat]
    rcases keep_cases (leaders clash items) item with ⟨_, -, -, hkeep⟩ | ⟨hnone, hkeep⟩
    · rw [hkeep]
      exact ih
    · rw [hkeep, List.pairwise_append]
      refine ⟨ih, List.pairwise_singleton _ _, ?_⟩
      intro leader hleader other hother
      rw [List.mem_singleton.mp hother]
      exact hnone leader hleader

/-- A leader stays one. -/
theorem leaders_mono {front : List α} (back : List α) (h : item ∈ leaders clash front) :
    item ∈ leaders clash (front ++ back) := by
  induction back using List.reverseRecOn with
  | nil =>
    rw [List.append_nil]
    exact h
  | append_singleton back other ih =>
    rw [← List.append_assoc, leaders_concat]
    rcases keep_cases (leaders clash (front ++ back)) other with ⟨_, -, -, hkeep⟩ | ⟨-, hkeep⟩
    · rw [hkeep]
      exact ih
    · rw [hkeep]
      exact List.mem_append_left _ ih

theorem exists_leader (h : item ∈ items) :
    ∃ leader ∈ leaders clash items, leader = item ∨ clash leader item = true := by
  obtain ⟨front, back, rfl⟩ := List.append_of_mem h
  have hfound : ∃ leader ∈ leaders clash (front ++ [item]),
      leader = item ∨ clash leader item = true := by
    rw [leaders_concat]
    rcases keep_cases (leaders clash front) item with ⟨leader, hmem, hclash, hkeep⟩ | ⟨-, hkeep⟩
    · rw [hkeep]
      exact ⟨leader, hmem, .inr hclash⟩
    · rw [hkeep]
      exact ⟨item, List.mem_append_right _ (List.mem_singleton_self item), .inl rfl⟩
  obtain ⟨leader, hmem, hleads⟩ := hfound
  have hlater := leaders_mono back hmem
  rw [List.append_assoc, List.singleton_append] at hlater
  exact ⟨leader, hlater, hleads⟩

end Leaders

/-! ### Groups -/

section Groups

variable {clash : α → α → Bool} {groups items : List (α × Nat)} {item : α × Nat}

theorem map_fst_place (groups : List (α × Nat)) (item : α × Nat) :
    (place clash groups item).map Prod.fst = keep clash (groups.map Prod.fst) item.1 := by
  induction groups with
  | nil => rfl
  | cons group groups ih =>
    rw [place, keep, List.map_cons, List.any_cons]
    cases hclash : clash group.1 item.1 with
    | true => simp
    | false =>
      simp only [Bool.false_or, Bool.false_eq_true, if_false, List.map_cons]
      rw [ih, keep]
      split_ifs
      · rfl
      · rfl

theorem map_fst_gather (items : List (α × Nat)) :
    (gather clash items).map Prod.fst = leaders clash (items.map Prod.fst) := by
  unfold gather
  induction items using List.reverseRecOn with
  | nil => rfl
  | append_singleton items item ih =>
    rw [List.foldl_append, List.foldl_cons, List.foldl_nil, map_fst_place, ih, List.map_append,
      List.map_singleton, leaders_concat]

theorem gather_concat (items : List (α × Nat)) (item : α × Nat) :
    gather clash (items ++ [item]) = place clash (gather clash items) item := by
  unfold gather
  rw [List.foldl_append, List.foldl_cons, List.foldl_nil]

theorem place_of_forall (h : ∀ group ∈ groups, clash group.1 item.1 = false) :
    place clash groups item = groups ++ [item] := by
  induction groups with
  | nil => rfl
  | cons group groups ih =>
    rw [List.forall_mem_cons] at h
    rw [place, h.1, if_neg Bool.false_ne_true, ih h.2, List.cons_append]

theorem mem_place {group : α × Nat} (h : group ∈ place clash groups item) :
    group ∈ groups ∨ group = item ∨
      ∃ before ∈ groups, clash before.1 item.1 = true ∧
        group = (before.1, min before.2 item.2) := by
  induction groups with
  | nil => exact .inr (.inl (List.mem_singleton.mp h))
  | cons head groups ih =>
    rw [place] at h
    split_ifs at h with hclash
    · rcases List.mem_cons.mp h with rfl | hin
      · exact .inr (.inr ⟨head, List.mem_cons_self, hclash, rfl⟩)
      · exact .inl (List.mem_cons_of_mem _ hin)
    · rcases List.mem_cons.mp h with rfl | hin
      · exact .inl List.mem_cons_self
      · rcases ih hin with hbefore | hitem | ⟨before, hbefore, hrest⟩
        · exact .inl (List.mem_cons_of_mem _ hbefore)
        · exact .inr (.inl hitem)
        · exact .inr (.inr ⟨before, List.mem_cons_of_mem _ hbefore, hrest⟩)

theorem gather_member {group : α × Nat} (h : group ∈ gather clash items) :
    ∃ member, (member, group.2) ∈ items ∧ (group.1 = member ∨ clash group.1 member = true) := by
  induction items using List.reverseRecOn generalizing group with
  | nil => exact absurd h List.not_mem_nil
  | append_singleton items item ih =>
    have hearlier : ∀ before ∈ gather clash items, ∃ member, (member, before.2) ∈ items ++ [item] ∧
        (before.1 = member ∨ clash before.1 member = true) := by
      intro before hbefore
      obtain ⟨member, hmember, hleads⟩ := ih hbefore
      exact ⟨member, List.mem_append_left _ hmember, hleads⟩
    have hlast : item ∈ items ++ [item] :=
      List.mem_append_right _ (List.mem_singleton_self item)
    rw [gather_concat] at h
    rcases mem_place h with hbefore | rfl | ⟨before, hbefore, hclash, rfl⟩
    · exact hearlier group hbefore
    · exact ⟨group.1, hlast, .inl rfl⟩
    · dsimp only
      rcases Nat.le_total before.2 item.2 with hle | hle
      · rw [Nat.min_eq_left hle]
        exact hearlier before hbefore
      · rw [Nat.min_eq_right hle]
        exact ⟨item.1, hlast, .inr hclash⟩

theorem exists_place_le (groups : List (α × Nat)) (item : α × Nat) :
    (∀ before ∈ groups, ∃ group ∈ place clash groups item, group.2 ≤ before.2) ∧
      ∃ group ∈ place clash groups item, group.2 ≤ item.2 := by
  induction groups with
  | nil =>
    constructor
    · exact fun before hbefore => absurd hbefore List.not_mem_nil
    · exact ⟨item, List.mem_singleton_self item, Nat.le_refl _⟩
  | cons head groups ih =>
    rw [place]
    split_ifs
    · constructor
      · intro before hbefore
        rcases List.mem_cons.mp hbefore with rfl | hin
        · exact ⟨_, List.mem_cons_self, Nat.min_le_left _ _⟩
        · exact ⟨before, List.mem_cons_of_mem _ hin, Nat.le_refl _⟩
      · exact ⟨_, List.mem_cons_self, Nat.min_le_right _ _⟩
    · constructor
      · intro before hbefore
        rcases List.mem_cons.mp hbefore with rfl | hin
        · exact ⟨before, List.mem_cons_self, Nat.le_refl _⟩
        · obtain ⟨group, hgroup, hle⟩ := ih.1 before hin
          exact ⟨group, List.mem_cons_of_mem _ hgroup, hle⟩
      · obtain ⟨group, hgroup, hle⟩ := ih.2
        exact ⟨group, List.mem_cons_of_mem _ hgroup, hle⟩

theorem exists_gather_le (h : item ∈ items) : ∃ group ∈ gather clash items, group.2 ≤ item.2 := by
  induction items using List.reverseRecOn with
  | nil => exact absurd h List.not_mem_nil
  | append_singleton items last ih =>
    obtain ⟨hbefore, hlast⟩ := @exists_place_le _ clash (gather clash items) last
    rw [gather_concat]
    rcases List.mem_append.mp h with hin | hin
    · obtain ⟨group, hgroup, hle⟩ := ih hin
      obtain ⟨later, hlater, hle'⟩ := hbefore group hgroup
      exact ⟨later, hlater, hle'.trans hle⟩
    · rw [List.mem_singleton.mp hin]
      exact hlast

theorem gather_of_pairwise (h : items.Pairwise fun first second => clash first.1 second.1 = false) :
    gather clash items = items := by
  induction items using List.reverseRecOn with
  | nil => rfl
  | append_singleton items item ih =>
    rw [List.pairwise_append] at h
    rw [gather_concat, ih h.1]
    exact place_of_forall fun group hmem => h.2.2 group hmem item (List.mem_singleton_self item)

end Groups

/-! ### The selection -/

section Select

variable {clash : α → α → Bool} {rank : α → κ} {items : List α}

theorem byRank_perm (rank : α → κ) (items : List α) : (byRank rank items).Perm items.zipIdx :=
  sortedBy_perm _ items.zipIdx

/-- The items by rank. -/
def ranked (rank : α → κ) (items : List α) : List α :=
  (byRank rank items).map Prod.fst

theorem ranked_perm (rank : α → κ) (items : List α) : (ranked rank items).Perm items := by
  have hperm := (byRank_perm rank items).map Prod.fst
  rw [List.zipIdx_map_fst] at hperm
  exact hperm

theorem ranked_pairwise (rank : α → κ) (items : List α) :
    (ranked rank items).Pairwise fun first second => rank first ≤ rank second := by
  unfold ranked
  rw [List.pairwise_map]
  exact sortedBy_pairwise (fun item : α × Nat => rank item.1) items.zipIdx

theorem select_perm (clash : α → α → Bool) (rank : α → κ) (items : List α) :
    (select clash rank items).Perm (leaders clash (ranked rank items)) := by
  unfold select ranked
  rw [← map_fst_gather]
  exact (sortedBy_perm Prod.snd _).map Prod.fst

theorem mem_select {item : α} :
    item ∈ select clash rank items ↔ item ∈ leaders clash (ranked rank items) :=
  (select_perm clash rank items).mem_iff

theorem select_subset {item : α} (h : item ∈ select clash rank items) : item ∈ items :=
  (ranked_perm rank items).mem_iff.mp ((leaders_sublist _).subset (mem_select.mp h))

theorem exists_selected {item : α} (h : item ∈ items) :
    ∃ kept ∈ select clash rank items, kept = item ∨ clash kept item = true := by
  obtain ⟨leader, hmem, hleads⟩ := exists_leader ((ranked_perm rank items).mem_iff.mpr h)
  exact ⟨leader, mem_select.mpr hmem, hleads⟩

theorem select_cons (item : α) (items : List α) :
    ∃ kept rest, select clash rank (item :: items) = kept :: rest ∧
      (kept = item ∨ clash kept item = true) := by
  have hfirst : (item, 0) ∈ byRank rank (item :: items) := by
    rw [(byRank_perm rank (item :: items)).mem_iff, List.zipIdx_cons]
    exact List.mem_cons_self
  obtain ⟨group, hgroup, hle⟩ := @exists_gather_le _ clash _ _ hfirst
  have hperm := sortedBy_perm Prod.snd (gather clash (byRank rank (item :: items)))
  have hpairwise := sortedBy_pairwise Prod.snd (gather clash (byRank rank (item :: items)))
  rw [← hperm.mem_iff] at hgroup
  cases hsorted : sortedBy Prod.snd (gather clash (byRank rank (item :: items))) with
  | nil =>
    rw [hsorted] at hgroup
    exact absurd hgroup List.not_mem_nil
  | cons head rest =>
    refine ⟨head.1, rest.map Prod.fst, ?_, ?_⟩
    · unfold select
      rw [hsorted, List.map_cons]
    · have hzero : head.2 = 0 := by
        rw [hsorted, List.pairwise_cons] at hpairwise
        rw [hsorted] at hgroup
        rcases List.mem_cons.mp hgroup with rfl | hin
        · exact Nat.le_zero.mp hle
        · exact Nat.le_zero.mp ((hpairwise.1 group hin).trans hle)
      have hhead : head ∈ gather clash (byRank rank (item :: items)) := by
        rw [← hperm.mem_iff, hsorted]
        exact List.mem_cons_self
      obtain ⟨member, hmember, hleads⟩ := gather_member hhead
      rw [(byRank_perm rank (item :: items)).mem_iff, hzero] at hmember
      have hitem := List.mem_zipIdx_iff_getElem?.mp hmember
      rw [List.getElem?_cons_zero, Option.some.injEq] at hitem
      rw [hitem]
      exact hleads

theorem length_select (clash : α → α → Bool) (rank : α → κ) (items : List α) :
    (select clash rank items).length = (leaders clash (ranked rank items)).length :=
  (select_perm clash rank items).length_eq

theorem length_select_le (clash : α → α → Bool) (rank : α → κ) (items : List α) :
    (select clash rank items).length ≤ items.length := by
  rw [length_select, ← (ranked_perm rank items).length_eq]
  exact (leaders_sublist _).length_le

section Symmetric

variable (hsymm : ∀ first second, clash first second = clash second first)

include hsymm

theorem pairwise_ranked_iff :
    ((ranked rank items).Pairwise fun first second => clash first second = false) ↔
      items.Pairwise fun first second => clash first second = false :=
  (ranked_perm rank items).pairwise_iff fun hclash => (hsymm _ _).trans hclash

theorem select_of_pairwise (h : items.Pairwise fun first second => clash first second = false) :
    select clash rank items = items := by
  have hgather : gather clash (byRank rank items) = byRank rank items := by
    apply gather_of_pairwise
    have hranked := (@pairwise_ranked_iff _ _ _ clash rank items hsymm).mpr h
    exact List.pairwise_map.mp hranked
  have hsorted : sortedBy Prod.snd (byRank rank items) = items.zipIdx := by
    have hkeys : ((byRank rank items).map Prod.snd).Nodup := by
      refine ((byRank_perm rank items).map Prod.snd).nodup_iff.mpr ?_
      rw [List.zipIdx_map_snd]
      exact List.nodup_range'
    rw [sortedBy_eq_of_perm (byRank_perm rank items) hkeys]
    refine List.Pairwise.insertionSort_eq ?_
    have hplaces : (items.zipIdx.map Prod.snd).Pairwise fun first second => first ≤ second := by
      rw [List.zipIdx_map_snd]
      exact List.pairwise_le_range'
    exact List.pairwise_map.mp hplaces
  unfold select
  rw [hgather, hsorted, List.zipIdx_map_fst]

theorem length_select_eq_iff :
    (select clash rank items).length = items.length ↔
      items.Pairwise fun first second => clash first second = false := by
  constructor
  · intro h
    rw [length_select, ← (ranked_perm rank items).length_eq] at h
    have hwhole := (leaders_sublist (ranked rank items)).eq_of_length h
    have hpairwise := @leaders_pairwise _ clash (ranked rank items)
    rw [hwhole] at hpairwise
    exact (pairwise_ranked_iff hsymm).mp hpairwise
  · intro h
    rw [select_of_pairwise hsymm h]

theorem select_pairwise :
    (select clash rank items).Pairwise fun first second => clash first second = false :=
  ((select_perm clash rank items).pairwise_iff fun hclash => (hsymm _ _).trans hclash).mpr
    (leaders_pairwise _)

theorem select_select : select clash rank (select clash rank items) = select clash rank items :=
  select_of_pairwise hsymm (select_pairwise hsymm)

end Symmetric

end Select

/-! ### The order of the items -/

theorem length_before_lt {rank : α → κ} {items : List α} {item other : α} (hmem : other ∈ items)
    (hlt : rank other < rank item) :
    (items.filter fun before => rank before < rank other).length <
      (items.filter fun before => rank before < rank item).length := by
  have hsubset : (items.filter fun before => rank before < rank other) =
      (items.filter fun before => rank before < rank item).filter fun before =>
        rank before < rank other := by
    rw [List.filter_filter]
    refine List.filter_congr fun before _ => ?_
    rw [← Bool.decide_and, decide_eq_decide]
    exact ⟨fun h => ⟨h, h.trans hlt⟩, fun h => h.1⟩
  rw [hsubset]
  refine List.length_filter_lt_length_iff_exists.mpr ⟨other, ?_, ?_⟩
  · exact List.mem_filter.mpr ⟨hmem, decide_eq_true hlt⟩
  · simp

def Leads (clash : α → α → Bool) (rank : α → κ) (items : List α) (item : α) : Prop :=
  ∀ other, other ∈ items → rank other < rank item → clash other item = true →
    ¬Leads clash rank items other
termination_by (items.filter fun before => rank before < rank item).length
decreasing_by exact length_before_lt ‹_› ‹_›

section Order

variable {clash : α → α → Bool} {rank : α → κ} {items : List α}

/-- What it is to lead. -/
theorem leads_iff {item : α} :
    Leads clash rank items item ↔
      ∀ other ∈ items, rank other < rank item → clash other item = true →
        ¬Leads clash rank items other := by
  rw [Leads]

def Similar (clash : α → α → Bool) (rank : α → κ) (items : List α) : Prop :=
  ∀ first ∈ items, ∀ second ∈ items, rank first = rank second →
    ∀ item ∈ items, clash first item = clash second item

theorem Leads.of_rank_eq (hsymm : ∀ first second, clash first second = clash second first)
    (hsimilar : Similar clash rank items) {first second : α} (hfirst : first ∈ items)
    (hsecond : second ∈ items) (hrank : rank first = rank second)
    (h : Leads clash rank items first) : Leads clash rank items second := by
  rw [leads_iff]
  intro other hmem hlt hclash
  rw [← hrank] at hlt
  refine leads_iff.mp h other hmem hlt ?_
  rw [hsymm, hsimilar first hfirst second hsecond hrank other hmem, hsymm]
  exact hclash

theorem leaders_leads (hsimilar : Similar clash rank items) {front back : List α}
    (hmem : ∀ item, item ∈ front ++ back ↔ item ∈ items)
    (hsorted : (front ++ back).Pairwise fun first second => rank first ≤ rank second) :
    (∀ leader ∈ leaders clash front, Leads clash rank items leader) ∧
      ∀ item ∈ front, Leads clash rank items item →
        ∃ leader ∈ leaders clash front, rank leader = rank item ∧
          (leader = item ∨ clash leader item = true) := by
  induction front using List.reverseRecOn generalizing back with
  | nil =>
    constructor
    · exact fun leader hleader => absurd hleader List.not_mem_nil
    · exact fun item hitem => absurd hitem List.not_mem_nil
  | append_singleton front last ih =>
    rw [List.append_assoc, List.singleton_append] at hmem hsorted
    obtain ⟨hleads, hfound⟩ := ih hmem hsorted
    have hbefore : ∀ item ∈ front, rank item ≤ rank last := by
      intro item hitem
      exact (List.pairwise_append.mp hsorted).2.2 item hitem last List.mem_cons_self
    have hin : ∀ leader ∈ leaders clash front, leader ∈ items := by
      intro leader hleader
      exact (hmem leader).mp (List.mem_append_left _ ((leaders_sublist front).subset hleader))
    have hlast : last ∈ items := (hmem last).mp (List.mem_append_right _ List.mem_cons_self)
    rw [leaders_concat]
    rcases keep_cases (leaders clash front) last with
      ⟨leader, hleader, hclash, hkeep⟩ | ⟨hnone, hkeep⟩
    · rw [hkeep]
      refine ⟨hleads, ?_⟩
      intro item hitem hitemLeads
      rcases List.mem_append.mp hitem with hitem | hitem
      · exact hfound item hitem hitemLeads
      · cases List.mem_singleton.mp hitem
        have hle := hbefore leader ((leaders_sublist front).subset hleader)
        -- A leader strictly before the item would keep it from leading.
        have hnot : ¬rank leader < rank last := by
          intro hlt
          exact leads_iff.mp hitemLeads leader (hin leader hleader) hlt hclash
            (hleads leader hleader)
        exact ⟨leader, hleader, le_antisymm hle (not_lt.mp hnot), .inr hclash⟩
    · have hlastLeads : Leads clash rank items last := by
        rw [leads_iff]
        intro other hother hlt hclash hotherLeads
        have hfront : other ∈ front := by
          rcases List.mem_append.mp ((hmem other).mpr hother) with hfront | hback
          · exact hfront
          · have hsuffix := (List.pairwise_append.mp hsorted).2.1
            rw [List.pairwise_cons] at hsuffix
            rcases List.mem_cons.mp hback with rfl | hback
            · exact absurd hlt (lt_irrefl _)
            · exact absurd hlt (not_lt.mpr (hsuffix.1 other hback))
        obtain ⟨leader, hleader, hrank, -⟩ := hfound other hfront hotherLeads
        have hsame := hsimilar leader (hin leader hleader) other hother hrank last hlast
        rw [hnone leader hleader, hclash] at hsame
        cases hsame
      rw [hkeep]
      constructor
      · intro leader hleader
        rcases List.mem_append.mp hleader with hleader | hleader
        · exact hleads leader hleader
        · rw [List.mem_singleton.mp hleader]
          exact hlastLeads
      · intro item hitem hitemLeads
        rcases List.mem_append.mp hitem with hitem | hitem
        · obtain ⟨leader, hleader, hrest⟩ := hfound item hitem hitemLeads
          exact ⟨leader, List.mem_append_left _ hleader, hrest⟩
        · refine ⟨last, List.mem_append_right _ (List.mem_singleton_self last), ?_, .inl ?_⟩
          · rw [List.mem_singleton.mp hitem]
          · rw [List.mem_singleton.mp hitem]

theorem select_leads (hsimilar : Similar clash rank items) {others : List α}
    (hperm : others.Perm items) :
    (∀ kept ∈ select clash rank others, Leads clash rank items kept) ∧
      ∀ item ∈ items, Leads clash rank items item →
        ∃ kept ∈ select clash rank others, rank kept = rank item ∧
          (kept = item ∨ clash kept item = true) := by
  have hranked := (ranked_perm rank others).trans hperm
  have hscan := @leaders_leads _ _ _ clash rank items hsimilar (ranked rank others) []
    (fun item => by rw [List.append_nil, hranked.mem_iff])
    (by rw [List.append_nil]; exact ranked_pairwise rank others)
  constructor
  · intro kept hkept
    exact hscan.1 kept (mem_select.mp hkept)
  · intro item hitem hleads
    obtain ⟨leader, hleader, hrest⟩ := hscan.2 item (hranked.mem_iff.mpr hitem) hleads
    exact ⟨leader, mem_select.mpr hleader, hrest⟩

theorem ranked_cons (item : α) (items : List α) :
    ∃ front back, ranked rank (item :: items) = front ++ item :: back ∧
      ∀ other ∈ front, rank other < rank item := by
  unfold ranked byRank sortedBy
  rw [List.zipIdx_cons, List.insertionSort_cons, List.orderedInsert_eq_take_drop, List.map_append,
    List.map_cons]
  refine ⟨_, _, rfl, ?_⟩
  intro other hother
  obtain ⟨pair, hpair, rfl⟩ := List.mem_map.mp hother
  have hbefore := List.mem_takeWhile_imp hpair
  simpa using hbefore

theorem mem_select_cons (hsimilar : Similar clash rank items) {item : α} {others : List α}
    (hperm : (item :: others).Perm items) (hleads : Leads clash rank items item) :
    item ∈ select clash rank (item :: others) := by
  obtain ⟨front, back, hranked, hbefore⟩ := @ranked_cons _ _ _ rank item others
  have hmem : ∀ other, other ∈ front ++ item :: back ↔ other ∈ items := by
    intro other
    rw [← hranked]
    exact ((ranked_perm rank _).trans hperm).mem_iff
  have hsorted := ranked_pairwise rank (item :: others)
  rw [hranked] at hsorted
  obtain ⟨hfront, -⟩ := leaders_leads hsimilar hmem hsorted
  rw [mem_select, hranked, ← List.singleton_append, ← List.append_assoc]
  apply leaders_mono
  rw [leaders_concat, keep_of_forall]
  · exact List.mem_append_right _ (List.mem_singleton_self item)
  · intro leader hleader
    have hin := (leaders_sublist front).subset hleader
    have hnot := leads_iff.mp hleads leader ((hmem leader).mp (List.mem_append_left _ hin))
      (hbefore leader hin)
    exact Bool.eq_false_iff.mpr fun hclash => hnot hclash (hfront leader hleader)

theorem select_order_free_iff (hsymm : ∀ first second, clash first second = clash second first)
    (hsimilar : Similar clash rank items) :
    (∀ others, others.Perm items →
        ∀ item, item ∈ select clash rank others ↔ item ∈ select clash rank items) ↔
      ∀ first ∈ items, ∀ second ∈ items, Leads clash rank items first →
        rank first = rank second → clash first second = true → first = second := by
  classical
  constructor
  · intro h first hfirst second hsecond hleads hrank hclash
    by_contra hne
    have hother : Leads clash rank items second :=
      hleads.of_rank_eq hsymm hsimilar hfirst hsecond hrank
    have hfirstPerm := (List.perm_cons_erase hfirst).symm
    have hsecondPerm := (List.perm_cons_erase hsecond).symm
    have hkept : first ∈ select clash rank items :=
      (h _ hfirstPerm first).mp (mem_select_cons hsimilar hfirstPerm hleads)
    have hkept' : second ∈ select clash rank items :=
      (h _ hsecondPerm second).mp (mem_select_cons hsimilar hsecondPerm hother)
    have hpairwise := @select_pairwise _ _ _ clash rank items hsymm
    have : Std.Symm fun first second : α => clash first second = false :=
      ⟨fun _ _ hfree => (hsymm _ _).trans hfree⟩
    have hfree := hpairwise.forall hkept hkept' hne
    rw [hclash] at hfree
    cases hfree
  · intro h
    have hkept : ∀ others : List α, others.Perm items →
        ∀ item, item ∈ select clash rank others ↔
          item ∈ items ∧ Leads clash rank items item := by
      intro others hperm item
      obtain ⟨hleads, hfound⟩ := select_leads hsimilar hperm
      constructor
      · intro hitem
        exact ⟨hperm.mem_iff.mp (select_subset hitem), hleads item hitem⟩
      · rintro ⟨hitem, hitemLeads⟩
        obtain ⟨kept, hmem, hrank, heq | hclash⟩ := hfound item hitem hitemLeads
        · rw [← heq]
          exact hmem
        · have hsame := h kept (hperm.mem_iff.mp (select_subset hmem)) item hitem
            (hleads kept hmem) hrank hclash
          rw [← hsame]
          exact hmem
    intro others hperm item
    rw [hkept others hperm item, hkept items (List.Perm.refl _) item]

end Order

end ProofOps.Foundation.Selection
