import Mathlib.Data.List.GetD
import Mathlib.Data.List.Range
import ProofOps.Foundation.Checked

/-!
# Greedy grouping

Entries are placed one after another into the first group all of whose members pass a
pair test with them, or found a group of their own.  The test may raise.  With buckets,
only the groups of the entry's own key are searched; where entries of different keys fail
the test, that changes nothing (`placeAll_eq_scan`).  The groups partition the entries and
their members pass pairwise (`scan_perm`, `scan_sound`).  When an entry that takes part in
a raising test passes with no other, the greedy search reaches every raising pair
(`scan_ok_iff`).
-/

namespace ProofOps.Foundation.Grouping

open Checked

variable {α κ ε : Type}

def passesAll (test : α → α → Except ε Bool) (entry : α) : List α → Except ε Bool
  | [] => .ok true
  | item :: rest =>
    match test item entry with
    | .ok true => passesAll test entry rest
    | other => other

def search (test : α → α → Except ε Bool) (groups : List (List α)) (entry : α) :
    List Nat → Except ε (Option Nat)
  | [] => .ok none
  | index :: rest =>
    match passesAll test entry (groups.getD index []) with
    | .ok true => .ok (some index)
    | .ok false => search test groups entry rest
    | .error error => .error error

def placed (groups : List (List α)) (entry : α) : Option Nat → List (List α)
  | none => groups ++ [[entry]]
  | some index => groups.modify index fun group => group ++ [entry]

/-- One turn of the grouping. -/
def scanOne (test : α → α → Except ε Bool) (groups : List (List α)) (entry : α) :
    Except ε (List (List α)) := do
  let found ← search test groups entry (List.range groups.length)
  .ok (placed groups entry found)

def scan (test : α → α → Except ε Bool) : List (List α) → List α → Except ε (List (List α))
  | groups, [] => .ok groups
  | groups, entry :: entries => do
    let groups ← scanOne test groups entry
    scan test groups entries

structure Buckets (α κ : Type) where
  groups : List (List α)
  indices : κ → List Nat

/-- Nothing is grouped yet. -/
def Buckets.empty : Buckets α κ where
  groups := []
  indices := fun _ => []

def Buckets.place [DecidableEq κ] (test : α → α → Except ε Bool) (key : α → κ)
    (buckets : Buckets α κ) (entry : α) : Except ε (Buckets α κ) := do
  let found ← search test buckets.groups entry (buckets.indices (key entry))
  .ok
    { groups := placed buckets.groups entry found
      indices := fun other =>
        if found = none ∧ other = key entry then buckets.indices other ++ [buckets.groups.length]
        else buckets.indices other }

def Buckets.placeAll [DecidableEq κ] (test : α → α → Except ε Bool) (key : α → κ) :
    Buckets α κ → List α → Except ε (Buckets α κ)
  | buckets, [] => .ok buckets
  | buckets, entry :: entries => do
    let buckets ← buckets.place test key entry
    buckets.placeAll test key entries

/-! ### What a search finds -/

variable {test : α → α → Except ε Bool}

variable {entry : α}

theorem passesAll_head {item : α} {rest : List α} {outcome : Except ε Bool}
    (h : test item entry = outcome) (hfails : outcome ≠ .ok true) :
    passesAll test entry (item :: rest) = outcome := by
  unfold passesAll
  rw [h]
  split
  · exact absurd rfl hfails
  · rfl

theorem passesAll_tail {item : α} {rest : List α} (h : test item entry = .ok true) :
    passesAll test entry (item :: rest) = passesAll test entry rest := by
  rw [passesAll, h]

theorem passesAll_true_iff {group : List α} :
    passesAll test entry group = .ok true ↔ ∀ item ∈ group, test item entry = .ok true := by
  induction group with
  | nil => simp [passesAll]
  | cons item rest ih =>
    rw [List.forall_mem_cons, ← ih]
    by_cases hitem : test item entry = .ok true
    · rw [passesAll_tail hitem]
      simp [hitem]
    · rw [passesAll_head rfl hitem]
      simp [hitem]

variable {error : ε}

theorem passesAll_error {group : List α} (h : passesAll test entry group = .error error) :
    ∃ item ∈ group, test item entry = .error error := by
  induction group with
  | nil => cases h
  | cons item rest ih =>
    unfold passesAll at h
    split at h
    · obtain ⟨other, hmem, hother⟩ := ih h
      exact ⟨other, List.mem_cons_of_mem _ hmem, hother⟩
    · exact ⟨item, List.mem_cons_self, h⟩

variable {groups : List (List α)} {indices : List Nat}

theorem search_spec {found : Option Nat} (h : search test groups entry indices = .ok found) :
    match found with
    | none => ∀ index ∈ indices, passesAll test entry (groups.getD index []) = .ok false
    | some index => index ∈ indices ∧ passesAll test entry (groups.getD index []) = .ok true := by
  induction indices with
  | nil =>
    cases h
    exact fun index hindex => absurd hindex List.not_mem_nil
  | cons index rest ih =>
    unfold search at h
    split at h
    · rename_i hpass
      cases h
      exact ⟨List.mem_cons_self, hpass⟩
    · rename_i hfail
      have hrest := ih h
      cases found with
      | none => exact List.forall_mem_cons.mpr ⟨hfail, hrest⟩
      | some other => exact ⟨List.mem_cons_of_mem _ hrest.1, hrest.2⟩
    · cases h

theorem search_error (h : search test groups entry indices = .error error) :
    ∃ index ∈ indices, passesAll test entry (groups.getD index []) = .error error := by
  induction indices with
  | nil => cases h
  | cons index rest ih =>
    unfold search at h
    split at h
    · cases h
    · obtain ⟨other, hmem, hother⟩ := ih h
      exact ⟨other, List.mem_cons_of_mem _ hmem, hother⟩
    · rename_i hraise
      cases h
      exact ⟨index, List.mem_cons_self, hraise⟩

theorem search_filter {keep : Nat → Bool} (h : ∀ index ∈ indices, keep index = false →
      passesAll test entry (groups.getD index []) = .ok false) :
    search test groups entry (indices.filter keep) = search test groups entry indices := by
  induction indices with
  | nil => rfl
  | cons index rest ih =>
    rw [List.forall_mem_cons] at h
    cases hkeep : keep index with
    | true =>
      rw [List.filter_cons_of_pos hkeep]
      unfold search
      rw [ih h.2]
    | false =>
      rw [List.filter_cons_of_neg (by simp [hkeep]), ih h.2]
      conv_rhs => unfold search
      rw [h.1 hkeep]

variable {groups' : List (List α)}

theorem scanOne_cases (h : scanOne test groups entry = .ok groups') :
    (groups' = groups ++ [[entry]] ∧ ∀ group ∈ groups, passesAll test entry group = .ok false) ∨
      ∃ front group back, groups = front ++ group :: back ∧
        groups' = front ++ (group ++ [entry]) :: back ∧ passesAll test entry group = .ok true := by
  obtain ⟨found, hfound, h⟩ := bind_ok h
  cases h
  have hspec := search_spec hfound
  cases found with
  | none =>
    refine Or.inl ⟨rfl, fun group hgroup => ?_⟩
    obtain ⟨index, hindex, rfl⟩ := List.getElem_of_mem hgroup
    have := hspec index (List.mem_range.mpr hindex)
    rwa [List.getD_eq_getElem _ _ hindex] at this
  | some index =>
    obtain ⟨hmem, hpass⟩ := hspec
    have hindex := List.mem_range.mp hmem
    rw [List.getD_eq_getElem _ _ hindex] at hpass
    refine Or.inr ⟨groups.take index, groups[index], groups.drop (index + 1), ?_, ?_, hpass⟩
    · rw [List.getElem_cons_drop, List.take_append_drop]
    · exact List.modify_eq_take_cons_drop hindex

variable {result : List (List α)} {entries : List α}

/-- The grouping keeps the entries. -/
theorem scan_perm (h : scan test groups entries = .ok result) :
    result.flatten.Perm (groups.flatten ++ entries) := by
  induction entries generalizing groups with
  | nil =>
    cases h
    rw [List.append_nil]
  | cons entry entries ih =>
    obtain ⟨groups', hstep, h⟩ := bind_ok h
    have hone : groups'.flatten.Perm (groups.flatten ++ [entry]) := by
      rcases scanOne_cases hstep with ⟨rfl, -⟩ | ⟨front, group, back, rfl, rfl, -⟩
      · rw [List.flatten_append, List.flatten_singleton]
      · simp only [List.flatten_append, List.flatten_cons, List.append_assoc]
        refine List.Perm.append_left _ (List.Perm.append_left _ ?_)
        exact List.perm_append_comm
    refine (ih h).trans ((hone.append_right entries).trans ?_)
    rw [List.append_assoc, List.singleton_append]

def Sound (test : α → α → Except ε Bool) (groups : List (List α)) : Prop :=
  ∀ group ∈ groups, group ≠ [] ∧ group.Pairwise fun first second => test first second = .ok true

/-- One turn keeps the groups sound. -/
theorem Sound.scanOne (hgroups : Sound test groups) (h : scanOne test groups entry = .ok groups') :
    Sound test groups' := by
  rcases scanOne_cases h with ⟨rfl, -⟩ | ⟨front, group, back, rfl, rfl, hpass⟩
  · intro other hother
    rcases List.mem_append.mp hother with hold | hnew
    · exact hgroups other hold
    · rw [List.mem_singleton.mp hnew]
      exact ⟨List.cons_ne_nil _ _, List.pairwise_singleton _ _⟩
  · intro other hother
    rcases List.mem_append.mp hother with hfront | hrest
    · exact hgroups other (List.mem_append_left _ hfront)
    · rcases List.mem_cons.mp hrest with rfl | hback
      · obtain ⟨-, hpairwise⟩ := hgroups group (by simp)
        refine ⟨by simp, ?_⟩
        rw [List.pairwise_append]
        refine ⟨hpairwise, List.pairwise_singleton _ _, ?_⟩
        intro item hitem last hlast
        rw [List.mem_singleton.mp hlast]
        exact passesAll_true_iff.mp hpass item hitem
      · exact hgroups other (by simp [hback])

theorem scan_sound (hgroups : Sound test groups) (h : scan test groups entries = .ok result) :
    Sound test result := by
  induction entries generalizing groups with
  | nil =>
    cases h
    exact hgroups
  | cons entry entries ih =>
    obtain ⟨groups', hstep, h⟩ := bind_ok h
    exact ih (hgroups.scanOne hstep) h

theorem Sound.nil : Sound test [] :=
  fun _ h => absurd h List.not_mem_nil

def Raises (test : α → α → Except ε Bool) (first second : α) : Prop :=
  ∃ error, test first second = .error error

def Lonely (test : α → α → Except ε Bool) (entry : α) : Prop :=
  ∀ other, test other entry ≠ .ok true ∧ test entry other ≠ .ok true

/-- An error of a grouping is one of a test. -/
theorem exists_raises_of_scan (h : scan test groups entries = .error error) :
    (∃ first ∈ groups.flatten, ∃ second ∈ entries, test first second = .error error) ∨
      ∃ first second, [first, second].Sublist entries ∧ test first second = .error error := by
  induction entries generalizing groups with
  | nil => cases h
  | cons entry entries ih =>
    cases hstep : scanOne test groups entry with
    | error raised =>
      have hraised : raised = error := by
        rw [scan, hstep] at h
        exact Except.error.inj h
      subst hraised
      unfold scanOne at hstep
      cases hsearch : search test groups entry (List.range groups.length) with
      | ok found => simp [hsearch, bind, Except.bind] at hstep
      | error other =>
        rw [hsearch] at hstep
        cases hstep
        obtain ⟨index, hindex, hraise⟩ := search_error hsearch
        obtain ⟨item, hitem, htest⟩ := passesAll_error hraise
        rw [List.getD_eq_getElem _ _ (List.mem_range.mp hindex)] at hitem
        exact Or.inl ⟨item, List.mem_flatten.mpr ⟨_, List.getElem_mem _, hitem⟩, entry,
          List.mem_cons_self, htest⟩
    | ok groups' =>
      have hrest : scan test groups' entries = .error error := by
        simpa only [scan, hstep, bind, Except.bind] using h
      have hmem : ∀ item ∈ groups'.flatten, item ∈ groups.flatten ∨ item = entry := by
        have hone : scan test groups [entry] = .ok groups' := by
          simp only [scan, hstep, bind, Except.bind]
        intro item hitem
        have := (scan_perm hone).mem_iff.mp hitem
        rwa [List.mem_append, List.mem_singleton] at this
      rcases ih hrest with ⟨first, hfirst, second, hsecond, htest⟩ | ⟨first, second, hsub, htest⟩
      · rcases hmem first hfirst with hold | rfl
        · exact Or.inl ⟨first, hold, second, List.mem_cons_of_mem _ hsecond, htest⟩
        · refine Or.inr ⟨first, second, ?_, htest⟩
          exact List.Sublist.cons_cons first (List.singleton_sublist.mpr hsecond)
      · exact Or.inr ⟨first, second, hsub.cons entry, htest⟩

theorem no_raises_of_scan
    (hlonely : ∀ first second, Raises test first second → Lonely test first ∧ Lonely test second)
    (hgroups : Sound test groups) (h : scan test groups entries = .ok result) :
    (∀ first, [first] ∈ groups → ∀ second ∈ entries, ¬Raises test first second) ∧
      entries.Pairwise fun first second => ¬Raises test first second := by
  induction entries generalizing groups with
  | nil => exact ⟨fun _ _ _ hsecond => absurd hsecond List.not_mem_nil, List.Pairwise.nil⟩
  | cons entry entries ih =>
    obtain ⟨groups', hstep, h⟩ := bind_ok h
    obtain ⟨hold, hpairwise⟩ := ih (hgroups.scanOne hstep) h
    rcases scanOne_cases hstep with ⟨rfl, hfails⟩ | ⟨front, group, back, rfl, rfl, hpass⟩
    · -- The entry founds a group after failing with every other one.
      constructor
      · intro first hfirst second hsecond hraises
        rcases List.mem_cons.mp hsecond with rfl | hrest
        · obtain ⟨error, herror⟩ := hraises
          have hfail := hfails [first] hfirst
          rw [passesAll_head herror (by simp)] at hfail
          cases hfail
        · exact hold first (List.mem_append_left _ hfirst) second hrest hraises
      · exact List.pairwise_cons.mpr ⟨fun second hsecond =>
          hold entry (List.mem_append_right _ List.mem_cons_self) second hsecond, hpairwise⟩
    · -- It joins a group, so neither it nor a member of the group is lonely.
      rw [passesAll_true_iff] at hpass
      obtain ⟨hnonempty, -⟩ := hgroups group (by simp)
      obtain ⟨member, hmember⟩ := List.exists_mem_of_ne_nil group hnonempty
      constructor
      · intro first hfirst second hsecond hraises
        obtain ⟨hlonelyFirst, hlonelySecond⟩ := hlonely first second hraises
        rcases List.mem_cons.mp hsecond with rfl | hrest
        · exact (hlonelySecond member).1 (hpass member hmember)
        · refine hold first ?_ second hrest hraises
          rcases List.mem_append.mp hfirst with hfront | hback
          · exact List.mem_append_left _ hfront
          · rcases List.mem_cons.mp hback with hsame | hback
            · have hfirstMem : first ∈ group := by
                rw [← hsame]
                exact List.mem_singleton_self first
              exact absurd (hpass first hfirstMem) (hlonelyFirst entry).2
            · exact List.mem_append_right _ (List.mem_cons_of_mem _ hback)
      · refine List.pairwise_cons.mpr ⟨fun second _ hraises => ?_, hpairwise⟩
        obtain ⟨hlonelyEntry, -⟩ := hlonely entry second hraises
        exact (hlonelyEntry member).1 (hpass member hmember)

theorem scan_ok_iff
    (hlonely : ∀ first second, Raises test first second → Lonely test first ∧ Lonely test second) :
    (∃ result, scan test [] entries = .ok result) ↔
      entries.Pairwise fun first second => ¬Raises test first second := by
  constructor
  · rintro ⟨result, h⟩
    exact (no_raises_of_scan hlonely Sound.nil h).2
  · intro hpairwise
    cases h : scan test [] entries with
    | ok result => exact ⟨result, rfl⟩
    | error error =>
      rcases exists_raises_of_scan h with ⟨first, hfirst, -⟩ | ⟨first, second, hsub, htest⟩
      · simp at hfirst
      · have hpair := hpairwise.sublist hsub
        rw [List.pairwise_pair] at hpair
        exact absurd ⟨error, htest⟩ hpair

section Keyed

variable [DecidableEq κ] {key : α → κ}

def Buckets.Indexed (key : α → κ) (buckets : Buckets α κ) : Prop :=
  (∀ group ∈ buckets.groups, group ≠ []) ∧
    ∀ k, buckets.indices k = (List.range buckets.groups.length).filter fun index =>
      (buckets.groups.getD index []).head?.map key = some k

theorem Buckets.Indexed.empty : (Buckets.empty : Buckets α κ).Indexed key :=
  ⟨fun _ h => absurd h List.not_mem_nil, fun _ => rfl⟩

variable {buckets : Buckets α κ}

theorem Buckets.Indexed.search_eq (h : buckets.Indexed key)
    (hkey : ∀ first second, key first ≠ key second → test first second = .ok false) (entry : α) :
    search test buckets.groups entry (buckets.indices (key entry)) =
      search test buckets.groups entry (List.range buckets.groups.length) := by
  rw [h.2]
  refine search_filter fun index hmem hother => ?_
  have hindex := List.mem_range.mp hmem
  rw [List.getD_eq_getElem _ _ hindex] at hother ⊢
  have hnonempty := h.1 _ (List.getElem_mem hindex)
  generalize buckets.groups[index] = group at hother hnonempty
  cases group with
  | nil => exact absurd rfl hnonempty
  | cons item rest =>
    refine passesAll_head (hkey item entry fun hsame => ?_) (by simp)
    simp [hsame] at hother

theorem head?_placed {found : Option Nat} (hgroups : ∀ group ∈ groups, group ≠ []) {index : Nat}
    (hindex : index < groups.length) :
    ((placed groups entry found).getD index []).head? = (groups.getD index []).head? := by
  cases found with
  | none =>
    unfold placed
    rw [List.getD_append _ _ _ _ hindex]
  | some target =>
    unfold placed
    rw [List.getD_eq_getElem?_getD, List.getElem?_modify, List.getD_eq_getElem?_getD,
      List.getElem?_eq_getElem hindex]
    split_ifs
    · have hnonempty := hgroups _ (List.getElem_mem hindex)
      simp [List.head?_append, List.head?_eq_some_head hnonempty]
    · simp

/-- A turn keeps the buckets indexed. -/
theorem Buckets.Indexed.place {buckets' : Buckets α κ} (h : buckets.Indexed key)
    (hplace : buckets.place test key entry = .ok buckets') : buckets'.Indexed key := by
  obtain ⟨found, hfound, hplace⟩ := bind_ok hplace
  cases hplace
  constructor
  · intro group hgroup
    cases found with
    | none =>
      rcases List.mem_append.mp hgroup with hold | hnew
      · exact h.1 group hold
      · rw [List.mem_singleton.mp hnew]
        exact List.cons_ne_nil _ _
    | some target =>
      obtain ⟨index, hindex, rfl⟩ := List.getElem_of_mem hgroup
      simp only [placed, List.length_modify] at hindex
      simp only [placed, List.getElem_modify]
      split_ifs
      · simp
      · exact h.1 _ (List.getElem_mem hindex)
  · intro k
    have hfilter : ((List.range buckets.groups.length).filter fun index =>
        ((placed buckets.groups entry found).getD index []).head?.map key = some k) =
        buckets.indices k := by
      rw [h.2 k]
      refine List.filter_congr fun index hindex => ?_
      rw [head?_placed h.1 (List.mem_range.mp hindex)]
    cases found with
    | none =>
      have hlength : (placed buckets.groups entry none).length = buckets.groups.length + 1 := by
        simp [placed]
      have hlast : (placed buckets.groups entry none).getD buckets.groups.length [] = [entry] := by
        simp [placed]
      simp only [true_and]
      rw [hlength, List.range_succ, List.filter_append, hfilter]
      simp only [List.filter_cons, List.filter_nil, hlast, List.head?_cons, Option.map_some,
        Option.some.injEq, decide_eq_true_eq]
      by_cases hk : k = key entry
      · rw [if_pos hk, if_pos hk.symm]
      · rw [if_neg hk, if_neg (Ne.symm hk), List.append_nil]
    | some target =>
      have hlength : (placed buckets.groups entry (some target)).length = buckets.groups.length := by
        simp [placed]
      simp only [reduceCtorEq, false_and, if_false]
      rw [hlength, hfilter]

theorem placeAll_eq_scan
    (hkey : ∀ first second, key first ≠ key second → test first second = .ok false)
    (h : buckets.Indexed key) (entries : List α) :
    (buckets.placeAll test key entries).map Buckets.groups = scan test buckets.groups entries := by
  induction entries generalizing buckets with
  | nil => rfl
  | cons entry entries ih =>
    have hsearch := h.search_eq hkey entry
    cases hfound : search test buckets.groups entry (List.range buckets.groups.length) with
    | error error =>
      simp only [Buckets.placeAll, Buckets.place, scan, scanOne, hsearch, hfound, bind,
        Except.bind, Except.map]
    | ok found =>
      have hplace : ∃ buckets', buckets.place test key entry = .ok buckets' ∧
          buckets'.groups = placed buckets.groups entry found := by
        unfold Buckets.place
        rw [hsearch, hfound]
        exact ⟨_, rfl, rfl⟩
      obtain ⟨buckets', hplace, hgroups⟩ := hplace
      have hone : scanOne test buckets.groups entry = .ok buckets'.groups := by
        unfold scanOne
        rw [hfound, hgroups]
        rfl
      have hrest := ih (h.place hplace)
      simpa only [Buckets.placeAll, scan, hplace, hone, bind, Except.bind] using hrest

end Keyed

end ProofOps.Foundation.Grouping
