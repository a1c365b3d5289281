import ProofOps.Application.Ingest.GraphFusion

/-!
# The scan over the candidates

What the alignment test says of two candidates, when it divides by zero, and what the
bucketed scan leaves: groups that are aligned pairwise, the same from every order of the
batches.
-/

namespace ProofOps.Application.Ingest

open Foundation Foundation.Checked Foundation.Grouping Foundation.Sorting Domain Domain.Numeric

/-! ### The alignment test -/

/-- A located candidate whose area rounds to zero. -/
def Vanishes (block : CandidateBlock) : Prop :=
  ∃ box, block.bbox = some box ∧ area box = .finite 0

structure Coincide (version : Nat) (left right : CandidateBlock) : Prop where
  kind : left.kind = right.kind
  page : left.source.physicalPage = right.source.physicalPage
  context : fusedContext version left = fusedContext version right
  left_vanishes : Vanishes left
  right_vanishes : Vanishes right

variable {version : Nat} {left right : CandidateBlock}

theorem Coincide.symm (h : Coincide version left right) : Coincide version right left :=
  ⟨h.kind.symm, h.page.symm, h.context.symm, h.right_vanishes, h.left_vanishes⟩

structure Comparable (version : Nat) (left right : CandidateBlock) (a b : Bbox) : Prop where
  kind : left.kind = right.kind
  page : left.source.physicalPage = right.source.physicalPage
  context : fusedContext version left = fusedContext version right
  left_bbox : left.bbox = some a
  right_bbox : right.bbox = some b

theorem Comparable.symm {a b : Bbox} (h : Comparable version left right a b) :
    Comparable version right left b a :=
  ⟨h.kind.symm, h.page.symm, h.context.symm, h.right_bbox, h.left_bbox⟩

theorem matchesBlock_of_comparable {a b : Bbox} (h : Comparable version left right a b) :
    matchesBlock version left right =
      match overlaps a b with
      | some aligned => .ok aligned
      | none => .error .zeroDivision := by
  unfold matchesBlock
  rw [if_neg (by simp [h.kind, h.page]), h.left_bbox, h.right_bbox]
  cases hoverlaps : overlaps a b with
  | none | some aligned => simp only [h.context, ne_eq, not_true_eq_false, if_false, hoverlaps]

theorem matchesBlock_of_not_comparable (h : ∀ a b, ¬Comparable version left right a b) :
    matchesBlock version left right = .ok false := by
  unfold matchesBlock
  by_cases hplace : left.kind ≠ right.kind ∨ left.source.physicalPage ≠ right.source.physicalPage
  · rw [if_pos hplace]
  · rw [if_neg hplace]
    rw [not_or, not_not, not_not] at hplace
    cases ha : left.bbox with
    | none => rfl
    | some a =>
      cases hb : right.bbox with
      | none => rfl
      | some b =>
        simp only
        rw [if_pos]
        exact fun hcontext => h a b ⟨hplace.1, hplace.2, hcontext, ha, hb⟩

/-- The pair test is symmetric. -/
theorem matchesBlock_comm (version : Nat) (left right : CandidateBlock) :
    matchesBlock version left right = matchesBlock version right left := by
  by_cases h : ∃ a b, Comparable version left right a b
  · obtain ⟨a, b, hcomparable⟩ := h
    rw [matchesBlock_of_comparable hcomparable, matchesBlock_of_comparable hcomparable.symm,
      overlaps_comm]
  · simp only [not_exists] at h
    rw [matchesBlock_of_not_comparable h,
      matchesBlock_of_not_comparable fun a b hcomparable => h b a hcomparable.symm]

variable {error : FusionError}

theorem matchesBlock_error_iff :
    matchesBlock version left right = .error error ↔
      error = .zeroDivision ∧ Coincide version left right := by
  by_cases h : ∃ a b, Comparable version left right a b
  · obtain ⟨a, b, hcomparable⟩ := h
    have hcoincide : Coincide version left right ↔ overlaps a b = none := by
      rw [overlaps_eq_none_iff]
      constructor
      · rintro ⟨-, -, -, ⟨box, hbox, harea⟩, box', hbox', harea'⟩
        rw [hcomparable.left_bbox] at hbox
        rw [hcomparable.right_bbox] at hbox'
        cases hbox
        cases hbox'
        exact ⟨harea, harea'⟩
      · rintro ⟨harea, harea'⟩
        exact ⟨hcomparable.kind, hcomparable.page, hcomparable.context,
          ⟨a, hcomparable.left_bbox, harea⟩, b, hcomparable.right_bbox, harea'⟩
    rw [matchesBlock_of_comparable hcomparable, hcoincide]
    cases overlaps a b with
    | some aligned => simp
    | none => simp [eq_comm]
  · simp only [not_exists] at h
    rw [matchesBlock_of_not_comparable h]
    constructor
    · intro hfalse
      cases hfalse
    · rintro ⟨-, hkind, hpage, hcontext, ⟨a, ha, -⟩, b, hb, -⟩
      exact absurd ⟨hkind, hpage, hcontext, ha, hb⟩ (h a b)

theorem matchesBlock_true (h : matchesBlock version left right = .ok true) :
    ∃ a b, Comparable version left right a b ∧ overlaps a b = some true := by
  by_cases hcomparable : ∃ a b, Comparable version left right a b
  · obtain ⟨a, b, hcomparable⟩ := hcomparable
    rw [matchesBlock_of_comparable hcomparable] at h
    split at h
    · rename_i aligned haligned
      cases h
      exact ⟨a, b, hcomparable, haligned⟩
    · cases h
  · simp only [not_exists] at hcomparable
    rw [matchesBlock_of_not_comparable hcomparable] at h
    cases h

theorem matchesBlock_of_vanishes (h : Vanishes left ∨ Vanishes right) :
    matchesBlock version left right ≠ .ok true := by
  intro htrue
  obtain ⟨a, b, hcomparable, haligned⟩ := matchesBlock_true htrue
  rcases h with ⟨box, hbox, harea⟩ | ⟨box, hbox, harea⟩
  · rw [hcomparable.left_bbox] at hbox
    cases hbox
    exact overlaps_of_area_zero harea haligned
  · rw [hcomparable.right_bbox] at hbox
    cases hbox
    rw [overlaps_comm] at haligned
    exact overlaps_of_area_zero harea haligned

/-! ### The pair test of the scan -/

variable {candidates : List CandidateBatch}

theorem tableOf_spec {entry : Entry} {table : CandidateBlock}
    (h : tableOf candidates entry = some table) :
    entry.2.tableNativeId.isSome ∧ ∃ batch, (batch, table) ∈ entriesOf candidates := by
  obtain ⟨native, hnative, h⟩ := Option.bind_eq_some_iff.mp h
  obtain ⟨⟨batch, block⟩, hfind, rfl⟩ := Option.map_eq_some_iff.mp h
  have hmem := List.mem_of_find?_eq_some hfind
  rw [List.mem_reverse, List.mem_filter] at hmem
  exact ⟨by rw [hnative]; rfl, batch, hmem.1⟩

def Clash (version : Nat) (candidates : List CandidateBatch) (left right : Entry) : Prop :=
  Coincide version left.2 right.2 ∨
    (matchesBlock version left.2 right.2 = .ok true ∧ 4 ≤ version ∧ left.2.kind ≠ .table ∧
      ∃ a b, tableOf candidates left = some a ∧ tableOf candidates right = some b ∧
        Coincide version a b)

theorem joins_error_iff {left right : Entry} :
    joins version candidates left right = .error error ↔
      error = .zeroDivision ∧ Clash version candidates left right := by
  unfold joins Clash
  cases hmatch : matchesBlock version left.2 right.2 with
  | error raised =>
    obtain ⟨rfl, hcoincide⟩ := matchesBlock_error_iff.mp hmatch
    simp only [Except.error.injEq, hcoincide, true_or, and_true]
    exact eq_comm
  | ok aligned =>
    have hapart : ¬Coincide version left.2 right.2 := fun hcoincide => by
      rw [matchesBlock_error_iff.mpr ⟨rfl, hcoincide⟩] at hmatch
      cases hmatch
    cases aligned with
    | false => simp [hapart]
    | true =>
      simp only [hapart, false_or, true_and]
      unfold compatibleTables
      split_ifs with hearly hnone
      · have : ¬(4 ≤ version ∧ left.2.kind ≠ .table) := by
          rintro ⟨hversion, hkind⟩
          exact hearly.elim (by omega) hkind
        simp only [false_iff, not_and]
        intro _ hversion hkind
        exact absurd ⟨hversion, hkind⟩ this
      · simp only [false_iff, not_and, not_exists]
        intro _ _ _ a b ha
        have := (tableOf_spec ha).1
        simp [hnone.1] at this
      · rw [not_or, not_lt] at hearly
        split
        · rename_i a b ha hb
          rw [matchesBlock_error_iff]
          refine and_congr_right fun _ => ⟨fun h => ⟨hearly.1, hearly.2, a, b, ha, hb, h⟩, ?_⟩
          rintro ⟨-, -, a', b', ha', hb', h⟩
          rw [ha] at ha'
          rw [hb] at hb'
          cases ha'
          cases hb'
          exact h
        · rename_i hnot
          simp only [reduceCtorEq, false_iff, not_and, not_exists]
          intro _ _ _ a b ha hb
          exact absurd hb (hnot a b ha)

theorem raises_joins_iff {left right : Entry} :
    Raises (joins version candidates) left right ↔ Clash version candidates left right := by
  unfold Raises
  simp only [joins_error_iff, exists_eq_left]

theorem Clash.symm {left right : Entry} (h : Clash version candidates left right) :
    Clash version candidates right left := by
  rcases h with hcoincide | ⟨hmatch, hversion, hkind, a, b, ha, hb, hcoincide⟩
  · exact Or.inl hcoincide.symm
  · obtain ⟨_, _, hcomparable, -⟩ := matchesBlock_true hmatch
    rw [matchesBlock_comm] at hmatch
    exact Or.inr ⟨hmatch, hversion, hcomparable.kind ▸ hkind, b, a, hb, ha, hcoincide.symm⟩

theorem joins_true {left right : Entry} (h : joins version candidates left right = .ok true) :
    matchesBlock version left.2 right.2 = .ok true ∧
      compatibleTables version candidates left right = .ok true := by
  unfold joins at h
  split at h
  · rename_i hmatch
    exact ⟨hmatch, h⟩
  · rename_i hother
    exact absurd h hother

theorem lonely_of_clash {left right : Entry} (h : Clash version candidates left right) :
    Lonely (joins version candidates) left := by
  rcases h with hcoincide | ⟨-, hversion, hkind, a, b, ha, -, hcoincide⟩
  · intro other
    exact ⟨fun hjoin => matchesBlock_of_vanishes (Or.inr hcoincide.left_vanishes) (joins_true hjoin).1,
      fun hjoin => matchesBlock_of_vanishes (Or.inl hcoincide.left_vanishes) (joins_true hjoin).1⟩
  · -- Its table vanishes, so no other table is compatible.
    have hnative := (tableOf_spec ha).1
    intro other
    constructor
    · intro hjoin
      obtain ⟨hmatch, hcompatible⟩ := joins_true hjoin
      obtain ⟨_, _, hcomparable, -⟩ := matchesBlock_true hmatch
      have hother : other.2.kind ≠ .table := hcomparable.kind ▸ hkind
      unfold compatibleTables at hcompatible
      split_ifs at hcompatible with hearly hnone
      · exact hearly.elim (by omega) hother
      · simp [hnone.2] at hnative
      · split at hcompatible
        · rename_i c d hc hd
          rw [ha] at hd
          cases hd
          exact matchesBlock_of_vanishes (Or.inr hcoincide.left_vanishes) hcompatible
        · cases hcompatible
    · intro hjoin
      obtain ⟨-, hcompatible⟩ := joins_true hjoin
      unfold compatibleTables at hcompatible
      split_ifs at hcompatible with hearly hnone
      · exact hearly.elim (by omega) hkind
      · simp [hnone.1] at hnative
      · split at hcompatible
        · rename_i c d hc hd
          rw [ha] at hc
          cases hc
          exact matchesBlock_of_vanishes (Or.inl hcoincide.left_vanishes) hcompatible
        · cases hcompatible

theorem joins_of_bucket_ne {left right : Entry} (h : Entry.bucket left ≠ Entry.bucket right) :
    joins version candidates left right = .ok false := by
  have hplace : left.2.kind ≠ right.2.kind ∨
      left.2.source.physicalPage ≠ right.2.source.physicalPage := by
    by_contra hsame
    rw [not_or, not_not, not_not] at hsame
    exact h (Prod.ext hsame.2 hsame.1)
  unfold joins matchesBlock
  rw [if_pos hplace]

theorem groupCandidates_eq_scan (version : Nat) (candidates ordered : List CandidateBatch) :
    groupCandidates version candidates ordered =
      scan (joins version candidates) [] (scanOrder ordered) :=
  placeAll_eq_scan (fun _ _ => joins_of_bucket_ne) Buckets.Indexed.empty _

end ProofOps.Application.Ingest
