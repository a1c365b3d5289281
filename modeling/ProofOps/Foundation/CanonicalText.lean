import Mathlib.Data.List.Perm.Basic
import Mathlib.Data.List.TakeDrop

/-!
# Texts with one decomposition

Two texts are the same when their characters decompose into the same parts, up to the order of
the parts.  A split of one text and a split of the other correspond when their fronts are the
same.  Corresponding splits are in the same order, and what lies between two of them is the same.
-/

namespace ProofOps.Foundation.CanonicalText

universe u v

variable {α : Type u} {β : Type v} {decompose : α → List β} {raw text : List α}

def Same (decompose : α → List β) (first second : List α) : Prop :=
  (first.flatMap decompose).Perm (second.flatMap decompose)

structure Boundary (decompose : α → List β) (raw text : List α) (index offset : Nat) : Prop where
  le : index ≤ raw.length
  same : Same decompose (raw.take index) (text.take offset)

theorem boundary_zero (decompose : α → List β) (raw text : List α) :
    Boundary decompose raw text 0 0 :=
  ⟨Nat.zero_le _, List.Perm.refl _⟩

theorem boundary_length (h : Same decompose raw text) :
    Boundary decompose raw text raw.length text.length := by
  refine ⟨Nat.le_refl _, ?_⟩
  rw [List.take_length, List.take_length]
  exact h

variable {chars : List α} {first second : Nat}

theorem length_take_lt (hparts : ∀ c, decompose c ≠ [])
    (hlt : first < second) (hle : second ≤ chars.length) :
    ((chars.take first).flatMap decompose).length <
      ((chars.take second).flatMap decompose).length := by
  have hsplit : chars.take second = chars.take first ++ (chars.take second).drop first := by
    have htake := List.take_append_drop first (chars.take second)
    rw [List.take_take, Nat.min_eq_left (Nat.le_of_lt hlt)] at htake
    exact htake.symm
  have hnonempty : (chars.take second).drop first ≠ [] := by
    rw [← List.length_pos_iff, List.length_drop, List.length_take]
    omega
  obtain ⟨c, rest, hrest⟩ := List.exists_cons_of_ne_nil hnonempty
  have hc := List.length_pos_iff.mpr (hparts c)
  rw [hsplit, hrest, List.flatMap_append, List.length_append, List.flatMap_cons, List.length_append]
  omega

variable {start stop : Nat}

theorem Boundary.lt_of_lt (hparts : ∀ c, decompose c ≠ [])
    (h : Boundary decompose raw text first start) (h' : Boundary decompose raw text second stop)
    (hlt : start < stop) (hle : stop ≤ text.length) : first < second := by
  by_contra hnot
  have hlengths := length_take_lt hparts hlt hle
  rw [← h.same.length_eq, ← h'.same.length_eq] at hlengths
  rcases Nat.lt_or_ge second first with hsecond | hsecond
  · have hraw := length_take_lt hparts hsecond h.le
    omega
  · have hsame : first = second := by omega
    rw [hsame] at hlengths
    omega

variable {offset : Nat}

theorem Boundary.unique (hparts : ∀ c, decompose c ≠ [])
    (h : Boundary decompose raw text first offset) (h' : Boundary decompose raw text second offset) :
    first = second := by
  have hlengths : ((raw.take first).flatMap decompose).length =
      ((raw.take second).flatMap decompose).length :=
    h.same.length_eq.trans h'.same.length_eq.symm
  rcases Nat.lt_trichotomy first second with hlt | heq | hgt
  · have hraw := length_take_lt hparts hlt h'.le
    omega
  · exact heq
  · have hraw := length_take_lt hparts hgt h.le
    omega

/-- Boundaries keep their order. -/
theorem Boundary.le_of_le (hparts : ∀ c, decompose c ≠ [])
    (h : Boundary decompose raw text first start) (h' : Boundary decompose raw text second stop)
    (hle : start ≤ stop) (hlength : stop ≤ text.length) : first ≤ second := by
  rcases Nat.eq_or_lt_of_le hle with rfl | hlt
  · exact Nat.le_of_eq (h.unique hparts h')
  · exact Nat.le_of_lt (h.lt_of_lt hparts h' hlt hlength)

/-- How many parts stand before an index. -/
def partsBefore (decompose : α → List β) (chars : List α) (index : Nat) : Nat :=
  ((chars.take index).flatMap decompose).length

theorem partsBefore_lt (hparts : ∀ c, decompose c ≠ [])
    (hlt : first < second) (hle : second ≤ chars.length) :
    partsBefore decompose chars first < partsBefore decompose chars second :=
  length_take_lt hparts hlt hle

theorem partsBefore_le_iff (hparts : ∀ c, decompose c ≠ [])
    (hfirst : first ≤ chars.length) (hsecond : second ≤ chars.length) :
    partsBefore decompose chars first ≤ partsBefore decompose chars second ↔ first ≤ second := by
  constructor
  · intro h
    by_contra hnot
    have hlt := partsBefore_lt hparts (Nat.lt_of_not_le hnot) hfirst
    omega
  · intro h
    rcases Nat.eq_or_lt_of_le h with rfl | hlt
    · exact Nat.le_refl _
    · exact Nat.le_of_lt (partsBefore_lt hparts hlt hsecond)

variable {index : Nat}

theorem Boundary.parts (h : Boundary decompose raw text index offset) :
    partsBefore decompose raw index = partsBefore decompose text offset :=
  h.same.length_eq

variable {other : Nat}

theorem Boundary.le_iff (hparts : ∀ c, decompose c ≠ [])
    (h : Boundary decompose raw text index offset) (hother : other ≤ raw.length) :
    index ≤ other ↔ partsBefore decompose text offset ≤ partsBefore decompose raw other := by
  rw [← h.parts, partsBefore_le_iff hparts h.le hother]

theorem Boundary.ge_iff (hparts : ∀ c, decompose c ≠ [])
    (h : Boundary decompose raw text index offset) (hother : other ≤ raw.length) :
    other ≤ index ↔ partsBefore decompose raw other ≤ partsBefore decompose text offset := by
  rw [← h.parts, partsBefore_le_iff hparts hother h.le]

theorem Boundary.eq_iff (hparts : ∀ c, decompose c ≠ [])
    (h : Boundary decompose raw text index offset) (hother : other ≤ raw.length) :
    index = other ↔ partsBefore decompose text offset = partsBefore decompose raw other := by
  constructor
  · rintro rfl
    exact h.parts.symm
  · intro heq
    exact Nat.le_antisymm ((h.le_iff hparts hother).mpr (Nat.le_of_eq heq))
      ((h.ge_iff hparts hother).mpr (Nat.le_of_eq heq.symm))

theorem Boundary.between
    (h : Boundary decompose raw text first start) (h' : Boundary decompose raw text second stop)
    (hraw : first ≤ second) (htext : start ≤ stop) :
    Same decompose ((raw.take second).drop first) ((text.take stop).drop start) := by
  have hsplit : ∀ (chars : List α) {low high : Nat}, low ≤ high →
      chars.take high = chars.take low ++ (chars.take high).drop low := by
    intro chars low high hle
    have htake := List.take_append_drop low (chars.take high)
    rw [List.take_take, Nat.min_eq_left hle] at htake
    exact htake.symm
  have hwhole := h'.same
  unfold Same at hwhole
  rw [hsplit raw hraw, hsplit text htext, List.flatMap_append, List.flatMap_append] at hwhole
  have hfront := h.same
  exact (List.perm_append_left_iff _).mp ((hfront.symm.append_right _).trans hwhole)

theorem Same.forall_parts {p : β → Prop} {first second : List α} (h : Same decompose first second)
    (hsecond : ∀ c ∈ second, ∀ part ∈ decompose c, p part) :
    ∀ c ∈ first, ∀ part ∈ decompose c, p part := by
  intro c hc part hpart
  have hmem : part ∈ second.flatMap decompose :=
    h.mem_iff.mp (List.mem_flatMap.mpr ⟨c, hc, hpart⟩)
  obtain ⟨other, hother, hin⟩ := List.mem_flatMap.mp hmem
  exact hsecond other hother part hin

section Joined

variable {front back front' back' : List α} {c : α} {index offset : Nat}

theorem boundary_joint (h : Same decompose front front') :
    Boundary decompose (front ++ c :: back) (front' ++ c :: back') front.length front'.length := by
  refine ⟨?_, ?_⟩
  · rw [List.length_append]
    exact Nat.le_add_right _ _
  · rw [List.take_left, List.take_left]
    exact h

theorem Boundary.inFront (hparts : ∀ c, decompose c ≠ []) (hsame : Same decompose front front')
    (h : Boundary decompose (front ++ c :: back) (front' ++ c :: back') index offset)
    (hle : offset ≤ front'.length) : Boundary decompose front front' index offset := by
  have hlength : front'.length ≤ (front' ++ c :: back').length := by
    rw [List.length_append]
    exact Nat.le_add_right _ _
  have hindex := h.le_of_le hparts (boundary_joint hsame) hle hlength
  refine ⟨hindex, ?_⟩
  have htake := h.same
  rw [List.take_append_of_le_length hindex, List.take_append_of_le_length hle] at htake
  exact htake

theorem Boundary.behind (hparts : ∀ c, decompose c ≠ []) (hsame : Same decompose front front')
    (h : Boundary decompose (front ++ c :: back) (front' ++ c :: back') index offset)
    (hlt : front'.length < offset) (hle : offset ≤ (front' ++ c :: back').length) :
    front.length < index ∧
      Boundary decompose back back' (index - (front.length + 1)) (offset - (front'.length + 1)) := by
  have hindex := (boundary_joint hsame).lt_of_lt hparts h hlt hle
  have htake : ∀ (first rest : List α) (n : Nat), first.length < n →
      (first ++ c :: rest).take n = first ++ c :: rest.take (n - (first.length + 1)) := by
    intro first rest n hn
    rw [List.take_append, List.take_of_length_le (Nat.le_of_lt hn)]
    have hrest : n - first.length = n - (first.length + 1) + 1 := by omega
    rw [hrest, List.take_succ_cons]
  refine ⟨hindex, ?_, ?_⟩
  · have hlength := h.le
    rw [List.length_append, List.length_cons] at hlength
    omega
  · have hwhole := h.same
    unfold Same at hwhole hsame ⊢
    rw [htake front back index hindex, htake front' back' offset hlt, List.flatMap_append,
      List.flatMap_append, List.flatMap_cons, List.flatMap_cons] at hwhole
    have hrest := (List.perm_append_left_iff _).mp ((hsame.symm.append_right _).trans hwhole)
    exact (List.perm_append_left_iff _).mp hrest

end Joined

end ProofOps.Foundation.CanonicalText
