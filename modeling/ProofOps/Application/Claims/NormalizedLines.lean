import ProofOps.Application.Claims.JoinedQuotes
import ProofOps.Foundation.RowSpans

/-!
# Lines of the normalized text

Normal form C works line by line, so that a text has as many lines as its normalized text.  A row of
the normalized text, which starts and stops at line breaks, stands at one place of the raw text, and
that starts and stops at line breaks too (`KeepsLines.row`).
-/

namespace ProofOps.Application.Claims

open Foundation Foundation.RowSpans Evidence

structure KeepsLines (nfc : String → String) : Prop where
  split : ∀ front back, nfc (onLines front back) = onLines (nfc front) (nfc back)
  plain : ∀ text : String, '\n' ∉ text.toList → '\n' ∉ (nfc text).toList

theorem line_induction {motive : String → Prop}
    (hline : ∀ line : String, '\n' ∉ line.toList → motive line)
    (hstep : ∀ line rest : String, '\n' ∉ line.toList → motive rest → motive (onLines line rest))
    (text : String) : motive text := by
  suffices h : ∀ chars : List Char, motive (String.ofList chars) by
    rw [← String.ofList_toList (s := text)]
    exact h text.toList
  intro chars
  induction chars using @Words.word_induction Char fun c => c == '\n' with
  | hword word hword =>
    apply hline
    rw [String.toList_ofList]
    exact Words.isWord_beq_iff.mp hword
  | hstep word c rest hword hc ih =>
    obtain rfl : c = '\n' := eq_of_beq hc
    have hlines : String.ofList (word ++ '\n' :: rest) =
        onLines (String.ofList word) (String.ofList rest) := by
      rw [← String.toList_inj, toList_onLines, String.toList_ofList, String.toList_ofList,
        String.toList_ofList]
    rw [hlines]
    apply hstep _ _ _ ih
    rw [String.toList_ofList]
    exact Words.isWord_beq_iff.mp hword

variable {nfc : String → String} {decompose : Char → List Char} {raw : String}

theorem KeepsLines.count_eq (h : KeepsLines nfc) (text : String) :
    (nfc text).toList.count '\n' = text.toList.count '\n' := by
  induction text using line_induction with
  | hline line hline =>
    rw [List.count_eq_zero_of_not_mem hline, List.count_eq_zero_of_not_mem (h.plain line hline)]
  | hstep line rest hline ih =>
    rw [h.split, toList_onLines, toList_onLines, List.count_append, List.count_append,
      List.count_cons_self, List.count_cons_self, ih, List.count_eq_zero_of_not_mem hline,
      List.count_eq_zero_of_not_mem (h.plain line hline)]

theorem onLines_assoc (first second third : String) :
    onLines first (onLines second third) = onLines (onLines first second) third := by
  unfold onLines
  rw [String.append_assoc, String.append_assoc, String.append_assoc, String.append_assoc,
    String.append_assoc]

/-- A line break of the normalized text is one of the raw text. -/
theorem KeepsLines.split_at (h : KeepsLines nfc) {front back : List Char}
    (htext : (nfc raw).toList = front ++ '\n' :: back) :
    ∃ first rest, raw = onLines first rest ∧ (nfc first).toList = front ∧
      (nfc rest).toList = back := by
  induction raw using line_induction generalizing front with
  | hline line hline =>
    have hplain := h.plain line hline
    rw [htext] at hplain
    exact absurd (List.mem_append_right _ List.mem_cons_self) hplain
  | hstep line rest hline ih =>
    rw [h.split, toList_onLines] at htext
    have hplain := h.plain line hline
    rcases List.append_eq_append_iff.mp htext with ⟨middle, hfront, hrest⟩ | ⟨middle, hfront, hrest⟩
    · cases middle with
      | nil =>
        cases hrest
        rw [List.append_nil] at hfront
        exact ⟨line, rest, rfl, hfront.symm, rfl⟩
      | cons c middle =>
        -- The break is behind the first line, so the rest of the text has it.
        rw [List.cons_append, List.cons.injEq] at hrest
        obtain ⟨rfl, hrest⟩ := hrest
        obtain ⟨first, last, rfl, rfl, hlast⟩ := ih hrest
        refine ⟨onLines line first, last, onLines_assoc line first last, ?_, hlast⟩
        rw [h.split, toList_onLines]
        exact hfront.symm
    · cases middle with
      | nil =>
        cases hrest
        rw [List.append_nil] at hfront
        exact ⟨line, rest, rfl, hfront, rfl⟩
      | cons c middle =>
        obtain ⟨rfl, -⟩ := hrest
        rw [hfront] at hplain
        exact absurd (List.mem_append_right _ List.mem_cons_self) hplain

theorem KeepsLines.closing (h : KeepsLines nfc) {front back : List Char}
    (htext : (nfc raw).toList = front ++ back) (hback : BeginsRow '\n' back) :
    ∃ first last, raw = first ++ last ∧ (nfc first).toList = front ∧
      BeginsRow '\n' last.toList ∧ ∀ other, nfc (other ++ last) = nfc other ++ String.ofList back := by
  rcases hback with rfl | ⟨back, rfl⟩
  · rw [List.append_nil] at htext
    refine ⟨raw, "", String.append_empty.symm, htext, .inl rfl, fun other => ?_⟩
    rw [String.append_empty, String.ofList_nil, String.append_empty]
  · obtain ⟨first, rest, rfl, hfront, hrest⟩ := h.split_at htext
    refine ⟨first, String.singleton '\n' ++ rest, ?_, hfront, .inr ⟨rest.toList, ?_⟩, fun other => ?_⟩
    · exact String.append_assoc
    · rw [String.toList_append, String.toList_singleton, List.singleton_append]
    · have hsplit := h.split other rest
      unfold onLines at hsplit
      rw [← String.append_assoc, hsplit, ← String.toList_inj]
      simp [hrest]

theorem KeepsLines.opening (h : KeepsLines nfc) {front back : List Char}
    (htext : (nfc raw).toList = front ++ back) (hfront : EndsRow '\n' front) :
    ∃ first last, raw = first ++ last ∧ (nfc last).toList = back ∧
      EndsRow '\n' first.toList ∧ ∀ other, nfc (first ++ other) = String.ofList front ++ nfc other := by
  rcases hfront with rfl | ⟨front, rfl⟩
  · refine ⟨"", raw, String.empty_append.symm, htext, .inl rfl, fun other => ?_⟩
    rw [String.empty_append, String.ofList_nil, String.empty_append]
  · rw [List.append_assoc, List.singleton_append] at htext
    obtain ⟨first, rest, rfl, hfront, hrest⟩ := h.split_at htext
    refine ⟨first ++ String.singleton '\n', rest, rfl, hrest, .inr ⟨first.toList, ?_⟩,
      fun other => ?_⟩
    · rw [String.toList_append, String.toList_singleton]
    · have hsplit := h.split first other
      unfold onLines at hsplit
      rw [hsplit, ← String.toList_inj]
      simp [hfront]

section Slices

variable (front back : String)

theorem slice_opening : slice (front ++ back) 0 front.length = front := by
  rw [← String.toList_inj, toList_slice, String.toList_append, ← String.length_toList,
    List.take_left, List.drop_zero]

theorem slice_closing : slice (front ++ back) front.length (front ++ back).length = back := by
  rw [← String.toList_inj, toList_slice, ← String.length_toList, ← String.length_toList,
    List.take_length, String.toList_append, List.drop_left]

end Slices

theorem slice_middle (front middle back : String) :
    slice (front ++ middle ++ back) front.length (front.length + middle.length) = middle := by
  rw [← String.toList_inj, toList_slice, String.toList_append, String.toList_append,
    ← String.length_toList, ← String.length_toList, ← List.length_append, List.take_left,
    List.drop_left]

theorem KeepsLines.row (hnfc : Canonical nfc decompose) (h : KeepsLines nfc)
    {front row back : List Char} (htext : (nfc raw).toList = front ++ row ++ back)
    (hfront : EndsRow '\n' front) (hback : BeginsRow '\n' back) :
    ∃ first middle last, raw.toList = first ++ middle ++ last ∧ EndsRow '\n' first ∧
      BeginsRow '\n' last ∧ first.count '\n' = front.count '\n' ∧
      (first ++ middle).count '\n' = (front ++ row).count '\n' ∧
      Maps nfc raw front.length (front.length + row.length) first.length
        (first.length + middle.length) := by
  have hempty := nfc_empty hnfc
  obtain ⟨whole, last, rfl, hwhole, hlast, hbefore⟩ := h.closing htext hback
  obtain ⟨first, middle, rfl, hmiddle, hfirst, hbehind⟩ := h.opening hwhole hfront
  have hnfcFirst : nfc first = String.ofList front := by
    have hends := hbehind ""
    rwa [String.append_empty, hempty, String.append_empty] at hends
  have hnfcMiddle : nfc middle = String.ofList row := by
    rw [← hmiddle, String.ofList_toList]
  have hnfcLast : nfc last = String.ofList back := by
    have hbegins := hbefore ""
    rwa [String.empty_append, hempty, String.empty_append] at hbegins
  have hfrontLength : front.length = (nfc first).length := by
    rw [hnfcFirst, String.length_ofList]
  have hrowLength : front.length + row.length = (nfc (first ++ middle)).length := by
    rw [hbehind, hnfcMiddle, String.length_append, String.length_ofList, String.length_ofList]
  have hraw : nfc (first ++ middle ++ last) = nfc (first ++ middle) ++ nfc last := by
    rw [hbefore, hnfcLast]
  have hopening : Cut nfc (first ++ middle ++ last) first.length front.length := by
    constructor
    · rw [String.append_assoc, String.length_append]
      exact Nat.le_add_right _ _
    · rw [String.append_assoc, slice_opening, hfrontLength, hbehind, ← hnfcFirst, slice_opening]
    · rw [String.append_assoc, slice_closing, hfrontLength, hbehind, ← hnfcFirst, slice_closing]
  have hclosing : Cut nfc (first ++ middle ++ last) (first ++ middle).length
      (nfc (first ++ middle)).length := by
    constructor
    · have hlength := String.length_append (s := first ++ middle) (t := last)
      omega
    · rw [slice_opening, hraw, slice_opening]
    · rw [slice_closing, hraw, slice_closing]
  have hquoted : nfc (slice (first ++ middle ++ last) first.length (first ++ middle).length) =
      slice (nfc (first ++ middle ++ last)) front.length (front.length + row.length) := by
    rw [String.length_append, slice_middle, hraw, hbehind, hfrontLength, ← hnfcFirst, hnfcMiddle,
      ← String.length_ofList (l := row), slice_middle]
  refine ⟨first.toList, middle.toList, last.toList, ?_, hfirst, hlast, ?_, ?_, ?_⟩
  · rw [String.toList_append, String.toList_append]
  · rw [← h.count_eq, hnfcFirst, String.toList_ofList]
  · rw [← String.toList_append, ← h.count_eq, hbehind, hnfcMiddle]
    simp
  · rw [String.length_toList, String.length_toList, ← String.length_append]
    exact
      { ordered := Nat.le_add_right _ _
        range := by
          rw [hrowLength, hraw, String.length_append]
          exact Nat.le_add_right _ _
        opening := hopening
        closing := hrowLength ▸ hclosing
        quoted := hquoted }

end ProofOps.Application.Claims
