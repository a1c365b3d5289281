import ProofOps.Foundation.Words

/-!
# Texts with identifiers replaced

`Rewritten` says that a text came from another by replacing occurrences of identifiers, any of them
and at any place.  Where the identifiers stand as whole words, only one such text has none of them left
(`Rewritten.eq_mapWords`): every word that is an identifier becomes its target.
-/

namespace ProofOps.Api.HostedReuse

open Foundation

def Embeds (id text : String) : Prop :=
  id.toList <:+: text.toList

instance (id text : String) : Decidable (Embeds id text) :=
  inferInstanceAs (Decidable (_ <:+: _))

inductive Rewritten (ids : List String) (target : String → String) :
    List Char → List Char → Prop where
  | nil : Rewritten ids target [] []
  | keep {c : Char} {text written : List Char} :
      Rewritten ids target text written → Rewritten ids target (c :: text) (c :: written)
  | id {id : String} {text written : List Char} : id ∈ ids → Rewritten ids target text written →
      Rewritten ids target (id.toList ++ text) ((target id).toList ++ written)

def writtenFor (ids : List String) (target : String → String) (word : List Char) : List Char :=
  if String.ofList word ∈ ids then (target (String.ofList word)).toList else word

variable {sep : Char → Bool} {ids : List String} {target : String → String}

theorem Rewritten.refl (text : List Char) : Rewritten ids target text text := by
  induction text with
  | nil => exact .nil
  | cons c text ih => exact .keep ih

theorem Rewritten.append {first second third fourth : List Char}
    (h : Rewritten ids target first second) (h' : Rewritten ids target third fourth) :
    Rewritten ids target (first ++ third) (second ++ fourth) := by
  induction h with
  | nil => exact h'
  | keep _ ih => exact .keep ih
  | id hid _ ih =>
    rw [List.append_assoc, List.append_assoc]
    exact .id hid ih

variable {text written : List Char}

theorem rewritten_mapWords (text : List Char) :
    Rewritten ids target text (Words.mapWords sep (writtenFor ids target) text) := by
  have hword : ∀ word : List Char, Rewritten ids target word (writtenFor ids target word) := by
    intro word
    unfold writtenFor
    split_ifs with hid
    · have hwhole : Rewritten ids target ((String.ofList word).toList ++ [])
          ((target (String.ofList word)).toList ++ []) := .id hid .nil
      rw [String.toList_ofList, List.append_nil, List.append_nil] at hwhole
      exact hwhole
    · exact .refl word
  induction text using @Words.word_induction Char sep with
  | hword text htext =>
    rw [Words.mapWords_word htext]
    exact hword text
  | hstep first c rest hfirst hc ih =>
    rw [Words.mapWords_append hfirst hc]
    exact (hword first).append (.keep ih)

theorem writtenFor_nil (hids : ∀ id ∈ ids, id.toList ≠ []) : writtenFor ids target [] = [] := by
  unfold writtenFor
  split_ifs with hid
  · exact absurd (String.toList_ofList) (hids _ hid)
  · rfl

theorem mapWords_nil (hids : ∀ id ∈ ids, id.toList ≠ []) :
    Words.mapWords sep (writtenFor ids target) [] = [] :=
  writtenFor_nil hids

variable {c : Char}

/-- After a separator. -/
theorem mapWords_sep (hids : ∀ id ∈ ids, id.toList ≠ []) (hc : sep c = true) :
    Words.mapWords sep (writtenFor ids target) (c :: text) =
      c :: Words.mapWords sep (writtenFor ids target) text := by
  have h := @Words.mapWords_append Char sep (writtenFor ids target) [] text c nofun hc
  rwa [writtenFor_nil hids] at h

def Whole (sep : Char → Bool) (ids : List String) (text : List Char) : Prop :=
  ∀ word ∈ Words.words sep text, ∀ id ∈ ids, id.toList <:+: word → id.toList = word

theorem Whole.nil : Whole sep ids [] := by
  intro word hword id hid hin
  rw [Words.words_word nofun, List.mem_singleton] at hword
  rw [hword] at hin ⊢
  exact List.infix_nil.mp hin

theorem Whole.tail (h : Whole sep ids (c :: text)) : Whole sep ids text := by
  cases hc : sep c with
  | true =>
    intro word hword
    exact h word (by rw [Words.words_cons_sep hc]; exact List.mem_cons_of_mem _ hword)
  | false =>
    obtain ⟨first, others, hwords, hlong, -⟩ := Words.cons_first_word hc text
    intro word hword id hid hin
    rw [hwords] at hword
    rcases List.mem_cons.mp hword with rfl | hword
    · have hsame := h (c :: word) (by rw [hlong]; exact List.mem_cons_self) id hid
        (hin.trans (List.suffix_cons c word).isInfix)
      have hle := hin.length_le
      rw [hsame, List.length_cons] at hle
      omega
    · exact h word (by rw [hlong]; exact List.mem_cons_of_mem _ hword) id hid hin

theorem Whole.behind {id : String} (h : Whole sep ids (id.toList ++ text)) (hid : id ∈ ids)
    (hword : Words.IsWord sep id.toList) :
    text = [] ∨ ∃ c rest, sep c = true ∧ text = c :: rest := by
  obtain ⟨first, hfirst, hsplit⟩ := Words.first_word sep text
  have hlong : Words.IsWord sep (id.toList ++ first) := List.forall_mem_append.mpr ⟨hword, hfirst⟩
  have hmem : id.toList ++ first ∈ Words.words sep (id.toList ++ text) := by
    rcases hsplit with rfl | ⟨d, rest, hd, rfl⟩
    · rw [Words.words_word hlong]
      exact List.mem_singleton_self _
    · rw [← List.append_assoc, Words.words_append hlong hd]
      exact List.mem_cons_self
  have hsame := h _ hmem id hid (List.prefix_append _ _).isInfix
  obtain rfl : first = [] := List.self_eq_append_right.mp hsame
  exact hsplit

theorem mapWords_keep (hwhole : Whole sep ids (c :: text))
    (hclean : ∀ id ∈ ids, ¬id.toList <:+: c :: Words.mapWords sep (writtenFor ids target) text) :
    Words.mapWords sep (writtenFor ids target) (c :: text) =
      c :: Words.mapWords sep (writtenFor ids target) text := by
  have hkept : ∀ word : List Char, (∀ id ∈ ids, id.toList ≠ word) →
      writtenFor ids target word = word := by
    intro word hfree
    unfold writtenFor
    rw [if_neg]
    intro hid
    exact hfree _ hid String.toList_ofList
  cases hc : sep c with
  | true =>
    have h := @Words.mapWords_append Char sep (writtenFor ids target) [] text c nofun hc
    rw [List.nil_append] at h
    rw [h, hkept []]
    · rfl
    · intro id hid hempty
      apply hclean id hid
      rw [hempty]
      exact List.nil_infix
  | false =>
    obtain ⟨word, others, hwords, hlong, hmap⟩ := Words.cons_first_word hc text
    obtain ⟨tail, hshort, hfirst⟩ := hmap (writtenFor ids target)
    have hword : writtenFor ids target word = word := by
      apply hkept
      intro id hid hsame
      have hlonger := hwhole (c :: word) (by rw [hlong]; exact List.mem_cons_self) id hid
        (hsame ▸ (List.suffix_cons c word).isInfix)
      exact List.cons_ne_self c word (hlonger.symm.trans hsame)
    rw [hshort, hword] at hclean ⊢
    rw [hfirst, hkept]
    · rfl
    · intro id hid hsame
      apply hclean id hid
      rw [hsame]
      exact (List.prefix_append (c :: word) tail).isInfix

theorem Rewritten.eq_mapWords (hids : ∀ id ∈ ids, id.toList ≠ [])
    (hwords : ∀ id ∈ ids, Words.IsWord sep id.toList) (h : Rewritten ids target text written)
    (hwhole : Whole sep ids text) (hclean : ∀ id ∈ ids, ¬id.toList <:+: written) :
    written = Words.mapWords sep (writtenFor ids target) text := by
  induction h with
  | nil => exact (mapWords_nil hids).symm
  | @keep c text written _ ih =>
    have hrest : ∀ id ∈ ids, ¬id.toList <:+: written :=
      fun id hid hin => hclean id hid (hin.trans (List.suffix_cons c written).isInfix)
    have hwritten := ih hwhole.tail hrest
    rw [hwritten] at hclean ⊢
    exact (mapWords_keep hwhole hclean).symm
  | @id replaced text written hid _ ih =>
    have hrest : ∀ id ∈ ids, ¬id.toList <:+: written :=
      fun id hid hin => hclean id hid (hin.trans (List.suffix_append _ written).isInfix)
    have hreplaced := hwords replaced hid
    have htarget : writtenFor ids target replaced.toList = (target replaced).toList := by
      unfold writtenFor
      rw [String.ofList_toList, if_pos hid]
    rcases hwhole.behind hid hreplaced with rfl | ⟨d, rest, hd, rfl⟩
    · rw [ih Whole.nil hrest, mapWords_nil hids, List.append_nil, List.append_nil,
        Words.mapWords_word hreplaced, htarget]
    · have hbehind : Whole sep ids (d :: rest) := by
        intro word hword id hid hin
        rw [Words.words_cons_sep hd] at hword
        rcases List.mem_cons.mp hword with rfl | hword
        · exact List.infix_nil.mp hin
        · refine hwhole word ?_ id hid hin
          rw [Words.words_append hreplaced hd]
          exact List.mem_cons_of_mem _ hword
      rw [ih hbehind hrest, mapWords_sep hids hd, Words.mapWords_append hreplaced hd, htarget]

end ProofOps.Api.HostedReuse
