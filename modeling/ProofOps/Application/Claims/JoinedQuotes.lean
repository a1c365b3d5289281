import ProofOps.Application.Claims.CanonicalRefs

/-!
# Quotes of joined blocks

The references of a claim on a joined block are those that the quote check expects: the offsets of
each fragment in the raw text are those of the whole, moved to the fragment (`expectedRefs_ok`).
The check accepts the references unless two of the fragments pass for copies of one text, and none
passes for a copy of the whole (`claimQuoteMatchesSources_iff`).
-/

namespace ProofOps.Application.Claims

open Foundation Foundation.Checked Foundation.CanonicalText Foundation.Sorting Domain Evidence Ingest

structure Breaks (nfc : String → String) : Prop where
  split : ∀ (front back : String) (c : Char), c = ' ' ∨ c = '\n' →
    nfc (front ++ String.singleton c ++ back) = nfc front ++ String.singleton c ++ nfc back

def wordsOf (nfc : String → String) (text : String) : List (List Char) :=
  Words.pieces PyText.isSpace (nfc text).toList

section WordLists

variable {nfc : String → String} {decompose : Char → List Char}

theorem toList_foldedText (nfc : String → String) (text : String) :
    (foldedText nfc text).toList = [' '].intercalate (wordsOf nfc text) := by
  unfold foldedText splitText wordsOf
  rw [String.toList_intercalate, List.map_map]
  have hid : String.toList ∘ String.ofList = id := funext fun _ => String.toList_ofList
  rw [hid, List.map_id]
  rfl

theorem foldedText_eq_iff {first second : String} :
    foldedText nfc first = foldedText nfc second ↔ wordsOf nfc first = wordsOf nfc second := by
  have hpieces : ∀ text, Words.pieces PyText.isSpace (foldedText nfc text).toList = wordsOf nfc text := by
    intro text
    rw [toList_foldedText]
    exact Words.pieces_intercalate (by decide) fun part hpart => Words.isWord_of_mem_pieces hpart
  constructor
  · intro h
    rw [← hpieces first, h, hpieces second]
  · intro h
    rw [← String.toList_inj, toList_foldedText, toList_foldedText, h]

theorem nfc_empty (hnfc : Canonical nfc decompose) : nfc "" = "" := by
  have hsame := (hnfc.same "").length_eq
  rw [← String.toList_eq_nil_iff]
  cases hchars : (nfc "").toList with
  | nil => rfl
  | cons c chars =>
    have hpart := List.length_pos_iff.mpr (hnfc.nonempty c)
    rw [hchars, List.flatMap_cons, List.length_append] at hsame
    simp at hsame
    omega

theorem wordsOf_empty (hnfc : Canonical nfc decompose) : wordsOf nfc "" = [] := by
  unfold wordsOf
  rw [nfc_empty hnfc]
  exact Words.pieces_nil

theorem wordsOf_append (hbreaks : Breaks nfc) {c : Char} (hc : c = ' ' ∨ c = '\n')
    (front back : String) :
    wordsOf nfc (front ++ String.singleton c ++ back) = wordsOf nfc front ++ wordsOf nfc back := by
  have hspace : PyText.isSpace c = true := by
    rcases hc with rfl | rfl
    · decide
    · decide
  unfold wordsOf
  rw [hbreaks.split front back c hc, String.toList_append, String.toList_append,
    String.toList_singleton, List.append_assoc, List.singleton_append, Words.pieces_append hspace]

theorem wordsOf_joinedQuotes (hnfc : Canonical nfc decompose) (hbreaks : Breaks nfc)
    (refs : List SourceRef) :
    wordsOf nfc (joinedQuotes refs) = refs.flatMap fun ref => wordsOf nfc ref.quote := by
  induction refs with
  | nil => exact wordsOf_empty hnfc
  | cons ref refs ih =>
    cases refs with
    | nil =>
      unfold joinedQuotes
      rw [List.map_singleton, String.intercalate_singleton, List.flatMap_singleton]
    | cons next refs =>
      have hstep : joinedQuotes (ref :: next :: refs) =
          ref.quote ++ String.singleton ' ' ++ joinedQuotes (next :: refs) := by
        unfold joinedQuotes
        rw [List.map_cons, List.map_cons, String.intercalate_cons_cons]
        rfl
      rw [hstep, wordsOf_append hbreaks (.inl rfl), ih]
      rfl

end WordLists

section Slices

variable {front back : String} {start stop : Nat}

/-- Two texts on separate lines. -/
def onLines (front back : String) : String :=
  front ++ String.singleton '\n' ++ back

theorem toList_onLines (front back : String) :
    (onLines front back).toList = front.toList ++ '\n' :: back.toList := by
  unfold onLines
  rw [String.toList_append, String.toList_append, String.toList_singleton, List.append_assoc,
    List.singleton_append]

theorem length_onLines (front back : String) :
    (onLines front back).length = front.length + 1 + back.length := by
  rw [← String.length_toList, toList_onLines, List.length_append, List.length_cons,
    String.length_toList, String.length_toList]
  omega

theorem slice_front (h : stop ≤ front.length) :
    slice (onLines front back) start stop = slice front start stop := by
  rw [← String.toList_inj, toList_slice, toList_slice, toList_onLines,
    List.take_append_of_le_length]
  exact h

/-- A range of the second line. -/
theorem slice_back (h : front.length < start) :
    slice (onLines front back) start stop =
      slice back (start - (front.length + 1)) (stop - (front.length + 1)) := by
  have hlength : front.toList.length = front.length := String.length_toList
  have hdrop : (front.toList ++ '\n' :: back.toList).drop start =
      back.toList.drop (start - (front.length + 1)) := by
    rw [List.drop_append, List.drop_of_length_le (by omega), List.nil_append, hlength]
    have hrest : start - front.length = start - (front.length + 1) + 1 := by omega
    rw [hrest, List.drop_succ_cons]
  rw [← String.toList_inj, toList_slice, toList_slice, toList_onLines, List.drop_take, List.drop_take,
    hdrop]
  congr 1
  omega

/-- A range across both lines. -/
theorem slice_across (hstart : start ≤ front.length) (hstop : front.length < stop) :
    slice (onLines front back) start stop =
      onLines (slice front start front.length) (slice back 0 (stop - (front.length + 1))) := by
  have hlength : front.toList.length = front.length := String.length_toList
  have htake : (front.toList ++ '\n' :: back.toList).take stop =
      front.toList ++ '\n' :: back.toList.take (stop - (front.length + 1)) := by
    rw [List.take_append, List.take_of_length_le (by omega), hlength]
    have hrest : stop - front.length = stop - (front.length + 1) + 1 := by omega
    rw [hrest, List.take_succ_cons]
  rw [← String.toList_inj, toList_slice, toList_onLines, htake, toList_onLines, toList_slice,
    toList_slice, List.drop_zero, List.take_of_length_le (Nat.le_of_eq hlength),
    List.drop_append_of_le_length (by omega)]

theorem slice_min (text : String) (start stop : Nat) :
    slice text start (min text.length stop) = slice text start stop := by
  rw [← String.toList_inj, toList_slice, toList_slice, ← String.length_toList]
  rcases Nat.le_total stop text.toList.length with hle | hle
  · rw [Nat.min_eq_right hle]
  · rw [Nat.min_eq_left hle, List.take_length, List.take_of_length_le hle]

theorem slice_empty {text : String} (h : stop ≤ start) : slice text start stop = "" := by
  rw [← String.toList_eq_nil_iff, toList_slice, List.drop_eq_nil_iff, List.length_take]
  omega

end Slices

/-! ### The parts of a joined block -/

def joinedRaw (parts : List CanonicalBlock) : String :=
  "\n".intercalate (parts.map CanonicalBlock.rawText)

theorem joinedRaw_cons (part next : CanonicalBlock) (parts : List CanonicalBlock) :
    joinedRaw (part :: next :: parts) = onLines part.rawText (joinedRaw (next :: parts)) := by
  unfold joinedRaw onLines
  rw [List.map_cons, List.map_cons, String.intercalate_cons_cons]
  rfl

variable {first last : Nat} {refs : List SourceRef}

section Parts

variable {rules : DiscoveryRules} {decompose : Char → List Char} {start stop : Nat}
  {part : CanonicalBlock} {parts : List CanonicalBlock}

theorem fragmentRefs_shift (cursor : Nat) (parts : List CanonicalBlock) :
    fragmentRefs rules start stop cursor parts =
      fragmentRefs rules (start - cursor) (stop - cursor) 0 parts := by
  induction parts generalizing start stop cursor with
  | nil => rfl
  | cons part parts ih =>
    unfold fragmentRefs
    dsimp only
    rw [ih (cursor + (normalizedText rules part).length + 1),
      @ih (start - cursor) (stop - cursor) (0 + (normalizedText rules part).length + 1)]
    simp only [Nat.sub_zero, Nat.sub_sub, Nat.zero_add, Nat.add_assoc]

/-- So are the expected ones. -/
theorem expectedRefs_shift {rules : CitationRules} (cursor : Nat) (parts : List CanonicalBlock) :
    expectedRefs rules start stop cursor parts =
      expectedRefs rules (start - cursor) (stop - cursor) 0 parts := by
  induction parts generalizing start stop cursor with
  | nil => rfl
  | cons part parts ih =>
    unfold expectedRefs
    dsimp only
    rw [ih (cursor + part.rawText.length + 1),
      @ih (start - cursor) (stop - cursor) (0 + part.rawText.length + 1)]
    simp only [Nat.sub_zero, Nat.sub_sub, Nat.zero_add, Nat.add_assoc]

theorem spanSourceRef_relocated (hpart : WellFormed part) {ref : SourceRef}
    (h : spanSourceRef rules part start stop = .ok ref) :
    ref.verificationState = .candidate ∧ ∃ base, blockSourceRef rules.citation part = .ok base ∧
      ref = relocated base ref.charStart ref.charEnd
        (slice part.rawText ref.charStart ref.charEnd) ref.offsets_ordered := by
  unfold spanSourceRef at h
  split at h
  · cases h
  · rename_i candidate hwinning
    obtain ⟨⟨charStart, charEnd⟩, -, h⟩ := bind_ok h
    replace h := rest_ok h
    obtain ⟨⟨⟩, hgeometry, h⟩ := bind_ok h
    split at h
    · cases h
      have hsource := hpart candidate hwinning
      refine ⟨rfl, ?_⟩
      unfold blockSourceRef
      rw [hwinning]
      dsimp only
      rw [if_neg (refuse_ok_iff.mp hgeometry), dif_pos hsource]
      refine ⟨_, rfl, ?_⟩
      rw [rawText_of_winning hwinning]
      rfl
    · cases h

section Normal

variable (hnfc : Canonical rules.text.nfc decompose)

include hnfc

theorem fragmentRef_expected (hpart : WellFormed part)
    (hfirst : Boundary decompose part.rawText.toList (normalizedText rules part).toList
      (min part.rawText.length first) (min (normalizedText rules part).length start))
    (hlast : Boundary decompose part.rawText.toList (normalizedText rules part).toList
      (min part.rawText.length last) (min (normalizedText rules part).length stop))
    (h : fragmentRef rules part start (min (normalizedText rules part).length stop) = .ok refs) :
    (∀ ref ∈ refs, ref.verificationState = .candidate) ∧
      expectedRef rules.citation part first (min part.rawText.length last) = .ok refs := by
  unfold expectedRef
  unfold fragmentRef at h
  split_ifs at h with hlt
  · obtain ⟨ref, href, h⟩ := bind_ok h
    cases pure_ok h
    obtain ⟨-, hoffsets⟩ := spanSourceRef_ok href
    obtain ⟨hstart, hstop⟩ := mapOffsets_ok hnfc hoffsets
    obtain ⟨hstate, base, hbase, hmoved⟩ := spanSourceRef_relocated hpart href
    have hraw : ref.charStart < ref.charEnd := by
      refine hstart.lt_of_lt hnfc.nonempty hstop hlt ?_
      exact Nat.min_le_left _ _
    have hend : ref.charEnd = min part.rawText.length last := hstop.unique hnfc.nonempty hlast
    have hbegin : ref.charStart = first := by
      have hle : start ≤ (normalizedText rules part).length := by omega
      rw [Nat.min_eq_right hle] at hfirst
      have hmin := hstart.unique hnfc.nonempty hfirst
      omega
    subst hbegin
    have hall : ∀ (stop : Nat) (h : ref.charStart ≤ stop), ref.charEnd = stop →
        relocated base ref.charStart stop (slice part.rawText ref.charStart stop) h = ref := by
      rintro stop h rfl
      exact hmoved.symm
    constructor
    · intro other hother
      rw [List.mem_singleton.mp hother]
      exact hstate
    · rw [dif_pos (hend ▸ hraw), hbase]
      exact congrArg (fun ref => Except.ok [ref]) (hall _ _ hend)
  · cases pure_ok h
    have hmin : min part.rawText.length last ≤ min part.rawText.length first := by
      refine hlast.le_of_le hnfc.nonempty hfirst (by omega) ?_
      exact Nat.min_le_left _ _
    rw [dif_neg (by omega)]
    exact ⟨fun ref href => absurd href List.not_mem_nil, rfl⟩

theorem boundary_front {index offset : Nat} {back : List Char} {back' : List Char}
    (h : Boundary decompose (part.rawText.toList ++ '\n' :: back)
      ((normalizedText rules part).toList ++ '\n' :: back') index offset)
    (hle : offset ≤ ((normalizedText rules part).toList ++ '\n' :: back').length) :
    Boundary decompose part.rawText.toList (normalizedText rules part).toList
        (min part.rawText.length index) (min (normalizedText rules part).length offset) ∧
      Boundary decompose back back' (index - (part.rawText.length + 1))
        (offset - ((normalizedText rules part).length + 1)) := by
  have hsame : Same decompose part.rawText.toList (normalizedText rules part).toList :=
    hnfc.same part.rawText
  have hraw : part.rawText.toList.length = part.rawText.length := String.length_toList
  have htext : (normalizedText rules part).toList.length = (normalizedText rules part).length :=
    String.length_toList
  rcases Nat.lt_or_ge (normalizedText rules part).length offset with hlt | hge
  · obtain ⟨hindex, hback⟩ := h.behind hnfc.nonempty hsame (htext ▸ hlt) hle
    rw [hraw] at hindex
    refine ⟨?_, hback⟩
    rw [Nat.min_eq_left (Nat.le_of_lt hindex), Nat.min_eq_left (Nat.le_of_lt hlt), ← hraw, ← htext]
    exact boundary_length hsame
  · have hfront := h.inFront hnfc.nonempty hsame (htext ▸ hge)
    have hindex := hfront.le
    rw [hraw] at hindex
    rw [Nat.min_eq_right hindex, Nat.min_eq_right hge]
    refine ⟨hfront, ?_⟩
    rw [Nat.sub_eq_zero_of_le (by omega), Nat.sub_eq_zero_of_le (by omega)]
    exact boundary_zero _ _ _

theorem expectedRefs_ok (hbreaks : Breaks rules.text.nfc)
    (hparts : ∀ part ∈ parts, WellFormed part) (hfirst : Boundary decompose (joinedRaw parts).toList
      (rules.text.nfc (joinedRaw parts)).toList first start)
    (hlast : Boundary decompose (joinedRaw parts).toList
      (rules.text.nfc (joinedRaw parts)).toList last stop)
    (hstart : start ≤ (rules.text.nfc (joinedRaw parts)).length)
    (hstop : stop ≤ (rules.text.nfc (joinedRaw parts)).length)
    (h : fragmentRefs rules start stop 0 parts = .ok refs) :
    (∀ ref ∈ refs, ref.verificationState = .candidate) ∧
      expectedRefs rules.citation first last 0 parts = .ok refs := by
  induction parts generalizing start stop first last refs with
  | nil =>
    cases h
    exact ⟨fun ref href => absurd href List.not_mem_nil, rfl⟩
  | cons part parts ih =>
    rw [List.forall_mem_cons] at hparts
    obtain ⟨here, hhere, h⟩ := bind_ok h
    obtain ⟨later, hlater, h⟩ := bind_ok h
    cases pure_ok h
    rw [Nat.zero_add, fragmentRefs_shift] at hlater
    have hsplit : (∀ index offset, Boundary decompose (joinedRaw (part :: parts)).toList
          (rules.text.nfc (joinedRaw (part :: parts))).toList index offset →
        offset ≤ (rules.text.nfc (joinedRaw (part :: parts))).length →
        Boundary decompose part.rawText.toList (normalizedText rules part).toList
          (min part.rawText.length index) (min (normalizedText rules part).length offset)) ∧
        ∃ rest, expectedRefs rules.citation (first - (part.rawText.length + 1))
          (last - (part.rawText.length + 1)) 0 parts = .ok rest ∧ rest = later ∧
          ∀ ref ∈ later, ref.verificationState = .candidate := by
      cases parts with
      | nil =>
        cases hlater
        constructor
        · intro index offset hboundary hle
          have hsingle : joinedRaw [part] = part.rawText := String.intercalate_singleton
          rw [hsingle] at hboundary hle
          have hindex := hboundary.le
          rw [String.length_toList] at hindex
          have hoffset : offset ≤ (normalizedText rules part).length := hle
          rw [Nat.min_eq_right hindex, Nat.min_eq_right hoffset]
          exact hboundary
        · exact ⟨[], rfl, rfl, fun ref href => absurd href List.not_mem_nil⟩
      | cons next parts =>
        have htext : rules.text.nfc (joinedRaw (part :: next :: parts)) =
            onLines (normalizedText rules part) (rules.text.nfc (joinedRaw (next :: parts))) := by
          rw [joinedRaw_cons]
          exact hbreaks.split part.rawText _ '\n' (.inr rfl)
        rw [htext] at hfirst hlast hstart hstop ⊢
        rw [joinedRaw_cons, toList_onLines, toList_onLines] at hfirst hlast ⊢
        rw [← String.length_toList, toList_onLines] at hstart hstop ⊢
        have hlength := length_onLines (normalizedText rules part)
          (rules.text.nfc (joinedRaw (next :: parts)))
        rw [← String.length_toList, toList_onLines] at hlength
        obtain ⟨hstate, hrest⟩ := ih hparts.2 (boundary_front hnfc hfirst hstart).2
          (boundary_front hnfc hlast hstop).2 (by omega) (by omega) hlater
        exact ⟨fun index offset hboundary hle => (boundary_front hnfc hboundary hle).1, later,
          hrest, rfl, hstate⟩
    obtain ⟨hfronts, rest, hrest, rfl, hstates⟩ := hsplit
    obtain ⟨hstate, hexpected⟩ := fragmentRef_expected hnfc hparts.1 (hfronts _ _ hfirst hstart)
      (hfronts _ _ hlast hstop) hhere
    constructor
    · intro ref href
      rcases List.mem_append.mp href with hin | hin
      · exact hstate ref hin
      · exact hstates ref hin
    · unfold expectedRefs
      simp only [Nat.sub_zero]
      rw [hexpected, Nat.zero_add, expectedRefs_shift, hrest]
      rfl

theorem expectedRef_words
    (h : expectedRef rules.citation part first (min part.rawText.length last) = .ok refs) :
    (refs.flatMap fun ref => wordsOf rules.text.nfc ref.quote) =
      wordsOf rules.text.nfc (slice part.rawText first last) := by
  unfold expectedRef at h
  split_ifs at h with hlt
  · obtain ⟨ref, -, h⟩ := bind_ok h
    cases pure_ok h
    rw [List.flatMap_singleton, ← slice_min part.rawText first last]
    rfl
  · cases pure_ok h
    rw [← slice_min part.rawText first last, slice_empty (not_lt.mp hlt), wordsOf_empty hnfc]
    rfl

theorem expectedRefs_words (hbreaks : Breaks rules.text.nfc)
    (h : expectedRefs rules.citation first last 0 parts = .ok refs) :
    (refs.flatMap fun ref => wordsOf rules.text.nfc ref.quote) =
      wordsOf rules.text.nfc (slice (joinedRaw parts) first last) := by
  induction parts generalizing first last refs with
  | nil =>
    cases h
    have hempty : slice (joinedRaw []) first last = "" := by
      rw [← slice_min]
      exact slice_empty (Nat.le_trans (Nat.min_le_left _ _) (Nat.zero_le _))
    rw [hempty, wordsOf_empty hnfc]
    rfl
  | cons part parts ih =>
    obtain ⟨here, hhere, h⟩ := bind_ok h
    obtain ⟨later, hlater, h⟩ := bind_ok h
    cases pure_ok h
    rw [Nat.zero_add, expectedRefs_shift] at hlater
    rw [Nat.sub_zero, Nat.sub_zero] at hhere
    rw [List.flatMap_append, expectedRef_words hnfc hhere]
    cases parts with
    | nil =>
      cases hlater
      have hsingle : joinedRaw [part] = part.rawText := String.intercalate_singleton
      rw [hsingle, List.flatMap_nil, List.append_nil]
    | cons next parts =>
      rw [ih hlater, joinedRaw_cons]
      rcases Nat.lt_or_ge part.rawText.length last with hlast | hlast
      · rcases Nat.lt_or_ge part.rawText.length first with hfirst | hfirst
        · have hempty : slice part.rawText first last = "" := by
            rw [← slice_min]
            exact slice_empty (by omega)
          rw [slice_back hfirst, hempty, wordsOf_empty hnfc, List.nil_append]
        · rw [slice_across hfirst hlast, ← slice_min part.rawText first last,
            Nat.min_eq_left (Nat.le_of_lt hlast), Nat.sub_eq_zero_of_le (by omega)]
          exact (wordsOf_append hbreaks (.inr rfl) _ _).symm
      · rw [slice_front hlast, Nat.sub_eq_zero_of_le (show last ≤ part.rawText.length + 1 by omega),
          slice_empty (Nat.zero_le _), wordsOf_empty hnfc, List.append_nil]

end Normal

theorem expectedRefs_sourceId {rules : CitationRules} {cursor : Nat}
    (h : expectedRefs rules first last cursor parts = .ok refs) :
    ∀ ref ∈ refs, ∃ part ∈ parts, ref.sourceId = part.sourceId := by
  induction parts generalizing cursor refs with
  | nil =>
    cases h
    exact fun ref href => absurd href List.not_mem_nil
  | cons part parts ih =>
    obtain ⟨here, hhere, h⟩ := bind_ok h
    obtain ⟨later, hlater, h⟩ := bind_ok h
    cases pure_ok h
    intro ref href
    rcases List.mem_append.mp href with hin | hin
    · unfold expectedRef at hhere
      split_ifs at hhere
      · obtain ⟨base, hbase, hhere⟩ := bind_ok hhere
        cases pure_ok hhere
        rw [List.mem_singleton.mp hin]
        exact ⟨part, List.mem_cons_self, (blockSourceRef_ok hbase).sourceId⟩
      · cases pure_ok hhere
        exact absurd hin List.not_mem_nil
    · obtain ⟨other, hother, hid⟩ := ih hlater ref hin
      exact ⟨other, List.mem_cons_of_mem _ hother, hid⟩

end Parts

/-! ### The check -/

def Unmistaken (nfc : String → String) (refs : List SourceRef) : Prop :=
  (refs.tail.Pairwise fun first second => copies nfc first second = false) ∨
    ∃ primary ∈ refs.head?, ∃ fragment ∈ refs.tail, copies nfc primary fragment = true

section Check

variable {rules : DiscoveryRules} {graph : CanonicalDocumentGraph} {decompose : Char → List Char}
  {primary : SourceRef} {fragments : List SourceRef}

structure Primary (rules : CitationRules) (graph : CanonicalDocumentGraph) (primary : SourceRef)
    (parts : List CanonicalBlock) : Prop where
  joined : ∃ joined, continuations graph = .ok joined ∧
    continuationFor joined primary.sourceId = some parts
  nonempty : parts ≠ []
  block : ∃ block base, blockOf graph.blocks primary.sourceId = some block ∧
    blockSourceRef rules block = .ok base ∧ primary.charStart < primary.charEnd ∧
    primary.charEnd ≤ block.rawText.length ∧
    asCandidate primary = relocated base primary.charStart primary.charEnd
      (slice block.rawText primary.charStart primary.charEnd) primary.offsets_ordered

variable {others : List SourceRef}

theorem matchesFragments_iff {rules : CitationRules} :
    matchesFragments rules graph primary others = .ok true ↔
      ∃ parts, Primary rules graph primary parts ∧
        expectedRefs rules primary.charStart primary.charEnd 0 parts =
          .ok (others.map asCandidate) := by
  unfold matchesFragments
  constructor
  · intro h
    obtain ⟨joined, hjoined, h⟩ := bind_ok h
    split at h
    · cases pure_ok h
    · cases pure_ok h
    · rename_i parts hnonempty hparts
      split at h
      · cases h
      · rename_i block hblock
        split at h
        · rename_i hrange
          obtain ⟨base, hbase, h⟩ := bind_ok h
          dsimp only at h
          split at h
          · cases pure_ok h
          · rename_i hprimary
            obtain ⟨expected, hexpected, h⟩ := bind_ok h
            have hsame := of_decide_eq_true (pure_ok h)
            refine ⟨parts, ⟨⟨joined, hjoined, hparts⟩, ?_, block, base, hblock,
              mapError_ok_iff.mp hbase, hrange.1, hrange.2, not_not.mp hprimary⟩, ?_⟩
            · rintro rfl
              exact hnonempty rfl
            · rw [hsame]
              exact mapError_ok_iff.mp hexpected
        · cases pure_ok h
  · rintro ⟨parts, ⟨⟨joined, hjoined, hparts⟩, hnonempty, block, base, hblock, hbase, hlt, hle, hsame⟩,
      hexpected⟩
    obtain ⟨part, rest, rfl⟩ := List.exists_cons_of_ne_nil hnonempty
    rw [hjoined]
    refine bind_ok_iff.mpr ⟨joined, rfl, ?_⟩
    rw [hparts, hblock]
    dsimp only
    rw [if_pos ⟨hlt, hle⟩]
    refine bind_ok_iff.mpr ⟨base, mapError_ok_iff.mpr hbase, ?_⟩
    rw [if_neg (not_not.mpr hsame)]
    refine bind_ok_iff.mpr ⟨_, mapError_ok_iff.mpr hexpected, ?_⟩
    rw [decide_eq_true rfl]
    rfl

theorem matchesFragments_length {rules : CitationRules} {others' : List SourceRef}
    (h : matchesFragments rules graph primary others = .ok true)
    (h' : matchesFragments rules graph primary others' = .ok true) :
    others.length = others'.length := by
  obtain ⟨parts, ⟨⟨joined, hjoined, hparts⟩, -, -⟩, hexpected⟩ := matchesFragments_iff.mp h
  obtain ⟨parts', ⟨⟨joined', hjoined', hparts'⟩, -, -⟩, hexpected'⟩ := matchesFragments_iff.mp h'
  rw [hjoined] at hjoined'
  cases hjoined'
  rw [hparts] at hparts'
  cases hparts'
  rw [hexpected] at hexpected'
  have hsame : others.map asCandidate = others'.map asCandidate := Except.ok.inj hexpected'
  simpa using congrArg List.length hsame

variable {nfc : String → String}

theorem copies_words {first second : SourceRef} (h : copies nfc first second = true) :
    wordsOf nfc first.quote = wordsOf nfc second.quote := by
  have hkey := (copies_iff.mp h).1
  unfold refKey at hkey
  simp only [Prod.mk.injEq] at hkey
  exact foldedText_eq_iff.mp hkey.2.2.2

theorem copies_self_of_copies {first second : SourceRef} (h : copies nfc first second = true) :
    copies nfc second second = true := by
  refine copies_iff.mpr ⟨rfl, overlaps_self.mpr fun hnone => ?_⟩
  have hoverlaps := (copies_iff.mp h).2
  rw [overlaps_comm] at hoverlaps
  unfold overlaps at hoverlaps
  rw [hnone] at hoverlaps
  cases hoverlaps

theorem blank_of_all {α β : Type} {words : α → List β} {fragments : List α} {fragment : α}
    (hmem : fragment ∈ fragments) (hall : (fragments.flatMap words).length = (words fragment).length) :
    ∀ other ∈ fragments, other = fragment ∨ words other = [] := by
  obtain ⟨front, back, rfl⟩ := List.append_of_mem hmem
  rw [List.flatMap_append, List.flatMap_cons, List.length_append, List.length_append] at hall
  have hfront : front.flatMap words = [] := List.length_eq_zero_iff.mp (by omega)
  have hback : back.flatMap words = [] := List.length_eq_zero_iff.mp (by omega)
  intro other hother
  rcases List.mem_append.mp hother with hin | hin
  · exact .inr (List.flatMap_eq_nil_iff.mp hfront other hin)
  · rcases List.mem_cons.mp hin with rfl | hin
    · exact .inl rfl
    · exact .inr (List.flatMap_eq_nil_iff.mp hback other hin)

theorem kept_words_iff (hnonempty : wordsOf nfc primary.quote ≠ [])
    (hwords : (fragments.flatMap fun ref => wordsOf nfc ref.quote) = wordsOf nfc primary.quote)
    (hids : ∀ fragment ∈ fragments, fragment.sourceId ≠ primary.sourceId) {kept : SourceRef}
    {rest : List SourceRef} (hkept : canonicalSourceRefs nfc (primary :: fragments) = kept :: rest)
    (hfirst : kept = primary ∨ copies nfc kept primary = true) :
    ((kept :: rest).flatMap fun ref => wordsOf nfc ref.quote) = wordsOf nfc primary.quote ↔
      ∃ fragment ∈ fragments, copies nfc primary fragment = true := by
  have hsame : wordsOf nfc kept.quote = wordsOf nfc primary.quote := by
    rcases hfirst with rfl | hcopies
    · rfl
    · exact copies_words hcopies
  have hrest : ((kept :: rest).flatMap fun ref => wordsOf nfc ref.quote) = wordsOf nfc primary.quote ↔
      ∀ ref ∈ rest, wordsOf nfc ref.quote = [] := by
    rw [List.flatMap_cons, hsame, List.append_right_eq_self, List.flatMap_eq_nil_iff]
  have hsubset : ∀ ref ∈ kept :: rest, ref = primary ∨ ref ∈ fragments := by
    intro ref href
    rw [← hkept] at href
    exact List.mem_cons.mp (Selection.select_subset href)
  have hpairwise : (kept :: rest).Pairwise fun first second => copies nfc first second = false := by
    rw [← hkept]
    exact Selection.select_pairwise copies_comm
  rw [List.pairwise_cons] at hpairwise
  rw [hrest]
  constructor
  · intro hblank
    obtain ⟨fragment, hfragment, hsome⟩ : ∃ fragment ∈ fragments, wordsOf nfc fragment.quote ≠ [] := by
      by_contra hnone
      push Not at hnone
      rw [← hwords] at hnonempty
      exact hnonempty (List.flatMap_eq_nil_iff.mpr hnone)
    obtain ⟨leader, hleader, hleads⟩ := @Selection.exists_selected _ _ _ (copies nfc) priority
      (primary :: fragments) _ (List.mem_cons_of_mem _ hfragment)
    have hleaderWords : wordsOf nfc leader.quote ≠ [] := by
      rcases hleads with rfl | hcopies
      · exact hsome
      · rw [copies_words hcopies]
        exact hsome
    have hkeptLeader : leader = kept := by
      change leader ∈ canonicalSourceRefs nfc (primary :: fragments) at hleader
      rw [hkept] at hleader
      rcases List.mem_cons.mp hleader with heq | hin
      · exact heq
      · exact absurd (hblank leader hin) hleaderWords
    subst hkeptLeader
    rcases hsubset leader List.mem_cons_self with rfl | hin
    · -- The span itself is kept, and the fragment is another reference.
      rcases hleads with rfl | hcopies
      · exact absurd rfl (hids leader hfragment)
      · exact ⟨fragment, hfragment, hcopies⟩
    · rcases hfirst with rfl | hcopies
      · exact absurd rfl (hids leader hin)
      · exact ⟨leader, hin, (copies_comm _ _).trans hcopies⟩
  · rintro ⟨fragment, hfragment, hcopies⟩ ref href
    have hall : (fragments.flatMap fun ref => wordsOf nfc ref.quote).length =
        (wordsOf nfc fragment.quote).length := by
      rw [hwords, copies_words hcopies]
    have hothers := blank_of_all hfragment hall
    have hfree := hpairwise.1 ref href
    rcases hsubset ref (List.mem_cons_of_mem _ href) with rfl | hin
    · -- The span is not kept beside a copy of itself.
      rcases hfirst with rfl | hcopy
      · rw [copies_self_of_copies ((copies_comm _ _).trans hcopies)] at hfree
        cases hfree
      · rw [hcopy] at hfree
        cases hfree
    · rcases hothers ref hin with rfl | hblank
      · rcases hsubset kept List.mem_cons_self with rfl | hkeptIn
        · rw [hcopies] at hfree
          cases hfree
        · rcases hothers kept hkeptIn with rfl | hblank
          · rw [copies_self_of_copies hcopies] at hfree
            cases hfree
          · rw [hsame] at hblank
            exact absurd hblank hnonempty
      · exact hblank

theorem claimQuoteMatchesSources_iff (hnfc : Canonical rules.text.nfc decompose)
    (hbreaks : Breaks rules.text.nfc) (hnonempty : wordsOf rules.text.nfc primary.quote ≠ [])
    (hwords : fragments ≠ [] → (fragments.flatMap fun ref => wordsOf rules.text.nfc ref.quote) =
      wordsOf rules.text.nfc primary.quote)
    (hids : ∀ fragment ∈ fragments, fragment.sourceId ≠ primary.sourceId)
    (hmatches : fragments ≠ [] →
      matchesFragments rules.citation graph primary fragments = .ok true) :
    claimQuoteMatchesSources rules graph primary.quote (primary :: fragments) = .ok true ↔
      Unmistaken rules.text.nfc (primary :: fragments) := by
  by_cases hpairwise : (primary :: fragments).Pairwise fun first second =>
      copies rules.text.nfc first second = false
  · have hwhole : canonicalSourceRefs rules.text.nfc (primary :: fragments) = primary :: fragments :=
      Selection.select_of_pairwise copies_comm hpairwise
    refine ⟨fun _ => .inl (List.pairwise_cons.mp hpairwise).2, fun _ => ?_⟩
    unfold claimQuoteMatchesSources
    rw [hwhole, if_neg fun h => Nat.lt_irrefl _ h.1]
    split_ifs with hjoined
    · rfl
    · cases fragments with
      | nil =>
        refine absurd ⟨List.cons_ne_nil _ _, ?_⟩ hjoined
        exact String.intercalate_singleton.symm
      | cons second others =>
        dsimp only
        rw [if_neg (not_not.mpr rfl)]
        exact hmatches (List.cons_ne_nil _ _)
  · have hsome : fragments ≠ [] := by
      rintro rfl
      exact hpairwise (List.pairwise_singleton _ _)
    have hlt : (canonicalSourceRefs rules.text.nfc (primary :: fragments)).length <
        (primary :: fragments).length := by
      refine Nat.lt_of_le_of_ne (Selection.length_select_le _ _ _) fun hlength => hpairwise ?_
      exact (Selection.length_select_eq_iff copies_comm).mp hlength
    obtain ⟨kept, rest, hkept, hfirst⟩ :=
      @Selection.select_cons _ _ _ (copies rules.text.nfc) priority primary fragments
    change canonicalSourceRefs rules.text.nfc (primary :: fragments) = kept :: rest at hkept
    have hiff := kept_words_iff hnonempty (hwords hsome) hids hkept hfirst
    have hfolded : foldedText rules.text.nfc primary.quote =
          foldedText rules.text.nfc (joinedQuotes (kept :: rest)) ↔
        ∃ fragment ∈ fragments, copies rules.text.nfc primary fragment = true := by
      rw [foldedText_eq_iff, wordsOf_joinedQuotes hnfc hbreaks, ← hiff, eq_comm]
    unfold claimQuoteMatchesSources Unmistaken
    dsimp only
    rw [hkept] at hlt ⊢
    constructor
    · intro h
      refine .inr ⟨primary, rfl, ?_⟩
      split_ifs at h with hdropped hjoined
      · exact hfolded.mp hdropped.2
      · exact hfolded.mp (congrArg _ hjoined.2)
      · -- The kept references would be fewer than the fragments that are expected.
        by_cases hown : kept = primary
        · subst hown
          cases rest with
          | nil => cases h
          | cons second others =>
            dsimp only at h
            rw [if_neg (not_not.mpr rfl)] at h
            have hlength := matchesFragments_length h (hmatches hsome)
            simp only [List.length_cons] at hlt hlength
            omega
        · have hin : kept ∈ canonicalSourceRefs rules.text.nfc (primary :: fragments) := by
            rw [hkept]
            exact List.mem_cons_self
          have hfragment := (List.mem_cons.mp (Selection.select_subset hin)).resolve_left hown
          exact ⟨kept, hfragment, (copies_comm _ _).trans (hfirst.resolve_left hown)⟩
    · intro h
      have hcopy : ∃ fragment ∈ fragments, copies rules.text.nfc primary fragment = true := by
        rcases h with hfree | ⟨leader, hleader, hfound⟩
        · by_contra hnone
          push Not at hnone
          refine hpairwise (List.pairwise_cons.mpr ⟨fun fragment hfragment => ?_, hfree⟩)
          exact Bool.eq_false_iff.mpr (hnone fragment hfragment)
        · cases hleader
          exact hfound
      rw [if_pos ⟨hlt, hfolded.mpr hcopy⟩]

end Check

end ProofOps.Application.Claims
