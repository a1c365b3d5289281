import ProofOps.Application.Claims.Discovery
import ProofOps.Foundation.CanonicalText
import ProofOps.Foundation.Ranges

/-!
# The spans of one block

A boundary of the NFC text is found at one place of the raw text only.  The references of the
spans of a reply, and of what stands between them, therefore stand in the raw text from left to
right, and leave out nothing but white space.
-/

namespace ProofOps.Application.Claims

open Foundation Foundation.Checked Foundation.CanonicalText Foundation.Ranges Domain Evidence Ingest

structure Canonical (nfc : String → String) (decompose : Char → List Char) : Prop where
  same : ∀ raw : String, Same decompose raw.toList (nfc raw).toList
  nonempty : ∀ c, decompose c ≠ []
  space : ∀ c, PyText.isSpace c = true ↔ ∀ part ∈ decompose c, PyText.isSpace part = true

theorem toList_slice (text : String) (start stop : Nat) :
    (slice text start stop).toList = (text.toList.take stop).drop start := by
  unfold slice
  rw [String.toList_ofList, List.take_drop]
  rcases Nat.lt_or_ge stop start with hlt | hge
  · have hempty : (text.toList.take stop).drop start = [] := by
      rw [List.drop_eq_nil_iff, List.length_take]
      omega
    rw [hempty, List.drop_eq_nil_iff, List.length_take]
    omega
  · rw [Nat.add_sub_cancel' hge]

variable {start stop : Nat}

section Boundaries

variable {nfc : String → String} {decompose : Char → List Char}

theorem findRawBoundary_ok (hnfc : Canonical nfc decompose) {raw : String} {offset index : Nat}
    (h : findRawBoundary nfc raw (nfc raw) offset = .ok index) :
    Boundary decompose raw.toList (nfc raw).toList index offset := by
  unfold findRawBoundary at h
  dsimp only at h
  split at h
  · rename_i found hfound
    cases h
    have hrange := List.mem_range.mp (List.mem_of_find?_eq_some hfound)
    have hhalves := List.find?_some hfound
    simp only [decide_eq_true_eq] at hhalves
    refine ⟨by rw [String.length_toList]; omega, ?_⟩
    have hfront := hnfc.same (slice raw 0 index)
    rw [hhalves.1, toList_slice, toList_slice, List.drop_zero, List.drop_zero] at hfront
    exact hfront
  · cases h

theorem mapOffsets_ok (hnfc : Canonical nfc decompose) {raw : String}
    {range : Nat × Nat} (h : mapOffsets nfc raw start stop = .ok range) :
    Boundary decompose raw.toList (nfc raw).toList range.1 start ∧
      Boundary decompose raw.toList (nfc raw).toList range.2 stop := by
  replace h := rest_ok h
  replace h := rest_ok h
  obtain ⟨rawStart, hstart, h⟩ := bind_ok h
  obtain ⟨rawStop, hstop, h⟩ := bind_ok h
  cases pure_ok h
  exact ⟨findRawBoundary_ok hnfc hstart, findRawBoundary_ok hnfc hstop⟩

end Boundaries

structure Cites (block : CanonicalBlock) (ref : SourceRef) : Prop where
  sourceId : ref.sourceId = block.sourceId
  quote : ref.quote = slice block.rawText ref.charStart ref.charEnd

variable {block : CanonicalBlock}

theorem rawText_of_winning {candidate : CandidateBlock} (h : block.winning = some candidate) :
    block.rawText = candidate.source.rawText := by
  unfold CanonicalBlock.rawText
  rw [h]
  rfl

variable {ref : SourceRef}

theorem blockSourceRef_ok {rules : CitationRules} (h : blockSourceRef rules block = .ok ref) :
    Cites block ref := by
  unfold blockSourceRef at h
  split at h
  · cases h
  · rename_i candidate hwinning
    dsimp only at h
    split at h
    · cases h
    · split at h
      · cases h
        exact ⟨rfl, by rw [rawText_of_winning hwinning]⟩
      · cases h

variable {rules : DiscoveryRules}

theorem spanSourceRef_ok (h : spanSourceRef rules block start stop = .ok ref) :
    Cites block ref ∧
      mapOffsets rules.text.nfc block.rawText start stop = .ok (ref.charStart, ref.charEnd) := by
  unfold spanSourceRef at h
  split at h
  · cases h
  · rename_i candidate hwinning
    obtain ⟨⟨charStart, charEnd⟩, hoffsets, h⟩ := bind_ok h
    replace h := rest_ok h
    replace h := rest_ok h
    split at h
    · cases h
      rw [← rawText_of_winning hwinning] at hoffsets
      exact ⟨⟨rfl, by rw [rawText_of_winning hwinning]⟩, hoffsets⟩
    · cases h

variable {cursor : Nat}

theorem fragmentRefs_ok {parts : List CanonicalBlock} {refs : List SourceRef}
    (h : fragmentRefs rules start stop cursor parts = .ok refs) :
    ∀ ref ∈ refs, ∃ part ∈ parts, Cites part ref := by
  induction parts generalizing cursor refs with
  | nil =>
    cases h
    exact fun _ href => absurd href List.not_mem_nil
  | cons part parts ih =>
    obtain ⟨here, hhere, h⟩ := bind_ok h
    obtain ⟨later, hlater, h⟩ := bind_ok h
    cases pure_ok h
    intro ref href
    rcases List.mem_append.mp href with hin | hin
    · unfold fragmentRef at hhere
      split_ifs at hhere
      · obtain ⟨made, hmade, hhere⟩ := bind_ok hhere
        cases pure_ok hhere
        rw [List.mem_singleton.mp hin]
        exact ⟨part, List.mem_cons_self, (spanSourceRef_ok hmade).1⟩
      · cases pure_ok hhere
        exact absurd hin List.not_mem_nil
    · obtain ⟨other, hother, hcites⟩ := ih hlater ref hin
      exact ⟨other, List.mem_cons_of_mem _ hother, hcites⟩

/-! ### Entries -/

def rangeOf (ref : SourceRef) : Nat × Nat :=
  (ref.charStart, ref.charEnd)

/-- The references of an entry. -/
def Entry.refs : Entry → List SourceRef
  | .claim made => made.sourceRefs
  | .exclusion made => made.sourceRef.toList

@[simp]
theorem Entry.refs_claim (made : Claim) : (Entry.claim made).refs = made.sourceRefs :=
  rfl

@[simp]
theorem Entry.refs_exclusion (made : ClaimExclusion) :
    (Entry.exclusion made).refs = made.sourceRef.toList :=
  rfl

inductive Places (setting : Setting) (block : CanonicalBlock) (receipt : ExtractionReceipt)
    (ref : SourceRef) : Entry → Prop where
  | claim {claim : Claim} {fragments : List SourceRef} (refs : claim.sourceRefs = ref :: fragments)
      (parts : ∀ other ∈ fragments, ∃ part ∈ setting.partsOf block.sourceId, Cites part other)
      (quote : claim.quote = ref.quote) (id : claim.claimId = claimId setting ref receipt) :
      Places setting block receipt ref (.claim claim)
  | exclusion {exclusion : ClaimExclusion} (sourceId : exclusion.sourceId = block.sourceId)
      (sourceRef : exclusion.sourceRef = some ref) :
      Places setting block receipt ref (.exclusion exclusion)

theorem spanEntry_ok {setting : Setting} {receipt : ExtractionReceipt} {span : ExtractionSpan}
    {entry : Entry} (h : spanEntry setting block receipt span ref = .ok entry) :
    Places setting block receipt ref entry := by
  unfold spanEntry at h
  split_ifs at h
  · obtain ⟨fragments, hfragments, h⟩ := bind_ok h
    cases pure_ok h
    exact .claim rfl (fragmentRefs_ok (mapError_ok_iff.mp hfragments)) rfl rfl
  · cases pure_ok h
    exact .exclusion rfl rfl

variable {sourceId : String} {part : CanonicalBlock}

theorem Setting.mem_partsOf {setting : Setting}
    (h : part ∈ setting.partsOf sourceId) : ∃ group ∈ setting.joined, part ∈ group.2 := by
  unfold Setting.partsOf at h
  cases hgroup : setting.joined.find? fun group => group.1 = sourceId with
  | none =>
    rw [hgroup] at h
    exact absurd h List.not_mem_nil
  | some group =>
    rw [hgroup] at h
    exact ⟨group, List.mem_of_find?_eq_some hgroup, h⟩

theorem Setting.isFragment_of_mem (setting : Setting) {other : String}
    (hpart : part ∈ setting.partsOf sourceId) (hsame : part.sourceId = other) :
    setting.isFragment other = true := by
  obtain ⟨group, hgroup, hin⟩ := Setting.mem_partsOf hpart
  refine List.any_eq_true.mpr ⟨group, hgroup, ?_⟩
  exact List.any_eq_true.mpr ⟨part, hin, by simpa using hsame⟩

structure Placed (setting : Setting) (block : CanonicalBlock) (receipt : ExtractionReceipt)
    (skip : Nat → Prop) (start : Nat) (entries : List Entry) (refs : List SourceRef) : Prop where
  places : List.Forall₂ (Places setting block receipt) refs entries
  cites : ∀ ref ∈ refs, Cites block ref ∧ ref.charEnd ≤ block.rawText.length
  covers : Covers skip block.rawText.length start (refs.map rangeOf)

section Placed

variable {setting : Setting} {block : CanonicalBlock} {receipt : ExtractionReceipt}
  {skip : Nat → Prop} {entries : List Entry} {refs : List SourceRef}

/-- One more entry, behind a gap of skipped positions. -/
theorem Placed.cons {start : Nat} {entry : Entry} {ref : SourceRef}
    (h : Placed setting block receipt skip ref.charEnd entries refs)
    (hplace : Places setting block receipt ref entry)
    (hcites : Cites block ref ∧ ref.charEnd ≤ block.rawText.length)
    (hlt : ref.charStart < ref.charEnd) (hstart : start ≤ ref.charStart)
    (hgap : ∀ position, start ≤ position → position < ref.charStart → skip position) :
    Placed setting block receipt skip start (entry :: entries) (ref :: refs) where
  places := .cons hplace h.places
  cites := List.forall_mem_cons.mpr ⟨hcites, h.cites⟩
  covers := .cons hstart hgap hlt h.covers

end Placed

def Blank (raw : String) (position : Nat) : Prop :=
  ∀ c, raw.toList[position]? = some c → PyText.isSpace c = true

variable {low : Nat} {entries : List Entry}

section Spans

variable {decompose : Char → List Char} {setting : Setting} {block : CanonicalBlock}
  {receipt : ExtractionReceipt}

def Split (decompose : Char → List Char) (setting : Setting) (block : CanonicalBlock)
    (index offset : Nat) : Prop :=
  Boundary decompose block.rawText.toList (normalizedText setting.rules block).toList index offset

section Normal

variable (hnfc : Canonical setting.rules.text.nfc decompose)

include hnfc

theorem refOf_ok (h : refOf setting block start stop = .ok ref) :
    Cites block ref ∧ Split decompose setting block ref.charStart start ∧
      Split decompose setting block ref.charEnd stop := by
  obtain ⟨hcites, hoffsets⟩ := spanSourceRef_ok (mapError_ok_iff.mp h)
  exact ⟨hcites, mapOffsets_ok hnfc hoffsets⟩

theorem blank_between {high : Nat}
    (hlow : Split decompose setting block low start) (hhigh : Split decompose setting block high stop)
    (hraw : low ≤ high) (htext : start ≤ stop)
    (hblank : PyText.nonBlank (slice (normalizedText setting.rules block) start stop) = false) :
    ∀ position, low ≤ position → position < high → Blank block.rawText position := by
  have hparts : ∀ c ∈ ((normalizedText setting.rules block).toList.take stop).drop start,
      ∀ part ∈ decompose c, PyText.isSpace part = true := by
    intro c hc
    unfold PyText.nonBlank at hblank
    rw [toList_slice, List.any_eq_false] at hblank
    have hspace : PyText.isSpace c = true := by simpa using hblank c hc
    exact (hnfc.space c).mp hspace
  have hsame := hlow.between hhigh hraw htext
  intro position hstart hstop c hc
  have hget : ((block.rawText.toList.take high).drop low)[position - low]? = some c := by
    rw [List.getElem?_drop, Nat.add_sub_cancel' hstart, List.getElem?_take, if_pos hstop]
    exact hc
  exact (hnfc.space c).mpr (hsame.forall_parts hparts c (List.mem_of_getElem? hget))

theorem gapEntries_placed {high : Nat} {gap : List Entry} {refs : List SourceRef}
    (hlow : Split decompose setting block low cursor)
    (hhigh : Split decompose setting block high start) (hle : cursor ≤ start)
    (hlength : start ≤ (normalizedText setting.rules block).toList.length)
    (h : gapEntries setting block (normalizedText setting.rules block) cursor start = .ok gap)
    (hlater : Placed setting block receipt (Blank block.rawText) high entries refs) :
    ∃ refs, Placed setting block receipt (Blank block.rawText) low (gap ++ entries) refs := by
  have hraw : low ≤ high := hlow.le_of_le hnfc.nonempty hhigh hle hlength
  unfold gapEntries at h
  split_ifs at h with hnonblank
  · obtain ⟨ref, href, h⟩ := bind_ok h
    cases pure_ok h
    obtain ⟨hcites, hfirst, hlast⟩ := refOf_ok hnfc href
    have hlt : cursor < start := by
      -- An empty slice has nothing in it.
      rcases Nat.eq_or_lt_of_le hle with rfl | hlt
      · have hempty : (slice (normalizedText setting.rules block) cursor cursor).toList = [] := by
          rw [toList_slice, List.drop_eq_nil_iff, List.length_take]
          omega
        unfold PyText.nonBlank at hnonblank
        rw [hempty] at hnonblank
        cases hnonblank
      · exact hlt
    have hstart : ref.charStart = low := hfirst.unique hnfc.nonempty hlow
    have hstop : ref.charEnd = high := hlast.unique hnfc.nonempty hhigh
    have hbound : ref.charEnd ≤ block.rawText.length := by
      exact hlast.le
    rw [← hstop] at hlater
    have hnonempty := hfirst.lt_of_lt hnfc.nonempty hlast hlt hlength
    refine ⟨ref :: refs, hlater.cons (.exclusion rfl rfl) ⟨hcites, hbound⟩ hnonempty
      (Nat.le_of_eq hstart.symm) ?_⟩
    omega
  · cases pure_ok h
    rw [Bool.not_eq_true] at hnonblank
    have hblank := blank_between hnfc hlow hhigh hraw hle hnonblank
    exact ⟨refs, hlater.places, hlater.cites, hlater.covers.extend hraw hblank⟩

theorem accountSpans_placed
    {spans : List ExtractionSpan} (hlow : Split decompose setting block low cursor)
    (hlength : cursor ≤ (normalizedText setting.rules block).length)
    (hquotes : ∀ span ∈ spans, QuotesText (normalizedText setting.rules block) span)
    (hfirst : ∀ span ∈ spans.head?, cursor ≤ span.charStart)
    (hchain : spans.IsChain fun left right => left.charEnd ≤ right.charStart)
    (h : accountSpans setting block receipt (normalizedText setting.rules block) cursor
      (spans ++ [endSpan (normalizedText setting.rules block)]) = .ok entries) :
    ∃ refs, Placed setting block receipt (Blank block.rawText) low entries refs := by
  induction spans generalizing low cursor entries with
  | nil =>
    obtain ⟨gap, hgap, h⟩ := bind_ok h
    have hsentinel : (endSpan (normalizedText setting.rules block)).charStart =
        (endSpan (normalizedText setting.rules block)).charEnd := rfl
    rw [if_pos hsentinel] at h
    cases pure_ok h
    have hend : Split decompose setting block block.rawText.length
        (normalizedText setting.rules block).length := by
      exact boundary_length (hnfc.same block.rawText)
    have hnone : Placed setting block receipt (Blank block.rawText) block.rawText.length [] [] := by
      refine ⟨.nil, fun _ href => absurd href List.not_mem_nil, .nil fun position hge hlt => ?_⟩
      omega
    have hplaced := gapEntries_placed hnfc hlow hend hlength
      (Nat.le_of_eq String.length_toList.symm) hgap hnone
    rwa [List.append_nil] at hplaced
  | cons span spans ih =>
    rw [List.forall_mem_cons] at hquotes
    rw [List.isChain_cons] at hchain
    obtain ⟨hspan, hquotes⟩ := hquotes
    obtain ⟨gap, hgap, h⟩ := bind_ok h
    rw [if_neg (Nat.ne_of_lt hspan.nonempty)] at h
    obtain ⟨ref, href, h⟩ := bind_ok h
    obtain ⟨entry, hentry, h⟩ := bind_ok h
    obtain ⟨later, hlater, h⟩ := bind_ok h
    cases pure_ok h
    obtain ⟨hcites, hstart, hstop⟩ := refOf_ok hnfc href
    obtain ⟨refs, hrefs⟩ := ih hstop hspan.inside hquotes hchain.1 hchain.2 hlater
    have hstopLength : span.charEnd ≤ (normalizedText setting.rules block).toList.length := by
      exact hspan.inside
    have hlt : ref.charStart < ref.charEnd :=
      hstart.lt_of_lt hnfc.nonempty hstop hspan.nonempty hstopLength
    have hbound : ref.charEnd ≤ block.rawText.length := by
      exact hstop.le
    have hhere : Placed setting block receipt (Blank block.rawText) ref.charStart (entry :: later)
        (ref :: refs) := by
      refine hrefs.cons (spanEntry_ok hentry) ⟨hcites, hbound⟩ hlt (Nat.le_refl _) ?_
      omega
    have hnonempty := hspan.nonempty
    exact gapEntries_placed hnfc hlow hstart (hfirst span rfl) (by omega) hgap hhere

end Normal

end Spans

end ProofOps.Application.Claims
