import ProofOps.Application.Claims.Coverage

/-!
# Normalized offsets

`source_ref` of a block, with the offsets of the NFC text that a reader reports.  An accepted
request stands at the one interval of the raw text that it can mean; where there is no such interval
the request is refused (`normalized_offsets`).
-/

namespace ProofOps.Application.Claims

open Foundation Foundation.Checked Foundation.CanonicalText Domain Evidence Ingest

def sourceRef (rules : DiscoveryRules) (block : CanonicalBlock) :
    Option Int → Option Int → Except PyError SourceRef
  | none, none => blockSourceRef rules.citation block
  | some start, some stop => do
    refuse (block.winning = none) (.valueError "conflicted candidate has no selected source")
    refuse (start < 0 ∨ (normalizedText rules block).length < stop)
      (.domainValidation "normalized offsets are out of range for raw_text")
    refuse (stop < start) (.domainValidation "normalized_char_end must be >= normalized_char_start")
    spanSourceRef rules block start.toNat stop.toNat
  | _, _ => .error
      (.domainValidation "normalized_char_start and normalized_char_end must be provided together")

structure Located (nfc : String → String) (raw : String) (start stop : Int) (first last : Nat) :
    Prop where
  range : 0 ≤ start ∧ start ≤ stop ∧ stop ≤ (nfc raw).length
  ordered : first ≤ last
  inside : last ≤ raw.length
  before : nfc (slice raw 0 first) = slice (nfc raw) 0 start.toNat
  quoted : nfc (slice raw first last) = slice (nfc raw) start.toNat stop.toNat
  after : nfc (slice raw last raw.length) = slice (nfc raw) stop.toNat (nfc raw).length

variable {first index last offset : Nat}

section Intervals

variable {nfc : String → String} {decompose : Char → List Char} {raw : String}

theorem findRawBoundary_halves (h : findRawBoundary nfc raw (nfc raw) offset = .ok index) :
    nfc (slice raw 0 index) = slice (nfc raw) 0 offset ∧
      nfc (slice raw index raw.length) = slice (nfc raw) offset (nfc raw).length := by
  unfold findRawBoundary at h
  dsimp only at h
  split at h
  · rename_i found hfound
    cases h
    have hhalves := List.find?_some hfound
    simpa only [decide_eq_true_eq] using hhalves
  · cases h

theorem flatMap_split (chars : List Char) (decompose : Char → List Char) (h : first ≤ last) :
    (chars.take last).flatMap decompose =
      (chars.take first).flatMap decompose ++ ((chars.take last).drop first).flatMap decompose := by
  have hsplit := List.take_append_drop first (chars.take last)
  rw [List.take_take, Nat.min_eq_left h] at hsplit
  rw [← List.flatMap_append, hsplit]

theorem Located.boundaries (hnfc : Canonical nfc decompose) {start stop : Int}
    (h : Located nfc raw start stop first last) :
    Boundary decompose raw.toList (nfc raw).toList first start.toNat ∧
      Boundary decompose raw.toList (nfc raw).toList last stop.toNat := by
  have hfront := hnfc.same (slice raw 0 first)
  rw [h.before, toList_slice, toList_slice, List.drop_zero, List.drop_zero] at hfront
  have hquoted := hnfc.same (slice raw first last)
  rw [h.quoted, toList_slice, toList_slice] at hquoted
  have hinside : last ≤ raw.toList.length := by
    exact h.inside
  have hordered : start.toNat ≤ stop.toNat := Int.toNat_le_toNat h.range.2.1
  refine ⟨⟨h.ordered.trans hinside, hfront⟩, hinside, ?_⟩
  unfold Same
  rw [flatMap_split raw.toList decompose h.ordered, flatMap_split (nfc raw).toList decompose hordered]
  exact List.Perm.append hfront hquoted

theorem Located.unique (hnfc : Canonical nfc decompose) {start stop : Int}
    {first' last' : Nat} (h : Located nfc raw start stop first last)
    (h' : Located nfc raw start stop first' last') : first = first' ∧ last = last' := by
  obtain ⟨hfirst, hlast⟩ := h.boundaries hnfc
  obtain ⟨hfirst', hlast'⟩ := h'.boundaries hnfc
  constructor
  · exact hfirst.unique hnfc.nonempty hfirst'
  · exact hlast.unique hnfc.nonempty hlast'

end Intervals

variable {start stop : Nat}

section References

variable {rules : DiscoveryRules} {decompose : Char → List Char} {block : CanonicalBlock}
  {nfc : String → String} {raw : String}

theorem mapOffsets_range {range : Nat × Nat} (h : mapOffsets nfc raw start stop = .ok range) :
    stop ≤ (nfc raw).length ∧ start ≤ stop ∧
      findRawBoundary nfc raw (nfc raw) start = .ok range.1 ∧
      findRawBoundary nfc raw (nfc raw) stop = .ok range.2 := by
  obtain ⟨⟨⟩, hlength, h⟩ := bind_ok h
  obtain ⟨⟨⟩, hordered, h⟩ := bind_ok h
  obtain ⟨rawStart, hstart, h⟩ := bind_ok h
  obtain ⟨rawStop, hstop, h⟩ := bind_ok h
  cases pure_ok h
  exact ⟨not_lt.mp (refuse_ok_iff.mp hlength), not_lt.mp (refuse_ok_iff.mp hordered), hstart, hstop⟩

theorem spanSourceRef_quoted {ref : SourceRef}
    (h : spanSourceRef rules block start stop = .ok ref) :
    rules.text.nfc (slice block.rawText ref.charStart ref.charEnd) =
      slice (normalizedText rules block) start stop := by
  unfold spanSourceRef at h
  split at h
  · cases h
  · rename_i candidate hwinning
    obtain ⟨⟨charStart, charEnd⟩, -, h⟩ := bind_ok h
    obtain ⟨⟨⟩, hquoted, h⟩ := bind_ok h
    replace h := rest_ok h
    split at h
    · cases h
      unfold normalizedText
      rw [rawText_of_winning hwinning]
      exact not_not.mp (refuse_ok_iff.mp hquoted)
    · cases h

theorem spanSourceRef_located (hnfc : Canonical rules.text.nfc decompose)
    {ref : SourceRef} (h : spanSourceRef rules block start stop = .ok ref) :
    Located rules.text.nfc block.rawText start stop ref.charStart ref.charEnd := by
  obtain ⟨-, hoffsets⟩ := spanSourceRef_ok h
  obtain ⟨hlength, hordered, hstart, hstop⟩ := mapOffsets_range hoffsets
  have hlast := findRawBoundary_ok hnfc hstop
  constructor
  · exact ⟨Int.natCast_nonneg _, Int.ofNat_le.mpr hordered, Int.ofNat_le.mpr hlength⟩
  · exact ref.offsets_ordered
  · rw [← String.length_toList]
    exact hlast.le
  · exact (findRawBoundary_halves hstart).1
  · exact spanSourceRef_quoted h
  · exact (findRawBoundary_halves hstop).2

/-- An accepted request is quoted from the one interval of the raw text that normalizes to it; a
request without such an interval is refused. -/
theorem normalized_offsets (hnfc : Canonical rules.text.nfc decompose) (block : CanonicalBlock)
    (start stop : Int) :
    (∀ ref, sourceRef rules block (some start) (some stop) = .ok ref →
      Located rules.text.nfc block.rawText start stop ref.charStart ref.charEnd ∧
        ref.quote = slice block.rawText ref.charStart ref.charEnd ∧
        ∀ first last, Located rules.text.nfc block.rawText start stop first last →
          first = ref.charStart ∧ last = ref.charEnd) ∧
      ((¬∃! place : Nat × Nat,
          Located rules.text.nfc block.rawText start stop place.1 place.2) →
        ∃ error, sourceRef rules block (some start) (some stop) = .error error) := by
  have haccepted : ∀ ref, sourceRef rules block (some start) (some stop) = .ok ref →
      Located rules.text.nfc block.rawText start stop ref.charStart ref.charEnd ∧
        ref.quote = slice block.rawText ref.charStart ref.charEnd := by
    intro ref h
    replace h := rest_ok h
    obtain ⟨⟨⟩, hrange, h⟩ := bind_ok h
    obtain ⟨⟨⟩, hordered, h⟩ := bind_ok h
    have hnonneg := refuse_ok_iff.mp hrange
    have hle := refuse_ok_iff.mp hordered
    have hlocated := spanSourceRef_located hnfc h
    rw [Int.toNat_of_nonneg (by omega), Int.toNat_of_nonneg (by omega)] at hlocated
    exact ⟨hlocated, (spanSourceRef_ok h).1.quote⟩
  constructor
  · intro ref h
    obtain ⟨hlocated, hquote⟩ := haccepted ref h
    exact ⟨hlocated, hquote, fun first last hother => hother.unique hnfc hlocated⟩
  · intro hnone
    cases hresult : sourceRef rules block (some start) (some stop) with
    | error error => exact ⟨error, rfl⟩
    | ok ref =>
      obtain ⟨hlocated, -⟩ := haccepted ref hresult
      refine absurd ⟨(ref.charStart, ref.charEnd), hlocated, ?_⟩ hnone
      rintro ⟨first, last⟩ hother
      obtain ⟨hfirst, hlast⟩ := hother.unique hnfc hlocated
      exact Prod.ext hfirst hlast

structure Cut (nfc : String → String) (raw : String) (index offset : Nat) : Prop where
  inside : index ≤ raw.length
  front : nfc (slice raw 0 index) = slice (nfc raw) 0 offset
  back : nfc (slice raw index raw.length) = slice (nfc raw) offset (nfc raw).length

structure Maps (nfc : String → String) (raw : String) (start stop first last : Nat) : Prop where
  ordered : start ≤ stop
  range : stop ≤ (nfc raw).length
  opening : Cut nfc raw first start
  closing : Cut nfc raw last stop
  quoted : nfc (slice raw first last) = slice (nfc raw) start stop

/-- A cut is a boundary. -/
theorem Cut.boundary (hnfc : Canonical nfc decompose) (h : Cut nfc raw index offset) :
    Boundary decompose raw.toList (nfc raw).toList index offset := by
  refine ⟨by rw [String.length_toList]; exact h.inside, ?_⟩
  have hfront := hnfc.same (slice raw 0 index)
  rw [h.front, toList_slice, toList_slice, List.drop_zero, List.drop_zero] at hfront
  exact hfront

theorem findRawBoundary_iff (hnfc : Canonical nfc decompose) :
    findRawBoundary nfc raw (nfc raw) offset = .ok index ↔ Cut nfc raw index offset := by
  constructor
  · intro h
    have hle := (findRawBoundary_ok hnfc h).le
    obtain ⟨hfront, hback⟩ := findRawBoundary_halves h
    exact ⟨hle, hfront, hback⟩
  · intro h
    cases hresult : findRawBoundary nfc raw (nfc raw) offset with
    | ok found =>
      have hsame := (h.boundary hnfc).unique hnfc.nonempty (findRawBoundary_ok hnfc hresult)
      rw [hsame]
    | error error =>
      unfold findRawBoundary at hresult
      dsimp only at hresult
      split at hresult
      · cases hresult
      · rename_i hnone
        have hnot := List.find?_eq_none.mp hnone index (List.mem_range.mpr (by have := h.inside; omega))
        exact absurd (decide_eq_true ⟨h.front, h.back⟩) hnot

theorem mapOffsets_iff (hnfc : Canonical nfc decompose) :
    mapOffsets nfc raw start stop = .ok (first, last) ↔
      start ≤ stop ∧ stop ≤ (nfc raw).length ∧ Cut nfc raw first start ∧ Cut nfc raw last stop := by
  constructor
  · intro h
    obtain ⟨hlength, hordered, hstart, hstop⟩ := mapOffsets_range h
    exact ⟨hordered, hlength, (findRawBoundary_iff hnfc).mp hstart,
      (findRawBoundary_iff hnfc).mp hstop⟩
  · rintro ⟨hordered, hlength, hfirst, hlast⟩
    refine bind_ok_iff.mpr ⟨⟨⟩, refuse_ok_iff.mpr (not_lt.mpr hlength), ?_⟩
    refine bind_ok_iff.mpr ⟨⟨⟩, refuse_ok_iff.mpr (not_lt.mpr hordered), ?_⟩
    refine bind_ok_iff.mpr ⟨first, (findRawBoundary_iff hnfc).mpr hfirst, ?_⟩
    exact bind_ok_iff.mpr ⟨last, (findRawBoundary_iff hnfc).mpr hlast, rfl⟩

/-- A mapped range is ordered. -/
theorem Maps.le (hnfc : Canonical nfc decompose) (h : Maps nfc raw start stop first last) :
    first ≤ last :=
  (h.opening.boundary hnfc).le_of_le hnfc.nonempty (h.closing.boundary hnfc) h.ordered
    (by rw [String.length_toList]; exact h.range)

variable {candidate : CandidateBlock}

theorem spanSourceRef_iff (hnfc : Canonical rules.text.nfc decompose)
    (hwinning : block.winning = some candidate) (hpage : 1 ≤ candidate.source.physicalPage) :
    (∃ ref, spanSourceRef rules block start stop = .ok ref ∧ ref.charStart = first ∧
      ref.charEnd = last) ↔
      candidate.hasInvalidGeometry = false ∧
        Maps rules.text.nfc block.rawText start stop first last := by
  have hraw : block.rawText = candidate.source.rawText := rawText_of_winning hwinning
  constructor
  · rintro ⟨ref, h, rfl, rfl⟩
    obtain ⟨-, hoffsets⟩ := spanSourceRef_ok h
    obtain ⟨hordered, hlength, hstart, hstop⟩ := (mapOffsets_iff hnfc).mp hoffsets
    refine ⟨?_, hordered, hlength, hstart, hstop, spanSourceRef_quoted h⟩
    unfold spanSourceRef at h
    rw [hwinning] at h
    obtain ⟨_, -, h⟩ := bind_ok h
    replace h := rest_ok h
    obtain ⟨⟨⟩, hgeometry, -⟩ := bind_ok h
    exact Bool.not_eq_true _ ▸ refuse_ok_iff.mp hgeometry
  · rintro ⟨hgeometry, h⟩
    have hmap : mapOffsets rules.text.nfc candidate.source.rawText start stop = .ok (first, last) := by
      rw [← hraw]
      exact (mapOffsets_iff hnfc).mpr ⟨h.ordered, h.range, h.opening, h.closing⟩
    unfold spanSourceRef
    rw [hwinning]
    dsimp only
    rw [hmap]
    refine ⟨_, bind_ok_iff.mpr ⟨_, rfl, bind_ok_iff.mpr ⟨⟨⟩, refuse_ok_iff.mpr ?_,
      bind_ok_iff.mpr ⟨⟨⟩, refuse_ok_iff.mpr ?_, dif_pos ⟨hpage, h.le hnfc⟩⟩⟩⟩, rfl, rfl⟩
    · rw [← hraw]
      exact not_not.mpr h.quoted
    · rw [hgeometry]
      exact Bool.false_ne_true

theorem sourceRef_iff (hnfc : Canonical rules.text.nfc decompose)
    (hwinning : block.winning = some candidate) (hgeometry : candidate.hasInvalidGeometry = false)
    (hpage : 1 ≤ candidate.source.physicalPage) :
    (∃ ref, sourceRef rules block (some start) (some stop) = .ok ref ∧ ref.charStart = first ∧
      ref.charEnd = last) ↔ Maps rules.text.nfc block.rawText start stop first last := by
  constructor
  · rintro ⟨ref, h, rfl, rfl⟩
    replace h := rest_ok h
    replace h := rest_ok h
    replace h := rest_ok h
    exact ((spanSourceRef_iff hnfc hwinning hpage).mp ⟨ref, h, rfl, rfl⟩).2
  · intro h
    obtain ⟨ref, href, hfirst, hlast⟩ := (spanSourceRef_iff hnfc hwinning hpage).mpr ⟨hgeometry, h⟩
    refine ⟨ref, bind_ok_iff.mpr ⟨⟨⟩, refuse_ok_iff.mpr ?_, bind_ok_iff.mpr ⟨⟨⟩, refuse_ok_iff.mpr ?_,
      bind_ok_iff.mpr ⟨⟨⟩, refuse_ok_iff.mpr ?_, ?_⟩⟩⟩, hfirst, hlast⟩
    · rw [hwinning]
      exact Option.some_ne_none _
    · have hrange := h.range
      unfold normalizedText
      omega
    · have hordered := h.ordered
      omega
    · rw [Int.toNat_natCast, Int.toNat_natCast]
      exact href

end References

namespace Sample

def composeAcute : List Char → List Char
  | [] => []
  | [c] => [c]
  | c :: mark :: rest =>
    if c = 'e' ∧ mark = '\u0301' then 'é' :: composeAcute rest
    else c :: composeAcute (mark :: rest)

def decomposeAcute (c : Char) : List Char :=
  if c = 'é' then ['e', '\u0301'] else [c]

theorem composeAcute_same (chars : List Char) :
    (composeAcute chars).flatMap decomposeAcute = chars.flatMap decomposeAcute := by
  induction chars using composeAcute.induct with
  | case1 => rfl
  | case2 c => rfl
  | case3 c mark rest h ih =>
    obtain ⟨rfl, rfl⟩ := h
    rw [composeAcute, if_pos ⟨rfl, rfl⟩, List.flatMap_cons, ih]
    rfl
  | case4 c mark rest h ih =>
    rw [composeAcute, if_neg h, List.flatMap_cons, ih]
    rfl

def accentedRules : DiscoveryRules :=
  { rules with text := { rules.text with nfc := fun raw => String.ofList (composeAcute raw.toList) } }

theorem accented_canonical : Canonical accentedRules.text.nfc decomposeAcute where
  same := by
    intro raw
    show Same decomposeAcute raw.toList (String.ofList (composeAcute raw.toList)).toList
    unfold Same
    rw [String.toList_ofList, composeAcute_same]
  nonempty := by
    intro c
    unfold decomposeAcute
    split_ifs
    · exact List.cons_ne_nil _ _
    · exact List.cons_ne_nil _ _
  space := by
    intro c
    rw [← List.all_eq_true]
    unfold decomposeAcute
    split_ifs with h
    · subst h
      decide
    · simp

def accentedBlock : CanonicalBlock where
  sourceId := "block"
  kind := .paragraph
  candidates := [candidate "first" "1" "Cafe\u0301 emissions fell."]
  independentFamilies := ["a"]
  quality := "verified"
  winner := some 0

end Sample

theorem normalized_offsets_accented : ∃ ref,
    sourceRef Sample.accentedRules Sample.accentedBlock (some 0) (some 4) = .ok ref ∧
      ref.charEnd = 5 ∧
      Located Sample.accentedRules.text.nfc Sample.accentedBlock.rawText 0 4 ref.charStart
        ref.charEnd := by
  have hrun : Returns (sourceRef Sample.accentedRules Sample.accentedBlock (some 0) (some 4))
      fun ref => ref.charEnd = 5 := by
    decide +kernel
  obtain ⟨ref, href, hend⟩ := hrun
  exact ⟨ref, href, hend,
    ((normalized_offsets Sample.accented_canonical Sample.accentedBlock 0 4).1 ref href).1⟩

end ProofOps.Application.Claims
