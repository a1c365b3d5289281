import ProofOps.Application.Tagging.ElementInventory
import ProofOps.Foundation.Occurrences

/-!
# Lexical cues

`_cues` and the cover of cues in `assemble_inventory`.  The terms of a lexicon are searched in the
folded text of a span, and every numeric row is a cue by itself; a cue that no record of some
replica contains stays uncovered.

The offsets of a cue are offsets of the folded text.  They are those of the raw text up to the first
character whose folding is longer (`cue_located`).
-/

namespace ProofOps.Application.Tagging

open Foundation Foundation.Sorting Foundation.Packing Foundation.Occurrences Domain Evidence Ingest

/-! ### Cues -/

/-- `NUMERIC`. -/
def numericElements : List String :=
  ["P2", "P3", "P4", "G1", "G2", "G3", "G4", "G5", "G6"]

structure TextFolding where
  fold : Char → List Char
  isDigit : Char → Bool
  fold_ne_nil : ∀ c, fold c ≠ []

/-- `text.casefold()`. -/
def TextFolding.casefold (folding : TextFolding) (text : String) : List Char :=
  text.toList.flatMap folding.fold

structure Cue where
  (elementId sourceId : String)
  (charStart charEnd : Nat)
  deriving DecidableEq

def isTabular : Kind → Bool
  | .table | .tableCell | .tableRow | .figure => true
  | _ => false

def isRow (folding : TextFolding) (elementId : String) (kind : Kind) (text : List Char) : Bool :=
  numericElements.contains elementId && (isTabular kind || decide (2 ≤ runs folding.isDigit text))

def hits (folding : TextFolding) (kind : Kind) (text : List Char) (entry : String × List String) :
    List (Nat × Nat) :=
  (entry.2.flatMap fun term => occurrences (folding.casefold term) text) ++
    if isRow folding entry.1 kind text then [(0, text.length)] else []

def spanCues (folding : TextFolding) (lexicon : List (String × List String)) (span : InventorySpan) :
    List Cue :=
  let ref := span.sourceRef
  lexicon.flatMap fun entry =>
    (sortedBy toLex (hits folding span.kind (folding.casefold ref.quote) entry).dedup).map fun hit =>
      { elementId := entry.1
        sourceId := ref.sourceId
        charStart := ref.charStart + hit.1
        charEnd := ref.charStart + hit.2 }

/-- `_cues`. -/
def cues (folding : TextFolding) (lexicon : List (String × List String)) (chunk : InventoryChunk) :
    List Cue :=
  chunk.spans.flatMap (spanCues folding lexicon)

structure InventoryRecord where
  (elementId sourceId : String)
  (charStart charEnd : Nat)

def covers (record : InventoryRecord) (cue : Cue) : Bool :=
  record.elementId == cue.elementId && record.sourceId == cue.sourceId &&
    decide (record.charStart ≤ cue.charStart) && decide (cue.charStart < cue.charEnd) &&
    decide (cue.charEnd ≤ record.charEnd)

def uncoveredCues (folding : TextFolding) (lexicon : List (String × List String))
    (chunk : InventoryChunk) (records : Nat → List InventoryRecord) : List Cue :=
  (cues folding lexicon chunk).filter fun cue =>
    [1, 2, 3].any fun replica => !(records replica).any fun record => covers record cue

/-! ### Where the cues are -/

inductive CueOf (folding : TextFolding) (lexicon : List (String × List String))
    (span : InventorySpan) : Cue → Prop where
  | term {elementId : String} {terms : List String} {term : String} {range : Nat × Nat}
      (entry : (elementId, terms) ∈ lexicon) (mem : term ∈ terms) (ordered : range.1 ≤ range.2)
      (inside : range.2 ≤ (folding.casefold span.sourceRef.quote).length)
      (found : between (folding.casefold span.sourceRef.quote) range = folding.casefold term) :
      CueOf folding lexicon span
        ⟨elementId, span.sourceRef.sourceId, span.sourceRef.charStart + range.1,
          span.sourceRef.charStart + range.2⟩
  | row {elementId : String}
      (row : isRow folding elementId span.kind (folding.casefold span.sourceRef.quote) = true) :
      CueOf folding lexicon span
        ⟨elementId, span.sourceRef.sourceId, span.sourceRef.charStart,
          span.sourceRef.charStart + (folding.casefold span.sourceRef.quote).length⟩

def CitesTerm (folding : TextFolding) (lexicon : List (String × List String)) (block : CanonicalBlock)
    (span : InventorySpan) (cue : Cue) : Prop :=
  (∃ terms, (cue.elementId, terms) ∈ lexicon ∧ ∃ term ∈ terms,
      folding.casefold (slice block.rawText cue.charStart cue.charEnd) = folding.casefold term) ∨
    (isRow folding cue.elementId span.kind (folding.casefold span.sourceRef.quote) = true ∧
      cue.charStart = span.sourceRef.charStart ∧ cue.charEnd = span.sourceRef.charEnd)

structure Located (folding : TextFolding) (lexicon : List (String × List String))
    (block : CanonicalBlock) (span : InventorySpan) (cue : Cue) : Prop where
  inside : span.sourceRef.charStart ≤ cue.charStart ∧ cue.charStart ≤ cue.charEnd ∧
    cue.charEnd ≤ span.sourceRef.charEnd
  text : CitesTerm folding lexicon block span cue
  whole : cue.charStart < cue.charEnd →
    covers ⟨cue.elementId, cue.sourceId, span.sourceRef.charStart, span.sourceRef.charEnd⟩ cue = true
  elsewhere : ∀ record, covers record cue = true →
    (slice block.rawText cue.charStart cue.charEnd).toList <:+:
      (slice block.rawText record.charStart record.charEnd).toList

variable {cue : Cue} {range : Nat × Nat}

section Cues

variable {folding : TextFolding} {lexicon : List (String × List String)} {block : CanonicalBlock}
  {span : InventorySpan} {limit : Nat}

theorem mem_spanCues (h : cue ∈ spanCues folding lexicon span) :
    CueOf folding lexicon span cue := by
  obtain ⟨⟨elementId, terms⟩, hentry, h⟩ := List.mem_flatMap.mp h
  obtain ⟨hit, hhit, rfl⟩ := List.mem_map.mp h
  rw [mem_sortedBy, List.mem_dedup] at hhit
  rcases List.mem_append.mp hhit with hterm | hrow
  · obtain ⟨term, hmem, hoccurs⟩ := List.mem_flatMap.mp hterm
    obtain ⟨hordered, hinside, hfound⟩ := mem_occurrences hoccurs
    exact .term hentry hmem hordered hinside hfound
  · split_ifs at hrow with hisRow
    · cases List.mem_singleton.mp hrow
      exact .row hisRow
    · exact absurd hrow List.not_mem_nil

/-- The parts of a cover. -/
theorem covers_iff {record : InventoryRecord} :
    covers record cue = true ↔ record.elementId = cue.elementId ∧ record.sourceId = cue.sourceId ∧
      record.charStart ≤ cue.charStart ∧ cue.charStart < cue.charEnd ∧
      cue.charEnd ≤ record.charEnd := by
  unfold covers
  simp only [Bool.and_eq_true, beq_iff_eq, decide_eq_true_eq, and_assoc]

theorem slice_isInfix (text : String) {start stop first last : Nat} (hstart : start ≤ first)
    (hstop : last ≤ stop) :
    (slice text first last).toList <:+: (slice text start stop).toList := by
  rw [toList_slice_eq_between text (first, last), toList_slice_eq_between text (start, stop)]
  rw [between_eq_drop_take, between_eq_drop_take]
  have htake : text.toList.take last <+: text.toList.take stop := List.take_prefix_take_left hstop
  have hdrop : (text.toList.take last).drop first <:+ (text.toList.take last).drop start := by
    have hsplit : first = start + (first - start) := (Nat.add_sub_cancel' hstart).symm
    rw [hsplit, ← List.drop_drop]
    exact List.drop_suffix _ _
  exact hdrop.isInfix.trans (htake.drop start).isInfix

theorem SpanOf.quote_eq (hspan : SpanOf limit block span) :
    span.sourceRef.quote.toList =
      (block.rawText.toList.drop span.sourceRef.charStart).take
        (span.sourceRef.charEnd - span.sourceRef.charStart) := by
  rw [hspan.quote]
  exact toList_slice_eq_between _ (_, _)

theorem SpanOf.quote_length (hspan : SpanOf limit block span) :
    span.sourceRef.charStart + span.sourceRef.quote.toList.length = span.sourceRef.charEnd := by
  have hle := hspan.inside
  have hlt := hspan.nonempty
  rw [← String.length_toList] at hle
  rw [hspan.quote_eq, List.length_take, List.length_drop]
  omega

theorem SpanOf.slice_quote (hspan : SpanOf limit block span)
    (hrange : range.2 ≤ span.sourceRef.quote.toList.length) :
    (slice block.rawText (span.sourceRef.charStart + range.1)
      (span.sourceRef.charStart + range.2)).toList = between span.sourceRef.quote.toList range := by
  have hlength := hspan.quote_length
  rw [toList_slice_eq_between _ (_, _), hspan.quote_eq]
  unfold between
  rw [List.drop_take, List.take_take, List.drop_drop, Nat.add_sub_add_left, Nat.min_eq_left]
  omega

theorem casefold_slice (hspan : SpanOf limit block span) (hordered : range.1 ≤ range.2)
    (hinside : range.2 ≤ (folding.casefold span.sourceRef.quote).length)
    (hsteady : Steady folding.fold range.2 span.sourceRef.quote.toList) :
    range.2 ≤ span.sourceRef.quote.toList.length ∧
      folding.casefold (slice block.rawText (span.sourceRef.charStart + range.1)
        (span.sourceRef.charStart + range.2)) =
        between (folding.casefold span.sourceRef.quote) range := by
  obtain ⟨hle, hbetween⟩ := between_folded hordered hinside hsteady
  refine ⟨hle, ?_⟩
  unfold TextFolding.casefold
  rw [hspan.slice_quote hle, hbetween]

theorem casefold_length
    (hsteady : Steady folding.fold (folding.casefold span.sourceRef.quote).length
      span.sourceRef.quote.toList) :
    (folding.casefold span.sourceRef.quote).length = span.sourceRef.quote.toList.length := by
  have hle := hsteady.le_length (Nat.le_refl _)
  have hrest := (hsteady.split_folded hle).2
  change (folding.casefold span.sourceRef.quote).drop _ = _ at hrest
  rw [List.drop_length] at hrest
  -- What follows the steady front would be folded to something.
  have hnone : span.sourceRef.quote.toList.drop (folding.casefold span.sourceRef.quote).length = [] := by
    cases hdrop : span.sourceRef.quote.toList.drop (folding.casefold span.sourceRef.quote).length with
    | nil => rfl
    | cons c rest =>
      rw [hdrop, List.flatMap_cons] at hrest
      exact absurd (List.append_eq_nil_iff.mp hrest.symm).1 (folding.fold_ne_nil c)
  exact Nat.le_antisymm hle (List.drop_eq_nil_iff.mp hnone)

theorem located_of_inside
    (hinside : span.sourceRef.charStart ≤ cue.charStart ∧ cue.charStart ≤ cue.charEnd ∧
      cue.charEnd ≤ span.sourceRef.charEnd)
    (htext : CitesTerm folding lexicon block span cue) :
    Located folding lexicon block span cue where
  inside := hinside
  text := htext
  whole := fun hlt => covers_iff.mpr ⟨rfl, rfl, hinside.1, hlt, hinside.2.2⟩
  elsewhere := by
    intro record hcovers
    obtain ⟨-, -, hstart, -, hstop⟩ := covers_iff.mp hcovers
    exact slice_isInfix _ hstart hstop

theorem CueOf.located (hspan : SpanOf limit block span) (hkind : CueOf folding lexicon span cue)
    (h : Steady folding.fold (cue.charEnd - span.sourceRef.charStart) span.sourceRef.quote.toList) :
    Located folding lexicon block span cue := by
  have hlength := hspan.quote_length
  cases hkind with
  | @term elementId terms term range hentry hmem hordered hinside hfound =>
    rw [Nat.add_sub_cancel_left] at h
    obtain ⟨hle, hslice⟩ := casefold_slice hspan hordered hinside h
    refine located_of_inside ⟨Nat.le_add_right _ _, ?_, ?_⟩ (.inl ⟨terms, hentry, term, hmem, ?_⟩)
    · exact Nat.add_le_add_left hordered _
    · dsimp only
      omega
    · rw [hslice, hfound]
  | @row elementId hrow =>
    rw [Nat.add_sub_cancel_left] at h
    have hsame := casefold_length h
    refine located_of_inside ⟨Nat.le_refl _, Nat.le_add_right _ _, ?_⟩ (.inr ⟨hrow, rfl, ?_⟩)
    · dsimp only
      omega
    · dsimp only
      omega

/-- **Cues before the first longer folding are where they occur.**  Every cue is an occurrence of a
term in the folded text of its span, or a row; as long as each character before its end is folded to
one character, the raw text at its offsets is the term up to folding, or the whole span. -/
theorem cue_located (hspan : SpanOf limit block span) {cue : Cue}
    (hcue : cue ∈ spanCues folding lexicon span) :
    CueOf folding lexicon span cue ∧
      (Steady folding.fold (cue.charEnd - span.sourceRef.charStart) span.sourceRef.quote.toList →
        Located folding lexicon block span cue) :=
  ⟨mem_spanCues hcue, (mem_spanCues hcue).located hspan⟩

end Cues

namespace InventorySample

def folding : TextFolding where
  fold := fun c => if c = 'ß' then ['s', 's'] else [c.toLower]
  isDigit := Char.isDigit
  fold_ne_nil := by
    intro c
    split_ifs
    · exact List.cons_ne_nil _ _
    · exact List.cons_ne_nil _ _

theorem first_page : 1 ≤ 1 :=
  Nat.le_refl 1

theorem from_start (text : String) : 0 ≤ text.length :=
  Nat.zero_le text.length

def wholeSpan (text : String) : InventorySpan where
  sourceRef :=
    { sourceId := "block"
      documentVersionId := "document"
      parseManifestId := "manifest"
      pageNum := 1
      printedPageLabel := none
      bbox := none
      rawTextSha256 := text
      quote := text
      charStart := 0
      charEnd := text.length
      locationQuality := .located
      verificationState := .verified
      page_pos := first_page
      offsets_ordered := from_start text }
  kind := .paragraph

theorem wholeSpan_spanOf {text : String} (h : text ≠ "") :
    SpanOf text.utf8ByteSize (block "block" "1" text) (wholeSpan text) where
  sourceId := rfl
  nonempty := by
    exact List.length_pos_iff.mpr fun hnil => h (String.toList_inj.mp hnil)
  inside := Nat.le_refl _
  quote := by
    show text = slice text 0 text.length
    unfold slice
    rw [List.drop_zero, Nat.sub_zero, ← String.length_toList, List.take_length, String.ofList_toList]
  size := Nat.le_refl _

def lexicon : List (String × List String) :=
  [("G1", ["target", "deadline"])]

end InventorySample

theorem cue_located_target :
    Located InventorySample.folding InventorySample.lexicon
      (InventorySample.block "block" "1" "Our Target stands.")
      (InventorySample.wholeSpan "Our Target stands.") ⟨"G1", "block", 4, 10⟩ := by
  refine (cue_located (InventorySample.wholeSpan_spanOf (by decide)) ?_).2 ?_
  · decide +kernel
  · intro c hc
    have hall : ("Our Target stands.".toList.take 10).all
        fun c => (InventorySample.folding.fold c).length == 1 := by decide +kernel
    exact eq_of_beq (List.all_eq_true.mp hall c hc)

theorem cues_misplaced :
    (∃ cue ∈ spanCues InventorySample.folding InventorySample.lexicon
        (InventorySample.wholeSpan "From 1 to 2."),
      ∀ term ∈ ["target", "deadline"], InventorySample.folding.casefold
        (slice "From 1 to 2." cue.charStart cue.charEnd) ≠ InventorySample.folding.casefold term) ∧
      ∃ cue ∈ spanCues InventorySample.folding InventorySample.lexicon
          (InventorySample.wholeSpan "Maß: target"),
        "Maß: target".length < cue.charEnd ∧
          covers ⟨cue.elementId, cue.sourceId, 0, "Maß: target".length⟩ cue = false := by
  decide +kernel

end ProofOps.Application.Tagging
