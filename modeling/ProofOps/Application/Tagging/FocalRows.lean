import ProofOps.Application.Claims.NormalizedLines
import ProofOps.Application.Ingest.SentenceContext
import ProofOps.Application.Tagging.FocalCell

/-!
# One coordinate system

`sentence_context` hands offsets of the raw text on as offsets of the normalized text, and
`_focal_cell` compares rows of the normalized text with offsets into the raw text.  The context is
right where both texts have equally many canonical parts before the sentence, the row where the
offsets of the reference are in one row of either text (`one_coordinate_system`).
-/

namespace ProofOps.Application.Tagging.FocalCell

open Foundation Foundation.Checked Foundation.CanonicalText Foundation.RowSpans Domain Evidence
open Ingest Claims
open TableRows (Alphabet Row IsSpan grid graphCells gridProfile rowText)

variable {rules : DiscoveryRules} {alphabet : Alphabet} {decompose : Char → List Char}
  {graph : CanonicalDocumentGraph} {block : CanonicalBlock} {candidate : CandidateBlock}
  {ref : SourceRef} {row : Row}

/-! ### The rows of a table -/

def rowTexts (rules : DiscoveryRules) (graph : CanonicalDocumentGraph) (block : CanonicalBlock)
    (candidate : CandidateBlock) : Except PyError (List (List Char)) :=
  if originContext ∈ candidate.context ∧ gridProfile ∈ candidate.context then
    (grid (normalizedText rules block).toList (some (graphCells rules.text.nfc graph block))).map
      (List.map rowText)
  else .ok ((normalizedText rules block).toList.splitOn '\n')

theorem rowsOf_span (hwinning : block.winning = some candidate) {found : List Row}
    (h : rowsOf rules (tableRules rules alphabet) graph block candidate = .ok found)
    (hrow : row ∈ found) :
    ∃ texts, rowTexts rules graph block candidate = .ok texts ∧ IsSpan texts row ∧
      ['\n'].intercalate texts = (normalizedText rules block).toList := by
  have hlines : (¬(originContext ∈ candidate.context ∧ gridProfile ∈ candidate.context)) →
      ∀ {context : String} {rows : List Row}, row ∈ rows →
        TableRows.observations alphabet (normalizedText rules block) context = .ok rows →
          ∃ texts, rowTexts rules graph block candidate = .ok texts ∧ IsSpan texts row ∧
            ['\n'].intercalate texts = (normalizedText rules block).toList := by
    intro hgrid context rows hmem hread
    refine ⟨_, if_neg hgrid, TableRows.observations_span hread hmem, ?_⟩
    exact List.intercalate_splitOn '\n'
  unfold rowsOf at h
  split_ifs at h with horigin
  · simp only [tableRules, TableRows.observationsFor, hwinning, Option.map_some,
      Option.getD_some] at h
    split_ifs at h with hprofile
    · obtain ⟨rows, hrows, hspan⟩ := TableRows.gridObservations_span h hrow
      have hne := hspan.ne_nil
      rw [Ne, List.map_eq_nil_iff] at hne
      refine ⟨rows.map rowText, ?_, hspan, TableRows.grid_joins hrows hne⟩
      unfold rowTexts
      rw [if_pos ⟨horigin, hprofile⟩, hrows]
      rfl
    · exact hlines (fun hboth => hprofile hboth.2) hrow h
  · exact hlines (fun hboth => horigin hboth.1) hrow h

theorem selectedRow_iff {tables : TableRules} :
    selectedRow rules tables graph block ref = .ok (some row) ↔
      ∃ candidate, block.winning = some candidate ∧ block.kind = .table ∧
        "pb1_table_claims" ∈ candidate.context ∧
        ∃ rows, rowsOf rules tables graph block candidate = .ok rows ∧
          rows.find? (rowHolds ref) = some row := by
  unfold selectedRow
  cases hwinning : block.winning with
  | none => simp
  | some candidate =>
    simp only [Option.some.injEq, exists_eq_left']
    split_ifs with htable
    · simp [htable, map_ok_iff]
    · simp only [Except.ok.injEq, reduceCtorEq, false_iff]
      rintro ⟨hkind, hcontext, -⟩
      exact htable ⟨hkind, hcontext⟩

def ReadsAround (rules : DiscoveryRules) (alphabet : Alphabet) (graph : CanonicalDocumentGraph)
    (block : CanonicalBlock) (candidate : CandidateBlock) (ref : SourceRef) : Prop :=
  block.kind = .table ∧ "pb1_table_claims" ∈ candidate.context ∧
    ∃ rows, rowsOf rules (tableRules rules alphabet) graph block candidate = .ok rows ∧
      ∃ row ∈ rows, rowHolds ref row = true

/-! ### Rows around a reference -/

def Encloses (rules : DiscoveryRules) (block : CanonicalBlock) (ref : SourceRef) (row : Row) : Prop :=
  ∃ first last, Maps rules.text.nfc block.rawText row.start row.stop first last ∧
    first ≤ ref.charStart ∧ ref.charEnd ≤ last

def InOneRow (rules : DiscoveryRules) (block : CanonicalBlock) (texts : List (List Char))
    (offset : Nat) : Prop :=
  SameRow '\n' texts (breaksBefore '\n' block.rawText.toList offset)
    (breaksBefore '\n' (normalizedText rules block).toList offset)

instance (texts : List (List Char)) (offset : Nat) : Decidable (InOneRow rules block texts offset) :=
  inferInstanceAs (Decidable (SameRow _ _ _ _))

theorem inOneRow_lines_iff (hlines : KeepsLines rules.text.nfc) (offset : Nat) :
    InOneRow rules block ((normalizedText rules block).toList.splitOn '\n') offset ↔
      breaksBefore '\n' block.rawText.toList offset =
        breaksBefore '\n' (normalizedText rules block).toList offset := by
  have hplain : ∀ line ∈ (normalizedText rules block).toList.splitOn '\n', '\n' ∉ line :=
    fun line hline => TableRows.not_mem_splitOn hline
  have hcount := count_intercalate hplain (List.splitOn_ne_nil _ _)
  rw [List.intercalate_splitOn] at hcount
  have hraw : block.rawText.toList.count '\n' = (normalizedText rules block).toList.count '\n' :=
    (hlines.count_eq block.rawText).symm
  refine sameRow_iff_eq hplain ?_ ?_
  · have hle : breaksBefore '\n' block.rawText.toList offset ≤ block.rawText.toList.count '\n' :=
      breaksBefore_le
    omega
  · have hle : breaksBefore '\n' (normalizedText rules block).toList offset ≤
        (normalizedText rules block).toList.count '\n' := breaksBefore_le
    omega

/-- The row encloses the reference exactly when both ends of the reference are in one row of
either text. -/
theorem encloses_iff (hnfc : Canonical rules.text.nfc decompose)
    (hlines : KeepsLines rules.text.nfc) {texts : List (List Char)} (hspan : IsSpan texts row)
    (hjoin : ['\n'].intercalate texts = (normalizedText rules block).toList)
    (hholds : rowHolds ref row = true) (hstop : ref.charEnd ≤ block.rawText.toList.length) :
    Encloses rules block ref row ↔
      InOneRow rules block texts ref.charStart ∧ InOneRow rules block texts ref.charEnd := by
  obtain ⟨before, text, after, htexts, hrange⟩ := mem_spans_iff.mp hspan
  have htext : (rules.text.nfc block.rawText).toList =
      closed '\n' before ++ text ++ opened '\n' after := by
    rw [← intercalate_append, ← htexts]
    exact hjoin.symm
  obtain ⟨first, middle, last, hraw, hfirst, hlast, hopening, hclosing, hmaps⟩ :=
    hlines.row hnfc htext (endsRow_closed '\n' before) (beginsRow_opened '\n' after)
  rw [Nat.zero_add] at hrange
  obtain ⟨hstart, hend⟩ := Prod.mk.injEq .. ▸ hrange
  rw [← hend, ← hstart] at hmaps
  -- A row has one place in the raw text, and there it is around the reference by its lines.
  have hplace : Encloses rules block ref row ↔
      first.length ≤ ref.charStart ∧ ref.charEnd ≤ (first ++ middle).length := by
    rw [List.length_append]
    constructor
    · rintro ⟨first', last', hmaps', hinside⟩
      have hsame := (hmaps'.opening.boundary hnfc).unique hnfc.nonempty
        (hmaps.opening.boundary hnfc)
      have hsame' := (hmaps'.closing.boundary hnfc).unique hnfc.nonempty
        (hmaps.closing.boundary hnfc)
      rwa [hsame, hsame'] at hinside
    · exact fun hinside => ⟨_, _, hmaps, hinside⟩
  have hline : first.length ≤ ref.charStart ↔
      (closed '\n' before).count '\n' ≤ breaksBefore '\n' block.rawText.toList ref.charStart := by
    rw [← hopening, hraw, List.append_assoc]
    exact length_le_iff hfirst
  have hlastLine : ref.charEnd ≤ (first ++ middle).length ↔
      breaksBefore '\n' block.rawText.toList ref.charEnd ≤
        (closed '\n' before).count '\n' + text.count '\n' := by
    rw [← List.count_append, ← hclosing]
    rw [hraw] at hstop ⊢
    exact le_length_iff hlast hstop
  have hinRow : ∀ offset, row.start ≤ offset → offset ≤ row.stop →
      (closed '\n' before).count '\n' ≤
          breaksBefore '\n' (normalizedText rules block).toList offset ∧
        breaksBefore '\n' (normalizedText rules block).toList offset ≤
          (closed '\n' before).count '\n' + text.count '\n' := by
    intro offset hfrom hto
    have hparts : (normalizedText rules block).toList =
        closed '\n' before ++ text ++ opened '\n' after := htext
    constructor
    · rw [hparts, List.append_assoc]
      exact (length_le_iff (endsRow_closed '\n' before)).mp (hstart ▸ hfrom)
    · have hmono : breaksBefore '\n' (normalizedText rules block).toList offset ≤
          breaksBefore '\n' (normalizedText rules block).toList row.stop := breaksBefore_mono hto
      rwa [hend, ← List.length_append, hparts, breaksBefore_append, List.count_append, ← hparts]
        at hmono
  unfold rowHolds at hholds
  simp only [Bool.and_eq_true, decide_eq_true_eq] at hholds
  obtain ⟨⟨hfrom, horder⟩, hto⟩ := hholds
  have htotal : breaksBefore '\n' block.rawText.toList ref.charEnd ≤
      (['\n'].intercalate texts).count '\n' := by
    rw [hjoin]
    exact breaksBefore_le.trans (hlines.count_eq block.rawText).ge
  rw [hplace, hline, hlastLine]
  exact enclosed_iff_sameRow htexts (hinRow ref.charStart hfrom (by omega))
    (hinRow ref.charEnd (by omega) hto) (breaksBefore_mono (by omega)) htotal

/-- The context of a claim stands in the raw text of its reference exactly where the ends of the
sentence have as many canonical parts before them in the raw text as in the normalized text.  A row
that is selected for a verified reference is around it exactly where, as soon as a row that is read
has its offsets inside, each of them is in one row of the table in both texts. -/
theorem one_coordinate_system (hnfc : Canonical rules.text.nfc decompose) (alphabet : Alphabet)
    (original : OriginalGraph) :
    (∀ claim, (∀ context, SentenceContext.sentenceContext rules original claim = .ok (some context) →
        ∀ ref block, claim.sourceRefs = [ref] →
          blockOf original.graph.blocks ref.sourceId = some block →
            SentenceContext.InRawText ref block context) ↔
      ∀ ref block start stop,
        SentenceContext.Connected rules original claim ref block start stop →
          (∃ first last, Maps rules.text.nfc block.rawText start stop first last) →
            partsBefore decompose (rules.text.nfc block.rawText).toList start =
                partsBefore decompose block.rawText.toList start ∧
              partsBefore decompose (rules.text.nfc block.rawText).toList stop =
                partsBefore decompose block.rawText.toList stop) ∧
    (KeepsLines rules.text.nfc → ∀ ref block,
      isVerified (verifySourceRef rules.citation original ref) = true →
      blockOf original.graph.blocks ref.sourceId = some block →
        ((∀ row, selectedRow rules (tableRules rules alphabet) original.graph block ref =
              .ok (some row) → Encloses rules block ref row) ↔
          ∀ candidate texts, block.winning = some candidate →
            rowTexts rules original.graph block candidate = .ok texts →
              ReadsAround rules alphabet original.graph block candidate ref →
                InOneRow rules block texts ref.charStart ∧
                  InOneRow rules block texts ref.charEnd)) := by
  constructor
  · intro claim
    constructor
    · intro h ref block start stop hconnected
      refine (SentenceContext.context_inRawText_iff hnfc hconnected).mp fun context hcontext => ?_
      exact h context hcontext ref block hconnected.single hconnected.block_found
    · intro h context hcontext ref block hsingle hblock
      obtain ⟨ref', block', start, stop, hconnected, -, -⟩ :=
        SentenceContext.sentenceContext_some hcontext
      have hrefs := hconnected.single
      rw [hsingle] at hrefs
      cases hrefs
      have hfound := hconnected.block_found
      rw [hblock] at hfound
      cases hfound
      exact (SentenceContext.context_inRawText_iff hnfc hconnected).mpr
        (h ref block start stop hconnected) context hcontext
  · intro hlines ref block hverified hblock
    obtain ⟨-, -, -, -, -, hstop⟩ := SentenceContext.verified_inside hblock hverified
    constructor
    · rintro h candidate texts hwinning htexts ⟨hkind, hcontext, rows, hrows, hinside⟩
      obtain ⟨row, hfound⟩ := Option.isSome_iff_exists.mp (List.find?_isSome.mpr hinside)
      have hselected := selectedRow_iff.mpr ⟨candidate, hwinning, hkind, hcontext, rows, hrows, hfound⟩
      obtain ⟨texts', htexts', hspan, hjoin⟩ :=
        rowsOf_span hwinning hrows (List.mem_of_find?_eq_some hfound)
      rw [htexts] at htexts'
      cases htexts'
      exact (encloses_iff hnfc hlines hspan hjoin (List.find?_some hfound) hstop).mp (h row hselected)
    · intro h row hselected
      obtain ⟨candidate, hwinning, hkind, hcontext, rows, hrows, hfound⟩ :=
        selectedRow_iff.mp hselected
      have hmem := List.mem_of_find?_eq_some hfound
      obtain ⟨texts, htexts, hspan, hjoin⟩ := rowsOf_span hwinning hrows hmem
      refine (encloses_iff hnfc hlines hspan hjoin (List.find?_some hfound) hstop).mpr ?_
      exact h candidate texts hwinning htexts
        ⟨hkind, hcontext, rows, hrows, row, hmem, List.find?_some hfound⟩

namespace Sample

open Claims.Sample (side_pos accentedRules accented_canonical)

def boxedText (kind : Kind) (context : List String) (text : String) : CandidateBlock :=
  let plain := Claims.Sample.candidate "first" "1" text
  { plain with
    kind := kind
    context := context
    source := { plain.source with nativeBbox := some ⟨0, 0, 2, 2, side_pos, side_pos⟩ } }

def documentOf (kind : Kind) (context : List String) (text : String) : OriginalGraph where
  graph :=
    { Claims.Sample.graph with
      blocks := [⟨"block", kind, [boxedText kind context text], ["a"], "verified", some 0⟩]
      candidates := [
        { identity := Claims.Sample.graph.identity
          parserRunId := "first"
          parserName := "odl"
          parserFamily := "a"
          blocks := [boxedText kind context text]
          edges := []
          synthetic := false
          own_blocks := by simp [boxedText, Claims.Sample.candidate, Claims.Sample.graph]
          native_nodup := List.nodup_singleton _ }] }
  verifiedSpans := none

def refTo (kind : Kind) (context : List String) (text : String) (first last : Nat)
    (h : first ≤ last) : SourceRef where
  sourceId := "block"
  documentVersionId := "document"
  parseManifestId := "manifest"
  pageNum := 1
  printedPageLabel := none
  bbox := (boxedText kind context text).bbox
  rawTextSha256 := text
  quote := slice text first last
  charStart := first
  charEnd := last
  locationQuality := .located
  verificationState := .verified
  page_pos := Nat.zero_lt_one
  offsets_ordered := h

def claimOf (text : String) (first last : Nat) (h : first ≤ last) : Claim where
  claimId := "claim"
  tenantId := "tenant"
  documentVersionId := "document"
  parseManifestId := "manifest"
  sourceSha256 := "file"
  quote := slice text first last
  sourceRefs := [refTo .paragraph [] text first last h]
  sourceQuality := "verified"
  topicIds := []
  receipt :=
    { sourceId := "block"
      packetSha256 := "packet"
      responseSha256 := none
      rawResponseJson := none
      profile := Claims.Sample.extractor.profile
      status := .processed }
  revision := 1

variable (header : String)

/-- A table of two rows of energy data below a header. -/
def energyTable : String :=
  header ++ "\t단위\t2023\t2024\n에너지\tMWh\t1\t2\n에너지\tMWh\t3\t4"

def decomposedHeader : String :=
  String.ofList (List.replicate 12 ['e', '\u0301']).flatten

def energyRow (first last : Nat) (h : first ≤ last) : SourceRef :=
  refTo .table ["pb1_table_claims"] (energyTable header) first last h

def energyDocument : OriginalGraph :=
  documentOf .table ["pb1_table_claims"] (energyTable header)

def energyBlock : CanonicalBlock where
  sourceId := "block"
  kind := .table
  candidates := [boxedText .table ["pb1_table_claims"] (energyTable header)]
  independentFamilies := ["a"]
  quality := "verified"
  winner := some 0

def energyAlphabet : Alphabet where
  isDigit := Char.isDigit
  fold := Char.toLower

theorem composeAcute_break (back : List Char) :
    Claims.Sample.composeAcute ('\n' :: back) = '\n' :: Claims.Sample.composeAcute back := by
  cases back with
  | nil => rfl
  | cons mark rest => exact if_neg fun h => absurd h.1 (by decide)

theorem composeAcute_lines (front back : List Char) :
    Claims.Sample.composeAcute (front ++ '\n' :: back) =
      Claims.Sample.composeAcute front ++ '\n' :: Claims.Sample.composeAcute back := by
  induction front using Claims.Sample.composeAcute.induct with
  | case1 => exact composeAcute_break back
  | case2 c =>
    have hmark : ¬(c = 'e' ∧ '\n' = '\u0301') := fun h => absurd h.2 (by decide)
    have hstep : Claims.Sample.composeAcute (c :: '\n' :: back) =
        c :: Claims.Sample.composeAcute ('\n' :: back) := if_neg hmark
    rw [composeAcute_break] at hstep
    exact hstep
  | case3 c mark rest h ih =>
    rw [List.cons_append, List.cons_append, Claims.Sample.composeAcute, if_pos h, ih,
      Claims.Sample.composeAcute, if_pos h, List.cons_append]
  | case4 c mark rest h ih =>
    rw [List.cons_append, List.cons_append, Claims.Sample.composeAcute, if_neg h,
      ← List.cons_append, ih, Claims.Sample.composeAcute, if_neg h, List.cons_append]

theorem composeAcute_plain {chars : List Char} (h : '\n' ∉ chars) :
    '\n' ∉ Claims.Sample.composeAcute chars := by
  induction chars using Claims.Sample.composeAcute.induct with
  | case1 => exact h
  | case2 c => exact h
  | case3 c mark rest hacute ih =>
    rw [Claims.Sample.composeAcute, if_pos hacute, List.mem_cons, not_or]
    exact ⟨by decide, ih fun hmem => h (List.mem_cons_of_mem _ (List.mem_cons_of_mem _ hmem))⟩
  | case4 c mark rest hacute ih =>
    rw [Claims.Sample.composeAcute, if_neg hacute, List.mem_cons, not_or]
    exact ⟨fun heq => h (heq ▸ List.mem_cons_self), ih fun hmem => h (List.mem_cons_of_mem _ hmem)⟩

theorem accented_keepsLines : KeepsLines accentedRules.text.nfc where
  split := by
    intro front back
    rw [← String.toList_inj, toList_onLines]
    simp only [accentedRules, toList_onLines, composeAcute_lines, String.toList_ofList]
  plain := by
    intro text h
    simp only [accentedRules, String.toList_ofList]
    exact composeAcute_plain h

end Sample

theorem one_coordinate_system_composed :
    (∃ context, SentenceContext.sentenceContext Claims.Sample.accentedRules
        (Sample.documentOf .paragraph [] "Café. A하고 B. Tail.")
        (Sample.claimOf "Café. A하고 B. Tail." 10 12 (Nat.le_add_right 10 2)) = .ok (some context)) ∧
    (∀ context, SentenceContext.sentenceContext Claims.Sample.accentedRules
        (Sample.documentOf .paragraph [] "Café. A하고 B. Tail.")
        (Sample.claimOf "Café. A하고 B. Tail." 10 12 (Nat.le_add_right 10 2)) = .ok (some context) →
      ∀ ref block, [Sample.refTo .paragraph [] "Café. A하고 B. Tail." 10 12 (Nat.le_add_right 10 2)] =
          [ref] →
        blockOf (Sample.documentOf .paragraph [] "Café. A하고 B. Tail.").graph.blocks ref.sourceId =
            some block →
          SentenceContext.InRawText ref block context) ∧
    ∃ row, selectedRow Claims.Sample.accentedRules
        (tableRules Claims.Sample.accentedRules Sample.energyAlphabet)
        (Sample.energyDocument "éé").graph (Sample.energyBlock "éé")
        (Sample.energyRow "éé" 16 27 (Nat.le_add_right 16 11)) = .ok (some row) ∧
      Encloses Claims.Sample.accentedRules (Sample.energyBlock "éé")
        (Sample.energyRow "éé" 16 27 (Nat.le_add_right 16 11)) row := by
  refine ⟨?_, ?_, ⟨16, 27, 1, 3⟩, by decide +kernel, ?_⟩
  · have hrun : Returns (SentenceContext.sentenceContext Claims.Sample.accentedRules
        (Sample.documentOf .paragraph [] "Café. A하고 B. Tail.")
        (Sample.claimOf "Café. A하고 B. Tail." 10 12 (Nat.le_add_right 10 2)))
        fun found => found.isSome = true := by
      decide +kernel
    obtain ⟨found, hfound, hsome⟩ := hrun
    obtain ⟨context, rfl⟩ := Option.isSome_iff_exists.mp hsome
    exact ⟨context, hfound⟩
  · refine ((one_coordinate_system Claims.Sample.accented_canonical Sample.energyAlphabet
      (Sample.documentOf .paragraph [] "Café. A하고 B. Tail.")).1 _).mpr ?_
    intro ref block start stop hconnected _
    have hrefs : [Sample.refTo .paragraph [] "Café. A하고 B. Tail." 10 12 (Nat.le_add_right 10 2)] =
        [ref] := hconnected.single
    cases hrefs
    have hfound := hconnected.block_found
    cases hfound
    -- the text is its own normal form
    exact ⟨rfl, rfl⟩
  · refine ((one_coordinate_system Claims.Sample.accented_canonical Sample.energyAlphabet
      (Sample.energyDocument "éé")).2 Sample.accented_keepsLines _ _ (by decide +kernel)
        (by decide +kernel)).mpr ?_ _ (by decide +kernel)
    intro candidate texts _ _ _
    exact ⟨SameRow.refl _ _ _, SameRow.refl _ _ _⟩

theorem coordinates_mixed :
    (∃ context, SentenceContext.sentenceContext Claims.Sample.accentedRules
        (Sample.documentOf .paragraph [] "Cafe\u0301. A하고 B. Tail.")
        (Sample.claimOf "Cafe\u0301. A하고 B. Tail." 11 13 (Nat.le_add_right 11 2)) =
          .ok (some context) ∧ context.sourceRef.quote ≠ context.text) ∧
    isVerified (verifySourceRef Claims.Sample.accentedRules.citation
      (Sample.energyDocument Sample.decomposedHeader)
      (Sample.energyRow Sample.decomposedHeader 38 49 (Nat.le_add_right 38 11))) = true ∧
    blockOf (Sample.energyDocument Sample.decomposedHeader).graph.blocks "block" =
      some (Sample.energyBlock Sample.decomposedHeader) ∧
    ∃ row, selectedRow Claims.Sample.accentedRules
        (tableRules Claims.Sample.accentedRules Sample.energyAlphabet)
        (Sample.energyDocument Sample.decomposedHeader).graph
        (Sample.energyBlock Sample.decomposedHeader)
        (Sample.energyRow Sample.decomposedHeader 38 49 (Nat.le_add_right 38 11)) =
          .ok (some row) ∧
      ¬Encloses Claims.Sample.accentedRules (Sample.energyBlock Sample.decomposedHeader)
        (Sample.energyRow Sample.decomposedHeader 38 49 (Nat.le_add_right 38 11)) row := by
  refine ⟨?_, by decide +kernel, by decide +kernel, ⟨38, 49, 2, 3⟩, by decide +kernel, ?_⟩
  · have hrun : Returns (SentenceContext.sentenceContext Claims.Sample.accentedRules
        (Sample.documentOf .paragraph [] "Cafe\u0301. A하고 B. Tail.")
        (Sample.claimOf "Cafe\u0301. A하고 B. Tail." 11 13 (Nat.le_add_right 11 2)))
        fun found => ∃ context ∈ found, context.sourceRef.quote ≠ context.text := by
      decide +kernel
    obtain ⟨found, hfound, context, hcontext, hquote⟩ := hrun
    exact ⟨context, hcontext ▸ hfound, hquote⟩
  · -- The second row is around the first one's offsets, which are on the line before it.
    have hspan : IsSpan ((normalizedText Claims.Sample.accentedRules
        (Sample.energyBlock Sample.decomposedHeader)).toList.splitOn '\n') ⟨38, 49, 2, 3⟩ := by
      unfold IsSpan
      decide +kernel
    rw [encloses_iff Claims.Sample.accented_canonical Sample.accented_keepsLines hspan
      (List.intercalate_splitOn '\n') (by decide +kernel) (by decide +kernel),
      inOneRow_lines_iff Sample.accented_keepsLines]
    decide +kernel

end ProofOps.Application.Tagging.FocalCell
