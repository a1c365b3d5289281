import ProofOps.Application.Claims.OffsetMapping
import ProofOps.Foundation.Words

/-!
# Citations are sound and stable

A verified reference quotes the winner of its block, and the block or a stored span of it stands on
its own.  A verified reference, and every part of it that is not blank, is verified again without a
change (`verifySourceRef_stable`).
-/

namespace ProofOps.Application.Evidence

open Foundation Foundation.PyText Foundation.Words Foundation.CanonicalText Domain Ingest

/-- `_LIGATURES`. -/
def ligature (c : Char) : List Char :=
  if c = '\uFB00' then ['f', 'f']
  else if c = '\uFB01' then ['f', 'i']
  else if c = '\uFB02' then ['f', 'l']
  else if c = '\uFB03' then ['f', 'f', 'i']
  else if c = '\uFB04' then ['f', 'f', 'l']
  else if c = '\uFB06' then ['s', 't']
  else [c]

def normalizedQuote (nfc : String → String) (text : String) : String :=
  let translated := String.ofList (text.toList.flatMap ligature)
  String.ofList ([' '].intercalate (pieces isSpace (nfc translated).toList))

def citationRules (sha256 nfc : String → String) : CitationRules where
  sha256 := sha256
  normalized := normalizedQuote nfc

theorem ligature_space (c : Char) :
    isSpace c = true ↔ ∀ part ∈ ligature c, isSpace part = true := by
  unfold ligature
  rw [← List.all_eq_true]
  split_ifs with h1 h2 h3 h4 h5 h6
  · subst h1; decide
  · subst h2; decide
  · subst h3; decide
  · subst h4; decide
  · subst h5; decide
  · subst h6; decide
  · simp

variable {decompose : Char → List Char}

theorem blank_of_same (hspace : ∀ c, isSpace c = true ↔ ∀ part ∈ decompose c, isSpace part = true)
    {first second : List Char} (h : Same decompose first second)
    (hblank : ∀ c ∈ second, isSpace c = true) : ∀ c ∈ first, isSpace c = true := by
  intro c hc
  rw [hspace]
  exact h.forall_parts (fun d hd => (hspace d).mp (hblank d hd)) c hc

theorem normalizedQuote_ne_empty {nfc : String → String}
    (hnfc : Claims.Canonical nfc decompose) {text : String} (h : nonBlank text = true) :
    normalizedQuote nfc text ≠ "" := by
  intro hempty
  have hjoined : [' '].intercalate
      (pieces isSpace (nfc (String.ofList (text.toList.flatMap ligature))).toList) = [] := by
    have hlist := congrArg String.toList hempty
    simpa [normalizedQuote] using hlist
  have hpieces : pieces isSpace (nfc (String.ofList (text.toList.flatMap ligature))).toList = [] := by
    cases hparts : pieces isSpace (nfc (String.ofList (text.toList.flatMap ligature))).toList with
    | nil => rfl
    | cons part parts =>
      have hne : part ≠ [] :=
        (isWord_of_mem_pieces (hparts ▸ List.mem_cons_self)).2
      rw [hparts] at hjoined
      cases parts with
      | nil =>
        rw [List.intercalate_singleton] at hjoined
        exact absurd hjoined hne
      | cons next parts =>
        rw [List.intercalate_cons_cons, List.append_assoc, List.append_eq_nil_iff] at hjoined
        exact absurd hjoined.1 hne
  have htranslated : ∀ c ∈ text.toList.flatMap ligature, isSpace c = true := by
    have hsame := hnfc.same (String.ofList (text.toList.flatMap ligature))
    rw [String.toList_ofList] at hsame
    exact blank_of_same hnfc.space hsame (pieces_eq_nil_iff.mp hpieces)
  have hblank : ∀ c ∈ text.toList, isSpace c = true := by
    intro c hc
    rw [ligature_space]
    exact fun part hpart => htranslated part (List.mem_flatMap.mpr ⟨c, hc, hpart⟩)
  obtain ⟨c, hc, hspace⟩ := List.any_eq_true.mp h
  rw [hblank c hc] at hspace
  cases hspace

/-! ### One verification -/

def partOf (ref : SourceRef) (raw : String) (first last : Nat) (h : first ≤ last) : SourceRef :=
  { ref with
    quote := slice raw first last
    charStart := first
    charEnd := last
    offsets_ordered := h }

def quoted (ref : SourceRef) (raw : String) : SourceRef :=
  { ref with
    quote := slice raw ref.charStart ref.charEnd
    verificationState := .verified }

variable {rules : CitationRules} {graph : CanonicalDocumentGraph} {ref : SourceRef}

theorem quoted_verified (ref : SourceRef) (raw : String) : isVerified (quoted ref raw) = true :=
  rfl

theorem rejected_not_verified (ref : SourceRef) :
    isVerified { ref with verificationState := .rejected } = false :=
  rfl

theorem verifyCitation_cases (rules : CitationRules) (graph : CanonicalDocumentGraph)
    (ref : SourceRef) :
    (∃ candidate, citedWinner graph ref = some candidate ∧
      citesWinner rules graph ref candidate = true ∧
      verifyCitation rules graph ref = quoted ref candidate.source.rawText) ∨
    verifyCitation rules graph ref = { ref with verificationState := .rejected } := by
  unfold verifyCitation
  cases hwinner : citedWinner graph ref with
  | none => exact .inr rfl
  | some candidate =>
    dsimp only
    split_ifs with hcites
    · exact .inl ⟨candidate, rfl, hcites, rfl⟩
    · exact .inr rfl

theorem verifyCitation_verified (h : isVerified (verifyCitation rules graph ref) = true) :
    ∃ candidate, citedWinner graph ref = some candidate ∧
      citesWinner rules graph ref candidate = true ∧
      verifyCitation rules graph ref = quoted ref candidate.source.rawText := by
  rcases verifyCitation_cases rules graph ref with hverified | hrejected
  · exact hverified
  · rw [hrejected, rejected_not_verified] at h
    cases h

variable {candidate : CandidateBlock}

theorem citedWinner_some (h : citedWinner graph ref = some candidate) :
    ∃ block, blockOf graph.blocks ref.sourceId = some block ∧ block.quality = "verified" ∧
      block.winning = some candidate := by
  unfold citedWinner at h
  split_ifs at h
  obtain ⟨block, hblock, hwinning⟩ := Option.bind_eq_some_iff.mp h
  split_ifs at hwinning with hquality
  exact ⟨block, hblock, hquality, hwinning⟩

structure Cites (rules : CitationRules) (graph : CanonicalDocumentGraph) (ref : SourceRef)
    (candidate : CandidateBlock) : Prop where
  batch : ∃ batch ∈ graph.candidates, batch.identity = graph.identity ∧ candidate ∈ batch.blocks
  page : candidate.source.physicalPage = ref.pageNum
  label : candidate.source.printedPageLabel = ref.printedPageLabel
  box : candidate.bbox = ref.bbox
  hash : rules.sha256 candidate.source.rawText = ref.rawTextSha256
  ordered : ref.charStart < ref.charEnd
  inside : ref.charEnd ≤ candidate.source.rawText.length
  nonempty : rules.normalized ref.quote ≠ ""
  same : rules.normalized ref.quote =
    rules.normalized (slice candidate.source.rawText ref.charStart ref.charEnd)

theorem citesWinner_spec (h : citesWinner rules graph ref candidate = true) :
    Cites rules graph ref candidate := by
  unfold citesWinner at h
  simp only [Bool.and_eq_true, beq_iff_eq, bne_iff_ne, decide_eq_true_eq, List.any_eq_true,
    List.contains_iff_mem] at h
  obtain ⟨⟨⟨⟨⟨⟨⟨⟨⟨⟨⟨batch, hbatch, ⟨hidentity, -⟩, hmem⟩, -⟩, -⟩, hpage⟩, hlabel⟩, hbox⟩, hhash⟩,
    hordered⟩, hinside⟩, hnonempty⟩, hsame⟩ := h
  exact ⟨⟨batch, hbatch, hidentity, hmem⟩, hpage, hlabel, hbox, hhash, hordered, hinside, hnonempty,
    hsame⟩

variable {first last : Nat}

theorem citesWinner_part (h : citesWinner rules graph ref candidate = true) (hlt : first < last)
    (hlast : last ≤ candidate.source.rawText.length)
    (hne : rules.normalized (slice candidate.source.rawText first last) ≠ "") :
    citesWinner rules graph (partOf (quoted ref candidate.source.rawText) candidate.source.rawText
      first last hlt.le) candidate = true := by
  unfold citesWinner at h ⊢
  simp only [Bool.and_eq_true, beq_iff_eq, bne_iff_ne, decide_eq_true_eq] at h ⊢
  obtain ⟨⟨⟨⟨h, -⟩, -⟩, -⟩, -⟩ := h
  exact ⟨⟨⟨⟨h, hlt⟩, hlast⟩, hne⟩, rfl⟩

theorem verifyCitation_part (hwinner : citedWinner graph ref = some candidate)
    (h : citesWinner rules graph ref candidate = true) (hlt : first < last)
    (hlast : last ≤ candidate.source.rawText.length)
    (hne : rules.normalized (slice candidate.source.rawText first last) ≠ "") :
    verifyCitation rules graph (partOf (quoted ref candidate.source.rawText)
        candidate.source.rawText first last hlt.le) =
      partOf (quoted ref candidate.source.rawText) candidate.source.rawText first last hlt.le := by
  have hpart : citedWinner graph (partOf (quoted ref candidate.source.rawText)
      candidate.source.rawText first last hlt.le) = some candidate := hwinner
  unfold verifyCitation
  rw [hpart]
  dsimp only
  rw [if_pos (citesWinner_part h hlt hlast hne)]
  rfl

variable {sourceId : String}

theorem blockOf_withVerified {promoted : CanonicalBlock}
    (h : blockOf (withVerified graph sourceId).blocks sourceId = some promoted) :
    ∃ block, blockOf graph.blocks sourceId = some block ∧ promoted.winning = block.winning := by
  unfold blockOf withVerified at h
  rw [List.find?_map] at h
  obtain ⟨block, hblock, rfl⟩ := Option.map_eq_some_iff.mp h
  have hsame : ((fun block : CanonicalBlock => decide (block.sourceId = sourceId)) ∘
      fun block : CanonicalBlock => if block.sourceId = sourceId then
        { block with quality := "verified" } else block) =
      fun block : CanonicalBlock => decide (block.sourceId = sourceId) := by
    funext block
    simp only [Function.comp_apply]
    split_ifs with hid
    · rw [hid]
    · rfl
  rw [hsame] at hblock
  refine ⟨block, hblock, ?_⟩
  split_ifs
  · rfl
  · rfl

theorem Cites.of_withVerified (h : Cites rules (withVerified graph sourceId) ref candidate) :
    Cites rules graph ref candidate where
  batch := h.batch
  page := h.page
  label := h.label
  box := h.box
  hash := h.hash
  ordered := h.ordered
  inside := h.inside
  nonempty := h.nonempty
  same := h.same

structure Attests (rules : CitationRules) (graph : CanonicalDocumentGraph) (ref span : SourceRef) :
    Prop where
  block : span.sourceId = ref.sourceId
  state : isVerified span = true
  start : span.charStart ≤ ref.charStart
  stop : ref.charEnd ≤ span.charEnd
  ordered : ref.charStart < ref.charEnd
  stands : isVerified (verifyCitation rules (withVerified graph ref.sourceId) span) = true

variable {span : SourceRef}

theorem attests_iff : attests rules graph ref span = true ↔ Attests rules graph ref span := by
  unfold attests
  simp only [Bool.and_eq_true, beq_iff_eq, decide_eq_true_eq]
  constructor
  · rintro ⟨⟨⟨⟨⟨hblock, hstate⟩, hstart⟩, hordered⟩, hstop⟩, hstands⟩
    exact ⟨hblock, hstate, hstart, hstop, hordered, hstands⟩
  · intro h
    exact ⟨⟨⟨⟨⟨h.block, h.state⟩, h.start⟩, h.ordered⟩, h.stop⟩, h.stands⟩

theorem Attests.part (h : Attests rules graph ref span) {raw : String} (hlt : first < last)
    (hfirst : ref.charStart ≤ first) (hlast : last ≤ ref.charEnd) :
    Attests rules graph (partOf (quoted ref raw) raw first last hlt.le) span where
  block := h.block
  state := h.state
  start := h.start.trans hfirst
  stop := hlast.trans h.stop
  ordered := hlt
  stands := h.stands

variable {original : OriginalGraph}

theorem verifySourceRef_of_verified
    (h : isVerified (verifyCitation rules original.graph ref) = true) :
    verifySourceRef rules original ref = verifyCitation rules original.graph ref := by
  unfold verifySourceRef
  cases original.verifiedSpans with
  | none => rfl
  | some spans => exact if_pos h

variable {block : CanonicalBlock} {spans : List SourceRef}

theorem verifySourceRef_of_attests (hspans : original.verifiedSpans = some spans)
    (hblock : blockOf original.graph.blocks ref.sourceId = some block)
    (hquality : block.quality = "unverified") (hmem : span ∈ spans)
    (hattests : Attests rules original.graph ref span) :
    verifySourceRef rules original ref =
      verifyCitation rules (withVerified original.graph ref.sourceId) ref := by
  have hnot : isVerified (verifyCitation rules original.graph ref) = false := by
    rw [Bool.eq_false_iff]
    intro hverified
    obtain ⟨candidate, hwinner, -, -⟩ := verifyCitation_verified hverified
    obtain ⟨other, hother, hother_quality, -⟩ := citedWinner_some hwinner
    rw [hblock] at hother
    cases hother
    rw [hquality] at hother_quality
    exact absurd hother_quality (by decide)
  have hany : spans.any (attests rules original.graph ref) = true :=
    List.any_eq_true.mpr ⟨span, hmem, attests_iff.mpr hattests⟩
  unfold verifySourceRef
  rw [hspans, hblock]
  dsimp only
  rw [if_neg (by rw [hnot]; exact Bool.false_ne_true), if_neg (not_not.mpr hquality), if_pos hany]

theorem verifySourceRef_cases (rules : CitationRules) (original : OriginalGraph) (ref : SourceRef) :
    (isVerified (verifyCitation rules original.graph ref) = true ∧
      verifySourceRef rules original ref = verifyCitation rules original.graph ref) ∨
    (∃ spans block span, original.verifiedSpans = some spans ∧
      blockOf original.graph.blocks ref.sourceId = some block ∧ block.quality = "unverified" ∧
      span ∈ spans ∧ Attests rules original.graph ref span ∧
      verifySourceRef rules original ref =
        verifyCitation rules (withVerified original.graph ref.sourceId) ref) ∨
    verifySourceRef rules original ref = { ref with verificationState := .rejected } := by
  rcases verifyCitation_cases rules original.graph ref with ⟨candidate, -, -, hquoted⟩ | hrejected
  · have hverified : isVerified (verifyCitation rules original.graph ref) = true := by
      rw [hquoted, quoted_verified]
    exact .inl ⟨hverified, verifySourceRef_of_verified hverified⟩
  · right
    unfold verifySourceRef
    rw [hrejected]
    cases hspans : original.verifiedSpans with
    | none => exact .inr rfl
    | some spans =>
      dsimp only
      rw [if_neg (by rw [rejected_not_verified]; exact Bool.false_ne_true)]
      cases hblock : blockOf original.graph.blocks ref.sourceId with
      | none => exact .inr rfl
      | some block =>
        dsimp only
        split_ifs with hquality hany
        · exact .inr rfl
        · obtain ⟨span, hmem, hattests⟩ := List.any_eq_true.mp hany
          exact .inl ⟨spans, block, span, rfl, rfl, not_not.mp hquality, hmem,
            attests_iff.mp hattests, rfl⟩
        · exact .inr rfl

/-! ### Soundness and stability -/

structure Vouched (rules : CitationRules) (original : OriginalGraph) (ref : SourceRef)
    (block : CanonicalBlock) (candidate : CandidateBlock) : Prop where
  block_found : blockOf original.graph.blocks ref.sourceId = some block
  winning : block.winning = some candidate
  cites : Cites rules original.graph ref candidate
  quoted : verifySourceRef rules original ref = quoted ref candidate.source.rawText
  standing : block.quality = "verified" ∨
    block.quality = "unverified" ∧ ∃ spans, original.verifiedSpans = some spans ∧
      ∃ span ∈ spans, span.sourceId = ref.sourceId ∧ span.charStart ≤ ref.charStart ∧
        ref.charEnd ≤ span.charEnd ∧ isVerified (verifySourceRef rules original span) = true

theorem Attests.span_verified (hspans : original.verifiedSpans = some spans)
    (hblock : blockOf original.graph.blocks ref.sourceId = some block)
    (hquality : block.quality = "unverified") (hmem : span ∈ spans)
    (h : Attests rules original.graph ref span) :
    isVerified (verifySourceRef rules original span) = true := by
  obtain ⟨candidate, -, hcites, -⟩ := verifyCitation_verified h.stands
  have hstands := h.stands
  have hself : Attests rules original.graph span span :=
    ⟨rfl, h.state, le_refl _, le_refl _, (citesWinner_spec hcites).ordered, h.block ▸ hstands⟩
  rw [verifySourceRef_of_attests hspans (h.block ▸ hblock) hquality hmem hself, h.block]
  exact hstands

/-- Every verified reference is vouched for. -/
theorem verifySourceRef_vouched (h : isVerified (verifySourceRef rules original ref) = true) :
    ∃ block candidate, Vouched rules original ref block candidate := by
  rcases verifySourceRef_cases rules original ref with ⟨hverified, hsame⟩ |
    ⟨spans, block, span, hspans, hblock, hquality, hmem, hattests, hsame⟩ | hrejected
  · obtain ⟨candidate, hwinner, hcites, hquoted⟩ := verifyCitation_verified hverified
    obtain ⟨block, hblock, hquality, hwinning⟩ := citedWinner_some hwinner
    exact ⟨block, candidate, hblock, hwinning, citesWinner_spec hcites, hsame.trans hquoted,
      .inl hquality⟩
  · rw [hsame] at h
    obtain ⟨candidate, hwinner, hcites, hquoted⟩ := verifyCitation_verified h
    obtain ⟨promoted, hpromoted, -, hwinning⟩ := citedWinner_some hwinner
    obtain ⟨other, hother, hsame_winning⟩ := blockOf_withVerified hpromoted
    rw [hblock] at hother
    cases hother
    refine ⟨block, candidate, hblock, hsame_winning ▸ hwinning, (citesWinner_spec hcites).of_withVerified,
      hsame.trans hquoted, .inr ⟨hquality, spans, hspans, span, hmem, hattests.block, hattests.start,
        hattests.stop, hattests.span_verified hspans hblock hquality hmem⟩⟩
  · rw [hrejected, rejected_not_verified] at h
    cases h

theorem citedWinner_boxed (h : citedWinner graph ref = some candidate) :
    ref.bbox.isSome = true := by
  unfold citedWinner at h
  split_ifs at h with hchecks
  exact hchecks.2.2.2.2

theorem verifySourceRef_boxed (h : isVerified (verifySourceRef rules original ref) = true) :
    ref.bbox.isSome = true := by
  have hboxed : ∀ graph, isVerified (verifyCitation rules graph ref) = true →
      ref.bbox.isSome = true := by
    intro graph hverified
    obtain ⟨candidate, hwinner, -, -⟩ := verifyCitation_verified hverified
    exact citedWinner_boxed hwinner
  rcases verifySourceRef_cases rules original ref with ⟨hverified, -⟩ |
    ⟨spans, block, span, -, -, -, -, -, hsame⟩ | hrejected
  · exact hboxed _ hverified
  · exact hboxed _ (hsame ▸ h)
  · rw [hrejected, rejected_not_verified] at h
    cases h

theorem verifySourceRef_part (h : Vouched rules original ref block candidate) (hlt : first < last)
    (hfirst : ref.charStart ≤ first) (hlast : last ≤ ref.charEnd)
    (hne : rules.normalized (slice candidate.source.rawText first last) ≠ "") :
    verifySourceRef rules original (partOf (quoted ref candidate.source.rawText)
        candidate.source.rawText first last hlt.le) =
      partOf (quoted ref candidate.source.rawText) candidate.source.rawText first last hlt.le := by
  have hinside : last ≤ candidate.source.rawText.length := hlast.trans h.cites.inside
  have hraw : ∀ other, block.winning = some other → other = candidate := by
    intro other hwinning
    rw [h.winning] at hwinning
    exact (Option.some.inj hwinning).symm
  rcases verifySourceRef_cases rules original ref with ⟨hverified, hsame⟩ |
    ⟨spans, found, span, hspans, hblock, hquality, hmem, hattests, hsame⟩ | hrejected
  · obtain ⟨other, hwinner, hcites, -⟩ := verifyCitation_verified hverified
    obtain ⟨found, hfound, -, hwinning⟩ := citedWinner_some hwinner
    have hblock := h.block_found
    rw [hfound] at hblock
    cases hblock
    cases hraw other hwinning
    have hpart := verifyCitation_part hwinner hcites hlt hinside hne
    rw [verifySourceRef_of_verified (by rw [hpart]; rfl), hpart]
  · have hverified : isVerified (verifyCitation rules (withVerified original.graph ref.sourceId) ref) =
        true := by
      rw [← hsame, h.quoted, quoted_verified]
    obtain ⟨other, hwinner, hcites, -⟩ := verifyCitation_verified hverified
    obtain ⟨promoted, hpromoted, -, hwinning⟩ := citedWinner_some hwinner
    obtain ⟨block', hblock', hsame_winning⟩ := blockOf_withVerified hpromoted
    have hfound := h.block_found
    rw [hblock'] at hfound
    cases hfound
    cases hraw other (hsame_winning ▸ hwinning)
    refine Eq.trans (verifySourceRef_of_attests hspans hblock hquality hmem ?_)
      (verifyCitation_part hwinner hcites hlt hinside hne)
    exact hattests.part hlt hfirst hlast
  · have hquoted := h.quoted
    rw [hrejected] at hquoted
    have hstate := congrArg SourceRef.verificationState hquoted
    cases hstate

/-- A verified reference is vouched for, and verifying it or any part of it that is not blank changes
nothing.  A rejected one differs in its state only. -/
theorem verifySourceRef_stable {nfc : String → String} {decompose : Char → List Char}
    (hnfc : Claims.Canonical nfc decompose) (sha256 : String → String) (original : OriginalGraph)
    (ref : SourceRef) :
    (isVerified (verifySourceRef (citationRules sha256 nfc) original ref) = true →
      ∃ block candidate, Vouched (citationRules sha256 nfc) original ref block candidate ∧
        verifySourceRef (citationRules sha256 nfc) original
            (verifySourceRef (citationRules sha256 nfc) original ref) =
          verifySourceRef (citationRules sha256 nfc) original ref ∧
        ∀ (first last : Nat) (hlt : first < last), ref.charStart ≤ first → last ≤ ref.charEnd →
          nonBlank (slice candidate.source.rawText first last) = true →
          verifySourceRef (citationRules sha256 nfc) original
              (partOf (verifySourceRef (citationRules sha256 nfc) original ref)
                candidate.source.rawText first last hlt.le) =
            partOf (verifySourceRef (citationRules sha256 nfc) original ref)
              candidate.source.rawText first last hlt.le) ∧
    (isVerified (verifySourceRef (citationRules sha256 nfc) original ref) = false →
      verifySourceRef (citationRules sha256 nfc) original ref =
        { ref with verificationState := .rejected }) := by
  constructor
  · intro hverified
    obtain ⟨block, candidate, hvouched⟩ := verifySourceRef_vouched hverified
    refine ⟨block, candidate, hvouched, ?_, ?_⟩
    · have hne : (citationRules sha256 nfc).normalized
          (slice candidate.source.rawText ref.charStart ref.charEnd) ≠ "" :=
        hvouched.cites.same ▸ hvouched.cites.nonempty
      rw [hvouched.quoted]
      exact verifySourceRef_part hvouched hvouched.cites.ordered (le_refl _) (le_refl _) hne
    · intro first last hlt hfirst hlast hblank
      rw [hvouched.quoted]
      exact verifySourceRef_part hvouched hlt hfirst hlast (normalizedQuote_ne_empty hnfc hblank)
  · intro hnot
    rcases verifySourceRef_cases (citationRules sha256 nfc) original ref with ⟨hverified, hsame⟩ |
      ⟨spans, block, span, -, -, -, -, -, hsame⟩ | hrejected
    · rw [hsame, hverified] at hnot
      cases hnot
    · rcases verifyCitation_cases (citationRules sha256 nfc)
        (withVerified original.graph ref.sourceId) ref with ⟨candidate, -, -, hquoted⟩ | hrejected
      · rw [hsame, hquoted, quoted_verified] at hnot
        cases hnot
      · exact hsame.trans hrejected
    · exact hrejected

namespace Sample

open Claims.Sample (side_pos)

def accentedText : CandidateBlock :=
  let plain := Claims.Sample.candidate "first" "1" "Cafe\u0301 emissions fell. More follows."
  { plain with source := { plain.source with nativeBbox := some ⟨0, 0, 2, 2, side_pos, side_pos⟩ } }

def attested (stop : Nat) : OriginalGraph where
  graph :=
    { Claims.Sample.graph with
      blocks := [⟨"block", .paragraph, [accentedText], ["a"], "unverified", some 0⟩]
      candidates := [
        { identity := Claims.Sample.graph.identity
          parserRunId := "first"
          parserName := "odl"
          parserFamily := "a"
          blocks := [accentedText]
          edges := []
          synthetic := false
          own_blocks := by simp [accentedText, Claims.Sample.candidate, Claims.Sample.graph]
          native_nodup := List.nodup_singleton _ }] }
  verifiedSpans := some [
    { sourceId := "block"
      documentVersionId := "document"
      parseManifestId := "manifest"
      pageNum := 1
      printedPageLabel := none
      bbox := accentedText.bbox
      rawTextSha256 := accentedText.source.rawText
      quote := slice accentedText.source.rawText 0 stop
      charStart := 0
      charEnd := stop
      locationQuality := .located
      verificationState := .verified
      page_pos := Nat.le_refl 1
      offsets_ordered := Nat.zero_le stop }]

def firstWord : SourceRef where
  sourceId := "block"
  documentVersionId := "document"
  parseManifestId := "manifest"
  pageNum := 1
  printedPageLabel := none
  bbox := accentedText.bbox
  rawTextSha256 := accentedText.source.rawText
  quote := "Café"
  charStart := 0
  charEnd := 5
  locationQuality := .located
  verificationState := .candidate
  page_pos := Nat.le_refl 1
  offsets_ordered := Nat.zero_le 5

end Sample

theorem verifySourceRef_stable_accented :
    isVerified (verifySourceRef (citationRules id Claims.Sample.accentedRules.text.nfc) (Sample.attested 21)
      Sample.firstWord) = true ∧
    verifySourceRef (citationRules id Claims.Sample.accentedRules.text.nfc) (Sample.attested 21)
        (verifySourceRef (citationRules id Claims.Sample.accentedRules.text.nfc) (Sample.attested 21)
          Sample.firstWord) =
      verifySourceRef (citationRules id Claims.Sample.accentedRules.text.nfc) (Sample.attested 21)
        Sample.firstWord := by
  have hverified : isVerified (verifySourceRef (citationRules id Claims.Sample.accentedRules.text.nfc)
      (Sample.attested 21) Sample.firstWord) = true := by
    decide +kernel
  obtain ⟨_, _, _, hagain, _⟩ :=
    (verifySourceRef_stable Claims.Sample.accented_canonical id (Sample.attested 21) Sample.firstWord).1
      hverified
  exact ⟨hverified, hagain⟩

end ProofOps.Application.Evidence
