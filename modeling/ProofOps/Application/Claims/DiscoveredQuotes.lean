import ProofOps.Application.Claims.JoinedQuotes

/-!
# Discovered claims and the quote check

Every claim of a discovery is a span of a block with the same span of the fragments of the block.  The
quote check accepts the claim with the references that it was stored with, unless it mistakes two
fragments for copies of one text (`discovered_accepted`).
-/

namespace ProofOps.Application.Claims

open Foundation Foundation.Checked Foundation.CanonicalText Foundation.Sorting Domain Evidence Ingest

variable {text : String} {claim : Claim} {visit : Visit} {spans : List ExtractionSpan}

section Discovery

variable {setting : Setting} {block : CanonicalBlock}

theorem validateSpan_nonBlank {rules : TextRules} {item : PyJson.Json}
    {span : ExtractionSpan} (h : validateSpan rules text item = .ok span) :
    PyText.nonBlank (slice text span.charStart span.charEnd) = true := by
  cases item with
  | obj fields =>
    replace h := rest_ok h
    obtain ⟨⟨start, stop, quote⟩, hoffsets, h⟩ := bind_ok h
    replace h := rest_ok h
    have hquote : PyText.nonBlank (slice text start stop) = true := by
      unfold checkOffsets at hoffsets
      split at hoffsets
      · dsimp only at hoffsets
        split_ifs at hoffsets
        split at hoffsets
        · split_ifs at hoffsets with hgiven
          cases hoffsets
          exact hgiven.2
        · cases hoffsets
      · cases hoffsets
    split at h
    · cases pure_ok h
      exact hquote
    · cases h
  | _ => cases h

theorem validated_nonBlank {rules : TextRules} {payload : PyJson.Json}
    (h : validateExtractionResponse rules payload text = .ok spans) :
    ∀ span ∈ spans, PyText.nonBlank (slice text span.charStart span.charEnd) = true := by
  unfold validateExtractionResponse at h
  split at h
  · replace h := rest_ok h
    split at h
    · obtain ⟨given, hgiven, h⟩ := bind_ok h
      replace h := rest_ok h
      cases pure_ok h
      intro span hspan
      obtain ⟨item, -, hitem⟩ := (mem_of_mapM_ok hgiven).mp (mem_sortedBy.mp hspan)
      exact validateSpan_nonBlank hitem
    · cases h
  · cases h

/-- How a claim was made from a span of its block. -/
structure MadeOf (setting : Setting) (block : CanonicalBlock) (claim : Claim) (start stop : Nat)
    (primary : SourceRef) (fragments : List SourceRef) : Prop where
  ordered : start < stop
  inside : stop ≤ (normalizedText setting.rules block).length
  nonBlank : PyText.nonBlank (slice (normalizedText setting.rules block) start stop) = true
  cited : spanSourceRef setting.rules block start stop = .ok primary
  cut : fragmentRefs setting.rules start stop 0 (setting.partsOf block.sourceId) = .ok fragments
  quote : claim.quote = primary.quote
  refs : claim.sourceRefs = primary :: fragments

theorem accountSpans_claim {receipt : ExtractionReceipt} {cursor : Nat} {entries : List Entry}
    (h : accountSpans setting block receipt text cursor spans = .ok entries)
    (hclaim : Entry.claim claim ∈ entries) :
    ∃ span ∈ spans, span.charStart ≠ span.charEnd ∧ ∃ ref,
      refOf setting block span.charStart span.charEnd = .ok ref ∧
        spanEntry setting block receipt span ref = .ok (.claim claim) := by
  induction spans generalizing cursor entries with
  | nil =>
    cases h
    exact absurd hclaim List.not_mem_nil
  | cons span spans ih =>
    obtain ⟨gap, hgap, h⟩ := bind_ok h
    have hnot : Entry.claim claim ∉ gap := by
      unfold gapEntries at hgap
      split_ifs at hgap
      · obtain ⟨ref, -, hgap⟩ := bind_ok hgap
        cases pure_ok hgap
        intro hin
        cases List.mem_singleton.mp hin
      · cases pure_ok hgap
        exact List.not_mem_nil
    split_ifs at h with hempty
    · cases pure_ok h
      exact absurd hclaim hnot
    · obtain ⟨ref, href, h⟩ := bind_ok h
      obtain ⟨entry, hentry, h⟩ := bind_ok h
      obtain ⟨later, hlater, h⟩ := bind_ok h
      cases pure_ok h
      rcases List.mem_cons.mp ((List.mem_append.mp hclaim).resolve_left hnot) with rfl | hin
      · exact ⟨span, List.mem_cons_self, hempty, ref, href, hentry⟩
      · obtain ⟨other, hother, hrest⟩ := ih hlater hin
        exact ⟨other, List.mem_cons_of_mem _ hother, hrest⟩

theorem failed_no_claim {reason : String}
    (h : failed setting block reason = .ok visit) : Entry.claim claim ∉ visit.entries := by
  obtain ⟨ref, -, h⟩ := bind_ok h
  cases h
  intro hin
  cases List.mem_singleton.mp hin

theorem leftOutInPlace_no_claim {reason state : String}
    (h : leftOutInPlace setting block reason state = .ok visit) :
    Entry.claim claim ∉ visit.entries := by
  obtain ⟨ref, -, h⟩ := bind_ok h
  cases pure_ok h
  intro hin
  cases List.mem_singleton.mp hin

theorem visitBlock_claim {extract : Packet → Reply}
    (h : visitBlock setting extract block = .ok visit) (hclaim : Entry.claim claim ∈ visit.entries) :
    setting.isFragment block.sourceId = false ∧ ∃ start stop primary fragments,
      MadeOf setting block claim start stop primary fragments := by
  unfold visitBlock at h
  split_ifs at h with hsubset hfragment hquality hwinning hblank
  · cases h
    cases List.mem_singleton.mp hclaim
  · exact absurd hclaim (leftOutInPlace_no_claim h)
  · cases h
    cases List.mem_singleton.mp hclaim
  · exact absurd hclaim (leftOutInPlace_no_claim h)
  · refine ⟨Bool.eq_false_iff.mpr hfragment, ?_⟩
    unfold visitText at h
    split at h
    · exact absurd hclaim (failed_no_claim h)
    · exact absurd hclaim (failed_no_claim h)
    · cases h
    · split at h
      · exact absurd hclaim (failed_no_claim h)
      · rename_i spans hspans
        obtain ⟨entries, hentries, h⟩ := bind_ok h
        cases h
        obtain ⟨span, hspan, hne, ref, href, hentry⟩ := accountSpans_claim hentries hclaim
        -- The empty span at the end of the text makes no claim.
        have hvalid : span ∈ spans := by
          rcases List.mem_append.mp hspan with hin | hin
          · exact hin
          · rw [List.mem_singleton.mp hin] at hne
            exact absurd rfl hne
        have hquotes := (validateExtractionResponse_ok hspans).1 span hvalid
        unfold spanEntry at hentry
        split_ifs at hentry
        · obtain ⟨fragments, hfragments, hentry⟩ := bind_ok hentry
          cases pure_ok hentry
          exact ⟨span.charStart, span.charEnd, ref, fragments, hquotes.nonempty, hquotes.inside,
            validated_nonBlank hspans span hvalid, mapError_ok_iff.mp href,
            mapError_ok_iff.mp hfragments, rfl, rfl⟩
        · cases pure_ok hentry

theorem visitBlocks_claim {extract : List Packet → Packet → Reply} {sent : List Packet}
    {blocks : List CanonicalBlock} {visits : List Visit}
    (h : visitBlocks setting extract sent blocks = .ok visits)
    (hclaim : Entry.claim claim ∈ visits.flatMap Visit.entries) :
    ∃ block ∈ blocks, setting.isFragment block.sourceId = false ∧ ∃ start stop primary fragments,
      MadeOf setting block claim start stop primary fragments := by
  induction blocks generalizing sent visits with
  | nil =>
    cases h
    exact absurd hclaim List.not_mem_nil
  | cons block blocks ih =>
    obtain ⟨visit, hvisit, h⟩ := bind_ok h
    obtain ⟨later, hlater, h⟩ := bind_ok h
    cases pure_ok h
    rcases List.mem_append.mp hclaim with hin | hin
    · exact ⟨block, List.mem_cons_self, visitBlock_claim hvisit hin⟩
    · obtain ⟨other, hother, hmade⟩ := ih hlater hin
      exact ⟨other, List.mem_cons_of_mem _ hother, hmade⟩

end Discovery

/-! ### Joined blocks of a graph -/

variable {group : Continuation}

section Joined

variable {graph : CanonicalDocumentGraph} {joined : List Continuation} {block : CanonicalBlock}

theorem continuations_group (h : continuations graph = .ok joined)
    (hgroup : group ∈ joined) : ∃ block ∈ graph.blocks, group.1 = block.sourceId ∧
      continuationParts graph block = .ok group.2 := by
  obtain ⟨groups, hgroups, h⟩ := bind_ok h
  cases pure_ok h
  rw [List.reduceOption_mem_iff] at hgroup
  obtain ⟨block, hblock, hjoins⟩ := (mem_of_mapM_ok hgroups).mp hgroup
  obtain ⟨joins, -, hjoins⟩ := bind_ok hjoins
  cases joins with
  | false => cases pure_ok hjoins
  | true =>
    obtain ⟨parts, hparts, hjoins⟩ := bind_ok hjoins
    cases pure_ok hjoins
    exact ⟨block, hblock, rfl, hparts⟩

theorem continuationParts_joined {parts : List CanonicalBlock}
    (h : continuationParts graph block = .ok parts) :
    parts ≠ [] ∧ joinedRaw parts = block.rawText := by
  obtain ⟨targets, -, h⟩ := bind_ok h
  obtain ⟨checked, -, h⟩ := bind_ok h
  obtain ⟨⟨⟩, hlength, h⟩ := bind_ok h
  replace h := rest_ok h
  obtain ⟨⟨⟩, htext, h⟩ := bind_ok h
  cases pure_ok h
  constructor
  · intro hempty
    rw [refuse_ok_iff, hempty] at hlength
    exact hlength (by decide)
  · exact not_not.mp (refuse_ok_iff.mp htext)

theorem block_unique (hdistinct : blocksDistinct graph) {other : CanonicalBlock}
    (hblock : block ∈ graph.blocks) (hother : other ∈ graph.blocks)
    (h : block.sourceId = other.sourceId) : block = other :=
  List.inj_on_of_nodup_map hdistinct hblock hother h

theorem blockOf_mem (hdistinct : blocksDistinct graph) (hblock : block ∈ graph.blocks) :
    blockOf graph.blocks block.sourceId = some block := by
  unfold blockOf
  cases hfound : graph.blocks.find? fun other => other.sourceId = block.sourceId with
  | none =>
    have hnone := List.find?_eq_none.mp hfound block hblock
    exact absurd (decide_eq_true rfl) hnone
  | some found =>
    have hid := List.find?_some hfound
    rw [decide_eq_true_iff] at hid
    rw [block_unique hdistinct (List.mem_of_find?_eq_some hfound) hblock hid]

theorem continuationFor_mem (hdistinct : blocksDistinct graph) (h : continuations graph = .ok joined)
    (hblock : block ∈ graph.blocks) (hgroup : group ∈ joined) (hid : group.1 = block.sourceId) :
    continuationParts graph block = .ok group.2 ∧
      continuationFor joined block.sourceId = some group.2 := by
  have hparts : ∀ other ∈ joined, other.1 = block.sourceId →
      continuationParts graph block = .ok other.2 := by
    intro other hother hname
    obtain ⟨owner, howner, hid', hparts⟩ := continuations_group h hother
    rw [block_unique hdistinct hblock howner (hname.symm.trans hid')]
    exact hparts
  refine ⟨hparts group hgroup hid, ?_⟩
  unfold continuationFor
  cases hfound : joined.reverse.find? fun other => other.1 = block.sourceId with
  | none =>
    have hnone := List.find?_eq_none.mp hfound group (List.mem_reverse.mpr hgroup)
    exact absurd (decide_eq_true hid) hnone
  | some found =>
    have hname := List.find?_some hfound
    rw [decide_eq_true_iff] at hname
    have hsame := hparts found (List.mem_reverse.mp (List.mem_of_find?_eq_some hfound)) hname
    rw [hparts group hgroup hid] at hsame
    rw [Except.ok.inj hsame]
    rfl

end Joined

variable {primary : SourceRef}

section Accepted

variable {rules : DiscoveryRules} {graph : CanonicalDocumentGraph} {decompose : Char → List Char}
  {block : CanonicalBlock}

theorem wordsOf_quote {start stop : Nat}
    (hcited : spanSourceRef rules block start stop = .ok primary)
    (hnonblank : PyText.nonBlank (slice (normalizedText rules block) start stop) = true) :
    wordsOf rules.text.nfc primary.quote ≠ [] := by
  unfold wordsOf
  rw [(spanSourceRef_ok hcited).1.quote, spanSourceRef_quoted hcited]
  intro hnil
  obtain ⟨c, hc, hspace⟩ := List.any_eq_true.mp hnonblank
  rw [Words.pieces_eq_nil_iff.mp hnil c hc] at hspace
  cases hspace

theorem made_accepted_iff (hnfc : Canonical rules.text.nfc decompose)
    (hbreaks : Breaks rules.text.nfc) (hblocks : ∀ block ∈ graph.blocks, WellFormed block)
    (hdistinct : blocksDistinct graph) {setting : Setting} (hrules : setting.rules = rules)
    (hjoined : continuations graph = .ok setting.joined) (hblock : block ∈ graph.blocks)
    (hfragment : setting.isFragment block.sourceId = false) {start stop : Nat}
    {fragments : List SourceRef} (hmade : MadeOf setting block claim start stop primary fragments) :
    claimQuoteMatchesSources rules graph claim.quote claim.sourceRefs = .ok true ↔
      Unmistaken rules.text.nfc claim.sourceRefs := by
  subst hrules
  obtain ⟨hlt, hinside, hnonblank, hcited, hcut, hquote, hrefs⟩ := hmade
  have hnonempty := wordsOf_quote hcited hnonblank
  obtain ⟨hcites, hoffsets⟩ := spanSourceRef_ok hcited
  obtain ⟨hstate, base, hbase, hmoved⟩ := spanSourceRef_relocated (hblocks block hblock) hcited
  rw [hquote, hrefs]
  cases hgroup : setting.joined.find? fun group => group.1 = block.sourceId with
  | none =>
    have hnone : setting.partsOf block.sourceId = [] := by
      unfold Setting.partsOf
      rw [hgroup]
      rfl
    rw [hnone] at hcut
    cases hcut
    refine claimQuoteMatchesSources_iff hnfc hbreaks hnonempty (fun h => absurd rfl h) ?_
      fun h => absurd rfl h
    exact fun fragment hin => absurd hin List.not_mem_nil
  | some group =>
    have hparts : setting.partsOf block.sourceId = group.2 := by
      unfold Setting.partsOf
      rw [hgroup]
      rfl
    have hname := List.find?_some hgroup
    rw [decide_eq_true_iff] at hname
    have hmem := List.mem_of_find?_eq_some hgroup
    obtain ⟨hcontinued, hfound⟩ := continuationFor_mem hdistinct hjoined hblock hmem hname
    obtain ⟨hsome, hraw⟩ := continuationParts_joined hcontinued
    have hwell : ∀ part ∈ group.2, WellFormed part := fun part hpart =>
      hblocks part (continuationParts_mem hcontinued part hpart)
    obtain ⟨hfirst, hlast⟩ := mapOffsets_ok hnfc hoffsets
    have hlength : stop ≤ (setting.rules.text.nfc block.rawText).length := hinside
    rw [hparts] at hcut
    obtain ⟨hstates, hexpected⟩ := expectedRefs_ok hnfc hbreaks hwell (hraw ▸ hfirst)
      (hraw ▸ hlast) (by rw [hraw]; omega) (by rw [hraw]; exact hlength) hcut
    have hsame : fragments.map asCandidate = fragments := by
      refine (List.map_congr_left fun fragment hin => ?_).trans (List.map_id fragments)
      unfold asCandidate
      rw [← hstates fragment hin]
      rfl
    refine claimQuoteMatchesSources_iff hnfc hbreaks hnonempty (fun _ => ?_) ?_ fun _ => ?_
    · rw [expectedRefs_words hnfc hbreaks hexpected, hraw, hcites.quote]
    · intro fragment hin hown
      obtain ⟨part, hpart, hid⟩ := expectedRefs_sourceId hexpected fragment hin
      have hself := setting.isFragment_of_mem (hparts.symm ▸ hpart)
        (hid.symm.trans (hown.trans hcites.sourceId))
      rw [hfragment] at hself
      cases hself
    · refine matchesFragments_iff.mpr ⟨group.2, ⟨⟨setting.joined, hjoined, ?_⟩, hsome, block, base,
        ?_, hbase, ?_, ?_, ?_⟩, hsame.symm ▸ hexpected⟩
      · rw [hcites.sourceId]
        exact hfound
      · rw [hcites.sourceId]
        exact blockOf_mem hdistinct hblock
      · refine hfirst.lt_of_lt hnfc.nonempty hlast hlt ?_
        exact hlength
      · rw [← String.length_toList]
        exact hlast.le
      · rw [← hmoved]
        unfold asCandidate
        rw [← hstate]

end Accepted

/-- **Discovered claims and the quote check.**  The check accepts a claim of a discovery just when no two
of its fragments pass for copies of one text, or one of them passes for a copy of the whole span.  The
canonical references are the same when they are taken again, and every reference has a kept one with its
key that it is or overlaps; every order of the references keeps the same ones just when no span leads
both as a candidate and as a rejected copy. -/
theorem discovered_accepted {rules : DiscoveryRules} {decompose : Char → List Char}
    (hnfc : Canonical rules.text.nfc decompose) (hbreaks : Breaks rules.text.nfc)
    {graph : CanonicalDocumentGraph} (hblocks : ∀ block ∈ graph.blocks, WellFormed block) :
    (∀ scope extractor discovery sent,
        discoverAtomicClaims rules graph scope extractor = .ok (discovery, sent) →
        ∀ claim ∈ discovery.claims,
          claimQuoteMatchesSources rules graph claim.quote claim.sourceRefs = .ok true ↔
            Unmistaken rules.text.nfc claim.sourceRefs) ∧
      ∀ refs, blocksDistinct graph →
        (∀ ref ∈ refs, ∃ block ∈ graph.blocks, Into rules.citation block ref) →
        canonicalSourceRefs rules.text.nfc (canonicalSourceRefs rules.text.nfc refs) =
            canonicalSourceRefs rules.text.nfc refs ∧
          (∀ ref ∈ refs, ∃ kept ∈ canonicalSourceRefs rules.text.nfc refs,
            refKey rules.text.nfc kept = refKey rules.text.nfc ref ∧
              (kept = ref ∨ overlaps kept ref = true)) ∧
          ((∀ others, others.Perm refs → ∀ ref,
              ref ∈ canonicalSourceRefs rules.text.nfc others ↔
                ref ∈ canonicalSourceRefs rules.text.nfc refs) ↔
            Decided rules.text.nfc refs) := by
  constructor
  · intro scope extractor discovery sent h claim hclaim
    obtain ⟨⟨⟩, hcheck, h⟩ := bind_ok h
    obtain ⟨joined, hjoined, h⟩ := bind_ok h
    obtain ⟨visits, hvisits, h⟩ := bind_ok h
    cases pure_ok h
    obtain ⟨⟨⟩, -, hcheck⟩ := bind_ok (mapError_ok_iff.mp hcheck)
    replace hcheck := rest_ok hcheck
    replace hcheck := rest_ok hcheck
    have hdistinct : blocksDistinct graph := (checkBlocks_nodup hcheck).1
    obtain ⟨block, hblock, hfragment, start, stop, primary, fragments, hmade⟩ :=
      visitBlocks_claim hvisits (mem_filterMap_claimOf.mp hclaim)
    exact made_accepted_iff hnfc hbreaks hblocks hdistinct rfl hjoined (mem_sortedBy.mp hblock)
      hfragment hmade
  · intro refs hdistinct hinto
    exact ⟨canonicalSourceRefs_idem refs, fun ref href => canonicalSourceRefs_covers href,
      order_free_iff hdistinct hinto⟩

namespace Sample

theorem rules_breaks : Breaks rules.text.nfc where
  split := fun _ _ _ _ => rfl

theorem half_pos : (0 : ℚ) < 1 :=
  one_pos

theorem half_lt : (1 : ℚ) < 2 :=
  one_lt_two

def upperHalf : Bbox :=
  ⟨0, 1, 2, 2, side_pos, half_lt⟩

def lowerHalf : Bbox :=
  ⟨0, 0, 2, 1, side_pos, half_pos⟩

def wholePage : Bbox :=
  ⟨0, 0, 2, 2, side_pos, side_pos⟩

def boxed (sourceId text : String) (box : Bbox) (context : List String) : CanonicalBlock :=
  let plain := candidate "first" sourceId text
  { paragraph sourceId text with
    candidates :=
      [{ plain with
        source := { plain.source with nativeBbox := some box }
        context := context }] }

def joinedGraph (second : String) (box : Bbox) : CanonicalDocumentGraph :=
  { graph with
    blocks :=
      [boxed "joined" ("Emissions fell.\n" ++ second) wholePage [joinContext],
        boxed "upper" "Emissions fell." upperHalf [], boxed "lower" second box []]
    edges := [⟨"joined", "upper", .derivedFrom⟩, ⟨"joined", "lower", .derivedFrom⟩] }

theorem joinedGraph_wellFormed (second : String) (box : Bbox) :
    ∀ block ∈ (joinedGraph second box).blocks, WellFormed block := by
  intro block hblock
  simp only [joinedGraph, List.mem_cons, List.not_mem_nil, or_false] at hblock
  rcases hblock with rfl | rfl | rfl
  · rintro candidate ⟨⟩
    exact ⟨Nat.le_refl 1, Nat.zero_le _⟩
  · rintro candidate ⟨⟩
    exact ⟨Nat.le_refl 1, Nat.zero_le _⟩
  · rintro candidate ⟨⟩
    exact ⟨Nat.le_refl 1, Nat.zero_le _⟩

def wholeReply (text : String) : PyJson.Json :=
  .obj [("spans", .arr [.obj
    [("char_end", .int text.length), ("char_start", .int 0), ("kind", .str "claim"),
      ("quote", .str text), ("reason", .null), ("topic_ids", .arr [])]])]

def rejected (ref : SourceRef) : SourceRef :=
  { ref with verificationState := .rejected }

def wholeExtractor : ClaimExtractor where
  profile := extractor.profile
  extract := fun _ packet => .payload (wholeReply packet.text)

end Sample

/-- A claim on two lines is accepted. -/
theorem discovered_accepted_sample : ∃ discovery sent,
    discoverAtomicClaims Sample.rules (Sample.joinedGraph "They halved." Sample.lowerHalf) Sample.scope
        Sample.wholeExtractor = .ok (discovery, sent) ∧
      ∃ claim ∈ discovery.claims, claim.sourceRefs.length = 3 ∧
        claimQuoteMatchesSources Sample.rules (Sample.joinedGraph "They halved." Sample.lowerHalf)
          claim.quote claim.sourceRefs = .ok true := by
  have hrun : Returns (discoverAtomicClaims Sample.rules
      (Sample.joinedGraph "They halved." Sample.lowerHalf) Sample.scope Sample.wholeExtractor)
      fun result => ∃ claim ∈ result.1.claims, claim.sourceRefs.length = 3 ∧
        claim.sourceRefs.tail.Pairwise fun first second =>
          copies Sample.rules.text.nfc first second = false := by
    decide +kernel
  obtain ⟨⟨discovery, sent⟩, hok, claim, hclaim, hlength, hfree⟩ := hrun
  refine ⟨discovery, sent, hok, claim, hclaim, hlength, ?_⟩
  exact ((discovered_accepted Sample.rules_canonical Sample.rules_breaks
    (Sample.joinedGraph_wellFormed _ _)).1 _ _ _ _ hok claim hclaim).mpr (.inl hfree)

theorem claims_mistaken :
    (∃ discovery sent,
      discoverAtomicClaims Sample.rules (Sample.joinedGraph "Emissions fell." Sample.wholePage)
          Sample.scope Sample.wholeExtractor = .ok (discovery, sent) ∧
        ∃ claim ∈ discovery.claims,
          claimQuoteMatchesSources Sample.rules
            (Sample.joinedGraph "Emissions fell." Sample.wholePage) claim.quote claim.sourceRefs =
              .ok false) ∧
      ∃ refs others : List SourceRef,
        (∀ ref ∈ refs, ∃ block ∈ (Sample.joinedGraph "They halved." Sample.lowerHalf).blocks,
          Into Sample.rules.citation block ref) ∧
        others.Perm refs ∧
        ¬∀ ref, ref ∈ canonicalSourceRefs Sample.rules.text.nfc others ↔
          ref ∈ canonicalSourceRefs Sample.rules.text.nfc refs := by
  constructor
  · have hrun : Returns (discoverAtomicClaims Sample.rules
        (Sample.joinedGraph "Emissions fell." Sample.wholePage) Sample.scope Sample.wholeExtractor)
        fun result => ∃ claim ∈ result.1.claims,
          claimQuoteMatchesSources Sample.rules
            (Sample.joinedGraph "Emissions fell." Sample.wholePage) claim.quote claim.sourceRefs =
              .ok false := by
      decide +kernel
    obtain ⟨⟨discovery, sent⟩, hok, hrefused⟩ := hrun
    exact ⟨discovery, sent, hok, hrefused⟩
  · have hrun : Returns (blockSourceRef Sample.rules.citation
        (Sample.boxed "upper" "Emissions fell." Sample.upperHalf []))
        fun ref => ref.verificationState = .candidate ∧
          canonicalSourceRefs Sample.rules.text.nfc [ref, Sample.rejected ref] = [ref] ∧
          canonicalSourceRefs Sample.rules.text.nfc [Sample.rejected ref, ref] =
            [Sample.rejected ref] := by
      decide +kernel
    obtain ⟨base, hbase, hstate, hfirst, hsecond⟩ := hrun
    refine ⟨[base, Sample.rejected base], [Sample.rejected base, base], ?_, .swap _ _ _, fun hsame => ?_⟩
    · intro ref href
      refine ⟨_, List.mem_cons_of_mem _ List.mem_cons_self, base, hbase, ?_⟩
      rcases List.mem_cons.mp href with rfl | href
      · rfl
      · rw [List.mem_singleton.mp href]
        rfl
    · have hmem := (hsame base).mpr (hfirst ▸ List.mem_singleton_self base)
      rw [hsecond] at hmem
      have hstates := congrArg SourceRef.verificationState (List.mem_singleton.mp hmem)
      rw [hstate] at hstates
      cases hstates

end ProofOps.Application.Claims
