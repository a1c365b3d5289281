import Mathlib.Data.List.ReduceOption
import ProofOps.Application.Claims.Accounting
import ProofOps.Foundation.Paired
import ProofOps.Foundation.Rendering

/-!
# Claim discovery accounts for every character

Every block of the graph is either processed or left out.  The references to a processed block
are disjoint and leave out nothing but white space (`claim_discovery`).
-/

namespace ProofOps.Application.Claims

open Foundation Foundation.Checked Foundation.PyJson Foundation.Ranges Foundation.Sorting Domain Evidence Ingest

/-! ### Visits -/

structure Visit.Answers (visit : Visit) (block : CanonicalBlock) : Prop where
  receipts : visit.receipts.map ExtractionReceipt.sourceId = visit.sent.map Packet.sourceId
  sent : visit.sent = [] ∨ ∃ packet, visit.sent = [packet] ∧ packet.sourceId = block.sourceId

inductive VisitOf (setting : Setting) (block : CanonicalBlock) (visit : Visit) : Prop where
  | leftOut {exclusion : ClaimExclusion} (entries : visit.entries = [.exclusion exclusion])
      (sourceId : exclusion.sourceId = block.sourceId)
      (cites : ∀ ref ∈ exclusion.sourceRef, Cites block ref) (processed : visit.processed = [])
      (answers : visit.Answers block)
  | processed {receipt : ExtractionReceipt} {refs : List SourceRef}
      (fragment : setting.isFragment block.sourceId = false)
      (processed : visit.processed = [block.sourceId])
      (owner : receipt.sourceId = block.sourceId) (answers : visit.Answers block)
      (placed : Placed setting block receipt (Blank block.rawText) 0 visit.entries refs)

variable {reason : String} {blocks : List CanonicalBlock} {exclusion : ClaimExclusion}
variable {receipt : ExtractionReceipt} {entries : List Entry}

section Visits

variable {setting : Setting} {block : CanonicalBlock} {visit : Visit}

theorem leftOut_visitOf {state : String} {ref : Option SourceRef}
    (h : ∀ made ∈ ref, Cites block made) :
    VisitOf setting block (leftOut block reason state ref) :=
  .leftOut rfl rfl h rfl ⟨rfl, Or.inl rfl⟩

theorem leftOutInPlace_ok {state : String}
    (h : leftOutInPlace setting block reason state = .ok visit) : VisitOf setting block visit := by
  obtain ⟨ref, href, h⟩ := bind_ok h
  cases pure_ok h
  refine leftOut_visitOf fun made hmade => ?_
  cases hmade
  exact blockSourceRef_ok (mapError_ok_iff.mp href)

theorem failed_ok (h : failed setting block reason = .ok visit) :
    VisitOf setting block visit := by
  obtain ⟨ref, href, h⟩ := bind_ok h
  cases h
  refine .leftOut rfl rfl (fun made hmade => ?_) rfl ⟨rfl, Or.inr ⟨_, rfl, rfl⟩⟩
  cases hmade
  exact blockSourceRef_ok (mapError_ok_iff.mp href)

variable {decompose : Char → List Char}

theorem accounted_ok (hnfc : Canonical setting.rules.text.nfc decompose) {payload : Json}
    {spans : List ExtractionSpan} (hfragment : setting.isFragment block.sourceId = false)
    (hspans : validateExtractionResponse setting.rules.text payload
      (normalizedText setting.rules block) = .ok spans)
    (h : accounted setting block payload spans = .ok visit) : VisitOf setting block visit := by
  obtain ⟨entries, hentries, h⟩ := bind_ok h
  cases h
  obtain ⟨hquotes, hchain⟩ := validateExtractionResponse_ok hspans
  have hzero : Split decompose setting block 0 0 := CanonicalText.boundary_zero _ _ _
  obtain ⟨refs, hplaced⟩ := accountSpans_placed hnfc hzero (Nat.zero_le _) hquotes
    (fun span _ => Nat.zero_le _) hchain hentries
  exact .processed hfragment rfl rfl ⟨rfl, Or.inr ⟨_, rfl, rfl⟩⟩ hplaced

theorem visitBlock_ok (hnfc : Canonical setting.rules.text.nfc decompose) {extract : Packet → Reply}
    (h : visitBlock setting extract block = .ok visit) : VisitOf setting block visit := by
  unfold visitBlock at h
  split_ifs at h with hsubset hfragment hquality hwinning hblank
  · cases h
    exact leftOut_visitOf fun made hmade => absurd hmade (Option.not_mem_none made)
  · exact leftOutInPlace_ok h
  · cases h
    exact leftOut_visitOf fun made hmade => absurd hmade (Option.not_mem_none made)
  · exact leftOutInPlace_ok h
  · rw [Bool.not_eq_true] at hfragment
    unfold visitText at h
    split at h
    · exact failed_ok h
    · exact failed_ok h
    · cases h
    · split at h
      · exact failed_ok h
      · rename_i spans hspans
        exact accounted_ok hnfc hfragment hspans h

theorem visitBlocks_ok (hnfc : Canonical setting.rules.text.nfc decompose)
    {extract : List Packet → Packet → Reply} {sent : List Packet}
    {visits : List Visit} (h : visitBlocks setting extract sent blocks = .ok visits) :
    List.Forall₂ (VisitOf setting) blocks visits := by
  induction blocks generalizing sent visits with
  | nil =>
    cases h
    exact .nil
  | cons block blocks ih =>
    obtain ⟨visit, hvisit, h⟩ := bind_ok h
    obtain ⟨later, hlater, h⟩ := bind_ok h
    cases pure_ok h
    exact .cons (visitBlock_ok hnfc hvisit) (ih hlater)

theorem VisitOf.cites (h : VisitOf setting block visit) {entry : Entry}
    (hentry : entry ∈ visit.entries) {ref : SourceRef} (href : ref ∈ entry.refs) :
    Cites block ref ∨ ∃ part ∈ setting.partsOf block.sourceId, Cites part ref := by
  cases h with
  | leftOut hentries _ hcites _ _ =>
    rw [hentries, List.mem_singleton] at hentry
    subst hentry
    exact Or.inl (hcites ref (Option.mem_toList.mp href))
  | processed _ _ _ _ hplaced =>
    obtain ⟨place, hplace, hplaces⟩ := Paired.exists_left hplaced.places hentry
    have hown := (hplaced.cites place hplace).1
    cases hplaces with
    | claim hrefs hparts =>
      rw [Entry.refs_claim, hrefs] at href
      rcases List.mem_cons.mp href with rfl | hfragment
      · exact Or.inl hown
      · exact Or.inr (hparts ref hfragment)
    | exclusion _ hsourceRef =>
      rw [Entry.refs_exclusion, hsourceRef, Option.mem_toList] at href
      cases href
      exact Or.inl hown

theorem VisitOf.exclusion_sourceId (h : VisitOf setting block visit)
    (hexclusion : Entry.exclusion exclusion ∈ visit.entries) :
    exclusion.sourceId = block.sourceId := by
  cases h with
  | leftOut hentries hsourceId _ _ _ =>
    rw [hentries, List.mem_singleton] at hexclusion
    cases hexclusion
    exact hsourceId
  | processed _ _ _ _ hplaced =>
    obtain ⟨place, -, hplaces⟩ := Paired.exists_left hplaced.places hexclusion
    cases hplaces with
    | exclusion hsourceId _ => exact hsourceId

theorem VisitOf.claim_head (h : VisitOf setting block visit) {claim : Claim}
    (hclaim : Entry.claim claim ∈ visit.entries) :
    ∃ ref fragments receipt, claim.sourceRefs = ref :: fragments ∧ Cites block ref ∧
      claim.quote = ref.quote ∧ claim.claimId = claimId setting ref receipt ∧
      receipt.sourceId = block.sourceId ∧ visit.processed = [block.sourceId] := by
  cases h with
  | leftOut hentries _ _ _ _ =>
    rw [hentries, List.mem_singleton] at hclaim
    cases hclaim
  | @processed receipt refs _ hprocessed hreceipt _ hplaced =>
    obtain ⟨ref, href, hplaces⟩ := Paired.exists_left hplaced.places hclaim
    cases hplaces with
    | claim hrefs _ hquote hid =>
      exact ⟨ref, _, receipt, hrefs, (hplaced.cites ref href).1, hquote, hid, hreceipt, hprocessed⟩

theorem Placed.filter_refs {skip : Nat → Prop} {start : Nat} {refs : List SourceRef}
    (h : Placed setting block receipt skip start entries refs)
    (hfragment : setting.isFragment block.sourceId = false) :
    (entries.flatMap Entry.refs).filter (fun ref => ref.sourceId = block.sourceId) = refs := by
  have hpart : ∀ part ∈ setting.partsOf block.sourceId, part.sourceId ≠ block.sourceId := by
    intro part hpart hsame
    rw [setting.isFragment_of_mem hpart hsame] at hfragment
    cases hfragment
  obtain ⟨hplaces, hcites, -⟩ := h
  induction hplaces with
  | nil => rfl
  | @cons ref entry refs entries hplace _ ih =>
    rw [List.forall_mem_cons] at hcites
    have hown : ref.sourceId = block.sourceId := hcites.1.1.sourceId
    have hentry : entry.refs.filter (fun ref => ref.sourceId = block.sourceId) = [ref] := by
      cases hplace with
      | claim hrefs hparts =>
        rw [Entry.refs_claim, hrefs, List.filter_cons_of_pos (by simpa using hown)]
        congr 1
        rw [List.filter_eq_nil_iff]
        intro other hother
        obtain ⟨part, hmem, hcites⟩ := hparts other hother
        simpa [hcites.sourceId] using hpart part hmem
      | exclusion _ hsourceRef =>
        rw [Entry.refs_exclusion, hsourceRef, Option.toList_some,
          List.filter_cons_of_pos (by simpa using hown), List.filter_nil]
    rw [List.flatMap_cons, List.filter_append, hentry, ih hcites.2, List.singleton_append]

end Visits

/-! ### The result -/

variable (discovery : ClaimDiscovery) (sourceId : String)

def citing : List SourceRef :=
  (discovery.claims.flatMap Claim.sourceRefs ++
    discovery.exclusions.flatMap fun exclusion => exclusion.sourceRef.toList).filter
      fun ref => ref.sourceId = sourceId

def claimsOf : List Claim :=
  discovery.claims.filter fun claim => claim.sourceRefs.head?.any fun ref => ref.sourceId = sourceId

/-- The exclusions about a block. -/
def exclusionsOf : List ClaimExclusion :=
  discovery.exclusions.filter fun exclusion => exclusion.sourceId = sourceId

structure Covered (discovery : ClaimDiscovery) (block : CanonicalBlock) : Prop where
  processed : block.sourceId ∈ discovery.processedSourceIds
  cites : ∀ ref ∈ citing discovery block.sourceId, Cites block ref ∧ ref.charStart < ref.charEnd ∧
    ref.charEnd ≤ block.rawText.length
  apart : (citing discovery block.sourceId).Pairwise fun first second =>
    Apart (rangeOf first) (rangeOf second)
  covered : ∀ position, ¬Blank block.rawText position →
    ∃ ref ∈ citing discovery block.sourceId, Within position (rangeOf ref)
  located : ∀ exclusion ∈ exclusionsOf discovery block.sourceId,
    ∃ ref ∈ citing discovery block.sourceId, exclusion.sourceRef = some ref

structure LeftOut (discovery : ClaimDiscovery) (block : CanonicalBlock) : Prop where
  processed : block.sourceId ∉ discovery.processedSourceIds
  claims : claimsOf discovery block.sourceId = []
  exclusions : ∃ exclusion, exclusionsOf discovery block.sourceId = [exclusion]

theorem refs_perm (entries : List Entry) :
    ((entries.filterMap claimOf).flatMap Claim.sourceRefs ++
      (entries.filterMap exclusionOf).flatMap fun exclusion => exclusion.sourceRef.toList).Perm
        (entries.flatMap Entry.refs) := by
  induction entries with
  | nil => exact List.Perm.refl _
  | cons entry entries ih =>
    cases entry with
    | claim claim =>
      simp only [List.filterMap_cons, claimOf, exclusionOf, List.flatMap_cons, Entry.refs_claim,
        List.append_assoc]
      exact List.Perm.append_left _ ih
    | exclusion exclusion =>
      simp only [List.filterMap_cons, claimOf, exclusionOf, List.flatMap_cons,
        Entry.refs_exclusion]
      rw [← List.append_assoc]
      refine (List.Perm.append_right _ List.perm_append_comm).trans ?_
      rw [List.append_assoc]
      exact List.Perm.append_left _ ih

section Result

variable {setting : Setting} {ordered : List CanonicalBlock} {visits : List Visit}

theorem citing_perm (setting : Setting) (visits : List Visit) (sourceId : String) :
    (citing (resultOf setting visits) sourceId).Perm (visits.flatMap fun visit =>
      (visit.entries.flatMap Entry.refs).filter fun ref => ref.sourceId = sourceId) := by
  have hperm := (refs_perm (visits.flatMap Visit.entries)).filter
    fun ref => decide (ref.sourceId = sourceId)
  rw [List.flatMap_assoc, List.filter_flatMap] at hperm
  exact hperm

theorem exclusionsOf_eq (setting : Setting) (visits : List Visit) (sourceId : String) :
    exclusionsOf (resultOf setting visits) sourceId = visits.flatMap fun visit =>
      (visit.entries.filterMap exclusionOf).filter fun exclusion => exclusion.sourceId = sourceId := by
  show ((visits.flatMap Visit.entries).filterMap exclusionOf).filter _ = _
  rw [List.filterMap_flatMap, List.filter_flatMap]

theorem claimsOf_eq (setting : Setting) (visits : List Visit) (sourceId : String) :
    claimsOf (resultOf setting visits) sourceId = visits.flatMap fun visit =>
      (visit.entries.filterMap claimOf).filter fun claim =>
        claim.sourceRefs.head?.any fun ref => ref.sourceId = sourceId := by
  show ((visits.flatMap Visit.entries).filterMap claimOf).filter _ = _
  rw [List.filterMap_flatMap, List.filter_flatMap]

theorem mem_filterMap_exclusionOf :
    exclusion ∈ entries.filterMap exclusionOf ↔ Entry.exclusion exclusion ∈ entries := by
  rw [List.mem_filterMap]
  constructor
  · rintro ⟨entry, hentry, hmade⟩
    cases entry with
    | claim claim => cases hmade
    | exclusion made =>
      cases hmade
      exact hentry
  · exact fun hentry => ⟨_, hentry, rfl⟩

theorem mem_filterMap_claimOf {claim : Claim} :
    claim ∈ entries.filterMap claimOf ↔ Entry.claim claim ∈ entries := by
  rw [List.mem_filterMap]
  constructor
  · rintro ⟨entry, hentry, hmade⟩
    cases entry with
    | claim made =>
      cases hmade
      exact hentry
    | exclusion exclusion => cases hmade
  · exact fun hentry => ⟨_, hentry, rfl⟩

variable {block : CanonicalBlock} {visit : Visit}

theorem VisitOf.filter_refs_other {other : CanonicalBlock} (h : VisitOf setting other visit)
    (hne : block.sourceId ≠ other.sourceId) (hfragment : setting.isFragment block.sourceId = false) :
    (visit.entries.flatMap Entry.refs).filter (fun ref => ref.sourceId = block.sourceId) = [] := by
  rw [List.filter_eq_nil_iff]
  intro ref href hsame
  rw [decide_eq_true_eq] at hsame
  obtain ⟨entry, hentry, hin⟩ := List.mem_flatMap.mp href
  rcases h.cites hentry hin with hcites | ⟨part, hpart, hcites⟩
  · exact hne (hsame.symm.trans hcites.sourceId)
  · rw [setting.isFragment_of_mem hpart (hcites.sourceId.symm.trans hsame)] at hfragment
    cases hfragment

theorem VisitOf.filter_exclusions_other {block other : CanonicalBlock} {visit : Visit}
    (h : VisitOf setting other visit) (hne : block.sourceId ≠ other.sourceId) :
    (visit.entries.filterMap exclusionOf).filter
      (fun exclusion => exclusion.sourceId = block.sourceId) = [] := by
  rw [List.filter_eq_nil_iff]
  intro exclusion hexclusion hsame
  rw [decide_eq_true_eq] at hsame
  exact hne (hsame.symm.trans (h.exclusion_sourceId (mem_filterMap_exclusionOf.mp hexclusion)))

theorem VisitOf.filter_claims_other {block other : CanonicalBlock} {visit : Visit}
    (h : VisitOf setting other visit) (hne : block.sourceId ≠ other.sourceId) :
    (visit.entries.filterMap claimOf).filter
      (fun claim => claim.sourceRefs.head?.any fun ref => ref.sourceId = block.sourceId) = [] := by
  rw [List.filter_eq_nil_iff]
  intro claim hclaim hsame
  obtain ⟨ref, fragments, -, hrefs, hcites, -⟩ := h.claim_head (mem_filterMap_claimOf.mp hclaim)
  rw [hrefs] at hsame
  simp only [List.head?_cons, Option.any_some, decide_eq_true_eq] at hsame
  exact hne (hsame.symm.trans hcites.sourceId)

theorem VisitOf.processed_sourceId (h : VisitOf setting block visit) {sourceId : String}
    (hmem : sourceId ∈ visit.processed) : sourceId = block.sourceId := by
  cases h with
  | leftOut _ _ _ hprocessed _ =>
    rw [hprocessed] at hmem
    cases hmem
  | processed _ hprocessed _ _ _ =>
    rw [hprocessed] at hmem
    exact List.mem_singleton.mp hmem

/-- Every block of the graph is covered or left out. -/
theorem block_accounted (hvisits : List.Forall₂ (VisitOf setting) ordered visits)
    (hdistinct : ordered.Pairwise fun first second => first.sourceId ≠ second.sourceId)
    (hblock : block ∈ ordered) :
    Covered (resultOf setting visits) block ∨ LeftOut (resultOf setting visits) block := by
  obtain ⟨visit, hvisit, hof, hunique⟩ :=
    Paired.exists_flatMap_eq hvisits hdistinct (fun hne => hne.symm) hblock
  have hexclusions : exclusionsOf (resultOf setting visits) block.sourceId =
      (visit.entries.filterMap exclusionOf).filter
        fun exclusion => exclusion.sourceId = block.sourceId := by
    rw [exclusionsOf_eq]
    exact hunique _ fun hne hother => hother.filter_exclusions_other hne
  have hprocessed : (visits.flatMap Visit.processed).filter (fun id => id = block.sourceId) =
      visit.processed.filter fun id => id = block.sourceId := by
    rw [List.filter_flatMap]
    refine hunique _ fun hne hother => ?_
    rw [List.filter_eq_nil_iff]
    intro id hid hsame
    rw [decide_eq_true_eq] at hsame
    exact hne (hsame.symm.trans (hother.processed_sourceId hid))
  cases hof with
  | @leftOut exclusion hentries hsourceId _ hnone _ =>
    refine Or.inr ⟨fun hmem => ?_, ?_, exclusion, ?_⟩
    · have hfilter : block.sourceId ∈
          (visits.flatMap Visit.processed).filter fun id => id = block.sourceId :=
        List.mem_filter.mpr ⟨hmem, by simp⟩
      rw [hprocessed, hnone] at hfilter
      cases hfilter
    · rw [claimsOf_eq, hunique _ fun hne hother => hother.filter_claims_other hne, hentries]
      rfl
    · have hmade : exclusionOf (.exclusion exclusion) = some exclusion := rfl
      rw [hexclusions, hentries, List.filterMap_cons_some hmade, List.filterMap_nil,
        List.filter_cons_of_pos (by simpa using hsourceId), List.filter_nil]
  | @processed receipt refs hfragment hdone _ _ hplaced =>
    have hperm : (citing (resultOf setting visits) block.sourceId).Perm refs := by
      refine (citing_perm setting visits block.sourceId).trans (List.Perm.of_eq ?_)
      rw [hunique _ fun hne hother => hother.filter_refs_other hne hfragment,
        hplaced.filter_refs hfragment]
    have hrange : ∀ {ref}, ref ∈ refs → rangeOf ref ∈ refs.map rangeOf :=
      fun href => List.mem_map_of_mem href
    refine Or.inl ⟨?_, fun ref href => ?_, ?_, fun position hposition => ?_,
      fun exclusion hexclusion => ?_⟩
    · exact List.mem_flatMap.mpr ⟨visit, hvisit, by rw [hdone]; exact List.mem_singleton_self _⟩
    · have hmem := hperm.mem_iff.mp href
      obtain ⟨hcites, hinside⟩ := hplaced.cites ref hmem
      exact ⟨hcites, (hplaced.covers.start_le _ (hrange hmem)).2, hinside⟩
    · have hapart := List.pairwise_map.mp hplaced.covers.pairwise_apart
      exact (hperm.pairwise_iff fun h => h.symm).mpr hapart
    · have hlt : position < block.rawText.length := by
        by_contra hge
        refine hposition fun c hc => ?_
        rw [List.getElem?_eq_none (by rw [String.length_toList]; omega)] at hc
        cases hc
      obtain ⟨range, hmem, hwithin⟩ :=
        hplaced.covers.exists_within (Nat.zero_le position) hlt hposition
      obtain ⟨ref, href, rfl⟩ := List.mem_map.mp hmem
      exact ⟨ref, hperm.mem_iff.mpr href, hwithin⟩
    · rw [hexclusions] at hexclusion
      have hentry := mem_filterMap_exclusionOf.mp (List.mem_filter.mp hexclusion).1
      obtain ⟨ref, href, hplaces⟩ := Paired.exists_left hplaced.places hentry
      cases hplaces with
      | exclusion _ hsourceRef => exact ⟨ref, hperm.mem_iff.mpr href, hsourceRef⟩

theorem VisitOf.answers (h : VisitOf setting block visit) : visit.Answers block := by
  cases h with
  | leftOut _ _ _ _ hanswers => exact hanswers
  | processed _ _ _ hanswers _ => exact hanswers

theorem receipts_answer (hvisits : List.Forall₂ (VisitOf setting) ordered visits)
    (hdistinct : ordered.Pairwise fun first second => first.sourceId ≠ second.sourceId) :
    (resultOf setting visits).receipts.map ExtractionReceipt.sourceId =
        (visits.flatMap Visit.sent).map Packet.sourceId ∧
      ((visits.flatMap Visit.sent).map Packet.sourceId).Nodup := by
  have hsent : ∀ {block visit}, VisitOf setting block visit →
      ∀ id ∈ visit.sent.map Packet.sourceId, id = block.sourceId := by
    intro block visit hvisit id hid
    rcases hvisit.answers.sent with hnone | ⟨packet, hone, howner⟩
    · rw [hnone] at hid
      cases hid
    · rw [hone, List.map_singleton, List.mem_singleton] at hid
      exact hid.trans howner
  constructor
  · show (visits.flatMap Visit.receipts).map _ = _
    rw [List.map_flatMap, List.map_flatMap]
    refine List.flatMap_congr fun visit hvisit => ?_
    obtain ⟨block, -, hof⟩ := Paired.exists_left hvisits hvisit
    exact hof.answers.receipts
  · rw [List.map_flatMap, List.nodup_flatMap]
    constructor
    · intro visit hvisit
      obtain ⟨block, -, hof⟩ := Paired.exists_left hvisits hvisit
      rcases hof.answers.sent with hnone | ⟨packet, hone, -⟩
      · rw [hnone]
        exact List.nodup_nil
      · rw [hone]
        exact List.nodup_singleton _
    · refine Paired.pairwise hvisits hdistinct fun hne hfirst hsecond id hid hid' => ?_
      exact hne ((hsent hfirst id hid).symm.trans (hsent hsecond id hid'))

theorem claimId_injective (hhash : Function.Injective setting.rules.claimHash)
    (huuid : ∀ owner, Function.Injective (setting.rules.uuid5 owner)) {first second : SourceRef}
    {other : ExtractionReceipt} (h : claimId setting first receipt = claimId setting second other) :
    first = second ∧ receipt = other := by
  have hkey := hhash (huuid _ h)
  exact ⟨congrArg ClaimKey.source hkey, congrArg ClaimKey.receipt hkey⟩

theorem VisitOf.claimIds (hhash : Function.Injective setting.rules.claimHash)
    (huuid : ∀ owner, Function.Injective (setting.rules.uuid5 owner))
    (h : VisitOf setting block visit) :
    (visit.entries.filterMap claimOf).Pairwise fun first second =>
      first.claimId ≠ second.claimId := by
  cases h with
  | leftOut hentries _ _ _ _ =>
    rw [hentries]
    exact List.Pairwise.nil
  | @processed receipt refs _ _ _ _ hplaced =>
    have hrefs : refs.Pairwise fun first second => first ≠ second := by
      have hapart := List.pairwise_map.mp hplaced.covers.pairwise_apart
      refine hapart.imp_of_mem fun {first second} hfirst _ hseparate hsame => ?_
      have hnonempty := (hplaced.covers.start_le _ (List.mem_map_of_mem hfirst)).2
      subst hsame
      exact hseparate.not_within ⟨Nat.le_refl _, hnonempty⟩ ⟨Nat.le_refl _, hnonempty⟩
    rw [List.pairwise_filterMap]
    refine Paired.pairwise hplaced.places hrefs ?_
    intro ref other entry entry' hne hplace hplace' claim hclaim claim' hclaim' hsame
    cases hplace with
    | exclusion _ _ => cases hclaim
    | claim _ _ _ hid =>
      cases hplace' with
      | exclusion _ _ => cases hclaim'
      | claim _ _ _ hid' =>
        cases hclaim
        cases hclaim'
        rw [hid, hid'] at hsame
        exact hne (claimId_injective hhash huuid hsame).1

/-- So have the claims of a discovery. -/
theorem claimIds_nodup (hhash : Function.Injective setting.rules.claimHash)
    (huuid : ∀ owner, Function.Injective (setting.rules.uuid5 owner))
    (hvisits : List.Forall₂ (VisitOf setting) ordered visits)
    (hdistinct : ordered.Pairwise fun first second => first.sourceId ≠ second.sourceId) :
    ((resultOf setting visits).claims.map Claim.claimId).Nodup := by
  show (((visits.flatMap Visit.entries).filterMap claimOf).map Claim.claimId).Nodup
  rw [List.Nodup, List.pairwise_map, List.filterMap_flatMap, List.pairwise_flatMap]
  constructor
  · intro visit hvisit
    obtain ⟨block, -, hof⟩ := Paired.exists_left hvisits hvisit
    exact hof.claimIds hhash huuid
  · refine Paired.pairwise hvisits hdistinct fun hne hfirst hsecond claim hclaim claim' hclaim' => ?_
    obtain ⟨ref, -, receipt, -, -, -, hid, howner, -⟩ :=
      hfirst.claim_head (mem_filterMap_claimOf.mp hclaim)
    obtain ⟨ref', -, receipt', -, -, -, hid', howner', -⟩ :=
      hsecond.claim_head (mem_filterMap_claimOf.mp hclaim')
    intro hsame
    rw [hid, hid'] at hsame
    have hreceipt := (claimId_injective hhash huuid hsame).2
    rw [← howner, ← howner', hreceipt] at hne
    exact hne rfl

end Result

theorem checkBlocks_nodup {rules : DiscoveryRules} {scope : ClaimScope} {ids : List String}
    (h : checkBlocks rules scope ids blocks = .ok ()) :
    (blocks.map CanonicalBlock.sourceId).Nodup ∧ ∀ block ∈ blocks, block.sourceId ∉ ids := by
  induction blocks generalizing ids with
  | nil => exact ⟨List.nodup_nil, fun _ hblock => absurd hblock List.not_mem_nil⟩
  | cons block blocks ih =>
    replace h := rest_ok h
    obtain ⟨⟨⟩, hfresh, h⟩ := bind_ok h
    replace h := rest_ok h
    rw [refuse_ok_iff, not_or] at hfresh
    obtain ⟨hnodup, hothers⟩ := ih h
    constructor
    · rw [List.map_cons, List.nodup_cons]
      refine ⟨fun hmem => ?_, hnodup⟩
      obtain ⟨other, hother, hsame⟩ := List.mem_map.mp hmem
      refine hothers other hother ?_
      rw [hsame]
      exact List.mem_append_right _ (List.mem_singleton_self _)
    · refine List.forall_mem_cons.mpr ⟨hfresh.2, fun other hother hmem => ?_⟩
      exact hothers other hother (List.mem_append_left _ hmem)

theorem continuationParts_mem {graph : CanonicalDocumentGraph} {block : CanonicalBlock}
    {parts : List CanonicalBlock} (h : continuationParts graph block = .ok parts) :
    ∀ part ∈ parts, part ∈ graph.blocks := by
  obtain ⟨targets, htargets, h⟩ := bind_ok h
  obtain ⟨checked, hchecked, h⟩ := bind_ok h
  replace h := rest_ok h
  replace h := rest_ok h
  replace h := rest_ok h
  cases pure_ok h
  intro part hpart
  obtain ⟨placed, hplaced, rfl⟩ := List.mem_map.mp hpart
  obtain ⟨target, htarget, hcheck⟩ := (mem_of_mapM_ok hchecked).mp (mem_sortedBy.mp hplaced)
  have hsame : placed.2 = target := by
    replace hcheck := rest_ok hcheck
    split at hcheck
    · cases hcheck
    · split at hcheck
      · cases hcheck
      · replace hcheck := rest_ok hcheck
        cases pure_ok hcheck
        rfl
  obtain ⟨edge, -, hedge⟩ := (mem_of_mapM_ok htargets).mp htarget
  unfold targetOf at hedge
  split at hedge
  · rename_i found hfound
    cases hedge
    rw [hsame]
    exact List.mem_of_find?_eq_some hfound
  · cases hedge

theorem continuations_mem {graph : CanonicalDocumentGraph} {joined : List Continuation}
    (h : continuations graph = .ok joined) :
    ∀ group ∈ joined, ∀ part ∈ group.2, part ∈ graph.blocks := by
  obtain ⟨groups, hgroups, h⟩ := bind_ok h
  cases pure_ok h
  intro group hgroup
  rw [List.reduceOption_mem_iff] at hgroup
  obtain ⟨block, -, hblock⟩ := (mem_of_mapM_ok hgroups).mp hgroup
  obtain ⟨joins, -, hblock⟩ := bind_ok hblock
  cases joins with
  | false => cases pure_ok hblock
  | true =>
    obtain ⟨parts, hparts, hblock⟩ := bind_ok hblock
    cases pure_ok hblock
    exact continuationParts_mem hparts

structure Accounts (graph : CanonicalDocumentGraph) (discovery : ClaimDiscovery)
    (sent : List Packet) : Prop where
  blocks : ∀ block ∈ graph.blocks, Covered discovery block ∨ LeftOut discovery block
  quotes : ∀ claim ∈ discovery.claims, ∃ block ∈ graph.blocks,
    block.sourceId ∈ discovery.processedSourceIds ∧ ∃ ref fragments,
      claim.sourceRefs = ref :: fragments ∧ ref.sourceId = block.sourceId ∧
        claim.quote = slice block.rawText ref.charStart ref.charEnd
  sources : ∀ claim ∈ discovery.claims, ∀ ref ∈ claim.sourceRefs, ∃ block ∈ graph.blocks, Cites block ref
  receipts : discovery.receipts.map ExtractionReceipt.sourceId = sent.map Packet.sourceId
  once : (sent.map Packet.sourceId).Nodup
  claimIds : (discovery.claims.map Claim.claimId).Nodup

/-- **Claim discovery accounts for every character.**  Whatever the graph and the extraction model,
a discovery that returns covers every block or leaves it out for one reason; its claims quote the
raw text; every packet has one receipt; and the claims have identifiers of their own. -/
theorem claim_discovery {rules : DiscoveryRules} {decompose : Char → List Char}
    (hnfc : Canonical rules.text.nfc decompose) (hhash : Function.Injective rules.claimHash)
    (huuid : ∀ owner, Function.Injective (rules.uuid5 owner)) {graph : CanonicalDocumentGraph}
    {scope : ClaimScope} {extractor : ClaimExtractor} {discovery : ClaimDiscovery}
    {sent : List Packet}
    (h : discoverAtomicClaims rules graph scope extractor = .ok (discovery, sent)) :
    Accounts graph discovery sent := by
  obtain ⟨⟨⟩, hcheck, h⟩ := bind_ok h
  obtain ⟨joined, hjoined, h⟩ := bind_ok h
  obtain ⟨visits, hvisits, h⟩ := bind_ok h
  cases pure_ok h
  obtain ⟨⟨⟩, -, hcheck⟩ := bind_ok (mapError_ok_iff.mp hcheck)
  replace hcheck := rest_ok hcheck
  replace hcheck := rest_ok hcheck
  have hof := visitBlocks_ok hnfc hvisits
  have hperm := sortedBy_perm (fun block : CanonicalBlock => toLex (block.pageNum, block.sourceId))
    graph.blocks
  have hdistinct : (sortedBy (fun block : CanonicalBlock => toLex (block.pageNum, block.sourceId))
      graph.blocks).Pairwise fun first second => first.sourceId ≠ second.sourceId := by
    rw [← List.pairwise_map, ← List.Nodup]
    exact (hperm.map CanonicalBlock.sourceId).nodup_iff.mpr (checkBlocks_nodup hcheck).1
  obtain ⟨hreceipts, honce⟩ := receipts_answer hof hdistinct
  -- A claim was made in the visit of a block of the graph.
  have hmade : ∀ claim ∈ (visits.flatMap Visit.entries).filterMap claimOf, ∃ block ∈ graph.blocks,
      ∃ visit ∈ visits, VisitOf ⟨rules, graph, scope, extractor.profile, joined⟩ block visit ∧
        Entry.claim claim ∈ visit.entries := by
    intro claim hclaim
    obtain ⟨visit, hvisit, hentry⟩ := List.mem_flatMap.mp (mem_filterMap_claimOf.mp hclaim)
    obtain ⟨block, hblock, hpair⟩ := Paired.exists_left hof hvisit
    exact ⟨block, mem_sortedBy.mp hblock, visit, hvisit, hpair, hentry⟩
  refine ⟨fun block hblock => ?_, fun claim hclaim => ?_, fun claim hclaim ref href => ?_, hreceipts,
    honce, claimIds_nodup hhash huuid hof hdistinct⟩
  · exact block_accounted hof hdistinct (mem_sortedBy.mpr hblock)
  · obtain ⟨block, hblock, visit, hvisit, hpair, hentry⟩ := hmade claim hclaim
    obtain ⟨ref, fragments, -, hrefs, hcites, hquote, -, -, hprocessed⟩ := hpair.claim_head hentry
    refine ⟨block, hblock, ?_, ref, fragments, hrefs, hcites.sourceId, hquote.trans hcites.quote⟩
    exact List.mem_flatMap.mpr ⟨visit, hvisit, by rw [hprocessed]; exact List.mem_singleton_self _⟩
  · obtain ⟨block, hblock, visit, hvisit, hpair, hentry⟩ := hmade claim hclaim
    rcases hpair.cites hentry href with hcites | ⟨part, hpart, hcites⟩
    · exact ⟨block, hblock, hcites⟩
    · obtain ⟨group, hgroup, hin⟩ := Setting.mem_partsOf hpart
      exact ⟨part, continuations_mem hjoined group hgroup part hin, hcites⟩

/-! ### A discovery

A paragraph with a claim and a rest that the model says nothing about, and a block that two parsers
read differently. -/

namespace Sample

open Rendering

def corners (box : Bbox) : List Char :=
  rendered [rational box.x0, rational box.y0, rational box.x1, rational box.y1]

theorem corners_injective : Function.Injective corners := by
  intro first second h
  have hfields := rendered_injective h
  simp only [List.cons.injEq, and_true] at hfields
  obtain ⟨hx0, hy0, hx1, hy1⟩ := hfields
  cases first
  cases second
  simp only [Bbox.mk.injEq]
  exact ⟨rational_injective hx0, rational_injective hy0, rational_injective hx1,
    rational_injective hy1⟩

def locationRank : LocationQuality → Nat
  | .located => 0
  | .unlocated => 1
  | .unreadable => 2

def verificationRank : VerificationState → Nat
  | .verified => 0
  | .candidate => 1
  | .rejected => 2

def refFields (ref : SourceRef) : List (List Char) :=
  [ref.sourceId.toList, ref.documentVersionId.toList, ref.parseManifestId.toList,
    natural ref.pageNum, optional String.toList ref.printedPageLabel, optional corners ref.bbox,
    ref.rawTextSha256.toList, ref.quote.toList, natural ref.charStart, natural ref.charEnd,
    natural (locationRank ref.locationQuality), natural (verificationRank ref.verificationState)]

theorem toList_injective : Function.Injective String.toList :=
  fun _ _ => String.toList_inj.mp

theorem refFields_injective : Function.Injective refFields := by
  intro first second h
  simp only [refFields, List.cons.injEq, and_true] at h
  obtain ⟨hsource, hdocument, hmanifest, hpage, hlabel, hbbox, hsha, hquote, hstart, hend, hlocation,
    hverification⟩ := h
  have hlocation' : first.locationQuality = second.locationQuality := by
    have hrank := natural_injective hlocation
    revert hrank
    cases first.locationQuality <;> cases second.locationQuality <;> decide
  have hverification' : first.verificationState = second.verificationState := by
    have hrank := natural_injective hverification
    revert hrank
    cases first.verificationState <;> cases second.verificationState <;> decide
  cases first
  cases second
  simp only [SourceRef.mk.injEq]
  exact ⟨toList_injective hsource, toList_injective hdocument, toList_injective hmanifest,
    natural_injective hpage, optional_injective toList_injective hlabel,
    optional_injective corners_injective hbbox, toList_injective hsha, toList_injective hquote,
    natural_injective hstart, natural_injective hend, hlocation', hverification'⟩

def profileFields (profile : ExtractionProfile) : List (List Char) :=
  [profile.modelSha256.toList, profile.promptSha256.toList, profile.ruleSha256.toList,
    natural profile.synthetic.toNat, natural profile.replicateId, natural profile.extractionEpoch]

theorem profileFields_injective : Function.Injective profileFields := by
  intro first second h
  simp only [profileFields, List.cons.injEq, and_true] at h
  obtain ⟨hmodel, hprompt, hrule, hsynthetic, hreplicate, hepoch⟩ := h
  have hsynthetic' : first.synthetic = second.synthetic := by
    have hnat := natural_injective hsynthetic
    revert hnat
    cases first.synthetic <;> cases second.synthetic <;> decide
  cases first
  cases second
  simp only [ExtractionProfile.mk.injEq]
  exact ⟨toList_injective hmodel, toList_injective hprompt, toList_injective hrule, hsynthetic',
    natural_injective hreplicate, natural_injective hepoch⟩

def statusRank : ReceiptStatus → Nat
  | .failed => 0
  | .processed => 1

def receiptFields (receipt : ExtractionReceipt) : List (List Char) :=
  [receipt.sourceId.toList, receipt.packetSha256.toList,
    optional String.toList receipt.responseSha256, optional String.toList receipt.rawResponseJson,
    rendered (profileFields receipt.profile), natural (statusRank receipt.status)]

theorem receiptFields_injective : Function.Injective receiptFields := by
  intro first second h
  simp only [receiptFields, List.cons.injEq, and_true] at h
  obtain ⟨hsource, hpacket, hresponse, hraw, hprofile, hstatus⟩ := h
  have hstatus' : first.status = second.status := by
    have hrank := natural_injective hstatus
    revert hrank
    cases first.status <;> cases second.status <;> decide
  cases first
  cases second
  simp only [ExtractionReceipt.mk.injEq]
  exact ⟨toList_injective hsource, toList_injective hpacket,
    optional_injective toList_injective hresponse, optional_injective toList_injective hraw,
    profileFields_injective (rendered_injective hprofile), hstatus'⟩

def renderKey (key : ClaimKey) : String :=
  String.ofList (rendered [key.tenantId.toList, key.sourceSha256.toList,
    rendered (refFields key.source), rendered (receiptFields key.receipt)])

theorem renderKey_injective : Function.Injective renderKey := by
  intro first second h
  have hfields := rendered_injective (String.ofList_injective h)
  simp only [List.cons.injEq, and_true] at hfields
  obtain ⟨htenant, hsource, href, hreceipt⟩ := hfields
  cases first
  cases second
  simp only [ClaimKey.mk.injEq]
  exact ⟨toList_injective htenant, toList_injective hsource,
    refFields_injective (rendered_injective href),
    receiptFields_injective (rendered_injective hreceipt)⟩

def rules : DiscoveryRules where
  text :=
    { nfc := id
      isAlnum := Char.isAlphanum
      isDigit := Char.isDigit }
  citation :=
    { sha256 := id
      normalized := id }
  requireUuid := fun _ _ => .ok ()
  packetHash := fun packet => packet.text
  responseHash := fun _ => "response"
  responseJson := fun _ => "response"
  claimHash := renderKey
  uuid5 := fun _ name => name

theorem rules_canonical : Canonical rules.text.nfc fun c => [c] where
  same := fun _ => List.Perm.refl _
  nonempty := fun _ => List.cons_ne_nil _ _
  space := fun _ => by simp

theorem side_pos : (0 : ℚ) < 2 :=
  two_pos

def page : PageGeometry where
  widthPt := 2
  heightPt := 2
  rotation := .r0
  cropBox := ⟨0, 0, 2, 2, side_pos, side_pos⟩
  width_pos := side_pos
  height_pos := side_pos
  consistent := by decide +kernel

def candidate (run native text : String) : CandidateBlock where
  kind := .paragraph
  source :=
    { documentVersionId := "document"
      parseManifestId := "manifest"
      parserRunId := run
      sourceNativeId := native
      physicalPage := 1
      printedPageLabel := none
      nativeBbox := none
      rawText := text
      charStart := 0
      charEnd := text.length }
  geometry := page
  context := []
  tableNativeId := none
  rowNumber := none
  columnNumber := none
  rowSpan := none
  columnSpan := none

def graph : CanonicalDocumentGraph where
  identity :=
    { tenantId := "tenant"
      documentVersionId := "document"
      parseManifestId := "manifest"
      sourceSha256 := String.ofList (List.replicate 64 'a') }
  blocks :=
    [{ sourceId := "conflict"
       kind := .paragraph
       candidates := [candidate "first" "2" "We planted 10 trees.",
         candidate "second" "2" "We planted 100 trees."]
       independentFamilies := ["a", "b"]
       quality := "conflicted"
       winner := none },
     { sourceId := "block"
       kind := .paragraph
       candidates := [candidate "first" "1" "Emissions fell. More follows."]
       independentFamilies := ["a"]
       quality := "verified"
       winner := some 0 }]
  edges := []
  issues := []
  candidates := []

def scope : ClaimScope where
  tenantId := "tenant"
  documentVersionId := "document"
  parseManifestId := "manifest"
  mode := .full
  selectedPages := []
  positive := by simp
  increasing := List.Pairwise.nil
  subset_iff := by simp

def reply : Json :=
  .obj [("spans", .arr [.obj
    [("char_end", .int 15), ("char_start", .int 0), ("kind", .str "claim"),
      ("quote", .str "Emissions fell."), ("reason", .null), ("topic_ids", .arr [])]])]

def extractor : ClaimExtractor where
  profile :=
    { modelSha256 := "model"
      promptSha256 := "prompt"
      ruleSha256 := "rule"
      synthetic := false
      replicateId := 1
      extractionEpoch := 1
      replicate_mem := by decide
      epoch_pos := first_pos }
  extract := fun _ _ => .payload reply

end Sample

theorem claim_discovery_sample : ∃ discovery sent,
    discoverAtomicClaims Sample.rules Sample.graph Sample.scope Sample.extractor =
        .ok (discovery, sent) ∧
      discovery.claims.map Claim.quote = ["Emissions fell."] ∧
      discovery.exclusions.map ClaimExclusion.reason = ["unprocessed_span", "conflicted"] ∧
      Accounts Sample.graph discovery sent := by
  have hrun : Returns (discoverAtomicClaims Sample.rules Sample.graph Sample.scope Sample.extractor)
      fun result => result.1.claims.map Claim.quote = ["Emissions fell."] ∧
        result.1.exclusions.map ClaimExclusion.reason = ["unprocessed_span", "conflicted"] := by
    decide +kernel
  obtain ⟨⟨discovery, sent⟩, hok, hclaims, hexclusions⟩ := hrun
  exact ⟨discovery, sent, hok, hclaims, hexclusions, claim_discovery Sample.rules_canonical
    Sample.renderKey_injective (fun _ _ _ h => h) hok⟩

end ProofOps.Application.Claims
