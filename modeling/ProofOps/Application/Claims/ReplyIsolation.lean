import ProofOps.Application.Claims.OffsetMapping

/-!
# Replies and other blocks

What a discovery says of a block depends on the reply to that block alone, as long as no reply makes
the whole discovery raise.  A reply does so exactly when it cuts the normalized text where the raw
text has no boundary, since the references are made outside the handler of malformed replies
(`reply_isolated`).
-/

namespace ProofOps.Application.Claims

open Foundation Foundation.Checked Foundation.CanonicalText Foundation.PyJson Foundation.Sorting Domain
  Evidence Ingest

/-! ### References that can be made -/

def Citable (block : CanonicalBlock) : Prop :=
  ∃ candidate, block.winning = some candidate ∧ candidate.hasInvalidGeometry = false

def CanCite (rules : DiscoveryRules) (block : CanonicalBlock) (start stop : Nat) : Prop :=
  Citable block ∧ ∃ first last, Maps rules.text.nfc block.rawText start stop first last

def WellFormed (block : CanonicalBlock) : Prop :=
  ∀ candidate ∈ block.winning, 1 ≤ candidate.source.physicalPage ∧
    candidate.source.charStart ≤ candidate.source.charEnd

variable {start stop : Nat}

section References

variable {rules : DiscoveryRules} {decompose : Char → List Char} {block : CanonicalBlock}

theorem spanSourceRef_ok_iff (hnfc : Canonical rules.text.nfc decompose)
    (hblock : WellFormed block) :
    (∃ ref, spanSourceRef rules block start stop = .ok ref) ↔ CanCite rules block start stop := by
  constructor
  · rintro ⟨ref, h⟩
    cases hwinning : block.winning with
    | none =>
      unfold spanSourceRef at h
      rw [hwinning] at h
      cases h
    | some candidate =>
      have hpage := (hblock candidate hwinning).1
      obtain ⟨hgeometry, hmaps⟩ := (spanSourceRef_iff hnfc hwinning hpage).mp ⟨ref, h, rfl, rfl⟩
      exact ⟨⟨candidate, hwinning, hgeometry⟩, _, _, hmaps⟩
  · rintro ⟨⟨candidate, hwinning, hgeometry⟩, first, last, hmaps⟩
    have hpage := (hblock candidate hwinning).1
    obtain ⟨ref, href, -⟩ := (spanSourceRef_iff hnfc hwinning hpage).mpr ⟨hgeometry, hmaps⟩
    exact ⟨ref, href⟩

theorem blockSourceRef_ok_iff (hblock : WellFormed block) :
    (∃ ref, blockSourceRef rules.citation block = .ok ref) ↔ Citable block := by
  unfold blockSourceRef Citable
  cases hwinning : block.winning with
  | none =>
    constructor
    · rintro ⟨ref, ⟨⟩⟩
    · rintro ⟨candidate, ⟨⟩, -⟩
  | some candidate =>
    dsimp only
    have hsource := hblock candidate hwinning
    cases hgeometry : candidate.hasInvalidGeometry with
    | true =>
      constructor
      · rintro ⟨ref, ⟨⟩⟩
      · rintro ⟨other, ⟨⟩, hother⟩
        rw [hgeometry] at hother
        cases hother
    | false =>
      rw [if_neg Bool.false_ne_true, dif_pos hsource]
      exact ⟨fun _ => ⟨candidate, rfl, hgeometry⟩, fun _ => ⟨_, rfl⟩⟩

end References

/-! ### Replies that can be answered -/

def PartsCited (rules : DiscoveryRules) (start stop : Nat) : Nat → List CanonicalBlock → Prop
  | _, [] => True
  | cursor, part :: parts =>
    let length := (normalizedText rules part).length
    (start - cursor < min length (stop - cursor) →
      CanCite rules part (start - cursor) (min length (stop - cursor))) ∧
      PartsCited rules start stop (cursor + length + 1) parts

def CutsCited (setting : Setting) (block : CanonicalBlock) (text : String) :
    Nat → List ExtractionSpan → Prop
  | _, [] => True
  | cursor, span :: spans =>
    (PyText.nonBlank (slice text cursor span.charStart) = true →
      CanCite setting.rules block cursor span.charStart) ∧
      (span.charStart ≠ span.charEnd →
        CanCite setting.rules block span.charStart span.charEnd ∧
          (span.kind = .claim →
            PartsCited setting.rules span.charStart span.charEnd 0
              (setting.partsOf block.sourceId)) ∧
          CutsCited setting block text span.charEnd spans)

def Answerable (setting : Setting) (block : CanonicalBlock) : Reply → Prop
  | .outputError _ => Citable block
  | .transportError => Citable block
  | .raised => False
  | .payload payload => Citable block ∧
      ∀ spans, validateExtractionResponse setting.rules.text payload
          (normalizedText setting.rules block) = .ok spans →
        CutsCited setting block (normalizedText setting.rules block) 0
          (spans ++ [endSpan (normalizedText setting.rules block)])

def Setting.WellFormed (setting : Setting) : Prop :=
  (∀ block ∈ setting.graph.blocks, Claims.WellFormed block) ∧
    ∀ group ∈ setting.joined, ∀ part ∈ group.2, Claims.WellFormed part

variable {spans : List ExtractionSpan}

section Replies

variable {setting : Setting} {decompose : Char → List Char} {block : CanonicalBlock}

theorem exists_mapError_ok {ε δ α : Type} {computation : Except ε α} {f : ε → δ} :
    (∃ value, computation.mapError f = .ok value) ↔ ∃ value, computation = .ok value := by
  simp only [mapError_ok_iff]

theorem refOf_ok_iff (hnfc : Canonical setting.rules.text.nfc decompose)
    (hblock : WellFormed block) :
    (∃ ref, refOf setting block start stop = .ok ref) ↔ CanCite setting.rules block start stop := by
  unfold refOf
  rw [exists_mapError_ok, spanSourceRef_ok_iff hnfc hblock]

theorem gapEntries_ok_iff (hnfc : Canonical setting.rules.text.nfc decompose)
    (hblock : WellFormed block) {text : String} {cursor : Nat} :
    (∃ gap, gapEntries setting block text cursor start = .ok gap) ↔
      (PyText.nonBlank (slice text cursor start) = true →
        CanCite setting.rules block cursor start) := by
  unfold gapEntries
  split_ifs with hblank
  · rw [exists_bind_ok_iff, ← refOf_ok_iff hnfc hblock]
    constructor
    · rintro ⟨ref, href, -⟩ -
      exact ⟨ref, href⟩
    · intro h
      obtain ⟨ref, href⟩ := h hblank
      exact ⟨ref, href, _, rfl⟩
  · exact ⟨fun _ h => absurd h hblank, fun _ => ⟨[], rfl⟩⟩

theorem fragmentRefs_ok_iff {rules : DiscoveryRules} (hnfc : Canonical rules.text.nfc decompose)
    {parts : List CanonicalBlock} (hparts : ∀ part ∈ parts, WellFormed part) {cursor : Nat} :
    (∃ refs, fragmentRefs rules start stop cursor parts = .ok refs) ↔
      PartsCited rules start stop cursor parts := by
  induction parts generalizing cursor with
  | nil => exact ⟨fun _ => trivial, fun _ => ⟨[], rfl⟩⟩
  | cons part parts ih =>
    rw [List.forall_mem_cons] at hparts
    have hlater := @ih hparts.2 (cursor + (normalizedText rules part).length + 1)
    have hhere : (∃ refs, fragmentRef rules part (start - cursor)
          (min (normalizedText rules part).length (stop - cursor)) = .ok refs) ↔
        (start - cursor < min (normalizedText rules part).length (stop - cursor) →
          CanCite rules part (start - cursor)
            (min (normalizedText rules part).length (stop - cursor))) := by
      unfold fragmentRef
      split_ifs with hlt
      · rw [exists_bind_ok_iff, ← spanSourceRef_ok_iff hnfc hparts.1]
        constructor
        · rintro ⟨ref, href, -⟩ -
          exact ⟨ref, href⟩
        · intro h
          obtain ⟨ref, href⟩ := h hlt
          exact ⟨ref, href, _, rfl⟩
      · exact ⟨fun _ h => absurd h hlt, fun _ => ⟨[], rfl⟩⟩
    unfold fragmentRefs PartsCited
    dsimp only
    rw [exists_bind_ok_iff, ← hhere, ← hlater]
    constructor
    · rintro ⟨here, hok, rest⟩
      obtain ⟨later, hok', -⟩ := exists_bind_ok_iff.mp rest
      exact ⟨⟨here, hok⟩, later, hok'⟩
    · rintro ⟨⟨here, hok⟩, later, hok'⟩
      exact ⟨here, hok, exists_bind_ok_iff.mpr ⟨later, hok', _, rfl⟩⟩

theorem Setting.WellFormed.parts (h : setting.WellFormed) (sourceId : String) :
    ∀ part ∈ setting.partsOf sourceId, Claims.WellFormed part := by
  intro part hpart
  obtain ⟨group, hgroup, hin⟩ := Setting.mem_partsOf hpart
  exact h.2 group hgroup part hin

theorem spanEntry_ok_iff (hnfc : Canonical setting.rules.text.nfc decompose)
    (hsetting : setting.WellFormed) {receipt : ExtractionReceipt} {span : ExtractionSpan}
    {ref : SourceRef} :
    (∃ entry, spanEntry setting block receipt span ref = .ok entry) ↔
      (span.kind = .claim → PartsCited setting.rules span.charStart span.charEnd 0
        (setting.partsOf block.sourceId)) := by
  unfold spanEntry
  split_ifs with hkind
  · rw [exists_bind_ok_iff, ← fragmentRefs_ok_iff hnfc (hsetting.parts block.sourceId)]
    constructor
    · rintro ⟨refs, hrefs, -⟩ -
      exact ⟨refs, mapError_ok_iff.mp hrefs⟩
    · intro h
      obtain ⟨refs, hrefs⟩ := h hkind
      exact ⟨refs, mapError_ok_iff.mpr hrefs, _, rfl⟩
  · exact ⟨fun _ h => absurd h hkind, fun _ => ⟨_, rfl⟩⟩

theorem accountSpans_ok_iff (hnfc : Canonical setting.rules.text.nfc decompose)
    (hsetting : setting.WellFormed) (hblock : WellFormed block) {receipt : ExtractionReceipt}
    {text : String} {cursor : Nat} :
    (∃ entries, accountSpans setting block receipt text cursor spans = .ok entries) ↔
      CutsCited setting block text cursor spans := by
  induction spans generalizing cursor with
  | nil => exact ⟨fun _ => trivial, fun _ => ⟨[], rfl⟩⟩
  | cons span spans ih =>
    unfold accountSpans CutsCited
    rw [exists_bind_ok_iff, ← gapEntries_ok_iff hnfc hblock]
    constructor
    · rintro ⟨gap, hgap, rest⟩
      refine ⟨⟨gap, hgap⟩, ?_⟩
      intro hne
      rw [if_neg hne] at rest
      obtain ⟨ref, href, rest⟩ := exists_bind_ok_iff.mp rest
      obtain ⟨entry, hentry, rest⟩ := exists_bind_ok_iff.mp rest
      obtain ⟨later, hlater, -⟩ := exists_bind_ok_iff.mp rest
      refine ⟨(refOf_ok_iff hnfc hblock).mp ⟨ref, href⟩, ?_, ih.mp ⟨later, hlater⟩⟩
      exact (spanEntry_ok_iff hnfc hsetting).mp ⟨entry, hentry⟩
    · rintro ⟨⟨gap, hgap⟩, hspan⟩
      refine ⟨gap, hgap, ?_⟩
      split_ifs with hempty
      · exact ⟨gap, rfl⟩
      · obtain ⟨hcite, hparts, hcuts⟩ := hspan hempty
        obtain ⟨ref, href⟩ := (refOf_ok_iff hnfc hblock).mpr hcite
        obtain ⟨entry, hentry⟩ := (@spanEntry_ok_iff _ _ block hnfc hsetting receipt span ref).mpr hparts
        obtain ⟨later, hlater⟩ := ih.mpr hcuts
        refine exists_bind_ok_iff.mpr ⟨ref, href, ?_⟩
        refine exists_bind_ok_iff.mpr ⟨entry, hentry, ?_⟩
        exact exists_bind_ok_iff.mpr ⟨later, hlater, _, rfl⟩

theorem slice_whole (text : String) : slice text 0 text.length = text := by
  rw [← String.toList_inj, toList_slice, List.drop_zero, ← String.length_toList, List.take_length]

theorem citable_of_cuts (htext : PyText.nonBlank (normalizedText setting.rules block) = true)
    {payload : Json} (hspans : validateExtractionResponse setting.rules.text payload
      (normalizedText setting.rules block) = .ok spans)
    (h : CutsCited setting block (normalizedText setting.rules block) 0
      (spans ++ [endSpan (normalizedText setting.rules block)])) : Citable block := by
  cases spans with
  | nil =>
    have hgap := h.1
    refine (hgap ?_).1
    show PyText.nonBlank (slice _ 0 (normalizedText setting.rules block).length) = true
    rw [slice_whole]
    exact htext
  | cons span spans =>
    have hquotes := (validateExtractionResponse_ok hspans).1 span List.mem_cons_self
    exact (h.2 (Nat.ne_of_lt hquotes.nonempty)).1.1

theorem failed_ok_iff (hblock : WellFormed block) {reason : String} :
    (∃ visit, failed setting block reason = .ok visit) ↔ Citable block := by
  unfold failed
  rw [exists_bind_ok_iff, ← @blockSourceRef_ok_iff setting.rules block hblock]
  constructor
  · rintro ⟨ref, href, -⟩
    exact ⟨ref, mapError_ok_iff.mp href⟩
  · rintro ⟨ref, href⟩
    exact ⟨ref, mapError_ok_iff.mpr href, _, rfl⟩

theorem visitText_ok_iff (hnfc : Canonical setting.rules.text.nfc decompose)
    (hsetting : setting.WellFormed) (hblock : WellFormed block)
    (htext : PyText.nonBlank (normalizedText setting.rules block) = true) (reply : Reply) :
    (∃ visit, visitText setting block reply = .ok visit) ↔ Answerable setting block reply := by
  cases reply with
  | outputError failureCode | transportError => exact failed_ok_iff hblock
  | raised =>
    constructor
    · rintro ⟨visit, ⟨⟩⟩
    · exact fun h => absurd h not_false
  | payload payload =>
    unfold visitText Answerable
    dsimp only
    cases hspans : validateExtractionResponse setting.rules.text payload
        (normalizedText setting.rules block) with
    | error error =>
      rw [failed_ok_iff hblock]
      refine ⟨fun h => ⟨h, ?_⟩, fun h => h.1⟩
      rintro spans ⟨⟩
    | ok spans =>
      have haccounted : (∃ visit, accounted setting block payload spans = .ok visit) ↔
          CutsCited setting block (normalizedText setting.rules block) 0
            (spans ++ [endSpan (normalizedText setting.rules block)]) := by
        unfold accounted
        rw [exists_bind_ok_iff, ← accountSpans_ok_iff hnfc hsetting hblock]
        constructor
        · rintro ⟨entries, hentries, -⟩
          exact ⟨entries, hentries⟩
        · rintro ⟨entries, hentries⟩
          exact ⟨entries, hentries, _, rfl⟩
      rw [haccounted]
      constructor
      · intro h
        refine ⟨citable_of_cuts htext hspans h, ?_⟩
        rintro other ⟨⟩
        exact h
      · exact fun h => h.2 spans rfl

end Replies

/-! ### Runs -/

def sends (setting : Setting) (block : CanonicalBlock) : Bool :=
  !(setting.scope.mode = .declaredSubset ∧ block.pageNum ∉ setting.scope.selectedPages : Bool) &&
    !setting.isFragment block.sourceId && readable block && block.winner.isSome &&
    block.winning.isSome && PyText.nonBlank (normalizedText setting.rules block)

/-- The packets of the blocks that are sent. -/
def packetsOf (setting : Setting) (blocks : List CanonicalBlock) : List Packet :=
  (blocks.filter (sends setting)).map (packetOf setting)

variable {visit : Visit} {blocks : List CanonicalBlock} {visits : List Visit} {sent : List Packet}

section Runs

variable {setting : Setting} {decompose : Char → List Char} {block : CanonicalBlock}

theorem visitBlock_of_sends (h : sends setting block = true) (extract : Packet → Reply) :
    visitBlock setting extract block =
      visitText setting block (extract (packetOf setting block)) := by
  unfold sends at h
  simp only [Bool.and_eq_true, Bool.not_eq_true', decide_eq_false_iff_not, Option.isSome_iff_ne_none]
    at h
  obtain ⟨⟨⟨⟨⟨hsubset, hfragment⟩, hreadable⟩, hwinner⟩, hwinning⟩, htext⟩ := h
  unfold visitBlock
  rw [if_neg hsubset, if_neg (Bool.not_eq_true _ ▸ hfragment), if_neg, if_neg hwinning, if_neg]
  · rw [htext]
    exact Bool.noConfusion
  · rw [hreadable]
    rintro (⟨⟨⟩⟩ | hnone)
    exact hwinner hnone

theorem visitBlock_of_not_sends (h : sends setting block = false) (extract other : Packet → Reply) :
    visitBlock setting extract block = visitBlock setting other block := by
  unfold visitBlock
  split_ifs with hsubset hfragment hreadable hwinning htext
  · rfl
  · rfl
  · rfl
  · rfl
  · rfl
  · rw [not_or] at hreadable
    unfold sends at h
    simp only [hfragment, Bool.of_not_eq_false hreadable.1,
      Option.isSome_iff_ne_none.mpr hreadable.2, Option.isSome_iff_ne_none.mpr hwinning,
      Bool.of_not_eq_false htext, decide_eq_false hsubset] at h
    cases h

theorem failed_sent {reason : String} (h : failed setting block reason = .ok visit) :
    visit.sent = [packetOf setting block] := by
  obtain ⟨ref, -, h⟩ := bind_ok h
  cases h
  rfl

theorem visitText_sent {reply : Reply}
    (h : visitText setting block reply = .ok visit) : visit.sent = [packetOf setting block] := by
  unfold visitText at h
  split at h
  · exact failed_sent h
  · exact failed_sent h
  · cases h
  · split at h
    · exact failed_sent h
    · obtain ⟨entries, -, h⟩ := bind_ok h
      cases h
      rfl

theorem visitBlock_sent {extract : Packet → Reply}
    (h : visitBlock setting extract block = .ok visit) :
    visit.sent = packetsOf setting [block] := by
  unfold packetsOf
  cases hsends : sends setting block with
  | true =>
    rw [visitBlock_of_sends hsends] at h
    rw [List.filter_cons_of_pos hsends]
    exact visitText_sent h
  | false =>
    rw [List.filter_cons_of_neg (Bool.not_eq_true _ ▸ hsends), List.filter_nil, List.map_nil]
    -- Were it sent, every exception of the model would end the visit.
    rw [visitBlock_of_not_sends hsends extract fun _ => .raised] at h
    unfold visitBlock at h
    split_ifs at h
    · cases h
      rfl
    · obtain ⟨ref, -, h⟩ := bind_ok h
      cases pure_ok h
      rfl
    · cases h
      rfl
    · obtain ⟨ref, -, h⟩ := bind_ok h
      cases pure_ok h
      rfl
    · cases h

theorem packetsOf_cons (setting : Setting) (block : CanonicalBlock) (blocks : List CanonicalBlock) :
    packetsOf setting (block :: blocks) = packetsOf setting [block] ++ packetsOf setting blocks := by
  unfold packetsOf
  rw [← List.map_append, ← List.filter_append, List.singleton_append]

def DifferOnlyAt (sourceId : String) (first second : List Packet → Packet → Reply) : Prop :=
  ∀ sent packet, packet.sourceId ≠ sourceId → first sent packet = second sent packet

def RepliesAnswerable (setting : Setting) (extract : List Packet → Packet → Reply)
    (sourceId : String) (sent : List Packet) (blocks : List CanonicalBlock) : Prop :=
  ∀ front block back, blocks = front ++ block :: back → block.sourceId = sourceId →
    sends setting block = true →
    Answerable setting block (extract (sent ++ packetsOf setting front) (packetOf setting block))

variable {sourceId : String} {first second : List Packet → Packet → Reply}

def SameVisits (sourceId : String) (block : CanonicalBlock) (visits : Visit × Visit) : Prop :=
  block.sourceId ≠ sourceId → visits.1 = visits.2

theorem sameVisits_self (h : List.Forall₂ (VisitOf setting) blocks visits) :
    List.Forall₂ (SameVisits sourceId) blocks (visits.zip visits) := by
  induction h with
  | nil => exact .nil
  | cons _ _ ih => exact .cons (fun _ => rfl) ih

theorem repliesAnswerable_cons :
    RepliesAnswerable setting second sourceId sent (block :: blocks) ↔
      (block.sourceId = sourceId → sends setting block = true →
        Answerable setting block (second sent (packetOf setting block))) ∧
        RepliesAnswerable setting second sourceId (sent ++ packetsOf setting [block]) blocks := by
  constructor
  · intro h
    constructor
    · intro hid hsends
      have hblock := h [] block blocks rfl hid hsends
      rw [show packetsOf setting [] = [] from rfl, List.append_nil] at hblock
      exact hblock
    · intro front other back hsplit hid hsends
      have hother := h (block :: front) other back (by rw [hsplit, List.cons_append]) hid hsends
      rw [packetsOf_cons, ← List.append_assoc] at hother
      exact hother
  · rintro ⟨hblock, hblocks⟩ front other back hsplit hid hsends
    cases front with
    | nil =>
      obtain ⟨rfl, rfl⟩ := List.cons_eq_cons.mp hsplit
      rw [show packetsOf setting [] = [] from rfl, List.append_nil]
      exact hblock hid hsends
    | cons head front =>
      obtain ⟨rfl, rfl⟩ := List.cons_eq_cons.mp hsplit
      rw [packetsOf_cons, ← List.append_assoc]
      exact hblocks front other back rfl hid hsends

/-- A block that the models answer alike is visited alike. -/
theorem visitBlock_other (hnfc : Canonical setting.rules.text.nfc decompose)
    (hsetting : setting.WellFormed) (hblock : WellFormed block)
    (hdiffer : DifferOnlyAt sourceId first second)
    (h : visitBlock setting (first sent) block = .ok visit) :
    (∃ other, visitBlock setting (second sent) block = .ok other ∧
        (block.sourceId ≠ sourceId → visit = other)) ↔
      (block.sourceId = sourceId → sends setting block = true →
        Answerable setting block (second sent (packetOf setting block))) := by
  cases hsends : sends setting block with
  | false =>
    rw [visitBlock_of_not_sends hsends (first sent) (second sent)] at h
    refine ⟨fun _ _ hfalse => absurd hfalse Bool.false_ne_true, fun _ => ⟨visit, h, fun _ => rfl⟩⟩
  | true =>
    by_cases hid : block.sourceId = sourceId
    · have htext : PyText.nonBlank (normalizedText setting.rules block) = true := by
        unfold sends at hsends
        rw [Bool.and_eq_true] at hsends
        exact hsends.2
      rw [visitBlock_of_sends hsends (second sent)]
      have hiff := visitText_ok_iff hnfc hsetting hblock htext (second sent (packetOf setting block))
      constructor
      · rintro ⟨other, hother, -⟩ - -
        exact hiff.mp ⟨other, hother⟩
      · intro hanswer
        obtain ⟨other, hother⟩ := hiff.mpr (hanswer hid rfl)
        exact ⟨other, hother, fun hne => absurd hid hne⟩
    · have hsame := hdiffer sent (packetOf setting block) hid
      rw [visitBlock_of_sends hsends, hsame, ← visitBlock_of_sends hsends] at h
      exact ⟨fun _ heq => absurd heq hid, fun _ => ⟨visit, h, fun _ => rfl⟩⟩

theorem visitBlocks_other (hnfc : Canonical setting.rules.text.nfc decompose)
    (hsetting : setting.WellFormed) (hdiffer : DifferOnlyAt sourceId first second)
    (hblocks : ∀ block ∈ blocks, WellFormed block)
    (h : visitBlocks setting first sent blocks = .ok visits) :
    (∃ others, visitBlocks setting second sent blocks = .ok others ∧
        List.Forall₂ (SameVisits sourceId) blocks (visits.zip others) ∧
        visits.length = others.length) ↔
      RepliesAnswerable setting second sourceId sent blocks := by
  induction blocks generalizing sent visits with
  | nil =>
    cases h
    constructor
    · intro _ front block back hsplit
      exact absurd hsplit.symm (List.append_ne_nil_of_right_ne_nil _ (List.cons_ne_nil _ _))
    · exact fun _ => ⟨[], rfl, .nil, rfl⟩
  | cons block blocks ih =>
    rw [List.forall_mem_cons] at hblocks
    obtain ⟨visit, hvisit, h⟩ := bind_ok h
    obtain ⟨later, hlater, h⟩ := bind_ok h
    cases pure_ok h
    have hsent := visitBlock_sent hvisit
    rw [hsent] at hlater
    rw [repliesAnswerable_cons, ← visitBlock_other hnfc hsetting hblocks.1 hdiffer hvisit,
      ← ih hblocks.2 hlater]
    constructor
    · rintro ⟨others, hothers, hsame, hlength⟩
      obtain ⟨other, hother, rest⟩ := bind_ok hothers
      obtain ⟨more, hmore, rest⟩ := bind_ok rest
      cases pure_ok rest
      rw [visitBlock_sent hother] at hmore
      rw [List.zip_cons_cons, List.forall₂_cons] at hsame
      exact ⟨⟨other, hother, hsame.1⟩, more, hmore, hsame.2, Nat.succ.inj hlength⟩
    · rintro ⟨⟨other, hother, hsame⟩, more, hmore, hrest, hlength⟩
      refine ⟨other :: more, ?_, ?_, congrArg Nat.succ hlength⟩
      · refine bind_ok_iff.mpr ⟨other, hother, ?_⟩
        rw [visitBlock_sent hother]
        exact bind_ok_iff.mpr ⟨more, hmore, rfl⟩
      · exact .cons hsame hrest

theorem repliesAnswerable_of_ok (hnfc : Canonical setting.rules.text.nfc decompose)
    (hsetting : setting.WellFormed) (hblocks : ∀ block ∈ blocks, WellFormed block)
    (h : visitBlocks setting second sent blocks = .ok visits) :
    RepliesAnswerable setting second sourceId sent blocks := by
  refine (visitBlocks_other hnfc hsetting (fun _ _ _ => rfl) hblocks h).mp ⟨visits, h, ?_, rfl⟩
  exact sameVisits_self (visitBlocks_ok hnfc h)

end Runs

/-! ### Discoveries -/

def SameElsewhere (sourceId : String) (first second : ClaimDiscovery) : Prop :=
  ∀ other, other ≠ sourceId → claimsOf first other = claimsOf second other ∧
    exclusionsOf first other = exclusionsOf second other

variable {others : List Visit}

section Discoveries

variable {setting : Setting} {decompose : Char → List Char} {sourceId : String}

theorem flatMap_same {α : Type} {contribution : Visit → List α}
    (hnone : ∀ block visit, VisitOf setting block visit → block.sourceId = sourceId →
      contribution visit = [])
    (hvisits : List.Forall₂ (VisitOf setting) blocks visits)
    (hothers : List.Forall₂ (VisitOf setting) blocks others)
    (hsame : List.Forall₂ (SameVisits sourceId) blocks (visits.zip others)) :
    visits.flatMap contribution = others.flatMap contribution := by
  induction hvisits generalizing others with
  | nil =>
    cases hothers
    rfl
  | @cons block visit blocks visits hvisit hvisits ih =>
    cases hothers with
    | @cons _ other _ others hother hothers =>
      rw [List.zip_cons_cons, List.forall₂_cons] at hsame
      rw [List.flatMap_cons, List.flatMap_cons, ih hothers hsame.2]
      by_cases hid : block.sourceId = sourceId
      · rw [hnone block visit hvisit hid, hnone block other hother hid]
      · have heq : visit = other := hsame.1 hid
        rw [heq]

theorem sameElsewhere_result (hvisits : List.Forall₂ (VisitOf setting) blocks visits)
    (hothers : List.Forall₂ (VisitOf setting) blocks others)
    (hsame : List.Forall₂ (SameVisits sourceId) blocks (visits.zip others)) :
    SameElsewhere sourceId (resultOf setting visits) (resultOf setting others) := by
  intro other hne
  constructor
  · rw [claimsOf_eq, claimsOf_eq]
    refine flatMap_same ?_ hvisits hothers hsame
    intro block visit hvisit hid
    exact @VisitOf.filter_claims_other setting { block with sourceId := other } block visit hvisit
      (hid ▸ hne)
  · rw [exclusionsOf_eq, exclusionsOf_eq]
    refine flatMap_same ?_ hvisits hothers hsame
    intro block visit hvisit hid
    exact @VisitOf.filter_exclusions_other setting { block with sourceId := other } block visit hvisit
      (hid ▸ hne)

def visitOrder (graph : CanonicalDocumentGraph) : List CanonicalBlock :=
  sortedBy (fun block => toLex (block.pageNum, block.sourceId)) graph.blocks

/-- **Replies are isolated just when they can be answered.**  Beside a discovery that succeeds, take
another behaviour of the model that differs for one block only: it tells the same of every other
block just when its replies to that block can be answered; otherwise it tells nothing at all. -/
theorem reply_isolated {rules : DiscoveryRules} (hnfc : Canonical rules.text.nfc decompose)
    {graph : CanonicalDocumentGraph} (hgraph : ∀ block ∈ graph.blocks, WellFormed block)
    {scope : ClaimScope} {extractor other : ClaimExtractor}
    (hprofile : extractor.profile = other.profile)
    (hdiffer : DifferOnlyAt sourceId extractor.extract other.extract)
    {discovery : ClaimDiscovery} {sent : List Packet}
    (h : discoverAtomicClaims rules graph scope extractor = .ok (discovery, sent)) :
    (∃ discovery' sent', discoverAtomicClaims rules graph scope other = .ok (discovery', sent') ∧
        SameElsewhere sourceId discovery discovery') ↔
      ∀ joined, continuations graph = .ok joined →
        RepliesAnswerable ⟨rules, graph, scope, other.profile, joined⟩ other.extract sourceId []
          (visitOrder graph) := by
  obtain ⟨⟨⟩, hcheck, h⟩ := bind_ok h
  obtain ⟨joined, hjoined, h⟩ := bind_ok h
  obtain ⟨visits, hvisits, h⟩ := bind_ok h
  cases pure_ok h
  rw [hprofile] at hvisits ⊢
  have hsetting : Setting.WellFormed ⟨rules, graph, scope, other.profile, joined⟩ := by
    refine ⟨hgraph, ?_⟩
    intro group hgroup part hpart
    exact hgraph part (continuations_mem hjoined group hgroup part hpart)
  have hordered : ∀ block ∈ visitOrder graph, WellFormed block := fun block hblock =>
    hgraph block (mem_sortedBy.mp hblock)
  have hiff := visitBlocks_other hnfc hsetting hdiffer hordered hvisits
  constructor
  · rintro ⟨discovery', sent', hother, hsame⟩ joined' hjoined'
    rw [hjoined] at hjoined'
    cases hjoined'
    replace hother := rest_ok hother
    obtain ⟨joined', hjoined', hother⟩ := bind_ok hother
    rw [hjoined] at hjoined'
    cases hjoined'
    obtain ⟨others, hothers, -⟩ := bind_ok hother
    -- A run that succeeds has answered every reply.
    exact repliesAnswerable_of_ok hnfc hsetting hordered hothers
  · intro hanswerable
    obtain ⟨others, hothers, hsame, -⟩ := hiff.mpr (hanswerable joined hjoined)
    refine ⟨resultOf ⟨rules, graph, scope, other.profile, joined⟩ others, others.flatMap Visit.sent,
      ?_, sameElsewhere_result (visitBlocks_ok hnfc hvisits) (visitBlocks_ok hnfc hothers) hsame⟩
    refine bind_ok_iff.mpr ⟨(), hcheck, ?_⟩
    refine bind_ok_iff.mpr ⟨joined, hjoined, ?_⟩
    exact bind_ok_iff.mpr ⟨others, hothers, rfl⟩

end Discoveries

namespace Sample

def decomposeNukta (c : Char) : List Char :=
  if c = '\u0958' then ['\u0915', '\u093C'] else [c]

def nuktaRules : DiscoveryRules :=
  { rules with
    text :=
      { rules.text with nfc := fun raw => String.ofList (raw.toList.flatMap decomposeNukta) } }

theorem decomposeNukta_idem (c : Char) :
    (decomposeNukta c).flatMap decomposeNukta = decomposeNukta c := by
  unfold decomposeNukta
  split_ifs with h
  · decide
  · rw [List.flatMap_singleton, if_neg h]

theorem nukta_canonical : Canonical nuktaRules.text.nfc decomposeNukta where
  same := by
    intro raw
    show Same decomposeNukta raw.toList (String.ofList (raw.toList.flatMap decomposeNukta)).toList
    unfold Same
    rw [String.toList_ofList, List.flatMap_assoc]
    simp only [decomposeNukta_idem]
    exact List.Perm.refl _
  nonempty := by
    intro c
    unfold decomposeNukta
    split_ifs
    · exact List.cons_ne_nil _ _
    · exact List.cons_ne_nil _ _
  space := by
    intro c
    rw [← List.all_eq_true]
    unfold decomposeNukta
    split_ifs with h
    · subst h
      decide
    · simp

def paragraph (sourceId text : String) : CanonicalBlock where
  sourceId := sourceId
  kind := .paragraph
  candidates := [candidate "first" sourceId text]
  independentFamilies := ["a"]
  quality := "verified"
  winner := some 0

def nuktaGraph : CanonicalDocumentGraph :=
  { graph with blocks := [paragraph "first" "Emissions fell.", paragraph "second" "\u0958"] }

theorem nuktaGraph_wellFormed : ∀ block ∈ nuktaGraph.blocks, WellFormed block := by
  unfold WellFormed
  decide

def cutReply : Json :=
  .obj [("spans", .arr [.obj
    [("char_end", .int 1), ("char_start", .int 0), ("kind", .str "excluded"),
      ("quote", .str "\u0915"), ("reason", .str "symbol"), ("topic_ids", .arr [])]])]

def answering (second : Reply) : ClaimExtractor where
  profile := extractor.profile
  extract := fun _ packet => if packet.sourceId = "second" then second else .payload reply

theorem answering_differ (first second : Reply) :
    DifferOnlyAt "second" (answering first).extract (answering second).extract := by
  intro sent packet hne
  show (if packet.sourceId = "second" then first else _) =
    if packet.sourceId = "second" then second else _
  rw [if_neg hne, if_neg hne]

end Sample

theorem reply_isolated_timeout : ∃ discovery sent discovery' sent',
    discoverAtomicClaims Sample.nuktaRules Sample.nuktaGraph Sample.scope
        (Sample.answering (.payload (.obj [("spans", .arr [])]))) = .ok (discovery, sent) ∧
      (claimsOf discovery "first").map Claim.quote = ["Emissions fell."] ∧
      discoverAtomicClaims Sample.nuktaRules Sample.nuktaGraph Sample.scope
        (Sample.answering .transportError) = .ok (discovery', sent') ∧
      SameElsewhere "second" discovery discovery' := by
  have hrun : Returns (discoverAtomicClaims Sample.nuktaRules Sample.nuktaGraph Sample.scope
      (Sample.answering (.payload (.obj [("spans", .arr [])]))))
      fun result => (claimsOf result.1 "first").map Claim.quote = ["Emissions fell."] := by
    decide +kernel
  obtain ⟨⟨discovery, sent⟩, hok, hclaims⟩ := hrun
  have hdiffer := Sample.answering_differ (.payload (.obj [("spans", .arr [])])) .transportError
  have hprofile : (Sample.answering (.payload (.obj [("spans", .arr [])]))).profile =
      (Sample.answering .transportError).profile := rfl
  have hiff := reply_isolated Sample.nukta_canonical Sample.nuktaGraph_wellFormed hprofile hdiffer hok
  obtain ⟨discovery', sent', hother, hsame⟩ := hiff.mpr (by
    intro joined _ front block back hsplit hid _
    show Answerable _ block (if block.sourceId = "second" then .transportError else _)
    rw [if_pos hid]
    have hmem : block ∈ Sample.nuktaGraph.blocks := by
      refine mem_sortedBy.mp (?_ : block ∈ visitOrder Sample.nuktaGraph)
      rw [hsplit]
      exact List.mem_append_right _ List.mem_cons_self
    have hcitable : ∀ block ∈ Sample.nuktaGraph.blocks, Citable block := by
      intro block hblock
      simp only [Sample.nuktaGraph, List.mem_cons, List.not_mem_nil, or_false] at hblock
      rcases hblock with rfl | rfl
      · exact ⟨_, rfl, by decide +kernel⟩
      · exact ⟨_, rfl, by decide +kernel⟩
    exact hcitable block hmem)
  exact ⟨discovery, sent, discovery', sent', hok, hclaims, hother, hsame⟩

theorem reply_ends_discovery :
    DifferOnlyAt "second" (Sample.answering (.payload (.obj [("spans", .arr [])]))).extract
        (Sample.answering (.payload Sample.cutReply)).extract ∧
      Returns (discoverAtomicClaims Sample.nuktaRules Sample.nuktaGraph Sample.scope
          (Sample.answering (.payload (.obj [("spans", .arr [])]))))
        (fun result => (claimsOf result.1 "first").map Claim.quote = ["Emissions fell."]) ∧
      ¬∃ result, discoverAtomicClaims Sample.nuktaRules Sample.nuktaGraph Sample.scope
        (Sample.answering (.payload Sample.cutReply)) = .ok result := by
  refine ⟨Sample.answering_differ _ _, ?_, ?_⟩
  · decide +kernel
  · rintro ⟨result, h⟩
    have hfails : (discoverAtomicClaims Sample.nuktaRules Sample.nuktaGraph Sample.scope
        (Sample.answering (.payload Sample.cutReply))).isOk = false := by
      decide +kernel
    rw [h] at hfails
    cases hfails

end ProofOps.Application.Claims
