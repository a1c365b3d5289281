import ProofOps.Application.Evidence.CitationClosure

/-!
# The sentence around a claim

`sentence_context` of `j7_split`: the ends of the sentence are found in the raw text of the block, and
handed to `source_ref` as offsets of its NFC text.
-/

namespace ProofOps.Application.Ingest.SentenceContext

open Foundation Foundation.PyText Foundation.CanonicalText Domain Evidence Claims

/-! ### Boundaries of sentences -/

/-- `[•▪▶]`. -/
def isBullet (c : Char) : Bool :=
  ['•', '▪', '▶'].contains c

/-- `[.!?。！？]`. -/
def isTerminal (c : Char) : Bool :=
  ['.', '!', '?', '。', '！', '？'].contains c

def breakLength (rest : List Char) : Option Nat :=
  let run := rest.takeWhile isSpace
  if '\n' ∈ run then some (1 + (run.reverse.dropWhile fun c => c ≠ '\n').length) else none

def matchAt (before : Option Char) (c : Char) (rest : List Char) : Option (Nat × Nat) :=
  if isBullet c && before.all isSpace then some (1, 0)
  else if c = '\n' then (breakLength rest).map fun length => (length, length)
  else if isTerminal c && rest.head?.all isSpace then some (1, 1)
  else none

def boundariesFrom : Nat → Option Char → Nat → List Char → List Nat
  | _, _, _, [] => []
  | skip + 1, _, index, c :: rest => boundariesFrom skip (some c) (index + 1) rest
  | 0, before, index, c :: rest =>
    match matchAt before c rest with
    | none => boundariesFrom 0 (some c) (index + 1) rest
    | some (length, offset) =>
      (index + offset) :: boundariesFrom (length - 1) (some c) (index + 1) rest

variable (text : List Char)

def boundaries : List Nat :=
  0 :: text.length :: boundariesFrom 0 none 0 text

variable (limit : Nat)

def lastBoundary : Nat :=
  ((boundaries text).filter fun x => x ≤ limit).foldl max 0

def nextBoundary : Nat :=
  ((boundaries text).filter fun x => limit ≤ x).foldl min text.length

def sentenceStart : Nat :=
  let start := lastBoundary text limit
  start + (((text.take limit).drop start).takeWhile isSpace).length

def sentenceStop : Nat :=
  let stop := nextBoundary text limit
  stop - (((text.take stop).drop limit).reverse.takeWhile isSpace).length

def connects (quote : String) : Bool :=
  ["하고", "하며", "있으며", "했으며", "예정으로"].any fun word => isIn word quote

/-- What `sentence_context` returns. -/
structure Context where
  text : String
  sourceRef : SourceRef
  verificationState : VerificationState

def contextOf (rules : DiscoveryRules) (original : OriginalGraph) (block : CanonicalBlock)
    (ref : SourceRef) : Except PyError (Option Context) :=
  let text := block.rawText.toList
  let start := sentenceStart text ref.charStart
  let stop := sentenceStop text ref.charEnd
  let quote := slice block.rawText start stop
  if connects quote = false ∨ stop - start = ref.charEnd - ref.charStart ∨ 2000 < quote.length then
    .ok none
  else
    (sourceRef rules block (some start) (some stop)).map fun whole =>
      some
        { text := quote
          sourceRef := whole
          verificationState := (verifySourceRef rules.citation original whole).verificationState }

/-- `sentence_context`. -/
def sentenceContext (rules : DiscoveryRules) (original : OriginalGraph) (claim : Claim) :
    Except PyError (Option Context) :=
  match claim.sourceRefs with
  | [ref] =>
    if claim.tenantId ≠ original.graph.identity.tenantId then .ok none
    else
      match blockOf original.graph.blocks ref.sourceId with
      | none => .ok none
      | some block =>
        if block.kind ≠ .paragraph ∨ block.winner = none ∨
            isVerified (verifySourceRef rules.citation original ref) = false then
          .ok none
        else contextOf rules original block ref
  | _ => .ok none

/-! ### Aligned ranges -/

def StartsAligned (start : Nat) : Prop :=
  ∃ boundary ∈ boundaries text, boundary ≤ start ∧
    ∀ index c, text[index]? = some c → boundary ≤ index → index < start → isSpace c = true

def StopsAligned (stop : Nat) : Prop :=
  ∃ boundary ∈ boundaries text, stop ≤ boundary ∧
    ∀ index c, text[index]? = some c → stop ≤ index → index < boundary → isSpace c = true

structure Around (text : List Char) (first last start stop : Nat) : Prop where
  starts : StartsAligned text start
  start_le : start ≤ first
  latest : ∀ other, StartsAligned text other → other ≤ first → other ≤ start
  stops : StopsAligned text stop
  le_stop : last ≤ stop
  earliest : ∀ other, StopsAligned text other → last ≤ other → stop ≤ other
  inside : stop ≤ text.length

theorem foldl_choice_mem {choose : Nat → Nat → Nat} {below : Nat → Nat → Prop} [IsPreorder Nat below]
    {bounds : List Nat} {first : Nat} (hchoice : ∀ x y, choose x y = x ∨ choose x y = y)
    (hleft : ∀ x y, below x (choose x y)) (hright : ∀ x y, below y (choose x y)) :
    bounds.foldl choose first ∈ first :: bounds ∧
      ∀ bound ∈ first :: bounds, below bound (bounds.foldl choose first) := by
  induction bounds generalizing first with
  | nil => simp [refl_of below]
  | cons bound bounds ih =>
    obtain ⟨hmem, hbelow⟩ := @ih (choose first bound)
    rw [List.foldl_cons]
    have hchosen := hbelow _ List.mem_cons_self
    constructor
    · rcases List.mem_cons.mp hmem with heq | hmem
      · rw [heq]
        rcases hchoice first bound with h | h <;> simp [h]
      · exact List.mem_cons_of_mem _ (List.mem_cons_of_mem _ hmem)
    · intro other hother
      rcases List.mem_cons.mp hother with rfl | hother
      · exact trans_of below (hleft _ _) hchosen
      · rcases List.mem_cons.mp hother with rfl | hother
        · exact trans_of below (hright _ _) hchosen
        · exact hbelow other (List.mem_cons_of_mem _ hother)

theorem foldl_max_mem {bounds : List Nat} {first : Nat} :
    bounds.foldl max first ∈ first :: bounds ∧ ∀ bound ∈ first :: bounds, bound ≤ bounds.foldl max first :=
  foldl_choice_mem max_choice le_max_left le_max_right

theorem foldl_min_mem {bounds : List Nat} {first : Nat} :
    bounds.foldl min first ∈ first :: bounds ∧ ∀ bound ∈ first :: bounds, bounds.foldl min first ≤ bound :=
  @foldl_choice_mem _ (fun bound chosen => chosen ≤ bound) _ _ _ min_choice min_le_left min_le_right

theorem lastBoundary_spec :
    lastBoundary text limit ∈ boundaries text ∧ lastBoundary text limit ≤ limit ∧
      ∀ bound ∈ boundaries text, bound ≤ limit → bound ≤ lastBoundary text limit := by
  have hzero : 0 ∈ boundaries text := List.mem_cons_self
  obtain ⟨hmem, hmax⟩ := @foldl_max_mem ((boundaries text).filter fun x => x ≤ limit) 0
  refine ⟨?_, ?_, fun bound hbound hle => hmax bound (List.mem_cons_of_mem _ ?_)⟩
  · rcases List.mem_cons.mp hmem with heq | hmem
    · unfold lastBoundary
      rw [heq]
      exact hzero
    · exact (List.mem_filter.mp hmem).1
  · rcases List.mem_cons.mp hmem with heq | hmem
    · unfold lastBoundary
      rw [heq]
      exact Nat.zero_le limit
    · exact of_decide_eq_true (List.mem_filter.mp hmem).2
  · exact List.mem_filter.mpr ⟨hbound, decide_eq_true hle⟩

variable {text : List Char} {limit : Nat}

theorem nextBoundary_spec (h : limit ≤ text.length) :
    nextBoundary text limit ∈ boundaries text ∧ limit ≤ nextBoundary text limit ∧
      nextBoundary text limit ≤ text.length ∧
      ∀ bound ∈ boundaries text, limit ≤ bound → nextBoundary text limit ≤ bound := by
  have hlength : text.length ∈ boundaries text := List.mem_cons_of_mem _ List.mem_cons_self
  obtain ⟨hmem, hmin⟩ := @foldl_min_mem ((boundaries text).filter fun x => limit ≤ x) text.length
  refine ⟨?_, ?_, hmin _ List.mem_cons_self, fun bound hbound hle => hmin bound
    (List.mem_cons_of_mem _ (List.mem_filter.mpr ⟨hbound, decide_eq_true hle⟩))⟩
  · rcases List.mem_cons.mp hmem with heq | hmem
    · unfold nextBoundary
      rw [heq]
      exact hlength
    · exact (List.mem_filter.mp hmem).1
  · rcases List.mem_cons.mp hmem with heq | hmem
    · unfold nextBoundary
      rw [heq]
      exact h
    · exact of_decide_eq_true (List.mem_filter.mp hmem).2

theorem takeWhile_spec {α : Type} (p : α → Bool) (items : List α) :
    (∀ index item, items[index]? = some item → index < (items.takeWhile p).length → p item = true) ∧
      ∀ item, items[(items.takeWhile p).length]? = some item → p item = false := by
  induction items with
  | nil => simp
  | cons first items ih =>
    cases hp : p first with
    | false =>
      rw [List.takeWhile_cons_of_neg (by rw [hp]; exact Bool.false_ne_true)]
      constructor
      · exact fun index item _ hlt => absurd hlt (Nat.not_lt_zero index)
      · intro item hitem
        cases hitem
        exact hp
    | true =>
      rw [List.takeWhile_cons_of_pos hp]
      constructor
      · intro index item hitem hlt
        cases index with
        | zero =>
          cases hitem
          exact hp
        | succ index => exact ih.1 index item hitem (Nat.lt_of_succ_lt_succ hlt)
      · exact fun item hitem => ih.2 item hitem

theorem sentenceStart_spec (h : limit ≤ text.length) :
    StartsAligned text (sentenceStart text limit) ∧ sentenceStart text limit ≤ limit ∧
      ∀ other, StartsAligned text other → other ≤ limit → other ≤ sentenceStart text limit := by
  obtain ⟨hmem, hle, hmax⟩ := lastBoundary_spec text limit
  unfold sentenceStart
  generalize hbound : lastBoundary text limit = bound at *
  dsimp only
  obtain ⟨hspace, hstop⟩ := takeWhile_spec isSpace ((text.take limit).drop bound)
  have hlength := (List.takeWhile_prefix isSpace (l := (text.take limit).drop bound)).length_le
  rw [List.length_drop, List.length_take, Nat.min_eq_left h] at hlength
  generalize (((text.take limit).drop bound).takeWhile isSpace).length = count at *
  have hget : ∀ index c, text[bound + index]? = some c → bound + index < limit →
      ((text.take limit).drop bound)[index]? = some c := by
    intro index c hc hlt
    rw [List.getElem?_drop, List.getElem?_take_of_lt hlt]
    exact hc
  refine ⟨⟨bound, hmem, Nat.le_add_right _ _, ?_⟩, by omega, ?_⟩
  · intro index c hc hfirst hlast
    obtain ⟨offset, rfl⟩ := Nat.exists_eq_add_of_le hfirst
    exact hspace offset c (hget offset c hc (by omega)) (by omega)
  · rintro other ⟨start, hstart, hbefore, hblank⟩ hother
    by_contra hnot
    have hin : bound + count < text.length := by omega
    have hc := List.getElem?_eq_getElem hin
    have hclear := hstop _ (hget count _ hc (by omega))
    have hfull := hblank (bound + count) _ hc (by have := hmax start hstart (by omega); omega) (by omega)
    rw [hclear] at hfull
    cases hfull

theorem sentenceStop_spec (h : limit ≤ text.length) :
    StopsAligned text (sentenceStop text limit) ∧ limit ≤ sentenceStop text limit ∧
      (∀ other, StopsAligned text other → limit ≤ other → sentenceStop text limit ≤ other) ∧
      sentenceStop text limit ≤ text.length := by
  obtain ⟨hmem, hge, hinside, hmin⟩ := nextBoundary_spec h
  unfold sentenceStop
  generalize hbound : nextBoundary text limit = bound at *
  dsimp only
  obtain ⟨hspace, hstop⟩ := takeWhile_spec isSpace ((text.take bound).drop limit).reverse
  have hlength := (List.takeWhile_prefix isSpace (l := ((text.take bound).drop limit).reverse)).length_le
  rw [List.length_reverse, List.length_drop, List.length_take, Nat.min_eq_left hinside] at hlength
  generalize (((text.take bound).drop limit).reverse.takeWhile isSpace).length = count at *
  have hget : ∀ index c, text[bound - 1 - index]? = some c → index < bound - limit →
      ((text.take bound).drop limit).reverse[index]? = some c := by
    intro index c hc hlt
    have hsize : ((text.take bound).drop limit).length = bound - limit := by
      rw [List.length_drop, List.length_take, Nat.min_eq_left hinside]
    rw [List.getElem?_reverse (by omega), hsize, List.getElem?_drop,
      List.getElem?_take_of_lt (by omega), ← hc]
    congr 1
    omega
  refine ⟨⟨bound, hmem, Nat.sub_le _ _, ?_⟩, by omega, ?_, by omega⟩
  · intro index c hc hfirst hlast
    refine hspace (bound - 1 - index) c (hget _ c ?_ (by omega)) (by omega)
    rw [← hc]
    congr 1
    omega
  · rintro other ⟨stop, hstop_mem, hbehind, hblank⟩ hother
    by_contra hnot
    have hin : bound - 1 - count < text.length := by omega
    have hc := List.getElem?_eq_getElem hin
    have hclear := hstop _ (hget count _ hc (by omega))
    have hfull := hblank (bound - 1 - count) _ hc (by omega)
      (by have := hmin stop hstop_mem (by omega); omega)
    rw [hclear] at hfull
    cases hfull

theorem sentence_around {first last : Nat} (hfirst : first ≤ text.length)
    (hlast : last ≤ text.length) :
    Around text first last (sentenceStart text first) (sentenceStop text last) := by
  obtain ⟨hstarts, hbefore, hlatest⟩ := sentenceStart_spec hfirst
  obtain ⟨hstops, hbehind, hearliest, hinside⟩ := sentenceStop_spec hlast
  exact ⟨hstarts, hbefore, hlatest, hstops, hbehind, hearliest, hinside⟩

variable {start stop : Nat}

/-- There is only one such range. -/
theorem Around.unique {first last start' stop' : Nat}
    (h : Around text first last start stop) (h' : Around text first last start' stop') :
    start = start' ∧ stop = stop' := by
  constructor
  · exact Nat.le_antisymm (h'.latest _ h.starts h.start_le) (h.latest _ h'.starts h'.start_le)
  · exact Nat.le_antisymm (h.earliest _ h'.stops h'.le_stop) (h'.earliest _ h.stops h.le_stop)

structure Connected (rules : DiscoveryRules) (original : OriginalGraph) (claim : Claim)
    (ref : SourceRef) (block : CanonicalBlock) (start stop : Nat) : Prop where
  single : claim.sourceRefs = [ref]
  tenant : claim.tenantId = original.graph.identity.tenantId
  block_found : blockOf original.graph.blocks ref.sourceId = some block
  paragraph : block.kind = .paragraph
  verified : isVerified (verifySourceRef rules.citation original ref) = true
  around : Around block.rawText.toList ref.charStart ref.charEnd start stop
  connects : connects (slice block.rawText start stop) = true
  longer : stop - start ≠ ref.charEnd - ref.charStart
  short : (slice block.rawText start stop).length ≤ 2000

structure InRawText (ref : SourceRef) (block : CanonicalBlock) (context : Context) : Prop where
  quoted : context.sourceRef.quote = context.text
  before : context.sourceRef.charStart ≤ ref.charStart
  behind : ref.charEnd ≤ context.sourceRef.charEnd
  starts : StartsAligned block.rawText.toList context.sourceRef.charStart
  stops : StopsAligned block.rawText.toList context.sourceRef.charEnd

variable {rules : DiscoveryRules} {original : OriginalGraph} {claim : Claim} {ref : SourceRef}
  {block : CanonicalBlock}

theorem verified_inside (hblock : blockOf original.graph.blocks ref.sourceId = some block)
    (h : isVerified (verifySourceRef rules.citation original ref) = true) :
    ∃ candidate, block.winning = some candidate ∧ candidate.hasInvalidGeometry = false ∧
      1 ≤ candidate.source.physicalPage ∧ ref.charStart ≤ block.rawText.toList.length ∧
      ref.charEnd ≤ block.rawText.toList.length := by
  obtain ⟨found, candidate, hvouched⟩ := verifySourceRef_vouched h
  have hfound := hvouched.block_found
  rw [hblock] at hfound
  cases hfound
  have hraw := rawText_of_winning hvouched.winning
  have hinside := hvouched.cites.inside
  have hordered := hvouched.cites.ordered
  rw [← hraw, ← String.length_toList] at hinside
  refine ⟨candidate, hvouched.winning, ?_, hvouched.cites.page ▸ ref.page_pos, by omega, hinside⟩
  have hbox := verifySourceRef_boxed h
  rw [← hvouched.cites.box] at hbox
  unfold CandidateBlock.hasInvalidGeometry
  rw [Option.isNone_eq_false_iff.mpr hbox, Bool.and_false]

theorem sentenceContext_some {context : Context}
    (h : sentenceContext rules original claim = .ok (some context)) :
    ∃ ref block start stop, Connected rules original claim ref block start stop ∧
      sourceRef rules block (some start) (some stop) = .ok context.sourceRef ∧
      context.text = slice block.rawText start stop := by
  unfold sentenceContext at h
  split at h
  · rename_i ref hrefs
    split at h
    · cases h
    · rename_i htenant
      split at h
      · cases h
      · rename_i block hblock
        split at h
        · cases h
        · rename_i hguard
          push Not at hguard
          obtain ⟨hkind, -, hnot⟩ := hguard
          have hverified := (Bool.not_eq_false _).mp hnot
          obtain ⟨-, -, -, -, hstart, hstop⟩ := verified_inside hblock hverified
          unfold contextOf at h
          dsimp only at h
          split at h
          · cases h
          · rename_i hrefused
            push Not at hrefused
            obtain ⟨hconnects, hlonger, hshort⟩ := hrefused
            obtain ⟨whole, hwhole, hcontext⟩ := Checked.map_ok_iff.mp h
            obtain rfl := Option.some.inj hcontext
            exact ⟨ref, block, _, _, ⟨hrefs, not_not.mp htenant, hblock, hkind, hverified,
              sentence_around hstart hstop, (Bool.not_eq_false _).mp hconnects, hlonger, hshort⟩,
              hwhole, rfl⟩
  · cases h

theorem sentenceContext_of_connected (h : Connected rules original claim ref block start stop) :
    sentenceContext rules original claim =
      (sourceRef rules block (some start) (some stop)).map fun whole =>
        some
          { text := slice block.rawText start stop
            sourceRef := whole
            verificationState := (verifySourceRef rules.citation original whole).verificationState } := by
  obtain ⟨candidate, hwinning, -, -, hstart, hstop⟩ := verified_inside h.block_found h.verified
  have hwinner : block.winner ≠ none := by
    intro hnone
    unfold CanonicalBlock.winning at hwinning
    rw [hnone] at hwinning
    cases hwinning
  obtain ⟨rfl, rfl⟩ := h.around.unique (sentence_around hstart hstop)
  unfold sentenceContext
  rw [h.single]
  dsimp only
  rw [if_neg (not_not.mpr h.tenant), h.block_found]
  dsimp only
  rw [if_neg (by rw [h.verified]; simp [h.paragraph, hwinner])]
  unfold contextOf
  rw [if_neg (by
    rw [h.connects]
    simp only [Bool.true_eq_false, false_or, not_or, not_lt]
    exact ⟨h.longer, h.short⟩)]

theorem context_inRawText_iff {decompose : Char → List Char}
    (hnfc : Canonical rules.text.nfc decompose)
    (h : Connected rules original claim ref block start stop) :
    (∀ context, sentenceContext rules original claim = .ok (some context) →
      InRawText ref block context) ↔
    ((∃ first last, Maps rules.text.nfc block.rawText start stop first last) →
      partsBefore decompose (rules.text.nfc block.rawText).toList start =
          partsBefore decompose block.rawText.toList start ∧
        partsBefore decompose (rules.text.nfc block.rawText).toList stop =
          partsBefore decompose block.rawText.toList stop) := by
  obtain ⟨candidate, hwinning, hgeometry, hpage, hstart, hstop⟩ :=
    verified_inside h.block_found h.verified
  have hstart_le : start ≤ block.rawText.toList.length := h.around.start_le.trans hstart
  rw [sentenceContext_of_connected h]
  constructor
  · rintro hcontexts ⟨first, last, hmaps⟩
    obtain ⟨whole, hwhole, rfl, rfl⟩ :=
      (sourceRef_iff hnfc hwinning hgeometry hpage).mpr hmaps
    rw [hwhole] at hcontexts
    have hraw := hcontexts _ rfl
    have hquote : whole.quote = slice block.rawText whole.charStart whole.charEnd :=
      ((normalized_offsets hnfc block start stop).1 whole hwhole).2.1
    have hlengths := congrArg (fun text => text.toList.length) (hquote.symm.trans hraw.quoted)
    simp only [toList_slice, List.length_drop, List.length_take] at hlengths
    have hlast := (hmaps.closing.boundary hnfc).le
    have hinside := h.around.inside
    have hlow := h.around.latest _ hraw.starts hraw.before
    have hhigh := h.around.earliest _ hraw.stops hraw.behind
    have hbefore := h.around.start_le
    have hbehind := h.around.le_stop
    have hrange := ref.offsets_ordered
    dsimp only at hlow hhigh hlengths
    have hsame : whole.charStart = start ∧ whole.charEnd = stop := by omega
    exact ⟨((hmaps.opening.boundary hnfc).eq_iff hnfc.nonempty hstart_le).mp hsame.1,
      ((hmaps.closing.boundary hnfc).eq_iff hnfc.nonempty hinside).mp hsame.2⟩
  · intro hparts context hcontext
    obtain ⟨whole, hwhole, hmade⟩ := Checked.map_ok_iff.mp hcontext
    obtain rfl := Option.some.inj hmade
    have hmaps := (sourceRef_iff hnfc hwinning hgeometry hpage).mp ⟨whole, hwhole, rfl, rfl⟩
    obtain ⟨hfront, hback⟩ := hparts ⟨_, _, hmaps⟩
    have hfirst : whole.charStart = start :=
      ((hmaps.opening.boundary hnfc).eq_iff hnfc.nonempty hstart_le).mpr hfront
    have hlast : whole.charEnd = stop :=
      ((hmaps.closing.boundary hnfc).eq_iff hnfc.nonempty h.around.inside).mpr hback
    have hquote := ((normalized_offsets hnfc block start stop).1 whole hwhole).2.1
    constructor
    · rw [hquote, hfirst, hlast]
    · rw [hfirst]; exact h.around.start_le
    · rw [hlast]; exact h.around.le_stop
    · rw [hfirst]; exact h.around.starts
    · rw [hlast]; exact h.around.stops

end ProofOps.Application.Ingest.SentenceContext
