import ProofOps.Application.Claims.ReplyIsolation
import ProofOps.Foundation.Selection
import ProofOps.Foundation.Words

/-!
# Canonical references and the quote check

`canonical_source_refs` keeps one of the overlapping parser copies of a text.
`claim_quote_matches_sources` accepts the sequence of the kept quotes, or the span of a joined block
followed by the same span of its fragments.

The selection is idempotent and keeps a copy of every reference; it depends on the order of the
references only where a candidate and a rejected copy of one span both lead (`order_free_iff`).
-/

namespace ProofOps.Application.Claims

open Foundation Foundation.Checked Foundation.Sorting Domain Evidence Ingest

/-! ### Copies -/

/-- `text.split()`. -/
def splitText (text : String) : List String :=
  (Words.pieces PyText.isSpace text.toList).map String.ofList

variable (nfc : String → String)

def foldedText (text : String) : String :=
  " ".intercalate (splitText (nfc text))

/-- `key`. -/
def refKey (ref : SourceRef) : String × String × Nat × String :=
  (ref.documentVersionId, ref.parseManifestId, ref.pageNum, foldedText nfc ref.quote)

def overlaps (left right : SourceRef) : Bool :=
  match left.bbox, right.bbox with
  | some a, some b =>
    decide (max a.x0 b.x0 < min a.x1 b.x1 ∧ max a.y0 b.y0 < min a.y1 b.y1)
  | _, _ => false

variable (ref : SourceRef)

def refArea : Binary64 :=
  match ref.bbox with
  | some box => area box
  | none => .finite 0

def floatOrder : Binary64 → ℤ ×ₗ ℚ
  | .infinite true => toLex (-1, 0)
  | .finite x => toLex (0, x)
  | .infinite false => toLex (1, 0)
  | .nan => toLex (2, 0)

abbrev Priority := Bool ×ₗ (ℤ ×ₗ ℚ) ×ₗ String ×ₗ ℕ ×ₗ ℕ ×ₗ String

def priority : Priority :=
  toLex (decide (ref.verificationState ≠ .verified), toLex (floatOrder (refArea ref).neg,
    toLex (ref.sourceId, toLex (ref.charStart, toLex (ref.charEnd, ref.quote)))))

def copies (left right : SourceRef) : Bool :=
  decide (refKey nfc left = refKey nfc right) && overlaps left right

/-- `canonical_source_refs`. -/
def canonicalSourceRefs (refs : List SourceRef) : List SourceRef :=
  Selection.select (copies nfc) priority refs

def relocated (start stop : Nat) (quote : String) (h : start ≤ stop) : SourceRef :=
  { ref with charStart := start, charEnd := stop, quote := quote, offsets_ordered := h }

def asCandidate : SourceRef :=
  { ref with verificationState := .candidate }

def expectedRef (rules : CitationRules) (part : CanonicalBlock) (start stop : Nat) :
    Except PyError (List SourceRef) :=
  if h : start < stop then do
    let ref ← blockSourceRef rules part
    return [relocated ref start stop (slice part.rawText start stop) (Nat.le_of_lt h)]
  else .ok []

def expectedRefs (rules : CitationRules) (start stop : Nat) :
    Nat → List CanonicalBlock → Except PyError (List SourceRef)
  | _, [] => .ok []
  | cursor, part :: parts => do
    let length := part.rawText.length
    let here ← expectedRef rules part (start - cursor) (min length (stop - cursor))
    let later ← expectedRefs rules start stop (cursor + length + 1) parts
    return here ++ later

def continuationFor (joined : List Continuation) (sourceId : String) : Option (List CanonicalBlock) :=
  (joined.reverse.find? fun group => group.1 = sourceId).map Prod.snd

def matchesFragments (rules : CitationRules) (graph : CanonicalDocumentGraph)
    (primary : SourceRef) (others : List SourceRef) : Except DiscoveryError Bool := do
  let joined ← continuations graph
  match continuationFor joined primary.sourceId with
  | none => return false
  | some [] => return false
  | some parts =>
    match blockOf graph.blocks primary.sourceId with
    -- `next` of an empty iteration.
    | none => .error .indexError
    | some block =>
      if primary.charStart < primary.charEnd ∧ primary.charEnd ≤ block.rawText.length then do
        let base ← (blockSourceRef rules block).mapError .refused
        let quote := slice block.rawText primary.charStart primary.charEnd
        if asCandidate primary ≠
            relocated base primary.charStart primary.charEnd quote primary.offsets_ordered then
          return false
        else do
          let expected ←
            (expectedRefs rules primary.charStart primary.charEnd 0 parts).mapError .refused
          return others.map asCandidate = expected
      else return false

def joinedQuotes (refs : List SourceRef) : String :=
  " ".intercalate (refs.map SourceRef.quote)

def claimQuoteMatchesSources (rules : DiscoveryRules) (graph : CanonicalDocumentGraph)
    (quote : String) (refs : List SourceRef) : Except DiscoveryError Bool :=
  let canonical := canonicalSourceRefs rules.text.nfc refs
  if canonical.length < refs.length ∧
      foldedText rules.text.nfc quote = foldedText rules.text.nfc (joinedQuotes canonical) then
    .ok true
  else if canonical ≠ [] ∧ quote = joinedQuotes canonical then .ok true
  else
    match canonical with
    | primary :: second :: others =>
      if quote ≠ primary.quote then .ok false
      else matchesFragments rules.citation graph primary (second :: others)
    | _ => .ok false

section Canonical

variable {nfc : String → String}

theorem overlaps_comm (left right : SourceRef) : overlaps left right = overlaps right left := by
  unfold overlaps
  cases left.bbox with
  | none =>
    cases right.bbox with
    | none => rfl
    | some b => rfl
  | some a =>
    cases right.bbox with
    | none => rfl
    | some b =>
      dsimp only
      rw [max_comm a.x0, min_comm a.x1, max_comm a.y0, min_comm a.y1]

/-- So is being a copy. -/
theorem copies_comm (left right : SourceRef) : copies nfc left right = copies nfc right left := by
  unfold copies
  rw [overlaps_comm, decide_eq_decide.mpr (eq_comm (a := refKey nfc left))]

theorem copies_iff {left right : SourceRef} :
    copies nfc left right = true ↔
      refKey nfc left = refKey nfc right ∧ overlaps left right = true := by
  unfold copies
  rw [Bool.and_eq_true, decide_eq_true_iff]

theorem overlaps_self {ref : SourceRef} : overlaps ref ref = true ↔ ref.bbox ≠ none := by
  unfold overlaps
  cases ref.bbox with
  | none => simp
  | some box =>
    dsimp only
    rw [max_self, min_self, max_self, min_self, decide_eq_true_iff]
    exact ⟨fun _ => Option.some_ne_none box, fun _ => ⟨box.width_pos, box.height_pos⟩⟩

theorem canonicalSourceRefs_idem (refs : List SourceRef) :
    canonicalSourceRefs nfc (canonicalSourceRefs nfc refs) = canonicalSourceRefs nfc refs :=
  Selection.select_select copies_comm

theorem canonicalSourceRefs_covers {refs : List SourceRef} {ref : SourceRef} (h : ref ∈ refs) :
    ∃ kept ∈ canonicalSourceRefs nfc refs,
      refKey nfc kept = refKey nfc ref ∧ (kept = ref ∨ overlaps kept ref = true) := by
  obtain ⟨kept, hmem, rfl | hcopies⟩ :=
    @Selection.exists_selected _ _ _ (copies nfc) priority _ _ h
  · exact ⟨kept, hmem, rfl, .inl rfl⟩
  · obtain ⟨hkey, hoverlaps⟩ := copies_iff.mp hcopies
    exact ⟨kept, hmem, hkey, .inr hoverlaps⟩

end Canonical

def Into (rules : CitationRules) (block : CanonicalBlock) (ref : SourceRef) : Prop :=
  ∃ base, blockSourceRef rules block = .ok base ∧
    ref = { base with
      charStart := ref.charStart
      charEnd := ref.charEnd
      quote := ref.quote
      verificationState := ref.verificationState
      offsets_ordered := ref.offsets_ordered }

def Decided (nfc : String → String) (refs : List SourceRef) : Prop :=
  ∀ ref ∈ refs, ref.verificationState = .candidate → ref.bbox ≠ none →
    { ref with verificationState := .rejected } ∈ refs →
      ¬Selection.Leads (copies nfc) priority refs ref

section Graph

variable {rules : CitationRules} {graph : CanonicalDocumentGraph} {nfc : String → String}
  {refs : List SourceRef}

theorem priority_eq {first second : SourceRef} (h : priority first = priority second) :
    (first.verificationState = .verified ↔ second.verificationState = .verified) ∧
      first.sourceId = second.sourceId ∧ first.charStart = second.charStart ∧
      first.charEnd = second.charEnd ∧ first.quote = second.quote := by
  unfold priority at h
  simp only [toLex_inj, Prod.mk.injEq, decide_eq_decide] at h
  obtain ⟨hstate, -, hsource, hstart, hstop, hquote⟩ := h
  exact ⟨not_iff_not.mp hstate, hsource, hstart, hstop, hquote⟩

theorem same_of_priority (hdistinct : blocksDistinct graph)
    (hinto : ∀ ref ∈ refs, ∃ block ∈ graph.blocks, Into rules block ref) {first second : SourceRef}
    (hfirst : first ∈ refs) (hsecond : second ∈ refs) (h : priority first = priority second) :
    second = { first with verificationState := second.verificationState } := by
  obtain ⟨block, hblock, base, hbase, hfields⟩ := hinto first hfirst
  obtain ⟨block', hblock', base', hbase', hfields'⟩ := hinto second hsecond
  obtain ⟨-, hsource, hstart, hstop, hquote⟩ := priority_eq h
  have hid : first.sourceId = block.sourceId := by
    rw [hfields]
    exact (blockSourceRef_ok hbase).sourceId
  have hid' : second.sourceId = block'.sourceId := by
    rw [hfields']
    exact (blockSourceRef_ok hbase').sourceId
  have hsame : block = block' :=
    List.inj_on_of_nodup_map hdistinct hblock hblock' (hid.symm.trans (hsource.trans hid'))
  grind

theorem copies_similar (hdistinct : blocksDistinct graph)
    (hinto : ∀ ref ∈ refs, ∃ block ∈ graph.blocks, Into rules block ref) :
    Selection.Similar (copies nfc) priority refs := by
  intro first hfirst second hsecond h ref _
  rw [same_of_priority hdistinct hinto hfirst hsecond h]
  rfl

theorem order_free_iff (hdistinct : blocksDistinct graph)
    (hinto : ∀ ref ∈ refs, ∃ block ∈ graph.blocks, Into rules block ref) :
    (∀ others, others.Perm refs →
        ∀ ref, ref ∈ canonicalSourceRefs nfc others ↔ ref ∈ canonicalSourceRefs nfc refs) ↔
      Decided nfc refs := by
  have hsimilar := @copies_similar _ _ nfc _ hdistinct hinto
  refine (Selection.select_order_free_iff copies_comm hsimilar).trans ?_
  constructor
  · intro h ref href hstate hbox htwin hleads
    have hpriority : priority ref = priority { ref with verificationState := .rejected } := by
      unfold priority
      rw [hstate]
      rfl
    have hcopies : copies nfc ref { ref with verificationState := .rejected } = true :=
      copies_iff.mpr ⟨rfl, overlaps_self.mpr hbox⟩
    have hsame := congrArg SourceRef.verificationState (h ref href _ htwin hleads hpriority hcopies)
    rw [hstate] at hsame
    cases hsame
  · intro h first hfirst second hsecond hleads hpriority hcopies
    have htwin := same_of_priority hdistinct hinto hfirst hsecond hpriority
    have hstates := (priority_eq hpriority).1
    have hbox : first.bbox ≠ none := by
      intro hnone
      have hoverlaps := (copies_iff.mp hcopies).2
      unfold overlaps at hoverlaps
      rw [hnone] at hoverlaps
      cases hoverlaps
    have hother := hleads.of_rank_eq copies_comm hsimilar hfirst hsecond hpriority
    cases hstate : first.verificationState with
    | verified =>
      rw [hstates.mp hstate, ← hstate] at htwin
      exact htwin.symm
    | candidate =>
      cases hstate' : second.verificationState with
      | verified =>
        rw [hstates.mpr hstate'] at hstate
        cases hstate
      | candidate =>
        rw [hstate', ← hstate] at htwin
        exact htwin.symm
      | rejected =>
        rw [hstate'] at htwin
        rw [htwin] at hsecond
        exact absurd hleads (h first hfirst hstate hbox hsecond)
    | rejected =>
      cases hstate' : second.verificationState with
      | verified =>
        rw [hstates.mpr hstate'] at hstate
        cases hstate
      | rejected =>
        rw [hstate', ← hstate] at htwin
        exact htwin.symm
      | candidate =>
        -- The roles are exchanged: the second reference is the candidate.
        have hback : { second with verificationState := .rejected } = first := by
          rw [htwin, ← hstate]
        have hbox' : second.bbox ≠ none := by
          rw [htwin]
          exact hbox
        rw [← hback] at hfirst
        exact absurd hother (h second hsecond hstate' hbox' hfirst)

end Graph

end ProofOps.Application.Claims
