import ProofOps.Application.Evidence.Citations

/-!
# Recovered table candidates

`reconcile` of `qt1_tables`: selections stay as they are, and what a recovered candidate lacks is added
where it overlaps nothing.  Existing spans, candidates and cells may overlap in any way; whatever the
order of the candidates, nothing is added twice (`reconcile_complete`).
-/

namespace ProofOps.Application.Ingest.TableRecovery

open Foundation.Sorting Evidence

structure Span where
  (charStart charEnd : Nat)
  (quote kind : String)
  reason : Option String
  topicIds : List String

structure Cell where
  (start stop row column : Nat)
  nonempty : start < stop
  deriving DecidableEq

structure Candidate (text : String) where
  (start stop : Nat)
  requiredCells : List Cell
  recoveryEligible : Bool
  inside : stop ≤ text.length
  cells_inside : ∀ cell ∈ requiredCells, start ≤ cell.start ∧ cell.stop ≤ stop

/-- `inventory`. -/
def Candidate.ofTarget? (text : String) (start stop : Nat) (owned values : List Cell)
    (timeline : Bool) : Option (Candidate text) :=
  let required := if values = [] then
      owned.filter fun cell => start ≤ cell.start && cell.stop ≤ stop
    else values
  if h : stop ≤ text.length ∧ ∀ cell ∈ required, start ≤ cell.start ∧ cell.stop ≤ stop then
    some ⟨start, stop, required, values ≠ [] && !timeline, h.1, h.2⟩
  else none

structure Coverage where
  (start stop : Nat)
  status : String
  missingCells : List (Nat × Nat)

/-! ### Reconciling -/

def overlaps (start stop : Nat) (span : Span) : Bool :=
  span.charStart < stop && start < span.charEnd

def covers (cell : Cell) (span : Span) : Bool :=
  span.kind = "claim" && span.charStart ≤ cell.start && cell.start < cell.stop &&
    cell.stop ≤ span.charEnd

def missing {text : String} (spans : List Span) (candidate : Candidate text) : List Cell :=
  candidate.requiredCells.filter fun cell => !spans.any (covers cell)

def recovered (text : String) (start stop : Nat) : Span where
  charStart := start
  charEnd := stop
  quote := slice text start stop
  kind := "claim"
  reason := none
  topicIds := ["environment"]

def addRange (text : String) (result : List Span) (range : Nat × Nat) : List Span :=
  if result.any (overlaps range.1 range.2) then result
  else result ++ [recovered text range.1 range.2]

def rangesOf {text : String} (spans result : List Span) (candidate : Candidate text) :
    List (Nat × Nat) :=
  if result.any (overlaps candidate.start candidate.stop) then
    (missing spans candidate).map fun cell => (cell.start, cell.stop)
  else [(candidate.start, candidate.stop)]

def addCandidate (text : String) (spans result : List Span) (candidate : Candidate text) :
    List Span :=
  if missing spans candidate = [] ∨ candidate.recoveryEligible = false then result
  else (rangesOf spans result candidate).foldl (addRange text) result

def coverageOf {text : String} (spans : List Span) (candidate : Candidate text) : Coverage where
  start := candidate.start
  stop := candidate.stop
  status :=
    if missing spans candidate = [] then "covered"
    else if spans.any (overlaps candidate.start candidate.stop) then "partial"
    else "missing"
  missingCells := (missing spans candidate).map fun cell => (cell.row, cell.column)

/-- `reconcile`. -/
def reconcile (text : String) (candidates : List (Candidate text)) (spans : List Span) :
    List Span × List Coverage :=
  (sortedBy Span.charStart (candidates.foldl (addCandidate text spans) spans),
    candidates.map (coverageOf spans))

/-! ### One range -/

variable {text : String} {spans result : List Span} {candidate : Candidate text} {span : Span}

theorem overlaps_iff {start stop : Nat} :
    overlaps start stop span = true ↔ span.charStart < stop ∧ start < span.charEnd := by
  simp [overlaps]

theorem covers_iff {cell : Cell} : covers cell span = true ↔
    span.kind = "claim" ∧ span.charStart ≤ cell.start ∧ cell.stop ≤ span.charEnd := by
  simp [covers, cell.nonempty, and_assoc]

theorem mem_missing {cell : Cell} : cell ∈ missing spans candidate ↔
    cell ∈ candidate.requiredCells ∧ ∀ span ∈ spans, covers cell span = false := by
  simp [missing]

def Apart (first second : Span) : Prop :=
  overlaps first.charStart first.charEnd second = false

structure Added (text : String) (candidates : List (Candidate text)) (spans before after : List Span) :
    Prop where
  suffix : ∃ added, after = before ++ added ∧
    ∀ span ∈ added, span = recovered text span.charStart span.charEnd ∧
      span.charEnd ≤ text.length ∧
      ∃ candidate ∈ candidates, candidate.recoveryEligible = true ∧
        ∃ cell ∈ missing spans candidate, span.charStart ≤ cell.start ∧ cell.stop ≤ span.charEnd
  apart : before.Pairwise Apart → after.Pairwise Apart

theorem Added.refl (candidates : List (Candidate text)) (spans before : List Span) :
    Added text candidates spans before before where
  suffix := ⟨[], (List.append_nil before).symm, fun _ hspan => absurd hspan List.not_mem_nil⟩
  apart := id

variable {candidates : List (Candidate text)}

theorem Added.trans {first second third : List Span}
    (h : Added text candidates spans first second) (h' : Added text candidates spans second third) :
    Added text candidates spans first third := by
  obtain ⟨added, rfl, hadded⟩ := h.suffix
  obtain ⟨later, rfl, hlater⟩ := h'.suffix
  refine ⟨⟨added ++ later, by rw [List.append_assoc], fun span hspan => ?_⟩, fun hapart => ?_⟩
  · rcases List.mem_append.mp hspan with hspan | hspan
    · exact hadded span hspan
    · exact hlater span hspan
  · exact h'.apart (h.apart hapart)

/-- Nothing is lost by adding. -/
theorem Added.subset {before after : List Span}
    (h : Added text candidates spans before after) : before ⊆ after := by
  obtain ⟨added, rfl, -⟩ := h.suffix
  exact List.subset_append_left before added

theorem addRange_added {range : Nat × Nat} (hinside : range.2 ≤ text.length)
    (hcell : ∃ candidate ∈ candidates, candidate.recoveryEligible = true ∧
      ∃ cell ∈ missing spans candidate, range.1 ≤ cell.start ∧ cell.stop ≤ range.2) :
    Added text candidates spans result (addRange text result range) := by
  unfold addRange
  split_ifs with hany
  · exact .refl candidates spans result
  · refine ⟨⟨[recovered text range.1 range.2], rfl, fun span hspan => ?_⟩, fun hapart => ?_⟩
    · rw [List.mem_singleton] at hspan
      subst hspan
      exact ⟨rfl, hinside, hcell⟩
    · refine List.pairwise_append.mpr ⟨hapart, List.pairwise_singleton _ _, fun first hfirst second hsecond => ?_⟩
      rw [List.mem_singleton] at hsecond
      subst hsecond
      -- overlapping is symmetric
      have hnot : overlaps range.1 range.2 first = false := by
        rw [Bool.eq_false_iff]
        exact fun hoverlaps => hany (List.any_eq_true.mpr ⟨first, hfirst, hoverlaps⟩)
      unfold Apart
      rw [Bool.eq_false_iff, ne_eq, overlaps_iff] at hnot ⊢
      exact fun hoverlaps => hnot ⟨hoverlaps.2, hoverlaps.1⟩

def Meets (range : Nat × Nat) (span : Span) : Prop :=
  (span.kind = "claim" ∧ span.charStart = range.1 ∧ span.charEnd = range.2) ∨
    overlaps range.1 range.2 span = true

theorem addRange_met (text : String) (result : List Span) (range : Nat × Nat) :
    ∃ span ∈ addRange text result range, Meets range span := by
  unfold addRange
  split_ifs with hany
  · obtain ⟨span, hspan, hoverlaps⟩ := List.any_eq_true.mp hany
    exact ⟨span, hspan, .inr hoverlaps⟩
  · exact ⟨recovered text range.1 range.2, List.mem_append_right _ (List.mem_singleton_self _),
      .inl ⟨rfl, rfl, rfl⟩⟩

theorem rangesOf_spec (hmissing : missing spans candidate ≠ []) :
    ∀ range ∈ rangesOf spans result candidate, range.2 ≤ text.length ∧
      ∃ cell ∈ missing spans candidate, range.1 ≤ cell.start ∧ cell.stop ≤ range.2 := by
  intro range hrange
  unfold rangesOf at hrange
  split_ifs at hrange
  · obtain ⟨cell, hcell, rfl⟩ := List.mem_map.mp hrange
    have hinside := candidate.cells_inside cell (mem_missing.mp hcell).1
    exact ⟨hinside.2.trans candidate.inside, cell, hcell, le_refl _, le_refl _⟩
  · rw [List.mem_singleton] at hrange
    subst hrange
    obtain ⟨cell, hcell⟩ := List.exists_mem_of_ne_nil _ hmissing
    exact ⟨candidate.inside, cell, hcell, candidate.cells_inside cell (mem_missing.mp hcell).1⟩

/-- The same over a list of ranges. -/
theorem foldl_addRange {candidates : List (Candidate text)} {ranges : List (Nat × Nat)}
    (hranges : ∀ range ∈ ranges, range.2 ≤ text.length ∧
      ∃ candidate ∈ candidates, candidate.recoveryEligible = true ∧
        ∃ cell ∈ missing spans candidate, range.1 ≤ cell.start ∧ cell.stop ≤ range.2) :
    Added text candidates spans result (ranges.foldl (addRange text) result) ∧
      ∀ range ∈ ranges, ∃ span ∈ ranges.foldl (addRange text) result, Meets range span := by
  induction ranges generalizing result with
  | nil => exact ⟨.refl candidates spans result, fun range hrange => absurd hrange List.not_mem_nil⟩
  | cons range ranges ih =>
    rw [List.forall_mem_cons] at hranges
    obtain ⟨hadded, hmet⟩ := @ih (addRange text result range) hranges.2
    have hfirst : Added text candidates spans result (addRange text result range) :=
      addRange_added hranges.1.1 hranges.1.2
    refine ⟨hfirst.trans hadded, List.forall_mem_cons.mpr ⟨?_, hmet⟩⟩
    obtain ⟨span, hspan, hmeets⟩ := addRange_met text result range
    exact ⟨span, hadded.subset hspan, hmeets⟩

def CellMet (cell : Cell) (span : Span) : Prop :=
  covers cell span = true ∨ overlaps cell.start cell.stop span = true

theorem addCandidate_spec (hmem : candidate ∈ candidates) (hsubset : spans ⊆ result) :
    Added text candidates spans result (addCandidate text spans result candidate) ∧
      (candidate.recoveryEligible = true → ∀ cell ∈ candidate.requiredCells,
        ∃ span ∈ addCandidate text spans result candidate, CellMet cell span) := by
  have hcovered : ∀ cell ∈ candidate.requiredCells, cell ∉ missing spans candidate →
      ∃ span ∈ spans, covers cell span = true := by
    intro cell hcell hnot
    by_contra hnone
    push Not at hnone
    exact hnot (mem_missing.mpr ⟨hcell, fun span hspan => Bool.eq_false_iff.mpr (hnone span hspan)⟩)
  unfold addCandidate
  split_ifs with hskip
  · refine ⟨.refl candidates spans result, fun heligible cell hcell => ?_⟩
    rcases hskip with hnone | hnot
    · obtain ⟨span, hspan, hcovers⟩ := hcovered cell hcell (hnone ▸ List.not_mem_nil)
      exact ⟨span, hsubset hspan, .inl hcovers⟩
    · rw [hnot] at heligible
      cases heligible
  · push Not at hskip
    obtain ⟨hmissing, hnot⟩ := hskip
    have heligible := (Bool.not_eq_false _).mp hnot
    have hranges : ∀ range ∈ rangesOf spans result candidate, range.2 ≤ text.length ∧
        ∃ candidate ∈ candidates, candidate.recoveryEligible = true ∧
          ∃ cell ∈ missing spans candidate, range.1 ≤ cell.start ∧ cell.stop ≤ range.2 := by
      intro range hrange
      obtain ⟨hinside, hcell⟩ := rangesOf_spec hmissing range hrange
      exact ⟨hinside, candidate, hmem, heligible, hcell⟩
    obtain ⟨hadded, hmet⟩ := @foldl_addRange text spans result candidates _ hranges
    refine ⟨hadded, fun _ cell hcell => ?_⟩
    by_cases hin : cell ∈ missing spans candidate
    · have hinside := candidate.cells_inside cell hcell
      by_cases hwhole : result.any (overlaps candidate.start candidate.stop) = true
      · have hrange : (cell.start, cell.stop) ∈ rangesOf spans result candidate := by
          unfold rangesOf
          rw [if_pos hwhole]
          exact List.mem_map.mpr ⟨cell, hin, rfl⟩
        obtain ⟨span, hspan, ⟨hkind, hstart, hstop⟩ | hoverlaps⟩ := hmet _ hrange
        · exact ⟨span, hspan, .inl (covers_iff.mpr ⟨hkind, hstart.le, hstop.ge⟩)⟩
        · exact ⟨span, hspan, .inr hoverlaps⟩
      · have hrange : rangesOf spans result candidate = [(candidate.start, candidate.stop)] := by
          unfold rangesOf
          rw [if_neg hwhole]
        rw [hrange]
        -- the whole candidate is added, and its cells with it
        have hadd : addRange text result (candidate.start, candidate.stop) =
            result ++ [recovered text candidate.start candidate.stop] := by
          unfold addRange
          rw [if_neg hwhole]
        refine ⟨recovered text candidate.start candidate.stop, ?_,
          .inl (covers_iff.mpr ⟨rfl, hinside.1, hinside.2⟩)⟩
        rw [List.foldl_cons, List.foldl_nil, hadd]
        exact List.mem_append_right _ (List.mem_singleton_self _)
    · obtain ⟨span, hspan, hcovers⟩ := hcovered cell hcell hin
      exact ⟨span, hadded.subset (hsubset hspan), .inl hcovers⟩

/-- So it is after all candidates. -/
theorem foldl_addCandidate {all : List (Candidate text)} (hall : candidates ⊆ all)
    (hsubset : spans ⊆ result) :
    Added text all spans result (candidates.foldl (addCandidate text spans) result) ∧
      ∀ candidate ∈ candidates, candidate.recoveryEligible = true →
        ∀ cell ∈ candidate.requiredCells,
          ∃ span ∈ candidates.foldl (addCandidate text spans) result, CellMet cell span := by
  induction candidates generalizing result with
  | nil => exact ⟨.refl all spans result, fun candidate hmem => absurd hmem List.not_mem_nil⟩
  | cons candidate candidates ih =>
    obtain ⟨hmem, hrest⟩ := List.cons_subset.mp hall
    obtain ⟨hfirst, hmet⟩ := addCandidate_spec hmem hsubset
    obtain ⟨hadded, hlater⟩ := ih hrest (List.Subset.trans hsubset hfirst.subset)
    refine ⟨hfirst.trans hadded, List.forall_mem_cons.mpr ⟨fun heligible cell hcell => ?_, hlater⟩⟩
    obtain ⟨span, hspan, hcell_met⟩ := hmet heligible cell hcell
    exact ⟨span, hadded.subset hspan, hcell_met⟩

/-- A candidate whose cells are met adds nothing. -/
theorem addCandidate_of_met (hsubset : spans ⊆ result)
    (hmet : candidate.recoveryEligible = true → ∀ cell ∈ candidate.requiredCells,
      ∃ span ∈ spans, CellMet cell span) :
    addCandidate text spans result candidate = result := by
  unfold addCandidate
  split_ifs with hskip
  · rfl
  · push Not at hskip
    obtain ⟨hmissing, hnot⟩ := hskip
    have heligible := (Bool.not_eq_false _).mp hnot
    -- a missing cell is overlapped, as no claim span covers it
    have hoverlapped : ∀ cell ∈ missing spans candidate,
        result.any (overlaps cell.start cell.stop) = true := by
      intro cell hcell
      obtain ⟨hrequired, hnone⟩ := mem_missing.mp hcell
      obtain ⟨span, hspan, hcovers | hoverlaps⟩ := hmet heligible cell hrequired
      · rw [hnone span hspan] at hcovers
        cases hcovers
      · exact List.any_eq_true.mpr ⟨span, hsubset hspan, hoverlaps⟩
    have hwhole : result.any (overlaps candidate.start candidate.stop) = true := by
      obtain ⟨cell, hcell⟩ := List.exists_mem_of_ne_nil _ hmissing
      obtain ⟨span, hspan, hoverlaps⟩ := List.any_eq_true.mp (hoverlapped cell hcell)
      have hinside := candidate.cells_inside cell (mem_missing.mp hcell).1
      rw [overlaps_iff] at hoverlaps
      exact List.any_eq_true.mpr ⟨span, hspan, overlaps_iff.mpr ⟨by omega, by omega⟩⟩
    unfold rangesOf
    rw [if_pos hwhole]
    have hskip_all : ∀ ranges : List (Nat × Nat),
        (∀ range ∈ ranges, result.any (overlaps range.1 range.2) = true) →
          ranges.foldl (addRange text) result = result := by
      intro ranges hranges
      induction ranges with
      | nil => rfl
      | cons range ranges ih =>
        rw [List.forall_mem_cons] at hranges
        have hadd : addRange text result range = result := if_pos hranges.1
        rw [List.foldl_cons, hadd, ih hranges.2]
    apply hskip_all
    intro range hrange
    obtain ⟨cell, hcell, rfl⟩ := List.mem_map.mp hrange
    exact hoverlapped cell hcell

theorem foldl_addCandidate_of_met (hsubset : spans ⊆ result)
    (hmet : ∀ candidate ∈ candidates, candidate.recoveryEligible = true →
      ∀ cell ∈ candidate.requiredCells, ∃ span ∈ spans, CellMet cell span) :
    candidates.foldl (addCandidate text spans) result = result := by
  induction candidates with
  | nil => rfl
  | cons candidate candidates ih =>
    rw [List.forall_mem_cons] at hmet
    rw [List.foldl_cons, addCandidate_of_met hsubset hmet.1, ih hmet.2]

theorem reconcile_perm (text : String) (candidates : List (Candidate text)) (spans : List Span) :
    (reconcile text candidates spans).1.Perm
      (candidates.foldl (addCandidate text spans) spans) :=
  sortedBy_perm _ _

theorem reconcile_meets (spans : List Span) :
    ∀ candidate ∈ candidates, candidate.recoveryEligible = true →
      ∀ cell ∈ candidate.requiredCells,
        ∃ span ∈ (reconcile text candidates spans).1, CellMet cell span := by
  intro candidate hcandidate heligible cell hcell
  obtain ⟨-, hmet⟩ := foldl_addCandidate (List.Subset.refl candidates) (List.Subset.refl spans)
  obtain ⟨span, hspan, hcell_met⟩ := hmet candidate hcandidate heligible cell hcell
  exact ⟨span, (reconcile_perm text candidates spans).mem_iff.mpr hspan, hcell_met⟩

/-- Reconciling keeps every span, adds apart and literal spans that each hold a cell no claim covered,
meets every required cell, and adds nothing a second time. -/
theorem reconcile_complete (text : String) (candidates : List (Candidate text)) (spans : List Span) :
    (∃ added, (reconcile text candidates spans).1.Perm (spans ++ added) ∧
      ∀ span ∈ added, span.quote = slice text span.charStart span.charEnd ∧
        span.charEnd ≤ text.length ∧ span.kind = "claim" ∧
        ∃ candidate ∈ candidates, candidate.recoveryEligible = true ∧
          ∃ cell ∈ candidate.requiredCells, (∀ claim ∈ spans, covers cell claim = false) ∧
            span.charStart ≤ cell.start ∧ cell.stop ≤ span.charEnd) ∧
    (spans.Pairwise Apart → (reconcile text candidates spans).1.Pairwise Apart) ∧
    (∀ candidate ∈ candidates, candidate.recoveryEligible = true →
      ∀ cell ∈ candidate.requiredCells, ∃ span ∈ (reconcile text candidates spans).1,
        covers cell span = true ∨ overlaps cell.start cell.stop span = true) ∧
    (reconcile text candidates (reconcile text candidates spans).1).1 =
      (reconcile text candidates spans).1 := by
  obtain ⟨hadded, -⟩ :=
    foldl_addCandidate (List.Subset.refl candidates) (List.Subset.refl spans)
  have hperm := reconcile_perm text candidates spans
  refine ⟨?_, ?_, reconcile_meets spans, ?_⟩
  · obtain ⟨added, heq, hspans⟩ := hadded.suffix
    refine ⟨added, heq ▸ hperm, fun span hspan => ?_⟩
    obtain ⟨hliteral, hinside, candidate, hcandidate, heligible, cell, hcell, hholds⟩ :=
      hspans span hspan
    obtain ⟨hrequired, hnone⟩ := mem_missing.mp hcell
    exact ⟨by rw [hliteral]; rfl, hinside, by rw [hliteral]; rfl, candidate, hcandidate, heligible, cell,
      hrequired, hnone, hholds⟩
  · intro hapart
    have hsymm : ∀ {first second}, Apart first second → Apart second first := by
      intro first second h
      unfold Apart at h ⊢
      rw [Bool.eq_false_iff, ne_eq, overlaps_iff] at h ⊢
      exact fun hoverlaps => h ⟨hoverlaps.2, hoverlaps.1⟩
    exact (hperm.pairwise_iff hsymm).mpr (hadded.apart hapart)
  · have hsecond : candidates.foldl (addCandidate text (reconcile text candidates spans).1)
        (reconcile text candidates spans).1 = (reconcile text candidates spans).1 := by
      exact foldl_addCandidate_of_met (List.Subset.refl _) (reconcile_meets spans)
    have hsorted := sortedBy_pairwise Span.charStart (candidates.foldl (addCandidate text spans) spans)
    show sortedBy Span.charStart _ = _
    rw [hsecond]
    exact List.Pairwise.insertionSort_eq hsorted

-- Nothing of the row was selected, so all of it is recovered.
example : ((Candidate.ofTarget? "용수\tm3\t12" 0 8 [] [⟨6, 8, 1, 2, by decide⟩] false).map
    fun candidate => (reconcile _ [candidate] []).1.map fun span => (span.charStart, span.charEnd)) =
      some [(0, 8)] := by
  decide +kernel

end ProofOps.Application.Ingest.TableRecovery
