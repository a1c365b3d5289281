import ProofOps.Api.HostedScope.Revisions

/-!
# No scope is lost

The writes of a run are kept beside it (`writes`), so that what the files hold and what a read
replies can be compared with them.
-/

namespace ProofOps.Api.HostedScope

open Foundation Foundation.Checked Foundation.PyJson Machine

variable {period : Option Dict}

section

variable {Proposal Selection : Type} [DecidableEq Selection]
variable {rules : ScopeRules Proposal Selection} {document : Document}
variable {state : State Proposal Selection}

structure Edited (rules : ScopeRules Proposal Selection) (document : Document)
    (state : State Proposal Selection) (edit : Edit) (scope : Scope Proposal Selection)
    (after : State Proposal Selection) : Prop where
  current : ∃ before, latest state = some before ∧
    edit.ifMatch = some (entityTag before.revision) ∧ scope.revision = before.revision + 1
  period : ∀ before ∈ latest state,
    editedPeriod rules before.reportingScope edit.reportingScope = .ok scope.reportingScope
  selected : scope.selection = rules.scopeSelection scope.plan document.sha256 document.pageCount
    scope.reportingScope scope.plan.failed edit.manualSelection ∧ scope.selection.isSome = true
  plan : ∀ before ∈ latest state, scope.plan = { before.plan with
    selectedClaimPages := edit.claims, selectedEvidencePages := edit.evidence }
  stored : Stored rules document scope
  written : after =
    { state with files := putFile state.files (fileName scope.revision) scope }

variable {now : ℚ} {scope : Scope Proposal Selection} {after : State Proposal Selection}

theorem Sound.edited (hrules : rules.Records) (h : Sound rules document state) {editor : Bool}
    {edit : Edit} (hedit : editScope rules document state editor now edit = .ok (scope, after)) :
    Edited rules document state edit scope after := by
  replace hedit := rest_ok hedit
  obtain ⟨before, hread, hedit⟩ := bind_ok hedit
  obtain ⟨ifMatch, hifMatch, hedit⟩ := bind_ok hedit
  obtain ⟨⟨⟩, hcurrent, hedit⟩ := bind_ok hedit
  obtain ⟨period, hperiod, hedit⟩ := bind_ok hedit
  obtain ⟨selection, hselection, hedit⟩ := bind_ok hedit
  cases pure_ok hedit
  have hlatest := h.latest_of_readScope hread
  have hmade := orRaise_ok_iff.mp hselection
  obtain ⟨name, hmem⟩ := mem_of_latest hlatest
  have htag : ifMatch = entityTag before.revision := not_not.mp (refuse_ok_iff.mp hcurrent)
  constructor
  case current => exact ⟨before, hlatest, htag ▸ orRaise_ok_iff.mp hifMatch, rfl⟩
  case period =>
    intro found hfound
    cases hlatest.symm.trans hfound
    exact hperiod
  case selected => exact ⟨hmade.symm, rfl⟩
  case plan =>
    intro found hfound
    cases hlatest.symm.trans hfound
    rfl
  case stored =>
    have hsource := (h.stored _ hmem).source
    exact ⟨hsource, checkSelection_of_selection hrules rfl hmade⟩
  case written => rfl

variable {plan : Plan Proposal}

theorem generateWrite_ok_iff (hfiles : state.files = []) :
    generateWrite rules document state now plan period = .ok (scope, after) ↔
      firstScope rules document plan period = .ok scope ∧
      openDocument document state now = .ok () ∧ plan.sourceSha256 = document.sha256 ∧
      after = { state with files := [(fileName 1, scope)] } := by
  unfold generateWrite
  simp only [hfiles, ne_eq, not_true_eq_false, if_false]
  constructor
  · intro h
    obtain ⟨made, hmade, h⟩ := bind_ok h
    obtain ⟨⟨⟩, hopen, h⟩ := bind_ok h
    obtain ⟨⟨⟩, hsource, h⟩ := bind_ok h
    cases pure_ok h
    exact ⟨hmade, hopen, not_not.mp (refuse_ok_iff.mp hsource), rfl⟩
  · rintro ⟨hmade, hopen, hsource, rfl⟩
    rw [hmade, hopen, refuse, if_neg (not_not.mpr hsource)]
    rfl

theorem generateWrite_unchanged (hfiles : state.files ≠ [])
    (h : generateWrite rules document state now plan period = .ok (scope, after)) :
    after = state := by
  unfold generateWrite at h
  simp only [if_pos hfiles] at h
  obtain ⟨made, -, h⟩ := bind_ok h
  replace h := rest_ok h
  replace h := rest_ok h
  cases hread : readScope rules document state now with
  | error error =>
    rw [hread] at h
    cases h
  | ok found =>
    rw [hread] at h
    cases h
    rfl

/-! ### The invariant along a run -/

def Fits (state : State Proposal Selection) : Call Proposal → Prop
  | .edit _ _ edit => ∀ scope ∈ lastFile state.files,
      scope.revision = 999999 → edit.ifMatch ≠ some (entityTag 999999)
  | _ => True

theorem Sound.revision (h : Sound rules document state) (hlatest : latest state = some scope) :
    scope.revision = state.files.length := by
  obtain ⟨file, hfile, rfl⟩ := Option.map_eq_some_iff.mp hlatest
  exact h.numbered.revision_of_getLast? hfile

theorem Sound.fresh (h : Sound rules document state) (hwidth : state.files.length + 1 < 10 ^ 6) :
    fileName (state.files.length + 1) ∉ state.files.map Prod.fst := by
  rw [h.numbered.names, List.mem_map]
  rintro ⟨index, hindex, hname⟩
  rw [List.mem_range] at hindex
  have hlt := fileName_lt (Nat.succ_lt_succ hindex) hwidth
  exact hlt.ne hname

theorem Sound.append (h : Sound rules document state)
    (hrevision : scope.revision = state.files.length + 1)
    (hwidth : state.files.length + 1 < 10 ^ 6) (hstored : Stored rules document scope) :
    putFile state.files (fileName scope.revision) scope =
        state.files ++ [(fileName scope.revision, scope)] ∧
      Sound rules document { state with
        files := state.files ++ [(fileName scope.revision, scope)] } := by
  constructor
  · apply putFile_of_not_mem
    rw [hrevision]
    exact h.fresh hwidth
  · constructor
    case numbered => exact h.numbered.append hrevision
    case width =>
      rw [List.length_append, List.length_singleton]
      exact hwidth
    case stored =>
      intro file hfile
      rw [List.mem_append, List.mem_singleton] at hfile
      rcases hfile with hold | rfl
      · exact h.stored file hold
      · exact hstored

theorem Sound.edit (h : Sound rules document state) {editor : Bool} {edit : Edit}
    (hfits : Fits state (.edit editor now edit))
    (hedited : Edited rules document state edit scope after) :
    after = { state with files := state.files ++ [(fileName scope.revision, scope)] } ∧
      Sound rules document after := by
  obtain ⟨before, hlatest, hifMatch, hrevision⟩ := hedited.current
  have hbefore := h.revision hlatest
  have hbound : before.revision ≠ 999999 := by
    intro hlast
    refine hfits before (h.lastFile.trans hlatest) hlast ?_
    rw [hifMatch, hlast]
  have hwidth := h.width
  have hadded := h.append (hrevision.trans (by rw [hbefore])) (by omega) hedited.stored
  rw [hedited.written, hadded.1]
  exact ⟨rfl, hadded.2⟩

end

variable {Proposal Selection : Type} [DecidableEq Selection]
variable {rules : ScopeRules Proposal Selection} {document : Document}
variable {state : State Proposal Selection}

/-- The scopes that a call writes. -/
def written (rules : ScopeRules Proposal Selection) (document : Document)
    (state : State Proposal Selection) : Call Proposal → List (Scope Proposal Selection)
  | .generateWrite now plan period =>
    if state.files.isEmpty then
      ((generateWrite rules document state now plan period).toOption.map Prod.fst).toList
    else []
  | .edit editor now edit =>
    ((editScope rules document state editor now edit).toOption.map Prod.fst).toList
  | _ => []

def writes (rules : ScopeRules Proposal Selection) (document : Document) :
    State Proposal Selection → List (Call Proposal) → List (Scope Proposal Selection)
  | _, [] => []
  | state, call :: calls =>
    written rules document state call ++ writes rules document (next rules document state call) calls

structure Lossless (rules : ScopeRules Proposal Selection) (document : Document)
    (state : State Proposal Selection) (call : Call Proposal) : Prop where
  kept : (next rules document state call).files =
    state.files ++ (written rules document state call).map fun scope =>
      (fileName scope.revision, scope)
  fresh : ∀ scope ∈ written rules document state call,
    fileName scope.revision ∉ state.files.map Prod.fst
  failed : ∀ error, (execute rules document state call).1 = .error error →
    next rules document state call = state
  increased : ∀ editor now edit scope after, call = .edit editor now edit →
    editScope rules document state editor now edit = .ok (scope, after) →
      ∃ before, latest state = some before ∧ edit.ifMatch = some (entityTag before.revision) ∧
        scope.revision = before.revision + 1
  stale : ∀ editor now edit before, call = .edit editor now edit → latest state = some before →
    edit.ifMatch ≠ some (entityTag before.revision) →
      ∃ error, (execute rules document state call).1 = .error error
  invalid : ∀ editor now edit before, call = .edit editor now edit → latest state = some before →
    (∀ period, editedPeriod rules before.reportingScope edit.reportingScope = .ok period →
      let plan := { before.plan with
        selectedClaimPages := edit.claims, selectedEvidencePages := edit.evidence }
      rules.scopeSelection plan document.sha256 document.pageCount period plan.failed
        edit.manualSelection = none) →
      ∃ error, (execute rules document state call).1 = .error error

variable {error : ScopeError}

omit [DecidableEq Selection] in
theorem commit_error {result : Except ScopeError (Scope Proposal Selection × State Proposal Selection)}
    (h : (commit state result).1 = .error error) :
    (commit state result).2 = state := by
  cases result with
  | error other => rfl
  | ok value => cases h

variable {call : Call Proposal}

theorem next_of_error (h : (execute rules document state call).1 = .error error) :
    next rules document state call = state := by
  cases call with
  | get now => rfl
  | generateCheck editor now => rfl
  | generateWrite now plan period | edit editor now edit => exact commit_error h
  | delete => cases h

/-- A call within the width keeps the files, and adds what it writes. -/
theorem Sound.step (hrules : rules.Records) (h : Sound rules document state)
    (hfits : Fits state call) :
    Sound rules document (next rules document state call) ∧
      (next rules document state call).files =
        state.files ++ (written rules document state call).map (fun scope =>
          (fileName scope.revision, scope)) ∧
      ∀ scope ∈ written rules document state call,
        fileName scope.revision ∉ state.files.map Prod.fst := by
  have hsame : ∀ deleted, Sound rules document ⟨deleted, state.files⟩ :=
    fun _ => ⟨h.numbered, h.width, h.stored⟩
  cases call with
  | get now | generateCheck editor now => exact ⟨h, (List.append_nil _).symm, by rintro scope ⟨⟩⟩
  | delete => exact ⟨hsame true, (List.append_nil _).symm, by rintro scope ⟨⟩⟩
  | generateWrite now plan period =>
    show Sound rules document (commit state _).2 ∧ (commit state _).2.files = _ ∧ _
    cases hfiles : state.files.isEmpty with
    | false =>
      have hne : state.files ≠ [] := by
        intro hempty
        rw [hempty] at hfiles
        cases hfiles
      simp only [written, hfiles, Bool.false_eq_true, if_false, List.map_nil, List.append_nil]
      cases hwrite : generateWrite rules document state now plan period with
      | error error => exact ⟨h, rfl, by rintro scope ⟨⟩⟩
      | ok value =>
        have hafter := generateWrite_unchanged hne hwrite
        show Sound rules document value.2 ∧ value.2.files = _ ∧ _
        rw [hafter]
        exact ⟨h, rfl, by rintro scope ⟨⟩⟩
    | true =>
      have hempty := List.isEmpty_iff.mp hfiles
      simp only [written, hfiles, if_true]
      cases hwrite : generateWrite rules document state now plan period with
      | error error => exact ⟨h, (List.append_nil _).symm, by rintro scope ⟨⟩⟩
      | ok value =>
        obtain ⟨hmade, -, hsource, hafter⟩ := (generateWrite_ok_iff hempty).mp hwrite
        obtain ⟨hrevision, hstored⟩ := firstScope_stored hrules hmade hsource
        have hnext : value.1.revision = state.files.length + 1 := by
          rw [hrevision, hempty, List.length_nil]
        have hwidth : state.files.length + 1 < 10 ^ 6 := by
          omega
        have hsound := (h.append hnext hwidth hstored).2
        show Sound rules document value.2 ∧ value.2.files = state.files ++ [_] ∧
          ∀ scope ∈ [value.1], _
        rw [hempty, hrevision] at hsound
        rw [hafter, hempty]
        refine ⟨hsound, ?_, ?_⟩
        · show [(fileName 1, value.1)] = [(fileName value.1.revision, value.1)]
          rw [hrevision]
        · intro scope hscope
          exact List.not_mem_nil
  | edit editor now edit =>
    show Sound rules document (commit state _).2 ∧ (commit state _).2.files = _ ∧ _
    simp only [written]
    cases hedit : editScope rules document state editor now edit with
    | error error => exact ⟨h, (List.append_nil _).symm, by rintro scope ⟨⟩⟩
    | ok value =>
      have hedited := h.edited hrules hedit
      obtain ⟨hafter, hsound⟩ := h.edit hfits hedited
      show Sound rules document value.2 ∧ value.2.files = state.files ++ [_] ∧
        ∀ scope ∈ [value.1], _
      refine ⟨hsound, by rw [hafter], ?_⟩
      intro scope hscope
      cases List.mem_singleton.mp hscope
      obtain ⟨before, hlatest, -, hrevision⟩ := hedited.current
      rw [h.revision hlatest] at hrevision
      have hwidth := hsound.width
      rw [hafter, List.length_append, List.length_singleton] at hwidth
      rw [hrevision]
      exact h.fresh hwidth

theorem lossless (hrules : rules.Records) (h : Sound rules document state)
    (hfits : Fits state call) : Lossless rules document state call := by
  obtain ⟨-, hkept, hfresh⟩ := h.step hrules hfits
  constructor
  case kept => exact hkept
  case fresh => exact hfresh
  case failed =>
    intro error herror
    exact next_of_error herror
  case increased =>
    rintro editor now edit scope after rfl hedit
    exact (h.edited hrules hedit).current
  case stale =>
    rintro editor now edit before rfl hlatest htag
    show ∃ error, (commit state _).1 = .error error
    cases hedit : editScope rules document state editor now edit with
    | error error => exact ⟨error, rfl⟩
    | ok value =>
      obtain ⟨current, hcurrent, hifMatch, -⟩ := (h.edited hrules hedit).current
      cases hlatest.symm.trans hcurrent
      exact absurd hifMatch htag
  case invalid =>
    rintro editor now edit before rfl hlatest hinvalid
    show ∃ error, (commit state _).1 = .error error
    cases hedit : editScope rules document state editor now edit with
    | error error => exact ⟨error, rfl⟩
    | ok value =>
      have hedited := h.edited hrules hedit
      have hnone := hinvalid _ (hedited.period before hlatest)
      simp only [← hedited.plan before hlatest] at hnone
      rw [← hedited.selected.1] at hnone
      have hsome := hedited.selected.2
      rw [hnone] at hsome
      cases hsome

def empty : State Proposal Selection :=
  ⟨false, []⟩

theorem sound_empty : Sound rules document (empty : State Proposal Selection) := by
  constructor
  case numbered => exact ⟨rfl, rfl⟩
  case width => exact Nat.pow_pos (Nat.succ_pos 9)
  case stored => rintro file ⟨⟩

theorem writes_append (front back : List (Call Proposal)) :
    writes rules document state (front ++ back) =
      writes rules document state front ++
        writes rules document (after (next rules document) state front) back := by
  induction front generalizing state with
  | nil => rfl
  | cons call front ih =>
    rw [List.cons_append, writes, writes, ih, List.append_assoc]
    rfl

theorem Sound.run (hrules : rules.Records) (h : Sound rules document state)
    {calls : List (Call Proposal)} (hfits : EachStep (next rules document) Fits state calls) :
    Sound rules document (after (next rules document) state calls) ∧
      (after (next rules document) state calls).files.map Prod.snd =
        state.files.map Prod.snd ++ writes rules document state calls := by
  induction calls generalizing state with
  | nil => exact ⟨h, (List.append_nil _).symm⟩
  | cons call calls ih =>
    obtain ⟨hcall, hcalls⟩ := hfits
    obtain ⟨hnext, hkept, -⟩ := h.step hrules hcall
    obtain ⟨hsound, hfiles⟩ := ih hnext hcalls
    refine ⟨hsound, ?_⟩
    rw [after_cons, hfiles, hkept, writes, List.map_append, List.map_map, List.append_assoc]
    have hscopes : (Prod.snd ∘ fun scope : Scope Proposal Selection =>
        (fileName scope.revision, scope)) = id := rfl
    rw [hscopes, List.map_id]

/-- In a run without an edit at revision 999999, a read replies the latest write, every edit names
the current revision and increases it by one, and nothing written is ever changed. -/
theorem scope_editing_lossless (hrules : rules.Records) (calls : List (Call Proposal))
    (hfits : EachStep (next rules document) Fits (empty : State Proposal Selection) calls) :
    (∀ front back, calls = front ++ back →
      let now := after (next rules document) empty front
      now.files.map Prod.snd = writes rules document empty front ∧
      ∀ time, openDocument document now time = .ok () →
        readScope rules document now time =
          orRaise (writes rules document empty front).getLast? .planRequired) ∧
    ∀ front call back, calls = front ++ call :: back →
      Lossless rules document (after (next rules document) empty front) call := by
  constructor
  · rintro front back rfl
    obtain ⟨hsound, hfiles⟩ := sound_empty.run hrules hfits.front
    refine ⟨hfiles, ?_⟩
    intro time hopen
    rw [hsound.readScope hopen, ← hfiles.trans (List.nil_append _), List.getLast?_map]
    rfl
  · rintro front call back rfl
    obtain ⟨hsound, -⟩ := sound_empty.run hrules hfits.front
    exact lossless hrules hsound hfits.of_append.1

end ProofOps.Api.HostedScope
