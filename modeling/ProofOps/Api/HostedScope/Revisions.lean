import Mathlib.Data.List.Sort
import ProofOps.Foundation.Checked
import ProofOps.Foundation.FixedWidth
import ProofOps.Foundation.Machine
import ProofOps.Foundation.PyJson

/-!
# Revisions of a scope

The files of a scope are its revisions in the order in which they were written.  As long as no edit
is made at revision 999999, names sort as revisions do, so the last name is that of the latest
write (`lastFile_eq`) and no write meets a file that there is (`scope_editing_lossless`).  The next
name has seven digits and sorts before the old ones (`scope_editing_stale`).
-/

namespace ProofOps.Api.HostedScope

open Foundation Foundation.Checked Foundation.PyJson

/-! ### The scope of a hosted document -/

section

inductive ScopeError where
  | forbidden
  | notFound
  | sourceExpired
  | planRequired
  | sourceHashMismatch
  | integrityInvalid
  | ifMatchRequired
  | conflict
  | reportingScopeInvalid
  | pageSelectionInvalid
  | raised
  deriving DecidableEq

structure Plan (Proposal : Type) where
  proposal : Proposal
  (sourceSha256 status : String)
  (selectedClaimPages selectedEvidencePages : List Int)

/-- A revision of the scope of a document. -/
structure Scope (Proposal Selection : Type) where
  revision : Nat
  plan : Plan Proposal
  selection : Option Selection
  reportingScope : Option Dict

/-- What the service knows of a document. -/
structure Document where
  sha256 : String
  pageCount : Nat
  expires : ℚ

structure ScopeRules (Proposal Selection : Type) where
  validatePeriod : Dict → Option Dict
  editPeriod : Option Dict → Dict → Dict
  scopeSelection : Plan Proposal → String → Nat → Option Dict → Bool → Bool → Option Selection
  manualSelection : Selection → Bool

def ScopeRules.Records {Proposal Selection : Type} (rules : ScopeRules Proposal Selection) : Prop :=
  ∀ plan sha256 pageCount period override manual selection,
    rules.scopeSelection plan sha256 pageCount period override manual = some selection →
      rules.manualSelection selection = manual

structure State (Proposal Selection : Type) where
  deleted : Bool
  files : List (String × Scope Proposal Selection)

variable {Proposal Selection : Type} [DecidableEq Selection]

def fileName (revision : Nat) : String :=
  String.ofList ("scope-".toList ++ FixedWidth.padded 6 revision ++ ".json".toList)

/-- `HostedStore._write`. -/
def putFile (files : List (String × Scope Proposal Selection)) (name : String)
    (scope : Scope Proposal Selection) : List (String × Scope Proposal Selection) :=
  match files with
  | [] => [(name, scope)]
  | file :: files =>
    if file.1 = name then (name, scope) :: files else file :: putFile files name scope

def lastFile (files : List (String × Scope Proposal Selection)) :
    Option (Scope Proposal Selection) := do
  let name ← ((files.map Prod.fst).insertionSort (· ≤ ·)).getLast?
  files.lookup name

def Plan.failed (plan : Plan Proposal) : Bool :=
  plan.status = "failed"

variable (rules : ScopeRules Proposal Selection) (document : Document)

def checkSelection (scope : Scope Proposal Selection) : Except ScopeError Unit :=
  if !scope.plan.failed || scope.selection.isSome then do
    let selection ← orRaise (rules.scopeSelection scope.plan document.sha256 document.pageCount
      scope.reportingScope scope.plan.failed ((scope.selection.map rules.manualSelection).getD false))
      ScopeError.integrityInvalid
    refuse (scope.selection ≠ some selection) .integrityInvalid
  else .ok ()

variable (state : State Proposal Selection)

def openDocument (now : ℚ) :
    Except ScopeError Unit := do
  refuse (state.deleted = true) .notFound
  refuse (document.expires ≤ now) .sourceExpired

/-- `_scope`. -/
def readScope (now : ℚ) :
    Except ScopeError (Scope Proposal Selection) := do
  openDocument document state now
  let scope ← orRaise (lastFile state.files) .planRequired
  refuse (scope.plan.sourceSha256 ≠ document.sha256) .sourceHashMismatch
  checkSelection rules document scope
  return scope

def generateCheck (editor : Bool) (now : ℚ) :
    Except ScopeError (Option (Scope Proposal Selection)) :=
  if editor = false then .error .forbidden
  else if state.deleted = true then .error .notFound
  else if state.files ≠ [] then (readScope rules document state now).map some
  else if document.expires ≤ now then .error .sourceExpired
  else .ok none

def firstScope (plan : Plan Proposal) (period : Option Dict) :
    Except ScopeError (Scope Proposal Selection) :=
  if plan.failed then .ok ⟨1, plan, none, period⟩
  else
    match rules.scopeSelection plan document.sha256 document.pageCount period false false with
    | some selection => .ok ⟨1, plan, some selection, period⟩
    | none => .error .raised

def generateWrite (now : ℚ) (plan : Plan Proposal) (period : Option Dict) :
    Except ScopeError (Scope Proposal Selection × State Proposal Selection) := do
  let scope ← firstScope rules document plan period
  openDocument document state now
  refuse (plan.sourceSha256 ≠ document.sha256) .sourceHashMismatch
  if state.files ≠ [] then (readScope rules document state now).map fun found => (found, state)
  else .ok (scope, { state with files := putFile state.files (fileName 1) scope })

/-- A change that a reviewer asks for. -/
structure Edit where
  (claims evidence : List Int)
  ifMatch : Option String
  manualSelection : Bool
  reportingScope : Option Dict

def editedPeriod (period : Option Dict) : Option Dict → Except ScopeError (Option Dict)
  | none => .ok period
  | some reporting => do
    let value ← orRaise (rules.validatePeriod reporting) ScopeError.reportingScopeInvalid
    return some (rules.editPeriod period value)

/-- `f'"{revision}"'`. -/
def entityTag (revision : Nat) : String :=
  "\"" ++ toString revision ++ "\""

/-- `HostedStore.edit_scope`. -/
def editScope (editor : Bool) (now : ℚ) (edit : Edit) :
    Except ScopeError (Scope Proposal Selection × State Proposal Selection) := do
  refuse (editor = false) .forbidden
  let scope ← readScope rules document state now
  let ifMatch ← orRaise edit.ifMatch .ifMatchRequired
  refuse (ifMatch ≠ entityTag scope.revision) .conflict
  let plan := { scope.plan with
    selectedClaimPages := edit.claims, selectedEvidencePages := edit.evidence }
  let period ← editedPeriod rules scope.reportingScope edit.reportingScope
  let selection ← orRaise (rules.scopeSelection plan document.sha256 document.pageCount period
    plan.failed edit.manualSelection) .pageSelectionInvalid
  let updated := ⟨scope.revision + 1, plan, some selection, period⟩
  return (updated, { state with files := putFile state.files (fileName updated.revision) updated })

inductive Call (Proposal : Type) where
  | get (now : ℚ)
  | generateCheck (editor : Bool) (now : ℚ)
  | generateWrite (now : ℚ) (plan : Plan Proposal) (period : Option Dict)
  | edit (editor : Bool) (now : ℚ) (edit : Edit)
  | delete

def commit :
    Except ScopeError (Scope Proposal Selection × State Proposal Selection) →
    Except ScopeError (Option (Scope Proposal Selection)) × State Proposal Selection
  | .ok (scope, after) => (.ok (some scope), after)
  | .error error => (.error error, state)

def execute : Call Proposal →
    Except ScopeError (Option (Scope Proposal Selection)) × State Proposal Selection
  | .get now => ((readScope rules document state now).map some, state)
  | .generateCheck editor now => (generateCheck rules document state editor now, state)
  | .generateWrite now plan period =>
    commit state (generateWrite rules document state now plan period)
  | .edit editor now edit => commit state (editScope rules document state editor now edit)
  | .delete => (.ok none, { state with deleted := true })

/-- The state after a call. -/
def next (call : Call Proposal) : State Proposal Selection :=
  (execute rules document state call).2

end

variable {Proposal Selection : Type} [DecidableEq Selection]
variable {rules : ScopeRules Proposal Selection} {document : Document}
variable {state : State Proposal Selection} {files : List (String × Scope Proposal Selection)}

theorem fileName_lt {first second : Nat} (h : first < second) (hsecond : second < 10 ^ 6) :
    fileName first < fileName second := by
  have hlength : (FixedWidth.padded 6 first).length = (FixedWidth.padded 6 second).length := by
    rw [FixedWidth.length_padded (Nat.succ_pos 5) (h.trans hsecond),
      FixedWidth.length_padded (Nat.succ_pos 5) hsecond]
  have hpadded := FixedWidth.padded_lt h hsecond
  unfold fileName
  rw [String.lt_iff]
  simp only [String.toList_ofList, List.append_assoc]
  apply List.append_left_lt
  exact FixedWidth.append_lt_append hlength hpadded

structure Numbered (files : List (String × Scope Proposal Selection)) : Prop where
  names : files.map Prod.fst = (List.range files.length).map fun index => fileName (index + 1)
  revisions : files.map (fun file => file.2.revision) =
    (List.range files.length).map fun index => index + 1

variable {scope : Scope Proposal Selection}

omit [DecidableEq Selection] in
/-- The next revision keeps the numbering. -/
theorem Numbered.append (h : Numbered files) (hrevision : scope.revision = files.length + 1) :
    Numbered (files ++ [(fileName scope.revision, scope)]) := by
  constructor
  case names =>
    rw [List.map_append, h.names, List.length_append, List.length_singleton, List.range_succ,
      List.map_append, List.map_singleton, List.map_singleton, hrevision]
  case revisions =>
    rw [List.map_append, h.revisions, List.length_append, List.length_singleton, List.range_succ,
      List.map_append, List.map_singleton, List.map_singleton, hrevision]

omit [DecidableEq Selection] in
theorem Numbered.pairwise (h : Numbered files) (hwidth : files.length < 10 ^ 6) :
    (files.map Prod.fst).Pairwise (· < ·) := by
  rw [h.names, List.pairwise_map]
  refine List.Pairwise.imp_of_mem ?_ List.pairwise_lt_range
  intro first second _ hsecond hlt
  rw [List.mem_range] at hsecond
  exact fileName_lt (by omega) (by omega)

omit [DecidableEq Selection] in
theorem Numbered.revision_of_getLast? (h : Numbered files)
    {file : String × Scope Proposal Selection} (hlast : files.getLast? = some file) :
    file.2.revision = files.length := by
  have hmapped := congrArg List.getLast? h.revisions
  rw [List.getLast?_map, hlast, List.getLast?_map, List.getLast?_range, Option.map_some] at hmapped
  split_ifs at hmapped with hempty
  · cases hmapped
  · rw [Option.map_some, Option.some.injEq] at hmapped
    omega

omit [DecidableEq Selection] in
theorem lastFile_eq (h : (files.map Prod.fst).Pairwise (· < ·)) :
    lastFile files = files.getLast?.map Prod.snd := by
  unfold lastFile
  rw [List.Pairwise.insertionSort_eq (h.imp le_of_lt), List.getLast?_map]
  cases hlast : files.getLast? with
  | none => rfl
  | some file =>
    obtain ⟨front, rfl⟩ := List.getLast?_eq_some_iff.mp hlast
    show (front ++ [file]).lookup file.1 = some file.2
    rw [List.map_append, List.map_singleton, List.pairwise_append] at h
    have hfresh : front.lookup file.1 = none := by
      rw [List.lookup_eq_none_iff]
      intro other hother
      have hlt := h.2.2 other.1 (List.mem_map_of_mem hother) file.1 (List.mem_singleton_self _)
      exact bne_iff_ne.mpr hlt.ne'
    rw [List.lookup_append, hfresh, Option.none_or, List.lookup_cons, beq_self_eq_true]

omit [DecidableEq Selection] in
theorem putFile_of_not_mem {name : String}
    (h : name ∉ files.map Prod.fst) : putFile files name scope = files ++ [(name, scope)] := by
  induction files with
  | nil => rfl
  | cons file files ih =>
    rw [List.map_cons, List.mem_cons, not_or] at h
    rw [putFile, if_neg (Ne.symm h.1), ih h.2, List.cons_append]

/-! ### The invariant -/

def latest (state : State Proposal Selection) : Option (Scope Proposal Selection) :=
  state.files.getLast?.map Prod.snd

structure Stored (rules : ScopeRules Proposal Selection) (document : Document)
    (scope : Scope Proposal Selection) : Prop where
  source : scope.plan.sourceSha256 = document.sha256
  checked : checkSelection rules document scope = .ok ()

structure Sound (rules : ScopeRules Proposal Selection) (document : Document)
    (state : State Proposal Selection) : Prop where
  numbered : Numbered state.files
  width : state.files.length < 10 ^ 6
  stored : ∀ file ∈ state.files, Stored rules document file.2

theorem Sound.lastFile (h : Sound rules document state) : lastFile state.files = latest state :=
  lastFile_eq (h.numbered.pairwise h.width)

omit [DecidableEq Selection] in
theorem mem_of_latest (h : latest state = some scope) :
    ∃ name, (name, scope) ∈ state.files := by
  obtain ⟨file, hfile, rfl⟩ := Option.map_eq_some_iff.mp h
  exact ⟨file.1, List.mem_of_getLast? hfile⟩

theorem Sound.readScope (h : Sound rules document state) {now : ℚ}
    (hopen : openDocument document state now = .ok ()) :
    readScope rules document state now = orRaise (latest state) .planRequired := by
  unfold HostedScope.readScope
  rw [hopen, h.lastFile]
  cases hlatest : latest state with
  | none => rfl
  | some scope =>
    obtain ⟨name, hmem⟩ := mem_of_latest hlatest
    have hstored := h.stored _ hmem
    show (refuse (scope.plan.sourceSha256 ≠ document.sha256) .sourceHashMismatch >>= fun _ =>
      checkSelection rules document scope >>= fun _ => .ok scope) = .ok scope
    rw [refuse, if_neg (not_not.mpr hstored.source), hstored.checked]
    rfl

theorem Sound.latest_of_readScope (h : Sound rules document state) {now : ℚ}
    (hread : HostedScope.readScope rules document state now = .ok scope) :
    latest state = some scope := by
  obtain ⟨⟨⟩, hopen, hread⟩ := bind_ok hread
  obtain ⟨found, hfound, hread⟩ := bind_ok hread
  replace hread := rest_ok hread
  replace hread := rest_ok hread
  cases pure_ok hread
  rw [← h.lastFile]
  exact orRaise_ok_iff.mp hfound

theorem checkSelection_of_selection {selection : Selection}
    {manual : Bool} (hrules : rules.Records) (hselection : scope.selection = some selection)
    (hmade : rules.scopeSelection scope.plan document.sha256 document.pageCount
      scope.reportingScope scope.plan.failed manual = some selection) :
    checkSelection rules document scope = .ok () := by
  have hmanual := hrules _ _ _ _ _ _ _ hmade
  unfold checkSelection
  simp only [hselection, Option.isSome_some, Bool.or_true, if_true, Option.map_some,
    Option.getD_some, hmanual, hmade]
  show refuse (some selection ≠ some selection) ScopeError.integrityInvalid = .ok ()
  rw [refuse_ok_iff, not_not]

theorem firstScope_stored (hrules : rules.Records) {plan : Plan Proposal} {period : Option Dict}
    (h : firstScope rules document plan period = .ok scope)
    (hsource : plan.sourceSha256 = document.sha256) :
    scope.revision = 1 ∧ Stored rules document scope := by
  unfold firstScope at h
  split_ifs at h with hfailed
  · cases h
    refine ⟨rfl, hsource, ?_⟩
    unfold checkSelection
    simp only [hfailed, Bool.not_true, Option.isSome_none, Bool.or_self, Bool.false_eq_true, if_false]
  · cases hmade : rules.scopeSelection plan document.sha256 document.pageCount period false false with
    | none =>
      rw [hmade] at h
      cases h
    | some selection =>
      rw [hmade] at h
      cases h
      rw [← Bool.eq_false_of_not_eq_true hfailed] at hmade
      exact ⟨rfl, hsource, checkSelection_of_selection hrules rfl hmade⟩

end ProofOps.Api.HostedScope
