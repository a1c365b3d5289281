import ProofOps.Api.HostedScope.Lossless

/-!
# The scope that a read returns after a million revisions

`scope-1000000.json` sorts before `scope-999999.json`.  A run of edits that each name the revision
they read is followed up to the seven digits: the read falls back to revision 999999, and the next
edit overwrites what the last one wrote.
-/

namespace ProofOps.Api.HostedScope

open Foundation Foundation.Checked Foundation.PyJson Machine

/-! ### The demonstration document -/

def singlePage : ScopeRules String Bool where
  validatePeriod := some
  editPeriod := fun _ value => value
  scopeSelection := fun plan _ _ _ _ manual =>
    if plan.selectedClaimPages = [1] ∧ plan.selectedEvidencePages = [1] then some manual else none
  manualSelection := id

theorem singlePage_records : singlePage.Records := by
  intro plan sha256 pageCount period override manual selection h
  replace h : (if plan.selectedClaimPages = [1] ∧ plan.selectedEvidencePages = [1] then some manual
    else none) = some selection := h
  split_ifs at h
  cases h
  rfl

def report : Document :=
  ⟨"5f2c", 1, 600⟩

def proposal : Plan String :=
  ⟨"pages", "5f2c", "needs_review", [1], [1]⟩

def scopeAt (revision : Nat) : Scope String Bool :=
  ⟨revision, proposal, some false, none⟩

def editAt (revision : Nat) (manual : Bool) : Call String :=
  .edit true 0 ⟨[1], [1], some (entityTag revision), manual, none⟩

def generated : Call String :=
  .generateWrite 0 proposal none

def edits (count : Nat) : List (Call String) :=
  generated :: (List.range count).map fun index => editAt (index + 1) false

def filesTo (count : Nat) : List (String × Scope String Bool) :=
  (List.range count).map fun index => (fileName (index + 1), scopeAt (index + 1))

theorem filesTo_succ (count : Nat) :
    filesTo (count + 1) = filesTo count ++ [(fileName (count + 1), scopeAt (count + 1))] := by
  rw [filesTo, List.range_succ, List.map_append, List.map_singleton]
  rfl

theorem length_filesTo (count : Nat) : (filesTo count).length = count := by
  rw [filesTo, List.length_map, List.length_range]

theorem stored_scopeAt (revision : Nat) : Stored singlePage report (scopeAt revision) :=
  ⟨rfl, rfl⟩

variable {count : Nat}

theorem sound_filesTo (h : count < 10 ^ 6) : Sound singlePage report ⟨false, filesTo count⟩ := by
  constructor
  case numbered =>
    constructor
    · show (filesTo count).map Prod.fst = _
      rw [length_filesTo, filesTo, List.map_map]
      rfl
    · show (filesTo count).map _ = _
      rw [length_filesTo, filesTo, List.map_map]
      rfl
  case width =>
    rw [length_filesTo]
    exact h
  case stored =>
    intro file hfile
    obtain ⟨index, -, rfl⟩ := List.mem_map.mp hfile
    exact stored_scopeAt _

theorem openDocument_report (files : List (String × Scope String Bool)) :
    openDocument report ⟨false, files⟩ 0 = .ok () := by
  show (refuse (false = true) ScopeError.notFound >>= fun _ =>
    refuse ((600 : ℚ) ≤ 0) ScopeError.sourceExpired) = .ok ()
  decide +kernel

variable {files : List (String × Scope String Bool)} {revision : Nat}

/-- An edit of the revision that is read succeeds. -/
theorem editScope_current
    (hread : readScope singlePage report ⟨false, files⟩ 0 = .ok (scopeAt revision)) (manual : Bool)
    :
    editScope singlePage report ⟨false, files⟩ true 0
        ⟨[1], [1], some (entityTag revision), manual, none⟩ =
      .ok (⟨revision + 1, proposal, some manual, none⟩, ⟨false, putFile files
        (fileName (revision + 1)) ⟨revision + 1, proposal, some manual, none⟩⟩) := by
  unfold editScope
  rw [hread]
  show (refuse (entityTag revision ≠ entityTag revision) ScopeError.conflict >>= fun _ => _) = _
  rw [refuse, if_neg (not_not.mpr rfl)]
  rfl

theorem read_filesTo (hpositive : 0 < count) (h : count < 10 ^ 6) :
    readScope singlePage report ⟨false, filesTo count⟩ 0 = .ok (scopeAt count) := by
  rw [(sound_filesTo h).readScope (openDocument_report _)]
  cases count with
  | zero => exact absurd hpositive (Nat.lt_irrefl 0)
  | succ count =>
    rw [latest, filesTo_succ, List.getLast?_concat]
    rfl

theorem length_fileName (h : revision < 10 ^ 6) : (fileName revision).length = 17 := by
  have hpadded := FixedWidth.length_padded (Nat.succ_pos 5) h
  unfold fileName
  rw [String.length_ofList, List.length_append, List.length_append, hpadded]
  rfl

theorem length_fileName_million : (fileName 1000000).length = 18 := by
  decide +kernel

theorem fileName_million_lt : fileName 1000000 < fileName 999999 := by
  decide +kernel

theorem lastFile_of_greatest {name : String} {scope : Scope String Bool}
    (hlookup : files.lookup name = some scope) (hgreatest : ∀ file ∈ files, file.1 ≤ name) :
    lastFile files = some scope := by
  have hmem : name ∈ (files.map Prod.fst).insertionSort (· ≤ ·) := by
    obtain ⟨front, back, rfl, -⟩ := List.lookup_eq_some_iff.mp hlookup
    rw [List.mem_insertionSort, List.map_append, List.map_cons]
    exact List.mem_append_right _ List.mem_cons_self
  have hlast := List.getLast?_eq_some_getLast (List.ne_nil_of_mem hmem)
  generalize ((files.map Prod.fst).insertionSort (· ≤ ·)).getLast _ = last at hlast
  obtain ⟨front, hsorted⟩ := List.getLast?_eq_some_iff.mp hlast
  have hordered := List.pairwise_insertionSort (· ≤ ·) (files.map Prod.fst)
  rw [hsorted] at hordered hmem
  have hupper : name ≤ last := by
    rw [List.mem_append, List.mem_singleton] at hmem
    rcases hmem with hfront | rfl
    · exact (List.pairwise_append.mp hordered).2.2 name hfront last (List.mem_singleton_self _)
    · exact le_rfl
  have hlower : last ≤ name := by
    have hsource := List.mem_of_getLast? hlast
    rw [List.mem_insertionSort] at hsource
    obtain ⟨file, hfile, rfl⟩ := List.mem_map.mp hsource
    exact hgreatest file hfile
  unfold lastFile
  rw [hlast, le_antisymm hlower hupper]
  exact hlookup

theorem read_million {last : Nat} (hlast : last + 1 = 999999)
    (hfiles : files = filesTo (last + 1) ++ [(fileName 1000000, scopeAt 1000000)]) :
    readScope singlePage report ⟨false, files⟩ 0 = .ok (scopeAt 999999) := by
  have hnames : ∀ file ∈ filesTo last, file.1 < fileName 999999 := by
    intro file hfile
    obtain ⟨index, hindex, rfl⟩ := List.mem_map.mp hfile
    rw [List.mem_range] at hindex
    exact fileName_lt (by omega) (by omega)
  have hread : lastFile files = some (scopeAt 999999) := by
    apply lastFile_of_greatest
    · rw [hfiles, filesTo_succ, hlast, List.lookup_append, List.lookup_append]
      have hfresh : (filesTo last).lookup (fileName 999999) = none := by
        rw [List.lookup_eq_none_iff]
        intro file hfile
        exact bne_iff_ne.mpr (hnames file hfile).ne'
      rw [hfresh, Option.none_or, List.lookup_cons_self, Option.some_or]
    · intro file hfile
      rw [hfiles, filesTo_succ, hlast, List.mem_append, List.mem_append, List.mem_singleton,
        List.mem_singleton] at hfile
      rcases hfile with (hfile | rfl) | rfl
      · exact (hnames file hfile).le
      · exact le_rfl
      · exact fileName_million_lt.le
  unfold readScope
  rw [openDocument_report, hread]
  rfl

/-! ### The run -/

theorem fileName_ne {first last : Nat} (h : first < last) (hlast : last ≤ 1000000) :
    fileName first ≠ fileName last := by
  rcases Nat.lt_or_eq_of_le hlast with hfits | rfl
  · exact (fileName_lt h hfits).ne
  · intro hsame
    have hlength := congrArg String.length hsame
    rw [length_fileName h, length_fileName_million] at hlength
    cases hlength

theorem fileName_fresh (h : count < 1000000) :
    fileName (count + 1) ∉ (filesTo count).map Prod.fst := by
  rw [List.mem_map]
  rintro ⟨file, hfile, hname⟩
  obtain ⟨index, hindex, rfl⟩ := List.mem_map.mp hfile
  rw [List.mem_range] at hindex
  exact fileName_ne (Nat.succ_lt_succ hindex) h hname

theorem next_editAt (hpositive : 0 < count) (h : count < 1000000) :
    execute singlePage report ⟨false, filesTo count⟩ (editAt count false) =
      (.ok (some (scopeAt (count + 1))), ⟨false, filesTo (count + 1)⟩) := by
  show commit _ (editScope singlePage report ⟨false, filesTo count⟩ true 0
    ⟨[1], [1], some (entityTag count), false, none⟩) = _
  rw [editScope_current (read_filesTo hpositive h) false,
    putFile_of_not_mem (fileName_fresh h), filesTo_succ]
  rfl

theorem written_editAt (hpositive : 0 < count) (h : count < 1000000) :
    written singlePage report ⟨false, filesTo count⟩ (editAt count false) =
      [scopeAt (count + 1)] := by
  show ((editScope singlePage report ⟨false, filesTo count⟩ true 0
    ⟨[1], [1], some (entityTag count), false, none⟩).toOption.map Prod.fst).toList = _
  rw [editScope_current (read_filesTo hpositive h) false]
  rfl

theorem edits_succ (count : Nat) : edits (count + 1) = edits count ++ [editAt (count + 1) false] := by
  unfold edits
  rw [List.range_succ, List.map_append, List.map_singleton, List.cons_append]

theorem after_edits (h : count < 1000000) :
    after (next singlePage report) empty (edits count) = ⟨false, filesTo (count + 1)⟩ := by
  induction count with
  | zero => rfl
  | succ count ih =>
    rw [edits_succ, after_append, ih (Nat.lt_of_succ_lt h)]
    show (execute singlePage report _ _).2 = _
    rw [next_editAt (Nat.succ_pos count) h]

theorem lookup_putFile (files : List (String × Scope String Bool)) (name : String)
    (scope : Scope String Bool) : (putFile files name scope).lookup name = some scope := by
  induction files with
  | nil => rw [putFile, List.lookup_cons_self]
  | cons file files ih =>
    rw [putFile]
    split_ifs with hname
    · rw [List.lookup_cons_self]
    · rw [List.lookup_cons, beq_false_of_ne (Ne.symm hname)]
      exact ih

theorem lookup_editAt
    (hread : readScope singlePage report ⟨false, files⟩ 0 = .ok (scopeAt revision)) (manual : Bool)
    :
    (next singlePage report ⟨false, files⟩ (editAt revision manual)).files.lookup
      (fileName (revision + 1)) = some ⟨revision + 1, proposal, some manual, none⟩ := by
  show (commit _ (editScope singlePage report ⟨false, files⟩ true 0
    ⟨[1], [1], some (entityTag revision), manual, none⟩)).2.files.lookup _ = _
  rw [editScope_current hread manual]
  exact lookup_putFile _ _ _

theorem lookup_last (h : count < 1000000) :
    (filesTo (count + 1)).lookup (fileName (count + 1)) = some (scopeAt (count + 1)) := by
  have hfresh : (filesTo count).lookup (fileName (count + 1)) = none := by
    rw [List.lookup_eq_none_iff]
    intro file hfile
    apply bne_iff_ne.mpr
    intro hname
    exact fileName_fresh h (hname ▸ List.mem_map_of_mem hfile)
  rw [filesTo_succ, List.lookup_append, hfresh, Option.none_or, List.lookup_cons_self]

theorem edits_million (hcount : count + 1 = 1000000) :
    (writes singlePage report empty (edits count)).getLast? = some (scopeAt (count + 1)) ∧
    readScope singlePage report (after (next singlePage report) empty (edits count)) 0 =
      .ok (scopeAt count) ∧
    (after (next singlePage report) empty (edits count)).files.lookup (fileName (count + 1)) =
      some (scopeAt (count + 1)) ∧
    (after (next singlePage report) empty (edits count ++ [editAt count true])).files.lookup
      (fileName (count + 1)) = some ⟨count + 1, proposal, some true, none⟩ := by
  obtain ⟨before, rfl⟩ : ∃ before, count = before + 1 := ⟨count - 1, by omega⟩
  have hread : readScope singlePage report ⟨false, filesTo (before + 1 + 1)⟩ 0 =
      .ok (scopeAt (before + 1)) := by
    have hbefore : before + 1 = 999999 := by omega
    rw [read_million hbefore (by rw [filesTo_succ (before + 1), hcount]), hbefore]
  rw [after_append, after_edits (by omega)]
  refine ⟨?_, hread, lookup_last (by omega), lookup_editAt hread true⟩
  rw [edits_succ, writes_append, after_edits (by omega), writes,
    written_editAt (Nat.succ_pos before) (by omega)]
  exact List.getLast?_concat

theorem scope_editing_stale :
    (writes singlePage report empty (edits 999999)).getLast? = some (scopeAt 1000000) ∧
    readScope singlePage report (after (next singlePage report) empty (edits 999999)) 0 =
      .ok (scopeAt 999999) ∧
    (after (next singlePage report) empty (edits 999999)).files.lookup (fileName 1000000) =
      some (scopeAt 1000000) ∧
    (after (next singlePage report) empty (edits 999999 ++ [editAt 999999 true])).files.lookup
      (fileName 1000000) = some ⟨1000000, proposal, some true, none⟩ :=
  edits_million rfl

theorem fits_editAt (state : State String Bool) (manual : Bool) : Fits state (editAt 1 manual) := by
  intro scope _ _
  show some (entityTag 1) ≠ some (entityTag 999999)
  decide +kernel

theorem scope_editing_lossless_short :
    readScope singlePage report
        (after (next singlePage report) empty [generated, editAt 1 false]) 0 =
      orRaise (writes singlePage report empty [generated, editAt 1 false]).getLast? .planRequired ∧
    Lossless singlePage report (after (next singlePage report) empty [generated])
      (editAt 1 false) ∧
    Lossless singlePage report
      (after (next singlePage report) empty [generated, editAt 1 false]) (editAt 1 true) := by
  have hrun := @scope_editing_lossless _ _ _ singlePage report singlePage_records
    [generated, editAt 1 false, editAt 1 true]
    ⟨trivial, fits_editAt _ false, fits_editAt _ true, trivial⟩
  refine ⟨?_, ?_, ?_⟩
  · exact (hrun.1 [generated, editAt 1 false] [editAt 1 true] rfl).2 0 (openDocument_report _)
  · exact hrun.2 [generated] (editAt 1 false) [editAt 1 true] rfl
  · exact hrun.2 [generated, editAt 1 false] (editAt 1 true) [] rfl

end ProofOps.Api.HostedScope
