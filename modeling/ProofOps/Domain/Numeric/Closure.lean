import Mathlib.Data.Finset.Card
import ProofOps.Domain.Numeric.Lineage

/-!
# What the lineage sweeps reach

A sweep takes one pending node a turn and adds a node at most once, so its fuel lasts
(`sweep_ends`), and it ends with what its starts reach (`mem_sweepFrom_iff`).  The issues and notes of
an observation are therefore those that a path of edges leads to.
-/

namespace ProofOps.Domain.Numeric

open Foundation

/-! ### Sweeps -/

section Sweep

variable {next : String → List String} {starts seen pending bound : List String} {fuel : Nat}

structure Sweeping (next : String → List String) (starts seen pending : List String) : Prop where
  reached : ∀ node ∈ seen,
    ∃ start ∈ starts, Relation.ReflTransGen (fun first second => second ∈ next first) start node
  starts_seen : starts ⊆ seen
  pending_seen : pending ⊆ seen
  closed : ∀ node ∈ seen, node ∈ pending ∨ next node ⊆ seen

theorem Sweeping.initial : Sweeping next starts starts starts where
  reached := fun node hnode => ⟨node, hnode, .refl⟩
  starts_seen := List.Subset.refl _
  pending_seen := List.Subset.refl _
  closed := fun _ hnode => Or.inl hnode

def fresh (next : String → List String) (seen : List String) (node : String) : List String :=
  (next node).dedup.filter fun target => !seen.contains target

variable {node : String}

theorem mem_fresh {target : String} :
    target ∈ fresh next seen node ↔ target ∈ next node ∧ target ∉ seen := by
  simp [fresh]

theorem sweep_cons : sweep next (fuel + 1) seen (node :: pending) =
    sweep next fuel (seen ++ fresh next seen node) (fresh next seen node ++ pending) := rfl

/-- A turn keeps the invariant. -/
theorem Sweeping.turn (h : Sweeping next starts seen (node :: pending)) :
    Sweeping next starts (seen ++ fresh next seen node) (fresh next seen node ++ pending) := by
  have hnode : node ∈ seen := h.pending_seen List.mem_cons_self
  constructor
  case reached =>
    intro other hother
    rcases List.mem_append.mp hother with hold | hnew
    · exact h.reached other hold
    · obtain ⟨start, hstart, hpath⟩ := h.reached node hnode
      exact ⟨start, hstart, hpath.tail (mem_fresh.mp hnew).1⟩
  case starts_seen => exact fun other hother => List.mem_append_left _ (h.starts_seen hother)
  case pending_seen =>
    intro other hother
    rcases List.mem_append.mp hother with hnew | hold
    · exact List.mem_append_right _ hnew
    · exact List.mem_append_left _ (h.pending_seen (List.mem_cons_of_mem _ hold))
  case closed =>
    intro other hother
    rcases List.mem_append.mp hother with hold | hnew
    · by_cases hsame : other = node
      · refine Or.inr fun target htarget => ?_
        by_cases hseen : target ∈ seen
        · exact List.mem_append_left _ hseen
        · exact List.mem_append_right _ (mem_fresh.mpr ⟨hsame ▸ htarget, hseen⟩)
      · rcases h.closed other hold with hpending | hclosed
        · exact Or.inl (List.mem_append_right _ ((List.mem_cons.mp hpending).resolve_left hsame))
        · exact Or.inr fun target htarget => List.mem_append_left _ (hclosed htarget)
    · exact Or.inl (List.mem_append_left _ hnew)

def room (bound seen : List String) : Nat :=
  (bound.toFinset \ seen.toFinset).card

/-- What is fresh takes its room. -/
theorem room_fresh (hbound : ∀ node, next node ⊆ bound) (node : String) :
    (fresh next seen node).length + room bound (seen ++ fresh next seen node) = room bound seen := by
  have hnodup : (fresh next seen node).Nodup := (List.nodup_dedup _).filter _
  have hsubset : (fresh next seen node).toFinset ⊆ bound.toFinset \ seen.toFinset := by
    intro target htarget
    obtain ⟨hnext, hseen⟩ := mem_fresh.mp (List.mem_toFinset.mp htarget)
    simp [hbound node hnext, hseen]
  unfold room
  rw [List.toFinset_append, ← Finset.sup_eq_union, ← sdiff_sdiff_left, ← List.toFinset_card_of_nodup hnodup, add_comm]
  exact Finset.card_sdiff_add_card_eq_card hsubset

theorem sweep_ends (hbound : ∀ node, next node ⊆ bound)
    (hfuel : pending.length + room bound seen ≤ fuel) (extra : Nat) :
    sweep next (fuel + extra) seen pending = sweep next fuel seen pending := by
  induction fuel generalizing seen pending with
  | zero =>
    obtain rfl : pending = [] := List.length_eq_zero_iff.mp (by omega)
    cases extra <;> rfl
  | succ fuel ih =>
    rw [Nat.succ_add]
    cases pending with
    | nil => rfl
    | cons node pending =>
      rw [List.length_cons] at hfuel
      have hroom := @room_fresh next seen bound hbound node
      rw [sweep_cons, sweep_cons]
      apply ih
      rw [List.length_append]
      omega

theorem sweep_sweeping (hbound : ∀ node, next node ⊆ bound)
    (hfuel : pending.length + room bound seen ≤ fuel) (h : Sweeping next starts seen pending) :
    Sweeping next starts (sweep next fuel seen pending) [] := by
  induction fuel generalizing seen pending with
  | zero =>
    obtain rfl : pending = [] := List.length_eq_zero_iff.mp (by omega)
    exact h
  | succ fuel ih =>
    cases pending with
    | nil => exact h
    | cons node pending =>
      rw [List.length_cons] at hfuel
      have hroom := @room_fresh next seen bound hbound node
      rw [sweep_cons]
      refine ih ?_ h.turn
      rw [List.length_append]
      omega

theorem Sweeping.mem_iff (h : Sweeping next starts seen []) :
    node ∈ seen ↔
      ∃ start ∈ starts, Relation.ReflTransGen (fun first second => second ∈ next first) start node := by
  refine ⟨h.reached node, ?_⟩
  rintro ⟨start, hstart, hpath⟩
  induction hpath with
  | refl => exact h.starts_seen hstart
  | tail _ hstep ih => exact (h.closed _ ih).resolve_left List.not_mem_nil hstep

variable {edges : List NumericEdge}

theorem room_le (hlength : bound.length = edges.length) :
    starts.length + room bound starts ≤ starts.length + edges.length := by
  refine Nat.add_le_add_left ?_ _
  calc room bound starts ≤ bound.toFinset.card := Finset.card_le_card Finset.sdiff_subset
    _ ≤ bound.length := List.toFinset_card_le bound
    _ = edges.length := hlength

def Ends (edges : List NumericEdge) (next : String → List String) (starts : List String) : Prop :=
  ∀ extra, sweep next (starts.length + edges.length + extra) starts starts = sweepFrom edges next starts

theorem sweepFrom_ends (hbound : ∀ node, next node ⊆ bound) (hlength : bound.length = edges.length) :
    Ends edges next starts :=
  sweep_ends hbound (room_le hlength)

theorem mem_sweepFrom_iff (hbound : ∀ node, next node ⊆ bound)
    (hlength : bound.length = edges.length) :
    node ∈ sweepFrom edges next starts ↔
      ∃ start ∈ starts, Relation.ReflTransGen (fun first second => second ∈ next first) start node :=
  (sweep_sweeping hbound (room_le hlength) .initial).mem_iff

end Sweep

/-! ### Lineages -/

def TableParent (edges : List NumericEdge) (node parent : String) : Prop :=
  ∃ edge ∈ edges, edge.relation = "table_parent" ∧ edge.sourceId = node ∧ edge.targetId = parent

variable (original : NumericSnapshot)

def Reached (starts : List String) (node : String) : Prop :=
  ∃ start ∈ starts, Relation.ReflTransGen (TableParent original.edges) start node

variable (node : String)

def Owned : Prop :=
  ∃ table ∈ original.blocks, table.kind = "table" ∧ Relation.ReflTransGen (fun parent child =>
    TableParent original.edges child parent ∧ ∃ block ∈ original.blocks,
      (block.kind = "table_cell" ∨ block.kind = "table_row") ∧ block.sourceId = child) table.sourceId node

def Assigned (note : String) : Prop :=
  ∃ edge ∈ original.edges, edge.relation = "footnote_of" ∧ Owned original edge.targetId ∧
    edge.sourceId = note

def Related (sourceId node : String) : Prop :=
  Relation.ReflTransGen (fun child parent => TableParent original.edges child parent ∧
    Owned original parent) sourceId node

variable {original} {edges : List NumericEdge}

theorem mem_tableParents {node parent : String} :
    parent ∈ tableParents edges node ↔ TableParent edges node parent := by
  simp [tableParents, TableParent, and_assoc]

theorem tableParents_subset :
    tableParents original.edges node ⊆ original.edges.map NumericEdge.targetId :=
  List.map_subset _ List.filter_sublist.subset

theorem mem_sweep_parents {starts : List String} {node : String} :
    node ∈ sweepFrom original.edges (tableParents original.edges) starts ↔ Reached original starts node := by
  rw [mem_sweepFrom_iff tableParents_subset (List.length_map _)]
  simp only [mem_tableParents]
  rfl

def rowsBelow (original : NumericSnapshot) (node : String) : List String :=
  (original.edges.filter fun edge => edge.relation == "table_parent" && edge.targetId == node &&
    ((original.blocks.filter fun block => block.kind == "table_cell" || block.kind == "table_row").map
      NumericBlock.sourceId).contains edge.sourceId).map NumericEdge.sourceId

/-- The tables of a snapshot. -/
def tableIds (original : NumericSnapshot) : List String :=
  (original.blocks.filter fun block => block.kind == "table").map NumericBlock.sourceId

theorem rowsBelow_subset : rowsBelow original node ⊆ original.edges.map NumericEdge.sourceId :=
  List.map_subset _ List.filter_sublist.subset

theorem mem_ownedNodes {node : String} : node ∈ ownedNodes original ↔ Owned original node := by
  show node ∈ sweepFrom original.edges (rowsBelow original) (tableIds original) ↔ _
  rw [mem_sweepFrom_iff rowsBelow_subset (List.length_map _)]
  have hstep : ∀ parent child, child ∈ rowsBelow original parent ↔
      TableParent original.edges child parent ∧ ∃ block ∈ original.blocks,
        (block.kind = "table_cell" ∨ block.kind = "table_row") ∧ block.sourceId = child := by
    intro parent child
    simp only [rowsBelow, TableParent, List.mem_map, List.mem_filter, Bool.and_eq_true, beq_iff_eq,
      List.contains_iff_mem, Bool.or_eq_true]
    constructor
    · rintro ⟨edge, ⟨hedge, ⟨hrelation, htarget⟩, block, ⟨hblock, hkind⟩, hsource⟩, rfl⟩
      exact ⟨⟨edge, hedge, hrelation, rfl, htarget⟩, block, hblock, hkind, hsource⟩
    · rintro ⟨⟨edge, hedge, hrelation, rfl, htarget⟩, block, hblock, hkind, hsource⟩
      exact ⟨edge, ⟨hedge, ⟨hrelation, htarget⟩, block, ⟨hblock, hkind⟩, hsource⟩, rfl⟩
  simp only [hstep, tableIds, List.mem_map, List.mem_filter, beq_iff_eq]
  constructor
  · rintro ⟨-, ⟨table, ⟨htable, hkind⟩, rfl⟩, hpath⟩
    exact ⟨table, htable, hkind, hpath⟩
  · rintro ⟨table, htable, hkind, hpath⟩
    exact ⟨_, ⟨table, ⟨htable, hkind⟩, rfl⟩, hpath⟩

theorem mem_notesOf_owned {note : String} :
    note ∈ notesOf original (ownedNodes original) ↔ Assigned original note := by
  simp only [notesOf, Assigned, List.mem_map, List.mem_filter, Bool.and_eq_true, beq_iff_eq,
    List.contains_iff_mem, mem_ownedNodes, and_assoc]

def ownedParents (original : NumericSnapshot) (node : String) : List String :=
  (tableParents original.edges node).filter fun parent => (ownedNodes original).contains parent

theorem ownedParents_subset :
    ownedParents original node ⊆ original.edges.map NumericEdge.targetId :=
  List.Subset.trans List.filter_sublist.subset (tableParents_subset node)

theorem mem_sweep_owned {sourceId node : String} :
    node ∈ sweepFrom original.edges (ownedParents original) [sourceId] ↔
      Related original sourceId node := by
  rw [mem_sweepFrom_iff ownedParents_subset (List.length_map _)]
  simp only [ownedParents, List.mem_filter, List.contains_iff_mem, mem_tableParents, mem_ownedNodes,
    List.mem_singleton, exists_eq_left]
  rfl

def IssueOn (original : NumericSnapshot) (sourceIds : List String) (id : String) : Prop :=
  ∃ issue ∈ original.issues, (issue.state = "open" ∨ issue.state = "unreadable") ∧
    (∃ source ∈ issue.sourceIds, Reached original sourceIds source) ∧ issue.issueId = id

theorem mem_unresolvedSourceIssueIds {sourceIds : List String} {id : String} :
    id ∈ unresolvedSourceIssueIds original sourceIds ↔ IssueOn original sourceIds id := by
  simp only [unresolvedSourceIssueIds, IssueOn, intersects, List.mem_map, List.mem_filter,
    Bool.and_eq_true, Bool.or_eq_true, beq_iff_eq, List.any_eq_true, List.contains_iff_mem,
    mem_sweep_parents, and_assoc, and_comm (b := _ ∈ NumericIssue.sourceIds _)]

def NoteLeft (original : NumericSnapshot) (sourceId note : String) : Prop :=
  ¬Assigned original note ∧ ∃ block, lastBlock original.blocks sourceId = some block ∧
    (block.kind = "footnote" ∧ note = sourceId ∨
      block.kind ∈ ["table", "table_row", "table_cell"] ∧ ∃ footnote ∈ original.blocks,
        footnote.kind = "footnote" ∧ (∃ candidate ∈ footnote.candidates, ∃ node,
          Related original sourceId node ∧ candidate.source.physicalPage ∈ pagesOf original node) ∧
        footnote.sourceId = note)

theorem mem_unassignedNoteIds {sourceId note : String} :
    note ∈ unassignedNoteIds original sourceId ↔ NoteLeft original sourceId note := by
  unfold unassignedNoteIds NoteLeft
  cases hblock : lastBlock original.blocks sourceId with
  | none => simp
  | some block =>
    simp only [Option.some.injEq, exists_eq_left']
    by_cases hnote : block.kind = "footnote"
    · rw [if_neg (by simp [hnote])]
      rw [if_pos (by simp [hnote])]
      have hassigned : (notesOf original (ownedNodes original)).contains sourceId = true ↔
          Assigned original sourceId := List.contains_iff_mem.trans mem_notesOf_owned
      split_ifs with h
      · rw [hassigned] at h
        simp only [hnote, List.not_mem_nil, false_iff]
        rintro ⟨hfree, ⟨-, rfl⟩ | ⟨hkind, -⟩⟩
        · exact hfree h
        · exact absurd hkind (by decide)
      · rw [hassigned] at h
        rw [List.mem_singleton]
        constructor
        · rintro rfl
          exact ⟨h, Or.inl ⟨hnote, rfl⟩⟩
        · rintro ⟨-, ⟨-, rfl⟩ | ⟨hkind, -⟩⟩
          · rfl
          · exact absurd (hnote ▸ hkind) (by decide)
    · by_cases hkind : block.kind ∈ ["table", "table_row", "table_cell"]
      · have hknown : ["table", "table_row", "table_cell", "footnote"].contains block.kind = true :=
          List.contains_iff_mem.mpr (List.mem_append_left ["footnote"] hkind)
        rw [if_neg (by rw [hknown]; decide), if_neg (by simpa using hnote)]
        show note ∈ (original.blocks.filter fun footnote => footnote.kind == "footnote" &&
          !(notesOf original (ownedNodes original)).contains footnote.sourceId &&
            footnote.candidates.any fun candidate => ((sweepFrom original.edges (ownedParents original)
              [sourceId]).flatMap (pagesOf original)).contains
                candidate.source.physicalPage).map NumericBlock.sourceId ↔ _
        simp only [List.mem_map, List.mem_filter, Bool.and_eq_true, beq_iff_eq, Bool.not_eq_true',
          ← Bool.not_eq_true, List.contains_iff_mem, mem_notesOf_owned, List.any_eq_true,
          List.mem_flatMap, mem_sweep_owned, hnote, hkind, false_and, false_or, true_and]
        constructor
        · rintro ⟨footnote, ⟨hfootnote, ⟨hname, hfree⟩, hpage⟩, rfl⟩
          exact ⟨hfree, footnote, hfootnote, hname, hpage, rfl⟩
        · rintro ⟨hfree, footnote, hfootnote, hname, hpage, rfl⟩
          exact ⟨footnote, ⟨hfootnote, ⟨hname, hfree⟩, hpage⟩, rfl⟩
      · have hother : block.kind ∉ ["table", "table_row", "table_cell", "footnote"] := by
          simp only [List.mem_cons, List.not_mem_nil, or_false, not_or] at hkind ⊢
          exact ⟨hkind.1, hkind.2.1, hkind.2.2, hnote⟩
        rw [if_pos (by simpa [List.contains_iff_mem] using hother)]
        simp only [List.not_mem_nil, hnote, hkind, false_and, or_self, and_false]

def Targeted (item : NumericObservation) (original : NumericSnapshot) (node : String) : Prop :=
  Reached original (relationSources item) item.tableId ∧ ∃ targets : List String,
    (∀ target, target ∈ targets ↔ Reached original (relationSources item) target ∨
      ∃ relation ∈ item.parentRelations, target = relation.target ∧ target ∉ footnoteIds original) ∧
    (node ∈ targets ∨ node ∈ columnNoteTargets original item.tableId targets)

theorem mem_columnNoteTargets_congr {tableId node : String} {targets others : List String}
    (h : ∀ target, target ∈ targets ↔ target ∈ others) :
    node ∈ columnNoteTargets original tableId targets ↔ node ∈ columnNoteTargets original tableId others := by
  have hsame : ∀ target, targets.contains target = others.contains target := by
    intro target
    rw [Bool.eq_iff_iff, List.contains_iff_mem, List.contains_iff_mem, h]
  unfold columnNoteTargets
  simp only [hsame]

/-- The targets of a note, spelled out. -/
theorem mem_noteTargets {item : NumericObservation} {node : String} :
    node ∈ noteTargets item original ↔ Targeted item original node := by
  have htargets : ∀ target, target ∈ sweepFrom original.edges (tableParents original.edges)
        (relationSources item) ++ ((item.parentRelations.map ParentRelation.target).filter fun target =>
          !(footnoteIds original).contains target) ↔
      Reached original (relationSources item) target ∨
        ∃ relation ∈ item.parentRelations, target = relation.target ∧ target ∉ footnoteIds original := by
    intro target
    simp only [List.mem_append, mem_sweep_parents, List.mem_filter, List.mem_map, Bool.not_eq_true',
      ← Bool.not_eq_true, List.contains_iff_mem]
    refine or_congr_right ⟨?_, ?_⟩
    · rintro ⟨⟨relation, hrelation, rfl⟩, hnote⟩
      exact ⟨relation, hrelation, rfl, hnote⟩
    · rintro ⟨relation, hrelation, rfl, hnote⟩
      exact ⟨⟨relation, hrelation, rfl⟩, hnote⟩
  have htable : (sweepFrom original.edges (tableParents original.edges)
      (relationSources item)).contains item.tableId = true ↔
        Reached original (relationSources item) item.tableId :=
    List.contains_iff_mem.trans mem_sweep_parents
  unfold noteTargets Targeted
  dsimp only
  split_ifs with h
  · rw [List.mem_append]
    constructor
    · intro hnode
      exact ⟨htable.mp h, _, htargets, hnode⟩
    · rintro ⟨-, targets, hiff, hnode⟩
      have hsame := fun target => (htargets target).trans (hiff target).symm
      exact hnode.imp (hsame node).mpr (mem_columnNoteTargets_congr hsame).mpr
  · rw [htable] at h
    simp only [List.not_mem_nil, h, false_and]

theorem cellPositions_perm (h : original.edges.Perm edges) (tableId : String) :
    cellPositions { original with edges } tableId = cellPositions original tableId := by
  have hsame : ∀ id, ((edges.filter fun edge => edge.relation == "table_parent" &&
        edge.targetId == tableId).map NumericEdge.sourceId).contains id =
      ((original.edges.filter fun edge => edge.relation == "table_parent" &&
        edge.targetId == tableId).map NumericEdge.sourceId).contains id := by
    intro id
    rw [Bool.eq_iff_iff, List.contains_iff_mem, List.contains_iff_mem]
    exact ((h.filter _).map _).mem_iff.symm
  unfold cellPositions
  simp only [hsame]

/-- **The sweeps end with exactly what a path leads to.**  The issues, the notes left unassigned and the
targets of an observation's notes are those that the table edges reach, with or without cycles, and no
order of the edges changes them. -/
theorem lineage_closed (original : NumericSnapshot) (item : NumericObservation) (sourceId : String)
    (sourceIds : List String) :
    (Ends original.edges (tableParents original.edges) sourceIds ∧
        Ends original.edges (tableParents original.edges) (relationSources item) ∧
        Ends original.edges (rowsBelow original) (tableIds original) ∧
        Ends original.edges (ownedParents original) [sourceId]) ∧
      (∀ id, id ∈ unresolvedSourceIssueIds original sourceIds ↔ IssueOn original sourceIds id) ∧
      (∀ note, note ∈ unassignedNoteIds original sourceId ↔ NoteLeft original sourceId note) ∧
      (∀ node, node ∈ noteTargets item original ↔ Targeted item original node) ∧
      ∀ edges, original.edges.Perm edges →
        (∀ id, id ∈ unresolvedSourceIssueIds { original with edges } sourceIds ↔
          id ∈ unresolvedSourceIssueIds original sourceIds) ∧
        (∀ note, note ∈ unassignedNoteIds { original with edges } sourceId ↔
          note ∈ unassignedNoteIds original sourceId) ∧
        ∀ node, node ∈ noteTargets item { original with edges } ↔ node ∈ noteTargets item original := by
  refine ⟨⟨?_, ?_, ?_, ?_⟩, fun _ => mem_unresolvedSourceIssueIds, fun _ => mem_unassignedNoteIds,
    fun _ => mem_noteTargets, fun edges hperm => ?_⟩
  · exact sweepFrom_ends tableParents_subset (List.length_map _)
  · exact sweepFrom_ends tableParents_subset (List.length_map _)
  · exact sweepFrom_ends rowsBelow_subset (List.length_map _)
  · exact sweepFrom_ends ownedParents_subset (List.length_map _)
  · have hparent : TableParent edges = TableParent original.edges := by
      funext node parent
      simp only [TableParent, hperm.mem_iff]
    have howned : Owned { original with edges } = Owned original := by
      funext node
      simp only [Owned, hparent]
    refine ⟨fun id => ?_, fun note => ?_, fun node => ?_⟩
    · rw [mem_unresolvedSourceIssueIds, mem_unresolvedSourceIssueIds]
      simp only [IssueOn, Reached, hparent]
    · rw [mem_unassignedNoteIds, mem_unassignedNoteIds]
      simp only [NoteLeft, Assigned, Related, howned, hparent, hperm.mem_iff, pagesOf]
    · rw [mem_noteTargets, mem_noteTargets]
      have hcolumns : columnNoteTargets { original with edges } = columnNoteTargets original := by
        funext tableId targets
        unfold columnNoteTargets
        rw [cellPositions_perm hperm]
      simp only [Targeted, Reached, hparent, hcolumns, footnoteIds]

end ProofOps.Domain.Numeric
