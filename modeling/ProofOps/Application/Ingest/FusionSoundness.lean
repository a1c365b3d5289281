import ProofOps.Application.Ingest.FusionScan
import ProofOps.Foundation.Table

/-!
# The fused graph

What a successful fusion returns, and the inputs on which it divides by zero.
-/

namespace ProofOps.Application.Ingest

open Foundation Foundation.Checked Foundation.Grouping Foundation.Sorting Domain Domain.Numeric

section

/-! ### Admitted batches -/

variable {identity : Identity} {candidates : List CandidateBatch}

theorem admitBatches_ok_iff {seen : List String} :
    admitBatches identity seen candidates = .ok () ↔
      (∀ batch ∈ candidates, batch.identity = identity) ∧
        (candidates.map CandidateBatch.parserRunId).Nodup ∧
        ∀ batch ∈ candidates, batch.parserRunId ∉ seen := by
  induction candidates generalizing seen with
  | nil => simp [admitBatches]
  | cons batch rest ih =>
    unfold admitBatches
    simp only [bind_ok_iff, refuse_ok_iff, not_not, ih, List.forall_mem_cons, List.map_cons,
      List.nodup_cons, List.mem_map, not_exists, not_and]
    simp only [List.mem_cons, not_or]
    constructor
    · rintro ⟨⟨⟩, hidentity, ⟨⟩, hseen, hrest, hnodup, hfresh⟩
      exact ⟨⟨hidentity, hrest⟩, ⟨fun other hother => (hfresh other hother).1, hnodup⟩, hseen,
        fun other hother => (hfresh other hother).2⟩
    · rintro ⟨⟨hidentity, hrest⟩, ⟨hruns, hnodup⟩, hseen, hfresh⟩
      exact ⟨(), hidentity, (), hseen, hrest, hnodup,
        fun other hother => ⟨hruns other hother, hfresh other hother⟩⟩

structure Admitted (candidates : List CandidateBatch) (tenantId : String) (version : Nat)
    (mixedParser : Bool) (identity : Identity) : Prop where
  nonempty : candidates ≠ []
  known : version ∈ [1, 2, 3, 4, 5]
  mixed : ¬(version = 5 ∧ mixedParser = false)
  geometry : ¬(version < 3 ∧ ∃ entry ∈ entriesOf candidates, entry.2.hasInvalidGeometry = true)
  tenant : identity.tenantId = tenantId
  identities : ∀ batch ∈ candidates, batch.identity = identity
  runs_nodup : (candidates.map CandidateBatch.parserRunId).Nodup

variable {tenantId : String} {version : Nat} {mixedParser : Bool}

theorem admitted_ok_iff :
    admitted candidates tenantId version mixedParser = .ok identity ↔
      Admitted candidates tenantId version mixedParser identity := by
  cases candidates with
  | nil =>
    refine ⟨fun h => (by cases h), fun h => absurd rfl h.nonempty⟩
  | cons first rest =>
    unfold admitted
    simp only [bind_ok_iff, refuse_ok_iff, not_not]
    constructor
    · rintro ⟨⟨⟩, hknown, ⟨⟩, hmixed, ⟨⟩, hgeometry, ⟨⟩, hbatches, h⟩
      cases h
      obtain ⟨hidentities, hruns, -⟩ := admitBatches_ok_iff.mp hbatches
      exact ⟨List.cons_ne_nil _ _, hknown, hmixed, hgeometry, rfl, hidentities, hruns⟩
    · rintro ⟨-, hknown, hmixed, hgeometry, rfl, hidentities, hruns⟩
      have hfirst : ({ first.identity with tenantId := identity.tenantId } : Identity) = identity := by
        rw [hidentities first List.mem_cons_self]
      refine ⟨(), hknown, (), hmixed, (), hgeometry, (), ?_, by rw [hfirst]⟩
      rw [hfirst]
      exact admitBatches_ok_iff.mpr ⟨hidentities, hruns, fun _ _ => List.not_mem_nil⟩

/-- The error is a `ValueError`. -/
def FusionError.IsValueError (error : FusionError) : Prop :=
  error ≠ .zeroDivision

theorem refuse_raises {p : Prop} [Decidable p] {message : String} :
    RaisesOnly FusionError.IsValueError (refuse p (.valueError message)) :=
  raisesOnly_refuse (by simp [FusionError.IsValueError])

theorem admitBatches_raises (identity : Identity) (seen : List String)
    (batches : List CandidateBatch) :
    RaisesOnly FusionError.IsValueError (admitBatches identity seen batches) := by
  induction batches generalizing seen with
  | nil => exact raisesOnly_ok ()
  | cons batch rest ih =>
    exact refuse_raises.bind fun _ => refuse_raises.bind fun _ => ih _

theorem admitted_raises (candidates : List CandidateBatch) (tenantId : String) (version : Nat)
    (mixedParser : Bool) :
    RaisesOnly FusionError.IsValueError (admitted candidates tenantId version mixedParser) := by
  cases candidates with
  | nil => exact raisesOnly_error (by simp [FusionError.IsValueError])
  | cons first rest =>
    refine refuse_raises.bind fun _ => refuse_raises.bind fun _ => refuse_raises.bind fun _ => ?_
    exact (admitBatches_raises _ _ _).bind fun _ => raisesOnly_ok _

theorem mem_entriesOf {batch : CandidateBatch} {block : CandidateBlock} :
    (batch, block) ∈ entriesOf candidates ↔ batch ∈ candidates ∧ block ∈ batch.blocks := by
  unfold entriesOf
  simp only [List.mem_flatMap, List.mem_map, Prod.mk.injEq]
  constructor
  · rintro ⟨other, hother, block', hblock, rfl, rfl⟩
    exact ⟨hother, hblock⟩
  · rintro ⟨hbatch, hblock⟩
    exact ⟨batch, hbatch, block, hblock, rfl, rfl⟩

variable {first second : List CandidateBatch}

theorem Admitted.perm (hperm : first.Perm second)
    (h : Admitted first tenantId version mixedParser identity) :
    Admitted second tenantId version mixedParser identity where
  nonempty := fun hnil => h.nonempty (hnil ▸ hperm).eq_nil
  known := h.known
  mixed := h.mixed
  geometry := by
    rintro ⟨hversion, ⟨batch, block⟩, hentry, hinvalid⟩
    refine h.geometry ⟨hversion, (batch, block), ?_, hinvalid⟩
    rw [mem_entriesOf] at hentry ⊢
    exact ⟨hperm.mem_iff.mpr hentry.1, hentry.2⟩
  tenant := h.tenant
  identities := fun batch hbatch => h.identities batch (hperm.mem_iff.mpr hbatch)
  runs_nodup := (hperm.map _).nodup_iff.mp h.runs_nodup

/-! ### The candidates of admitted batches -/

theorem keys_nodup (hruns : (candidates.map CandidateBatch.parserRunId).Nodup) :
    ((entriesOf candidates).map Entry.key).Nodup := by
  have hflat : (entriesOf candidates).map Entry.key = candidates.flatMap fun batch =>
      batch.blocks.map fun block => (batch.parserRunId, block.source.sourceNativeId) := by
    unfold entriesOf
    rw [List.map_flatMap]
    refine List.flatMap_congr fun batch _ => ?_
    rw [List.map_map]
    rfl
  rw [hflat, List.nodup_flatMap]
  constructor
  · intro batch _
    have hnative := batch.native_nodup
    refine List.Nodup.of_map Prod.snd ?_
    rw [List.map_map]
    exact hnative
  · rw [List.Nodup, List.pairwise_map] at hruns
    refine hruns.imp fun {first second} hne => ?_
    intro key hfirst hsecond
    obtain ⟨_, -, rfl⟩ := List.mem_map.mp hfirst
    obtain ⟨_, -, hkey⟩ := List.mem_map.mp hsecond
    exact hne (Prod.mk.inj hkey).1.symm

theorem scanOrder_perm (candidates : List CandidateBatch) :
    (scanOrder (orderedBatches candidates)).Perm (entriesOf candidates) := by
  refine (List.Perm.flatMap_right _ (sortedBy_perm _ candidates)).trans ?_
  refine List.Perm.flatMap_left _ fun batch _ => ?_
  exact (sortedBy_perm _ batch.blocks).map _

theorem scanOrder_nodup (hruns : (candidates.map CandidateBatch.parserRunId).Nodup) :
    (scanOrder (orderedBatches candidates)).Nodup :=
  (scanOrder_perm candidates).nodup_iff.mpr (List.Nodup.of_map _ (keys_nodup hruns))

theorem tableOf_perm (hperm : first.Perm second)
    (hruns : (first.map CandidateBatch.parserRunId).Nodup) (entry : Entry) :
    tableOf first entry = tableOf second entry := by
  have hentries : (entriesOf first).Perm (entriesOf second) :=
    List.Perm.flatMap_right _ hperm
  have hlists : ((entriesOf first).filter fun other => other.2.kind = .table).reverse.Perm
      ((entriesOf second).filter fun other => other.2.kind = .table).reverse :=
    (List.reverse_perm _).trans ((hentries.filter _).trans (List.reverse_perm _).symm)
  have hnodup : ∀ candidates : List CandidateBatch,
      (candidates.map CandidateBatch.parserRunId).Nodup →
      ((((entriesOf candidates).filter fun other => other.2.kind = .table).reverse).map
        Entry.key).Nodup := by
    intro candidates hcandidates
    rw [List.map_reverse, List.nodup_reverse]
    exact (keys_nodup hcandidates).sublist (List.filter_sublist.map _)
  have hfirst := hnodup first hruns
  have hsecond := hnodup second ((hperm.map _).nodup_iff.mp hruns)
  refine Option.bind_congr fun native _ => congrArg (Option.map Prod.snd) ?_
  refine Option.ext fun found => ?_
  have hleft := @Table.find_eq_some_iff _ _ Entry.key _ ⟨_, hfirst⟩ (entry.1.parserRunId, native) found
  have hright := @Table.find_eq_some_iff _ _ Entry.key _ ⟨_, hsecond⟩ (entry.1.parserRunId, native) found
  exact hleft.trans ((and_congr_left fun _ => hlists.mem_iff).trans hright.symm)

theorem joins_perm (hperm : first.Perm second)
    (hruns : (first.map CandidateBatch.parserRunId).Nodup) (version : Nat) :
    joins version first = joins version second := by
  funext left right
  unfold joins compatibleTables
  rw [tableOf_perm hperm hruns left, tableOf_perm hperm hruns right]

theorem orderedBatches_perm (hperm : first.Perm second)
    (hruns : (first.map CandidateBatch.parserRunId).Nodup) :
    orderedBatches first = orderedBatches second := by
  refine sortedBy_eq_of_perm hperm (List.Nodup.of_map (fun key => (ofLex key).2) ?_)
  rw [List.map_map]
  exact hruns

theorem fuseCandidates_perm {rules : FusionRules} (hperm : first.Perm second)
    (h : Admitted first tenantId version mixedParser identity) :
    fuseCandidates rules first tenantId version mixedParser =
      fuseCandidates rules second tenantId version mixedParser := by
  unfold fuseCandidates
  rw [admitted_ok_iff.mpr h, admitted_ok_iff.mpr (h.perm hperm),
    orderedBatches_perm hperm h.runs_nodup]
  simp only [groupCandidates_eq_scan, joins_perm hperm h.runs_nodup]

end

structure Separated (version : Nat) (candidates : List CandidateBatch) : Prop where
  blocks_apart : ∀ left ∈ entriesOf candidates, ∀ right ∈ entriesOf candidates, left ≠ right →
    ¬Coincide version left.2 right.2
  tables_apart : 4 ≤ version → ∀ left ∈ entriesOf candidates, ∀ right ∈ entriesOf candidates,
    left ≠ right → matchesBlock version left.2 right.2 = .ok true → left.2.kind ≠ .table →
    ∀ table, tableOf candidates left = some table → tableOf candidates right = some table →
      ¬Vanishes table

variable {candidates : List CandidateBatch}

theorem separated_iff {version : Nat} (hruns : (candidates.map CandidateBatch.parserRunId).Nodup) :
    Separated version candidates ↔
      (scanOrder (orderedBatches candidates)).Pairwise fun left right =>
        ¬Raises (joins version candidates) left right := by
  have hmem : ∀ entry, entry ∈ scanOrder (orderedBatches candidates) ↔ entry ∈ entriesOf candidates :=
    fun entry => (scanOrder_perm candidates).mem_iff
  simp only [raises_joins_iff]
  constructor
  · intro h
    refine (scanOrder_nodup hruns).pairwise_of_forall_ne fun left hleft right hright hne hclash => ?_
    rw [hmem] at hleft hright
    rcases hclash with hcoincide | ⟨hmatch, hversion, hkind, a, b, ha, hb, hcoincide⟩
    · exact h.blocks_apart left hleft right hright hne hcoincide
    · by_cases hsame : a = b
      · subst hsame
        exact h.tables_apart hversion left hleft right hright hne hmatch hkind a ha hb
          hcoincide.left_vanishes
      · -- Two tables are candidates themselves.
        obtain ⟨-, first, hfirst⟩ := tableOf_spec ha
        obtain ⟨-, second, hsecond⟩ := tableOf_spec hb
        exact h.blocks_apart (first, a) hfirst (second, b) hsecond
          (fun heq => hsame (Prod.mk.inj heq).2) hcoincide
  · intro h
    have : Std.Symm fun left right => ¬Clash version candidates left right :=
      ⟨fun _ _ hclear hclash => hclear hclash.symm⟩
    have hclear : ∀ left ∈ entriesOf candidates, ∀ right ∈ entriesOf candidates, left ≠ right →
        ¬Clash version candidates left right := by
      intro left hleft right hright hne
      exact h.forall ((hmem left).mpr hleft) ((hmem right).mpr hright) hne
    constructor
    · intro left hleft right hright hne hcoincide
      exact hclear left hleft right hright hne (Or.inl hcoincide)
    · intro hversion left hleft right hright hne hmatch hkind table htable htable' hvanishes
      exact hclear left hleft right hright hne (Or.inr ⟨hmatch, hversion, hkind, table, table, htable,
        htable', rfl, rfl, rfl, hvanishes, hvanishes⟩)

theorem groupCandidates_error_iff {version : Nat} {candidates : List CandidateBatch}
    (hruns : (candidates.map CandidateBatch.parserRunId).Nodup) {error : FusionError} :
    groupCandidates version candidates (orderedBatches candidates) = .error error ↔
      error = .zeroDivision ∧ ¬Separated version candidates := by
  have hlonely : ∀ left right, Raises (joins version candidates) left right →
      Lonely (joins version candidates) left ∧ Lonely (joins version candidates) right := by
    intro left right hraises
    have hclash := raises_joins_iff.mp hraises
    exact ⟨lonely_of_clash hclash, lonely_of_clash hclash.symm⟩
  rw [groupCandidates_eq_scan, separated_iff hruns, ← scan_ok_iff hlonely]
  cases h : scan (joins version candidates) [] (scanOrder (orderedBatches candidates)) with
  | ok groups => simp
  | error raised =>
    have hzero : raised = .zeroDivision := by
      rcases exists_raises_of_scan h with ⟨left, -, right, -, hraise⟩ | ⟨left, right, -, hraise⟩
      · exact (joins_error_iff.mp hraise).1
      · exact (joins_error_iff.mp hraise).1
    simp [hzero, eq_comm]

/-! ### The fused graph -/

structure FusedGraph (rules : FusionRules) (candidates : List CandidateBatch) (tenantId : String)
    (version : Nat) (mixedParser : Bool) (graph : CanonicalDocumentGraph) : Prop where
  partition : (graph.blocks.flatMap CanonicalBlock.candidates).Perm
    (candidates.flatMap CandidateBatch.blocks)
  exactly_one : ∀ batch ∈ candidates, ∀ block ∈ batch.blocks,
    ∃! index : Nat, ∃ canonical, graph.blocks[index]? = some canonical ∧ block ∈ canonical.candidates
  aligned : ∀ canonical ∈ graph.blocks, canonical.candidates.Pairwise fun left right =>
    matchesBlock version left right = .ok true ∧ matchesBlock version right left = .ok true
  conflict : ∀ canonical ∈ graph.blocks, ∀ left ∈ canonical.candidates,
    ∀ right ∈ canonical.candidates,
      rules.normalize left.source.rawText ≠ rules.normalize right.source.rawText →
      canonical.winner = none ∧
        ∃ issue ∈ graph.issues, issue.sourceIds = [canonical.sourceId] ∧ issue.state = "open"
  order : ∀ other, candidates.Perm other →
    fuseCandidates rules other tenantId version mixedParser = .ok graph

theorem assemble_spec {rules : FusionRules} {identity : Identity} {ordered : List CandidateBatch}
    {groups : List Group} {graph : CanonicalDocumentGraph}
    (h : assemble rules identity ordered groups = .ok graph) :
    graph.blocks.Perm (groups.map (canonicalBlock rules identity)) ∧
      ∀ issue, issue ∈ graph.issues ↔ issue ∈ groups.filterMap (groupIssue rules identity) := by
  obtain ⟨edges, -, h⟩ := bind_ok h
  cases h
  exact ⟨sortedBy_perm _ _, fun issue => mem_sortedBy⟩

theorem assemble_raises (rules : FusionRules) (identity : Identity) (ordered : List CandidateBatch)
    (groups : List Group) :
    RaisesOnly FusionError.IsValueError (assemble rules identity ordered groups) := by
  refine (raisesOnly_mapM fun pair _ => ?_).bind fun _ => raisesOnly_ok _
  unfold canonicalEdge
  split
  · exact raisesOnly_ok _
  · exact raisesOnly_error (by simp [FusionError.IsValueError])

theorem existsUnique_of_nodup_flatMap {α β : Type} {f : α → List β} {values : List α} {element : β}
    (hnodup : (values.flatMap f).Nodup) (h : element ∈ values.flatMap f) :
    ∃! index : Nat, ∃ value, values[index]? = some value ∧ element ∈ f value := by
  obtain ⟨value, hvalue, hmem⟩ := List.mem_flatMap.mp h
  obtain ⟨index, hindex⟩ := List.getElem?_of_mem hvalue
  refine ⟨index, ⟨value, hindex, hmem⟩, ?_⟩
  rintro other ⟨second, hother, hsecond⟩
  obtain ⟨-, hdisjoint⟩ := List.nodup_flatMap.mp hnodup
  obtain ⟨hlt, rfl⟩ := List.getElem?_eq_some_iff.mp hindex
  obtain ⟨hlt', rfl⟩ := List.getElem?_eq_some_iff.mp hother
  rw [List.pairwise_iff_getElem] at hdisjoint
  rcases lt_trichotomy other index with hless | heq | hmore
  · exact absurd hmem (List.disjoint_left.mp (hdisjoint other index hlt' hlt hless) hsecond)
  · exact heq
  · exact absurd hsecond (List.disjoint_left.mp (hdisjoint index other hlt hlt' hmore) hmem)

theorem hasConflict_of_ne {rules : FusionRules} {group : Group} {left right : Entry}
    (hleft : left ∈ group) (hright : right ∈ group)
    (h : rules.normalize left.2.source.rawText ≠ rules.normalize right.2.source.rawText) :
    hasConflict rules group = true := by
  unfold hasConflict
  by_contra hshort
  generalize htexts : (group.map fun entry => rules.normalize entry.2.source.rawText).dedup = texts
    at hshort
  have hfirst : rules.normalize left.2.source.rawText ∈ texts := by
    rw [← htexts, List.mem_dedup]
    exact List.mem_map_of_mem (f := fun entry : Entry => rules.normalize entry.2.source.rawText) hleft
  have hsecond : rules.normalize right.2.source.rawText ∈ texts := by
    rw [← htexts, List.mem_dedup]
    exact List.mem_map_of_mem (f := fun entry : Entry => rules.normalize entry.2.source.rawText) hright
  match texts, hshort with
  | [], _ => cases hfirst
  | [text], _ =>
    rw [List.mem_singleton] at hfirst hsecond
    exact h (hfirst.trans hsecond.symm)
  | _ :: _ :: _, hshort => simp at hshort

theorem conflict_issue {rules : FusionRules} {identity : Identity} {version : Nat} {group : Group}
    (haligned : (group.map Prod.snd).Pairwise fun left right =>
      matchesBlock version left right = .ok true ∧ matchesBlock version right left = .ok true)
    {left right : Entry} (hleft : left ∈ group) (hright : right ∈ group)
    (h : rules.normalize left.2.source.rawText ≠ rules.normalize right.2.source.rawText) :
    (canonicalBlock rules identity group).winner = none ∧
      ∃ issue, groupIssue rules identity group = some issue ∧
        issue.sourceIds = [(canonicalBlock rules identity group).sourceId] ∧
        issue.state = "open" := by
  have hconflict := hasConflict_of_ne hleft hright h
  have hlocated : ∀ entry ∈ group, entry.2.hasInvalidGeometry = false := by
    intro entry hentry
    -- One of the two members with different texts is another candidate.
    have hother : ∃ other ∈ group, entry.2 ≠ other.2 := by
      by_cases hsame : entry.2 = left.2
      · refine ⟨right, hright, fun heq => h ?_⟩
        rw [← hsame, heq]
      · exact ⟨left, hleft, hsame⟩
    obtain ⟨other, hmem, hne⟩ := hother
    have : Std.Symm fun left right : CandidateBlock =>
        matchesBlock version left right = .ok true ∧ matchesBlock version right left = .ok true :=
      ⟨fun _ _ hboth => hboth.symm⟩
    have hmatch := (haligned.forall (List.mem_map_of_mem hentry) (List.mem_map_of_mem hmem) hne).1
    obtain ⟨a, b, hcomparable, -⟩ := matchesBlock_true hmatch
    simp [CandidateBlock.hasInvalidGeometry, hcomparable.left_bbox]
  have hvalid : (group.any fun entry => entry.2.hasInvalidGeometry) = false := by
    rw [List.any_eq_false]
    intro entry hentry
    simp [hlocated entry hentry]
  have hquality : (canonicalBlock rules identity group).quality = "conflicted" := by
    simp only [canonicalBlock, groupQuality, hconflict, if_true]
  refine ⟨by simp only [canonicalBlock, hconflict, if_true], ?_⟩
  unfold groupIssue
  rw [if_pos (Or.inl hquality), hvalid]
  exact ⟨_, rfl, rfl, rfl⟩

/-- No block occurs in two batches. -/
theorem blocks_nodup (hruns : (candidates.map CandidateBatch.parserRunId).Nodup) :
    (candidates.flatMap CandidateBatch.blocks).Nodup := by
  have hkeys := keys_nodup hruns
  have hblocks : (entriesOf candidates).map Prod.snd = candidates.flatMap CandidateBatch.blocks := by
    unfold entriesOf
    rw [List.map_flatMap]
    refine List.flatMap_congr fun batch _ => ?_
    rw [List.map_map]
    exact List.map_id _
  have hsame : (entriesOf candidates).map Entry.key =
      (candidates.flatMap CandidateBatch.blocks).map fun block =>
        (block.source.parserRunId, block.source.sourceNativeId) := by
    rw [← hblocks, List.map_map]
    refine List.map_congr_left fun entry hentry => ?_
    obtain ⟨batch, block⟩ := entry
    have hown := batch.own_blocks block (mem_entriesOf.mp hentry).2
    exact Prod.ext hown.2.2.symm rfl
  rw [hsame] at hkeys
  exact List.Nodup.of_map _ hkeys

theorem fusedGraph_of_ok {rules : FusionRules} {candidates : List CandidateBatch}
    {tenantId : String} {version : Nat} {mixedParser : Bool} {graph : CanonicalDocumentGraph}
    (h : fuseCandidates rules candidates tenantId version mixedParser = .ok graph) :
    FusedGraph rules candidates tenantId version mixedParser graph := by
  obtain ⟨identity, hadmits, hrest⟩ := bind_ok h
  obtain ⟨groups, hgroups, hassemble⟩ := bind_ok hrest
  have hadmitted := admitted_ok_iff.mp hadmits
  obtain ⟨hblocks, hissues⟩ := assemble_spec hassemble
  rw [groupCandidates_eq_scan] at hgroups
  have hsound := scan_sound Sound.nil hgroups
  have hperm := scan_perm hgroups
  have halignedGroup : ∀ group ∈ groups, (group.map Prod.snd).Pairwise fun left right =>
      matchesBlock version left right = .ok true ∧ matchesBlock version right left = .ok true := by
    intro group hgroup
    rw [List.pairwise_map]
    refine (hsound group hgroup).2.imp fun {left right} hjoin => ?_
    have hmatch := (joins_true hjoin).1
    exact ⟨hmatch, (matchesBlock_comm version right.2 left.2).trans hmatch⟩
  have hpartition : (graph.blocks.flatMap CanonicalBlock.candidates).Perm
      (candidates.flatMap CandidateBatch.blocks) := by
    have hgroupBlocks : (groups.map (canonicalBlock rules identity)).flatMap
        CanonicalBlock.candidates = groups.flatten.map Prod.snd := by
      rw [List.flatMap_map, List.map_flatten, List.flatMap]
      rfl
    have hentryBlocks : (entriesOf candidates).map Prod.snd =
        candidates.flatMap CandidateBatch.blocks := by
      unfold entriesOf
      rw [List.map_flatMap]
      refine List.flatMap_congr fun batch _ => ?_
      rw [List.map_map]
      exact List.map_id _
    rw [← hentryBlocks]
    refine (List.Perm.flatMap_right _ hblocks).trans ?_
    rw [hgroupBlocks]
    exact (hperm.trans (scanOrder_perm candidates)).map Prod.snd
  have hnodup := blocks_nodup hadmitted.runs_nodup
  constructor
  case partition => exact hpartition
  case exactly_one =>
    intro batch hbatch block hblock
    refine existsUnique_of_nodup_flatMap (hpartition.nodup_iff.mpr hnodup) ?_
    exact hpartition.mem_iff.mpr (List.mem_flatMap.mpr ⟨batch, hbatch, hblock⟩)
  case aligned =>
    intro canonical hcanonical
    obtain ⟨group, hgroup, rfl⟩ := List.mem_map.mp (hblocks.mem_iff.mp hcanonical)
    exact halignedGroup group hgroup
  case conflict =>
    intro canonical hcanonical left hleft right hright hne
    obtain ⟨group, hgroup, rfl⟩ := List.mem_map.mp (hblocks.mem_iff.mp hcanonical)
    obtain ⟨leftEntry, hleftEntry, rfl⟩ := List.mem_map.mp hleft
    obtain ⟨rightEntry, hrightEntry, rfl⟩ := List.mem_map.mp hright
    obtain ⟨hwinner, issue, hissue, hsources, hstate⟩ := @conflict_issue rules identity version group
      (halignedGroup group hgroup) leftEntry rightEntry hleftEntry hrightEntry hne
    refine ⟨hwinner, issue, ?_, hsources, hstate⟩
    exact (hissues issue).mpr (List.mem_filterMap.mpr ⟨group, hgroup, hissue⟩)
  case order =>
    intro other hother
    rw [← fuseCandidates_perm hother hadmitted]
    exact h

def FusesSoundly (rules : FusionRules) (candidates : List CandidateBatch) (tenantId : String)
    (version : Nat) (mixedParser : Bool) : Prop :=
  fuseCandidates rules candidates tenantId version mixedParser ≠ .error .zeroDivision ∧
    groupCandidates version candidates (orderedBatches candidates) =
      scan (joins version candidates) [] (scanOrder (orderedBatches candidates)) ∧
    ∀ graph, fuseCandidates rules candidates tenantId version mixedParser = .ok graph →
      FusedGraph rules candidates tenantId version mixedParser graph

/-- Only the division fails, and exactly on admitted batches with compared areas that both
round to zero. -/
theorem fusesSoundly_iff (rules : FusionRules) (candidates : List CandidateBatch)
    (tenantId : String) (version : Nat) (mixedParser : Bool) :
    FusesSoundly rules candidates tenantId version mixedParser ↔
      ((∃ identity, admitted candidates tenantId version mixedParser = .ok identity) →
        Separated version candidates) := by
  have hrest := fun graph => @fusedGraph_of_ok rules candidates tenantId version mixedParser graph
  have hbuckets := groupCandidates_eq_scan version candidates (orderedBatches candidates)
  unfold FusesSoundly
  rw [and_iff_left ⟨hbuckets, hrest⟩]
  cases hadmits : admitted candidates tenantId version mixedParser with
  | error error =>
    -- The argument checks raise no division.
    have hfuse : fuseCandidates rules candidates tenantId version mixedParser = .error error := by
      unfold fuseCandidates
      rw [hadmits]
      rfl
    have hvalue : error ≠ .zeroDivision :=
      admitted_raises candidates tenantId version mixedParser error hadmits
    simp [hfuse, hvalue]
  | ok identity =>
    have hruns := (admitted_ok_iff.mp hadmits).runs_nodup
    have hscan := @groupCandidates_error_iff version candidates hruns .zeroDivision
    have hfuse : fuseCandidates rules candidates tenantId version mixedParser =
        (groupCandidates version candidates (orderedBatches candidates) >>=
          assemble rules identity (orderedBatches candidates)) := by
      unfold fuseCandidates
      rw [hadmits]
      rfl
    cases hgroups : groupCandidates version candidates (orderedBatches candidates) with
    | error raised =>
      obtain ⟨rfl, hclash⟩ := (groupCandidates_error_iff hruns).mp hgroups
      rw [hgroups] at hfuse
      simp [hfuse, hclash, bind, Except.bind]
    | ok groups =>
      rw [hgroups] at hscan hfuse
      have hseparated : Separated version candidates := by
        by_contra hclash
        exact absurd (hscan.mpr ⟨rfl, hclash⟩) (by simp)
      have hne : fuseCandidates rules candidates tenantId version mixedParser ≠
          .error .zeroDivision := by
        rw [hfuse]
        exact fun herror => assemble_raises _ _ _ _ _ herror rfl
      exact iff_of_true hne fun _ => hseparated

namespace Specks

def page : PageGeometry where
  widthPt := 612
  heightPt := 792
  rotation := .r0
  cropBox := ⟨0, -792, 612, 0, by norm_num, by norm_num⟩
  width_pos := by norm_num
  height_pos := by norm_num
  consistent := by decide +kernel

def corner : Bbox :=
  ⟨0, -(1 / 2 ^ 600), 1 / 2 ^ 600, 0, by decide +kernel, by decide +kernel⟩

def identity : Identity where
  tenantId := "tenant"
  documentVersionId := "version"
  parseManifestId := "manifest"
  sourceSha256 := "sha"

def batch (run : String) : CandidateBatch where
  identity := identity
  parserRunId := run
  parserName := "parser"
  parserFamily := "family"
  blocks :=
    [{ kind := .paragraph
       source :=
        { documentVersionId := "version"
          parseManifestId := "manifest"
          parserRunId := run
          sourceNativeId := "1"
          physicalPage := 1
          printedPageLabel := none
          nativeBbox := some corner
          rawText := "."
          charStart := 0
          charEnd := 1 }
       geometry := page
       context := []
       tableNativeId := none
       rowNumber := none
       columnNumber := none
       rowSpan := none
       columnSpan := none }]
  edges := []
  synthetic := false
  own_blocks := by simp [identity]
  native_nodup := by simp

def rules : FusionRules where
  normalize := id
  blockId := fun manifest _ _ => manifest
  issueId := fun identifier _ => identifier

end Specks

theorem specks_divide_by_zero :
    admitted [Specks.batch "a", Specks.batch "b"] "tenant" 3 false = .ok Specks.identity ∧
      ¬FusesSoundly Specks.rules [Specks.batch "a", Specks.batch "b"] "tenant" 3 false := by
  refine ⟨by decide +kernel, fun h => h.1 ?_⟩
  decide +kernel

end ProofOps.Application.Ingest
