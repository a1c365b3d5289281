import ProofOps.Adapters.Local.RulepackStore

/-!
# The history of a rule pack

A write adds the next revision of one pack and moves its head.  An activation writes its
candidate and the pack it supersedes, so that a pointer always names an active head, and a
retired head is the last one of its pack.
-/

namespace ProofOps.Adapters.Local.Rulepacks

open Foundation Foundation.Checked Foundation.Table Application.Rulepacks

variable {Files : Type} {store after : Store Files}

structure Consecutive (store : Store Files) : Prop where
  spans : ∀ head ∈ store.heads, 1 ≤ head.revision ∧
    Revisions.Spans store.revisions head.pack 1 head.revision
  headed : ∀ row ∈ store.revisions, ∃ head ∈ store.heads, head.pack = row.pack
  records : ∀ row ∈ store.revisions,
    row.record.tenantId = row.pack.tenantId ∧ row.record.rulePackId = row.pack.rulePackId

variable {key : PackKey} {row : RevisionRow Files}

theorem head_some (h : store.head key = some row) :
    row ∈ store.revisions ∧ row.pack = key ∧
      ∃ head ∈ store.heads, head.pack = key ∧ head.revision = row.revision := by
  obtain ⟨head, hhead, hrow⟩ := Option.bind_eq_some_iff.mp h
  obtain ⟨hmem, hkey⟩ := find_eq_some_iff.mp hrow
  obtain ⟨hheadMem, hheadKey⟩ := find_eq_some_iff.mp hhead
  exact ⟨hmem, congrArg Prod.fst hkey, head, hheadMem, hheadKey, (congrArg Prod.snd hkey).symm⟩

theorem Consecutive.head_of_find (h : Consecutive store) {head : HeadRow}
    (hhead : store.heads.find key = some head) : ∃ row, store.head key = some row := by
  obtain ⟨hmem, rfl⟩ := find_eq_some_iff.mp hhead
  obtain ⟨hfirst, hspans⟩ := h.spans head hmem
  obtain ⟨row, hrow, hkey⟩ := (hspans head.revision).mpr ⟨hfirst, Nat.le_refl _⟩
  refine ⟨row, Option.bind_eq_some_iff.mpr ⟨head, hhead, ?_⟩⟩
  exact find_eq_some_iff.mpr ⟨hrow, hkey⟩

/-- A pack without a head has no revision at all. -/
theorem Consecutive.fresh (h : Consecutive store) (hnone : store.head key = none) :
    store.heads.find key = none ∧ ∀ row ∈ store.revisions, row.pack ≠ key := by
  have hfind : store.heads.find key = none := by
    cases hhead : store.heads.find key with
    | none => rfl
    | some head =>
      obtain ⟨row, hrow⟩ := h.head_of_find hhead
      rw [hnone] at hrow
      cases hrow
  refine ⟨hfind, ?_⟩
  rintro row hrow rfl
  obtain ⟨head, hhead, hpack⟩ := h.headed row hrow
  exact find_eq_none_iff.mp hfind head hhead hpack

variable {tenantId : String}

theorem mem_loadRows :
    row ∈ loadRows store tenantId ↔ row.pack.tenantId = tenantId ∧ store.head row.pack = some row := by
  unfold loadRows
  rw [List.mem_filterMap]
  constructor
  · rintro ⟨head, hhead, hrow⟩
    obtain ⟨hmem, htenant⟩ := List.mem_filter.mp hhead
    have hkey : (row.pack, row.revision) = (head.pack, head.revision) :=
      (find_eq_some_iff.mp hrow).2
    obtain ⟨hpack, hrevision⟩ := Prod.mk.inj hkey
    refine ⟨by simpa [hpack] using htenant, Option.bind_eq_some_iff.mpr ⟨head, ?_, ?_⟩⟩
    · rw [hpack]
      exact find_of_mem hmem
    · rw [hpack]
      exact hrow
  · rintro ⟨htenant, hhead⟩
    obtain ⟨head, hfind, hrow⟩ := Option.bind_eq_some_iff.mp hhead
    obtain ⟨hmem, hpack⟩ := find_eq_some_iff.mp hfind
    refine ⟨head, List.mem_filter.mpr ⟨hmem, by simpa [hpack] using htenant⟩, ?_⟩
    rw [hpack]
    exact hrow

variable {rulePackId : String}

theorem rowOf_ok (h : rowOf (loadRows store tenantId) rulePackId = .ok row) :
    row.pack = ⟨tenantId, rulePackId⟩ ∧ store.head ⟨tenantId, rulePackId⟩ = some row := by
  unfold rowOf at h
  cases hfind : (loadRows store tenantId).find? fun row => row.pack.rulePackId = rulePackId with
  | none => simp [hfind] at h
  | some found =>
    simp only [hfind, Except.ok.injEq] at h
    subst h
    obtain ⟨htenant, hhead⟩ := mem_loadRows.mp (List.mem_of_find?_eq_some hfind)
    have hid : found.pack.rulePackId = rulePackId := by simpa using List.find?_some hfind
    have hpack : found.pack = ⟨tenantId, rulePackId⟩ := by rw [← htenant, ← hid]
    exact ⟨hpack, hpack ▸ hhead⟩

structure SamePointers (store after : Store Files) : Prop where
  pointers : after.pointers = store.pointers
  runSnapshots : after.runSnapshots = store.runSnapshots
  idempotency : after.idempotency = store.idempotency
  events : after.events = store.events

structure Advanced (store after : Store Files) (row : RevisionRow Files) (pack : RulePackRecord) :
    Prop where
  consecutive : Consecutive after
  kept : ∀ old ∈ store.revisions, old ∈ after.revisions
  head : ∀ key, after.head key =
    if key = row.pack then some { row with revision := row.revision + 1, record := pack }
    else store.head key
  rest : SamePointers store after

variable {pack : RulePackRecord}

theorem writeRevision_ok (hsound : Consecutive store) (hhead : store.head row.pack = some row)
    (htenant : pack.tenantId = row.pack.tenantId) (hid : pack.rulePackId = row.pack.rulePackId)
    (h : writeRevision store row pack = .ok after) : Advanced store after row pack := by
  obtain ⟨revisions, hinsert, h⟩ := bind_ok h
  replace h := rest_ok h
  cases pure_ok h
  have hinserted := insertOr_ok hinsert
  obtain ⟨hrowMem, -, head, hheadMem, hheadPack, hheadRevision⟩ := head_some hhead
  refine ⟨⟨fun current hcurrent => ?_, fun other hother => ?_, fun other hother => ?_⟩,
    fun old hold => (mem_insert? hinserted).mpr (Or.inl hold), fun key => ?_, ⟨rfl, rfl, rfl, rfl⟩⟩
  · rcases mem_put.mp hcurrent with rfl | ⟨hold, hne⟩
    · refine ⟨by show 1 ≤ row.revision + 1; omega, ?_⟩
      obtain ⟨-, hspans⟩ := hsound.spans head hheadMem
      rw [hheadPack, hheadRevision] at hspans
      exact hspans.insert_next (by omega) hinserted rfl
    · obtain ⟨hfirst, hspans⟩ := hsound.spans current hold
      exact ⟨hfirst, hspans.insert_other hinserted (Ne.symm hne)⟩
  · have hpack : ∃ current ∈ store.heads, current.pack = other.pack := by
      rcases (mem_insert? hinserted).mp hother with hold | rfl
      · exact hsound.headed other hold
      · exact ⟨head, hheadMem, hheadPack⟩
    obtain ⟨current, hcurrent, hsame⟩ := hpack
    by_cases hown : other.pack = row.pack
    · exact ⟨⟨row.pack, row.revision + 1⟩, mem_put.mpr (Or.inl rfl), hown.symm⟩
    · exact ⟨current, mem_put.mpr (Or.inr ⟨hcurrent, by rw [hsame]; exact hown⟩), hsame⟩
  · rcases (mem_insert? hinserted).mp hother with hold | rfl
    · exact hsound.records other hold
    · exact ⟨htenant, hid⟩
  · unfold Store.head
    rw [find_put]
    by_cases hown : key = row.pack
    · subst hown
      rw [if_pos rfl, if_pos rfl, Option.bind_some, find_insert? hinserted]
      exact if_pos rfl
    · rw [if_neg (Ne.symm hown), if_neg hown]
      refine Option.bind_congr fun current _ => ?_
      rw [find_insert? hinserted, if_neg]
      intro hkey
      exact hown (congrArg Prod.fst hkey).symm

theorem SamePointers.refl (store : Store Files) : SamePointers store store := ⟨rfl, rfl, rfl, rfl⟩

theorem SamePointers.trans {first second third : Store Files} (h : SamePointers first second)
    (h' : SamePointers second third) : SamePointers first third :=
  ⟨h'.pointers.trans h.pointers, h'.runSnapshots.trans h.runSnapshots,
    h'.idempotency.trans h.idempotency, h'.events.trans h.events⟩

structure Written (store after : Store Files) (tenantId : String) (packs : List RulePackRecord) :
    Prop where
  consecutive : Consecutive after
  kept : ∀ old ∈ store.revisions, old ∈ after.revisions
  rest : SamePointers store after
  heads : ∀ pack ∈ packs, ∃ row latest, store.head ⟨tenantId, pack.rulePackId⟩ = some row ∧
    after.head ⟨tenantId, pack.rulePackId⟩ = some latest ∧ latest.record = pack ∧
    (row.record = pack → latest = row)
  others : ∀ key, (∀ pack ∈ packs, key ≠ ⟨tenantId, pack.rulePackId⟩) →
    after.head key = store.head key

theorem written_nil (hsound : Consecutive store) (tenantId : String) :
    Written store store tenantId [] where
  consecutive := hsound
  kept := fun _ h => h
  rest := SamePointers.refl store
  heads := fun _ h => by cases h
  others := fun _ _ => rfl

theorem Written.cons {mid : Store Files} {tenantId : String} {pack : RulePackRecord}
    {packs : List RulePackRecord} {row latest : RevisionRow Files}
    (hkept : ∀ old ∈ store.revisions, old ∈ mid.revisions) (hrest : SamePointers store mid)
    (hrow : store.head ⟨tenantId, pack.rulePackId⟩ = some row)
    (hlatest : mid.head ⟨tenantId, pack.rulePackId⟩ = some latest) (hrecord : latest.record = pack)
    (hsame : row.record = pack → latest = row)
    (hothers : ∀ key, key ≠ ⟨tenantId, pack.rulePackId⟩ → mid.head key = store.head key)
    (hnew : pack.rulePackId ∉ packs.map RulePackRecord.rulePackId)
    (h : Written mid after tenantId packs) : Written store after tenantId (pack :: packs) := by
  have hother : ∀ other ∈ packs, (⟨tenantId, other.rulePackId⟩ : PackKey) ≠
      ⟨tenantId, pack.rulePackId⟩ := by
    intro other hmem heq
    have hid : other.rulePackId = pack.rulePackId := congrArg PackKey.rulePackId heq
    exact hnew (hid ▸ List.mem_map_of_mem hmem)
  refine
    { consecutive := h.consecutive
      kept := fun old hold => h.kept old (hkept old hold)
      rest := hrest.trans h.rest
      heads := fun other hmem => ?_
      others := fun key hkey => ?_ }
  · rcases List.mem_cons.mp hmem with rfl | htail
    · have hafter := h.others ⟨tenantId, other.rulePackId⟩ fun pack hpack => (hother pack hpack).symm
      exact ⟨row, latest, hrow, hafter.trans hlatest, hrecord, hsame⟩
    · obtain ⟨old, new, hold, hrest⟩ := h.heads other htail
      exact ⟨old, new, (hothers _ (hother other htail)) ▸ hold, hrest⟩
  · rw [List.forall_mem_cons] at hkey
    exact (h.others key hkey.2).trans (hothers key hkey.1)

theorem writeChanged_ok {start : Store Files}
    {packs : List RulePackRecord} {response revision : Nat} (hsound : Consecutive store)
    (htenant : ∀ pack ∈ packs, pack.tenantId = tenantId)
    (hnodup : (packs.map RulePackRecord.rulePackId).Nodup)
    (hheads : ∀ pack ∈ packs, store.head ⟨tenantId, pack.rulePackId⟩ =
      start.head ⟨tenantId, pack.rulePackId⟩)
    (h : writeChanged (loadRows start tenantId) rulePackId packs store response =
      .ok (after, revision)) : Written store after tenantId packs := by
  induction packs generalizing store response with
  | nil =>
    cases h
    exact written_nil hsound tenantId
  | cons pack packs ih =>
    rw [List.forall_mem_cons] at htenant hheads
    rw [List.map_cons, List.nodup_cons] at hnodup
    obtain ⟨row, hrowOf, h⟩ := bind_ok h
    obtain ⟨hpack, hstart⟩ := rowOf_ok hrowOf
    have hrow : store.head ⟨tenantId, pack.rulePackId⟩ = some row := hheads.1.trans hstart
    by_cases hsame : row.record = pack
    · rw [if_pos hsame] at h
      exact (ih hsound htenant.2 hnodup.2 hheads.2 h).cons (fun _ h => h) (SamePointers.refl store)
        hrow hrow hsame (fun _ => rfl) (fun _ _ => rfl) hnodup.1
    · rw [if_neg hsame] at h
      obtain ⟨mid, hmid, h⟩ := bind_ok h
      have hadvanced := writeRevision_ok hsound (hpack ▸ hrow) (by rw [hpack]; exact htenant.1)
        (by rw [hpack]) hmid
      have hmidHead := hadvanced.head
      rw [hpack] at hmidHead
      have hother : ∀ other ∈ packs, (⟨tenantId, other.rulePackId⟩ : PackKey) ≠
          ⟨tenantId, pack.rulePackId⟩ := by
        intro other hmem heq
        have hid : other.rulePackId = pack.rulePackId := congrArg PackKey.rulePackId heq
        exact hnodup.1 (hid ▸ List.mem_map_of_mem hmem)
      have hmidHeads : ∀ other ∈ packs, mid.head ⟨tenantId, other.rulePackId⟩ =
          start.head ⟨tenantId, other.rulePackId⟩ := by
        intro other hmem
        rw [hmidHead, if_neg (hother other hmem)]
        exact hheads.2 other hmem
      refine (ih hadvanced.consecutive htenant.2 hnodup.2 hmidHeads h).cons hadvanced.kept
        hadvanced.rest hrow ((hmidHead _).trans (if_pos rfl)) rfl (fun h => absurd h hsame)
        (fun key hkey => ?_) hnodup.1
      rw [hmidHead, if_neg hkey]

/-- What holds of the store after every call. -/
structure Sound (store : Store Files) : Prop where
  consecutive : Consecutive store
  pointers : ∀ pointer ∈ store.pointers, ∃ row,
    store.head ⟨pointer.key.tenantId, pointer.rulePackId⟩ = some row ∧
      row.record.mode = pointer.key.mode ∧ row.record.status = "active"

theorem sound_initial : Sound (Store.initial : Store Files) where
  consecutive :=
    { spans := fun _ h => absurd h not_mem_empty
      headed := fun _ h => absurd h not_mem_empty
      records := fun _ h => absurd h not_mem_empty }
  pointers := fun _ h => absurd h not_mem_empty

def loaded (store : Store Files) (tenantId : String) : Registry :=
  registryOf store tenantId (loadRows store tenantId)

theorem mem_loaded (hsound : Consecutive store) :
    pack ∈ (loaded store tenantId).packs ↔ pack.tenantId = tenantId ∧ ∃ row,
      store.head ⟨tenantId, pack.rulePackId⟩ = some row ∧ row.record = pack := by
  constructor
  · intro h
    obtain ⟨row, hrow, rfl⟩ := List.mem_map.mp h
    obtain ⟨htenant, hhead⟩ := mem_loadRows.mp hrow
    obtain ⟨hrecordTenant, hrecordId⟩ := hsound.records row (head_some hhead).1
    have hpack : row.pack = ⟨tenantId, row.record.rulePackId⟩ := by rw [← htenant, hrecordId]
    exact ⟨hrecordTenant.trans htenant, row, hpack ▸ hhead, rfl⟩
  · rintro ⟨-, row, hhead, rfl⟩
    have hpack := (head_some hhead).2.1
    refine List.mem_map.mpr ⟨row, mem_loadRows.mpr ⟨by rw [hpack], hpack ▸ hhead⟩, rfl⟩

theorem activePackId_loaded {mode : String} :
    (loaded store tenantId).activePackId tenantId mode = some rulePackId ↔
      ⟨⟨tenantId, mode⟩, rulePackId⟩ ∈ store.pointers := by
  unfold loaded registryOf Registry.activePackId
  rw [Option.map_eq_some_iff]
  constructor
  · rintro ⟨entry, hentry, rfl⟩
    obtain ⟨row, hrow, rfl⟩ := List.mem_map.mp (List.mem_of_find?_eq_some hentry)
    obtain ⟨hmem, htenant⟩ := List.mem_filter.mp hrow
    have hmode : row.key.mode = mode := by simpa using List.find?_some hentry
    obtain ⟨⟨rowTenant, rowMode⟩, rowPack⟩ := row
    have hrowTenant : rowTenant = tenantId := by simpa using htenant
    subst hrowTenant hmode
    exact hmem
  · intro hmem
    have hentry : (⟨tenantId, mode, rulePackId⟩ : ActiveEntry) ∈
        (store.pointers.rows.filter fun row => row.key.tenantId = tenantId).map fun row =>
          (⟨tenantId, row.key.mode, row.rulePackId⟩ : ActiveEntry) :=
      List.mem_map.mpr ⟨_, List.mem_filter.mpr ⟨hmem, by simp⟩, rfl⟩
    cases hfind : ((store.pointers.rows.filter fun row => row.key.tenantId = tenantId).map fun row =>
        (⟨tenantId, row.key.mode, row.rulePackId⟩ : ActiveEntry)).find?
          (fun entry => entry.tenantId = tenantId ∧ entry.mode = mode) with
    | none => exact absurd (List.find?_eq_none.mp hfind _ hentry) (by simp)
    | some found =>
      refine ⟨found, rfl, ?_⟩
      -- The pointer of a mode is one row.
      obtain ⟨row, hrow, rfl⟩ := List.mem_map.mp (List.mem_of_find?_eq_some hfind)
      obtain ⟨hother, htenant⟩ := List.mem_filter.mp hrow
      have hmode : row.key.mode = mode := by simpa using List.find?_some hfind
      have hkey : row.key = ⟨tenantId, mode⟩ := by
        rw [← hmode]
        exact congrArg (PointerKey.mk · row.key.mode) (by simpa using htenant)
      have hsame := eq_of_key_eq hother hmem hkey
      rw [hsame]

theorem consistent_loaded (hsound : Sound store) (tenantId : String) :
    Consistent (loaded store tenantId) where
  unique := fun first hfirst second hsecond hid _ => by
    obtain ⟨-, row, hrow, rfl⟩ := (mem_loaded hsound.consecutive).mp hfirst
    obtain ⟨-, other, hother, rfl⟩ := (mem_loaded hsound.consecutive).mp hsecond
    rw [hid, hother] at hrow
    rw [Option.some.inj hrow]
  default := fun pack hpack hdefault => by
    obtain ⟨htenant, row, hrow, hrecord⟩ := (mem_loaded hsound.consecutive).mp hpack
    rw [htenant, activePackId_loaded] at hdefault
    obtain ⟨found, hfound, -, hactive⟩ := hsound.pointers _ hdefault
    obtain rfl : found = row := Option.some.inj (hfound.symm.trans hrow)
    rwa [hrecord] at hactive

/-- No two loaded packs share an id. -/
theorem nodup_loaded (hsound : Consecutive store) (tenantId : String) :
    ((loaded store tenantId).packs.map RulePackRecord.rulePackId).Nodup := by
  -- The heads of a tenant differ in their packs.
  have hheads : ((store.heads.rows.filter fun head => head.pack.tenantId = tenantId).map
      HeadRow.pack).Nodup := store.heads.nodup.sublist (List.filter_sublist.map _)
  have hrows : ((loadRows store tenantId).map RevisionRow.pack).Nodup := by
    refine hheads.sublist ?_
    unfold loadRows
    induction store.heads.rows.filter fun head => head.pack.tenantId = tenantId with
    | nil => exact List.Sublist.slnil
    | cons head heads ih =>
      rw [List.filterMap_cons]
      cases hrow : store.revisions.find (head.pack, head.revision) with
      | none => exact ih.cons _
      | some row =>
        have hpack : row.pack = head.pack :=
          congrArg Prod.fst (find_eq_some_iff.mp hrow).2
        rw [List.map_cons, List.map_cons, hpack]
        exact ih.cons_cons _
  have hmap : (loaded store tenantId).packs.map RulePackRecord.rulePackId =
      (loadRows store tenantId).map fun row => row.pack.rulePackId := by
    show ((loadRows store tenantId).map RevisionRow.record).map _ = _
    rw [List.map_map]
    refine List.map_congr_left fun row hrow => ?_
    exact (hsound.records row (head_some (mem_loadRows.mp hrow).2).1).2
  rw [hmap]
  refine (List.Nodup.of_map (PackKey.mk tenantId) ?_)
  rw [List.map_map]
  have hkeys : (loadRows store tenantId).map (PackKey.mk tenantId ∘ fun row => row.pack.rulePackId) =
      (loadRows store tenantId).map RevisionRow.pack := by
    refine List.map_congr_left fun row hrow => ?_
    show PackKey.mk tenantId row.pack.rulePackId = row.pack
    rw [← (mem_loadRows.mp hrow).1]
  rw [hkeys]
  exact hrows

end ProofOps.Adapters.Local.Rulepacks
