import ProofOps.Adapters.Local.ExportStore
import ProofOps.Foundation.Checked

/-!
# What a freeze keeps

A worker's step changes the store in one of three ways: it freezes, completes or defers an
export.  Each keeps what is stored, and what a worker holds stays true of the later store.
-/

namespace ProofOps.Adapters.Local.Exports

open Foundation Foundation.Table

variable {Content Datum Body Bytes : Type} {rules : ExportRules Content Datum Body Bytes}
  {store after : Store Content Body Bytes} {key : ExportKey} {now : Nat} {polled : ExportState}

variable {run : RunRecord Content}

theorem getRun_some {runKey : RunKey}
    (h : store.getRun runKey = some run) : store.runs.find runKey = some run :=
  (Option.filter_eq_some_iff.mp h).1

variable {state : ExportState}

theorem state_some (h : store.state key = some state) :
    store.exports.find key = some state :=
  (Option.filter_eq_some_iff.mp h).1

variable {manifest : Manifest Body}

theorem frozen_some (h : frozen rules store key = .ok (some manifest)) :
    ∃ row, store.snapshots.find key = some row ∧ row.manifest = manifest := by
  unfold frozen at h
  cases hstate : store.state key with
  | none => simp [hstate] at h
  | some state =>
    simp only [hstate] at h
    cases hrow : store.snapshots.find key with
    | none => simp [hrow] at h
    | some row =>
      simp only [hrow] at h
      split_ifs at h
      exact ⟨row, rfl, by simpa using h⟩

structure Freezable (store : Store Content Body Bytes) (key : ExportKey) (epoch : Nat)
    (state : ExportState) (run : RunRecord Content) : Prop where
  found : store.exports.find key = some state
  not_failed : state.status ≠ .failed
  not_frozen : store.snapshots.find key = none
  current : store.getRun ⟨key.tenantId, state.request.runId⟩ = some run
  same_epoch : run.mutationEpoch = epoch

variable {attempt epoch : Nat}

theorem freezable_ok (h : (freezable store key attempt epoch :
      Except (Task Content Datum Body Bytes) _) = .ok (state, run)) :
    Freezable store key epoch state run := by
  unfold freezable at h
  cases hstate : store.state key with
  | none => simp [hstate] at h
  | some found =>
    simp only [hstate] at h
    by_cases hfailed : found.status = .failed
    · simp [hfailed] at h
    rw [if_neg hfailed] at h
    by_cases hfrozen : (store.snapshots.find key).isSome
    · simp [hfrozen] at h
    rw [if_neg hfrozen] at h
    cases hrun : store.getRun ⟨key.tenantId, found.request.runId⟩ with
    | none => simp [hrun] at h
    | some current =>
      simp only [hrun] at h
      by_cases hepoch : current.mutationEpoch ≠ epoch
      · simp [hepoch] at h
      rw [if_neg hepoch] at h
      cases h
      exact ⟨state_some hstate, hfailed, by simpa using hfrozen, hrun, not_not.mp hepoch⟩

structure Evolves (store after : Store Content Body Bytes) : Prop where
  runs : ∀ key run, store.runs.find key = some run →
    ∃ later, after.runs.find key = some later ∧ run.mutationEpoch ≤ later.mutationEpoch
  exports : ∀ key state, store.exports.find key = some state →
    ∃ later, after.exports.find key = some later ∧ later.request = state.request ∧
      (state.status = .ready → later = state)
  snapshots : ∀ key row, store.snapshots.find key = some row → after.snapshots.find key = some row
  artifacts : ∀ key row, store.artifacts.find key = some row → after.artifacts.find key = some row

theorem Evolves.refl (store : Store Content Body Bytes) : Evolves store store where
  runs := fun _ run h => ⟨run, h, Nat.le_refl _⟩
  exports := fun _ state h => ⟨state, h, rfl, fun _ => rfl⟩
  snapshots := fun _ _ h => h
  artifacts := fun _ _ h => h

theorem Evolves.trans {first second third : Store Content Body Bytes} (h : Evolves first second)
    (h' : Evolves second third) : Evolves first third where
  runs := fun key run hrun => by
    obtain ⟨mid, hmid, hle⟩ := h.runs key run hrun
    obtain ⟨later, hlater, hle'⟩ := h'.runs key mid hmid
    exact ⟨later, hlater, Nat.le_trans hle hle'⟩
  exports := fun key state hstate => by
    obtain ⟨mid, hmid, hrequest, hready⟩ := h.exports key state hstate
    obtain ⟨later, hlater, hrequest', hready'⟩ := h'.exports key mid hmid
    refine ⟨later, hlater, hrequest'.trans hrequest, fun hstatus => ?_⟩
    obtain rfl := hready hstatus
    exact hready' hstatus
  snapshots := fun key row hrow => h'.snapshots key row (h.snapshots key row hrow)
  artifacts := fun key row hrow => h'.artifacts key row (h.artifacts key row hrow)

variable {changed : ExportState}

theorem exports_put (hstate : store.exports.find key = some state)
    (hkey : changed.key = state.key) (hrequest : changed.request = state.request)
    (hready : state.status ≠ .ready) (other : ExportKey) (old : ExportState)
    (hold : store.exports.find other = some old) :
    ∃ later, (store.exports.put changed).find other = some later ∧ later.request = old.request ∧
      (old.status = .ready → later = old) := by
  have hown : state.key = key := (find_eq_some_iff.mp hstate).2
  rw [find_put]
  by_cases hsame : changed.key = other
  · rw [if_pos hsame]
    obtain rfl : state = old := by
      rw [← hsame, hkey, hown, hstate] at hold
      exact Option.some.inj hold
    exact ⟨changed, rfl, hrequest, fun hstatus => absurd hstatus hready⟩
  · rw [if_neg hsame]
    exact ⟨old, hold, rfl, fun _ => rfl⟩

structure FrozenSound (rules : ExportRules Content Datum Body Bytes) (key : ExportKey)
    (state : ExportState) (row : SnapshotRow Body) : Prop where
  hash : state.snapshotSha256 = some (rules.sha256 row.manifest)
  epoch : state.snapshotEpoch = row.manifest.mutationEpoch
  reads : ∀ epoch ∈ row.readAt, epoch = row.manifest.mutationEpoch
  tenant : row.manifest.tenantId = key.tenantId
  run : row.manifest.runId = state.request.runId

structure ArtifactSound (rules : ExportRules Content Datum Body Bytes)
    (store : Store Content Body Bytes) (key : ExportKey) (row : ArtifactRow Bytes) : Prop where
  rendered : ∃ state snapshot archive, store.exports.find key = some state ∧
    state.status = .ready ∧ store.snapshots.find key = some snapshot ∧
    rules.build snapshot.manifest state.request.formats = .ok archive ∧
    archive.content = row.content

structure StoreSound (rules : ExportRules Content Datum Body Bytes)
    (store : Store Content Body Bytes) : Prop where
  frozen : ∀ key row, store.snapshots.find key = some row →
    ∃ state, store.exports.find key = some state ∧ FrozenSound rules key state row
  artifact : ∀ key row, store.artifacts.find key = some row → ArtifactSound rules store key row
  ready : ∀ key state, store.exports.find key = some state → state.status = .ready →
    ∃ row, store.artifacts.find key = some row

theorem StoreSound.snapshot_of_ready (hsound : StoreSound rules store)
    (hstate : store.exports.find key = some state) (hready : state.status = .ready) :
    ∃ row, store.snapshots.find key = some row := by
  obtain ⟨artifact, hartifact⟩ := hsound.ready key state hstate hready
  obtain ⟨-, snapshot, -, -, -, hsnapshot, -⟩ := (hsound.artifact key artifact hartifact).rendered
  exact ⟨snapshot, hsnapshot⟩

/-! ### The three writes of a worker -/

def TaskSound (rules : ExportRules Content Datum Body Bytes) (store : Store Content Body Bytes)
    (key : ExportKey) (polled : ExportState) : Task Content Datum Body Bytes → Prop
  | .read _ initial gathered =>
    ∃ run, store.runs.find ⟨key.tenantId, polled.request.runId⟩ = some run ∧
      initial.mutationEpoch ≤ run.mutationEpoch ∧
      ∀ stamped ∈ gathered, initial.mutationEpoch ≤ stamped.epoch ∧
        stamped.epoch ≤ run.mutationEpoch
  | .freeze _ (.full manifest readAt) => ∀ epoch ∈ readAt, epoch = manifest.mutationEpoch
  | .commit _ manifest readAt _ =>
    (∀ epoch ∈ readAt, epoch = manifest.mutationEpoch) ∧ manifest.tenantId = key.tenantId ∧
      manifest.runId = polled.request.runId
  | .build manifest => ∃ row, store.snapshots.find key = some row ∧ row.manifest = manifest
  | .complete archive =>
    ∃ row, store.snapshots.find key = some row ∧
      rules.build row.manifest polled.request.formats = .ok archive
  | _ => True

def PhaseSound (rules : ExportRules Content Datum Body Bytes) (store : Store Content Body Bytes)
    (key : ExportKey) : Phase Content Datum Body Bytes → Prop
  | .working polled task =>
    (∃ state, store.exports.find key = some state ∧ state.request = polled.request) ∧
      TaskSound rules store key polled task
  | _ => True

theorem TaskSound.evolves {task : Task Content Datum Body Bytes} (hstore : Evolves store after)
    (h : TaskSound rules store key polled task) : TaskSound rules after key polled task := by
  cases task with
  | read attempt initial gathered =>
    obtain ⟨run, hrun, hinitial, hgathered⟩ := h
    obtain ⟨later, hlater, hle⟩ := hstore.runs _ run hrun
    refine ⟨later, hlater, Nat.le_trans hinitial hle, fun stamped hmem => ?_⟩
    obtain ⟨hfirst, hlast⟩ := hgathered stamped hmem
    exact ⟨hfirst, Nat.le_trans hlast hle⟩
  | freeze attempt captured =>
    cases captured with
    | stale epoch => exact trivial
    | full manifest readAt => exact h
  | commit attempt manifest readAt verdict => exact h
  | build manifest =>
    obtain ⟨row, hrow, hmanifest⟩ := h
    exact ⟨row, hstore.snapshots key row hrow, hmanifest⟩
  | complete archive =>
    obtain ⟨row, hrow, hbuild⟩ := h
    exact ⟨row, hstore.snapshots key row hrow, hbuild⟩
  | check attempt | capture attempt | initial attempt | restore | defer code => exact trivial

theorem PhaseSound.evolves {phase : Phase Content Datum Body Bytes} (hstore : Evolves store after)
    (h : PhaseSound rules store key phase) : PhaseSound rules after key phase := by
  cases phase with
  | polling => exact trivial
  | finished => exact trivial
  | working polled task =>
    obtain ⟨⟨state, hstate, hrequest⟩, htask⟩ := h
    obtain ⟨later, hlater, hsame, -⟩ := hstore.exports key state hstate
    exact ⟨⟨later, hlater, hsame.trans hrequest⟩, htask.evolves hstore⟩

/-- What a worker's step does to the store. -/
inductive Wrote (rules : ExportRules Content Datum Body Bytes) (store : Store Content Body Bytes)
    (key : ExportKey) (now : Nat) (polled : ExportState) :
    Task Content Datum Body Bytes → Store Content Body Bytes → Prop
  | nothing (task) : Wrote rules store key now polled task store
  | frozen (attempt manifest readAt verdict) {state run snapshots}
      (hfreezable : Freezable store key manifest.mutationEpoch state run)
      (hinsert : store.snapshots.insert? ⟨state.key, manifest, readAt⟩ = some snapshots) :
      Wrote rules store key now polled (.commit attempt manifest readAt verdict)
        { store with
          snapshots
          exports := store.exports.put
            { state with
              snapshotSha256 := some (rules.sha256 manifest)
              status := .building
              snapshotEpoch := run.mutationEpoch } }
  | completed (archive) {state artifacts} (hstate : store.exports.find key = some state)
      (hready : state.status ≠ .ready)
      (hinsert : store.artifacts.insert? ⟨state.key, archive.content⟩ = some artifacts) :
      Wrote rules store key now polled (.complete archive)
        { store with
          artifacts
          exports := store.exports.put
            { state with
              artifactSha256 := some (rules.contentSha256 archive.content)
              errors := []
              retryAt := 0
              status := .ready
              manifestSha256 := some archive.manifestSha256
              isPartial := archive.isPartial } }
  | deferred (code) {state} (hstate : store.exports.find key = some state)
      (hready : state.status ≠ .ready) :
      Wrote rules store key now polled (.defer code) (defer store state code now)

theorem commit_wrote (attempt : Nat) (manifest : Manifest Body) (readAt : List Nat)
    (verdict : Except String Bool) :
    Wrote rules store key now polled (.commit attempt manifest readAt verdict)
      (commit rules store key attempt manifest readAt verdict).1 := by
  unfold commit
  cases hfreezable : (freezable store key attempt manifest.mutationEpoch :
    Except (Task Content Datum Body Bytes) _) with
  | error task => exact .nothing _
  | ok found =>
    obtain ⟨state, run⟩ := found
    cases verdict with
    | error code => exact .nothing _
    | ok isPartial =>
      dsimp only
      by_cases hincomplete : isPartial ∧ !state.request.allowPartial
      · rw [if_pos hincomplete]
        exact .nothing _
      · rw [if_neg hincomplete]
        unfold publish
        cases hinsert : store.snapshots.insert? ⟨state.key, manifest, readAt⟩ with
        | none => exact .nothing _
        | some snapshots => exact .frozen _ _ _ _ (freezable_ok hfreezable) hinsert

theorem completing_wrote (archive : Archive Bytes) :
    Wrote rules store key now polled (.complete archive)
      (completing rules store key polled archive :
        Store Content Body Bytes × Phase Content Datum Body Bytes).1 := by
  unfold completing
  cases hstate : store.state key with
  | none => exact .nothing _
  | some state =>
    dsimp only
    by_cases hready : state.status = .ready
    · rw [if_pos hready]
      exact .nothing _
    · rw [if_neg hready]
      unfold complete
      cases hinsert : store.artifacts.insert? ⟨state.key, archive.content⟩ with
      | none => exact .nothing _
      | some artifacts => exact .completed _ (state_some hstate) hready hinsert

theorem deferring_wrote (code : String) :
    Wrote rules store key now polled (.defer code) (deferring store key now code) := by
  unfold deferring
  cases hstate : store.state key with
  | none => exact .nothing _
  | some state =>
    dsimp only
    by_cases hready : state.status = .ready
    · rw [if_pos hready]
      exact .nothing _
    · rw [if_neg hready]
      exact .deferred _ (state_some hstate) hready

theorem work_wrote (task : Task Content Datum Body Bytes) :
    Wrote rules store key now polled task (work rules store key now polled task).1 := by
  cases task with
  | commit attempt manifest readAt verdict => exact commit_wrote attempt manifest readAt verdict
  | complete archive => exact completing_wrote archive
  | defer code => exact deferring_wrote code
  | check attempt | capture attempt | initial attempt | read attempt first gathered
  | freeze attempt captured | restore | build manifest => exact .nothing _

/-! ### A write keeps what is stored -/

theorem key_of_find (h : store.exports.find key = some state) :
    state.key = key :=
  (find_eq_some_iff.mp h).2

theorem Freezable.not_ready
    (h : Freezable store key epoch state run) (hsound : StoreSound rules store) :
    state.status ≠ .ready := by
  intro hready
  obtain ⟨row, hrow⟩ := hsound.snapshot_of_ready h.found hready
  rw [h.not_frozen] at hrow
  cases hrow

variable {task : Task Content Datum Body Bytes}

theorem Wrote.evolves (hsound : StoreSound rules store)
    (h : Wrote rules store key now polled task after) : Evolves store after := by
  have hruns : ∀ runKey run, store.runs.find runKey = some run →
      ∃ later, store.runs.find runKey = some later ∧ run.mutationEpoch ≤ later.mutationEpoch :=
    (Evolves.refl store).runs
  cases h with
  | nothing => exact Evolves.refl store
  | @frozen attempt manifest readAt verdict state run snapshots hfreezable hinsert =>
    exact
      { runs := hruns
        exports := exports_put hfreezable.found rfl rfl (hfreezable.not_ready hsound)
        snapshots := fun _ _ hrow => find_insert?_of_some hinsert hrow
        artifacts := fun _ _ hrow => hrow }
  | @completed archive state artifacts hstate hready hinsert =>
    exact
      { runs := hruns
        exports := exports_put hstate rfl rfl hready
        snapshots := fun _ _ hrow => hrow
        artifacts := fun _ _ hrow => find_insert?_of_some hinsert hrow }
  | @deferred code state hstate hready =>
    exact
      { runs := hruns
        exports := exports_put hstate rfl rfl hready
        snapshots := fun _ _ hrow => hrow
        artifacts := fun _ _ hrow => hrow }

theorem frozen_put {other : ExportKey} {row : SnapshotRow Body}
    (hsound : StoreSound rules store) (hrow : store.snapshots.find other = some row)
    (hchanged : ∀ state, store.exports.find changed.key = some state →
      FrozenSound rules changed.key state row → other = changed.key →
        FrozenSound rules changed.key changed row) :
    ∃ state, (store.exports.put changed).find other = some state ∧
      FrozenSound rules other state row := by
  obtain ⟨state, hstate, hfrozen⟩ := hsound.frozen other row hrow
  rw [find_put]
  by_cases hsame : changed.key = other
  · subst hsame
    rw [if_pos rfl]
    exact ⟨changed, rfl, hchanged state hstate hfrozen rfl⟩
  · rw [if_neg hsame]
    exact ⟨state, hstate, hfrozen⟩

theorem StoreSound.no_artifact (hsound : StoreSound rules store)
    (hstate : store.exports.find key = some state) (hready : state.status ≠ .ready)
    {row : ArtifactRow Bytes} : store.artifacts.find key ≠ some row := by
  intro hrow
  obtain ⟨other, -, -, hother, hstatus, -⟩ := (hsound.artifact key row hrow).rendered
  obtain rfl : other = state := Option.some.inj (hother.symm.trans hstate)
  exact hready hstatus

/-- A deferral keeps the store sound. -/
theorem deferred_sound (hsound : StoreSound rules store)
    (hstate : store.exports.find key = some state) (hready : state.status ≠ .ready)
    (code : String) : StoreSound rules (defer store state code now) := by
  have hkey := key_of_find hstate
  unfold defer
  refine ⟨fun other row hrow => ?_, fun other row hrow => ?_, fun other found hfound hstatus => ?_⟩
  · refine frozen_put hsound hrow fun old hold hfrozen _ => ?_
    obtain rfl : old = state := Option.some.inj (hold.symm.trans (hkey ▸ hstate))
    exact ⟨hfrozen.hash, hfrozen.epoch, hfrozen.reads, hfrozen.tenant, hfrozen.run⟩
  · obtain ⟨old, snapshot, archive, hold, hstatus, hrest⟩ := (hsound.artifact other row hrow).rendered
    refine ⟨old, snapshot, archive, ?_, hstatus, hrest⟩
    rw [find_put, if_neg]
    · exact hold
    · rintro rfl
      exact hsound.no_artifact (hkey ▸ hstate) hready hrow
  · rw [find_put] at hfound
    by_cases hsame : state.key = other
    · rw [if_pos hsame] at hfound
      cases hfound
      by_cases hbusy : code = busy
      · simp [hbusy] at hstatus
      · simp [hbusy] at hstatus
    · rw [if_neg hsame] at hfound
      exact hsound.ready other found hfound hstatus

theorem frozen_sound (hsound : StoreSound rules store) {readAt : List Nat}
    {snapshots : Table (SnapshotRow Body) SnapshotRow.key}
    (hfreezable : Freezable store key manifest.mutationEpoch state run)
    (hreads : ∀ epoch ∈ readAt, epoch = manifest.mutationEpoch)
    (htenant : manifest.tenantId = key.tenantId) (hrun : manifest.runId = state.request.runId)
    (hinsert : store.snapshots.insert? ⟨state.key, manifest, readAt⟩ = some snapshots) :
    StoreSound rules
      { store with
        snapshots
        exports := store.exports.put
          { state with
            snapshotSha256 := some (rules.sha256 manifest)
            status := .building
            snapshotEpoch := run.mutationEpoch } } := by
  have hstate := hfreezable.found
  have hkey := key_of_find hstate
  have hready := hfreezable.not_ready hsound
  refine ⟨fun other row hrow => ?_, fun other row hrow => ?_, fun other found hfound hstatus => ?_⟩
  · dsimp only at hrow ⊢
    rw [find_insert? hinsert] at hrow
    by_cases hsame : state.key = other
    · subst hsame
      rw [if_pos rfl] at hrow
      cases hrow
      rw [find_put, if_pos rfl]
      exact ⟨_, rfl, rfl, hfreezable.same_epoch, hreads, hkey ▸ htenant, hrun⟩
    · rw [if_neg hsame] at hrow
      exact frozen_put hsound hrow fun _ _ _ hother => absurd hother.symm hsame
  · obtain ⟨old, snapshot, archive, hold, hstatus, hsnapshot, hrest⟩ :=
      (hsound.artifact other row hrow).rendered
    refine ⟨old, snapshot, archive, ?_, hstatus, find_insert?_of_some hinsert hsnapshot, hrest⟩
    rw [find_put, if_neg]
    · exact hold
    · rintro rfl
      exact hsound.no_artifact (hkey ▸ hstate) hready hrow
  · dsimp only at hfound ⊢
    rw [find_put] at hfound
    split_ifs at hfound
    · cases hfound
      cases hstatus
    · exact hsound.ready other found hfound hstatus

theorem completed_sound (hsound : StoreSound rules store)
    (hstate : store.exports.find key = some state) {archive : Archive Bytes}
    {snapshot : SnapshotRow Body} (hsnapshot : store.snapshots.find key = some snapshot)
    (hbuild : rules.build snapshot.manifest state.request.formats = .ok archive)
    {artifacts : Table (ArtifactRow Bytes) ArtifactRow.key}
    (hinsert : store.artifacts.insert? ⟨state.key, archive.content⟩ = some artifacts) :
    StoreSound rules
      { store with
        artifacts
        exports := store.exports.put
          { state with
            artifactSha256 := some (rules.contentSha256 archive.content)
            errors := []
            retryAt := 0
            status := .ready
            manifestSha256 := some archive.manifestSha256
            isPartial := archive.isPartial } } := by
  have hkey := key_of_find hstate
  refine ⟨fun other row hrow => ?_, fun other row hrow => ?_, fun other found hfound hstatus => ?_⟩
  · refine frozen_put hsound hrow fun old hold hfrozen _ => ?_
    obtain rfl : old = state := Option.some.inj (hold.symm.trans (hkey ▸ hstate))
    exact ⟨hfrozen.hash, hfrozen.epoch, hfrozen.reads, hfrozen.tenant, hfrozen.run⟩
  · dsimp only at hrow
    rw [find_insert? hinsert] at hrow
    by_cases hsame : state.key = other
    · rw [if_pos hsame] at hrow
      cases hrow
      have hput := find_put store.exports
        { state with
          artifactSha256 := some (rules.contentSha256 archive.content)
          errors := []
          retryAt := 0
          status := .ready
          manifestSha256 := some archive.manifestSha256
          isPartial := archive.isPartial } other
      rw [if_pos hsame] at hput
      exact ⟨_, snapshot, archive, hput, rfl, hsame ▸ hkey ▸ hsnapshot, hbuild, rfl⟩
    · rw [if_neg hsame] at hrow
      obtain ⟨old, other', made, hold, hrest⟩ := (hsound.artifact other row hrow).rendered
      refine ⟨old, other', made, ?_, hrest⟩
      rw [find_put, if_neg hsame]
      exact hold
  · dsimp only at hfound ⊢
    rw [find_put] at hfound
    rw [find_insert? hinsert]
    split_ifs at hfound ⊢ with hsame
    · exact ⟨_, rfl⟩
    · exact hsound.ready other found hfound hstatus

theorem Wrote.sound (hsound : StoreSound rules store)
    (hphase : PhaseSound rules store key (.working polled task))
    (h : Wrote rules store key now polled task after) : StoreSound rules after := by
  obtain ⟨⟨known, hknown, hrequest⟩, htask⟩ := hphase
  cases h with
  | nothing => exact hsound
  | @frozen attempt manifest readAt verdict state run snapshots hfreezable hinsert =>
    obtain ⟨hreads, htenant, hrun⟩ := htask
    obtain rfl : known = state := Option.some.inj (hknown.symm.trans hfreezable.found)
    exact frozen_sound hsound hfreezable hreads htenant (hrequest ▸ hrun) hinsert
  | @completed archive state artifacts hstate hready hinsert =>
    obtain ⟨snapshot, hsnapshot, hbuild⟩ := htask
    obtain rfl : known = state := Option.some.inj (hknown.symm.trans hstate)
    exact completed_sound hsound hstate hsnapshot (hrequest ▸ hbuild) hinsert
  | @deferred code state hstate hready => exact deferred_sound hsound hstate hready code

/-! ### What a worker holds after a step -/

def Known (store : Store Content Body Bytes) (key : ExportKey) (polled : ExportState) : Prop :=
  ∃ state, store.exports.find key = some state ∧ state.request = polled.request

theorem failWith_sound (hknown : Known store key polled) (failure : Failure) :
    PhaseSound rules store key (failWith polled failure : Phase Content Datum Body Bytes) := by
  cases failure with
  | rejected code => exact ⟨hknown, trivial⟩
  | other => exact trivial

theorem retry_sound (attempt : Nat) :
    TaskSound rules store key polled (retry attempt : Task Content Datum Body Bytes) := by
  unfold retry
  split_ifs
  · exact trivial
  · exact trivial

theorem freezable_error (h : freezable store key attempt epoch = .error task) :
    TaskSound rules after key polled task := by
  unfold freezable at h
  cases hstate : store.state key with
  | none =>
    simp only [hstate] at h
    cases h
    exact trivial
  | some state =>
    simp only [hstate] at h
    by_cases hfailed : state.status = .failed
    · rw [if_pos hfailed] at h
      cases h
      exact trivial
    rw [if_neg hfailed] at h
    by_cases hfrozen : (store.snapshots.find key).isSome
    · rw [if_pos hfrozen] at h
      cases h
      exact retry_sound attempt
    rw [if_neg hfrozen] at h
    cases hrun : store.getRun ⟨key.tenantId, state.request.runId⟩ with
    | none =>
      simp only [hrun] at h
      cases h
      exact trivial
    | some run =>
      simp only [hrun] at h
      by_cases hepoch : run.mutationEpoch ≠ epoch
      · rw [if_pos hepoch] at h
        cases h
        exact retry_sound attempt
      · rw [if_neg hepoch] at h
        cases h

theorem check_sound (attempt : Nat) :
    TaskSound rules store key polled (check rules store key attempt) := by
  unfold check
  cases hfrozen : frozen rules store key with
  | error code => exact trivial
  | ok found =>
    cases found with
    | none => exact trivial
    | some manifest => exact frozen_some hfrozen

theorem restore_sound : TaskSound rules store key polled (restore rules store key) := by
  unfold restore
  cases hfrozen : frozen rules store key with
  | error code => exact trivial
  | ok found =>
    cases found with
    | none => exact trivial
    | some manifest => exact frozen_some hfrozen

theorem initial_sound (hknown : Known store key polled) (attempt : Nat) :
    PhaseSound rules store key (initial rules store key polled attempt) := by
  unfold initial
  cases hrun : store.getRun ⟨key.tenantId, polled.request.runId⟩ with
  | none => exact trivial
  | some run =>
    dsimp only
    by_cases hoversized : rules.oversized run.content
    · rw [if_pos hoversized]
      exact ⟨hknown, trivial⟩
    · rw [if_neg hoversized]
      exact ⟨hknown, run, getRun_some hrun, Nat.le_refl _, by simp⟩

variable {gathered : List (Stamped Datum)} {captured : Captured Body}

theorem assembled_sound {initial : RunRecord Content}
    (hgathered : ∀ stamped ∈ gathered, initial.mutationEpoch ≤ stamped.epoch ∧
      stamped.epoch ≤ run.mutationEpoch)
    (h : assembled rules key polled initial run gathered = .ok captured) (attempt : Nat) :
    TaskSound rules store key polled (.freeze attempt captured) := by
  obtain ⟨ids, -, h⟩ := Checked.bind_ok h
  split_ifs at h with hsame
  · obtain ⟨body, -, h⟩ := Checked.bind_ok h
    cases Checked.pure_ok h
    intro epoch hepoch
    show epoch = run.mutationEpoch
    rcases List.mem_append.mp hepoch with hread | hlast
    · obtain ⟨stamped, hmem, rfl⟩ := List.mem_map.mp hread
      obtain ⟨hfirst, hlast⟩ := hgathered stamped hmem
      omega
    · exact List.mem_singleton.mp hlast
  · cases Checked.pure_ok h
    exact trivial

theorem read_sound (hknown : Known store key polled) {first : RunRecord Content}
    (htask : TaskSound rules store key polled (.read attempt first gathered)) :
    PhaseSound rules store key (read rules store key polled attempt first gathered) := by
  obtain ⟨run, hrun, hfirst, hgathered⟩ := htask
  unfold read
  cases hcurrent : store.getRun ⟨key.tenantId, polled.request.runId⟩ with
  | none => exact trivial
  | some current =>
    obtain rfl : current = run := Option.some.inj ((getRun_some hcurrent).symm.trans hrun)
    dsimp only
    cases hnext : rules.nextRead first.content (gathered.map Stamped.datum) with
    | some reader =>
      dsimp only
      cases reader current.content with
      | error failure => exact failWith_sound hknown failure
      | ok datum =>
        refine ⟨hknown, current, hrun, hfirst, fun stamped hmem => ?_⟩
        rcases List.mem_append.mp hmem with hold | hnew
        · exact hgathered stamped hold
        · obtain rfl := List.mem_singleton.mp hnew
          exact ⟨hfirst, Nat.le_refl _⟩
    | none =>
      cases hassembled : assembled rules key polled first current gathered with
      | error failure => exact failWith_sound hknown failure
      | ok captured => exact ⟨hknown, assembled_sound hgathered hassembled attempt⟩

theorem freeze_sound (hknown : Known store key polled)
    (htask : TaskSound rules store key polled (.freeze attempt captured)) :
    PhaseSound rules store key (freeze rules store key polled attempt captured) := by
  unfold freeze
  cases hfreezable : (freezable store key attempt captured.mutationEpoch :
    Except (Task Content Datum Body Bytes) _) with
  | error task => exact ⟨hknown, freezable_error hfreezable⟩
  | ok found =>
    obtain ⟨state, run⟩ := found
    obtain ⟨other, hother, hrequest⟩ := hknown
    obtain rfl : other = state :=
      Option.some.inj (hother.symm.trans (freezable_ok hfreezable).found)
    cases captured with
    | stale epoch => exact trivial
    | full manifest readAt =>
      dsimp only
      by_cases hsize : maxExportBytes < rules.bytes manifest
      · rw [if_pos hsize]
        exact ⟨⟨other, hother, hrequest⟩, trivial⟩
      rw [if_neg hsize]
      by_cases hscope : manifest.tenantId ≠ key.tenantId ∨ manifest.runId ≠ other.request.runId
      · rw [if_pos hscope]
        exact ⟨⟨other, hother, hrequest⟩, trivial⟩
      · rw [if_neg hscope]
        push Not at hscope
        exact ⟨⟨other, hother, hrequest⟩, htask, hscope.1, hrequest ▸ hscope.2⟩

theorem commit_sound (attempt : Nat) (manifest : Manifest Body) (readAt : List Nat)
    (verdict : Except String Bool) :
    TaskSound rules after key polled (commit rules store key attempt manifest readAt verdict).2 := by
  unfold commit
  cases hfreezable : (freezable store key attempt manifest.mutationEpoch :
    Except (Task Content Datum Body Bytes) _) with
  | error task => exact freezable_error hfreezable
  | ok found =>
    cases verdict with
    | error code => exact trivial
    | ok isPartial =>
      dsimp only
      split_ifs
      · exact trivial
      · exact trivial

theorem build_sound (hknown : Known store key polled)
    (htask : TaskSound rules store key polled (.build manifest)) :
    PhaseSound rules store key (build rules polled manifest : Phase Content Datum Body Bytes) := by
  obtain ⟨row, hrow, rfl⟩ := htask
  unfold build
  cases hbuild : rules.build row.manifest polled.request.formats with
  | error failure => exact failWith_sound hknown failure
  | ok archive =>
    dsimp only
    split_ifs
    · exact ⟨hknown, trivial⟩
    · exact ⟨hknown, row, hrow, hbuild⟩

theorem completing_sound (hknown : Known after key polled) (archive : Archive Bytes) :
    PhaseSound rules after key (completing rules store key polled archive).2 := by
  unfold completing
  cases store.state key with
  | none => exact ⟨hknown, trivial⟩
  | some state =>
    dsimp only
    split_ifs
    · exact trivial
    · exact trivial

theorem work_sound (hsound : StoreSound rules store)
    (hphase : PhaseSound rules store key (.working polled task)) :
    PhaseSound rules (work rules store key now polled task).1 key
      (work rules store key now polled task).2 := by
  have hevolves : Evolves store (work rules store key now polled task).1 :=
    (work_wrote task).evolves hsound
  have hlater : Known (work rules store key now polled task).1 key polled :=
    (hphase.evolves hevolves).1
  obtain ⟨hknown, htask⟩ := hphase
  cases task with
  | check attempt => exact ⟨hknown, check_sound attempt⟩
  | capture attempt =>
    refine ⟨hknown, ?_⟩
    unfold capture
    cases store.state key with
    | none => exact trivial
    | some state => exact trivial
  | initial attempt => exact initial_sound hknown attempt
  | read attempt first gathered => exact read_sound hknown htask
  | freeze attempt captured => exact freeze_sound hknown htask
  | commit attempt manifest readAt verdict =>
    exact ⟨hlater, commit_sound attempt manifest readAt verdict⟩
  | restore => exact ⟨hknown, restore_sound⟩
  | build manifest => exact build_sound hknown htask
  | complete archive => exact completing_sound hlater archive
  | defer code => exact trivial

end ProofOps.Adapters.Local.Exports
