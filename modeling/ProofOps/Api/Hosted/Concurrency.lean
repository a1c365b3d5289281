import ProofOps.Api.Hosted.Custody

/-!
# Concurrency caps

The caps on running runs are never stored: a claim counts the rows again.  Only a
claim brings a run into `running`, and it finds a free slot of each kind, so the
counts stay within their caps in every order of calls.
-/

namespace ProofOps.Api.Hosted

open Foundation

inductive Slot where
  | system
  | user (hash : String)
  | document (key : DocumentKey)

def Slot.holds (slot : Slot) (row : RunRow) : Bool :=
  match slot with
  | .system => true
  | .user hash => row.userHash = hash
  | .document key => row.document = key

/-- The number of places. -/
def Slot.cap (deployment : Deployment) (slot : Slot) : Nat :=
  match slot with
  | .system => deployment.settings.maxActiveRuns
  | .user _ => deployment.settings.userActiveRuns
  | .document _ => 1

def WithinCaps (deployment : Deployment) (store : HostedStore) : Prop :=
  ∀ slot : Slot, runningCount store slot.holds ≤ slot.cap deployment

variable {deployment : Deployment} {fresh : String → Prop} {ends : RunRow → Prop}
  {prices : CallKey → Prop} {store after : HostedStore}

theorem withinCaps_initial : WithinCaps deployment HostedStore.initial := by
  intro slot
  exact Nat.zero_le _

theorem Slot.holds_congr (slot : Slot) {before after : RunRow}
    (hdocument : after.document = before.document) (huser : after.userHash = before.userHash) :
    slot.holds after = slot.holds before := by
  cases slot with
  | system => rfl
  | user hash => rw [holds, holds, huser]
  | document key => rw [holds, holds, hdocument]

theorem runningCount_insert {row : RunRow} {runs : Table RunRow RunRow.key} {test : RunRow → Bool}
    (hruns : store.runs.insert? row = some runs) (hidle : row.status ≠ .running) :
    runningCount { store with runs := runs } test = runningCount store test := by
  have hinsert : runningCount { store with runs := runs } test = runningCount store test +
      Table.share (fun other => decide (other.status = .running ∧ test other)) (fun _ => 1) row :=
    Table.total_insert? hruns
  rw [hinsert, Table.share, if_neg, Nat.add_zero]
  simp [hidle]

/-- A change that starts nothing takes no place. -/
theorem runningCount_rewrite {test : RunRow → Bool} {change : RunRow → RunRow}
    {keeps : ∀ row, RunRow.key (change row) = RunRow.key row}
    (hrewrites : ∀ row ∈ store.runs, test row = true → Rewrites ends row (change row))
    (slot : Slot) :
    runningCount { store with runs := store.runs.modify test change keeps } slot.holds ≤
      runningCount store slot.holds := by
  have hshare : ∀ row ∈ store.runs, test row = true →
      Table.share (fun other => decide (other.status = .running ∧ slot.holds other)) (fun _ => 1)
          (change row) ≤
        Table.share (fun other => decide (other.status = .running ∧ slot.holds other)) (fun _ => 1)
          row := by
    intro row hrow htest
    have hrewrite := hrewrites row hrow htest
    have hholds := slot.holds_congr hrewrite.document hrewrite.userHash
    by_cases hrunning : (change row).status = .running
    · have hsame := hrewrite.active (Or.inr hrunning)
      simp [Table.share, hholds, hsame]
    · simp [Table.share, hrunning]
  exact @Table.total_modify_le _ _ _ _ _ _ _ _ keeps hshare

theorem runningCount_start {row : RunRow} {now : ℚ} (hrow : row ∈ store.runs)
    (hqueued : row.status = .queued) (slot : Slot) :
    runningCount
        { store with
          runs := store.runs.modify (isRun row.runId) (RunRow.started now) (RunRow.started_key now) }
        slot.holds =
      runningCount store slot.holds + if slot.holds row then 1 else 0 := by
  have hone : ∀ other ∈ store.runs, isRun row.runId other = true ↔ RunRow.key other = row.key :=
    fun other _ => isRun_iff
  have hexchange := @Table.total_modify_one _ _ _ store.runs
    (fun other => decide (other.status = .running ∧ slot.holds other)) (fun _ => 1) _ _
    (RunRow.started_key now) _ row hrow hone
  have hidle : Table.share (fun other => decide (other.status = .running ∧ slot.holds other))
      (fun _ => 1) row = 0 := by simp [Table.share, hqueued]
  have hstarted : Table.share (fun other => decide (other.status = .running ∧ slot.holds other))
      (fun _ => 1) (row.started now) = if slot.holds row then 1 else 0 := by
    have hholds : slot.holds (row.started now) = slot.holds row := slot.holds_congr rfl rfl
    have hrunning : (row.started now).status = .running := rfl
    simp [Table.share, hholds, hrunning]
  rw [hidle, hstarted] at hexchange
  exact hexchange

theorem WithinCaps.move (hmove : Move deployment fresh ends prices store after)
    (h : WithinCaps deployment store) : WithinCaps deployment after := by
  intro slot
  cases hmove with
  | elsewhere hruns _ _ _ =>
    unfold runningCount
    rw [hruns]
    exact h slot
  | admission hruns _ _ hqueued =>
    refine (runningCount_insert hruns ?_).le.trans (h slot)
    rw [hqueued]
    exact nofun
  | copy hruns _ hterminal =>
    refine (runningCount_insert hruns ?_).le.trans (h slot)
    intro hrunning
    rw [hrunning] at hterminal
    exact hterminal
  | start hrow hqueued hmax huser hdocument =>
    rw [runningCount_start hrow hqueued slot]
    split_ifs with hholds
    · -- The claim counted the rows of each slot of the run and found room.
      cases slot with
      | system => exact hmax
      | user hash =>
        rw [Slot.holds, decide_eq_true_eq] at hholds
        subst hholds
        exact huser
      | document key =>
        rw [Slot.holds, decide_eq_true_eq] at hholds
        subst hholds
        exact Nat.succ_le_succ hdocument.le
    · exact h slot
  | rewrite hrewrites => exact (runningCount_rewrite hrewrites slot).trans (h slot)
  | drop => exact Table.total_delete_le.trans (h slot)
  | settle =>
    unfold runningCount
    rw [settleEnvelope_runs]
    exact h slot
  | _ => exact h slot

theorem withinCaps_reached (deployment : Deployment) (calls : List Call) :
    WithinCaps deployment (reached deployment calls).store := by
  have hstep : ∀ system call, Custody deployment system ∧ WithinCaps deployment system.store →
      Custody deployment (next deployment system call) ∧
        WithinCaps deployment (next deployment system call).store := by
    rintro system call ⟨hcustody, hcaps⟩
    refine ⟨hcustody.next call, ?_⟩
    rcases next_cases hcustody call with hsame | hstep
    · rw [hsame]
      exact hcaps
    · exact (hstep.moves hcustody).invariant (fun hmove hinv => WithinCaps.move hmove hinv) hcaps
  exact (Machine.after_invariant hstep ⟨custody_initial, withinCaps_initial⟩ calls).2

/-- In every reachable store the runs in `running` are at most the active limit, those
of each user at most the user's limit, and those of each document at most one. -/
theorem running_within_caps (deployment : Deployment) (calls : List Call) :
    runningCount (reached deployment calls).store (fun _ => true) ≤
        deployment.settings.maxActiveRuns ∧
      (∀ userHash, runningCount (reached deployment calls).store
        (fun row => row.userHash = userHash) ≤ deployment.settings.userActiveRuns) ∧
      ∀ document, runningCount (reached deployment calls).store
        (fun row => row.document = document) ≤ 1 := by
  have hcaps := withinCaps_reached deployment calls
  exact ⟨hcaps .system, fun userHash => hcaps (.user userHash),
    fun document => hcaps (.document document)⟩

end ProofOps.Api.Hosted
