import ProofOps.Application.Uploads.Transactions

/-!
# Completions over a run

Whatever the order in which initiations, receipts, completions and deletions take their steps:
the store stays sound, what is settled stays settled, and two completions of one upload that
return give the same result.
-/

namespace ProofOps.Application.Uploads

open Foundation Foundation.Checked Foundation.Table Adapters.Local

variable {target : Target} {files : Files}

section Runs

variable {Json : Type} {rules : ServiceRules Json} {store after : Store Json}

def StageSound (store : Store Json) (target : Target) : Stage Json → Prop
  | .initiating call document => target = .document ⟨call.tenantId, call.documentId⟩ ∧
      document.document.documentId = call.documentId
  | .queued call => target = .upload call.upload
  | .verifying call item => target = .upload call.upload ∧
      ∃ row ∈ store.uploads, row.key = call.upload ∧ Continues item row
  | .accepting call item _ => target = .upload call.upload ∧
      ∃ row ∈ store.uploads, row.key = call.upload ∧ Continues item row
  | .rejecting call _ _ => target = .upload call.upload
  | .finished (.ok response) => ∀ key, target = .upload key →
      ∃ result, response = .version result ∧ Completed store key result
  | .finished (.error _) => True

theorem held_kept (hkept : Kept store after) {key : UploadKey} {item : UploadRow Json}
    (h : ∃ row ∈ store.uploads, row.key = key ∧ Continues item row) :
    ∃ row ∈ after.uploads, row.key = key ∧ Continues item row := by
  obtain ⟨row, hrow, hkey, hcontinues⟩ := h
  obtain ⟨later, hlater, hrest⟩ := hkept.uploads row hrow
  exact ⟨later, hlater, hrest.key.trans hkey, hcontinues.trans hrest⟩

variable {stage : Stage Json}

/-- A stage stays sound while the store grows. -/
theorem StageSound.kept (h : StageSound store target stage) (hkept : Kept store after) :
    StageSound after target stage := by
  cases stage with
  | initiating call document | queued call | rejecting call code security => exact h
  | verifying call item | accepting call item verified => exact ⟨h.1, held_kept hkept h.2⟩
  | finished result =>
    cases result with
    | error error => trivial
    | ok response =>
      intro key htarget
      obtain ⟨result, hresponse, hcompleted⟩ := h key htarget
      exact ⟨result, hresponse, hcompleted.kept hkept⟩

structure Stepped (rules : ServiceRules Json) (store : Store Json) (target : Target)
    (stage : Stage Json) (result : Stage Json × Store Json × Files) : Prop where
  grown : Extends rules store result.2.1
  tombstones : result.2.1.tombstones = store.tombstones
  origin : ∀ row ∈ result.2.1.uploads, (∃ old ∈ store.uploads, Continues old row) ∨
    ∃ call document, stage = .initiating call document ∧
      row.home = ⟨call.tenantId, document.document.documentId⟩
  stage : StageSound result.2.1 target result.1

theorem Progress.stepped {later : Stage Json} (h : Progress rules store after)
    (hstage : StageSound after target later) :
    Stepped rules store target stage (later, after, files) where
  grown := h.grown
  tombstones := h.tombstones
  origin := fun row hrow => Or.inl (h.origin row hrow)
  stage := hstage

/-- Every step of a worker is one of these. -/
theorem advance_stepped (hsound : Sound rules store) {given : StepInputs Json}
    (hstage : StageSound store target stage) :
    Stepped rules store target stage (advance rules store files given stage) := by
  cases stage with
  | finished result => exact (Progress.refl hsound).stepped hstage
  | initiating call document =>
    unfold advance
    dsimp only
    cases hresult : initiateCommit rules store call document given.registered given.inputs with
    | error error => exact (Progress.refl hsound).stepped trivial
    | ok answer =>
      obtain ⟨hextends, htombstones, horigin⟩ := initiateCommit_ok hsound hresult
      refine ⟨hextends, htombstones, fun row hrow => ?_, fun key htarget => ?_⟩
      · rcases horigin row hrow with hold | hhome
        · exact Or.inl hold
        · exact Or.inr ⟨call, document, rfl, hhome⟩
      · rw [hstage.1] at htarget
        cases htarget
  | queued call =>
    unfold advance
    dsimp only
    cases hresult : completeBegin rules store call given.inputs with
    | error error => exact (Progress.refl hsound).stepped trivial
    | ok answer =>
      obtain ⟨begun, written⟩ := answer
      obtain ⟨hprogress, hbegun⟩ := completeBegin_ok hsound hresult
      cases begun with
      | answered response =>
        refine hprogress.stepped fun key htarget => ?_
        obtain rfl : call.upload = key := Target.upload.inj (hstage.symm.trans htarget)
        exact hbegun
      | running item => exact hprogress.stepped ⟨hstage, hbegun⟩
  | verifying call item =>
    unfold advance
    dsimp only
    obtain ⟨verification, written⟩ := verifyAndPromote rules files item given.verdict
    cases verification with
    | missing => exact (Progress.refl hsound).stepped trivial
    | refused code security => exact (Progress.refl hsound).stepped hstage.1
    | verified verified => exact (Progress.refl hsound).stepped hstage
  | accepting call item verified =>
    unfold advance
    dsimp only
    cases hresult : completeAccept rules store call item verified given.inputs with
    | error error => exact (Progress.refl hsound).stepped trivial
    | ok answer =>
      obtain ⟨result, written⟩ := answer
      obtain ⟨htarget, row, hrow, hkey, hcontinues⟩ := hstage
      obtain ⟨hprogress, hcompleted⟩ := completeAccept_ok hsound hrow hkey hcontinues hresult
      refine hprogress.stepped fun key hother => ?_
      obtain rfl : call.upload = key := Target.upload.inj (htarget.symm.trans hother)
      exact ⟨result, rfl, hcompleted⟩
  | rejecting call code security =>
    unfold advance
    dsimp only
    cases hresult : completeReject rules store call code security with
    | error error => exact (Progress.refl hsound).stepped trivial
    | ok written => exact (completeReject_progress hsound hresult).stepped trivial

/-! ### Events -/

structure SystemSound (rules : ServiceRules Json) (system : System Json) : Prop where
  store : Sound rules system.store
  workers : ∀ worker ∈ system.workers, StageSound system.store worker.target worker.stage

theorem initial_systemSound : SystemSound rules System.initial where
  store := sound_initial
  workers := fun _ h => by cases h

/-- What an event does to the system. -/
structure Moved (rules : ServiceRules Json) (system : System Json) (event : Event Json)
    (later : System Json) : Prop where
  sound : SystemSound rules later
  kept : Kept system.store later.store
  origin : ∀ row ∈ later.store.uploads, (∃ old ∈ system.store.uploads, Continues old row) ∨
    ∃ index given worker call document, event = .step index given ∧
      system.workers[index]? = some worker ∧ worker.stage = .initiating call document ∧
      row.home = ⟨call.tenantId, document.document.documentId⟩
  tombstones : ∀ tombstone ∈ later.store.tombstones, tombstone ∈ system.store.tombstones ∨
    ∃ deletion, event = .requestDeletion deletion ∧
      tombstone = Retention.tombstone rules system.store deletion

variable {system : System Json}

theorem Progress.moved {event : Event Json} {workers : List (Worker Json)}
    (hsound : SystemSound rules system) (h : Progress rules system.store after)
    (hnew : ∀ worker ∈ workers, worker ∈ system.workers ∨
      StageSound after worker.target worker.stage) :
    Moved rules system event ⟨after, files, workers⟩ where
  sound :=
    { store := h.grown.sound
      workers := fun worker hworker => by
        rcases hnew worker hworker with hold | hsound'
        · exact (hsound.workers worker hold).kept h.grown.kept
        · exact hsound' }
  kept := h.grown.kept
  origin := fun row hrow => Or.inl (h.origin row hrow)
  tombstones := fun tombstone hmem => Or.inl (h.tombstones ▸ hmem)

theorem committed_progress (hsound : Sound rules store) {ε α : Type}
    {result : Except ε (α × Store Json)}
    (h : ∀ value after, result = .ok (value, after) → Progress rules store after) :
    Progress rules store (committed store result) := by
  cases result with
  | error error => exact Progress.refl hsound
  | ok answer => exact h answer.1 answer.2 rfl

theorem startComplete_progress (hsound : Sound rules store) {call : CompleteCall} {inputs : Inputs}
    {job : ValidationJob} (h : startComplete rules store call inputs = .ok (job, after)) :
    Progress rules store after := by
  replace h := rest_ok h
  exact enqueueValidation_progress hsound h

/-- Every event moves the system so. -/
theorem next_moved (hsound : SystemSound rules system) (event : Event Json) :
    Moved rules system event (next rules system event) := by
  cases event with
  | createDocument call company inputs =>
    exact (committed_progress hsound.store fun response written h =>
      createDocument_progress hsound.store h).moved hsound fun worker h => Or.inl h
  | initiate call =>
    refine (Progress.refl hsound.store).moved hsound fun worker hworker => ?_
    rcases List.mem_append.mp hworker with hold | hnew
    · exact Or.inl hold
    · obtain rfl := List.mem_singleton.mp hnew
      cases hread : initiateRead rules system.store call with
      | error error => exact Or.inr trivial
      | ok document =>
        obtain ⟨⟨⟩, -, h⟩ := bind_ok hread
        replace h := rest_ok h
        obtain ⟨row, hrow, h⟩ := bind_ok h
        cases pure_ok h
        exact Or.inr ⟨rfl, congrArg DocumentKey.documentId (getDocument_ok hrow).2.1⟩
  | receive call now =>
    exact (receiveContent_progress hsound.store).moved hsound fun worker h => Or.inl h
  | enqueue call inputs =>
    exact (committed_progress hsound.store fun response written h =>
      enqueueValidation_progress hsound.store h).moved hsound fun worker h => Or.inl h
  | complete call inputs =>
    refine (committed_progress hsound.store fun response written h =>
      startComplete_progress hsound.store h).moved hsound fun worker hworker => ?_
    rcases List.mem_append.mp hworker with hold | hnew
    · exact Or.inl hold
    · obtain rfl := List.mem_singleton.mp hnew
      cases startComplete rules system.store call inputs with
      | error error => exact Or.inr trivial
      | ok answer => exact Or.inr rfl
  | step index given =>
    simp only [next]
    cases hworker : system.workers[index]? with
    | none => exact (Progress.refl hsound.store).moved hsound fun worker h => Or.inl h
    | some worker =>
      have hstepped : Stepped rules system.store worker.target worker.stage
          (advance rules system.store system.files given worker.stage) :=
        advance_stepped hsound.store (hsound.workers worker (List.mem_of_getElem? hworker))
      refine
        { sound := ⟨hstepped.grown.sound, fun other hother => ?_⟩
          kept := hstepped.grown.kept
          origin := fun row hrow => ?_
          tombstones := fun tombstone hmem => Or.inl (hstepped.tombstones ▸ hmem) }
      · rcases List.mem_or_eq_of_mem_set hother with hold | rfl
        · exact (hsound.workers other hold).kept hstepped.grown.kept
        · exact hstepped.stage
      · rcases hstepped.origin row hrow with hold | ⟨call, document, hstage, hhome⟩
        · exact Or.inl hold
        · exact Or.inr ⟨index, given, worker, call, document, rfl, hworker, hstage, hhome⟩
  | requestDeletion deletion =>
    cases hrequest : Retention.request rules system.store deletion with
    | error error =>
      have hsame : next rules system (.requestDeletion deletion) = system := by
        simp only [next, hrequest, committed]
      rw [hsame]
      exact (Progress.refl hsound.store).moved hsound fun worker h => Or.inl h
    | ok answer =>
      obtain ⟨response, written⟩ := answer
      obtain ⟨hextends, huploads, htombstones⟩ := request_ok hsound.store hrequest
      have hnext : next rules system (.requestDeletion deletion) =
          { system with store := written } := by
        simp only [next, hrequest, committed]
      rw [hnext]
      refine
        { sound := ⟨hextends.sound, fun worker h => (hsound.workers worker h).kept hextends.kept⟩
          kept := hextends.kept
          origin := fun row hrow => Or.inl ⟨row, huploads ▸ hrow, Continues.refl row⟩
          tombstones := fun tombstone hmem => ?_ }
      rcases htombstones tombstone hmem with hold | hmade
      · exact Or.inl hold
      · exact Or.inr ⟨deletion, rfl, hmade⟩

theorem after_systemSound (hsound : SystemSound rules system) (events : List (Event Json)) :
    SystemSound rules (Machine.after (next rules) system events) := by
  have hstep : ∀ system event, SystemSound rules system →
      SystemSound rules (next rules system event) := fun _ event h => (next_moved h event).sound
  exact Machine.after_invariant hstep hsound events

theorem after_kept (hsound : SystemSound rules system) (events : List (Event Json)) :
    Kept system.store (Machine.after (next rules) system events).store := by
  have hstep : ∀ system event, SystemSound rules system →
      SystemSound rules (next rules system event) := fun _ event h => (next_moved h event).sound
  exact @Machine.after_related _ _ (next rules) (SystemSound rules)
    (fun first second => Kept first.store second.store) hstep
    (fun system => Kept.refl system.store) Kept.trans
    (fun _ event h => (next_moved h event).kept) _ hsound events

structure CompletionSafe (rules : ServiceRules Json) (system later : System Json) : Prop where
  sound : Sound rules later.store
  kept : Kept system.store later.store
  once : ∀ row ∈ later.store.uploads, ∀ version ∈ later.store.versions,
    ∀ other ∈ later.store.versions, VersionOf row version → VersionOf row other → version = other
  returned : ∀ worker ∈ later.workers, ∀ response key, worker.stage = .finished (.ok response) →
    worker.target = .upload key → ∃ result, response = .version result ∧
      Completed later.store key result
  agree : ∀ worker ∈ later.workers, ∀ other ∈ later.workers, ∀ response answer key,
    worker.stage = .finished (.ok response) → other.stage = .finished (.ok answer) →
    worker.target = .upload key → other.target = .upload key → response = answer

/-- **Upload completion.**  In every interleaving: an accepted upload owns one version, which
never changes, an outcome is final, completions of one upload agree, the latest version of a
document is the greatest one accepted for it, and the audit log is a chain for each document. -/
theorem upload_completion (rules : ServiceRules Json) (front back : List (Event Json)) :
    CompletionSafe rules (Machine.after (next rules) System.initial front)
      (Machine.after (next rules) System.initial (front ++ back)) := by
  have hfront : SystemSound rules (Machine.after (next rules) System.initial front) :=
    after_systemSound initial_systemSound front
  rw [Machine.after_append]
  have hlater := after_systemSound hfront back
  have hreturned : ∀ worker ∈ (Machine.after (next rules)
      (Machine.after (next rules) System.initial front) back).workers, ∀ response key,
      worker.stage = .finished (.ok response) → worker.target = .upload key →
      ∃ result, response = .version result ∧ Completed (Machine.after (next rules)
        (Machine.after (next rules) System.initial front) back).store key result := by
    intro worker hworker response key hstage htarget
    have hheld := hlater.workers worker hworker
    rw [hstage] at hheld
    exact hheld key htarget
  refine
    { sound := hlater.store
      kept := after_kept hfront back
      once := fun row _ version hversion other hother hof hotherOf =>
        eq_of_key_eq hversion hother (hof.key.trans hotherOf.key.symm)
      returned := hreturned
      agree := fun worker hworker other hother response answer key hstage hotherStage htarget
        hotherTarget => ?_ }
  obtain ⟨result, rfl, hcompleted⟩ := hreturned worker hworker response key hstage htarget
  obtain ⟨found, rfl, hfound⟩ := hreturned other hother answer key hotherStage hotherTarget
  rw [hcompleted.unique hfound]

end Runs

end ProofOps.Application.Uploads
