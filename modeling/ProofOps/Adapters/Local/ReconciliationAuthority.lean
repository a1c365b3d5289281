import ProofOps.Adapters.Local.ReconciliationSteps
import ProofOps.Foundation.Machine

/-!
# Authority over reconciliation cases

The log of a case says who reviewed it and what was approved last; its head is a summary of
that log.  Every call keeps the summary right, so what an evaluation could rest on stands in
the log before it.
-/

namespace ProofOps.Adapters.Local.Reconciliations

open Foundation Foundation.Checked Foundation.Table Foundation.Machine Foundation.Revisions
open Foundation.PyJson Application.Reconciliation

variable {head : HeadRow} {now : String} {snapshot : Snapshot}

section Authority

variable {Projection : Type} {rules : StoreRules Projection} {store other : Store Projection}

/-- The revisions of all cases. -/
abbrev Log (Projection : Type) := Table (RevisionRow Projection) RevisionRow.key

/-! ### What the log says -/

variable (log : Log Projection)

def Reviewed (key : CaseKey) (before : Nat) : Prop :=
  ∃ row ∈ log, row.case = key ∧ row.revision < before ∧ ∃ event, row.payload = .review event

def Approved (key : CaseKey) (before : Nat) : Prop :=
  ∃ row ∈ log, row.case = key ∧ row.revision < before ∧
    (∃ event, row.payload = .policyApproval event ∧ event.approved = true) ∧
    ∀ later ∈ log, later.case = key → row.revision < later.revision → later.revision < before →
      ∀ event, later.payload = .policyApproval event → event.approved = true

def IsEvaluation (key : CaseKey) (revision : Nat) : Prop :=
  ∃ row ∈ log, row.key = (key, revision) ∧ ∃ record, row.payload = .evaluation record

section Appending

variable {log longer : Log Projection} {row : RevisionRow Projection} {key : CaseKey} {before : Nat}

theorem Reviewed.append (h : Reviewed log key before) (hrow : log.insert? row = some longer)
    {later : Nat} (hle : before ≤ later) : Reviewed longer key later := by
  obtain ⟨review, hmem, hcase, hlt, hevent⟩ := h
  exact ⟨review, (mem_insert? hrow).mpr (.inl hmem), hcase, by omega, hevent⟩

theorem Approved.append (h : Approved log key before) (hrow : log.insert? row = some longer)
    (hlate : row.case = key → before ≤ row.revision) : Approved longer key before := by
  obtain ⟨approval, hmem, hcase, hlt, hevent, hkept⟩ := h
  refine ⟨approval, (mem_insert? hrow).mpr (.inl hmem), hcase, hlt, hevent, ?_⟩
  intro later hlater hsame hafter hbefore event hpayload
  rcases (mem_insert? hrow).mp hlater with hold | rfl
  · exact hkept later hold hsame hafter hbefore event hpayload
  · have := hlate hsame
    omega

theorem Approved.append_next (h : Approved log key before) (hrow : log.insert? row = some longer)
    (hold : ∀ old ∈ log, old.case = key → old.revision < before)
    (hkeeps : ∀ event, row.payload = .policyApproval event → event.approved = true) :
    Approved longer key (before + 1) := by
  obtain ⟨approval, hmem, hcase, hlt, hevent, hkept⟩ := h
  refine ⟨approval, (mem_insert? hrow).mpr (.inl hmem), hcase, by omega, hevent, ?_⟩
  intro later hlater hsame hafter hbefore event hpayload
  rcases (mem_insert? hrow).mp hlater with hearlier | rfl
  · exact hkept later hearlier hsame hafter (hold later hearlier hsame) event hpayload
  · exact hkeeps event hpayload

theorem approved_append (hrow : log.insert? row = some longer) (hcase : row.case = key)
    (hnext : row.revision = before) (hold : ∀ old ∈ log, old.case = key → old.revision < before)
    (hevent : ∃ event, row.payload = .policyApproval event ∧ event.approved = true) :
    Approved longer key (before + 1) := by
  refine ⟨row, (mem_insert? hrow).mpr (.inr rfl), hcase, by omega, hevent, ?_⟩
  intro later hlater hsame hafter hbefore event hpayload
  rcases (mem_insert? hrow).mp hlater with hearlier | rfl
  · have := hold later hearlier hsame
    omega
  · omega

theorem IsEvaluation.append {revision : Nat} (h : IsEvaluation log key revision)
    (hrow : log.insert? row = some longer) : IsEvaluation longer key revision := by
  obtain ⟨found, hmem, hfound⟩ := h
  exact ⟨found, (mem_insert? hrow).mpr (.inl hmem), hfound⟩

structure HeadSound (log : Log Projection) (head : HeadRow) : Prop where
  spans : Spans log head.case 1 head.revision
  reviewed : head.reviewState = .reviewed → Reviewed log head.case (head.revision + 1)
  approved : head.policyApproved = true → Approved log head.case (head.revision + 1)
  latest : ∀ revision, head.latestResultRevision = some revision →
    IsEvaluation log head.case revision

theorem HeadSound.revision_lt (h : HeadSound log head) :
    ∀ old ∈ log, old.case = head.case → old.revision < head.revision + 1 := by
  intro old hold hcase
  have hspan := (h.spans old.revision).mp ⟨old, hold, by rw [RevisionRow.key, hcase]⟩
  omega

theorem HeadSound.append_other (h : HeadSound log head)
    (hrow : log.insert? row = some longer) (hcase : row.case ≠ head.case) :
    HeadSound longer head where
  spans := h.spans.insert_other hrow hcase
  reviewed := fun hstate => (h.reviewed hstate).append hrow (Nat.le_refl _)
  approved := fun hstate => (h.approved hstate).append hrow fun hsame => absurd hsame hcase
  latest := fun revision hrevision => (h.latest revision hrevision).append hrow

theorem firstHead_sound (hfresh : ∀ old ∈ log, old.case ≠ key)
    (hrow : log.insert? row = some longer) (hkey : row.key = (key, 1)) :
    HeadSound longer (firstHead key now) where
  spans := spans_insert_first hfresh hrow hkey
  reviewed := nofun
  approved := nofun
  latest := nofun

theorem HeadSound.advance {head : HeadRow} (h : HeadSound log head) {change : Change Projection}
    {request : Request} {now : String} (hchanges : Changes head change request)
    (hrow : log.insert? row = some longer) (hkey : row.key = (head.case, head.revision + 1))
    (hpayload : row.payload = change.payload) : HeadSound longer (nextHead head change now) := by
  have hold := h.revision_lt
  have hcase : row.case = head.case := congrArg Prod.fst hkey
  have hnext : row.revision = head.revision + 1 := congrArg Prod.snd hkey
  have hspans : Spans longer head.case 1 (head.revision + 1) :=
    h.spans.insert_next (by omega) hrow hkey
  have hreview : head.reviewState = .reviewed →
      Reviewed longer head.case (head.revision + 1 + 1) :=
    fun hstate => (h.reviewed hstate).append hrow (Nat.le_succ _)
  have hlatest : ∀ revision, head.latestResultRevision = some revision →
      IsEvaluation longer head.case revision :=
    fun revision hrevision => (h.latest revision hrevision).append hrow
  cases hchanges with
  | review hevent hstate happroved hsame =>
    refine ⟨hspans, fun _ => ?_, fun hchange => ?_, fun revision hrevision => ?_⟩
    · exact ⟨row, (mem_insert? hrow).mpr (.inr rfl), hcase, Nat.lt_succ_of_le (Nat.le_of_eq hnext),
        _, hpayload.trans hevent⟩
    · refine (h.approved (happroved ▸ hchange)).append_next hrow hold fun event hother => ?_
      rw [hpayload, hevent] at hother
      cases hother
    · exact hlatest revision (hsame ▸ hrevision)
  | approval hevent hvalue hstate happroved hsame =>
    refine ⟨hspans, fun hchange => hreview (hstate ▸ hchange), fun hchange => ?_,
      fun revision hrevision => hlatest revision (hsame ▸ hrevision)⟩
    exact approved_append hrow hcase hnext hold
      ⟨_, hpayload.trans hevent, hvalue.trans (happroved.symm.trans hchange)⟩
  | evaluation hrecord hcompleted hstate happroved hnew =>
    refine ⟨hspans, fun hchange => hreview (hstate ▸ hchange), fun hchange => ?_,
      fun revision hrevision => ?_⟩
    · refine (h.approved (happroved ▸ hchange)).append_next hrow hold fun event hother => ?_
      rw [hpayload, hrecord] at hother
      cases hother
    · have hlast : some (head.revision + 1) = some revision := hnew.symm.trans hrevision
      cases hlast
      exact ⟨row, (mem_insert? hrow).mpr (.inr rfl), hkey, _, hpayload.trans hrecord⟩

end Appending

/-! ### The whole store -/

def Authorised (row : RevisionRow Projection) : Prop :=
  ∀ record, row.payload = .evaluation record → record.Completed →
    Reviewed log row.case row.revision ∧ Approved log row.case row.revision

structure Sound (store : Store Projection) : Prop where
  headed : ∀ row ∈ store.cases, ∃ head ∈ store.heads, head.case = row.key
  owned : ∀ row ∈ store.revisions, ∃ case ∈ store.cases, case.key = row.case
  known : ∀ head ∈ store.heads, ∃ case ∈ store.cases, case.key = head.case
  heads : ∀ head ∈ store.heads, HeadSound store.revisions head
  authorised : ∀ row ∈ store.revisions, Authorised store.revisions row
  policies : ∀ row ∈ store.cases, unapproved row.snapshot.policy = row.snapshot.policy

theorem sound_initial : Sound (Store.initial : Store Projection) where
  headed := fun _ h => absurd h not_mem_empty
  owned := fun _ h => absurd h not_mem_empty
  known := fun _ h => absurd h not_mem_empty
  heads := fun _ h => absurd h not_mem_empty
  authorised := fun _ h => absurd h not_mem_empty
  policies := fun _ h => absurd h not_mem_empty

variable {longer : Log Projection} {row : RevisionRow Projection} {log}

theorem Authorised.append {new : RevisionRow Projection} (h : Authorised log row)
    (hrow : log.insert? new = some longer)
    (hlate : new.case = row.case → row.revision ≤ new.revision) : Authorised longer row := by
  intro record hpayload hcompleted
  obtain ⟨hreviewed, happroved⟩ := h record hpayload hcompleted
  exact ⟨hreviewed.append hrow (Nat.le_refl _), happroved.append hrow hlate⟩

theorem Registered.fresh {key : CaseKey} {actor : String}
    (h : Registered rules store other key actor now snapshot) :
    ∀ row ∈ store.cases, row.key ≠ key :=
  find_eq_none_iff.mp (find_of_insert? h.case)

/-- A registration keeps the store sound. -/
theorem Sound.registered (hsound : Sound store) {key : CaseKey} {actor : String}
    (h : Registered rules store other key actor now snapshot) :
    Sound other := by
  have hfresh := h.fresh
  have hnone : ∀ old ∈ store.revisions, old.case ≠ key := by
    intro old hold hsame
    obtain ⟨case, hcase, hkey⟩ := hsound.owned old hold
    exact hfresh case hcase (hkey.trans hsame)
  have hcases : ∀ row, row ∈ other.cases ↔ row ∈ store.cases ∨ row = ⟨key, now, actor, snapshot⟩ :=
    fun _ => mem_insert? h.case
  refine
    { headed := fun row hrow => ?_
      owned := fun row hrow => ?_
      known := fun head hhead => ?_
      heads := fun head hhead => ?_
      authorised := fun row hrow => ?_
      policies := fun row hrow => ?_ }
  · rcases (hcases row).mp hrow with hold | rfl
    · obtain ⟨head, hhead, hkey⟩ := hsound.headed row hold
      exact ⟨head, (mem_insert? h.head).mpr (.inl hhead), hkey⟩
    · exact ⟨_, (mem_insert? h.head).mpr (.inr rfl), rfl⟩
  · rcases (mem_insert? h.first).mp hrow with hold | rfl
    · obtain ⟨case, hcase, hkey⟩ := hsound.owned row hold
      exact ⟨case, (hcases case).mpr (.inl hcase), hkey⟩
    · exact ⟨_, (hcases _).mpr (.inr rfl), rfl⟩
  · rcases (mem_insert? h.head).mp hhead with hold | rfl
    · obtain ⟨case, hcase, hkey⟩ := hsound.known head hold
      exact ⟨case, (hcases case).mpr (.inl hcase), hkey⟩
    · exact ⟨_, (hcases _).mpr (.inr rfl), rfl⟩
  · rcases (mem_insert? h.head).mp hhead with hold | rfl
    · refine (hsound.heads head hold).append_other h.first fun hsame => ?_
      obtain ⟨case, hcase, hkey⟩ := hsound.known head hold
      exact hfresh case hcase (hkey.trans hsame.symm)
    · exact firstHead_sound hnone h.first rfl
  · rcases (mem_insert? h.first).mp hrow with hold | rfl
    · exact (hsound.authorised row hold).append h.first fun hsame =>
        absurd hsame.symm (hnone row hold)
    · intro record hpayload
      cases hpayload
  · rcases (hcases row).mp hrow with hold | rfl
    · exact hsound.policies row hold
    · exact h.unapproved

variable {change : Change Projection}

theorem authorised_next (hhead : HeadSound log head) {request : Request}
    (hchanges : Changes head change request) (hrow : log.insert? row = some longer)
    (hkey : row.key = (head.case, head.revision + 1)) (hpayload : row.payload = change.payload) :
    Authorised longer row := by
  intro record hrecord hcompleted
  have hcase : row.case = head.case := congrArg Prod.fst hkey
  have hnext : row.revision = head.revision + 1 := congrArg Prod.snd hkey
  rw [hpayload] at hrecord
  cases hchanges with
  | review hevent | approval hevent =>
    rw [hevent] at hrecord
    cases hrecord
  | evaluation hevaluated hauthority =>
    rw [hevaluated] at hrecord
    cases hrecord
    obtain ⟨hstate, hpolicy⟩ := hauthority hcompleted
    rw [hcase, hnext]
    exact ⟨(hhead.reviewed hstate).append hrow (Nat.le_refl _),
      (hhead.approved hpolicy).append hrow fun _ => Nat.le_of_eq hnext.symm⟩

theorem Sound.advanced (hsound : Sound store) {attempt : Attempt} {response : Detail Projection}
    (h : Advanced rules store other attempt response head change) : Sound other := by
  obtain ⟨hmem, hkey⟩ := find_eq_some_iff.mp h.found
  have hhead := hsound.heads head hmem
  have hnew : (revisionRow rules attempt.key (head.revision + 1) attempt.actor attempt.now
      change.payload).key = (head.case, head.revision + 1) := by
    rw [hkey]
    rfl
  have hheads : ∀ row, row ∈ other.heads ↔
      row = nextHead head change attempt.now ∨ (row ∈ store.heads ∧ row.case ≠ head.case) := by
    intro row
    rw [h.heads, mem_put]
    rfl
  refine
    { headed := fun row hrow => ?_
      owned := fun row hrow => ?_
      known := fun moved hmoved => ?_
      heads := fun moved hmoved => ?_
      authorised := fun row hrow => ?_
      policies := fun row hrow => hsound.policies row (h.cases ▸ hrow) }
  · obtain ⟨found, hfound, hcase⟩ := hsound.headed row (h.cases ▸ hrow)
    by_cases hsame : found.case = head.case
    · exact ⟨_, (hheads _).mpr (.inl rfl), hsame.symm.trans hcase⟩
    · exact ⟨found, (hheads found).mpr (.inr ⟨hfound, hsame⟩), hcase⟩
  · rw [h.cases]
    rcases (mem_insert? h.appended).mp hrow with hold | rfl
    · exact hsound.owned row hold
    · obtain ⟨case, hcase, hcaseKey⟩ := hsound.known head hmem
      exact ⟨case, hcase, hcaseKey.trans hkey⟩
  · rw [h.cases]
    rcases (hheads moved).mp hmoved with rfl | ⟨hold, -⟩
    · exact hsound.known head hmem
    · exact hsound.known moved hold
  · rcases (hheads moved).mp hmoved with rfl | ⟨hold, hne⟩
    · exact hhead.advance h.changes h.appended hnew rfl
    · refine (hsound.heads moved hold).append_other h.appended fun hsame => hne ?_
      exact hsame.symm.trans hkey.symm
  · rcases (mem_insert? h.appended).mp hrow with hold | rfl
    · refine (hsound.authorised row hold).append h.appended fun hsame => ?_
      exact Nat.le_of_lt (hhead.revision_lt row hold (hsame.symm.trans hkey.symm))
    · exact authorised_next hhead h.changes h.appended hnew rfl

/-- Every call keeps the store sound. -/
theorem Sound.next (hsound : Sound store) (call : Call) : Sound (next rules store call) := by
  have hstep := @next_step _ rules store call
  cases hstep with
  | idle hsame => exact hsame.symm ▸ hsound
  | registered hcapability htenant hactor hregistered => exact hsound.registered hregistered
  | advanced hrequest hattempted hadvanced => exact hsound.advanced hadvanced

theorem sound_after (calls : List Call) : Sound (after (next rules) Store.initial calls) :=
  after_invariant (fun _ call hsound => hsound.next call) sound_initial calls

/-- **The flags of a head are earned.**  After every run of calls a case that shows as reviewed
has a review in its log, and one that shows an approved policy has an approval that no later
revision of the case takes back. -/
theorem head_flags_earned (rules : StoreRules Projection) (calls : List Call) :
    (∀ head ∈ (after (next rules) Store.initial calls).heads, head.reviewState = .reviewed →
      Reviewed (after (next rules) Store.initial calls).revisions head.case (head.revision + 1)) ∧
    ∀ head ∈ (after (next rules) Store.initial calls).heads, head.policyApproved = true →
      Approved (after (next rules) Store.initial calls).revisions head.case (head.revision + 1) := by
  have hsound : Sound (after (next rules) Store.initial calls) := sound_after calls
  exact ⟨fun head hhead => (hsound.heads head hhead).reviewed,
    fun head hhead => (hsound.heads head hhead).approved⟩

end Authority

end ProofOps.Adapters.Local.Reconciliations
