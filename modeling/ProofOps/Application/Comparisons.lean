import Mathlib.Data.Finset.Dedup
import ProofOps.Domain.Values
import ProofOps.Foundation.Checked
import ProofOps.Foundation.PyText
import ProofOps.Foundation.Rendering
import ProofOps.Foundation.Sorting

/-!
# Year comparison

`compare_years` over the target snapshots that `_targets` makes of the reviewed
goal claims of two report years.  Targets are compared by a key joined from the
topics of a claim, which is not the set of them.
-/

namespace ProofOps.Application.Comparisons

open Foundation Foundation.Checked Foundation.Sorting Domain

structure GoalClaim (Id : Type) where
  claimId : Id
  quote : String
  topicIds : List String
  decisionRevision : Nat
  evidenceGrade : Option Grade

/-- `TargetSnapshot`. -/
structure TargetSnapshot (Id : Type) where
  claimId : Id
  (comparisonKey contentSha256 : String)
  decisionRevision : Nat
  evidenceGrade : Option Grade

inductive ChangeType where
  | modified
  | removedCandidate
  | new
  | ambiguous
  deriving DecidableEq

/-- `ComparisonChange`. -/
structure ComparisonChange (Id : Type) where
  (currentClaimId priorClaimId : Option Id)
  type : ChangeType
  reason : String
  deriving DecidableEq

inductive ComparisonStatus where
  | completed
  | notRun

/-- `Comparison`. -/
structure Comparison (Id : Type) where
  comparisonId : Id
  status : ComparisonStatus
  reason : Option String
  changes : List (ComparisonChange Id)

/-- `ComparisonRejected`. -/
inductive ComparisonError where
  | rejected (code : String)
  | valueError (message : String)

/-- `ApprovedVersion`. -/
structure Version (Id Target : Type) where
  (tenantId companyId documentVersionId : Id)
  reportYear : Nat
  approved : Bool
  targets : List Target

variable {Id : Type}

def comparisonKey (claim : GoalClaim Id) : String :=
  "|".intercalate (sortedBy id claim.topicIds)

def snapshot (hash : String → List String → String) (claim : GoalClaim Id) : TargetSnapshot Id where
  claimId := claim.claimId
  comparisonKey := comparisonKey claim
  contentSha256 := hash claim.quote (sortedBy id claim.topicIds)
  decisionRevision := claim.decisionRevision
  evidenceGrade := claim.evidenceGrade

def target (hash : String → List String → String) (claim : GoalClaim Id) :
    Except ComparisonError (TargetSnapshot Id) := do
  refuse (claim.topicIds = []) (.rejected "TARGET_COMPARISON_KEY_MISSING")
  refuse (PyText.nonBlank (comparisonKey claim) = false)
    (.valueError "comparison_key must be non-empty text")
  refuse (claim.decisionRevision < 1) (.valueError "decision_revision must be positive")
  return snapshot hash claim

def approvedVersion [DecidableEq Id] (version : Version Id (GoalClaim Id))
    (targets : List (TargetSnapshot Id)) :
    Except ComparisonError (Version Id (TargetSnapshot Id)) := do
  refuse (¬(1900 ≤ version.reportYear ∧ version.reportYear ≤ 2200))
    (.valueError "report_year is outside the supported range")
  refuse (¬(targets.map TargetSnapshot.claimId).Nodup)
    (.valueError "claim_id must be unique within a version")
  return { version with approved := true, targets }

/-! ### Comparing -/

/-- `_by_key`. -/
def byKey (targets : List (TargetSnapshot Id)) (key : String) : List (TargetSnapshot Id) :=
  targets.filter (·.comparisonKey = key)

def sortedKeys (targets : List (TargetSnapshot Id)) : List String :=
  sortedBy id (targets.map TargetSnapshot.comparisonKey).dedup

def ambiguousCurrent (item : TargetSnapshot Id) : ComparisonChange Id :=
  ⟨some item.claimId, none, .ambiguous, "comparison_key_not_unique"⟩

def ambiguousPrior (item : TargetSnapshot Id) : ComparisonChange Id :=
  ⟨none, some item.claimId, .ambiguous, "comparison_key_not_unique"⟩

def currentChanges : List (TargetSnapshot Id) → List (TargetSnapshot Id) →
    List (ComparisonChange Id)
  | [item], [] => [⟨some item.claimId, none, .new, "target_new_in_current_version"⟩]
  | [item], [earlier] =>
    if item.contentSha256 ≠ earlier.contentSha256 then
      [⟨some item.claimId, some earlier.claimId, .modified, "target_content_changed"⟩]
    else
      []
  | items, earlier => items.map ambiguousCurrent ++ earlier.map ambiguousPrior

def priorChanges : List (TargetSnapshot Id) → List (ComparisonChange Id)
  | [item] => [⟨none, some item.claimId, .removedCandidate, "target_missing_from_current_version"⟩]
  | items => items.map ambiguousPrior

def changes (current prior : List (TargetSnapshot Id)) : List (ComparisonChange Id) :=
  (sortedKeys current).flatMap (fun key => currentChanges (byKey current key) (byKey prior key)) ++
    ((sortedKeys prior).filter fun key => key ∉ sortedKeys current).flatMap fun key =>
      priorChanges (byKey prior key)

/-- `compare_years`. -/
def compareYears [DecidableEq Id] (current : Version Id (TargetSnapshot Id))
    (prior : Option (Version Id (TargetSnapshot Id))) (comparisonId : Id) :
    Except ComparisonError (Comparison Id) := do
  refuse (current.approved = false ∨ prior.any (!·.approved))
    (.valueError "approved versions are required")
  match prior with
  | none => return ⟨comparisonId, .notRun, some "prior_document_version_missing", []⟩
  | some prior =>
    refuse (current.tenantId ≠ prior.tenantId ∨ current.companyId ≠ prior.companyId)
      (.valueError "version identity mismatch")
    if current.reportYear ≠ prior.reportYear + 1 then
      return ⟨comparisonId, .notRun, some "prior_document_version_not_previous_year", []⟩
    return ⟨comparisonId, .completed, none, changes current.targets prior.targets⟩

def compareClaims [DecidableEq Id] (hash : String → List String → String)
    (current prior : Version Id (GoalClaim Id)) (comparisonId : Id) :
    Except ComparisonError (Comparison Id) :=
  let made := do
    let currentTargets ← current.targets.mapM (target hash)
    let priorTargets ← prior.targets.mapM (target hash)
    return (currentTargets, priorTargets)
  match made with
  | .ok (currentTargets, priorTargets) => do
    let current ← approvedVersion current currentTargets
    let prior ← approvedVersion prior priorTargets
    compareYears current (some prior) comparisonId
  | .error (.rejected _) =>
    .ok ⟨comparisonId, .notRun, some "target_comparison_key_missing", []⟩
  | .error error => .error error

/-! ### What a comparison says of its claims -/

section Entries

variable [DecidableEq Id] (changes : List (ComparisonChange Id))

def currentEntries (claimId : Id) : List (ComparisonChange Id) :=
  changes.filter (·.currentClaimId = some claimId)

def priorEntries (claimId : Id) : List (ComparisonChange Id) :=
  changes.filter (·.priorClaimId = some claimId)

def Modified (claim earlier : GoalClaim Id) : Prop :=
  ∃ change ∈ changes, change.currentClaimId = some claim.claimId ∧
    change.priorClaimId = some earlier.claimId

def Unchanged (claim earlier : GoalClaim Id) : Prop :=
  comparisonKey claim = comparisonKey earlier ∧ currentEntries changes claim.claimId = [] ∧
    priorEntries changes earlier.claimId = []

end Entries

def Alone {κ : Type} (key : GoalClaim Id → κ) (current prior : List (GoalClaim Id))
    (claim earlier : GoalClaim Id) : Prop :=
  key claim = key earlier ∧ (∀ other ∈ current, key other = key claim → other = claim) ∧
    ∀ other ∈ prior, key other = key claim → other = earlier

def topicSet (claim : GoalClaim Id) : Finset String :=
  claim.topicIds.toFinset

def Regraded (claim other : GoalClaim Id) : Prop :=
  other.claimId = claim.claimId ∧ other.quote = claim.quote ∧
    other.topicIds.Perm claim.topicIds ∧ other.decisionRevision = claim.decisionRevision

def Reordered (version other : Version Id (GoalClaim Id)) : Prop :=
  ∃ targets, version.targets.Perm targets ∧ List.Forall₂ Regraded targets other.targets ∧
    other = { version with targets := other.targets }

structure ComparesByTopics [DecidableEq Id] (hash : String → List String → String)
    (current prior : Version Id (GoalClaim Id)) (comparisonId : Id)
    (result : Comparison Id) : Prop where
  compared : compareClaims hash current prior comparisonId = .ok result
  completed : result.status = .completed
  current_parted : ∀ claim ∈ current.targets,
    (∃ earlier ∈ prior.targets, Unchanged result.changes claim earlier) ∨
      ∃ change, currentEntries result.changes claim.claimId = [change] ∧
        change.type ≠ .removedCandidate
  prior_parted : ∀ earlier ∈ prior.targets,
    (∃ claim ∈ current.targets, Unchanged result.changes claim earlier) ∨
      ∃ change, priorEntries result.changes earlier.claimId = [change] ∧ change.type ≠ .new
  paired : ∀ claim ∈ current.targets, ∀ earlier ∈ prior.targets,
    Unchanged result.changes claim earlier ∨ Modified result.changes claim earlier ↔
      Alone topicSet current.targets prior.targets claim earlier
  quoted : ∀ claim ∈ current.targets, ∀ earlier ∈ prior.targets,
    Unchanged result.changes claim earlier → claim.quote = earlier.quote
  invariant : ∀ current' prior', Reordered current current' → Reordered prior prior' →
    ∃ result', compareClaims hash current' prior' comparisonId = .ok result' ∧
      result'.status = result.status ∧ result'.reason = result.reason ∧
      result'.changes.Perm result.changes

structure AdjacentYears (current prior : Version Id (GoalClaim Id)) : Prop where
  tenant : current.tenantId = prior.tenantId
  company : current.companyId = prior.companyId
  year : current.reportYear = prior.reportYear + 1
  supported : 1900 ≤ prior.reportYear ∧ current.reportYear ≤ 2200
  current_ids : (current.targets.map GoalClaim.claimId).Nodup
  prior_ids : (prior.targets.map GoalClaim.claimId).Nodup
  revised : ∀ claim ∈ current.targets ++ prior.targets, 1 ≤ claim.decisionRevision

structure Keyed (current prior : Version Id (GoalClaim Id)) : Prop where
  nonblank : ∀ claim ∈ current.targets ++ prior.targets, claim.topicIds ≠ [] ∧
    PyText.nonBlank (comparisonKey claim) = true
  faithful : ∀ claim ∈ current.targets, ∀ earlier ∈ prior.targets,
    Alone comparisonKey current.targets prior.targets claim earlier ↔
      Alone topicSet current.targets prior.targets claim earlier

/-! ### The entries of one key -/

variable {key : String} {earlier : List (TargetSnapshot Id)} {change : ComparisonChange Id}

section Groups

variable {current prior : List (TargetSnapshot Id)} {item : TargetSnapshot Id}

theorem filter_eq_singleton {α κ : Type} [DecidableEq κ] {key : α → κ} {items : List α}
    (hnodup : (items.map key).Nodup) {item : α} (hitem : item ∈ items) :
    items.filter (key · = key item) = [item] := by
  induction items with
  | nil => cases hitem
  | cons head tail ih =>
    rw [List.map_cons, List.nodup_cons] at hnodup
    by_cases hkey : key head = key item
    · obtain rfl : item = head := by
        rcases List.mem_cons.mp hitem with hhead | htail
        · exact hhead
        · exact absurd (hkey ▸ List.mem_map_of_mem htail) hnodup.1
      have hnone : tail.filter (key · = key item) = [] := by
        simp only [List.filter_eq_nil_iff, decide_eq_true_eq]
        exact fun other hother heq => hnodup.1 (heq ▸ List.mem_map_of_mem hother)
      simp [hnone]
    · rw [List.filter_cons_of_neg (by simpa using hkey)]
      exact ih hnodup.2 ((List.mem_cons.mp hitem).resolve_left (by rintro rfl; exact hkey rfl))

theorem filter_flatMap_only {κ β : Type} {keys : List κ} {f : κ → List β} {test : β → Bool}
    {key : κ} (hkey : key ∈ keys) (hnodup : keys.Nodup)
    (honly : ∀ other ∈ keys, other ≠ key → (f other).filter test = []) :
    (keys.flatMap f).filter test = (f key).filter test := by
  induction keys with
  | nil => cases hkey
  | cons head tail ih =>
    rw [List.nodup_cons] at hnodup
    rw [List.flatMap_cons, List.filter_append]
    rcases List.mem_cons.mp hkey with rfl | htail
    · have hnone : (tail.flatMap f).filter test = [] := by
        rw [List.filter_flatMap, List.flatMap_eq_nil_iff]
        intro other hother
        exact honly other (List.mem_cons_of_mem _ hother) (by rintro rfl; exact hnodup.1 hother)
      rw [hnone, List.append_nil]
    · rw [honly head List.mem_cons_self (by rintro rfl; exact hnodup.1 htail), List.nil_append]
      exact ih htail hnodup.2 fun other hother => honly other (List.mem_cons_of_mem _ hother)

theorem mem_sortedKeys :
    key ∈ sortedKeys current ↔ ∃ item ∈ current, item.comparisonKey = key := by
  simp [sortedKeys]

theorem sortedKeys_nodup : (sortedKeys current).Nodup :=
  (sortedBy_perm id _).nodup_iff.mpr (List.nodup_dedup _)

theorem mem_byKey : item ∈ byKey current key ↔
    item ∈ current ∧ item.comparisonKey = key := by
  simp [byKey]

theorem byKey_nodup (h : (current.map TargetSnapshot.claimId).Nodup) :
    ((byKey current key).map TargetSnapshot.claimId).Nodup :=
  h.sublist (List.filter_sublist.map _)

variable {items : List (TargetSnapshot Id)}

theorem currentChanges_ambiguous (h : ¬(items.length = 1 ∧ earlier.length ≤ 1)) :
    currentChanges items earlier = items.map ambiguousCurrent ++ earlier.map ambiguousPrior := by
  unfold currentChanges
  split
  · exact absurd ⟨rfl, Nat.zero_le _⟩ h
  · exact absurd ⟨rfl, Nat.le_refl _⟩ h
  · rfl

theorem priorChanges_ambiguous (h : items.length ≠ 1) :
    priorChanges items = items.map ambiguousPrior := by
  unfold priorChanges
  split
  · exact absurd rfl h
  · rfl

theorem named_of_mem_currentChanges (h : change ∈ currentChanges items earlier) :
    (∀ claimId, change.currentClaimId = some claimId → ∃ item ∈ items, item.claimId = claimId) ∧
      ∀ claimId, change.priorClaimId = some claimId → ∃ item ∈ earlier, item.claimId = claimId := by
  unfold currentChanges at h
  split at h
  · simp_all
  · split_ifs at h <;> simp_all
  · rcases List.mem_append.mp h with hmem | hmem <;>
      obtain ⟨item, hitem, rfl⟩ := List.mem_map.mp hmem <;>
      simp [ambiguousCurrent, ambiguousPrior] <;> exact ⟨item, hitem, rfl⟩

theorem named_of_mem_priorChanges (h : change ∈ priorChanges items) :
    change.currentClaimId = none ∧
      ∃ item ∈ items, change.priorClaimId = some item.claimId := by
  unfold priorChanges at h
  split at h
  · simp_all
  · obtain ⟨item, hitem, rfl⟩ := List.mem_map.mp h
    exact ⟨rfl, item, hitem, rfl⟩

variable [DecidableEq Id]

theorem currentEntries_changes (hids : (current.map TargetSnapshot.claimId).Nodup)
    (hitem : item ∈ current) :
    currentEntries (changes current prior) item.claimId =
      currentEntries (currentChanges (byKey current item.comparisonKey)
        (byKey prior item.comparisonKey)) item.claimId := by
  unfold currentEntries changes
  rw [List.filter_append, filter_flatMap_only (mem_sortedKeys.mpr ⟨item, hitem, rfl⟩)
    sortedKeys_nodup]
  · refine List.append_right_eq_self.mpr ?_
    rw [List.filter_flatMap, List.flatMap_eq_nil_iff]
    intro key _
    rw [List.filter_eq_nil_iff]
    intro change hchange
    simp [(named_of_mem_priorChanges hchange).1]
  · intro key _ hne
    rw [List.filter_eq_nil_iff]
    intro change hchange hnamed
    obtain ⟨other, hother, hid⟩ :=
      (named_of_mem_currentChanges hchange).1 item.claimId (by simpa using hnamed)
    obtain ⟨hmem, hkey⟩ := mem_byKey.mp hother
    obtain rfl := List.inj_on_of_nodup_map hids hmem hitem hid
    exact hne hkey.symm

theorem priorEntries_changes (hids : (prior.map TargetSnapshot.claimId).Nodup)
    (hitem : item ∈ prior) :
    priorEntries (changes current prior) item.claimId =
      priorEntries (if item.comparisonKey ∈ sortedKeys current then
        currentChanges (byKey current item.comparisonKey) (byKey prior item.comparisonKey)
      else priorChanges (byKey prior item.comparisonKey)) item.claimId := by
  have hown : ∀ {key other}, other ∈ byKey prior key → other.claimId = item.claimId →
      key = item.comparisonKey := by
    intro key other hother hid
    obtain ⟨hmem, hkey⟩ := mem_byKey.mp hother
    obtain rfl := List.inj_on_of_nodup_map hids hmem hitem hid
    exact hkey.symm
  have hfirst : ∀ key ≠ item.comparisonKey, (currentChanges (byKey current key)
      (byKey prior key)).filter (·.priorClaimId = some item.claimId) = [] := by
    intro key hne
    rw [List.filter_eq_nil_iff]
    intro change hchange hnamed
    obtain ⟨other, hother, hid⟩ :=
      (named_of_mem_currentChanges hchange).2 item.claimId (by simpa using hnamed)
    exact hne (hown hother hid)
  have hsecond : ∀ key ≠ item.comparisonKey,
      (priorChanges (byKey prior key)).filter (·.priorClaimId = some item.claimId) = [] := by
    intro key hne
    rw [List.filter_eq_nil_iff]
    intro change hchange hnamed
    obtain ⟨-, other, hother, hid⟩ := named_of_mem_priorChanges hchange
    exact hne (hown hother (by simpa [hid] using hnamed))
  unfold priorEntries changes
  rw [List.filter_append]
  split_ifs with hkey
  · rw [filter_flatMap_only hkey sortedKeys_nodup fun key _ hne => hfirst key hne]
    refine List.append_right_eq_self.mpr ?_
    rw [List.filter_flatMap, List.flatMap_eq_nil_iff]
    intro key hmem
    exact hsecond key (by rintro rfl; simp [hkey] at hmem)
  · rw [filter_flatMap_only (f := fun key => priorChanges (byKey prior key))
      (List.mem_filter.mpr ⟨mem_sortedKeys.mpr ⟨item, hitem, rfl⟩, by simpa using hkey⟩)
      (sortedKeys_nodup.filter _) fun key _ hne => hsecond key hne]
    refine List.append_left_eq_self.mpr ?_
    rw [List.filter_flatMap, List.flatMap_eq_nil_iff]
    intro key hmem
    exact hfirst key (by rintro rfl; exact hkey hmem)

theorem currentEntries_group (hids : (current.map TargetSnapshot.claimId).Nodup)
    (hitem : item ∈ current) :
    (∃ other, byKey current item.comparisonKey = [item] ∧
        byKey prior item.comparisonKey = [other] ∧ item.contentSha256 = other.contentSha256) ∨
      ∃ change, currentEntries (changes current prior) item.claimId = [change] ∧
        change.type ≠ .removedCandidate ∧ (change.priorClaimId = none ∨
          ∃ other, byKey current item.comparisonKey = [item] ∧
            byKey prior item.comparisonKey = [other] ∧
            change.priorClaimId = some other.claimId ∧
            item.contentSha256 ≠ other.contentSha256) := by
  have hgroup : ((byKey current item.comparisonKey).map TargetSnapshot.claimId).Nodup :=
    byKey_nodup hids
  have hmem : item ∈ byKey current item.comparisonKey := mem_byKey.mpr ⟨hitem, rfl⟩
  rw [currentEntries_changes hids hitem]
  generalize byKey current item.comparisonKey = items at hgroup hmem ⊢
  generalize byKey prior item.comparisonKey = earlier
  by_cases hsingle : items.length = 1 ∧ earlier.length ≤ 1
  · obtain ⟨hitems, hearlier⟩ := hsingle
    obtain ⟨found, rfl⟩ := List.length_eq_one_iff.mp hitems
    obtain rfl := List.mem_singleton.mp hmem
    rcases Nat.le_one_iff_eq_zero_or_eq_one.mp hearlier with hnone | hone
    · obtain rfl := List.length_eq_zero_iff.mp hnone
      exact Or.inr ⟨_, by simp [currentChanges, currentEntries]; rfl, by simp, Or.inl rfl⟩
    · obtain ⟨other, rfl⟩ := List.length_eq_one_iff.mp hone
      by_cases hcontent : item.contentSha256 = other.contentSha256
      · exact Or.inl ⟨other, rfl, rfl, hcontent⟩
      · refine Or.inr ⟨_, by simp [currentChanges, currentEntries, hcontent]; rfl, by simp, ?_⟩
        exact Or.inr ⟨other, rfl, rfl, rfl, hcontent⟩
  · refine Or.inr ⟨ambiguousCurrent item, ?_, by simp [ambiguousCurrent], Or.inl rfl⟩
    rw [currentChanges_ambiguous hsingle, currentEntries, List.filter_append]
    have hprior : (earlier.map ambiguousPrior).filter
        (·.currentClaimId = some item.claimId) = [] := by
      simp [List.filter_eq_nil_iff, ambiguousPrior]
    rw [hprior, List.append_nil, List.filter_map]
    have hown := filter_eq_singleton hgroup hmem
    simpa [Function.comp_def, ambiguousCurrent] using congrArg (List.map ambiguousCurrent) hown

theorem priorEntries_ambiguous {items earlier : List (TargetSnapshot Id)}
    (hids : (earlier.map TargetSnapshot.claimId).Nodup) (hitem : item ∈ earlier) :
    priorEntries (items.map ambiguousCurrent ++ earlier.map ambiguousPrior) item.claimId =
      [ambiguousPrior item] := by
  rw [priorEntries, List.filter_append]
  have hcurrent : (items.map ambiguousCurrent).filter
      (·.priorClaimId = some item.claimId) = [] := by
    simp [List.filter_eq_nil_iff, ambiguousCurrent]
  rw [hcurrent, List.nil_append, List.filter_map]
  have hown := filter_eq_singleton hids hitem
  simpa [Function.comp_def, ambiguousPrior] using congrArg (List.map ambiguousPrior) hown

/-- What a group says about a prior target. -/
theorem priorEntries_group (hids : (prior.map TargetSnapshot.claimId).Nodup)
    (hitem : item ∈ prior) :
    (∃ other, byKey current item.comparisonKey = [other] ∧
        byKey prior item.comparisonKey = [item] ∧ other.contentSha256 = item.contentSha256) ∨
      ∃ change, priorEntries (changes current prior) item.claimId = [change] ∧
        change.type ≠ .new := by
  have hgroup : ((byKey prior item.comparisonKey).map TargetSnapshot.claimId).Nodup :=
    byKey_nodup hids
  have hmem : item ∈ byKey prior item.comparisonKey := mem_byKey.mpr ⟨hitem, rfl⟩
  rw [priorEntries_changes hids hitem]
  generalize byKey prior item.comparisonKey = earlier at hgroup hmem ⊢
  generalize byKey current item.comparisonKey = items
  split_ifs
  · by_cases hsingle : items.length = 1 ∧ earlier.length ≤ 1
    · obtain ⟨hitems, hearlier⟩ := hsingle
      obtain ⟨other, rfl⟩ := List.length_eq_one_iff.mp hitems
      obtain ⟨found, rfl⟩ := List.length_eq_one_iff.mp
        (le_antisymm hearlier (List.length_pos_of_mem hmem))
      obtain rfl := List.mem_singleton.mp hmem
      by_cases hcontent : other.contentSha256 = item.contentSha256
      · exact Or.inl ⟨other, rfl, rfl, hcontent⟩
      · exact Or.inr ⟨_, by simp [currentChanges, priorEntries, hcontent]; rfl, by simp⟩
    · rw [currentChanges_ambiguous hsingle]
      exact Or.inr ⟨_, priorEntries_ambiguous hgroup hmem, by simp [ambiguousPrior]⟩
  · by_cases hone : earlier.length = 1
    · obtain ⟨found, rfl⟩ := List.length_eq_one_iff.mp hone
      obtain rfl := List.mem_singleton.mp hmem
      exact Or.inr ⟨_, by simp [priorChanges, priorEntries]; rfl, by simp⟩
    · rw [priorChanges_ambiguous hone]
      exact Or.inr ⟨_, @priorEntries_ambiguous _ _ _ [] _ hgroup hmem, by simp [ambiguousPrior]⟩

theorem unmentioned_iff {earlier : TargetSnapshot Id}
    (hcurrent : (current.map TargetSnapshot.claimId).Nodup)
    (hprior : (prior.map TargetSnapshot.claimId).Nodup) (hitem : item ∈ current)
    (hearlier : earlier ∈ prior) :
    item.comparisonKey = earlier.comparisonKey ∧
        currentEntries (changes current prior) item.claimId = [] ∧
        priorEntries (changes current prior) earlier.claimId = [] ↔
      byKey current item.comparisonKey = [item] ∧ byKey prior item.comparisonKey = [earlier] ∧
        item.contentSha256 = earlier.contentSha256 := by
  constructor
  · rintro ⟨hkey, hentries, -⟩
    rcases currentEntries_group hcurrent hitem with ⟨other, hgroup, hother, hcontent⟩ |
      ⟨change, hchange, -⟩
    · have hmem : earlier ∈ byKey prior item.comparisonKey := mem_byKey.mpr ⟨hearlier, hkey.symm⟩
      rw [hother, List.mem_singleton] at hmem
      subst hmem
      exact ⟨hgroup, hother, hcontent⟩
    · rw [hentries] at hchange
      cases hchange
  · rintro ⟨hgroup, hother, hcontent⟩
    have hkey : earlier.comparisonKey = item.comparisonKey :=
      (mem_byKey.mp (hother ▸ List.mem_singleton_self earlier)).2
    refine ⟨hkey.symm, ?_, ?_⟩
    · rw [currentEntries_changes hcurrent hitem, hgroup, hother]
      simp [currentChanges, currentEntries, hcontent]
    · rw [priorEntries_changes hprior hearlier, hkey,
        if_pos (mem_sortedKeys.mpr ⟨item, hitem, rfl⟩), hgroup, hother]
      simp [currentChanges, priorEntries, hcontent]

theorem named_together_iff {earlier : TargetSnapshot Id}
    (hcurrent : (current.map TargetSnapshot.claimId).Nodup)
    (hprior : (prior.map TargetSnapshot.claimId).Nodup) (hitem : item ∈ current)
    (hearlier : earlier ∈ prior) :
    (∃ change ∈ changes current prior, change.currentClaimId = some item.claimId ∧
        change.priorClaimId = some earlier.claimId) ↔
      byKey current item.comparisonKey = [item] ∧ byKey prior item.comparisonKey = [earlier] ∧
        item.contentSha256 ≠ earlier.contentSha256 := by
  constructor
  · rintro ⟨change, hchange, hnamed, hwith⟩
    have hentry : change ∈ currentEntries (changes current prior) item.claimId :=
      List.mem_filter.mpr ⟨hchange, by simpa using hnamed⟩
    rcases currentEntries_group hcurrent hitem with ⟨other, hgroup, hother, hcontent⟩ |
      ⟨found, hfound, -, hnone | ⟨other, hgroup, hother, hid, hcontent⟩⟩
    · rw [currentEntries_changes hcurrent hitem, hgroup, hother] at hentry
      simp [currentChanges, currentEntries, hcontent] at hentry
    all_goals
      rw [hfound, List.mem_singleton] at hentry
      subst hentry
    · rw [hnone] at hwith
      cases hwith
    · have hmem : other ∈ prior := (mem_byKey.mp (hother ▸ List.mem_singleton_self other)).1
      obtain rfl := List.inj_on_of_nodup_map hprior hmem hearlier
        (Option.some.inj (hid.symm.trans hwith))
      exact ⟨hgroup, hother, hcontent⟩
  · rintro ⟨hgroup, hother, hcontent⟩
    refine ⟨⟨some item.claimId, some earlier.claimId, .modified, "target_content_changed"⟩, ?_,
      rfl, rfl⟩
    refine List.mem_append_left _ (List.mem_flatMap.mpr ⟨item.comparisonKey,
      mem_sortedKeys.mpr ⟨item, hitem, rfl⟩, ?_⟩)
    rw [hgroup, hother]
    simp [currentChanges, hcontent]

end Groups

/-! ### Order and grades -/

variable {claim : GoalClaim Id} {version : Version Id (GoalClaim Id)} {other : GoalClaim Id}

section Invariance

variable {current prior current' prior' items items' : List (TargetSnapshot Id)}

def ungraded (item : TargetSnapshot Id) : TargetSnapshot Id :=
  { item with evidenceGrade := none }

theorem currentChanges_ungraded :
    currentChanges (items.map ungraded) (earlier.map ungraded) = currentChanges items earlier := by
  by_cases hsingle : items.length = 1 ∧ earlier.length ≤ 1
  · obtain ⟨item, rfl⟩ := List.length_eq_one_iff.mp hsingle.1
    rcases Nat.le_one_iff_eq_zero_or_eq_one.mp hsingle.2 with hnone | hone
    · obtain rfl := List.length_eq_zero_iff.mp hnone
      rfl
    · obtain ⟨other, rfl⟩ := List.length_eq_one_iff.mp hone
      rfl
  · rw [currentChanges_ambiguous hsingle, currentChanges_ambiguous (by simpa using hsingle)]
    simp only [List.map_map]
    rfl

theorem priorChanges_ungraded : priorChanges (items.map ungraded) = priorChanges items := by
  by_cases hone : items.length = 1
  · obtain ⟨item, rfl⟩ := List.length_eq_one_iff.mp hone
    rfl
  · rw [priorChanges_ambiguous hone, priorChanges_ambiguous (by simpa using hone)]
    simp only [List.map_map]
    rfl

theorem changes_ungraded :
    changes (current.map ungraded) (prior.map ungraded) = changes current prior := by
  have hkeys : ∀ targets : List (TargetSnapshot Id),
      sortedKeys (targets.map ungraded) = sortedKeys targets := by
    simp [sortedKeys, Function.comp_def, ungraded]
  have hgroup : ∀ (targets : List (TargetSnapshot Id)) (key : String),
      byKey (targets.map ungraded) key = (byKey targets key).map ungraded := by
    intro targets key
    rw [byKey, List.filter_map]
    rfl
  simp only [changes, hkeys, hgroup, currentChanges_ungraded, priorChanges_ungraded]

theorem currentChanges_perm {earlier' : List (TargetSnapshot Id)}
    (hitems : items.Perm items') (hearlier : earlier.Perm earlier') :
    (currentChanges items earlier).Perm (currentChanges items' earlier') := by
  by_cases hsingle : items.length = 1 ∧ earlier.length ≤ 1
  · obtain ⟨item, rfl⟩ := List.length_eq_one_iff.mp hsingle.1
    obtain rfl := List.singleton_perm.mp hitems
    rcases Nat.le_one_iff_eq_zero_or_eq_one.mp hsingle.2 with hnone | hone
    · obtain rfl := List.length_eq_zero_iff.mp hnone
      obtain rfl := List.nil_perm.mp hearlier
      rfl
    · obtain ⟨other, rfl⟩ := List.length_eq_one_iff.mp hone
      obtain rfl := List.singleton_perm.mp hearlier
      rfl
  · have hsingle' := hsingle
    rw [hitems.length_eq, hearlier.length_eq] at hsingle'
    rw [currentChanges_ambiguous hsingle, currentChanges_ambiguous hsingle']
    exact (hitems.map _).append (hearlier.map _)

theorem priorChanges_perm (hitems : items.Perm items') :
    (priorChanges items).Perm (priorChanges items') := by
  by_cases hone : items.length = 1
  · obtain ⟨item, rfl⟩ := List.length_eq_one_iff.mp hone
    obtain rfl := List.singleton_perm.mp hitems
    rfl
  · rw [priorChanges_ambiguous hone, priorChanges_ambiguous (hitems.length_eq ▸ hone)]
    exact hitems.map _

theorem changes_perm (hcurrent : current.Perm current') (hprior : prior.Perm prior') :
    (changes current prior).Perm (changes current' prior') := by
  have hkeys : ∀ {targets targets' : List (TargetSnapshot Id)}, targets.Perm targets' →
      sortedKeys targets = sortedKeys targets' := by
    intro targets targets' h
    refine sortedBy_eq_of_perm (h.map _).dedup ?_
    rw [List.map_id]
    exact List.nodup_dedup _
  unfold changes
  rw [hkeys hcurrent, hkeys hprior]
  refine List.Perm.append ?_ ?_
  · exact List.Perm.flatMap_left _ fun key _ =>
      currentChanges_perm (hcurrent.filter _) (hprior.filter _)
  · exact List.Perm.flatMap_left _ fun key _ => priorChanges_perm (hprior.filter _)

theorem sorted_topics {topics topics' : List String} (h : topics.Perm topics') :
    sortedBy id topics = sortedBy id topics' :=
  List.Perm.eq_of_pairwise (fun _ _ _ _ => le_antisymm) (sortedBy_pairwise id topics)
    (sortedBy_pairwise id topics')
    ((sortedBy_perm id topics).trans (h.trans (sortedBy_perm id topics').symm))

theorem ungraded_snapshot {hash : String → List String → String} (h : Regraded claim other) :
    ungraded (snapshot hash other) = ungraded (snapshot hash claim) := by
  obtain ⟨hid, hquote, htopics, hrevision⟩ := h
  simp [ungraded, snapshot, comparisonKey, hid, hquote, hrevision, sorted_topics htopics]

theorem Regraded.keyed (h : Regraded claim other)
    (hkeyed : claim.topicIds ≠ [] ∧ PyText.nonBlank (comparisonKey claim) = true) :
    other.topicIds ≠ [] ∧ PyText.nonBlank (comparisonKey other) = true := by
  obtain ⟨-, -, htopics, -⟩ := h
  rw [comparisonKey, sorted_topics htopics]
  exact ⟨fun hnil => hkeyed.1 (List.nil_perm.mp (hnil ▸ htopics)), hkeyed.2⟩

theorem Reordered.targets_perm {other : Version Id (GoalClaim Id)}
    (h : Reordered version other) (hash : String → List String → String) :
    ((other.targets.map (snapshot hash)).map ungraded).Perm
      ((version.targets.map (snapshot hash)).map ungraded) := by
  obtain ⟨targets, hperm, hregraded, -⟩ := h
  refine List.Perm.trans (List.Perm.of_eq ?_) ((hperm.symm.map _).map _)
  generalize other.targets = others at hregraded
  clear hperm
  induction hregraded with
  | nil => rfl
  | cons hhead _ ih => simp [ungraded_snapshot hhead, ih]

theorem Reordered.exists_regraded {other : Version Id (GoalClaim Id)}
    (h : Reordered version other) (hclaim : claim ∈ other.targets) :
    ∃ original ∈ version.targets, Regraded original claim := by
  obtain ⟨targets, hperm, hregraded, -⟩ := h
  simp only [hperm.mem_iff]
  clear hperm
  generalize other.targets = others at hregraded hclaim
  induction hregraded with
  | nil => cases hclaim
  | cons hhead _ ih =>
    rcases List.mem_cons.mp hclaim with rfl | htail
    · exact ⟨_, List.mem_cons_self, hhead⟩
    · obtain ⟨original, horiginal, hsame⟩ := ih htail
      exact ⟨original, List.mem_cons_of_mem _ horiginal, hsame⟩

end Invariance

/-! ### The whole comparison -/

variable {claims : List (GoalClaim Id)}

section Whole

variable {hash : String → List String → String} {current prior : Version Id (GoalClaim Id)}

theorem target_ok_iff {item : TargetSnapshot Id} :
    target hash claim = .ok item ↔ claim.topicIds ≠ [] ∧
      PyText.nonBlank (comparisonKey claim) = true ∧ 1 ≤ claim.decisionRevision ∧
        snapshot hash claim = item := by
  simp only [target, bind_ok_iff, refuse_ok_iff, pure_ok_iff, Bool.not_eq_false, not_lt]
  exact ⟨fun ⟨_, htopics, _, hkey, _, hrevision, hitem⟩ => ⟨htopics, hkey, hrevision, hitem⟩,
    fun ⟨htopics, hkey, hrevision, hitem⟩ => ⟨⟨⟩, htopics, ⟨⟩, hkey, ⟨⟩, hrevision, hitem⟩⟩

theorem targets_ok_iff {items : List (TargetSnapshot Id)} :
    claims.mapM (target hash) = .ok items ↔
      (∀ claim ∈ claims, claim.topicIds ≠ [] ∧ PyText.nonBlank (comparisonKey claim) = true ∧
        1 ≤ claim.decisionRevision) ∧ claims.map (snapshot hash) = items := by
  rw [mapM_ok_iff]
  constructor
  · intro h
    induction h with
    | nil => simp
    | cons hhead _ ih =>
      obtain ⟨htopics, hkey, hrevision, rfl⟩ := target_ok_iff.mp hhead
      simpa [htopics, hkey, hrevision] using ih
  · rintro ⟨hall, rfl⟩
    rw [List.forall₂_map_right_iff, List.forall₂_same]
    intro claim hclaim
    obtain ⟨htopics, hkey, hrevision⟩ := hall claim hclaim
    exact target_ok_iff.mpr ⟨htopics, hkey, hrevision, rfl⟩

theorem AdjacentYears.reordered {current' prior' : Version Id (GoalClaim Id)}
    (hyears : AdjacentYears current prior) (hcurrent : Reordered current current')
    (hprior : Reordered prior prior') : AdjacentYears current' prior' := by
  have hids : ∀ {version other : Version Id (GoalClaim Id)}, Reordered version other →
      (version.targets.map GoalClaim.claimId).Nodup →
        (other.targets.map GoalClaim.claimId).Nodup := by
    intro version other h hnodup
    have hperm := (h.targets_perm fun _ _ => "").map TargetSnapshot.claimId
    simp only [List.map_map] at hperm
    exact hperm.nodup_iff.mpr hnodup
  obtain ⟨targets, -, -, heq⟩ := id hcurrent
  obtain ⟨earlier, -, -, heq'⟩ := id hprior
  refine ⟨?_, ?_, ?_, ?_, hids hcurrent hyears.current_ids, hids hprior hyears.prior_ids, ?_⟩
  · rw [heq, heq']
    exact hyears.tenant
  · rw [heq, heq']
    exact hyears.company
  · rw [heq, heq']
    exact hyears.year
  · rw [heq, heq']
    exact hyears.supported
  · intro claim hclaim
    rcases List.mem_append.mp hclaim with hmem | hmem
    · obtain ⟨original, horiginal, -, -, -, hrevision⟩ := hcurrent.exists_regraded hmem
      exact hrevision ▸ hyears.revised original (List.mem_append_left _ horiginal)
    · obtain ⟨original, horiginal, -, -, -, hrevision⟩ := hprior.exists_regraded hmem
      exact hrevision ▸ hyears.revised original (List.mem_append_right _ horiginal)

def Plain (claim : GoalClaim Id) : Prop :=
  claim.topicIds ≠ [] ∧ claim.topicIds.Nodup ∧ ∀ topic ∈ claim.topicIds, '|' ∉ topic.toList

theorem comparisonKey_eq_iff (h : Plain claim) (hother : Plain other) :
    comparisonKey claim = comparisonKey other ↔ topicSet claim = topicSet other := by
  have hsplit : ∀ {claim : GoalClaim Id}, Plain claim →
      (comparisonKey claim).toList.splitOn '|' =
        (sortedBy id claim.topicIds).map String.toList := by
    rintro claim ⟨hne, -, hfree⟩
    have hkey : (comparisonKey claim).toList =
        ['|'].intercalate ((sortedBy id claim.topicIds).map String.toList) := by
      unfold comparisonKey
      rw [String.toList_intercalate]
      rfl
    rw [hkey, List.splitOn_intercalate '|']
    · intro topic htopic
      obtain ⟨text, htext, rfl⟩ := List.mem_map.mp htopic
      exact hfree text (mem_sortedBy.mp htext)
    · intro hnil
      rw [List.map_eq_nil_iff] at hnil
      have hlength := (sortedBy_perm id claim.topicIds).length_eq
      rw [hnil] at hlength
      exact hne (List.length_eq_zero_iff.mp hlength.symm)
  constructor
  · intro hkeys
    have hsorted : sortedBy id claim.topicIds = sortedBy id other.topicIds := by
      have hsame := hsplit h
      rw [hkeys, hsplit hother] at hsame
      exact (List.map_injective_iff.mpr (fun _ _ => String.toList_inj.mp) hsame).symm
    have hperm : claim.topicIds.Perm other.topicIds :=
      (sortedBy_perm id _).symm.trans (hsorted ▸ sortedBy_perm id _)
    exact List.toFinset_eq_of_perm _ _ hperm
  · intro hsets
    have hperm := (List.toFinset_eq_iff_perm_dedup).mp hsets
    rw [h.2.1.dedup, hother.2.1.dedup] at hperm
    unfold comparisonKey
    rw [sortedBy_eq_of_perm hperm (by rw [List.map_id]; exact h.2.1)]

theorem alone_comparisonKey_iff
    (hplain : ∀ claim ∈ current.targets ++ prior.targets, Plain claim)
    {earlier : GoalClaim Id} (hclaim : claim ∈ current.targets)
    (hearlier : earlier ∈ prior.targets) :
    Alone comparisonKey current.targets prior.targets claim earlier ↔
      Alone topicSet current.targets prior.targets claim earlier := by
  have hown := hplain claim (List.mem_append_left _ hclaim)
  have hkeys : ∀ other ∈ current.targets ++ prior.targets,
      (comparisonKey other = comparisonKey claim ↔ topicSet other = topicSet claim) :=
    fun other hother => comparisonKey_eq_iff (hplain other hother) hown
  unfold Alone
  rw [comparisonKey_eq_iff hown (hplain earlier (List.mem_append_right _ hearlier))]
  refine and_congr_right' (and_congr ?_ ?_)
  · exact forall₂_congr fun other hother =>
      imp_congr_left (hkeys other (List.mem_append_left _ hother))
  · exact forall₂_congr fun other hother =>
      imp_congr_left (hkeys other (List.mem_append_right _ hother))

theorem keyed_iff_of_plain (hplain : ∀ claim ∈ current.targets ++ prior.targets, Plain claim) :
    Keyed current prior ↔ ∀ claim ∈ current.targets ++ prior.targets,
      PyText.nonBlank (comparisonKey claim) = true := by
  constructor
  · exact fun h claim hclaim => (h.nonblank claim hclaim).2
  · intro h
    exact ⟨fun claim hclaim => ⟨(hplain claim hclaim).1, h claim hclaim⟩,
      fun claim hclaim earlier hearlier => alone_comparisonKey_iff hplain hclaim hearlier⟩

variable [DecidableEq Id]

theorem approvedVersion_eq (hyear : 1900 ≤ version.reportYear ∧ version.reportYear ≤ 2200)
    (h : (version.targets.map GoalClaim.claimId).Nodup) :
    approvedVersion version (version.targets.map (snapshot hash)) =
      .ok { version with approved := true, targets := version.targets.map (snapshot hash) } := by
  refine bind_ok_iff.mpr ⟨⟨⟩, refuse_ok_iff.mpr (not_not.mpr hyear), ?_⟩
  refine bind_ok_iff.mpr ⟨⟨⟩, refuse_ok_iff.mpr (not_not.mpr ?_), rfl⟩
  rw [List.map_map]
  exact h

theorem compareClaims_completed_iff (hyears : AdjacentYears current prior) {comparisonId : Id}
    {result : Comparison Id} :
    compareClaims hash current prior comparisonId = .ok result ∧ result.status = .completed ↔
      (∀ claim ∈ current.targets ++ prior.targets, claim.topicIds ≠ [] ∧
        PyText.nonBlank (comparisonKey claim) = true) ∧
      result = ⟨comparisonId, .completed, none,
        changes (current.targets.map (snapshot hash)) (prior.targets.map (snapshot hash))⟩ := by
  have hcompared : (do
      let current ← approvedVersion current (current.targets.map (snapshot hash))
      let prior ← approvedVersion prior (prior.targets.map (snapshot hash))
      compareYears current (some prior) comparisonId) = .ok ⟨comparisonId, .completed, none,
        changes (current.targets.map (snapshot hash)) (prior.targets.map (snapshot hash))⟩ := by
    have hyear := hyears.year
    have hsupported := hyears.supported
    rw [approvedVersion_eq (by omega) hyears.current_ids,
      approvedVersion_eq (by omega) hyears.prior_ids]
    simp [compareYears, refuse, hyears.tenant, hyears.company, hyears.year, bind, Except.bind,
      pure, Except.pure]
  have hmade : ∀ {made}, (do
      let currentTargets ← current.targets.mapM (target hash)
      let priorTargets ← prior.targets.mapM (target hash)
      return (currentTargets, priorTargets)) = Except.ok made ↔
      (∀ claim ∈ current.targets ++ prior.targets, claim.topicIds ≠ [] ∧
        PyText.nonBlank (comparisonKey claim) = true) ∧
      (current.targets.map (snapshot hash), prior.targets.map (snapshot hash)) = made := by
    intro made
    simp only [bind_ok_iff, targets_ok_iff, pure_ok_iff]
    constructor
    · rintro ⟨_, ⟨hcurrent, rfl⟩, _, ⟨hprior, rfl⟩, rfl⟩
      refine ⟨fun claim hclaim => ?_, rfl⟩
      rcases List.mem_append.mp hclaim with hmem | hmem
      · exact ⟨(hcurrent claim hmem).1, (hcurrent claim hmem).2.1⟩
      · exact ⟨(hprior claim hmem).1, (hprior claim hmem).2.1⟩
    · rintro ⟨hall, rfl⟩
      refine ⟨_, ⟨fun claim hmem => ?_, rfl⟩, _, ⟨fun claim hmem => ?_, rfl⟩, rfl⟩
      · have hclaim := List.mem_append_left prior.targets hmem
        exact ⟨(hall claim hclaim).1, (hall claim hclaim).2, hyears.revised claim hclaim⟩
      · have hclaim := List.mem_append_right current.targets hmem
        exact ⟨(hall claim hclaim).1, (hall claim hclaim).2, hyears.revised claim hclaim⟩
  unfold compareClaims
  constructor
  · rintro ⟨h, hstatus⟩
    dsimp only at h
    split at h
    · obtain ⟨hall, hpair⟩ := hmade.mp (by assumption)
      cases hpair
      exact ⟨hall, Except.ok.inj (h.symm.trans hcompared)⟩
    · cases h
      cases hstatus
    · cases h
  · rintro ⟨hall, rfl⟩
    rw [hmade.mpr ⟨hall, rfl⟩]
    exact ⟨hcompared, rfl⟩

theorem byKey_eq_singleton_iff
    (hids : (claims.map GoalClaim.claimId).Nodup) (hclaim : claim ∈ claims) :
    byKey (claims.map (snapshot hash)) key = [snapshot hash claim] ↔
      comparisonKey claim = key ∧
        ∀ other ∈ claims, comparisonKey other = key → other = claim := by
  constructor
  · intro h
    have hmem : snapshot hash claim ∈ byKey (claims.map (snapshot hash)) key := by simp [h]
    refine ⟨(mem_byKey.mp hmem).2, fun other hother hkey => ?_⟩
    have hfound : snapshot hash other ∈ byKey (claims.map (snapshot hash)) key :=
      mem_byKey.mpr ⟨List.mem_map_of_mem hother, hkey⟩
    rw [h, List.mem_singleton] at hfound
    exact List.inj_on_of_nodup_map hids hother hclaim (congrArg TargetSnapshot.claimId hfound)
  · rintro ⟨rfl, halone⟩
    have hsame : claims.filter (comparisonKey · = comparisonKey claim) =
        claims.filter (GoalClaim.claimId · = claim.claimId) := by
      refine List.filter_congr fun other hother => decide_eq_decide.mpr ⟨fun h => ?_, fun h => ?_⟩
      · rw [halone other hother h]
      · rw [List.inj_on_of_nodup_map hids hother hclaim h]
    rw [byKey, List.filter_map]
    exact congrArg (List.map (snapshot hash)) (hsame.trans (filter_eq_singleton hids hclaim))

variable (hash) in
theorem compared_iff_alone (hyears : AdjacentYears current prior) {earlier : GoalClaim Id}
    (hclaim : claim ∈ current.targets) (hearlier : earlier ∈ prior.targets) :
    byKey (current.targets.map (snapshot hash)) (comparisonKey claim) = [snapshot hash claim] ∧
        byKey (prior.targets.map (snapshot hash)) (comparisonKey claim) =
          [snapshot hash earlier] ↔
      Alone comparisonKey current.targets prior.targets claim earlier := by
  rw [byKey_eq_singleton_iff hyears.current_ids hclaim,
    byKey_eq_singleton_iff hyears.prior_ids hearlier]
  exact ⟨fun ⟨⟨_, hcurrent⟩, hkey, hprior⟩ => ⟨hkey.symm, hcurrent, hprior⟩,
    fun ⟨hkey, hcurrent, hprior⟩ => ⟨⟨rfl, hcurrent⟩, hkey.symm, hprior⟩⟩

/-- Years compare as a complete partition by topic set exactly when the joined
key stands for it. -/
theorem comparesByTopics_iff
    (hhash : ∀ quote topics quote' topics', hash quote topics = hash quote' topics' →
      quote = quote' ∧ topics = topics')
    (hyears : AdjacentYears current prior) {comparisonId : Id} :
    (∃ result, ComparesByTopics hash current prior comparisonId result) ↔
      Keyed current prior := by
  have hcurrent : ((current.targets.map (snapshot hash)).map TargetSnapshot.claimId).Nodup := by
    rw [List.map_map]
    exact hyears.current_ids
  have hprior : ((prior.targets.map (snapshot hash)).map TargetSnapshot.claimId).Nodup := by
    rw [List.map_map]
    exact hyears.prior_ids
  have hsplit : ∀ claim ∈ current.targets, ∀ earlier ∈ prior.targets,
      let found := changes (current.targets.map (snapshot hash))
        (prior.targets.map (snapshot hash))
      (Unchanged found claim earlier ↔
        Alone comparisonKey current.targets prior.targets claim earlier ∧
          (snapshot hash claim).contentSha256 = (snapshot hash earlier).contentSha256) ∧
      (Modified found claim earlier ↔
        Alone comparisonKey current.targets prior.targets claim earlier ∧
          (snapshot hash claim).contentSha256 ≠ (snapshot hash earlier).contentSha256) := by
    intro claim hclaim earlier hearlier
    have hitem := List.mem_map_of_mem (f := snapshot hash) hclaim
    have hother := List.mem_map_of_mem (f := snapshot hash) hearlier
    rw [← compared_iff_alone hash hyears hclaim hearlier, and_assoc, and_assoc]
    exact ⟨unmentioned_iff hcurrent hprior hitem hother,
      named_together_iff hcurrent hprior hitem hother⟩
  have hpaired : ∀ claim ∈ current.targets, ∀ earlier ∈ prior.targets,
      (Unchanged (changes (current.targets.map (snapshot hash))
          (prior.targets.map (snapshot hash))) claim earlier ∨
        Modified (changes (current.targets.map (snapshot hash))
          (prior.targets.map (snapshot hash))) claim earlier) ↔
        Alone comparisonKey current.targets prior.targets claim earlier := by
    intro claim hclaim earlier hearlier
    obtain ⟨hunchanged, hmodified⟩ := hsplit claim hclaim earlier hearlier
    rw [hunchanged, hmodified, ← and_or_left, and_iff_left (em _)]
  constructor
  · rintro ⟨result, hresult⟩
    obtain ⟨hkeys, rfl⟩ :=
      (compareClaims_completed_iff hyears).mp ⟨hresult.compared, hresult.completed⟩
    exact ⟨hkeys, fun claim hclaim earlier hearlier =>
      (hpaired claim hclaim earlier hearlier).symm.trans
        (hresult.paired claim hclaim earlier hearlier)⟩
  · intro hkeyed
    obtain ⟨hcompared, hcompleted⟩ :=
      (compareClaims_completed_iff hyears).mpr ⟨hkeyed.nonblank, rfl⟩
    refine ⟨_, hcompared, hcompleted, ?_, ?_, ?_, ?_, ?_⟩
    · intro claim hclaim
      rcases currentEntries_group hcurrent (List.mem_map_of_mem hclaim) with
        ⟨other, hitems, hgroup, hcontent⟩ | ⟨change, hchange, htype, -⟩
      · obtain ⟨earlier, hearlier, rfl⟩ := List.mem_map.mp
          (mem_byKey.mp (hgroup ▸ List.mem_singleton_self other)).1
        exact Or.inl ⟨earlier, hearlier, (hsplit claim hclaim earlier hearlier).1.mpr
          ⟨(compared_iff_alone hash hyears hclaim hearlier).mp ⟨hitems, hgroup⟩, hcontent⟩⟩
      · exact Or.inr ⟨change, hchange, htype⟩
    · intro earlier hearlier
      rcases @priorEntries_group _ (current.targets.map (snapshot hash)) _ _ _ hprior
        (List.mem_map_of_mem hearlier) with
        ⟨other, hitems, hgroup, hcontent⟩ | ⟨change, hchange, htype⟩
      · have hother := mem_byKey.mp (hitems ▸ List.mem_singleton_self other)
        obtain ⟨claim, hclaim, rfl⟩ := List.mem_map.mp hother.1
        rw [← hother.2] at hitems hgroup
        exact Or.inl ⟨claim, hclaim, (hsplit claim hclaim earlier hearlier).1.mpr
          ⟨(compared_iff_alone hash hyears hclaim hearlier).mp ⟨hitems, hgroup⟩, hcontent⟩⟩
      · exact Or.inr ⟨change, hchange, htype⟩
    · intro claim hclaim earlier hearlier
      exact (hpaired claim hclaim earlier hearlier).trans
        (hkeyed.faithful claim hclaim earlier hearlier)
    · intro claim hclaim earlier hearlier hunchanged
      exact (hhash _ _ _ _ ((hsplit claim hclaim earlier hearlier).1.mp hunchanged).2).1
    · intro current' prior' hreordered hreordered'
      have hkeys : ∀ claim ∈ current'.targets ++ prior'.targets, claim.topicIds ≠ [] ∧
          PyText.nonBlank (comparisonKey claim) = true := by
        intro claim hclaim
        rcases List.mem_append.mp hclaim with hmem | hmem
        · obtain ⟨original, horiginal, hsame⟩ := hreordered.exists_regraded hmem
          exact hsame.keyed (hkeyed.nonblank original (List.mem_append_left _ horiginal))
        · obtain ⟨original, horiginal, hsame⟩ := hreordered'.exists_regraded hmem
          exact hsame.keyed (hkeyed.nonblank original (List.mem_append_right _ horiginal))
      refine ⟨_, ((compareClaims_completed_iff (hyears.reordered hreordered
        hreordered')).mpr ⟨hkeys, rfl⟩).1, rfl, rfl, ?_⟩
      have hperm := changes_perm (hreordered.targets_perm hash) (hreordered'.targets_perm hash)
      rwa [changes_ungraded, changes_ungraded] at hperm

end Whole

def openHash (quote : String) (topics : List String) : String :=
  String.ofList (Rendering.rendered (quote.toList :: topics.map String.toList))

theorem openHash_injective (quote : String) (topics : List String) (quote' : String)
    (topics' : List String) (h : openHash quote topics = openHash quote' topics') :
    quote = quote' ∧ topics = topics' := by
  have hfields := Rendering.rendered_injective (String.ofList_injective h)
  obtain ⟨hquote, htopics⟩ := List.cons.inj hfields
  exact ⟨String.toList_inj.mp hquote, List.map_injective_iff.mpr (fun _ _ => String.toList_inj.mp) htopics⟩

def oneTarget (year claimId : Nat) (quote : String) (topicIds : List String) :
    Version Nat (GoalClaim Nat) where
  tenantId := 0
  companyId := 0
  documentVersionId := year
  reportYear := year
  approved := true
  targets := [⟨claimId, quote, topicIds, 1, none⟩]

theorem comparesByTopics_reordered_topics :
    (∃ result, ComparesByTopics openHash (oneTarget 2026 1 "2040" ["net-zero", "climate"])
        (oneTarget 2025 2 "2050" ["climate", "net-zero"]) 0 result) ↔
      Keyed (oneTarget 2026 1 "2040" ["net-zero", "climate"])
        (oneTarget 2025 2 "2050" ["climate", "net-zero"]) := by
  have hyears : AdjacentYears (oneTarget 2026 1 "2040" ["net-zero", "climate"])
      (oneTarget 2025 2 "2050" ["climate", "net-zero"]) :=
    ⟨rfl, rfl, rfl, by decide, by decide, by decide, by simp [oneTarget]⟩
  exact comparesByTopics_iff openHash_injective hyears

theorem comparesByTopics_joined :
    ¬∃ result, ComparesByTopics openHash (oneTarget 2026 1 "2040" ["climate|water"])
      (oneTarget 2025 2 "2050" ["climate", "water"]) 0 result := by
  rintro ⟨result, hresult⟩
  obtain ⟨found, hfound, hchanges⟩ :
      Returns (compareClaims openHash (oneTarget 2026 1 "2040" ["climate|water"])
        (oneTarget 2025 2 "2050" ["climate", "water"]) 0)
      (·.changes = [⟨some 1, some 2, .modified, "target_content_changed"⟩]) := by
    decide +kernel
  obtain rfl := Except.ok.inj (hfound.symm.trans hresult.compared)
  have halone := (hresult.paired _ (List.mem_singleton_self _) _ (List.mem_singleton_self _)).mp
    (Or.inr ⟨_, hchanges ▸ List.mem_singleton_self _, rfl, rfl⟩)
  exact absurd halone.1 (by decide)

end ProofOps.Application.Comparisons
