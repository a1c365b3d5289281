import ProofOps.Foundation.Checked
import ProofOps.Foundation.PyText

/-!
# Activating a rule pack

`activate_rulepack` makes a validated pack the default of its tenant and mode and retires the
one before it; `record_ai_delegated_review` approves a pack and activates it.  Both are
functions of a registry, which they never change in place.  The runs of a registry are left
out: nothing here reads them.
-/

namespace ProofOps.Application.Rulepacks

open Foundation Foundation.Checked

/-- `RulePackRecord`. -/
structure RulePackRecord where
  (rulePackId tenantId version effectiveDate mode status ontologyVersion : String)
  sourceDocumentSha256 : String
  files : List String
  sha256 : String
  unresolvedGapIds : List String
  (approvedBy approvedAt : Option String)
  deriving DecidableEq

/-- `RulePackNotFound`. -/
inductive RulepackError where
  | valueError (message : String)
  | notFound
  | idempotencyConflict
  | stale (currentRevision : Nat)
  | integrity
  deriving DecidableEq

structure ActiveEntry where
  (tenantId mode rulePackId : String)

/-- `RulePackRegistry`. -/
structure Registry where
  packs : List RulePackRecord
  active : List ActiveEntry

/-- `ActivationRecord`. -/
structure ActivationRecord where
  beforePackId : Option String
  (afterPackId tenantId mode actor reason : String)

/-- `ReviewProvenance`. -/
structure ReviewProvenance where
  (reviewOrigin reviewer reviewedAt sourceAuthority packSha256 note : String)

structure PackRules (Files : Type) where
  validates : RulePackRecord → Files → List String → Bool
  isTzAwareIso : String → Bool
  toReason : ReviewProvenance → String

namespace Registry

variable (registry : Registry)

def getPack (tenantId rulePackId : String) : Except RulepackError RulePackRecord :=
  match registry.packs.find? fun pack => pack.rulePackId = rulePackId ∧ pack.tenantId = tenantId with
  | some pack => .ok pack
  | none => .error .notFound

def activePackId (tenantId mode : String) : Option String :=
  (registry.active.find? fun entry => entry.tenantId = tenantId ∧ entry.mode = mode).map
    ActiveEntry.rulePackId

def withActive (tenantId mode rulePackId : String) : Registry :=
  { registry with
    active := (registry.active.filter fun entry => ¬(entry.tenantId = tenantId ∧ entry.mode = mode)) ++
      [⟨tenantId, mode, rulePackId⟩] }

end Registry

def settle (tenantId mode : String) (currentId : Option String) (rulePackId : String)
    (existing : RulePackRecord) : RulePackRecord :=
  if existing.tenantId = tenantId ∧ existing.mode = mode ∧ some existing.rulePackId = currentId ∧
      existing.status = "active" then
    { existing with status := "retired" }
  else if existing.rulePackId = rulePackId ∧ existing.tenantId = tenantId then
    { existing with status := "active" }
  else existing

variable {Files : Type}

/-- `activate_rulepack`. -/
def activateRulepack (rules : PackRules Files) (registry : Registry) (rulePackId tenantId : String)
    (actor reason : String) (files : Files) (gapIds : List String) :
    Except RulepackError (Registry × ActivationRecord) := do
  refuse (actor = "" ∨ reason = "") (.valueError "activation requires actor and reason")
  let pack ← registry.getPack tenantId rulePackId
  refuse (pack.status = "retired") (.valueError "retired packs cannot be activated")
  refuse (pack.status ≠ "validated" ∧ ¬(pack.status = "active" ∧
      registry.activePackId tenantId pack.mode = some rulePackId))
    (.valueError "only status=validated packs can be activated (validate first)")
  refuse (PyText.truthy pack.approvedBy = false ∨ PyText.truthy pack.approvedAt = false)
    (.valueError "activation requires approved_by and approved_at")
  refuse (rules.validates pack files gapIds = false) (.valueError "rule pack failed validation")
  let currentId := registry.activePackId tenantId pack.mode
  let record : ActivationRecord :=
    { beforePackId := currentId, afterPackId := rulePackId, tenantId, mode := pack.mode, actor, reason }
  if currentId = some rulePackId then
    return (registry, record)
  else
    let packs := registry.packs.map (settle tenantId pack.mode currentId rulePackId)
    return (({ registry with packs } : Registry).withActive tenantId pack.mode rulePackId, record)

/-- A delegated review of a pack. -/
structure Review where
  (reviewer reviewedAt sourceAuthority note : String)

def reviewed (review : Review) (pack : RulePackRecord) : RulePackRecord :=
  { pack with
    approvedBy := some ("ai-delegated-review:" ++ review.reviewer)
    approvedAt := some review.reviewedAt }

def recordAiDelegatedReview (rules : PackRules Files) (registry : Registry)
    (rulePackId tenantId : String) (review : Review) (files : Files) (gapIds : List String) :
    Except RulepackError (Registry × ActivationRecord) := do
  refuse (PyText.nonBlank review.reviewer = false)
    (.valueError "AI-delegated review requires a non-blank reviewer")
  refuse (PyText.nonBlank review.sourceAuthority = false)
    (.valueError "AI-delegated review requires a non-blank source_authority")
  refuse (PyText.nonBlank review.note = false)
    (.valueError "AI-delegated review requires a non-blank note")
  refuse (rules.isTzAwareIso review.reviewedAt = false)
    (.valueError "AI-delegated review requires a timezone-aware ISO 8601 reviewed_at")
  let pack ← registry.getPack tenantId rulePackId
  refuse (pack.status ≠ "validated")
    (.valueError "only status=validated packs can receive an AI-delegated review")
  refuse (PyText.truthy pack.approvedBy = true)
    (.valueError "pack already has a human approved_by; AI-delegated review refused")
  let provenance : ReviewProvenance :=
    { reviewOrigin := "ai_project_interpretation", reviewer := review.reviewer
      reviewedAt := review.reviewedAt, sourceAuthority := review.sourceAuthority
      packSha256 := pack.sha256, note := review.note }
  let withReview : Registry :=
    { registry with packs := registry.packs.map fun p => if p = pack then reviewed review pack else p }
  activateRulepack rules withReview rulePackId tenantId review.reviewer
    (rules.toReason provenance) files gapIds

section Activates

variable {rules : PackRules Files} {registry updated : Registry} {tenantId rulePackId : String}
  {record : ActivationRecord} {files : Files} {gapIds : List String} {pack : RulePackRecord}

theorem getPack_ok (h : registry.getPack tenantId rulePackId = .ok pack) :
    pack ∈ registry.packs ∧ pack.rulePackId = rulePackId ∧ pack.tenantId = tenantId := by
  unfold Registry.getPack at h
  cases hfind : registry.packs.find? fun pack =>
      pack.rulePackId = rulePackId ∧ pack.tenantId = tenantId with
  | none =>
    rw [hfind] at h
    cases h
  | some found =>
    rw [hfind] at h
    cases h
    exact ⟨List.mem_of_find?_eq_some hfind, by simpa using List.find?_some hfind⟩

structure Consistent (registry : Registry) : Prop where
  unique : ∀ first ∈ registry.packs, ∀ second ∈ registry.packs,
    first.rulePackId = second.rulePackId → first.tenantId = second.tenantId → first = second
  default : ∀ pack ∈ registry.packs,
    registry.activePackId pack.tenantId pack.mode = some pack.rulePackId → pack.status = "active"

def Superseded (registry : Registry) (mode : String) (pack : RulePackRecord) : Prop :=
  pack.mode = mode ∧ pack.status = "active" ∧
    registry.activePackId pack.tenantId mode = some pack.rulePackId

structure Activates (registry updated : Registry) (tenantId rulePackId : String)
    (pack : RulePackRecord) (change : RulePackRecord → RulePackRecord) : Prop where
  mem : pack ∈ registry.packs
  id : pack.rulePackId = rulePackId
  tenant : pack.tenantId = tenantId
  status : pack.status = "validated" ∨ pack.status = "active"
  packs : updated.packs = registry.packs.map change
  candidate : (change pack).rulePackId = rulePackId ∧ (change pack).tenantId = tenantId ∧
    (change pack).mode = pack.mode ∧ (change pack).status = "active"
  same : ∀ other ∈ registry.packs, other.rulePackId ≠ rulePackId →
    ¬Superseded registry pack.mode other → change other = other
  retired : ∀ other ∈ registry.packs, other.rulePackId ≠ rulePackId → other.tenantId = tenantId →
    Superseded registry pack.mode other → change other = { other with status := "retired" }

theorem activateRulepack_ok {actor reason : String} (hconsistent : Consistent registry)
    (h : activateRulepack rules registry rulePackId tenantId actor reason files gapIds =
      .ok (updated, record)) :
    ∃ pack change, Activates registry updated tenantId rulePackId pack change := by
  replace h := rest_ok h
  obtain ⟨pack, hpack, h⟩ := bind_ok h
  replace h := rest_ok h
  obtain ⟨⟨⟩, hstatus, h⟩ := bind_ok h
  replace h := rest_ok h
  replace h := rest_ok h
  obtain ⟨hmem, rfl, rfl⟩ := getPack_ok hpack
  rw [refuse_ok_iff, not_and_or, not_not, not_not] at hstatus
  by_cases hcurrent : registry.activePackId pack.tenantId pack.mode = some pack.rulePackId
  · -- The pack is the default already, and nothing changes.
    rw [if_pos hcurrent] at h
    cases pure_ok h
    have hactive := hconsistent.default pack hmem hcurrent
    refine ⟨pack, fun other => other,
      { mem := hmem, id := rfl, tenant := rfl, status := Or.inr hactive
        packs := (List.map_id' _).symm
        candidate := ⟨rfl, rfl, rfl, hactive⟩
        same := fun _ _ _ _ => rfl
        retired := fun other _ hne htenant hsuperseded => ?_ }⟩
    have hother := hsuperseded.2.2
    rw [htenant, hcurrent] at hother
    exact absurd (Option.some.inj hother).symm hne
  · rw [if_neg hcurrent] at h
    cases pure_ok h
    have hvalidated : pack.status = "validated" :=
      hstatus.resolve_right fun hactive => hcurrent hactive.2
    refine ⟨pack, settle pack.tenantId pack.mode (registry.activePackId pack.tenantId pack.mode)
      pack.rulePackId,
      { mem := hmem, id := rfl, tenant := rfl, status := Or.inl hvalidated, packs := rfl
        candidate := ?_, same := fun other _ hne hnot => ?_
        retired := fun other _ _ htenant hsuperseded => ?_ }⟩
    · unfold settle
      rw [if_neg fun hold => hcurrent hold.2.2.1.symm, if_pos ⟨rfl, rfl⟩]
      exact ⟨rfl, rfl, rfl, rfl⟩
    · unfold settle
      rw [if_neg, if_neg fun hown => hne hown.1]
      rintro ⟨htenant, hmode, hid, hactive⟩
      exact hnot ⟨hmode, hactive, by rw [htenant]; exact hid.symm⟩
    · unfold settle
      obtain ⟨hmode, hactive, hdefault⟩ := hsuperseded
      rw [htenant] at hdefault
      rw [if_pos ⟨htenant, hmode, hdefault.symm, hactive⟩]

/-- So does a recorded review. -/
theorem recordAiDelegatedReview_ok {review : Review} (hconsistent : Consistent registry)
    (h : recordAiDelegatedReview rules registry rulePackId tenantId review files gapIds =
      .ok (updated, record)) :
    ∃ pack change, Activates registry updated tenantId rulePackId pack change := by
  replace h := rest_ok h
  replace h := rest_ok h
  replace h := rest_ok h
  replace h := rest_ok h
  obtain ⟨pack, hpack, h⟩ := bind_ok h
  obtain ⟨⟨⟩, hvalidated, h⟩ := bind_ok h
  obtain ⟨⟨⟩, -, hactivate⟩ := bind_ok h
  obtain ⟨hmem, hid, htenant⟩ := getPack_ok hpack
  rw [refuse_ok_iff, not_not] at hvalidated
  -- The approval leaves the identity, the mode and the status of a pack.
  let approve : RulePackRecord → RulePackRecord :=
    fun p => if p = pack then reviewed review pack else p
  have happrove : ∀ p, (approve p).rulePackId = p.rulePackId ∧
      (approve p).tenantId = p.tenantId ∧ (approve p).mode = p.mode ∧
      (approve p).status = p.status := by
    intro p
    by_cases hp : p = pack
    · subst hp
      simp [approve, reviewed]
    · simp [approve, hp]
  have hother : ∀ p ∈ registry.packs, p.rulePackId ≠ rulePackId → approve p = p := by
    intro p _ hne
    refine if_neg fun hp : p = pack => hne ?_
    rw [hp, hid]
  have happroved : Consistent { registry with packs := registry.packs.map approve } := by
    refine ⟨fun first hfirst second hsecond hsameId hsameTenant => ?_, fun p hp hdefault => ?_⟩
    · obtain ⟨p, hp, rfl⟩ := List.mem_map.mp hfirst
      obtain ⟨q, hq, rfl⟩ := List.mem_map.mp hsecond
      rw [(happrove p).1, (happrove q).1] at hsameId
      rw [(happrove p).2.1, (happrove q).2.1] at hsameTenant
      rw [hconsistent.unique p hp q hq hsameId hsameTenant]
    · obtain ⟨q, hq, rfl⟩ := List.mem_map.mp hp
      rw [(happrove q).2.2.2]
      rw [(happrove q).1, (happrove q).2.1, (happrove q).2.2.1] at hdefault
      exact hconsistent.default q hq hdefault
  obtain ⟨found, change, hactivates⟩ := activateRulepack_ok happroved hactivate
  obtain ⟨origin, horigin, rfl⟩ := List.mem_map.mp hactivates.mem
  have hfound : origin = pack :=
    hconsistent.unique origin horigin pack hmem
      (((happrove origin).1.symm.trans hactivates.id).trans hid.symm)
      (((happrove origin).2.1.symm.trans hactivates.tenant).trans htenant.symm)
  subst hfound
  refine ⟨origin, change ∘ approve,
    { mem := hmem, id := hid, tenant := htenant, status := Or.inl hvalidated
      packs := by rw [hactivates.packs, List.map_map]
      candidate := ?_, same := fun other hotherMem hne hnot => ?_
      retired := fun other hotherMem hne hotherTenant hsuperseded => ?_ }⟩
  · have hcandidate := hactivates.candidate
    rw [(happrove origin).2.2.1] at hcandidate
    exact hcandidate
  · have hsame := hother other hotherMem hne
    have hchange := hactivates.same other (List.mem_map.mpr ⟨other, hotherMem, hsame⟩) hne
    rw [(happrove origin).2.2.1] at hchange
    show change (approve other) = other
    rw [hsame]
    exact hchange hnot
  · have hsame := hother other hotherMem hne
    have hchange := hactivates.retired other (List.mem_map.mpr ⟨other, hotherMem, hsame⟩) hne
      hotherTenant
    rw [(happrove origin).2.2.1] at hchange
    show change (approve other) = _
    rw [hsame]
    exact hchange hsuperseded

theorem Activates.identity {change : RulePackRecord → RulePackRecord}
    (hconsistent : Consistent registry)
    (h : Activates registry updated tenantId rulePackId pack change) {other : RulePackRecord}
    (hother : other ∈ registry.packs) (htenant : other.tenantId = tenantId) :
    (change other).rulePackId = other.rulePackId ∧ (change other).tenantId = tenantId := by
  by_cases hid : other.rulePackId = rulePackId
  · obtain rfl : other = pack := hconsistent.unique other hother pack h.mem (hid.trans h.id.symm)
      (htenant.trans h.tenant.symm)
    exact ⟨h.candidate.1.trans hid.symm, h.candidate.2.1⟩
  · by_cases hsuperseded : Superseded registry pack.mode other
    · rw [h.retired other hother hid htenant hsuperseded]
      exact ⟨rfl, htenant⟩
    · rw [h.same other hother hid hsuperseded]
      exact ⟨rfl, htenant⟩

end Activates

end ProofOps.Application.Rulepacks
