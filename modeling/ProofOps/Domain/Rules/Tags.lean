import Mathlib.Data.List.Sort
import ProofOps.Domain.Values

/-!
# Confirmed tags and decisions

The engine's inputs and its output: confirmed facts, the tag revision that
holds them, the evaluation context and the decision record.  The trust rules of
`ConfirmedFact.__post_init__` (a present fact is sourced and verified, an absent
one has verified search coverage) and the uniqueness of fact names are proof
fields.
-/

namespace ProofOps.Domain.Rules

inductive FactState where
  | present
  | absent
  | unknown
  | conflict
  | notApplicable
  | absentInScope
  deriving DecidableEq

def FactState.ofElement : ElementState → FactState
  | .present => .present
  | .absent => .absent
  | .unknown => .unknown
  | .conflict => .conflict
  | .notApplicable => .notApplicable

theorem FactState.ofElement_present_iff {state : ElementState} :
    FactState.ofElement state = .present ↔ state = .present := by
  cases state <;> simp [FactState.ofElement]

def FactState.Resolved (state : FactState) : Prop :=
  state = .present ∨ state = .absent

instance (state : FactState) : Decidable state.Resolved :=
  inferInstanceAs (Decidable (_ ∨ _))

/-- A confirmed fact. -/
structure ConfirmedFact where
  name : String
  state : FactState
  evidenceRefs : List SourceRef
  sourceTenantId : Option String
  (citationVerified bindingAccepted searchCoverageVerified : Bool)
  sourceScope : String
  normalizedValue : Option String
  name_nonempty : name ≠ ""
  present_sourced : state = .present →
    evidenceRefs ≠ [] ∧ citationVerified = true ∧ bindingAccepted = true ∧
      sourceTenantId ≠ none ∧ sourceTenantId ≠ some ""
  absent_covered : state = .absent → searchCoverageVerified = true
  deriving DecidableEq

def ConfirmedFact.make (name : String) (state : FactState) (evidenceRefs : List SourceRef)
    (sourceTenantId : Option String) (citationVerified bindingAccepted searchCoverageVerified : Bool)
    (sourceScope : String) (normalizedValue : Option String) : Except PyError ConfirmedFact :=
  if hname : name ≠ "" then
    if hpresent : state = .present →
        evidenceRefs ≠ [] ∧ citationVerified = true ∧ bindingAccepted = true ∧
          sourceTenantId ≠ none ∧ sourceTenantId ≠ some "" then
      if habsent : state = .absent → searchCoverageVerified = true then
        .ok { name, state, evidenceRefs, sourceTenantId, citationVerified, bindingAccepted,
              searchCoverageVerified, sourceScope, normalizedValue,
              name_nonempty := hname, present_sourced := hpresent, absent_covered := habsent }
      else
        .error (.domainValidation "absent requires verified search coverage")
    else
      .error (.domainValidation "present requires verified citation and accepted binding")
  else
    .error (.domainValidation "invalid confirmed fact")

variable {name : String} {fact : ConfirmedFact}

/-- What a made fact consists of. -/
theorem ConfirmedFact.make_ok {state : FactState} {refs : List SourceRef}
    {tenant : Option String} {cited bound covered : Bool} {scope : String} {value : Option String}
    (h : ConfirmedFact.make name state refs tenant cited bound covered scope value = .ok fact) :
    fact.name = name ∧ fact.state = state ∧ fact.evidenceRefs = refs ∧
      fact.sourceScope = scope ∧ fact.normalizedValue = value := by
  unfold ConfirmedFact.make at h
  split_ifs at h
  cases h
  exact ⟨rfl, rfl, rfl, rfl, rfl⟩

/-- `ConfirmedTags`. -/
structure ConfirmedTags where
  (tenantId documentVersionId claimId : String)
  track : Track
  facts : List ConfirmedFact
  tagRevision : Nat
  (packetSha256 modelSha256 promptSha256 : String)
  replicateHashes : List String
  ontologyVersion : String
  safeHarborCategory : Option SafeHarborCategory
  superlativeQuote : Option String
  productVariant : Bool
  facts_nodup : (facts.map ConfirmedFact.name).Nodup
  revision_pos : 1 ≤ tagRevision
  three_replicates : replicateHashes.length = 3

def ConfirmedTags.make (tenantId documentVersionId claimId : String) (track : Track)
    (facts : List ConfirmedFact) (tagRevision : Nat) (packetSha256 modelSha256 promptSha256 : String)
    (replicateHashes : List String) (ontologyVersion : String)
    (safeHarborCategory : Option SafeHarborCategory) (superlativeQuote : Option String)
    (productVariant : Bool) : Except PyError ConfirmedTags :=
  if hrevision : 1 ≤ tagRevision then
    if hnodup : (facts.map ConfirmedFact.name).Nodup then
      if hhashes : replicateHashes.length = 3 then
        .ok { tenantId, documentVersionId, claimId, track
              facts := facts.insertionSort fun first second => first.name ≤ second.name
              tagRevision, packetSha256, modelSha256, promptSha256, replicateHashes
              ontologyVersion, safeHarborCategory, superlativeQuote, productVariant
              facts_nodup :=
                ((List.perm_insertionSort _ facts).map ConfirmedFact.name).nodup_iff.mpr hnodup
              revision_pos := hrevision
              three_replicates := hhashes }
      else
        .error (.domainValidation "retain hashes for replicate 1, 2, 3 in order")
    else
      .error (.domainValidation "duplicate fact names")
  else
    .error (.domainValidation "tag_revision must be positive")

namespace ConfirmedTags

variable (tags : ConfirmedTags)

def fact? (name : String) : Option ConfirmedFact :=
  tags.facts.find? fun fact => fact.name == name

/-- A name's fact is the one of the name. -/
theorem fact?_eq_some_iff : tags.fact? name = some fact ↔ fact ∈ tags.facts ∧ fact.name = name := by
  unfold fact?
  constructor
  · intro h
    exact ⟨List.mem_of_find?_eq_some h, by simpa using List.find?_some h⟩
  · rintro ⟨hmem, rfl⟩
    have hnodup := tags.facts_nodup
    generalize tags.facts = facts at hmem hnodup
    induction facts with
    | nil => simp at hmem
    | cons head tail ih =>
      rw [List.map_cons, List.nodup_cons] at hnodup
      rcases List.mem_cons.mp hmem with rfl | htail
      · simp
      · have hne : head.name ≠ fact.name := by
          intro heq
          exact hnodup.1 (heq ▸ List.mem_map_of_mem htail)
        rw [List.find?_cons_of_neg (by simpa using hne)]
        exact ih htail hnodup.2

theorem fact?_eq_none_iff : tags.fact? name = none ↔ ∀ fact ∈ tags.facts, fact.name ≠ name := by
  simp [fact?]

def factState (name : String) : FactState :=
  match tags.fact? name with
  | some fact => fact.state
  | none => .unknown

end ConfirmedTags

/-- `RuleContext`. -/
structure RuleContext where
  (tenantId documentVersionId claimId packetSha256 : String)
  decisionRevision : Nat
  mode : String
  localSynthetic : Bool
  (companyId reportingPeriod industry : Option String)
  regulatoryAxis : String
  decision_revision_pos : 1 ≤ decisionRevision

/-- The states of a decision. -/
inductive DecisionStatus where
  | decided
  | blockedEvidence
  | blockedRuleGap
  deriving DecidableEq

/-- Whether a decision needs a review. -/
inductive ReviewStatus where
  | autoConfirmed
  | needsReview
  deriving DecidableEq

inductive BasisRef where
  | element (elementId basis : String)
  | exceptions (ruleIds : List String)
  deriving DecidableEq

/-- `Decision`. -/
structure Decision where
  (decisionRevision tagRevision : Nat)
  decisionStatus : DecisionStatus
  evidenceGrade : Option Grade
  label : Option Label
  sublabel : Option String
  reviewStatus : ReviewStatus
  (missingElements ruleIds : List String)
  (rulePackSha256 semanticHash : String)
  (gapIds unresolvedElements excludedElements : List String)
  ladderCandidate : Option Grade
  basisRefs : List BasisRef
  inputTagsSha256 : String
  localSynthetic : Bool
  (gradeFloor gradeCeiling : Option Grade)
  gradeOpenElements : List String
  deriving DecidableEq

def Decision.DecidedAs (decision : Decision) (grade : Grade) : Prop :=
  decision.decisionStatus = .decided ∧ decision.evidenceGrade = some grade

instance (decision : Decision) (grade : Grade) : Decidable (decision.DecidedAs grade) :=
  inferInstanceAs (Decidable (_ ∧ _))

def Decision.BlockedWithin (decision : Decision) (floor ceiling : Grade) : Prop :=
  decision.decisionStatus = .blockedEvidence ∧ decision.gradeFloor = some floor ∧
    decision.gradeCeiling = some ceiling

instance (decision : Decision) (floor ceiling : Grade) :
    Decidable (decision.BlockedWithin floor ceiling) :=
  inferInstanceAs (Decidable (_ ∧ _ ∧ _))

end ProofOps.Domain.Rules
