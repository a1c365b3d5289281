import ProofOps.Domain.Rules.Engine

/-!
# The pinned pack

The rules shipped under `config/rubric`, version `proofops-domain-v2.0-impl2`,
as the engine reads them.  The pack's digest and approval belong to a
deployment and are arguments.
-/

namespace ProofOps.Domain.Rules.Pinned

def requiring (id : String) (names : List String) (grade : Grade) : Branch :=
  { id, when? := none, requireAll := names, grade, cap := false }

def whenever (id : String) (conditions : List (String × Bool)) (grade : Grade) : Branch :=
  { id, when? := some conditions, requireAll := [], grade, cap := false }

/-- `config/rubric/goal.yaml`. -/
def goal : Rubric where
  branches :=
    [{ whenever "GOAL_NO_YEAR_EXCEPTION"
        [("target_year", false), ("target_metric", true), ("transition_plan", true)] .e1 with
        cap := true },
      whenever "GOAL_NO_YEAR" [("target_year", false), ("exception_applies", false)] .e0,
      requiring "GOAL_E3" ["target_year", "target_metric", "baseline_year", "baseline_value",
        "scope", "org_boundary", "current_progress", "transition_plan"] .e3,
      requiring "GOAL_E2" ["target_year", "target_metric", "baseline_year", "baseline_value",
        "scope", "org_boundary"] .e2,
      requiring "GOAL_E1" ["target_year", "target_metric"] .e1]
  additionalElementPolicy := some additionalReportOnly
  productVariant := none

def performance : Rubric where
  branches :=
    [whenever "PERF_NO_VALUE" [("quantitative_or_qualified_ordinal", false)] .e0,
      requiring "PERF_E3" ["quantitative_or_qualified_ordinal", "unit_or_qualified_ordinal",
        "comparison_baseline", "calculation_boundary", "method", "assurance_covered"] .e3,
      requiring "PERF_E2" ["quantitative_or_qualified_ordinal", "unit_or_qualified_ordinal",
        "comparison_baseline", "calculation_boundary"] .e2,
      requiring "PERF_E1" ["quantitative_or_qualified_ordinal", "unit_or_qualified_ordinal"] .e1]
  additionalElementPolicy := some additionalReportOnly
  productVariant := none

def willingness : Branch :=
  whenever "MGMT_WILLINGNESS" [("willingness_only", true)] .e0

def management : Rubric where
  branches :=
    [requiring "MGMT_E3" ["named_means_or_concrete_state", "org_boundary",
        "external_verification"] .e3,
      requiring "MGMT_E2" ["named_means_or_concrete_state", "org_boundary"] .e2,
      requiring "MGMT_E1" ["named_means_or_concrete_state"] .e1,
      willingness]
  additionalElementPolicy := some additionalReportOnly
  productVariant := some
    { specificNamesOnlyCap := .e1
      e2PlusRequires := "direct_product_material_ratio_or_target"
      genericBoundaryInteraction := "GAP-007" }

def element (id : String) (trigger : Option String) (sourceScopes : List String) :
    ElementDefinition :=
  { id, trigger, sourceScopes,
    basis := "source_section 4.5, clause null, verification_status unverified" }

def elements : List ElementDefinition :=
  [element "G1" none ["local_claim", "same_table"],
    element "G2" none ["local_claim", "same_table"],
    element "G3" none ["local_claim", "same_table", "explicit_link"],
    element "G4" none ["local_claim", "same_table", "global_bound"],
    element "G5" none ["local_claim", "same_table"],
    element "G6" none ["local_claim", "explicit_link"],
    element "G7" (some "offset_or_carbon_neutral_claim") ["local_claim", "explicit_link"],
    element "G8" (some "science_based_claim") ["local_claim", "global_bound"],
    element "P1" none ["local_claim", "same_table"],
    element "P2" none ["local_claim", "same_table"],
    element "P3" none ["local_claim", "same_table", "global_bound"],
    element "P4" none ["global_bound"],
    element "P5" (some "reduction_or_improvement_claim") ["local_claim", "same_table"],
    element "P6" none ["computed_check"],
    element "M1" none ["local_claim", "same_table"],
    element "M2" none ["local_claim", "same_table", "global_bound"],
    element "M3" none ["local_claim", "global_bound"],
    element "M4" none ["local_claim", "same_table"],
    element "M5" (some "governance_claim") ["local_claim", "explicit_link"],
    element "M6" (some "compensation_link_claim") ["local_claim", "explicit_link"]]

def rubric : Track → Rubric
  | .goal => goal
  | .performance => performance
  | .management => management

def pack (tenantId sha256 : String) (rubrics : Track → Rubric) : RulePackSnapshot where
  tenantId := tenantId
  mode := "disclosure"
  status := "draft"
  ontologyVersion := "proofops-elements-1"
  sha256 := sha256
  approvedBy := none
  approvedAt := none
  elements := some elements
  rubrics := fun track => some (rubrics track)
  exceptions := some { enabled := true, withSafeHarbor := "GAP-006" }

/-! ### Claims on the pack

Concrete inputs, for reading the rules on a case. -/

def blankHash : CanonicalHash where
  tags := fun _ => ""
  semantic := fun _ _ _ _ _ => ""

def sourceRef (quote : String) : SourceRef where
  sourceId := "source"
  documentVersionId := "document"
  parseManifestId := "manifest"
  pageNum := 1
  printedPageLabel := none
  bbox := none
  rawTextSha256 := "text"
  quote := quote
  charStart := 0
  charEnd := 1
  locationQuality := .located
  verificationState := .verified
  page_pos := first_pos
  offsets_ordered := Nat.zero_le 1

/-- The name of the named means is not empty. -/
theorem means_named : "named_means_or_concrete_state" ≠ "" := by
  decide

def presentFact (name : String) (name_nonempty : name ≠ "") : ConfirmedFact where
  name := name
  state := .present
  evidenceRefs := [sourceRef "reported value"]
  sourceTenantId := some "tenant"
  citationVerified := true
  bindingAccepted := true
  searchCoverageVerified := false
  sourceScope := "local_claim"
  normalizedValue := some "value"
  name_nonempty := name_nonempty
  present_sourced := fun _ => ⟨by simp, rfl, rfl, by simp, by simp⟩
  absent_covered := fun h => by cases h

def bareFact (name : String) (state : FactState) (name_nonempty : name ≠ "")
    (not_present : state ≠ .present) : ConfirmedFact where
  name := name
  state := state
  evidenceRefs := []
  sourceTenantId := none
  citationVerified := false
  bindingAccepted := false
  searchCoverageVerified := true
  sourceScope := "local_claim"
  normalizedValue := none
  name_nonempty := name_nonempty
  present_sourced := fun h => absurd h not_present
  absent_covered := fun _ => rfl

def claim (track : Track) (facts : List ConfirmedFact)
    (facts_nodup : (facts.map ConfirmedFact.name).Nodup) : ConfirmedTags where
  tenantId := "tenant"
  documentVersionId := "document"
  claimId := "claim"
  track := track
  facts := facts
  tagRevision := 1
  packetSha256 := "packet"
  modelSha256 := "model"
  promptSha256 := "prompt"
  replicateHashes := ["first", "second", "third"]
  ontologyVersion := "proofops-elements-1"
  safeHarborCategory := none
  superlativeQuote := none
  productVariant := false
  facts_nodup := facts_nodup
  revision_pos := first_pos
  three_replicates := rfl

def context : RuleContext where
  tenantId := "tenant"
  documentVersionId := "document"
  claimId := "claim"
  packetSha256 := "packet"
  decisionRevision := 1
  mode := "disclosure"
  localSynthetic := true
  companyId := none
  reportingPeriod := none
  industry := none
  regulatoryAxis := "advisory_unverified"
  decision_revision_pos := first_pos

end ProofOps.Domain.Rules.Pinned
