import ProofOps.Domain.Rules.Pack
import ProofOps.Domain.Rules.Tags
import ProofOps.Foundation.PyText

/-!
# Input validation and source exceptions

`_validate_inputs`, the shared trust boundary, and `apply_source_exceptions`,
the superlative, ordinal and product-variant rules that run before the ladder.
The three rules are separate definitions over a state reading
`String → FactState`, since the profiles differ only in how they read a scoped
absence.
-/

namespace ProofOps.Domain.Rules

open Foundation

def maintenanceScope : String := "qt1_maintenance_baseline_v1"

def approvedFact (track : Track) (fact : ConfirmedFact) : Bool :=
  track == .goal && ["target_metric", "baseline_year", "baseline_value"].contains fact.name &&
    fact.sourceScope == maintenanceScope

def acceptableRef (documentVersionId : String) (ref : SourceRef) : Bool :=
  ref.documentVersionId == documentVersionId && ref.verificationState == .verified &&
    ref.locationQuality == .located && PyText.nonBlank ref.quote && ref.charStart < ref.charEnd

def allowedScopes (track : Track) (entries : List ElementDefinition) (name : String) :
    Except PyError (List String) :=
  if name == "external_verification" then
    .ok ["local_claim", "global_bound"]
  else
    match (mappings track).find? fun entry => entry.2.contains name with
    | some (element, _) => do
      let definition ← RulePackSnapshot.definition entries element
      return definition.sourceScopes
    | none => .ok ["local_claim", "same_table"]

variable (tags : ConfirmedTags)

def validateFact (entries : List ElementDefinition)
    (fact : ConfirmedFact) : Except PyError Unit := do
  if fact.state == .present then
    if fact.sourceTenantId != some tags.tenantId then
      throw (.domainValidation "source identity mismatch")
    if !fact.evidenceRefs.all (acceptableRef tags.documentVersionId) then
      throw (.domainValidation "source is not verified, located same-document evidence")
    let scopes ← allowedScopes tags.track entries fact.name
    -- Partly unresolved explicit_link scopes are not automatically expanded (GAP-004).
    if (!scopes.contains fact.sourceScope || fact.sourceScope == "explicit_link") &&
        !approvedFact tags.track fact then
      throw (.domainValidation "source scope is not approved for this fact")
    if fact.name == "assurance_covered" && fact.normalizedValue != some "covered" then
      throw (.domainValidation "assurance requires covered status, not a provider name")

/-- `_validate_inputs`. -/
def validateInputs (context : RuleContext) (pack : RulePackSnapshot) : Except PyError Unit := do
  if tags.tenantId != context.tenantId || tags.documentVersionId != context.documentVersionId ||
      tags.claimId != context.claimId || tags.packetSha256 != context.packetSha256 then
    throw (.domainValidation "input identity mismatch")
  if pack.tenantId != context.tenantId || tags.ontologyVersion != pack.ontologyVersion then
    throw (.domainValidation "rulepack identity mismatch")
  if context.mode != "disclosure" || pack.mode != context.mode then
    throw (.domainValidation "dedicated advertising evaluator required")
  if context.regulatoryAxis != "advisory_unverified" then
    throw (.domainValidation "legal applicability approval not implemented")
  if !(["draft", "validated", "active"].contains pack.status) then
    throw (.domainValidation "pack is not available for evaluation")
  if !context.localSynthetic &&
      !(pack.status == "active" && PyText.truthy pack.approvedBy &&
        PyText.truthy pack.approvedAt) then
    throw (.domainValidation "draft pack requires explicit local synthetic use")
  let entries ← pack.elementsFile
  -- The comprehension looks up every element of the track before any fact is read.
  (mappings tags.track).forM fun entry => do
    let _ ← RulePackSnapshot.definition entries entry.1
  tags.facts.forM (validateFact tags entries)

/-! ### Source exceptions -/

/-- `ExceptionEffect`. -/
structure ExceptionEffect where
  overrideGrade : Option Grade := none
  capGrade : Option Grade := none
  gapIds : List String := []
  unresolvedElements : List String := []
  ruleIds : List String := []
  ordinalState : Option FactState := none

def FactState.scoped (analysisScope : Bool) (state : FactState) : FactState :=
  if analysisScope && state == .absentInScope then .absent else state

def readState (analysisScope : Bool) (tags : ConfirmedTags) (name : String) : FactState :=
  (tags.factState name).scoped analysisScope

variable (state : String → FactState)

def hasSuperlative : Bool :=
  PyText.truthy tags.superlativeQuote ||
    ((tags.fact? "has_superlative").isSome && state "has_superlative" != .absent)

def superlativeSourced : Bool :=
  match tags.fact? "has_superlative", tags.superlativeQuote with
  | some original, some quote =>
    original.state == .present && quote != "" && PyText.nonBlank quote &&
      original.evidenceRefs.any fun ref => PyText.isIn quote ref.quote
  | _, _ => false

def superlativeOperands : List String :=
  ["comparison_basis", "external_verification"]

inductive SuperlativeReading where
  | override
  | unresolved (elements : List String)
  deriving DecidableEq

def superlativeReading (rule : SuperlativeRule) (tags : ConfirmedTags)
    (state : String → FactState) : SuperlativeReading :=
  if hasSuperlative tags state && rule.enabled then
    if superlativeSourced tags then
      if superlativeOperands.all fun name => state name == .absent then
        .override
      else if superlativeOperands.any fun name => state name == .present then
        .unresolved []
      else
        .unresolved (superlativeOperands.filter fun name => state name != .absent)
    else
      .unresolved ["has_superlative"]
  else
    .unresolved []

def ordinalOperands : List String :=
  ["categorical_ordinal", "certification_provider"]

def ordinalState : FactState :=
  let states := ordinalOperands.map state
  if states.all (· == .present) then .present
  else if states.contains .absent then .absent
  else if states.contains .conflict then .conflict
  else .unknown

def ordinalReading : Except PyError (Option FactState) := do
  if tags.track == .performance && (tags.fact? "categorical_ordinal").isSome then
    ordinalOperands.forM fun name => do
      if state name == .present &&
          !PyText.nonBlank (((tags.fact? name).bind ConfirmedFact.normalizedValue).getD "") then
        throw (.domainValidation "categorical ordinal requires a grade and named provider")
    return some (ordinalState state)
  else
    return none

def productReading (pack : RulePackSnapshot) (state : String → FactState) :
    Except PyError ExceptionEffect := do
  if tags.productVariant then
    if tags.track != .management then
      return { gapIds := ["GAP-007"] }
    else
      let product ← pack.productVariantRule
      match state product.e2PlusRequires with
      | .absent =>
        return { capGrade := some product.specificNamesOnlyCap, ruleIds := ["PRODUCT_NAMES_CAP"] }
      | .present => return { gapIds := [product.genericBoundaryInteraction] }
      | _ => return { unresolvedElements := [product.e2PlusRequires] }
  else
    return {}

def applySourceExceptions (context : RuleContext)
    (pack : RulePackSnapshot) (analysisScope : Bool) : Except PyError ExceptionEffect := do
  validateInputs tags context pack
  let special ← pack.superlativeRule
  let state := readState analysisScope tags
  if tags.safeHarborCategory.isSome then
    return { gapIds := if hasSuperlative tags state then ["GAP-001", special.withSafeHarbor]
                       else ["GAP-001"] }
  match superlativeReading special tags state with
  | .override => return { overrideGrade := some .e0, ruleIds := ["SUPERLATIVE_E0"] }
  | .unresolved elements =>
    let ordinal ← ordinalReading tags state
    let product ← productReading tags pack state
    return { capGrade := product.capGrade
             gapIds := product.gapIds
             unresolvedElements := elements ++ product.unresolvedElements
             ruleIds := (if ordinal.isSome then ["CATEGORICAL_ORDINAL"] else []) ++
               product.ruleIds
             ordinalState := ordinal }

end ProofOps.Domain.Rules
