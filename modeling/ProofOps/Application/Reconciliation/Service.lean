import Mathlib.Data.List.Sort
import ProofOps.Application.Reconciliation.Sources
import ProofOps.Domain.Reconciliation.Engine

/-!
# The reconciliation service

`reconcile`: what a packet and a policy say about their own approval, search and sources is
replaced by the entries of three registries before the engine sees them.  A step that fails
either raises or returns a blocked result; both leave the sequence of steps at once.

The values of a registry entry are typed by what they are compared with; a value that is of
another type is one that no packet carries.
-/

namespace ProofOps.Application.Reconciliation

open Foundation Foundation.Checked Domain.Reconciliation

/-! ### Registries -/

inductive Slot (α : Type) where
  | missing
  | malformed
  | entry (value : α)

namespace Slot

variable {α : Type}

def value : Slot α → Option α
  | .entry value => some value
  | _ => none

def isKnown : Slot α → Bool
  | .missing => false
  | _ => true

end Slot

/-- An entry of the policy registry. -/
structure PolicyEntry where
  approved : Bool
  (version sourcePolicySha256 : Option String)
  syntheticOnly : Option Bool
  (approvedBy approvedOn : Option String)

inductive DocumentRole where
  | sustainability
  | financial
  deriving DecidableEq

def DocumentRole.name : DocumentRole → String
  | .sustainability => "sustainability"
  | .financial => "financial"

/-- What the registry binds a source to. -/
structure SourceBinding where
  (locator quote : Option String)
  roles : List String

/-- What the registry binds a fact to. -/
structure FactBinding where
  (raw normalized : Option String)
  kind : Option Kind
  unit : Option String

structure DecisionBinding where
  item : Item
  comparability : Comparability
  claim : Claim
  c3Context : Option C3Context
  c4Context : Option C4Context
  claimId : String
  otherKeys : List String
  deriving DecidableEq

/-- An entry of the document registry. -/
structure DocumentEntry where
  synthetic : Option Bool
  (tenantId companyId packageId corpCode : Option String)
  fiscalYear : Option Int
  consolidation : Option Consolidation
  documentRole : Option DocumentRole
  (documentVersionId rceptNo publishedAt asOfDate periodStart periodEnd : Option String)
  artifactSha256 : Option String
  relevantItems : List Item
  availableOn : Option (Option String)
  decisionBinding : Option DecisionBinding
  sourceBindings : String → Option SourceBinding
  factBindings : String → Option FactBinding

structure CoverageEntry where
  (tenantId companyId packageId coveragePolicyId : Option String)
  state : Option SearchState
  (requiredDocumentIds reviewedSourceIds failedDocumentIds : Option (List (Option String)))

/-- The registries that a caller may give. -/
structure Registries where
  policies : Option (String → Slot PolicyEntry)
  coverage : Option (String → Slot CoverageEntry)
  documents : Option (String → Slot DocumentEntry)

/-- `_date`. -/
structure ServiceRules where
  engine : EngineRules
  fromIsoFormat : String → Option Nat
  inputSchema : Packet → Bool
  policySchema : Policy → Bool
  sourceReader : Source → Option (List UInt8)
  sha256 : List UInt8 → String
  validator : Option (Source → List UInt8 → Bool)
  formats : SourceFormats
  explanationSearch : Packet → Option (List (Option Source))

def ServiceRules.validate (rules : ServiceRules) (source : Source) (payload : List UInt8) : Bool :=
  match rules.validator with
  | some validator => validator source payload
  | none => validateSourceBytes rules.formats payload source.locator source.quote = .ok ()

/-- The exceptions of the service. -/
inductive ServiceError where
  | valueError (code : String)
  | keyError (key : String)
  | notImplemented (code : String)
  | engine (error : EngineError)

inductive Exit where
  | blocked (reason : String)
  | raised (error : ServiceError)

def blockIf (p : Prop) [Decidable p] (reason : String) : Except Exit Unit :=
  refuse p (.blocked reason)

def raiseIf (p : Prop) [Decidable p] (code : String) : Except Exit Unit :=
  refuse p (.raised (.valueError code))

def require {α : Type} (value : Option α) (exit : Exit) : Except Exit α :=
  match value with
  | some value => .ok value
  | none => .error exit

def sourceNamed (sources : List Source) (sourceId : String) : Option Source :=
  sources.find? fun source => source.sourceId = sourceId

variable (rules : ServiceRules)

def checkPeriod (start finish : Option String) : Except Exit Unit :=
  match start, finish with
  | none, none => .ok ()
  | some start, some finish => do
    let first ← require (rules.fromIsoFormat start) (.raised (.valueError "date_invalid"))
    let last ← require (rules.fromIsoFormat finish) (.raised (.valueError "date_invalid"))
    raiseIf (last < first) "date_order_invalid"
  | _, _ => .error (.raised (.valueError "period_incomplete"))

variable (registries : Registries) (packet : Packet)

def claimQuoted : Bool :=
  (sourceNamed packet.sources packet.claim.sourceId).any fun source =>
    PyText.isIn packet.claim.quote source.quote

/-- `_validate_semantics`. -/
def validateSemantics : Except Exit Unit := do
  raiseIf (¬packet.sourceIds.Nodup) "duplicate_source_id"
  raiseIf (¬referenced packet ⊆ packet.sourceIds) "source_reference_missing"
  raiseIf (packet.claim.fiscalYear ≠ packet.identity.financialFiscalYear) "claim_identity_mismatch"
  checkPeriod rules packet.identity.periodStart packet.identity.periodEnd
  checkPeriod rules packet.identity.financialPeriodStart packet.identity.financialPeriodEnd
  raiseIf (claimQuoted packet = false) "claim_quote_source_mismatch"

variable (policy : Policy)

/-- `_trusted_policy`. -/
def trustedPolicy : Except Exit Policy := do
  let entry ← require
    ((registries.policies.map fun lookup => lookup (rules.engine.policySha256 policy)).bind
      Slot.value) (.blocked "policy_unapproved")
  blockIf (entry.approved = false) "policy_unapproved"
  blockIf (entry.version ≠ some policy.version) "policy_registry_mismatch"
  blockIf (entry.sourcePolicySha256 ≠ some policy.sourcePolicySha256) "policy_registry_mismatch"
  blockIf (entry.syntheticOnly ≠ some policy.syntheticOnly) "policy_registry_mismatch"
  blockIf (PyText.truthy entry.approvedBy = false) "policy_registry_mismatch"
  let _ ← require (entry.approvedOn.bind rules.fromIsoFormat) (.blocked "policy_registry_mismatch")
  return { policy with
    approved := true
    approvedBy := entry.approvedBy
    approvedOn := entry.approvedOn
    syntheticOnly := entry.syntheticOnly = some true }

/-! ### Documents -/

def documentSlot (documentId : String) : Slot DocumentEntry :=
  match registries.documents with
  | some lookup => lookup documentId
  | none => .missing

variable (identity : Identity)

def roleVersion : DocumentRole → String
  | .sustainability => identity.sustainabilityDocumentVersion
  | .financial => identity.financialDocumentVersion

def rolePublished : DocumentRole → Option String
  | .sustainability => identity.srPublishedAt
  | .financial => identity.financialPublishedAt

def rolePeriod : DocumentRole → Option String × Option String
  | .sustainability => (identity.periodStart, identity.periodEnd)
  | .financial => (identity.financialPeriodStart, identity.financialPeriodEnd)

def expectedDecision : DecisionBinding where
  item := packet.item
  comparability := packet.comparability
  claim := packet.claim
  c3Context := packet.c3Context
  c4Context := packet.c4Context
  claimId := packet.identity.claimId
  otherKeys := []

def checkAvailable (entry : DocumentEntry) : Except Exit Unit := do
  let available := entry.availableOn.getD entry.publishedAt
  let day ← require (available.bind rules.fromIsoFormat) (.blocked "document_date_invalid")
  let reference ← require (entry.asOfDate.bind rules.fromIsoFormat) (.blocked "document_date_invalid")
  blockIf (reference < day) "document_not_available_as_of"

variable (source : Source)

/-- `_document_reason`. -/
def checkDocument : Except Exit Unit := do
  let identity := packet.identity
  let entry ← require (documentSlot registries source.documentId).value
    (.blocked "document_registry_missing")
  blockIf (entry.synthetic ≠ some packet.synthetic) "document_synthetic_mismatch"
  blockIf ((entry.tenantId, entry.companyId, entry.packageId) ≠
    (some identity.tenantId, some identity.companyId, some identity.packageId))
    "document_identity_mismatch"
  blockIf (entry.corpCode ≠ some identity.dartCorpCode ∨
    entry.fiscalYear ≠ some identity.financialFiscalYear) "document_identity_mismatch"
  blockIf (entry.consolidation ≠ some identity.consolidation) "document_identity_mismatch"
  let role ← require entry.documentRole (.blocked "document_identity_mismatch")
  blockIf (entry.documentVersionId ≠ some (roleVersion identity role)) "document_identity_mismatch"
  blockIf (role = .financial ∧ entry.rceptNo ≠ identity.rceptNo) "document_identity_mismatch"
  blockIf (entry.publishedAt ≠ rolePublished identity role) "document_publication_mismatch"
  blockIf (entry.asOfDate ≠ some identity.asOfDate) "document_as_of_mismatch"
  blockIf (entry.periodStart ≠ (rolePeriod identity role).1) "document_period_mismatch"
  blockIf (entry.periodEnd ≠ (rolePeriod identity role).2) "document_period_mismatch"
  blockIf (entry.artifactSha256 ≠ some source.artifactSha256) "document_artifact_mismatch"
  blockIf (packet.item ∉ entry.relevantItems) "document_not_relevant"
  checkAvailable rules entry
  let decision ← require entry.decisionBinding (.blocked "decision_binding_missing")
  blockIf (decision ≠ expectedDecision packet) "decision_binding_mismatch"
  let binding ← require (entry.sourceBindings source.sourceId) (.blocked "source_binding_missing")
  blockIf (binding.locator ≠ some source.locator ∨ binding.quote ≠ some source.quote)
    "source_binding_mismatch"

/-- `_has_source_role`. -/
def hasSourceRole (role : String) : Bool :=
  ((documentSlot registries source.documentId).value.bind fun entry =>
    entry.sourceBindings source.sourceId).any fun binding => binding.roles.contains role

/-- `_verify_source`. -/
def verifySource : Except Exit Unit := do
  checkDocument rules registries packet source
  let payload ← require (rules.sourceReader source) (.blocked "source_unverified")
  blockIf (rules.sha256 payload ≠ source.artifactSha256) "source_hash_mismatch"
  blockIf (rules.validate source payload = false) "source_unverified"

/-! ### Roles, facts and coverage -/

def checkRole (role : String) (sourceId : String) : Except Exit Unit := do
  let source ← require (sourceNamed packet.sources sourceId) (.raised (.keyError sourceId))
  blockIf (hasSourceRole registries source role = false) "source_role_mismatch"

def checkContexts : Except Exit Unit := do
  (packet.c3Context.toList.flatMap fun context => context.commitmentSourceId.toList).forM
    (checkRole registries packet "c3_commitment")
  (packet.c3Context.toList.flatMap fun context => context.fundingPlanSourceId.toList).forM
    (checkRole registries packet "c3_funding")
  (packet.c4Context.toList.flatMap fun context => context.definitionSourceIds).forM
    (checkRole registries packet "c4_definition")
  (packet.c4Context.toList.flatMap fun context => context.calculationSourceIds).forM
    (checkRole registries packet "c4_calculation")

def bindFact (role : DocumentRole) (fact : Fact) : Except Exit Fact := do
  let source ← require (fact.sourceId.bind (sourceNamed packet.sources))
    (.raised (.keyError "source_id"))
  blockIf (hasSourceRole registries source (role.name ++ "_fact") = false) "source_role_mismatch"
  let entry ← require (documentSlot registries source.documentId).value
    (.blocked "source_role_mismatch")
  blockIf (entry.documentRole ≠ some role) "source_role_mismatch"
  let binding ← require (entry.factBindings source.sourceId) (.blocked "fact_binding_missing")
  blockIf ((fact.raw, fact.normalized, some fact.kind, fact.unit) ≠
    (binding.raw, binding.normalized, binding.kind, binding.unit)) "fact_binding_mismatch"
  return { fact with raw := binding.raw, normalized := binding.normalized, unit := binding.unit }

/-- `_bind_facts`. -/
def bindFacts : Except Exit Packet := do
  let sustainability ← bindFact registries packet .sustainability packet.sustainability
  let financial ← bindFact registries packet .financial packet.financial
  return { packet with sustainability, financial }

def coverageEntry : Option CoverageEntry :=
  match registries.coverage, packet.search.receiptId with
  | some lookup, some receiptId => (lookup receiptId).value
  | _, _ => none

def requireTexts (values : Option (List (Option String))) : Except Exit (List String) := do
  let values ← require values (.blocked "coverage_unverified")
  blockIf (values.contains none ∨ values.contains (some "")) "coverage_unverified"
  return values.reduceOption

def searchNotRun : Search where
  state := .notRun
  coveragePolicyId := none
  requiredDocumentIds := []
  reviewedSourceIds := []
  failedDocumentIds := []
  receiptId := none

def withCoverage (search : Search) : Packet :=
  { packet with
    search
    explanation := { packet.explanation with searchComplete := search.state = .complete } }

def incompleteCoverage (required failed : List String) : Bool :=
  required.isEmpty || !failed.isEmpty ||
    !required.contains identity.sustainabilityDocumentVersion ||
    !required.contains identity.financialDocumentVersion

def applyEntry (entry : CoverageEntry) : Except Exit Packet := do
  let identity := packet.identity
  blockIf ((entry.tenantId, entry.companyId, entry.packageId) ≠
    (some identity.tenantId, some identity.companyId, some identity.packageId))
    "coverage_unverified"
  blockIf (entry.coveragePolicyId ≠ some policy.coveragePolicyId) "coverage_unverified"
  let state ← require entry.state (.blocked "coverage_unverified")
  let required ← requireTexts entry.requiredDocumentIds
  let reviewed ← requireTexts entry.reviewedSourceIds
  let failed ← requireTexts entry.failedDocumentIds
  blockIf (∃ documentId ∈ required, (documentSlot registries documentId).isKnown = false)
    "coverage_unverified"
  blockIf (state = .complete ∧ incompleteCoverage identity required failed) "coverage_unverified"
  return withCoverage packet
    { state := state
      coveragePolicyId := entry.coveragePolicyId
      requiredDocumentIds := required
      reviewedSourceIds := reviewed
      failedDocumentIds := failed
      receiptId := packet.search.receiptId }

/-- `_apply_coverage`. -/
def applyCoverage : Except Exit Packet :=
  match coverageEntry registries packet with
  | none => do
    blockIf (packet.search.state = .complete) "coverage_unverified"
    return withCoverage packet searchNotRun
  | some entry => applyEntry registries packet policy entry

/-- `_candidate_shape`. -/
def candidateShape : Bool :=
  source.sourceId ≠ "" && source.documentId ≠ "" && source.locator ≠ "" && source.quote ≠ "" &&
    source.artifactSha256.toList.length = 64 && source.artifactSha256.toList.all isHex

def checkCandidate (candidate : Option Source) : Except Exit Source := do
  let source ← require (candidate.filter candidateShape) (.blocked "explanation_source_unverified")
  blockIf (source.sourceId ∈ packet.sourceIds) "explanation_source_unverified"
  blockIf (source.sourceId ∉ packet.search.reviewedSourceIds) "coverage_unverified"
  match verifySource rules registries packet source with
  | .error (.blocked _) => .error (.blocked "explanation_source_unverified")
  | .error (.raised error) => .error (.raised error)
  | .ok () => do
    blockIf (hasSourceRole registries source "explanation" = false) "source_role_mismatch"
    return source

def leastSource : List Source → Option Source
  | [] => none
  | head :: rest =>
    some (rest.foldl (fun best next => if next.sourceId < best.sourceId then next else best) head)

def withSelected : Option Source → Packet
  | none => packet
  | some selected =>
    { packet with
      sources := packet.sources ++ [selected]
      explanation := { packet.explanation with sourceId := some selected.sourceId } }

def explain : Except Exit Packet :=
  match packet.explanation.sourceId with
  | some sourceId => do
    blockIf (sourceId ∉ packet.search.reviewedSourceIds) "coverage_unverified"
    return packet
  | none => do
    let candidates ← require (rules.explanationSearch packet)
      (.blocked "explanation_search_failed")
    let verified ← candidates.mapM (checkCandidate rules registries packet)
    return withSelected packet (leastSource verified)

def checkSubmission : Except Exit (Packet × Policy) := do
  refuse (packet.item = .c5) (.raised (.notImplemented "stage_disabled"))
  raiseIf (rules.inputSchema packet = false) "reconciliation_schema_invalid"
  raiseIf (rules.policySchema policy = false) "reconciliation_schema_invalid"
  let trusted ← trustedPolicy rules registries policy
  blockIf (trusted.syntheticOnly ∧ !packet.synthetic) "policy_scope_mismatch"
  validateSemantics rules packet
  packet.sources.forM (verifySource rules registries packet)
  checkRole registries packet "claim" packet.claim.sourceId
  checkContexts registries packet
  let bound ← bindFacts registries packet
  return (bound, trusted)

def trust : Except Exit (Packet × Policy) := do
  let (bound, trusted) ← checkSubmission rules registries packet policy
  let covered ← applyCoverage registries bound trusted
  let explained ← explain rules registries covered
  blockIf (explained.search.state = .complete ∧
    ¬explained.search.reviewedSourceIds ⊆ explained.sourceIds) "coverage_unverified"
  return (explained, trusted)

structure Blocked where
  claimId : String
  item : Item
  (reasonCodes sourceIds : List String)
  (sustainabilityValue financialValue : Option String)
  (packetSha256 policySha256 : String)
  synthetic : Bool
  engineVersion : String

/-- `_blocked`. -/
def blocked (reason : String) : Blocked where
  claimId := packet.identity.claimId
  item := packet.item
  reasonCodes := [reason]
  sourceIds := packet.sourceIds.dedup.insertionSort (· ≤ ·)
  sustainabilityValue := packet.sustainability.raw
  financialValue := packet.financial.raw
  packetSha256 := rules.engine.packetSha256 packet
  policySha256 := rules.engine.policySha256 policy
  synthetic := packet.synthetic
  engineVersion := "reconciliation-application-provenance-1"

inductive Reply where
  | blocked (record : Blocked)
  | evaluated (output : Output)

def stamp (output : Output) : Output :=
  { output with
    packetSha256 := rules.engine.packetSha256 packet
    policySha256 := rules.engine.policySha256 policy }

/-- `reconcile`. -/
def reconcile : Except ServiceError Reply :=
  match trust rules registries packet policy with
  | .error (.blocked reason) => .ok (.blocked (blocked rules packet policy reason))
  | .error (.raised error) => .error error
  | .ok (trusted, trustedPolicy) =>
    match evaluate rules.engine trusted trustedPolicy with
    | .error error => .error (.engine error)
    | .ok output => .ok (.evaluated (stamp rules packet policy output))

end ProofOps.Application.Reconciliation
