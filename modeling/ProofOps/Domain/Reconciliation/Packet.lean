import ProofOps.Domain.Numeric.Literals
import ProofOps.Foundation.Decimal

/-!
# Reconciliation packets

The packets and policies of the reconciliation engine, and their validation.  The keys
and the JSON types of the fields are those of the structures here, and an enumeration is
a type of its own; every other check is made as the source makes it, in its order and
with its message.
-/

namespace ProofOps.Domain.Reconciliation

open Foundation Numeric

/-- What the engine raises. -/
inductive EngineError where
  | domainValidation (message : String)
  | notImplemented (message : String)
  | keyError (key : String)
  | overflow
  | recursion
  deriving DecidableEq

/-- `fail`. -/
def fail {α : Type} (message : String) : Except EngineError α :=
  .error (.domainValidation message)

def failIf (p : Prop) [Decidable p] (message : String) : Except EngineError Unit :=
  if p then fail message else .ok ()

/-! ### Records -/

/-- The items of the reconciliation. -/
inductive Item where
  | c1
  | c2
  | c3
  | c4
  | c5
  deriving DecidableEq

/-- The kinds of a fact's value. -/
inductive Kind where
  | entitySet
  | facilitySet
  | currencyAmount
  | period
  | classification
  | unknown
  deriving DecidableEq

/-- The track of a claim. -/
inductive Track where
  | goal
  | performance
  | management
  | unknown
  deriving DecidableEq

inductive Consolidation where
  | consolidated
  | separate
  | unknown
  deriving DecidableEq

inductive Comparability where
  | comparable
  | notComparable
  | unknown
  deriving DecidableEq

/-- The state of the evidence search. -/
inductive SearchState where
  | complete
  | incomplete
  | notRun
  deriving DecidableEq

structure Identity where
  (tenantId companyId claimId packageId : String)
  (periodStart periodEnd : Option String)
  (sustainabilityDocumentVersion financialDocumentVersion dartCorpCode : String)
  financialFiscalYear : Int
  consolidation : Consolidation
  (financialPeriodStart financialPeriodEnd srPublishedAt financialPublishedAt : Option String)
  rceptNo : Option String
  asOfDate : String

/-- A source with its artifact and quote. -/
structure Source where
  (sourceId documentId artifactSha256 locator quote : String)

structure Fact where
  (raw normalized : Option String)
  kind : Kind
  (unit sourceId : Option String)

structure Explanation where
  sourceId : Option String
  searchComplete : Bool

/-- The claim under reconciliation. -/
structure Claim where
  track : Track
  (quote sourceId : String)
  triggerElements : List String
  fiscalYear : Int
  deriving DecidableEq

structure Search where
  state : SearchState
  coveragePolicyId : Option String
  (requiredDocumentIds reviewedSourceIds failedDocumentIds : List String)
  receiptId : Option String

/-- What C3 reads beside the values. -/
structure C3Context where
  currency : String
  (targetPeriodStart targetPeriodEnd capexPeriodStart capexPeriodEnd : Option String)
  capexAccountIds : List String
  (commitmentSourceId fundingPlanSourceId : Option String)
  deriving DecidableEq

/-- What C4 reads beside the values. -/
structure C4Context where
  classificationName : String
  (definitionSourceIds calculationSourceIds : List String)
  deriving DecidableEq

/-- A packet of the engine. -/
structure Packet where
  schemaVersion : String
  synthetic : Bool
  identity : Identity
  item : Item
  sources : List Source
  (sustainability financial : Fact)
  comparability : Comparability
  explanation : Explanation
  c3Context : Option C3Context
  claim : Claim
  search : Search
  c4Context : Option C4Context

/-- The policy of the engine. -/
structure Policy where
  (schemaVersion version : String)
  (approved syntheticOnly : Bool)
  currentStage : Int
  enabledItems : List Item
  c1IdentityRule : String
  c3Threshold : Option String
  c3AccountMappingApproved : Bool
  (approvedBy approvedOn : Option String)
  sourcePolicySha256 : String
  allowedCapexAccountIds : List String
  coveragePolicyId : String
  allowedDifferenceTypes : List String
  c2TimingRule : String
  c4RequiredExplanations : List String

inductive Decoded where
  | array (entries : List (Option String))
  | other

inductive LoadError where
  | valueError
  | recursionError

/-- `canonical_json`. -/
structure EngineRules where
  loads : String → Except LoadError Decoded
  packetSha256 : Packet → String
  policySha256 : Policy → String

/-! ### Low level guards -/

/-- `require_text`. -/
def requireText (value key name : String) : Except EngineError Unit :=
  if value = "" then fail (name ++ "." ++ key ++ " must be a non-empty string") else .ok ()

/-- `require_optional_text`. -/
def requireOptionalText (value : Option String) (key name : String) : Except EngineError Unit :=
  if value = some "" then fail (name ++ "." ++ key ++ " must be a non-empty string or null")
  else .ok ()

/-- `require_int`. -/
def requireInt (value : Int) (key name : String) (low high : Int) : Except EngineError Unit :=
  if low ≤ value ∧ value ≤ high then .ok () else fail (name ++ "." ++ key ++ " is out of range")

def requireUniqueTextList (value : List String) (key name : String) : Except EngineError Unit :=
  if "" ∈ value then fail (name ++ "." ++ key ++ " entries must be non-empty strings")
  else if ¬value.Nodup then fail (name ++ "." ++ key ++ " entries must be unique")
  else .ok ()

variable (chars : List Char)

def dropFinalBreak : List Char :=
  if chars.getLast? = some '\n' then chars.dropLast else chars

variable (value name : String)

/-- `parse_date`. -/
def parseDate : Except EngineError Date :=
  match matchDate (dropFinalBreak value.toList) with
  | some (date, []) =>
    -- The pattern passes over a final line break, `fromisoformat` does not.
    if date.valid ∧ dropFinalBreak value.toList = value.toList then .ok date
    else fail (name ++ " is not a real calendar date")
  | _ => fail (name ++ " must be a YYYY-MM-DD date")

/-- `require_optional_date`. -/
def requireOptionalDate (value : Option String) (key name : String) :
    Except EngineError (Option Date) :=
  match value with
  | none => .ok none
  | some value => (parseDate value (name ++ "." ++ key)).map some

def requireOrderedPeriod (start finish : Option String) (startKey endKey name : String) :
    Except EngineError Unit := do
  let first ← requireOptionalDate start startKey name
  let last ← requireOptionalDate finish endKey name
  match first, last with
  | some first, some last =>
    if first.le last then .ok ()
    else fail (name ++ "." ++ startKey ++ " must not be after " ++ name ++ "." ++ endKey)
  | _, _ => .ok ()

def plainDecimal : Option (Bool × Decimal) :=
  let negative := chars.head? = some '-'
  let unsigned := if negative then chars.drop 1 else chars
  let whole := unsigned.takeWhile isDigit
  match whole, matchFraction (unsigned.dropWhile isDigit) with
  | [], _ => none
  | whole, (fraction, []) =>
    some (negative, ⟨digitsValue (whole ++ fraction), -(fraction.length : Int)⟩)
  | _, _ => none

/-- `parse_decimal`. -/
def parseDecimal : Except EngineError (Bool × Decimal) :=
  match plainDecimal (dropFinalBreak value.toList) with
  | some parsed => .ok parsed
  | none => fail (name ++ " must be a plain decimal string")

def matchPeriod : Option (Date × Date) :=
  match matchDate chars with
  | some (start, '/' :: rest) =>
    match matchDate rest with
    | some (finish, []) => some (start, finish)
    | _ => none
  | _ => none

/-- `parse_period`. -/
def parsePeriod : Except EngineError (Date × Date) :=
  match matchPeriod (dropFinalBreak value.toList) with
  | none => fail (name ++ " must be YYYY-MM-DD/YYYY-MM-DD")
  | some (start, finish) =>
    if !start.valid then fail (name ++ " start is not a real calendar date")
    else if !finish.valid then fail (name ++ " end is not a real calendar date")
    else if !start.le finish then fail (name ++ " start must not be after end")
    else .ok (start, finish)

variable (rules : EngineRules)

/-- `parse_entity_set`. -/
def parseEntitySet (value name : String) : Except EngineError (Finset String) :=
  match rules.loads value with
  -- Only a `ValueError` is caught.
  | .error .recursionError => .error .recursion
  | .ok (.array entries) =>
    if none ∈ entries ∨ some "" ∈ entries then
      fail (name ++ " entries must be non-empty strings")
    else if ¬entries.Nodup then fail (name ++ " entries must be unique")
    else .ok (entries.reduceOption).toFinset
  | _ => fail (name ++ " must be a JSON array of identifiers")

def isCode (test : Char → Bool) (count : Nat) (value : String) : Bool :=
  (dropFinalBreak value.toList).length = count && (dropFinalBreak value.toList).all test

/-- `[0-9a-f]`. -/
def isHex (c : Char) : Bool :=
  isDigit c || (97 ≤ c.toNat && c.toNat ≤ 102)

/-! ### Validation -/

/-- `SCHEMA_VERSION`. -/
def schemaVersion : String := "1.1"

/-- `_RATIO_RE`. -/
def isRatio (value : String) : Bool :=
  (plainDecimal (dropFinalBreak value.toList)).any fun parsed => !parsed.1

/-- `DIFFERENCE_TYPES`. -/
def differenceTypes : List String :=
  ["operational_control_vs_control", "overseas_subsidiary_excluded", "equity_method_excluded",
    "acquisition_disposal_proration"]

/-- `validate_policy`. -/
def validatePolicy (policy : Policy) : Except EngineError Unit := do
  failIf (policy.schemaVersion ≠ schemaVersion) "policy.schema_version must be 1.1"
  requireText policy.version "version" "policy"
  failIf (¬policy.enabledItems.Nodup) "policy.enabled_items entries must be unique"
  failIf (.c5 ∈ policy.enabledItems) "policy.enabled_items may only contain C1, C2, C3 or C4"
  failIf (policy.c1IdentityRule ≠ "exact_verified_entity_set")
    "policy.c1_identity_rule must be exact_verified_entity_set"
  failIf (policy.c2TimingRule ≠ "same_period_or_verified_explanation")
    "policy.c2_timing_rule must be same_period_or_verified_explanation"
  failIf (policy.c4RequiredExplanations ≠ ["definition", "calculation_basis"])
    "policy.c4_required_explanations must be [definition, calculation_basis]"
  failIf (policy.c3Threshold.any fun threshold => !isRatio threshold)
    "policy.c3_threshold must be a non-negative decimal string or null"
  requireOptionalText policy.approvedBy "approved_by" "policy"
  let _ ← requireOptionalDate policy.approvedOn "approved_on" "policy"
  failIf (!isCode isHex 64 policy.sourcePolicySha256)
    "policy.source_policy_sha256 must be 64 lowercase hex characters"
  requireUniqueTextList policy.allowedCapexAccountIds "allowed_capex_account_ids" "policy"
  requireText policy.coveragePolicyId "coverage_policy_id" "policy"
  requireUniqueTextList policy.allowedDifferenceTypes "allowed_difference_types" "policy"
  failIf (policy.allowedDifferenceTypes.any fun entry => !differenceTypes.contains entry)
    "policy.allowed_difference_types contains an unknown difference type"

def validateIdentity (identity : Identity) : Except EngineError Unit := do
  requireText identity.tenantId "tenant_id" "identity"
  requireText identity.companyId "company_id" "identity"
  requireText identity.claimId "claim_id" "identity"
  requireText identity.packageId "package_id" "identity"
  requireText identity.sustainabilityDocumentVersion "sustainability_document_version" "identity"
  requireText identity.financialDocumentVersion "financial_document_version" "identity"
  failIf (!isCode isDigit 8 identity.dartCorpCode) "identity.dart_corp_code must be 8 digits"
  requireInt identity.financialFiscalYear "financial_fiscal_year" "identity" 1900 2200
  requireOptionalText identity.rceptNo "rcept_no" "identity"
  requireOrderedPeriod identity.periodStart identity.periodEnd "period_start" "period_end" "identity"
  requireOrderedPeriod identity.financialPeriodStart identity.financialPeriodEnd
    "financial_period_start" "financial_period_end" "identity"
  let _ ← requireOptionalDate identity.srPublishedAt "sr_published_at" "identity"
  let _ ← requireOptionalDate identity.financialPublishedAt "financial_published_at" "identity"
  let _ ← parseDate identity.asOfDate "identity.as_of_date"

/-- `_validate_fact`. -/
def validateFact (fact : Fact) (name : String) : Except EngineError Unit := do
  requireOptionalText fact.raw "raw" name
  requireOptionalText fact.unit "unit" name
  requireOptionalText fact.sourceId "source_id" name
  requireOptionalText fact.normalized "normalized" name
  match fact.normalized, fact.kind with
  | some normalized, .entitySet => do
    let _ ← parseEntitySet rules normalized (name ++ ".normalized")
  | some normalized, .facilitySet => do
    let _ ← parseEntitySet rules normalized (name ++ ".normalized")
  | some normalized, .period => do
    let _ ← parsePeriod normalized (name ++ ".normalized")
  | some normalized, .currencyAmount => do
    let _ ← parseDecimal normalized (name ++ ".normalized")
  | _, _ => .ok ()

def validateSource (source : Source) (index : Nat) : Except EngineError Unit := do
  let name := "sources[" ++ toString index ++ "]"
  requireText source.sourceId "source_id" name
  requireText source.documentId "document_id" name
  requireText source.locator "locator" name
  requireText source.quote "quote" name
  failIf (!isCode isHex 64 source.artifactSha256)
    (name ++ ".artifact_sha256 must be 64 lowercase hex characters")

variable (packet : Packet)

def Packet.sourceIds : List String :=
  packet.sources.map Source.sourceId

/-- `_validate_sources`. -/
def validateSources : Except EngineError Unit := do
  packet.sources.zipIdx.forM fun entry => validateSource entry.1 entry.2
  failIf (¬packet.sourceIds.Nodup) "sources contain a duplicate source_id"

def validateComplete (search : Search) : Except EngineError Unit :=
  if search.failedDocumentIds ≠ [] then fail "a complete search cannot have failed documents"
  else if search.coveragePolicyId.all (· = "") then
    fail "a complete search requires a coverage policy"
  else if search.receiptId.all (· = "") then fail "a complete search requires a receipt"
  else if search.requiredDocumentIds = [] then
    fail "a complete search requires the list of documents it had to read"
  else .ok ()

/-- The search of a packet. -/
def validateSearch (search : Search) : Except EngineError Unit := do
  requireOptionalText search.coveragePolicyId "coverage_policy_id" "search"
  requireOptionalText search.receiptId "receipt_id" "search"
  requireUniqueTextList search.requiredDocumentIds "required_document_ids" "search"
  requireUniqueTextList search.reviewedSourceIds "reviewed_source_ids" "search"
  requireUniqueTextList search.failedDocumentIds "failed_document_ids" "search"
  if search.state = .complete then validateComplete search else .ok ()

/-- The context of C3. -/
def validateC3Context (context : C3Context) : Except EngineError Unit := do
  requireText context.currency "currency" "c3_context"
  requireUniqueTextList context.capexAccountIds "capex_account_ids" "c3_context"
  requireOptionalText context.commitmentSourceId "commitment_source_id" "c3_context"
  requireOptionalText context.fundingPlanSourceId "funding_plan_source_id" "c3_context"
  requireOrderedPeriod context.targetPeriodStart context.targetPeriodEnd "target_period_start"
    "target_period_end" "c3_context"
  requireOrderedPeriod context.capexPeriodStart context.capexPeriodEnd "capex_period_start"
    "capex_period_end" "c3_context"

/-- The context of C4. -/
def validateC4Context (context : C4Context) : Except EngineError Unit := do
  requireText context.classificationName "classification_name" "c4_context"
  requireUniqueTextList context.definitionSourceIds "definition_source_ids" "c4_context"
  requireUniqueTextList context.calculationSourceIds "calculation_source_ids" "c4_context"

def validateContexts : Except EngineError Unit := do
  match packet.c3Context with
  | none => failIf (packet.item = .c3) "c3_context is required for item C3"
  | some context => validateC3Context context
  match packet.c4Context with
  | none => failIf (packet.item = .c4) "c4_context is required for item C4"
  | some context => validateC4Context context

def referenced : List String :=
  packet.claim.sourceId :: packet.explanation.sourceId.toList ++
    packet.sustainability.sourceId.toList ++ packet.financial.sourceId.toList ++
    packet.search.reviewedSourceIds ++
    (packet.c3Context.toList.flatMap fun context =>
      context.commitmentSourceId.toList ++ context.fundingPlanSourceId.toList) ++
    packet.c4Context.toList.flatMap fun context =>
      context.definitionSourceIds ++ context.calculationSourceIds

def validateReferences : Except EngineError Unit :=
  match (referenced packet).find? fun reference => !packet.sourceIds.contains reference with
  | some reference => fail ("unknown source reference: " ++ reference)
  | none => .ok ()

/-- `validate_packet`. -/
def validatePacket : Except EngineError Unit := do
  failIf (packet.schemaVersion ≠ schemaVersion) "packet.schema_version must be 1.1"
  validateIdentity packet.identity
  validateSources packet
  validateFact rules packet.sustainability "sustainability"
  validateFact rules packet.financial "financial"
  requireOptionalText packet.explanation.sourceId "source_id" "explanation"
  requireText packet.claim.quote "quote" "claim"
  requireText packet.claim.sourceId "source_id" "claim"
  requireUniqueTextList packet.claim.triggerElements "trigger_elements" "claim"
  requireInt packet.claim.fiscalYear "fiscal_year" "claim" 1900 2200
  validateSearch packet.search
  validateContexts packet
  failIf (packet.explanation.searchComplete ≠ decide (packet.search.state = .complete))
    "explanation.search_complete must agree with search.state"
  validateReferences packet

end ProofOps.Domain.Reconciliation
