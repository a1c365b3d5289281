import ProofOps.Application.Claims.Discovery
import ProofOps.Domain.Rules.Engine

/-!
# Direct certification (C4)

`fact_assembly_c4`: a paragraph nominates a certification statement, three replicas extract
its facts, and each extraction is verified and bound against the graph on its own.  Whatever
is left open is a reason; only three equal derivations without one reach the rule engine.

The searches of the regular expressions are parameters, as are the guard `accept_binding` and
the canonical hashes.
-/

namespace ProofOps.Application.Tagging.FactAssemblyC4

open Foundation Foundation.Checked Foundation.PyJson Domain Domain.Rules Evidence Ingest
open Claims (Claim DiscoveryRules spanSourceRef normalizedText requireSha256)

/-! ### Nomination -/

structure CertificationText where
  possesses : String → Bool
  negates : String → Bool
  namesScope : String → Bool
  standards : String → List String
  (namesOtherActivity namesValidity hasFootnote needsConditionalReview : String → Bool)
  siteCounts : String → Option (Nat × Nat)
  namesAllSites : String → Bool
  sentences : String → List (Nat × Nat × String)
  (isYear isReport isBorrowed hasYear : String → Bool)

def systems : List (String × String) :=
  [("14001", "환경경영시스템"), ("50001", "에너지경영시스템"), ("45001", "안전보건경영시스템")]

def namesSystem (text : String) : Bool :=
  systems.any fun system => PyText.isIn system.2 text

def expandsScope (rules : CertificationText) (quote : String) : Bool :=
  (rules.siteCounts quote).any fun counts => counts.2 < counts.1 && rules.namesAllSites quote

def reasonIf (test : Bool) (reason : String) : List String :=
  if test then [reason] else []

/-- `safety_reasons`. -/
def safetyReasons (rules : CertificationText) (quote : String) : List String :=
  sortedSet (reasonIf (!rules.possesses quote) "CERTIFICATION_POSSESSION_UNRESOLVED" ++
    reasonIf (rules.negates quote) "CERTIFICATION_NONPOSSESSION_OR_PLAN" ++
    reasonIf (!namesSystem quote) "CERTIFICATION_SYSTEM_NOT_DIRECTLY_NAMED" ++
    reasonIf (rules.namesOtherActivity quote) "OTHER_ACTIVITY_ENTITY_PRODUCT_REQUIRES_REVIEW" ++
    reasonIf (rules.namesValidity quote) "CERTIFICATION_VALIDITY_NOT_ESTABLISHED" ++
    reasonIf (rules.hasFootnote quote) "SCOPE_FOOTNOTE_REQUIRES_REVIEW" ++
    reasonIf (rules.needsConditionalReview quote) "CONDITIONAL_OR_SUPERLATIVE_REVIEW" ++
    reasonIf (expandsScope rules quote) "PARTIAL_SCOPE_EXPANDED")

/-- `c4_candidate`. -/
structure Candidate where
  sourceId : String
  (physicalPage charStart charEnd : Nat)
  (quote certificate system certificationQuote scopeQuote : String)
  deriving DecidableEq

def findFrom (needle text : String) (start : Nat) : Option Nat :=
  (List.range (text.length + 1)).find? fun index =>
    start ≤ index && needle.toList.isPrefixOf (text.toList.drop index)

def countIn (needle : List Char) : Nat → List Char → Nat
  | 0, _ => 0
  | _, [] => 0
  | fuel + 1, c :: rest =>
    if needle.isPrefixOf (c :: rest) then 1 + countIn needle fuel ((c :: rest).drop needle.length)
    else countIn needle fuel rest

def firstSentence (rules : CertificationText) (index : Nat) (sentence : String) : Option Nat :=
  let standard := !(rules.standards sentence).isEmpty
  let system := namesSystem sentence
  if standard && system then some index
  else if index = 0 then none
  else if !standard && !system then none
  else some (index - 1)

def scopeSentence (rules : CertificationText) (spans : List (Nat × Nat × String)) (index stop : Nat)
    (sentence system : String) : Option (Nat × String) :=
  if rules.namesScope sentence then some (stop, sentence)
  else
    spans[index + 1]?.bind fun next =>
      if rules.namesScope next.2.2 && rules.possesses next.2.2 &&
          (!(rules.standards next.2.2).isEmpty || PyText.isIn system next.2.2) then
        some (next.2.1, next.2.2)
      else none

def nominate (rules : CertificationText) (block : CanonicalBlock) (text : String)
    (spans : List (Nat × Nat × String)) (index : Nat) (span : Nat × Nat × String) :
    Option Candidate := do
  let (_, stop, sentence) := span
  guard (rules.possesses sentence && !rules.negates sentence)
  let first ← firstSentence rules index sentence
  let (start, _, _) ← spans[first]?
  let combined := PyText.strip (slice text start stop)
  let standard ← (rules.standards combined).head?
  let system ← systems.lookup standard
  guard (PyText.isIn system combined)
  guard ((rules.standards combined).dedup.length = 1)
  let (finish, scope) ← scopeSentence rules spans index stop sentence system
  let quote := PyText.strip (slice text start finish)
  guard ((safetyReasons rules quote).isEmpty)
  -- The quote is a part of the text from `start` on, so it is always found.
  let charStart ← findFrom quote text start
  return {
    sourceId := block.sourceId
    physicalPage := block.pageNum
    charStart := charStart
    charEnd := charStart + quote.length
    quote := quote
    certificate := "ISO " ++ standard
    system := system
    certificationQuote := combined
    scopeQuote := scope }

def keep (found : List Candidate) (item : Candidate) : List Candidate :=
  if found.any fun known => known.sourceId = item.sourceId && known.charStart ≤ item.charStart &&
      item.charStart < known.charEnd then found
  else found ++ [item]

def discoverBlock (rules : CertificationText) (discovery : DiscoveryRules) (found : List Candidate)
    (block : CanonicalBlock) : List Candidate :=
  if block.kind ≠ .paragraph ∨ block.winner = none then found
  else
    let text := normalizedText discovery block
    let spans := rules.sentences text
    (spans.zipIdx.filterMap fun span => nominate rules block text spans span.2 span.1).foldl keep
      found

/-- `discover`. -/
def discover (rules : CertificationText) (discovery : DiscoveryRules)
    (graph : CanonicalDocumentGraph) : List Candidate :=
  graph.blocks.foldl (discoverBlock rules discovery) []

/-! ### Votes -/

/-- `ELEMENTS`. -/
inductive ElementId where
  | m1
  | m2
  | m3
  | m4
  deriving DecidableEq

namespace ElementId

def all : List ElementId := [.m1, .m2, .m3, .m4]

/-- The name of an element. -/
def name : ElementId → String
  | .m1 => "M1"
  | .m2 => "M2"
  | .m3 => "M3"
  | .m4 => "M4"

def primitive : ElementId → String
  | .m1 => "named_means_or_concrete_state"
  | .m2 => "org_boundary"
  | .m3 => "external_verification"
  | .m4 => "concrete_implementation_detail"

end ElementId

structure Selection where
  sourceIndex : Nat
  quote : String
  deriving DecidableEq

/-- The state a raw vote gives an element. -/
inductive VoteState where
  | present
  | unknown
  | conflict
  deriving DecidableEq

structure ElementVote where
  state : VoteState
  evidence : Option Selection
  deriving DecidableEq

/-- What the period of a claim rests on. -/
inductive PeriodKind where
  | reportContext
  | explicitCurrent
  deriving DecidableEq

/-- `TRIGGERS`, as a vote answers them. -/
structure Triggers where
  (governanceClaim compensationLinkClaim : Option Bool)
  deriving DecidableEq

/-- An extraction that the schema accepts. -/
structure Raw where
  track : Option Track
  (safeHarborCategory superlativeQuote : Option String)
  periodKind : Option PeriodKind
  (activity period boundary : Option Selection)
  (m1 m2 m3 m4 : ElementVote)
  triggers : Triggers
  deriving DecidableEq

def Raw.element (raw : Raw) : ElementId → ElementVote
  | .m1 => raw.m1
  | .m2 => raw.m2
  | .m3 => raw.m3
  | .m4 => raw.m4

/-- What a cached response was stored for. -/
structure CacheIdentity where
  (tenantId sourceSha256 : Option String)
  replica : Option Int
  role : Option String
  deriving DecidableEq

/-- What a vote is bound to. -/
structure Identity where
  (tenantId documentVersionId originalSha256 parseManifestId graphSha256 claimId : String)
  claimSha256 : String
  claimRevision : Nat
  (packetSha256 rulepackSha256 : String)
  deriving DecidableEq

structure Vote where
  replicateId : Option Int
  simulated : Option Bool
  (provider requestId requestSha256 providerRequestId modelSha256 promptSha256 : Option String)
  (rawSha256 voteSha256 responseSha256 : Option String)
  cacheIdentity : Option CacheIdentity
  identity : Option Identity
  raw : Option Raw
  deriving DecidableEq

structure Packet where
  packetSha256 : String
  (claimId tenantId graphSha256 : Option String)
  candidate : Option Candidate
  sources : List SourceRef
  status : Option String

/-- The arguments of the assembly. -/
structure Inputs where
  claim : Claim
  dimensions : List (String × Option SourceRef)
  original : OriginalGraph
  packet : Packet
  pack : RulePackSnapshot
  tagRevision : Nat

inductive BindingState where
  | accepted
  | undetermined
  | rejected
  deriving DecidableEq

/-! ### Derived results -/

inductive ResultState where
  | present
  | conflict
  | unknown
  deriving DecidableEq

def ResultState.fact : ResultState → FactState
  | .present => .present
  | .conflict => .conflict
  | .unknown => .unknown

/-- An element of a derived result. -/
structure ElementResult where
  element : ElementId
  primitive : String
  state : ResultState
  authority : String
  sourceRefs : List SourceRef
  binding : BindingState
  deriving DecidableEq

structure Dimensions where
  (activity period boundary : Option SourceRef)
  deriving DecidableEq

/-- What one vote is normalised to. -/
structure Normalized where
  track : Option Track
  periodKind : Option PeriodKind
  dimensions : Dimensions
  elements : List ElementResult
  triggers : Triggers
  reasons : List String
  deriving DecidableEq

/-- `agreement_value`. -/
structure Agreement where
  track : Option Track
  periodKind : Option PeriodKind
  (activity boundary period activitySourceId boundarySourceId : Option String)
  states : List (ElementId × ResultState)
  triggers : Triggers
  deriving DecidableEq

structure DerivedResult where
  replicateId : Int
  (matcherPolicySha256 inputSha256 : String)
  result : Normalized
  outputSha256 : String
  agreement : Agreement
  agreementSha256 : String
  deriving DecidableEq

structure Receipt where
  schema : String
  policy : Json
  policySha256 : String
  identity : Identity
  statementId : String
  statementBoundary : List SourceRef
  rawReceipts : List Vote
  derivedResults : List DerivedResult
  resolved : Bool
  engineDecision : Option Decision
  (candidateAutoConfirmed publicAutoConfirmed simulated : Bool)
  provider : Option String
  unresolved : List String
  receiptSha256 : String
  deriving DecidableEq

structure Rules where
  text : CertificationText
  discovery : DiscoveryRules
  acceptBinding : Inputs → SourceRef → ElementId → Except PyError BindingState
  engine : CanonicalHash
  graphSha256 : OriginalGraph → String
  claimSha256 : Claim → String
  rawSha256 : Raw → String
  voteSha256 : Vote → String
  resultSha256 : Normalized → String
  agreementSha256 : Agreement → String
  statementId : List SourceRef → String
  receiptSha256 : Receipt → String
  policy : Json
  policySha256 : String

/-! ### Checking the votes -/

variable (rules : Rules) (inputs : Inputs)

def identityOf : Identity where
  tenantId := inputs.claim.tenantId
  documentVersionId := inputs.claim.documentVersionId
  originalSha256 := inputs.original.graph.identity.sourceSha256
  parseManifestId := inputs.original.graph.identity.parseManifestId
  graphSha256 := rules.graphSha256 inputs.original
  claimId := inputs.claim.claimId
  claimSha256 := rules.claimSha256 inputs.claim
  claimRevision := inputs.claim.revision
  packetSha256 := inputs.packet.packetSha256
  rulepackSha256 := inputs.pack.sha256

def checkIdentity : Except PyError Unit :=
  let graph := inputs.original.graph.identity
  let claim := inputs.claim
  refuse (graph.tenantId ≠ claim.tenantId ∨ inputs.pack.tenantId ≠ claim.tenantId ∨
    (claim.documentVersionId, claim.parseManifestId, claim.sourceSha256) ≠
      (graph.documentVersionId, graph.parseManifestId, graph.sourceSha256) ∨
    inputs.packet.claimId ≠ some claim.claimId ∨ inputs.packet.tenantId ≠ some claim.tenantId ∨
    inputs.packet.graphSha256 ≠ some (rules.graphSha256 inputs.original))
    (.valueError "C4_ASSEMBLY_IDENTITY_MISMATCH")

def frozenCandidate : Except PyError Candidate :=
  match inputs.packet.candidate with
  | none => .error (.valueError "C4_FROZEN_CANDIDATE_MISMATCH")
  | some candidate => do
    refuse (candidate ∉ discover rules.text rules.discovery inputs.original.graph ∨
      inputs.claim.quote ≠ candidate.quote) (.valueError "C4_FROZEN_CANDIDATE_MISMATCH")
    return candidate

variable (vote : Vote)

def hasProvenance : Bool :=
  vote.replicateId.isSome && vote.simulated.isSome && PyText.truthy vote.provider

variable (votes : List Vote)

def byReplica : List Vote :=
  votes.insertionSort fun first second => first.replicateId.getD 0 ≤ second.replicateId.getD 0

def checkDistinct (ordered : List Vote) (field : Vote → Option String) : Except PyError Unit :=
  refuse (¬(ordered.map field).Nodup ∨ ∃ vote ∈ ordered, PyText.truthy (field vote) = false)
    (.valueError "C4_RESPONSE_REPLAY")

def origin : Option String × Option String × Option String × Option Bool :=
  (vote.modelSha256, vote.promptSha256, vote.provider, vote.simulated)

def requireDigest (name : String) : Option String → Except PyError Unit
  | some value => requireSha256 name value
  | none => .error (.domainValidation (name ++ " must be a 64-char lowercase hex sha256"))

def expectedCache : CacheIdentity where
  tenantId := some inputs.claim.tenantId
  sourceSha256 := some inputs.original.graph.identity.sourceSha256
  replica := vote.replicateId
  role := some "elements"

def checkProvider : Except PyError Unit :=
  if vote.simulated = some true then .ok ()
  else do
    refuse (vote.cacheIdentity ≠ some (expectedCache inputs vote))
      (.valueError "C4_PROVIDER_SCOPE_MISMATCH")
    requireDigest "response_sha256" vote.responseSha256

def checkVote : Except PyError Raw := do
  requireDigest "model_sha256" vote.modelSha256
  requireDigest "prompt_sha256" vote.promptSha256
  requireDigest "request_sha256" vote.requestSha256
  requireDigest "raw_sha256" vote.rawSha256
  requireDigest "vote_sha256" vote.voteSha256
  checkProvider inputs vote
  match vote.raw with
  | none => .error (.valueError "ValidationError")
  | some raw => do
    refuse (vote.identity ≠ some (identityOf rules inputs) ∨
      vote.rawSha256 ≠ some (rules.rawSha256 raw) ∨
      vote.voteSha256 ≠ some (rules.voteSha256 { vote with voteSha256 := none }))
      (.valueError "C4_RAW_RECEIPT_MISMATCH")
    return raw

def checkVotes : Except PyError (List (Vote × Raw)) := do
  refuse (∃ vote ∈ votes, hasProvenance vote = false) (.valueError "C4_PROVENANCE_TYPE_INVALID")
  let ordered := byReplica votes
  refuse (ordered.map Vote.replicateId ≠ [some 1, some 2, some 3])
    (.valueError "C4_INDEPENDENT_REPLICAS_REQUIRED")
  checkDistinct ordered Vote.requestId
  checkDistinct ordered Vote.requestSha256
  checkDistinct ordered Vote.providerRequestId
  refuse ((ordered.map origin).dedup.length ≠ 1) (.valueError "C4_MODEL_PROMPT_PROVIDER_MISMATCH")
  ordered.mapM fun vote => do
    let raw ← checkVote rules inputs vote
    return (vote, raw)

/-! ### Deriving one result -/

def contains (outer inner : SourceRef) : Bool :=
  outer.sourceId = inner.sourceId && outer.charStart ≤ inner.charStart &&
    inner.charStart < inner.charEnd && inner.charEnd ≤ outer.charEnd

structure Setting where
  candidate : Candidate
  claimRefs : List SourceRef
  claimVerified : Bool

def claimRefsOf : List SourceRef :=
  inputs.claim.sourceRefs.map (verifySourceRef rules.discovery.citation inputs.original)

def settingOf (candidate : Candidate) : Setting where
  candidate := candidate
  claimRefs := claimRefsOf rules inputs
  claimVerified := !(claimRefsOf rules inputs).isEmpty && (claimRefsOf rules inputs).all isVerified

variable (setting : Setting)

def Setting.isInside (ref : SourceRef) : Bool :=
  setting.claimRefs.any fun outer => contains outer ref

def verifiedPart (source : SourceRef) (quote : String) : Except PyError (Option SourceRef) :=
  match blockOf inputs.original.graph.blocks source.sourceId with
  | none => .error (.valueError "StopIteration")
  | some block =>
    match findFrom quote (normalizedText rules.discovery block) 0 with
    | none => .ok none
    | some start => do
      let ref ← spanSourceRef rules.discovery block start (start + quote.length)
      if contains { source with sourceId := ref.sourceId } ref then
        let checked := verifySourceRef rules.discovery.citation inputs.original ref
        return if isVerified checked then some checked else none
      else return none

/-- `assemble.ref_for`. -/
def refFor : Option Selection → Except PyError (Option SourceRef)
  | none => .ok none
  | some selection =>
    match inputs.packet.sources[selection.sourceIndex]? with
    | none => .ok none
    | some source =>
      if selection.quote = "" ∨ countIn selection.quote.toList source.quote.length
          source.quote.toList ≠ 1 then .ok none
      else verifiedPart rules inputs source selection.quote

/-- `_plain`. -/
def plain (text : String) : String :=
  String.ofList ((((PyText.strip text).toList.splitBy fun first second =>
    PyText.isSpace first = PyText.isSpace second).map fun run =>
      if run.any PyText.isSpace then [' '] else run).flatten)

def elementGuard (rules : CertificationText) (candidate : Candidate) (quote : String) :
    ElementId → List String
  | .m1 => reasonIf (!PyText.isIn candidate.system quote) "NAMED_SYSTEM_UNRESOLVED"
  | .m2 => reasonIf (!PyText.isIn (plain candidate.scopeQuote) (plain quote))
      "BOUNDARY_SCOPE_INCOMPLETE"
  | .m3 => reasonIf (!(safetyReasons rules quote).isEmpty ||
      !(rules.standards quote).any (fun standard => "ISO " ++ standard = candidate.certificate) ||
      !PyText.isIn candidate.system quote ||
      !PyText.isIn (plain candidate.certificationQuote) (plain quote))
      "DIRECT_CERTIFICATION_ACTIVITY_UNRESOLVED"
  | .m4 => reasonIf (!rules.possesses quote) "CONCRETE_CERTIFICATION_IMPLEMENTATION_UNRESOLVED"

def presentReasons (rules : CertificationText) (setting : Setting) (ref : SourceRef)
    (element : ElementId) : List String :=
  if setting.isInside ref then elementGuard rules setting.candidate ref.quote element
  else ["ELEMENT_OUTSIDE_ATOMIC_ACTIVITY:" ++ element.name]

def openElement (vote : ElementVote) : ResultState :=
  if vote.state = .conflict then .conflict else .unknown

def resultOf (element : ElementId) (state : ResultState) (refs : List SourceRef)
    (binding : BindingState) : ElementResult where
  element := element
  primitive := element.primitive
  state := state
  authority := "raw_guarded"
  sourceRefs := refs
  binding := binding

def openFact (name : String) (state : FactState) : Except PyError ConfirmedFact :=
  ConfirmedFact.make name state [] none false false false "local_claim" none

def votedRef (vote : ElementVote) : Except PyError (Option SourceRef) :=
  if vote.state = .present then refFor rules inputs vote.evidence else .ok none

def boundRef (element : ElementId) (vote : ElementVote) :
    Except PyError (Option SourceRef × BindingState) := do
  let ref ← votedRef rules inputs vote
  match ref with
  | some ref =>
    if setting.claimVerified then do
      let binding ← rules.acceptBinding inputs ref element
      return (some ref, binding)
    else return (some ref, .undetermined)
  | none => return (none, .undetermined)

structure ElementStep where
  result : ElementResult
  reasons : List String
  fact : ConfirmedFact

def stepElement (raw : Raw) (element : ElementId) : Except PyError ElementStep := do
  let vote := raw.element element
  let (ref, binding) ← boundRef rules inputs setting element vote
  match ref, binding with
  | some ref, .accepted =>
    let reasons := presentReasons rules.text setting ref element
    if reasons = [] then do
      let fact ← ConfirmedFact.make element.primitive .present [ref]
        (some inputs.claim.tenantId) true true false "local_claim" none
      return ⟨resultOf element .present [ref] .accepted, [], fact⟩
    else do
      let fact ← openFact element.primitive .unknown
      return ⟨resultOf element .unknown [] .undetermined,
        reasons ++ ["UNRESOLVED:" ++ element.name], fact⟩
  | _, _ => do
    let state := openElement vote
    let fact ← openFact element.primitive state.fact
    return ⟨resultOf element state [] .undetermined, ["UNRESOLVED:" ++ element.name], fact⟩

def stepTrigger (name : String) (value : Option Bool) :
    Except PyError (List String × ConfirmedFact) :=
  if value ≠ some false ∨ setting.claimVerified = false then do
    let fact ← openFact name .unknown
    return (["CONDITIONAL_TRIGGER_REVIEW:" ++ name], fact)
  else do
    let fact ← ConfirmedFact.make name .absent setting.claimRefs (some inputs.claim.tenantId) true
      true true "local_claim" none
    return ([], fact)

variable (kind : Option PeriodKind)

def periodReasons (period : SourceRef) : Except PyError (List String) := do
  let shape := reasonIf (kind = none || !rules.text.isYear period.quote) "PERIOD_UNRESOLVED"
  if kind = some .reportContext then
    match blockOf inputs.original.graph.blocks period.sourceId with
    | none => .error (.valueError "StopIteration")
    | some block =>
      let text := normalizedText rules.discovery block
      return shape ++ reasonIf (!rules.text.isReport text || rules.text.isBorrowed text ||
        !(setting.claimRefs.map SourceRef.pageNum).contains period.pageNum ||
        rules.text.hasYear inputs.claim.quote) "DISCLOSURE_PERIOD_NOT_APPLICABLE"
  else return shape ++ reasonIf (!setting.isInside period) "PERIOD_OUTSIDE_ATOMIC_ACTIVITY"

def periodReasonsOf : Option SourceRef → Except PyError (List String)
  | some period => periodReasons rules inputs setting kind period
  | none => .ok []

variable (dimensions : Dimensions)

def dimensionReasons : Except PyError (List String) := do
  let missing := reasonIf (dimensions.activity.isNone || dimensions.period.isNone ||
    dimensions.boundary.isNone) "ACTIVITY_PERIOD_BOUNDARY_UNRESOLVED"
  let outside := reasonIf (dimensions.activity.isSome &&
    !(dimensions.activity.toList ++ dimensions.boundary.toList).all setting.isInside)
    "DIMENSION_OUTSIDE_ATOMIC_ACTIVITY"
  let period ← periodReasonsOf rules inputs setting kind dimensions.period
  return missing ++ outside ++ period

def boundaryValue (m2Ref : Option SourceRef) (m2State : ResultState) :
    Option String × List String :=
  match m2Ref, dimensions.boundary, m2State with
  | some ref, some hint, .present =>
    if contains ref hint then
      -- An empty quote would be no boundary; a contained hint is not empty.
      (if ref.quote = "" then none else some (plain setting.candidate.scopeQuote), [])
    else (none, ["BOUNDARY_DIMENSION_EVIDENCE_DISAGREEMENT"])
  | _, _, _ => (none, ["BOUNDARY_SOURCE_UNRESOLVED"])

def activityValue : Option String :=
  dimensions.activity.bind fun activity =>
    if PyText.isIn setting.candidate.system activity.quote then some setting.candidate.system
    else none

/-- A derived result with its facts. -/
structure Derivation where
  result : DerivedResult
  facts : List ConfirmedFact

def derive (vote : Vote) (raw : Raw) : Except PyError Derivation := do
  let activity ← refFor rules inputs raw.activity
  let period ← refFor rules inputs raw.period
  let boundary ← refFor rules inputs raw.boundary
  let dimensions : Dimensions := ⟨activity, period, boundary⟩
  let ofDimensions ← dimensionReasons rules inputs setting raw.periodKind dimensions
  let steps ← ElementId.all.mapM (stepElement rules inputs setting raw)
  let governance ← stepTrigger inputs setting "governance_claim" raw.triggers.governanceClaim
  let compensation ←
    stepTrigger inputs setting "compensation_link_claim" raw.triggers.compensationLinkClaim
  let m2Ref ← refFor rules inputs raw.m2.evidence
  let elements := steps.map ElementStep.result
  let m2State := ((elements.find? fun result => result.element = .m2).map
    ElementResult.state).getD .unknown
  let boundaryFound := boundaryValue setting dimensions m2Ref m2State
  let activityFound := activityValue setting dimensions
  let normalized : Normalized := {
    track := raw.track
    periodKind := raw.periodKind
    dimensions := dimensions
    elements := elements
    triggers := raw.triggers
    reasons := sortedSet (reasonIf (decide ((raw.track, raw.safeHarborCategory,
        raw.superlativeQuote) ≠ (some .management, none, none)))
        "TRACK_CATEGORY_SUPERLATIVE_UNRESOLVED" ++
      ofDimensions ++ steps.flatMap ElementStep.reasons ++ governance.1 ++ compensation.1 ++
      boundaryFound.2 ++ reasonIf activityFound.isNone "ACTIVITY_NOT_NAMED_SYSTEM" ++
      safetyReasons rules.text inputs.claim.quote) }
  let agreement : Agreement := {
    track := raw.track
    periodKind := raw.periodKind
    activity := activityFound
    boundary := boundaryFound.1
    period := period.map SourceRef.quote
    activitySourceId := activity.map SourceRef.sourceId
    boundarySourceId := m2Ref.map SourceRef.sourceId
    states := elements.map fun result => (result.element, result.state)
    triggers := raw.triggers }
  return {
    result := {
      replicateId := vote.replicateId.getD 0
      matcherPolicySha256 := rules.policySha256
      inputSha256 := vote.voteSha256.getD ""
      result := normalized
      outputSha256 := rules.resultSha256 normalized
      agreement := agreement
      agreementSha256 := rules.agreementSha256 agreement }
    facts := steps.map ElementStep.fact ++ [governance.2, compensation.2] }

/-! ### Assembling -/

def isEquivalent (results : List DerivedResult) : Bool :=
  (results.map DerivedResult.agreementSha256).dedup.length = 1

def unresolvedOf (results : List DerivedResult) : List String :=
  sortedSet (results.flatMap fun result => result.result.reasons) ++
    reasonIf (decide (inputs.packet.status ≠ some "candidate")) "PACKET_SOURCE_BLOCKED" ++
    reasonIf (!isEquivalent results) "DERIVED_RESULTS_DISAGREE" ++
    reasonIf (!setting.claimVerified) "CLAIM_SOURCE_UNVERIFIED"

variable (ordered : List Vote)

/-- Some vote is simulated. -/
def anySimulated : Bool :=
  ordered.any fun vote => vote.simulated = some true

def decideFacts (facts : List ConfirmedFact) : Except PyError Decision := do
  let first := ordered.head?
  let tags ← ConfirmedTags.make inputs.claim.tenantId inputs.claim.documentVersionId
    inputs.claim.claimId .management facts inputs.tagRevision inputs.packet.packetSha256
    ((first.bind Vote.modelSha256).getD "") ((first.bind Vote.promptSha256).getD "")
    (ordered.map fun vote => vote.voteSha256.getD "") inputs.pack.ontologyVersion none none false
  evaluate rules.engine tags
    { tenantId := inputs.claim.tenantId
      documentVersionId := inputs.claim.documentVersionId
      claimId := inputs.claim.claimId
      packetSha256 := inputs.packet.packetSha256
      decisionRevision := 1
      mode := "disclosure"
      localSynthetic := anySimulated ordered
      companyId := none
      reportingPeriod := none
      industry := none
      regulatoryAxis := "advisory_unverified"
      decision_revision_pos := first_pos } inputs.pack

def isEligible (decision : Decision) : Bool :=
  decision.decisionStatus = .decided && decision.reviewStatus = .autoConfirmed &&
    decision.gapIds.isEmpty

def isApproved (pack : RulePackSnapshot) : Bool :=
  pack.status = "active" && PyText.truthy pack.approvedBy && PyText.truthy pack.approvedAt

def receiptOf (results : List DerivedResult) (decision : Option Decision) : Receipt :=
  let eligible := decision.any isEligible
  let data : Receipt := {
    schema := "FactAssemblyReceiptV1"
    policy := rules.policy
    policySha256 := rules.policySha256
    identity := identityOf rules inputs
    statementId := rules.statementId setting.claimRefs
    statementBoundary := setting.claimRefs
    rawReceipts := ordered
    derivedResults := results
    resolved := isEquivalent results && (unresolvedOf inputs setting results).isEmpty
    engineDecision := decision
    candidateAutoConfirmed := eligible
    publicAutoConfirmed := eligible && !anySimulated ordered &&
      !(inputs.original.graph.candidates.any CandidateBatch.synthetic) && isApproved inputs.pack
    simulated := anySimulated ordered
    provider := ordered.head?.bind Vote.provider
    unresolved := unresolvedOf inputs setting results
    receiptSha256 := "" }
  { data with receiptSha256 := rules.receiptSha256 data }

def decideAgreed (derivations : List Derivation) : Except PyError (Option Decision) :=
  let results := derivations.map Derivation.result
  if isEquivalent results ∧ unresolvedOf inputs setting results = [] then
    match derivations with
    | [] => .ok none
    | first :: _ => (decideFacts rules inputs ordered first.facts).map some
  else .ok none

/-- `assemble`. -/
def assemble : Except PyError Receipt := do
  checkIdentity rules inputs
  let candidate ← frozenCandidate rules inputs
  let checked ← checkVotes rules inputs votes
  let setting := settingOf rules inputs candidate
  let derivations ← checked.mapM fun vote => derive rules inputs setting vote.1 vote.2
  let ordered := checked.map Prod.fst
  let decision ← decideAgreed rules inputs setting ordered derivations
  return receiptOf rules inputs setting ordered (derivations.map Derivation.result) decision

/-- `replay`. -/
def replay (receipt : Receipt) : Except PyError Receipt := do
  refuse (receipt.schema ≠ "FactAssemblyReceiptV1" ∨ receipt.policySha256 ≠ rules.policySha256 ∨
    receipt.receiptSha256 ≠ rules.receiptSha256 { receipt with receiptSha256 := "" })
    (.valueError "C4_ASSEMBLY_RECEIPT_MISMATCH")
  let result ← assemble rules inputs receipt.rawReceipts
  refuse (result ≠ receipt) (.valueError "C4_ASSEMBLY_REPLAY_MISMATCH")
  return result

end ProofOps.Application.Tagging.FactAssemblyC4
