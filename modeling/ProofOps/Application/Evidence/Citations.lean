import ProofOps.Application.Ingest.GraphFusion

/-!
# Citation verification

`verify_source_ref` of `proofops.application.evidence`: a reference is verified against the
winner of its block, or against an attested span of an unverified block.  The caller's
tenant is the graph's; the other case raises before any reference is looked at.
-/

namespace ProofOps.Application.Evidence

open Foundation Domain Ingest

/-- `SpanVerifiedGraph`. -/
structure OriginalGraph where
  graph : CanonicalDocumentGraph
  verifiedSpans : Option (List SourceRef)

/-- `_sha256_hex`. -/
structure CitationRules where
  sha256 : String → String
  normalized : String → String

def blockOf (blocks : List CanonicalBlock) (sourceId : String) : Option CanonicalBlock :=
  blocks.find? fun block => block.sourceId = sourceId

variable (rules : CitationRules) (graph : CanonicalDocumentGraph)

def blocksDistinct : Prop :=
  (graph.blocks.map CanonicalBlock.sourceId).Nodup

instance : Decidable (blocksDistinct graph) :=
  inferInstanceAs (Decidable (List.Nodup _))

/-- `text[start:end]`. -/
def slice (text : String) (start stop : Nat) : String :=
  String.ofList ((text.toList.drop start).take (stop - start))

variable (ref : SourceRef)

def citesWinner (candidate : CandidateBlock) : Bool :=
  let source := candidate.source
  let rawQuote := slice source.rawText ref.charStart ref.charEnd
  (graph.candidates.any fun batch =>
    batch.identity == graph.identity && batch.parserRunId == source.parserRunId &&
      batch.blocks.contains candidate) &&
    source.documentVersionId == ref.documentVersionId &&
    source.parseManifestId == ref.parseManifestId &&
    source.physicalPage == ref.pageNum && source.printedPageLabel == ref.printedPageLabel &&
    candidate.bbox == ref.bbox && rules.sha256 source.rawText == ref.rawTextSha256 &&
    ref.charStart < ref.charEnd && ref.charEnd ≤ source.rawText.length &&
    rules.normalized ref.quote != "" && rules.normalized ref.quote == rules.normalized rawQuote

def citedWinner : Option CandidateBlock :=
  if blocksDistinct graph ∧ ref.documentVersionId = graph.identity.documentVersionId ∧
      ref.parseManifestId = graph.identity.parseManifestId ∧ ref.locationQuality = .located ∧
      ref.bbox.isSome then
    (blockOf graph.blocks ref.sourceId).bind fun block =>
      if block.quality = "verified" then block.winning else none
  else none

/-- `verify_source_ref`. -/
def verifyCitation : SourceRef :=
  match citedWinner graph ref with
  | some candidate =>
    if citesWinner rules graph ref candidate then
      { ref with
        quote := slice candidate.source.rawText ref.charStart ref.charEnd
        verificationState := .verified }
    else { ref with verificationState := .rejected }
  | none => { ref with verificationState := .rejected }

def isVerified : Bool :=
  ref.verificationState == .verified

def withVerified (sourceId : String) : CanonicalDocumentGraph :=
  { graph with
    blocks := graph.blocks.map fun block =>
      if block.sourceId = sourceId then { block with quality := "verified" } else block }

def attests (span : SourceRef) : Bool :=
  span.sourceId == ref.sourceId && isVerified span && span.charStart ≤ ref.charStart &&
    ref.charStart < ref.charEnd && ref.charEnd ≤ span.charEnd &&
    isVerified (verifyCitation rules (withVerified graph ref.sourceId) span)

/-- `verify_source_ref`. -/
def verifySourceRef (original : OriginalGraph) (ref : SourceRef) : SourceRef :=
  let result := verifyCitation rules original.graph ref
  match original.verifiedSpans with
  | none => result
  | some spans =>
    if isVerified result then result
    else
      match blockOf original.graph.blocks ref.sourceId with
      | none => result
      | some block =>
        if block.quality ≠ "unverified" then result
        else if spans.any (attests rules original.graph ref) then
          verifyCitation rules (withVerified original.graph ref.sourceId) ref
        else result

theorem verifyCitation_sourceId : (verifyCitation rules graph ref).sourceId = ref.sourceId := by
  unfold verifyCitation
  split
  · split_ifs <;> rfl
  · rfl

theorem verifySourceRef_sourceId (original : OriginalGraph) (ref : SourceRef) :
    (verifySourceRef rules original ref).sourceId = ref.sourceId := by
  unfold verifySourceRef
  cases original.verifiedSpans with
  | none => exact verifyCitation_sourceId _ _ _
  | some spans =>
    cases blockOf original.graph.blocks ref.sourceId with
    | none =>
      simp only [ite_self]
      exact verifyCitation_sourceId _ _ _
    | some block =>
      simp only
      split_ifs <;> exact verifyCitation_sourceId _ _ _

def blockSourceRef (block : CanonicalBlock) : Except PyError SourceRef :=
  match block.winning with
  | none => .error (.valueError "conflicted candidate has no selected source")
  | some candidate =>
    let source := candidate.source
    if candidate.hasInvalidGeometry then
      .error (.domainValidation "canonical bbox outside the page's displayed extents")
    else if h : 1 ≤ source.physicalPage ∧ source.charStart ≤ source.charEnd then
      .ok
        { sourceId := block.sourceId
          documentVersionId := source.documentVersionId
          parseManifestId := source.parseManifestId
          pageNum := source.physicalPage
          printedPageLabel := source.printedPageLabel
          bbox := candidate.bbox
          rawTextSha256 := rules.sha256 source.rawText
          quote := slice source.rawText source.charStart source.charEnd
          charStart := source.charStart
          charEnd := source.charEnd
          locationQuality := if candidate.bbox.isSome then .located else .unlocated
          verificationState := .candidate
          page_pos := h.1
          offsets_ordered := h.2 }
    else .error (.domainValidation "invalid source reference")

end ProofOps.Application.Evidence
