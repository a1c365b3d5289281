import ProofOps.Application.Claims.Coverage
import ProofOps.Foundation.Packing

/-!
# The plan of an element inventory

`plan_inventory`: the blocks of the selected pages are cut into spans of bounded size and the spans
are packed into chunks, page by page.  A block that cannot be read, located or verified is named
in an error of its page instead.

The plan covers the selected pages without a loss (`plan_lossless`), and no reply makes a page with
an error count as inspected.
-/

namespace ProofOps.Application.Tagging

open Foundation Foundation.Checked Foundation.PyJson Foundation.Sorting Foundation.Packing Domain
  Evidence Ingest Claims

def fxhPolicy : Dict :=
  [("c3_execution", .str "retain-hosted-OCR-context; original-to-selected-page-admission-map"),
    ("input_reservation",
      .str "existing-32768-token-capacity; unchanged-money-and-dispatch-fences"),
    ("inventory_chunk_bytes", .int 2000),
    ("inventory_chunk_spans", .int 8),
    ("inventory_invalid_response",
      .str "settled-invalid-chunk-only; authorization-budget-lease-stop"),
    ("inventory_output_tokens", .int 4096),
    ("inventory_unlocated", .str "uninspected-page; retain-block-error; never-absence"),
    ("max_request_bytes", .int 32768),
    ("profile", .str "fxh_fresh_execution_v1"),
    ("source_execution",
      .str "registered-i24-private-reader-policy-snapshots-and-scoped-raw-OCR")]

def maxChunkUtf8Bytes : Nat :=
  6000

structure ChunkContent where
  selection : Dict
  physicalPage : Nat
  spans : List (SourceRef × Kind)
  policySha256 : String

structure InventoryRules where
  citation : CitationRules
  isUuid : String → Bool
  graphHash : OriginalGraph → String
  policyHash : String
  (cf1Policy majorityPolicy : Json)
  chunkHash : ChunkContent → String

/-! ### The selection -/

/-- The errors that end the planning. -/
inductive InventoryError where
  | sourceRef (error : PyError)
  | valueError (message : String)
  | keyError (key : String)
  | indexError

def cf1Enabled (rules : InventoryRules) (selection : Dict) : Except InventoryError Bool := do
  let value := fieldOf selection "cf1_inventory"
  refuse (value ≠ .null ∧ pyEqual value rules.cf1Policy = false ∧
    pyEqual value rules.majorityPolicy = false) (.valueError "CF1_INVENTORY_POLICY_MISMATCH")
  return value ≠ .null

def pageOf (total : Int) : Json → Option Nat
  | .int page => if 1 ≤ page ∧ page ≤ total then some page.toNat else none
  | _ => none

def pagesOf (selection : Dict) : Option (List Nat) :=
  match fieldOf selection "selected_pages", fieldOf selection "document_total_pages" with
  | .arr items, .int total =>
    if 1 ≤ total then
      (items.mapM (pageOf total)).filter fun pages => decide (pages.Pairwise (· < ·))
    else none
  | _, _ => none

def expectedFields (rules : InventoryRules) (original : OriginalGraph) : List (String × String) :=
  let identity := original.graph.identity
  [("tenant_id", identity.tenantId), ("document_version_id", identity.documentVersionId),
    ("source_sha256", identity.sourceSha256), ("parse_manifest_id", identity.parseManifestId),
    ("graph_sha256", rules.graphHash original), ("inventory_policy_sha256", rules.policyHash)]

def hasRunId (rules : InventoryRules) (selection : Dict) : Bool :=
  match fieldOf selection "run_id" with
  | .str runId => rules.isUuid runId
  | _ => false

/-- `validate_selection`. -/
def validateSelection (rules : InventoryRules) (original : OriginalGraph) (selection : Dict) :
    Except InventoryError (List Nat) := do
  let _ ← cf1Enabled rules selection
  refuse ((Fields.get selection "fxh_inventory_execution").any fun value =>
    !pyEqual value (.obj fxhPolicy)) (.valueError "FXH_INVENTORY_POLICY_MISMATCH")
  let _ ← orRaise (Fields.get selection "selected_pages") (.keyError "selected_pages")
  let _ ← orRaise (Fields.get selection "document_total_pages") (.keyError "document_total_pages")
  refuse (hasRunId rules selection = false) (.valueError "badly formed hexadecimal UUID string")
  refuse ((expectedFields rules original).any fun field =>
    fieldOf selection field.1 != .str field.2) (.valueError "SC1_SCOPE_IDENTITY_MISMATCH")
  orRaise (pagesOf selection) (.valueError "SC1_SCOPE_IDENTITY_MISMATCH")

structure Execution where
  (chunkBytes chunkSpans : Nat)

def policyNumber (fields : Dict) (name : String) : Nat :=
  ((numberOf (fieldOf fields name)).getD 0).floor.toNat

def executionOf (selection : Dict) : Option Execution :=
  match fieldOf selection "fxh_inventory_execution" with
  | .obj fields => some ⟨policyNumber fields "inventory_chunk_bytes", policyNumber fields "inventory_chunk_spans"⟩
  | _ => none

def byteLimit (execution : Option Execution) : Nat :=
  (execution.map Execution.chunkBytes).getD maxChunkUtf8Bytes

/-! ### Blocks -/

/-- One entry of `spans`. -/
structure InventorySpan where
  sourceRef : SourceRef
  kind : Kind

def InventorySpan.size (span : InventorySpan) : Nat :=
  span.sourceRef.quote.utf8ByteSize

/-- `_split`. -/
def split (text : String) (limit : Nat) : List (Nat × Nat) :=
  cut Char.utf8Size limit text.toList

def replaceQuote (ref : SourceRef) (start stop : Nat) (quote : String) :
    Except InventoryError SourceRef :=
  if h : start ≤ stop then
    .ok { ref with charStart := start, charEnd := stop, quote := quote, offsets_ordered := h }
  else
    .error (.sourceRef (.domainValidation "char offsets must satisfy 0 <= start <= end"))

def spansOf (ref : SourceRef) (block : CanonicalBlock) (limit : Nat) :
    Except InventoryError (List InventorySpan) :=
  (split block.rawText limit).mapM fun range => do
    let span ← replaceQuote ref range.1 range.2 (slice block.rawText range.1 range.2)
    return ⟨span, block.kind⟩

inductive BlockPlan where
  | refused (error : String)
  | planned (spans : List InventorySpan)

def BlockPlan.errors : BlockPlan → List String
  | refused error => [error]
  | planned _ => []

def BlockPlan.spans : BlockPlan → List InventorySpan
  | refused _ => []
  | planned spans => spans

def planBlock (rules : InventoryRules) (original : OriginalGraph) (execution : Option Execution)
    (block : CanonicalBlock) : Except InventoryError BlockPlan := do
  if block.winner = none then
    return .refused ("BLOCK_UNREADABLE:" ++ block.sourceId)
  let _ ← orRaise block.winning .indexError
  if PyText.nonBlank block.rawText = false then
    return .refused ("BLOCK_UNREADABLE:" ++ block.sourceId)
  if execution.isSome ∧ (block.candidates.head?.bind CandidateBlock.bbox) = none then
    return .refused ("BLOCK_UNLOCATED:" ++ block.sourceId)
  let ref ← (blockSourceRef rules.citation block).mapError .sourceRef
  let verified := verifySourceRef rules.citation original ref
  if isVerified verified = false then
    return .refused ("BLOCK_UNVERIFIED:" ++ block.sourceId)
  let spans ← spansOf verified block (byteLimit execution)
  return .planned spans

/-! ### Pages -/

/-- `status` of a planned page. -/
inductive PageStatus where
  | pending
  | uninspected
  | inspected

/-- An entry of `chunks`. -/
structure InventoryChunk where
  selection : Dict
  physicalPage : Nat
  spans : List InventorySpan
  (policySha256 chunkSha256 : String)

/-- An entry of `pages`. -/
structure InventoryPage where
  (physicalPage blockCount : Nat)
  (errors chunkSha256s : List String)
  status : PageStatus

structure InventoryPlan where
  selection : Dict
  pages : List InventoryPage
  chunks : List InventoryChunk

def pageBlocks (graph : CanonicalDocumentGraph) (page : Nat) : List CanonicalBlock :=
  sortedBy CanonicalBlock.sourceId (graph.blocks.filter fun block => block.pageNum = page)

def chunkOf (rules : InventoryRules) (selection : Dict) (page : Nat) (spans : List InventorySpan) :
    InventoryChunk where
  selection := selection
  physicalPage := page
  spans := spans
  policySha256 := rules.policyHash
  chunkSha256 := rules.chunkHash
    { selection := selection
      physicalPage := page
      spans := spans.map fun span => (span.sourceRef, span.kind)
      policySha256 := rules.policyHash }

def pageErrors (graph : CanonicalDocumentGraph) (page : Nat) : List String :=
  (if pageBlocks graph page = [] then ["PAGE_MISSING"] else []) ++
    if graph.issues.any fun issue => issue.pageNum == page && issue.state != "resolved" then
      ["PAGE_OPEN_PARSE_ISSUE"]
    else []

def planPage (rules : InventoryRules) (original : OriginalGraph) (selection : Dict) (page : Nat) :
    Except InventoryError (InventoryPage × List InventoryChunk) := do
  let execution := executionOf selection
  -- `b.page_num` reads the first candidate of every block.
  refuse (original.graph.blocks.any fun block => block.candidates.isEmpty) .indexError
  let blocks := pageBlocks original.graph page
  let plans ← blocks.mapM (planBlock rules original execution)
  let errors := pageErrors original.graph page ++ plans.flatMap BlockPlan.errors
  let groups := pack InventorySpan.size (byteLimit execution)
    (execution.map Execution.chunkSpans) (plans.flatMap BlockPlan.spans)
  let chunks := groups.map (chunkOf rules selection page)
  return (
    { physicalPage := page
      blockCount := blocks.length
      errors := sortedBy id errors.dedup
      chunkSha256s := chunks.map InventoryChunk.chunkSha256
      status := if errors ≠ [] ∨ chunks = [] then .uninspected else .pending },
    chunks)

/-- `plan_inventory`. -/
def planInventory (rules : InventoryRules) (original : OriginalGraph) (selection : Dict) :
    Except InventoryError InventoryPlan := do
  let pages ← validateSelection rules original selection
  let planned ← pages.mapM (planPage rules original selection)
  return { selection := selection, pages := planned.map Prod.fst, chunks := planned.flatMap Prod.snd }

/-- A chunk as the inspection left it. -/
structure InspectedChunk where
  physicalPage : Nat
  errors : List String
  inspectedReplicas : List Nat

/-- `assemble_inventory`. -/
def reportedPage (majority : Bool) (chunks : List InspectedChunk) (page : InventoryPage) :
    InventoryPage :=
  let pageChunks := chunks.filter fun chunk => chunk.physicalPage = page.physicalPage
  let failed :=
    if majority then
      decide (([1, 2, 3].filter fun replica =>
        pageChunks.all fun chunk => chunk.inspectedReplicas.contains replica).length < 2)
    else pageChunks.any fun chunk => !chunk.errors.isEmpty
  { page with
    status :=
      if page.errors ≠ [] ∨ failed = true ∨ page.chunkSha256s = [] then .uninspected
      else .inspected }

theorem utf8ByteSize_ofList (chars : List Char) :
    (String.ofList chars).utf8ByteSize = total Char.utf8Size chars := by
  induction chars with
  | nil => rfl
  | cons c chars ih =>
    rw [String.ofList_cons, String.utf8ByteSize_append, String.utf8ByteSize_singleton, ih, total_cons]

theorem toList_slice_eq_between (text : String) (range : Nat × Nat) :
    (slice text range.1 range.2).toList = between text.toList range := by
  unfold slice
  rw [String.toList_ofList]
  rfl

theorem utf8ByteSize_slice (text : String) (range : Nat × Nat) :
    (slice text range.1 range.2).utf8ByteSize = total Char.utf8Size (between text.toList range) := by
  unfold slice
  rw [utf8ByteSize_ofList]
  rfl

theorem policyNumber_eq {fields others : Dict} {name : String} {number : Nat}
    (h : pyEqualFields fields others = true) (hother : Fields.get others name = some (.int number)) :
    policyNumber fields name = number := by
  obtain ⟨found, hfound, hequal⟩ := pyEqualFields_get h hother
  unfold policyNumber fieldOf
  rw [hfound, Option.getD_some, numberOf_of_pyEqual_int hequal, Option.getD_some]
  rw [Rat.floor_intCast, Int.toNat_natCast]

variable {pages : List Nat}

theorem executionOf_cases {rules : InventoryRules} {original : OriginalGraph} {selection : Dict}
    (h : validateSelection rules original selection = .ok pages) :
    executionOf selection = none ∨ executionOf selection = some ⟨2000, 8⟩ := by
  obtain ⟨_, -, h⟩ := bind_ok h
  obtain ⟨⟨⟩, hpolicy, -⟩ := bind_ok h
  rw [refuse_ok_iff] at hpolicy
  unfold executionOf fieldOf
  cases hvalue : Fields.get selection "fxh_inventory_execution" with
  | none => exact .inl rfl
  | some value =>
    rw [hvalue] at hpolicy
    simp only [Option.any_some, Bool.not_eq_true, Bool.not_eq_false'] at hpolicy
    cases value with
    | obj fields =>
      right
      have hbytes := @policyNumber_eq fields fxhPolicy "inventory_chunk_bytes" 2000 hpolicy rfl
      have hspans := @policyNumber_eq fields fxhPolicy "inventory_chunk_spans" 8 hpolicy rfl
      show some (Execution.mk _ _) = _
      rw [hbytes, hspans]
    | _ => exact .inl rfl

theorem utf8Size_le_byteLimit {rules : InventoryRules} {original : OriginalGraph} {selection : Dict}
    (h : validateSelection rules original selection = .ok pages) (c : Char) :
    c.utf8Size ≤ byteLimit (executionOf selection) := by
  have hfour := c.utf8Size_le_four
  rcases executionOf_cases h with hnone | hsome
  · rw [hnone]
    show c.utf8Size ≤ 6000
    omega
  · rw [hsome]
    show c.utf8Size ≤ 2000
    omega

/-! ### Spans of a block -/

structure SpanOf (limit : Nat) (block : CanonicalBlock) (span : InventorySpan) : Prop where
  sourceId : span.sourceRef.sourceId = block.sourceId
  nonempty : span.sourceRef.charStart < span.sourceRef.charEnd
  inside : span.sourceRef.charEnd ≤ block.rawText.length
  quote : span.sourceRef.quote =
    slice block.rawText span.sourceRef.charStart span.sourceRef.charEnd
  size : span.size ≤ limit

structure Tiles (limit : Nat) (block : CanonicalBlock) (spans : List InventorySpan) : Prop where
  text : String.join (spans.map fun span => span.sourceRef.quote) = block.rawText
  each : ∀ span ∈ spans, SpanOf limit block span
  starts : spans.Pairwise fun first second =>
    first.sourceRef.charStart < second.sourceRef.charStart

def CutAt (block : CanonicalBlock) (range : Nat × Nat) (span : InventorySpan) : Prop :=
  span.sourceRef.sourceId = block.sourceId ∧
    (span.sourceRef.charStart, span.sourceRef.charEnd) = range ∧
    span.sourceRef.quote = slice block.rawText range.1 range.2

variable {ref : SourceRef} {graph : CanonicalDocumentGraph} {citation : CitationRules}
variable {plan : BlockPlan}

section Blocks

variable {rules : InventoryRules} {original : OriginalGraph} {execution : Option Execution}
  {block : CanonicalBlock} {limit : Nat}

theorem join_map_slice (text : String) (ranges : List (Nat × Nat)) :
    String.join (ranges.map fun range => slice text range.1 range.2) =
      String.ofList (ranges.flatMap (between text.toList)) := by
  induction ranges with
  | nil => rfl
  | cons range ranges ih =>
    rw [List.map_cons, String.join_cons, ih, List.flatMap_cons, String.ofList_append]
    rfl

theorem tiles_of_cuts {ranges : List (Nat × Nat)} {spans : List InventorySpan}
    (hcuts : Cuts Char.utf8Size limit block.rawText.toList 0 ranges)
    (hspans : List.Forall₂ (CutAt block) ranges spans) : Tiles limit block spans where
  text := by
    have hquotes : spans.map (fun span => span.sourceRef.quote) =
        ranges.map fun range => slice block.rawText range.1 range.2 := by
      clear hcuts
      induction hspans with
      | nil => rfl
      | cons hspan _ ih => rw [List.map_cons, List.map_cons, ih, hspan.2.2]
    rw [hquotes, join_map_slice, hcuts.flatMap_between, List.drop_zero, String.ofList_toList]
  each := by
    intro span hspan
    obtain ⟨range, hrange, hcut⟩ := Paired.exists_left hspans hspan
    obtain ⟨hid, hoffsets, hquote⟩ := hcut
    obtain ⟨-, hlt, hle, hlight⟩ := hcuts.of_mem range hrange
    subst hoffsets
    refine ⟨hid, hlt, ?_, hquote, ?_⟩
    · rw [← String.length_toList]
      exact hle
    · unfold InventorySpan.size
      rw [hquote, utf8ByteSize_slice]
      exact hlight
  starts := by
    refine Paired.pairwise hspans hcuts.pairwise_lt ?_
    rintro first second span other hlt ⟨-, hfirst, -⟩ ⟨-, hsecond, -⟩
    rw [← hfirst, ← hsecond] at hlt
    exact hlt

theorem spansOf_tiles {spans : List InventorySpan}
    (hlimit : ∀ c : Char, c.utf8Size ≤ limit) (hid : ref.sourceId = block.sourceId)
    (h : spansOf ref block limit = .ok spans) : Tiles limit block spans := by
  refine tiles_of_cuts (cut_cuts fun c _ => hlimit c) ?_
  refine (mapM_ok_iff.mp h).imp ?_
  intro range span hspan
  obtain ⟨cited, hcited, hspan⟩ := bind_ok hspan
  cases pure_ok hspan
  unfold replaceQuote at hcited
  split_ifs at hcited
  cases hcited
  exact ⟨hid, rfl, rfl⟩

def blockReasons : List String :=
  ["BLOCK_UNREADABLE:", "BLOCK_UNLOCATED:", "BLOCK_UNVERIFIED:"]

theorem citedWinner_distinct
    {candidate : CandidateBlock} (h : citedWinner graph ref = some candidate) :
    blocksDistinct graph := by
  unfold citedWinner at h
  split_ifs at h with hchecks
  exact hchecks.1

theorem verifyCitation_distinct (h : isVerified (verifyCitation citation graph ref) = true) :
    blocksDistinct graph := by
  unfold verifyCitation at h
  split at h
  · rename_i candidate hcited
    exact citedWinner_distinct hcited
  · cases h

theorem withVerified_sourceIds (graph : CanonicalDocumentGraph) (sourceId : String) :
    (withVerified graph sourceId).blocks.map CanonicalBlock.sourceId =
      graph.blocks.map CanonicalBlock.sourceId := by
  unfold withVerified
  rw [List.map_map]
  refine List.map_congr_left ?_
  intro block _
  show (if block.sourceId = sourceId then _ else block).sourceId = block.sourceId
  split_ifs <;> rfl

theorem verifySourceRef_distinct (h : isVerified (verifySourceRef citation original ref) = true) :
    blocksDistinct original.graph := by
  unfold verifySourceRef at h
  cases hspans : original.verifiedSpans with
  | none =>
    rw [hspans] at h
    exact verifyCitation_distinct h
  | some spans =>
    rw [hspans] at h
    dsimp only at h
    split at h
    · exact verifyCitation_distinct h
    · split at h
      · exact verifyCitation_distinct h
      · split at h
        · exact verifyCitation_distinct h
        · split at h
          · have hdistinct := verifyCitation_distinct h
            unfold blocksDistinct at hdistinct ⊢
            rw [withVerified_sourceIds] at hdistinct
            exact hdistinct
          · exact verifyCitation_distinct h

theorem planBlock_cases (hlimit : ∀ c : Char, c.utf8Size ≤ byteLimit execution)
    (h : planBlock rules original execution block = .ok plan) :
    (∃ reason ∈ blockReasons, plan = .refused (reason ++ block.sourceId)) ∨
      ∃ spans, plan = .planned spans ∧ Tiles (byteLimit execution) block spans ∧
        blocksDistinct original.graph := by
  unfold planBlock at h
  split at h
  · cases pure_ok h
    exact .inl ⟨"BLOCK_UNREADABLE:", by decide, rfl⟩
  · obtain ⟨_, -, h⟩ := bind_ok h
    split at h
    · cases pure_ok h
      exact .inl ⟨"BLOCK_UNREADABLE:", by decide, rfl⟩
    · split at h
      · cases pure_ok h
        exact .inl ⟨"BLOCK_UNLOCATED:", by decide, rfl⟩
      · obtain ⟨ref, href, h⟩ := bind_ok h
        dsimp only at h
        split at h
        · cases pure_ok h
          exact .inl ⟨"BLOCK_UNVERIFIED:", by decide, rfl⟩
        · rename_i hverified
          obtain ⟨spans, hspans, h⟩ := bind_ok h
          cases pure_ok h
          rw [Bool.not_eq_false] at hverified
          have hid : (verifySourceRef rules.citation original ref).sourceId = block.sourceId := by
            rw [verifySourceRef_sourceId]
            exact (blockSourceRef_ok (mapError_ok_iff.mp href)).1
          refine .inr ⟨spans, rfl, spansOf_tiles hlimit hid hspans, ?_⟩
          exact verifySourceRef_distinct hverified

end Blocks

/-! ### The cover -/

def Named (errors : List String) (block : CanonicalBlock) : Prop :=
  ∃ reason ∈ blockReasons, reason ++ block.sourceId ∈ errors

def InventoryPlan.spans (plan : InventoryPlan) : List InventorySpan :=
  plan.chunks.flatMap InventoryChunk.spans

/-- The spans of one block. -/
def InventoryPlan.spansFor (plan : InventoryPlan) (block : CanonicalBlock) : List InventorySpan :=
  plan.spans.filter fun span => span.sourceRef.sourceId = block.sourceId

/-- Where a span begins. -/
def InventorySpan.place (span : InventorySpan) : String × Nat :=
  (span.sourceRef.sourceId, span.sourceRef.charStart)

structure LosslessCover (graph : CanonicalDocumentGraph) (pages : List Nat) (limit : Nat)
    (plan : InventoryPlan) : Prop where
  inOrder : plan.pages.map InventoryPage.physicalPage = pages
  blocks : ∀ page ∈ plan.pages, ∀ block ∈ graph.blocks, block.pageNum = page.physicalPage →
    Named page.errors block ∨ Tiles limit block (plan.spansFor block)
  spans : ∀ span ∈ plan.spans, ∃ block ∈ graph.blocks, block.pageNum ∈ pages ∧
    SpanOf limit block span
  chunks : ∀ chunk ∈ plan.chunks, total InventorySpan.size chunk.spans ≤ limit
  once : (plan.spans.map InventorySpan.place).Nodup
  errors : ∀ page ∈ plan.pages, page.errors ≠ [] → page.status = .uninspected ∧
    ∀ majority chunks, (reportedPage majority chunks page).status = .uninspected

def blockSpans (rules : InventoryRules) (original : OriginalGraph) (execution : Option Execution)
    (block : CanonicalBlock) : List InventorySpan :=
  match planBlock rules original execution block with
  | .ok plan => plan.spans
  | .error _ => []

variable {blocks : List CanonicalBlock} {entries : List (InventoryPage × List InventoryChunk)}

section Plans

variable {rules : InventoryRules} {original : OriginalGraph} {selection : Dict}

theorem mem_pageBlocks {page : Nat} {block : CanonicalBlock} :
    block ∈ pageBlocks graph page ↔ block ∈ graph.blocks ∧ block.pageNum = page := by
  unfold pageBlocks
  rw [mem_sortedBy, List.mem_filter, decide_eq_true_eq]

variable {execution : Option Execution}

theorem blockSpans_eq {block : CanonicalBlock}
    (h : planBlock rules original execution block = .ok plan) :
    blockSpans rules original execution block = plan.spans := by
  unfold blockSpans
  rw [h]

theorem flatMap_spans {plans : List BlockPlan}
    (h : List.Forall₂ (fun block plan => planBlock rules original execution block = .ok plan)
      blocks plans) :
    plans.flatMap BlockPlan.spans = blocks.flatMap (blockSpans rules original execution) := by
  induction h with
  | nil => rfl
  | cons hplan _ ih => rw [List.flatMap_cons, List.flatMap_cons, ih, blockSpans_eq hplan]

theorem blockSpans_cases (hlimit : ∀ c : Char, c.utf8Size ≤ byteLimit execution)
    (block : CanonicalBlock) :
    blockSpans rules original execution block = [] ∨
      Tiles (byteLimit execution) block (blockSpans rules original execution block) ∧
        blocksDistinct original.graph := by
  unfold blockSpans
  split
  · rename_i plan hplan
    rcases planBlock_cases hlimit hplan with ⟨reason, -, rfl⟩ | ⟨spans, rfl, htiles, hdistinct⟩
    · exact .inl rfl
    · exact .inr ⟨htiles, hdistinct⟩
  · exact .inl rfl

structure PagePlanned (rules : InventoryRules) (original : OriginalGraph)
    (execution : Option Execution) (page : Nat) (entry : InventoryPage × List InventoryChunk) :
    Prop where
  ofPage : entry.1.physicalPage = page
  spans : entry.2.flatMap InventoryChunk.spans =
    (pageBlocks original.graph page).flatMap (blockSpans rules original execution)
  chunks : ∀ chunk ∈ entry.2, total InventorySpan.size chunk.spans ≤ byteLimit execution
  blocks : ∀ block ∈ pageBlocks original.graph page, Named entry.1.errors block ∨
    Tiles (byteLimit execution) block (blockSpans rules original execution block) ∧
      blocksDistinct original.graph
  status : entry.1.errors ≠ [] → entry.1.status = .uninspected

/-- Every page that is planned is covered. -/
theorem planPage_planned (hlimit : ∀ c : Char, c.utf8Size ≤ byteLimit (executionOf selection))
    {page : Nat} {entry : InventoryPage × List InventoryChunk}
    (h : planPage rules original selection page = .ok entry) :
    PagePlanned rules original (executionOf selection) page entry := by
  replace h := rest_ok h
  obtain ⟨plans, hplans, h⟩ := bind_ok h
  cases pure_ok h
  have hspans := flatMap_spans (mapM_ok_iff.mp hplans)
  refine ⟨rfl, ?_, ?_, ?_, ?_⟩
  · rw [List.flatMap_map]
    show List.flatMap id _ = _
    rw [List.flatMap_id, pack_flatten, hspans]
  · intro chunk hchunk
    obtain ⟨group, hgroup, rfl⟩ := List.mem_map.mp hchunk
    refine (pack_light ?_ group hgroup).2
    intro span hspan
    rw [hspans] at hspan
    obtain ⟨block, -, hin⟩ := List.mem_flatMap.mp hspan
    rcases blockSpans_cases hlimit block with hnone | ⟨htiles, -⟩
    · rw [hnone] at hin
      exact absurd hin List.not_mem_nil
    · exact (htiles.each span hin).size
  · intro block hblock
    obtain ⟨plan, hplan, hok⟩ := exists_of_mapM_ok hplans hblock
    rw [blockSpans_eq hok]
    rcases planBlock_cases hlimit hok with ⟨reason, hreason, rfl⟩ | ⟨spans, rfl, htiles, hdistinct⟩
    · refine .inl ⟨reason, hreason, ?_⟩
      rw [mem_sortedBy, List.mem_dedup]
      refine List.mem_append_right _ (List.mem_flatMap.mpr ⟨_, hplan, ?_⟩)
      exact List.mem_singleton_self _
    · exact .inr ⟨htiles, hdistinct⟩
  · intro herrors
    refine if_pos (.inl ?_)
    intro hnil
    refine herrors ?_
    rw [hnil]
    rfl

theorem validateSelection_pagesOf
    (h : validateSelection rules original selection = .ok pages) : pagesOf selection = some pages := by
  obtain ⟨_, -, h⟩ := bind_ok h
  obtain ⟨_, -, h⟩ := bind_ok h
  obtain ⟨_, -, h⟩ := bind_ok h
  obtain ⟨_, -, h⟩ := bind_ok h
  obtain ⟨_, -, h⟩ := bind_ok h
  obtain ⟨_, -, h⟩ := bind_ok h
  exact orRaise_ok_iff.mp h

theorem validateSelection_increasing
    (h : validateSelection rules original selection = .ok pages) : pages.Pairwise (· < ·) := by
  have hpages := validateSelection_pagesOf h
  unfold pagesOf at hpages
  split at hpages
  · split at hpages
    · exact of_decide_eq_true (Option.filter_eq_some_iff.mp hpages).2
    · cases hpages
  · cases hpages

def selectedBlocks (graph : CanonicalDocumentGraph) (pages : List Nat) : List CanonicalBlock :=
  pages.flatMap (pageBlocks graph)

/-- No block is selected twice. -/
theorem selectedBlocks_nodup (hpages : pages.Pairwise (· < ·)) (h : blocksDistinct graph) :
    ((selectedBlocks graph pages).map CanonicalBlock.sourceId).Nodup := by
  have hgraph : graph.blocks.Nodup := List.Nodup.of_map _ h
  have hnodup : (selectedBlocks graph pages).Nodup := by
    refine List.nodup_flatMap.mpr ⟨?_, ?_⟩
    · intro page _
      exact (sortedBy_perm _ _).nodup_iff.mpr (hgraph.filter _)
    · refine hpages.imp ?_
      intro first second hlt block hfirst hsecond
      rw [mem_pageBlocks] at hfirst hsecond
      omega
  refine List.Nodup.map_on ?_ hnodup
  intro first hfirst second hsecond heq
  obtain ⟨_, -, hfirst⟩ := List.mem_flatMap.mp hfirst
  obtain ⟨_, -, hsecond⟩ := List.mem_flatMap.mp hsecond
  exact List.inj_on_of_nodup_map h (mem_pageBlocks.mp hfirst).1 (mem_pageBlocks.mp hsecond).1 heq

theorem mem_selectedBlocks {block : CanonicalBlock} :
    block ∈ selectedBlocks graph pages ↔ block ∈ graph.blocks ∧ block.pageNum ∈ pages := by
  unfold selectedBlocks
  rw [List.mem_flatMap]
  constructor
  · rintro ⟨page, hpage, hblock⟩
    obtain ⟨hgraph, rfl⟩ := mem_pageBlocks.mp hblock
    exact ⟨hgraph, hpage⟩
  · rintro ⟨hgraph, hpage⟩
    exact ⟨_, hpage, mem_pageBlocks.mpr ⟨hgraph, rfl⟩⟩

theorem flatMap_chunks (h : List.Forall₂ (PagePlanned rules original execution) pages entries) :
    (entries.flatMap Prod.snd).flatMap InventoryChunk.spans =
      (selectedBlocks original.graph pages).flatMap (blockSpans rules original execution) := by
  unfold selectedBlocks
  induction h with
  | nil => rfl
  | cons hpage _ ih =>
    rw [List.flatMap_cons, List.flatMap_append, hpage.spans, ih, List.flatMap_cons,
      List.flatMap_append]

theorem forall₂_map_eq (h : List.Forall₂ (PagePlanned rules original execution) pages entries) :
    pages = entries.map fun entry => entry.1.physicalPage := by
  induction h with
  | nil => rfl
  | cons hpage _ ih => rw [List.map_cons, ← ih, hpage.ofPage]

theorem blockSpans_sourceId (hlimit : ∀ c : Char, c.utf8Size ≤ byteLimit execution)
    (block : CanonicalBlock) :
    ∀ span ∈ blockSpans rules original execution block,
      span.sourceRef.sourceId = block.sourceId := by
  intro span hspan
  rcases blockSpans_cases hlimit block with hnone | ⟨htiles, -⟩
  · rw [hnone] at hspan
    exact absurd hspan List.not_mem_nil
  · exact (htiles.each span hspan).sourceId

/-- No two spans begin at one place. -/
theorem places_nodup (hlimit : ∀ c : Char, c.utf8Size ≤ byteLimit execution)
    (hnames : blocksDistinct original.graph → (blocks.map CanonicalBlock.sourceId).Nodup) :
    ((blocks.flatMap (blockSpans rules original execution)).map InventorySpan.place).Nodup := by
  by_cases hdistinct : blocksDistinct original.graph
  · rw [List.map_flatMap, List.nodup_flatMap]
    constructor
    · intro block _
      rcases blockSpans_cases hlimit block with hnone | ⟨htiles, -⟩
      · rw [hnone]
        exact List.nodup_nil
      · refine List.Pairwise.map _ ?_ htiles.starts
        intro first second hlt heq
        have hsame : first.sourceRef.charStart = second.sourceRef.charStart := congrArg Prod.snd heq
        omega
    · refine (List.pairwise_map.mp (hnames hdistinct)).imp ?_
      intro first second hne place hfirst hsecond
      obtain ⟨span, hspan, rfl⟩ := List.mem_map.mp hfirst
      obtain ⟨other, hother, heq⟩ := List.mem_map.mp hsecond
      have hsame : other.sourceRef.sourceId = span.sourceRef.sourceId := congrArg Prod.fst heq
      rw [blockSpans_sourceId hlimit first span hspan,
        blockSpans_sourceId hlimit second other hother] at hsame
      exact hne hsame.symm
  · -- Without identifiers of their own, no block is planned.
    have hnone : blocks.flatMap (blockSpans rules original execution) = [] := by
      rw [List.flatMap_eq_nil_iff]
      intro block _
      rcases blockSpans_cases hlimit block with hnone | ⟨-, h⟩
      · exact hnone
      · exact absurd h hdistinct
    rw [hnone]
    exact List.nodup_nil

/-- **The plan is a lossless cover.** -/
theorem plan_lossless {plan : InventoryPlan} (h : planInventory rules original selection = .ok plan) :
    ∃ pages, pagesOf selection = some pages ∧
      LosslessCover original.graph pages (byteLimit (executionOf selection)) plan := by
  obtain ⟨pages, hpages, h⟩ := bind_ok h
  obtain ⟨entries, hentries, h⟩ := bind_ok h
  cases pure_ok h
  have hlimit := utf8Size_le_byteLimit hpages
  have hincreasing := validateSelection_increasing hpages
  have hplanned : List.Forall₂ (PagePlanned rules original (executionOf selection)) pages entries :=
    (mapM_ok_iff.mp hentries).imp fun _ _ hpage => planPage_planned hlimit hpage
  have hspans := flatMap_chunks hplanned
  refine ⟨pages, validateSelection_pagesOf hpages, ?_, ?_, ?_, ?_, ?_, ?_⟩
  · rw [List.map_map]
    exact (forall₂_map_eq hplanned).symm
  · intro page hpage block hblock hon
    obtain ⟨entry, hentry, rfl⟩ := List.mem_map.mp hpage
    obtain ⟨number, hnumber, hentry⟩ := Paired.exists_left hplanned hentry
    rw [hentry.ofPage] at hon
    rcases hentry.blocks block (mem_pageBlocks.mpr ⟨hblock, hon⟩) with hnamed | ⟨htiles, hdistinct⟩
    · exact .inl hnamed
    · right
      have hselected : block ∈ selectedBlocks original.graph pages :=
        mem_selectedBlocks.mpr ⟨hblock, hon ▸ hnumber⟩
      have howner : ∀ block ∈ selectedBlocks original.graph pages,
          ∀ span ∈ blockSpans rules original (executionOf selection) block,
            span.sourceRef.sourceId = block.sourceId :=
        fun block _ => blockSpans_sourceId hlimit block
      have hfilter := filter_flatMap_owner howner (selectedBlocks_nodup hincreasing hdistinct)
        hselected
      show Tiles _ block (((entries.flatMap Prod.snd).flatMap InventoryChunk.spans).filter _)
      rw [hspans, hfilter]
      exact htiles
  · intro span hspan
    change span ∈ (entries.flatMap Prod.snd).flatMap InventoryChunk.spans at hspan
    rw [hspans] at hspan
    obtain ⟨block, hblock, hin⟩ := List.mem_flatMap.mp hspan
    obtain ⟨hgraph, hon⟩ := mem_selectedBlocks.mp hblock
    rcases blockSpans_cases hlimit block with hnone | ⟨htiles, -⟩
    · rw [hnone] at hin
      exact absurd hin List.not_mem_nil
    · exact ⟨block, hgraph, hon, htiles.each span hin⟩
  · intro chunk hchunk
    obtain ⟨entry, hentry, hin⟩ := List.mem_flatMap.mp hchunk
    obtain ⟨_, -, hentry⟩ := Paired.exists_left hplanned hentry
    exact hentry.chunks chunk hin
  · show (((entries.flatMap Prod.snd).flatMap InventoryChunk.spans).map _).Nodup
    rw [hspans]
    exact places_nodup hlimit fun hdistinct => selectedBlocks_nodup hincreasing hdistinct
  · intro page hpage herrors
    obtain ⟨entry, hentry, rfl⟩ := List.mem_map.mp hpage
    obtain ⟨_, -, hentry⟩ := Paired.exists_left hplanned hentry
    exact ⟨hentry.status herrors, fun _ _ => if_pos (.inl herrors)⟩

end Plans

namespace InventorySample

theorem side_pos : (0 : ℚ) < 1 :=
  one_pos

def box : Bbox :=
  ⟨0, 0, 1, 1, side_pos, side_pos⟩

def located (native text : String) : CandidateBlock :=
  let candidate := Claims.Sample.candidate "run" native text
  { candidate with source := { candidate.source with nativeBbox := some box } }

def identity : Numeric.Identity :=
  Claims.Sample.graph.identity

def batch : CandidateBatch where
  identity := identity
  parserRunId := "run"
  parserName := "parser"
  parserFamily := "family"
  blocks := [located "1" "Emissions fell.", located "2" " "]
  edges := []
  synthetic := false
  own_blocks := by decide
  native_nodup := by decide

def block (sourceId native text : String) : CanonicalBlock where
  sourceId := sourceId
  kind := .paragraph
  candidates := [located native text]
  independentFamilies := ["family"]
  quality := "verified"
  winner := some 0

def original : OriginalGraph where
  graph :=
    { identity := identity
      blocks := [block "sentence" "1" "Emissions fell.", block "empty" "2" " "]
      edges := []
      issues := []
      candidates := [batch] }
  verifiedSpans := none

def rules : InventoryRules where
  citation := Claims.Sample.rules.citation
  isUuid := fun _ => true
  graphHash := fun _ => "graph"
  policyHash := "policy"
  cf1Policy := .str "cf1"
  majorityPolicy := .str "majority"
  chunkHash := fun content => String.join (content.spans.map fun span => span.1.quote)

def selection : Dict :=
  [("document_total_pages", .int 1), ("document_version_id", .str identity.documentVersionId),
    ("graph_sha256", .str "graph"), ("inventory_policy_sha256", .str "policy"),
    ("parse_manifest_id", .str identity.parseManifestId), ("run_id", .str "run"),
    ("selected_pages", .arr [.int 1]), ("source_sha256", .str identity.sourceSha256),
    ("tenant_id", .str identity.tenantId)]

end InventorySample

theorem plan_lossless_sample : ∃ plan pages,
    planInventory InventorySample.rules InventorySample.original InventorySample.selection =
        .ok plan ∧
      plan.spans.map (fun span => span.sourceRef.quote) = ["Emissions fell."] ∧
      plan.pages.map InventoryPage.errors = [["BLOCK_UNREADABLE:empty"]] ∧
      LosslessCover InventorySample.original.graph pages 6000 plan := by
  have hrun : Returns
      (planInventory InventorySample.rules InventorySample.original InventorySample.selection)
      fun plan => plan.spans.map (fun span => span.sourceRef.quote) = ["Emissions fell."] ∧
        plan.pages.map InventoryPage.errors = [["BLOCK_UNREADABLE:empty"]] := by
    decide +kernel
  obtain ⟨plan, hplan, hspans, herrors⟩ := hrun
  obtain ⟨pages, -, hcover⟩ := plan_lossless hplan
  exact ⟨plan, pages, hplan, hspans, herrors, hcover⟩

end ProofOps.Application.Tagging
