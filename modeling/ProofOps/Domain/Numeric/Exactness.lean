import ProofOps.Domain.Numeric.Attained

/-!
# The interval verdict is exact

A binding that reaches its verdict is consistent exactly when some choice of reals,
one in each observation's interval and one in the reported interval, satisfies the
kind's formula.  The loop renders the computed value before it keeps the status: a
value whose numerator or denominator has more than 4300 digits raises there, and the
whole call has no result.
-/

namespace ProofOps.Domain.Numeric

open Foundation Foundation.Checked Foundation.PyText

def ReachesVerdict (hash : NumericHash) (observations : List NumericObservation)
    (claims : List NumericClaim) (original : Option NumericSnapshot) (binding : ClaimBinding) :
    Prop :=
  ∃ found, comparable hash binding (selectedItems observations binding)
      (claims.find? fun claim => claim.claimId == binding.claimId) original = .ok found ∧
    ∃ computed, compute binding.kind found.displays = .ok computed

variable {items : List NumericObservation} {displays : List Display} {computed : Computed}
variable {result : CheckResult} {refusal : Refusal}

section Check

variable {hash : NumericHash} {observations : List NumericObservation}
variable {bindings : List ClaimBinding} {tenantId : String} {claims : List NumericClaim}
variable {original : Option NumericSnapshot}

structure Admitted (observations : List NumericObservation) (bindings : List ClaimBinding)
    (tenantId : String) (claims : List NumericClaim) (original : Option NumericSnapshot) :
    Prop where
  inputs : checkInputs observations bindings tenantId claims original = .ok ()
  versions : ∀ binding ∈ bindings, mismatched observations binding = false

def StatusExact (hash : NumericHash) (observations : List NumericObservation)
    (original : Option NumericSnapshot) (binding : ClaimBinding) (result : CheckResult) : Prop :=
  ∃ snapshot displays reported, original = some snapshot ∧
    (selectedItems observations binding).mapM (observationDisplay hash snapshot) = some displays ∧
    display (binding.reportedValue.getD "") 1 = some reported ∧
    (result.status = .consistent ↔ Attainable binding.kind displays reported) ∧
    (result.status = .inconsistent ↔ ¬Attainable binding.kind displays reported)

def VerdictsExact (hash : NumericHash) (observations : List NumericObservation)
    (bindings : List ClaimBinding) (tenantId : String) (claims : List NumericClaim)
    (original : Option NumericSnapshot) : Prop :=
  ∃ results, checkNumericConsistency hash observations bindings tenantId claims original =
      .ok results ∧
    List.Forall₂ (fun binding result => ReachesVerdict hash observations claims original binding →
      StatusExact hash observations original binding result) bindings results

def FormulaWritable (observations : List NumericObservation) (binding : ClaimBinding) : Prop :=
  ∀ displays ∈ (selectedItems observations binding).mapM itemDisplay,
    ∀ value ∈ kindFormula binding.kind (displays.map Display.value), Writable value

variable {found : Comparable}

theorem judged_ok_iff {binding : ClaimBinding} :
    (∃ result, judged binding found computed = .ok result) ↔ Writable computed.value := by
  have hratio : ∀ {rendered : Option String}, exactDecimal computed.value = rendered →
      ((∃ ratio, exactRatio rendered computed.value = .ok ratio) ↔
        (¬Terminating computed.value → Writable computed.value)) := by
    rintro rendered rfl
    rw [← exactDecimal_none_iff]
    cases exactDecimal computed.value with
    | some text => simp [exactRatio]
    | none =>
      have hsigned : (∃ text, strSigned computed.value.num = .ok text) ↔
          computed.value.num.natAbs < 10 ^ strDigitLimit := by
        rw [← strInt_ok_iff]
        simp only [strSigned, map_ok_iff]
        exact ⟨fun ⟨_, text, h, _⟩ => ⟨text, h⟩, fun ⟨text, h⟩ => ⟨_, text, h, rfl⟩⟩
      constructor
      · rintro ⟨ratio, h⟩ -
        obtain ⟨numerator, hnumerator, h⟩ := bind_ok h
        obtain ⟨denominator, hdenominator, -⟩ := bind_ok h
        exact ⟨hsigned.mp ⟨_, hnumerator⟩, strInt_ok_iff.mp ⟨_, hdenominator⟩⟩
      · intro h
        obtain ⟨numerator, hnumerator⟩ := hsigned.mpr (h rfl).numerator
        obtain ⟨denominator, hdenominator⟩ := strInt_ok_iff.mpr (h rfl).denominator
        simp [exactRatio, hnumerator, hdenominator, bind, Except.bind, pure, Except.pure]
  unfold judged
  rw [exists_bind_ok_iff]
  constructor
  · rintro ⟨rendered, hrendered, hrest⟩
    obtain ⟨hsame, hterminating⟩ := exactDecimalText_ok_iff.mp hrendered
    obtain ⟨ratio, hwritten, -⟩ := exists_bind_ok_iff.mp hrest
    by_cases h : Terminating computed.value
    · exact hterminating h
    · exact (hratio hsame).mp ⟨ratio, hwritten⟩ h
  · intro h
    obtain ⟨ratio, hwritten⟩ := (hratio rfl).mpr fun _ => h
    exact ⟨_, exactDecimalText_ok_iff.mpr ⟨rfl, fun _ => h⟩,
      exists_bind_ok_iff.mpr ⟨ratio, hwritten, _, rfl⟩⟩

theorem judged_status {binding : ClaimBinding} (h : judged binding found computed = .ok result) :
    result.status = verdict computed found.reported := by
  obtain ⟨rendered, -, h⟩ := bind_ok h
  obtain ⟨ratio, -, h⟩ := bind_ok h
  rw [← pure_ok h]
  rfl

theorem reached_spec {binding : ClaimBinding} {claim : Option NumericClaim}
    (hfound : comparable hash binding (selectedItems observations binding) claim original =
      .ok found) :
    (binding.kind = .comparison → found.displays.length = 1) ∧
      (∀ shown ∈ found.displays, shown.lower ≤ shown.value ∧ shown.value ≤ shown.upper) ∧
      (selectedItems observations binding).mapM itemDisplay = some found.displays := by
  obtain ⟨hlength, snapshot, -, hdisplays, -⟩ := comparable_ok hfound
  obtain ⟨hcount, hwithin⟩ := mapM_display_within (mapM_display_eq hdisplays)
  refine ⟨?_, hwithin, mapM_display_eq hdisplays⟩
  intro hkind
  rw [hcount, hlength, binding.comparison_single hkind]

theorem formulaWritable_iff {binding : ClaimBinding} {claim : Option NumericClaim}
    (hfound : comparable hash binding (selectedItems observations binding) claim original =
      .ok found) (hcomputed : compute binding.kind found.displays = .ok computed) :
    FormulaWritable observations binding ↔ Writable computed.value := by
  obtain ⟨hcomparison, hwithin, hdisplays⟩ := reached_spec hfound
  unfold FormulaWritable
  rw [hdisplays]
  simp [compute_value hwithin hcomparison hcomputed]

/-- A judged binding has an exact status. -/
theorem judged_statusExact {binding : ClaimBinding} {claim : Option NumericClaim}
    (hfound : comparable hash binding (selectedItems observations binding) claim original =
      .ok found) (hcomputed : compute binding.kind found.displays = .ok computed)
    (h : judged binding found computed = .ok result) :
    StatusExact hash observations original binding result := by
  obtain ⟨hcomparison, hwithin, -⟩ := reached_spec hfound
  obtain ⟨-, snapshot, horiginal, hdisplays, hreported⟩ := comparable_ok hfound
  have hordered : ∀ shown ∈ found.displays, shown.lower ≤ shown.upper :=
    fun shown hshown => (hwithin shown hshown).1.trans (hwithin shown hshown).2
  have hstatus := judged_status h
  have hexact : result.status = .consistent ↔
      Attainable binding.kind found.displays found.reported := by
    rw [hstatus, verdict_consistent_iff (compute_ordered hordered hcomputed)
      (display_ordered (by norm_num) hreported)]
    simp only [← compute_image hordered hcomparison hcomputed]
    rfl
  refine ⟨snapshot, found.displays, found.reported, horiginal, hdisplays, hreported, hexact, ?_⟩
  rw [← hexact, hstatus]
  rcases verdict_cases computed found.reported with hverdict | hverdict <;> simp [hverdict]

theorem checkBinding_ok_iff {binding : ClaimBinding}
    (hversion : mismatched observations binding = false) :
    (∃ result, checkBinding hash observations claims original binding = .ok result) ↔
      (ReachesVerdict hash observations claims original binding →
        FormulaWritable observations binding) := by
  unfold checkBinding ReachesVerdict
  rw [if_neg (by simp [hversion])]
  cases hfound : comparable hash binding (selectedItems observations binding)
      (claims.find? fun claim => claim.claimId == binding.claimId) original with
  | error refusal => simp
  | ok found =>
    cases hcomputed : compute binding.kind found.displays with
    | error refusal => simp [hcomputed]
    | ok computed => simp [hcomputed, judged_ok_iff, formulaWritable_iff hfound hcomputed]

theorem checkBinding_statusExact {binding : ClaimBinding}
    (h : checkBinding hash observations claims original binding = .ok result)
    (hreach : ReachesVerdict hash observations claims original binding) :
    StatusExact hash observations original binding result := by
  obtain ⟨found, hfound, computed, hcomputed⟩ := hreach
  unfold checkBinding at h
  split_ifs at h
  simp only [hfound, hcomputed] at h
  exact judged_statusExact hfound hcomputed h

theorem checkNumericConsistency_eq
    (hadmitted : Admitted observations bindings tenantId claims original) :
    checkNumericConsistency hash observations bindings tenantId claims original =
      bindings.mapM (checkBinding hash observations claims original) := by
  unfold checkNumericConsistency
  rw [hadmitted.inputs]
  rfl

theorem formulaWritable_of_verdictsExact
    (hadmitted : Admitted observations bindings tenantId claims original)
    (h : VerdictsExact hash observations bindings tenantId claims original)
    {binding : ClaimBinding} (hbinding : binding ∈ bindings)
    (hreach : ReachesVerdict hash observations claims original binding) :
    FormulaWritable observations binding := by
  obtain ⟨results, hresults, -⟩ := h
  rw [checkNumericConsistency_eq hadmitted] at hresults
  have hok := exists_mapM_ok_iff.mp ⟨results, hresults⟩ binding hbinding
  exact (checkBinding_ok_iff (hadmitted.versions binding hbinding)).mp hok hreach

/-- **The verdict is exact where the value can be written.**  In a call that its own checks admit, every
binding that reaches the verdict has the exact status, if and only if the kind's formula of the
displayed values of each such binding has a numerator and a denominator of at most 4300 digits. -/
theorem check_verdict_exact_iff
    (hadmitted : Admitted observations bindings tenantId claims original) :
    VerdictsExact hash observations bindings tenantId claims original ↔
      ∀ binding ∈ bindings, ReachesVerdict hash observations claims original binding →
        FormulaWritable observations binding := by
  constructor
  · intro h binding hbinding hreach
    exact formulaWritable_of_verdictsExact hadmitted h hbinding hreach
  · intro hwritable
    obtain ⟨results, hresults⟩ := exists_mapM_ok_iff.mpr fun binding hbinding =>
      (checkBinding_ok_iff (hadmitted.versions binding hbinding)).mpr (hwritable binding hbinding)
    refine ⟨results, (checkNumericConsistency_eq hadmitted).trans hresults,
      (mapM_ok_iff.mp hresults).imp ?_⟩
    intro binding result hresult hreach
    exact checkBinding_statusExact hresult hreach

end Check

/-! ### A growth claim over two cells

Ten percent against the cells "100 t" of 2022 and "110 t" of 2023, read from one
table that no note or issue touches.  The cell of 2023 may hold another text, such
as a number of 4301 digits. -/

namespace Sample

/-- The digits of `10 ** 4300`. -/
def longWhole : List Char :=
  '1' :: List.replicate strDigitLimit '0'

def longDigits : String :=
  String.ofList longWhole

def longText : String :=
  String.ofList (longWhole ++ [' ', 't'])

def shortDigest : String → String
  | "Emissions grew by 10 % in 2023." =>
    "c23eb6ede8a25b4530aec358111a7de88a4c8e1b41db3f3e385782ce6151503a"
  | "100 t" => "88e42fc1c2b65dee206ea9e11010bc3a4f161bf3b0834dc0734a4b5570ca0902"
  | "110 t" => "8d4cd51c533f5eb8a406334fca225d74968fecc67af7a512d60c7f6a189a5d27"
  | "emissions" => "756299a85953897e52e9de503d30345622d44df0c1260060804386bfb614223f"
  | "2022" => "b1ab1e892617f210425f658cf1d361b5489028c8771b56d845fe1c62c1fbc8b0"
  | "2023" => "d398b29d3dbbb9bf201d4c7e1c19ff9d43c15fd45a0cec46fbe9885ec3f6e97f"
  | _ => ""

def textDigest (text : String) : String :=
  if text = longText then "2be6e9c74e0a4d8b2e3fe828073ad295c513deac59bc4d121d324aa865ff22cf"
  else shortDigest text

def hash : NumericHash where
  text := textDigest
  conditionBinding := fun _ => ""
  aggregationBinding := fun _ => ""
  legacyAggregationBinding := fun _ => ""

def identity : Identity where
  tenantId := "tenant"
  documentVersionId := "document"
  parseManifestId := "manifest"
  sourceSha256 := "source"

def box : Bbox where
  x0 := 0
  y0 := 0
  x1 := 1
  y1 := 1
  width_pos := zero_lt_one
  height_pos := zero_lt_one

variable (sourceId text : String)

def candidate (place : Option (Int × Int)) : NumericCandidate where
  source :=
    { documentVersionId := "document", parseManifestId := "manifest", parserRunId := "parser"
      sourceNativeId := sourceId, physicalPage := 1, printedPageLabel := none
      nativeBbox := some box, rawText := text, charStart := 0, charEnd := text.length }
  rowNumber := place.map Prod.fst
  columnNumber := place.map Prod.snd
  columnSpan := none
  bbox := some box
  geometry := ""

def block (kind sourceId text : String) (place : Option (Int × Int)) : NumericBlock where
  sourceId := sourceId
  kind := kind
  candidates := [candidate sourceId text place]
  independentFamilies := []
  quality := "verified"
  winner := some 0

def cell (row column : Int) : NumericBlock :=
  block "table_cell" sourceId text (some (row, column))

def span (text quote : String) (start stop : Nat) (hspan : start ≤ stop) : SourceRef where
  sourceId := sourceId
  documentVersionId := "document"
  parseManifestId := "manifest"
  pageNum := 1
  printedPageLabel := none
  bbox := some box
  rawTextSha256 := textDigest text
  quote := quote
  charStart := start
  charEnd := stop
  locationQuality := .located
  verificationState := .verified
  page_pos := first_pos
  offsets_ordered := hspan

def whole : SourceRef :=
  span sourceId text text 0 text.length (Nat.zero_le _)

def sentence : String := "Emissions grew by 10 % in 2023."

section Table

variable (current : String)

def cells : List NumericBlock :=
  [cell "metric" "emissions" 1 0, cell "earlier" "2022" 0 1, cell "later" "2023" 0 2,
    cell "baseline" "100 t" 1 1, cell "current" current 1 2]

def blocks : List NumericBlock :=
  block "table" "table" "emissions" none :: block "paragraph" "sentence" sentence none ::
    cells current

def snapshot : NumericSnapshot where
  identity := identity
  blocks := blocks current
  candidates :=
    [{ identity, parserRunId := "parser", blocks := (blocks current).flatMap (·.candidates) }]
  edges := (cells current).map fun cell =>
    { sourceId := cell.sourceId, targetId := "table", relation := "table_parent" }
  issues := []

end Table

def observation (root value digits heading period : String) (column : Int) :
    NumericObservation where
  observationId := root
  tableId := "table"
  row := 1
  column := column
  identity := identity
  metricRaw := "emissions"
  scope := none
  subject := none
  reportingPeriod := period
  scope2Basis := none
  organizationalBoundary := none
  unitRaw := some "t"
  unitCanonical := some "t"
  scaleMultiplier := "1"
  denominator := none
  valueRaw := value
  valueDecimal := some digits
  valueState := "value"
  quality := "verified"
  sourceRefs := [whole root value, whole "metric" "emissions", whole heading period]
  sourceBlocks := [cell root value 1 column, cell "metric" "emissions" 1 0,
    cell heading period 0 column]
  parentRelations := [{ source := root, target := "metric", name := "metric_raw" },
    { source := root, target := heading, name := "reporting_period" }]

def reading (current digits : String) : NumericObservation :=
  observation "current" current digits "later" "2023" 2

def observations (current digits : String) : List NumericObservation :=
  [observation "baseline" "100 t" "100" "earlier" "2022" 1, reading current digits]

def claim : NumericClaim where
  claimId := "claim"
  identity := identity
  quote := sentence
  sourceQuality := "verified"
  sourceRefs := [whole "sentence" sentence]

def binding : ClaimBinding where
  claimId := "claim"
  tenantId := "tenant"
  documentVersionId := "document"
  kind := .growth
  observationIds := ["baseline", "current"]
  reportedValue := some "10"
  metricRaw := "emissions"
  scope := none
  subject := none
  scope2Basis := none
  organizationalBoundary := none
  unit := some "t"
  denominator := none
  sourceRefs := [whole "sentence" sentence]
  parseManifestId := some "manifest"
  reportingPeriod := some "2023"
  quantityKind := some .absolute
  baselinePeriod := some "2022"
  reportedValueRef := some (span "sentence" sentence "10" 18 20 (by decide))
  bindingAccepted := true
  aggregation := none
  baselineSubject := none
  subjectRef := none
  baselineSubjectRef := none
  productComparisonAccepted := false
  conditions := []
  ids_nonempty := by decide
  observations_nonempty := by decide
  observations_nodup := by decide
  comparison_single := nofun
  rate_pair := fun _ => rfl
  refs_nonempty := by decide
  refs_same_document := by decide
  conditions_rate := nofun

def comparison : ClaimBinding :=
  { binding with
    kind := .comparison
    observationIds := ["current"]
    baselinePeriod := none
    observations_nonempty := by decide
    observations_nodup := by decide
    comparison_single := fun _ => rfl
    rate_pair := nofun
    conditions_rate := nofun }

end Sample

theorem check_verdict_exact_iff_growth :
    VerdictsExact Sample.hash (Sample.observations "110 t" "110") [Sample.binding] "tenant"
      [Sample.claim] (some (Sample.snapshot "110 t")) := by
  have hadmitted : Admitted (Sample.observations "110 t" "110") [Sample.binding] "tenant"
      [Sample.claim] (some (Sample.snapshot "110 t")) :=
    ⟨by decide +kernel, by decide +kernel⟩
  refine (check_verdict_exact_iff hadmitted).mpr ?_
  rintro _ (_ | ⟨_, ⟨⟩⟩) -
  have hdisplays : (((selectedItems (Sample.observations "110 t" "110") Sample.binding).mapM
      itemDisplay).map fun displays => displays.map Display.value) = some [100, 110] := by
    decide +kernel
  intro displays hmem value hvalue
  rw [hmem, Option.map_some, Option.some.injEq] at hdisplays
  rw [hdisplays] at hvalue
  have hten : value = 10 := by
    have : (110 / 100 - 1) * 100 = value := Option.some.inj hvalue
    rw [← this]
    norm_num
  rw [hten]
  exact ⟨by decide +kernel, by decide +kernel⟩

/-! ### A comparison with any text in the cell of 2023

The guards of the comparison read the text of the cell only as a displayed number, so the binding
reaches its verdict whatever number stands there. -/

namespace Sample

variable {current digits : String} {shown : Display} {place : Option (Int × Int)}

theorem verified_span {sourceId text quote : String} {start stop : Nat} {hspan : start ≤ stop}
    (hwinning : winningCandidate (snapshot current) (span sourceId text quote start stop hspan) =
      some (candidate sourceId text place))
    (hregistered : candidateRegistered (snapshot current) (candidate sourceId text place) = true)
    (hless : start < stop) (hstop : stop ≤ text.toList.length)
    (hquote : (text.toList.drop start).take (stop - start) = quote.toList)
    (hblank : nonBlank quote = true) :
    verified hash (snapshot current) (span sourceId text quote start stop hspan) = true := by
  have hdistinct : blocksDistinct (snapshot current) = true := rfl
  have hquotes : quotesCandidate hash (snapshot current) (span sourceId text quote start stop hspan)
      (candidate sourceId text place) = true := by
    unfold quotesCandidate
    dsimp only [candidate, span]
    rw [hquote, hblank]
    simp [snapshot, identity, hash, hless, hstop]
  unfold verified
  rw [hwinning]
  dsimp only
  rw [hregistered, hdistinct, hquotes]
  rfl

theorem verified_whole {sourceId text : String}
    (hwinning : winningCandidate (snapshot current) (whole sourceId text) =
      some (candidate sourceId text place))
    (hregistered : candidateRegistered (snapshot current) (candidate sourceId text place) = true)
    (hblank : nonBlank text = true) :
    verified hash (snapshot current) (whole sourceId text) = true := by
  have hlength : 0 < text.length := by
    obtain ⟨c, hc, -⟩ := List.any_eq_true.mp hblank
    exact List.length_pos_of_mem hc
  have htake : text.toList.take text.length = text.toList :=
    List.take_of_length_le (String.length_toList ▸ le_rfl)
  exact verified_span hwinning hregistered hlength (le_of_eq String.length_toList.symm) htake hblank

theorem candidateRegistered_of_mem {block : NumericBlock} {candidate : NumericCandidate}
    (hblock : block ∈ blocks current) (hcandidate : candidate ∈ block.candidates)
    (hparser : candidate.source.parserRunId = "parser") :
    candidateRegistered (snapshot current) candidate = true := by
  have hmem : candidate ∈ (blocks current).flatMap (·.candidates) :=
    List.mem_flatMap.mpr ⟨block, hblock, hcandidate⟩
  refine List.any_eq_true.mpr ⟨_, List.mem_singleton_self _, ?_⟩
  rw [List.contains_iff_mem.mpr hmem, hparser]
  simp [snapshot]

theorem verified_refs (hblank : nonBlank current = true) :
    ∀ ref ∈ (reading current digits).sourceRefs,
      verified hash (snapshot current) ref = true := by
  have hcell : ∀ {sourceId text : String} (row column : Int),
      cell sourceId text row column ∈ blocks current →
      candidateRegistered (snapshot current) (candidate sourceId text (some (row, column))) =
        true :=
    fun _ _ hmem => candidateRegistered_of_mem hmem (List.mem_singleton_self _) rfl
  intro ref href
  simp only [reading, observation, List.mem_cons, List.not_mem_nil, or_false] at href
  rcases href with rfl | rfl | rfl
  · exact verified_whole rfl (hcell 1 2 (by simp [blocks, cells])) hblank
  · exact verified_whole rfl (hcell 1 0 (by simp [blocks, cells])) (by decide)
  · exact verified_whole rfl (hcell 0 2 (by simp [blocks, cells])) (by decide)

theorem observationDisplay_reading (hblank : nonBlank current = true)
    (hunit : ((matchNumber current).any fun found => found.2 == some "t") = true)
    (hdisplay : display current 1 = some shown)
    (hdecimal : decimal (some digits) = some shown.value) :
    observationDisplay hash (snapshot current) (reading current digits) = some shown := by
  have hverified : observationVerified hash (reading current digits) (snapshot current) = true := by
    have hrefs : ((reading current digits).sourceRefs.all (verified hash (snapshot current))) = true :=
      List.all_eq_true.mpr (verified_refs hblank)
    have hblocks : ((reading current digits).sourceBlocks.all (blocks current).contains) = true := by
      simp [reading, observation, blocks, cells]
    have hquote : ((reading current digits).sourceRefs.any fun ref => ref.quote == current) = true := by
      simp [reading, observation, whole, span]
    have hscale : splitScale (some "t") = ("1", some "t") := by decide
    unfold observationVerified
    rw [hrefs, show (snapshot current).blocks = blocks current from rfl, hblocks]
    dsimp only [reading, observation] at hquote ⊢
    rw [hquote, hunit, hscale]
    simp [snapshot]
  have hfields : (sourcedFields (reading current digits)).all
      (fieldSourced (reading current digits) (snapshot current)) = true := rfl
  unfold observationDisplay
  rw [hverified, hfields, show display (reading current digits).valueRaw
      (scaleValue (splitScale (reading current digits).unitRaw).1) = some shown from hdisplay,
    show decimal (reading current digits).valueDecimal = some shown.value from hdecimal]
  simp [guard]

theorem footnoteHolds_reading (hblank : nonBlank current = true) :
    (footnoteHolds hash (reading current digits) (snapshot current) []).2 = [] := by
  have hroot : rootHolds hash (reading current digits) (snapshot current)
      (cell "current" current 1 2) = ([], []) := by
    have hsourced : ((reading current digits).sourceRefs.any fun ref =>
        ref.sourceId == "current" && ref.quote == current &&
          verified hash (snapshot current) ref) = true := by
      refine List.any_eq_true.mpr ⟨whole "current" current, List.mem_cons_self, ?_⟩
      have hrefs : ∀ ref ∈ (reading current digits).sourceRefs,
          verified hash (snapshot current) ref = true := verified_refs hblank
      rw [hrefs _ List.mem_cons_self]
      simp [whole, span]
    unfold rootHolds
    dsimp only [cell, block]
    rw [show (reading current digits).valueRaw = current from rfl, hsourced]
    rfl
  have hroots : (reading current digits).sourceBlocks.filter (fun block =>
      (relationSources (reading current digits)).contains block.sourceId) =
        [cell "current" current 1 2] := rfl
  have hnotes : notesOf (snapshot current)
      (noteTargets (reading current digits) (snapshot current)) = [] := rfl
  unfold footnoteHolds
  dsimp only
  rw [hroots, hnotes, List.map_singleton, hroot]
  rfl

theorem claimVerified_comparison :
    claimVerified hash comparison (some claim) (snapshot current) = true := by
  have hregistered : candidateRegistered (snapshot current) (candidate "sentence" sentence none) =
      true :=
    candidateRegistered_of_mem (by simp [blocks] : block "paragraph" "sentence" sentence none ∈ _)
      (List.mem_singleton_self _) rfl
  have hsentence : claim.sourceRefs.all (verified hash (snapshot current)) = true := by
    have hwhole : verified hash (snapshot current) (whole "sentence" sentence) = true :=
      verified_whole rfl hregistered (by decide)
    simp [claim, hwhole]
  have hnumber : verified hash (snapshot current) (span "sentence" sentence "10" 18 20 (by decide)) =
      true :=
    verified_span rfl hregistered (by decide) (by decide) (by decide) (by decide)
  have htoken : (claim.sourceRefs.any fun ref =>
      within (span "sentence" sentence "10" 18 20 (by decide)) ref &&
        wholeNumber (snapshot current) (span "sentence" sentence "10" 18 20 (by decide))) = true := by
    have hwhole : wholeNumber (snapshot current) (span "sentence" sentence "10" 18 20 (by decide)) =
        true := by
      show (tokenSpans 0 0 sentence.toList).contains (18, 20) = true
      decide +kernel
    rw [hwhole]
    decide +kernel
  have hjoined : claim.quote = " ".intercalate (claim.sourceRefs.map SourceRef.quote) := by
    decide +kernel
  have hbound : comparison.sourceRefs = claim.sourceRefs := rfl
  have hshown : some "10" = comparison.reportedValue := rfl
  unfold claimVerified
  rw [show comparison.reportedValueRef =
    some (span "sentence" sentence "10" 18 20 (by decide)) from rfl]
  dsimp only
  rw [hsentence, hnumber, htoken, hbound, ← hjoined, ← hshown]
  simp [comparison, binding, claim, snapshot, identity, span]

theorem comparable_comparison (hblank : nonBlank current = true)
    (hunit : ((matchNumber current).any fun found => found.2 == some "t") = true)
    (hdisplay : display current 1 = some shown)
    (hdecimal : decimal (some digits) = some shown.value) {reported : Display}
    (hreported : display (comparison.reportedValue.getD "") 1 = some reported) :
    comparable hash comparison [reading current digits] (some claim) (some (snapshot current)) =
      .ok ⟨[reading current digits], [shown], reported⟩ := by
  have hsource : sourceRefusal hash comparison [reading current digits] (some claim)
      (snapshot current) = none := by
    have hissues : unresolvedSourceIssueIds (snapshot current)
        (bindingSources comparison [reading current digits]) = [] := rfl
    have hnotes : ([reading current digits].any fun item =>
        unresolvedFootnotes hash item (snapshot current) []) = false := by
      simp [unresolvedFootnotes, footnoteHolds_reading hblank]
    have hconditions : validatedConditionIds hash comparison (snapshot current)
        [reading current digits] = [] := rfl
    unfold sourceRefusal
    rw [claimVerified_comparison, hissues, hconditions, hnotes]
    rfl
  have hdisplays : [reading current digits].mapM (observationDisplay hash (snapshot current)) =
      some [shown] := by
    rw [List.mapM_cons, observationDisplay_reading hblank hunit hdisplay hdecimal]
    rfl
  have hdimension : dimensionRefusal hash comparison [reading current digits] (some claim)
      (snapshot current) = none := rfl
  exact comparable_of_unrefused rfl hsource hdisplays hreported hdimension

theorem comparison_reaches (hblank : nonBlank current = true)
    (hunit : ((matchNumber current).any fun found => found.2 == some "t") = true)
    (hdisplay : display current 1 = some shown)
    (hdecimal : decimal (some digits) = some shown.value) :
    ReachesVerdict hash (observations current digits) [claim] (some (snapshot current))
      comparison := by
  obtain ⟨reported, hreported⟩ :
      ∃ reported, display (comparison.reportedValue.getD "") 1 = some reported := ⟨_, rfl⟩
  exact ⟨_, comparable_comparison hblank hunit hdisplay hdecimal hreported, _, rfl⟩

theorem isDigit_longWhole : ∀ c ∈ longWhole, isDigit c = true := by
  intro c hc
  rcases List.mem_cons.mp hc with rfl | hc
  · decide
  · rw [(List.mem_replicate.mp hc).2]
    decide

theorem length_longWhole : longWhole.length = strDigitLimit + 1 := by
  rw [longWhole, List.length_cons, List.length_replicate]

theorem digitsValue_longWhole : digitsValue longWhole = 10 ^ strDigitLimit :=
  digitsValue_power strDigitLimit

theorem long_reaches :
    ReachesVerdict hash (observations longText longDigits) [claim] (some (snapshot longText))
        comparison ∧
      ¬FormulaWritable (observations longText longDigits) comparison := by
  have hlong : 3 < longWhole.length := by
    rw [length_longWhole]
    decide
  have hne : longWhole ≠ [] := List.cons_ne_nil _ _
  obtain ⟨shown, hdisplay, hvalue⟩ := display_digits isDigit_longWhole hlong
  have hdecimal : decimal (some longDigits) = some shown.value := by
    rw [hvalue]
    refine decimal_digits isDigit_longWhole hne (exact_of_lt
      (digitsValue_lt isDigit_longWhole) (Nat.zero_lt_of_lt hlong) ?_)
    rw [length_longWhole]
    decide
  have hunit : ((matchNumber longText).any fun found => found.2 == some "t") = true := by
    rw [longText, matchNumber_digits isDigit_longWhole hlong]
    rfl
  have hblank : nonBlank longText = true := by
    rw [nonBlank, longText, String.toList_ofList]
    refine List.any_eq_true.mpr ⟨'t', by simp, by decide⟩
  refine ⟨comparison_reaches hblank hunit hdisplay hdecimal, ?_⟩
  intro hwritable
  have hitems : (selectedItems (observations longText longDigits) comparison).mapM itemDisplay =
      some [shown] := by
    rw [show selectedItems (observations longText longDigits) comparison =
      [reading longText longDigits] from rfl, List.mapM_cons]
    rw [show itemDisplay (reading longText longDigits) = some shown from hdisplay]
    rfl
  have hless := (hwritable [shown] hitems shown.value rfl).numerator
  rw [hvalue, digitsValue_longWhole, Rat.num_natCast, Int.natAbs_natCast] at hless
  exact absurd hless (lt_irrefl _)

end Sample

theorem not_verdictsExact_of_long_cell :
    Admitted (Sample.observations Sample.longText Sample.longDigits) [Sample.comparison] "tenant"
        [Sample.claim] (some (Sample.snapshot Sample.longText)) ∧
      ReachesVerdict Sample.hash (Sample.observations Sample.longText Sample.longDigits)
        [Sample.claim] (some (Sample.snapshot Sample.longText)) Sample.comparison ∧
      ¬VerdictsExact Sample.hash (Sample.observations Sample.longText Sample.longDigits)
        [Sample.comparison] "tenant" [Sample.claim] (some (Sample.snapshot Sample.longText)) := by
  have hadmitted : Admitted (Sample.observations Sample.longText Sample.longDigits)
      [Sample.comparison] "tenant" [Sample.claim] (some (Sample.snapshot Sample.longText)) :=
    ⟨by decide +kernel, by decide +kernel⟩
  obtain ⟨hreach, hvalue⟩ := Sample.long_reaches
  refine ⟨hadmitted, hreach, ?_⟩
  intro hexact
  exact hvalue (formulaWritable_of_verdictsExact hadmitted hexact List.mem_cons_self hreach)

end ProofOps.Domain.Numeric
