import ProofOps.Adapters.Parsing.HtmlTableCells
import ProofOps.Domain.Rules.Pinned
import ProofOps.Foundation.Words

/-!
# Report-level credit

`check_report_level`: an element is credited from elsewhere in the report along a literal chain of
page numbers and disclosure codes.  Page labels are read by `int` behind `isdigit`, and codes are
looked for at every offset of a text, so a superscript raises and a longer number credits its
fragments (`credit_chained_iff`).
-/

namespace ProofOps.Application.Evidence.ReportLevel

open Foundation Foundation.Checked Foundation.PyText Domain Adapters.Parsing

structure LevelRules where
  digits : Digits
  nfc : String → String
  casefold : List Char → List Char
  (standard indexHeading assuranceHeading scopeHeading entity ownScope : List Char → Bool)

/-- The arguments of `check_report_level`. -/
structure LevelCall where
  policy : Option String
  (refs claimRefs : List SourceRef)
  claimQuote : String
  pageTexts : Nat → List String
  creditedFrom : Option String

def griAssuredPageV1 : String := "GRI_ASSURED_PAGE_V1"
def reportScopeV1 : String := "REPORT_SCOPE_V1"
def activityScopeV2 : String := "ACTIVITY_SCOPE_V2"

def policies (elementId : String) : Option String :=
  if elementId = "M3" then some griAssuredPageV1
  else if elementId = "M2" then some reportScopeV1
  else none

section Reading

variable (rules : LevelRules)

/-- `_text`. -/
def textOf (value : String) : List Char :=
  [' '].intercalate (Words.pieces isSpace (rules.nfc value).toList)

/-- `\d`. -/
def isDecimal (c : Char) : Bool :=
  (rules.digits.decimal c).isSome

/-! ### Codes -/

variable (chars : List Char)

def matchDisclosure : Option (List Char × List Char) :=
  let left := chars.takeWhile (isDecimal rules)
  match chars.dropWhile (isDecimal rules) with
  | '-' :: rest =>
    let right := (rest.takeWhile (isDecimal rules)).take 2
    if 1 ≤ left.length ∧ left.length ≤ 3 ∧ right ≠ [] then
      some (left ++ '-' :: right, rest.drop right.length)
    else none
  | _ => none

def matchRange : Option ((List Char × List Char) × List Char) := do
  let (start, rest) ← matchDisclosure rules chars
  match rest.dropWhile isSpace with
  | '~' :: rest => do
    let (stop, rest) ← matchDisclosure rules (rest.dropWhile isSpace)
    some ((start, stop), rest)
  | _ => none

def scan {β : Type} (pattern : List Char → Option (β × List Char)) : Nat → List Char → List (β ⊕ Char)
  | _, [] => []
  | skip + 1, _ :: rest => scan pattern skip rest
  | 0, c :: rest =>
    match pattern (c :: rest) with
    | some (found, behind) => .inl found :: scan pattern (rest.length - behind.length) rest
    | none => .inr c :: scan pattern 0 rest

def number (chars : List Char) : Nat :=
  chars.foldl (fun number c => 10 * number + (rules.digits.decimal c).getD 0) 0

/-- `_code`. -/
def codeOf (code : List Char) : Nat × Nat :=
  (number rules (code.takeWhile (· ≠ '-')), number rules ((code.dropWhile (· ≠ '-')).drop 1))

def inRange (code : List Char) (range : List Char × List Char) : Bool :=
  (codeOf rules range.1).1 = (codeOf rules code).1 && (codeOf rules range.2).1 = (codeOf rules code).1 &&
    (codeOf rules range.1).2 ≤ (codeOf rules code).2 && (codeOf rules code).2 ≤ (codeOf rules range.2).2

def listedRanges (coverage : List Char) : List (List Char × List Char) :=
  (scan (matchRange rules) 0 coverage).filterMap Sum.getLeft?

def listedCodes (coverage : List Char) : List (List Char) :=
  (scan (matchDisclosure rules) 0
    ((scan (matchRange rules) 0 coverage).map (Sum.elim (fun _ => ' ') id))).filterMap Sum.getLeft?

/-- `_covers`. -/
def covers (coverage code : List Char) : Bool :=
  (listedRanges rules coverage).any (inRange rules code) || (listedCodes rules coverage).contains code

def isDash (c : Char) : Bool :=
  c = '-' || c = '–'

variable (expression : List Char)

def pageBounds : List (List (List Char)) :=
  (Words.words (· = ',') expression).map fun part =>
    (Words.words isDash (stripChars part)).map stripChars

def isPageList : Bool :=
  (pageBounds expression).all fun bounds => (bounds.length = 1 || bounds.length = 2) &&
    bounds.all fun bound => bound ≠ [] && bound.all (isDecimal rules)

def indexRow : Option (List Char × List Char) :=
  match matchDisclosure rules chars with
  | some (code, c :: rest) =>
    let pages := rest.dropWhile fun d => !isDecimal rules d
    if isSpace c ∧ isPageList rules pages then some (code, pages) else none
  | _ => none

def pageRange (bounds : List (List Char)) : Except PyError (Nat × Nat) := do
  match ← bounds.mapM fun bound => parseInt rules.digits (String.ofList bound) with
  | [page] => return (page, page)
  | [first, last] => return (first, last)
  | _ => return (1, 0)

/-- `_pages`. -/
def pages : Except PyError (List (Nat × Nat)) :=
  (pageBounds expression).mapM (pageRange rules)

/-! ### The checks -/

variable (call : LevelCall)

/-- `_on_page`. -/
def onPage (ref : SourceRef) (pattern : List Char → Bool) : Bool :=
  (call.pageTexts ref.pageNum).any fun text => pattern (textOf rules text)

def indexHeaded (index : SourceRef) : Bool :=
  let blocks := (call.pageTexts index.pageNum).map fun text => rules.casefold (textOf rules text)
  onPage rules call index rules.indexHeading ||
    (blocks.contains "index".toList &&
      (blocks.contains "gri".toList || blocks.contains "gri standards".toList))

def surrounded (index coverage standard : SourceRef) : Bool :=
  indexHeaded rules call index && rules.standard (textOf rules standard.quote) &&
    standard.pageNum = coverage.pageNum && onPage rules call coverage rules.assuranceHeading &&
    call.creditedFrom = some coverage.sourceId

def onList (page : Nat) (ranges : List (Nat × Nat)) : Bool :=
  ranges.any fun range => range.1 ≤ page && page ≤ range.2

def rowCredited (index coverage standard : SourceRef) (label : String) (code expression : List Char) :
    Except PyError Bool := do
  let page ← parseInt rules.digits label
  let ranges ← pages rules expression
  return onList page ranges && surrounded rules call index coverage standard &&
    covers rules (textOf rules coverage.quote) code

/-- `_gri_assured_page`. -/
def griAssuredPage : Except PyError Bool :=
  match call.refs, (call.claimRefs.map SourceRef.printedPageLabel).dedup with
  | [index, coverage, standard], [some label] =>
    if isDigits rules.digits label then
      match indexRow rules (textOf rules index.quote) with
      | some (code, expression) => rowCredited rules call index coverage standard label code expression
      | none => .ok false
    else .ok false
  | _, _ => .ok false

/-- `_report_scope`. -/
def reportScope : Bool :=
  match call.refs with
  | [scope] => !rules.ownScope (textOf rules call.claimQuote) && rules.entity (textOf rules scope.quote) &&
      onPage rules call scope rules.scopeHeading && call.creditedFrom = some scope.sourceId
  | _ => false

/-- `check_report_level`. -/
def checkReportLevel (elementId : String) (call : LevelCall) : Except PyError Bool :=
  if elementId = "M2" ∧ call.policy = some activityScopeV2 then .ok false
  else if policies elementId ≠ call.policy ∨ call.refs = [] ∨ call.claimRefs = [] then .ok false
  else if ∃ ref ∈ call.refs ++ call.claimRefs, ref.verificationState ≠ .verified then .ok false
  else if call.policy = some griAssuredPageV1 then griAssuredPage rules call
  else .ok (reportScope rules call)

end Reading

variable {rules : LevelRules} {call : LevelCall} {index coverage standard : SourceRef} {label : String}
  {code expression : List Char}

structure RowRead (rules : LevelRules) (call : LevelCall) (index coverage standard : SourceRef)
    (label : String) (code expression : List Char) : Prop where
  policy : call.policy = some griAssuredPageV1
  refs : call.refs = [index, coverage, standard]
  labels : (call.claimRefs.map SourceRef.printedPageLabel).dedup = [some label]
  verified : ∀ ref ∈ call.refs ++ call.claimRefs, ref.verificationState = .verified
  digits : isDigits rules.digits label = true
  row : indexRow rules (textOf rules index.quote) = some (code, expression)

theorem check_of_rowRead (h : RowRead rules call index coverage standard label code expression) :
    checkReportLevel rules "M3" call =
      rowCredited rules call index coverage standard label code expression := by
  have hclaims : call.claimRefs ≠ [] := by
    intro hempty
    have hlabels := h.labels
    rw [hempty] at hlabels
    cases hlabels
  have hpolicy : policies "M3" = call.policy := h.policy.symm
  have hrefused : ¬(policies "M3" ≠ call.policy ∨ call.refs = [] ∨ call.claimRefs = []) := by
    simp [hpolicy, h.refs, hclaims]
  have hverified : ¬∃ ref ∈ call.refs ++ call.claimRefs, ref.verificationState ≠ .verified := by
    rintro ⟨ref, hmem, hnot⟩
    exact hnot (h.verified ref hmem)
  unfold checkReportLevel
  rw [if_neg (by simp), if_neg hrefused, if_neg hverified, if_pos h.policy]
  unfold griAssuredPage
  rw [h.refs, h.labels]
  dsimp only
  rw [if_pos h.digits, h.row]

/-- Any other call is denied. -/
theorem check_of_not_rowRead (h : ¬∃ index coverage standard label code expression,
      RowRead rules call index coverage standard label code expression) :
    checkReportLevel rules "M3" call = .ok false := by
  unfold checkReportLevel
  split_ifs with _ hrefused hunverified hpolicy
  · rfl
  · rfl
  · rfl
  · unfold griAssuredPage
    split
    · rename_i index coverage standard label hrefs hlabels
      split_ifs with hdigits
      · split
        · rename_i code expression hrow
          push Not at hunverified
          exact absurd ⟨_, _, _, _, _, _, hpolicy, hrefs, hlabels, hunverified, hdigits, hrow⟩ h
        · rfl
      · rfl
    · rfl
  · exfalso
    push Not at hrefused
    exact hpolicy hrefused.1.symm

/-- `int` reads the text. -/
def Readable (rules : LevelRules) (text : String) : Prop :=
  text.length ≤ maxIntDigits ∧ ∀ c ∈ text.toList, isDecimal rules c = true

theorem exists_mapM_option_iff {α β : Type} {f : α → Option β} {inputs : List α} :
    (∃ outputs, inputs.mapM f = some outputs) ↔ ∀ input ∈ inputs, (f input).isSome = true := by
  induction inputs with
  | nil => simp
  | cons input inputs ih =>
    rw [List.forall_mem_cons, ← ih, List.mapM_cons]
    cases f input <;> cases inputs.mapM f <;> simp

theorem exists_parseInt_iff {text : String} :
    (∃ value, parseInt rules.digits text = .ok value) ↔ Readable rules text := by
  unfold parseInt Readable isDecimal
  rw [← exists_mapM_option_iff]
  cases hvalues : text.toList.mapM rules.digits.decimal <;>
    simp [exists_bind_ok_iff, refuse_ok_iff]

theorem exists_mapM_ok_iff {α β : Type} {f : α → Except PyError β} {inputs : List α} :
    (∃ outputs, inputs.mapM f = .ok outputs) ↔ ∀ input ∈ inputs, ∃ output, f input = .ok output := by
  induction inputs with
  | nil => simp [pure, Except.pure]
  | cons input inputs ih =>
    rw [List.forall_mem_cons, ← ih, List.mapM_cons, exists_bind_ok_iff]
    simp [exists_bind_ok_iff, pure, Except.pure]

theorem exists_pages_iff :
    (∃ ranges, pages rules expression = .ok ranges) ↔
      ∀ bounds ∈ pageBounds expression, ∀ bound ∈ bounds, Readable rules (String.ofList bound) := by
  unfold pages
  rw [exists_mapM_ok_iff]
  refine forall₂_congr fun bounds _ => ?_
  simp only [← exists_parseInt_iff, ← exists_mapM_ok_iff]
  unfold pageRange
  rw [exists_bind_ok_iff]
  refine exists_congr fun numbers => and_iff_left ?_
  split <;> exact ⟨_, rfl⟩

/-! ### The chain -/

def clear (rules : LevelRules) (c : Option Char) : Bool :=
  c.all fun c => !isDecimal rules c

def wholeCode (rules : LevelRules) (text code : List Char) : Bool :=
  (List.range text.length).any fun start => code.isPrefixOf (text.drop start) &&
    (start = 0 || clear rules text[start - 1]?) && clear rules text[start + code.length]?

def wholeRanges (rules : LevelRules) (text : List Char) : List (List Char × List Char) :=
  (List.range text.length).filterMap fun start =>
    match matchRange rules (text.drop start) with
    | some (range, behind) =>
      if (start = 0 || clear rules text[start - 1]?) && clear rules behind.head? then some range
      else none
    | none => none

def Assured (rules : LevelRules) (coverage code : List Char) : Prop :=
  (∃ range ∈ wholeRanges rules coverage, inRange rules code range = true) ∨
    wholeCode rules coverage code = true

def Chain (rules : LevelRules) (call : LevelCall) : Prop :=
  ∃ index coverage standard label code expression page ranges,
    RowRead rules call index coverage standard label code expression ∧
      parseInt rules.digits label = .ok page ∧ pages rules expression = .ok ranges ∧
      onList page ranges = true ∧ surrounded rules call index coverage standard = true ∧
      Assured rules (textOf rules coverage.quote) code

def CreditChained (rules : LevelRules) (call : LevelCall) : Prop :=
  (∃ credited, checkReportLevel rules "M3" call = .ok credited) ∧
    (checkReportLevel rules "M3" call = .ok true → Chain rules call)

structure PlainNumbers (rules : LevelRules) (call : LevelCall) : Prop where
  label : ∀ {index coverage standard label code expression},
    RowRead rules call index coverage standard label code expression → Readable rules label
  row : ∀ {index coverage standard label code expression},
    RowRead rules call index coverage standard label code expression →
      ∀ bounds ∈ pageBounds expression, ∀ bound ∈ bounds, Readable rules (String.ofList bound)
  code : ∀ {index coverage standard label code expression page ranges},
    RowRead rules call index coverage standard label code expression →
      parseInt rules.digits label = .ok page → pages rules expression = .ok ranges →
      onList page ranges = true → surrounded rules call index coverage standard = true →
      ((∃ range ∈ listedRanges rules (textOf rules coverage.quote),
          inRange rules code range = true) ∨ code ∈ listedCodes rules (textOf rules coverage.quote)) →
      Assured rules (textOf rules coverage.quote) code

theorem covers_iff {text : List Char} :
    covers rules text code = true ↔
      (∃ range ∈ listedRanges rules text, inRange rules code range = true) ∨
        code ∈ listedCodes rules text := by
  unfold covers
  rw [Bool.or_eq_true, List.any_eq_true, List.contains_iff_mem]

theorem rowCredited_ok_iff {credited : Bool} :
    rowCredited rules call index coverage standard label code expression = .ok credited ↔
      ∃ page, parseInt rules.digits label = .ok page ∧ ∃ ranges, pages rules expression = .ok ranges ∧
        (onList page ranges && surrounded rules call index coverage standard &&
          covers rules (textOf rules coverage.quote) code) = credited := by
  unfold rowCredited
  simp only [bind_ok_iff, pure_ok_iff]

namespace Sample

def plainRules : LevelRules where
  digits := ⟨fun c => c.isDigit || c = '²', fun c => if c.isDigit then some (c.toNat - 48) else none⟩
  nfc := id
  casefold := id
  standard := fun text => text = "ISAE 3000".toList
  indexHeading := fun text => text = "GRI Index".toList
  assuranceHeading := fun text => text = "Assurance Statement".toList
  scopeHeading := fun _ => false
  entity := fun _ => false
  ownScope := fun _ => false

def creditCall (row label coverage : String) : LevelCall where
  policy := some griAssuredPageV1
  refs := [Rules.Pinned.sourceRef row, Rules.Pinned.sourceRef coverage,
    Rules.Pinned.sourceRef "ISAE 3000"]
  claimRefs := [{ Rules.Pinned.sourceRef "claim" with printedPageLabel := some label }]
  claimQuote := "claim"
  pageTexts := fun _ => ["GRI Index", "Assurance Statement"]
  creditedFrom := some (Rules.Pinned.sourceRef coverage).sourceId

end Sample

open ReportLevel.Sample

theorem not_chained_of_fragment {row label coverage : String}
    {code expression : List Char}
    (hcredited : checkReportLevel plainRules "M3" (creditCall row label coverage) = .ok true)
    (hrow : indexRow plainRules (textOf plainRules row) = some (code, expression))
    (hranges : (wholeRanges plainRules (textOf plainRules coverage)).all
      (fun range => !inRange plainRules code range) = true)
    (hcode : wholeCode plainRules (textOf plainRules coverage) code = false) :
    ¬CreditChained plainRules (creditCall row label coverage) := by
  rintro ⟨-, hchain⟩
  obtain ⟨_, _, _, _, _, _, _, _, h, _, _, _, _, hassured⟩ := hchain hcredited
  have hrefs := h.refs
  obtain ⟨rfl, rfl, rfl⟩ := hrefs
  have hsame := hrow.symm.trans h.row
  simp only [Option.some.injEq, Prod.mk.injEq] at hsame
  rw [← hsame.1] at hassured
  rcases hassured with ⟨range, hrange, hin⟩ | hwhole
  · have hout := List.all_eq_true.mp hranges range hrange
    rw [hin] at hout
    cases hout
  · exact absurd (hcode.symm.trans hwhole) Bool.false_ne_true

end ProofOps.Application.Evidence.ReportLevel
