import ProofOps.Adapters.Parsing.HtmlTableCells
import ProofOps.Domain.Numeric.Digits
import ProofOps.Foundation.Words

/-!
# Quotes at a locator

`validate_source_bytes`: the quote of a source is looked for in the text that its locator names,
a range of characters, an element or a page.
-/

namespace ProofOps.Application.Reconciliation

open Foundation Foundation.Checked Domain.Numeric
open Adapters.Parsing (Event maxIntDigits)

/-- `MAX_SOURCE_BYTES`. -/
def maxSourceBytes : Nat := 50 * 1024 * 1024

/-- `_VOID`. -/
def voidTags : List String :=
  ["area", "base", "br", "col", "embed", "hr", "img", "input", "link", "meta", "param", "source",
    "track", "wbr"]

structure XmlElement where
  (plainId xmlId : Option String)
  text : String

/-- `_NoDTD`. -/
structure SourceFormats where
  htmlEvents : String → Option (List Event)
  xmlElements : List UInt8 → Option (List XmlElement)
  pdfText : List UInt8 → Nat → Except String (Option String)

inductive Format where
  | text
  | html
  | xml
  | pdf

/-! ### Elements of a page -/

/-- `_HTMLText`. -/
structure HtmlText where
  stack : List String
  count : Nat
  parts : List String

namespace HtmlText

variable (target : String) (state : HtmlText)

/-- `handle_starttag`. -/
def startTag (tag : String) (attrs : List (String × Option String)) : Except String HtmlText :=
  let ids := (attrs.filter fun attr => attr.1 = "id").map Prod.snd
  let pushed := if tag ∈ voidTags then state.stack else tag :: state.stack
  if ids.contains (some target) then
    if state.count = 0 ∧ ids.length = 1 then
      .ok { state with count := state.count + 1, stack := pushed }
    else .error "locator_ambiguous"
  else if state.stack = [] then .ok state
  else .ok { state with stack := pushed }

/-- `handle_endtag`. -/
def endTag (tag : String) : Except String HtmlText :=
  if tag ∈ voidTags then .ok state
  else
    match state.stack with
    | [] => .ok state
    | top :: rest =>
      if top = tag then .ok { state with stack := rest } else .error "html_target_unbalanced"

def handle (event : Event) : Except String HtmlText :=
  match event with
  | .startTag tag attrs => startTag target state tag attrs
  | .startEndTag tag attrs => do
    let opened ← startTag target state tag attrs
    endTag opened tag
  | .endTag tag => endTag state tag
  | .data text =>
    .ok (if state.stack = [] then state else { state with parts := state.parts ++ [text] })
  | .other => .ok state

end HtmlText

/-! ### Locators -/

def decodeUtf8 (payload : List UInt8) : Option String :=
  String.fromUTF8? ⟨payload.toArray⟩

def lowerByte (byte : UInt8) : UInt8 :=
  if 65 ≤ byte ∧ byte ≤ 90 then byte + 32 else byte

def bytesOf (text : String) : List UInt8 :=
  text.toUTF8.data.toList

def formatOf (payload : List UInt8) (locator : String) : Option Format :=
  if PyText.startsWith locator "chars:" then some .text
  else if PyText.startsWith locator "page:" then some .pdf
  else if PyText.startsWith locator "id:" then
    let head := (payload.take 512).map lowerByte
    if bytesOf "<html" <:+: head ∨ bytesOf "<!doctype html" <:+: head then some .html else some .xml
  else none

/-- `0|[1-9][0-9]*`. -/
def isNumeral (digits : List Char) : Bool :=
  digits ≠ [] && digits.all isDigit && (digits = ['0'] || digits.head? ≠ some '0')

/-- `int(digits)`. -/
def intOf (digits : List Char) : Except String Nat := do
  refuse (maxIntDigits < digits.length)
    "Exceeds the limit (4300 digits) for integer string conversion"
  return digitsValue digits

def charsGroups (locator : String) : Option (List Char × List Char) :=
  match (locator.toList.drop 6).splitOn ':' with
  | [first, last] => if isNumeral first && isNumeral last then some (first, last) else none
  | _ => none

def pageGroups (locator : String) : Option (List Char × Bool) :=
  match (locator.toList.drop 5).splitOn ':' with
  | [page] => if isNumeral page && page ≠ ['0'] then some (page, false) else none
  | [page, option] =>
    if isNumeral page && page ≠ ['0'] && option = "whitespace-v1".toList then some (page, true)
    else none
  | _ => none

def folded (text : String) : String :=
  " ".intercalate ((Words.pieces PyText.isSpace text.toList).map String.ofList)

def occurrences (quote text : List Char) : List Nat :=
  (List.range (text.length + 1)).filter fun start => quote.isPrefixOf (text.drop start)

/-! ### The check -/

section Check

variable (formats : SourceFormats) (payload : List UInt8) (locator quote : String)

def validateText : Except String Unit := do
  let (first, last) ← orRaise (charsGroups locator) "unsupported_locator"
  let text ← orRaise (decodeUtf8 payload) "artifact_not_utf8"
  let start ← intOf first
  let stop ← intOf last
  refuse (stop ≤ start ∨ text.length < stop) "locator_out_of_range"
  refuse (String.ofList ((text.toList.take stop).drop start) ≠ quote) "quote_mismatch"

def htmlText (target : String) : Except String String := do
  let events ← orRaise ((decodeUtf8 payload).bind formats.htmlEvents) "html_invalid_or_ambiguous"
  let read ← (events.foldlM (HtmlText.handle target) ⟨[], 0, []⟩).mapError
    fun _ => "html_invalid_or_ambiguous"
  refuse (read.count ≠ 1 ∨ read.stack ≠ []) "locator_missing_or_unclosed"
  return String.join read.parts

def xmlText (target : String) : Except String String := do
  let elements ← orRaise (formats.xmlElements payload) "xml_invalid"
  match elements.filter fun element => element.plainId = some target ∨ element.xmlId = some target with
  | [element] => .ok element.text
  | _ => .error "locator_missing_or_ambiguous"

def validateElement (html : Bool) : Except String Unit := do
  let target := String.ofList (locator.toList.drop 3)
  refuse (target = "") "unsupported_locator"
  let text ← if html then htmlText formats payload target else xmlText formats payload target
  refuse (PyText.isIn quote text = false) "quote_mismatch"

def validatePage : Except String Unit := do
  let (digits, fold) ← orRaise (pageGroups locator) "unsupported_locator"
  refuse (¬bytesOf "%PDF-" <+: payload) "unsupported_locator"
  let page ← (intOf digits).mapError fun _ => "pdf_invalid"
  let text ← formats.pdfText payload page
  if fold then do
    let normalized := folded (text.getD "")
    refuse (folded quote = "" ∨ quote ≠ folded quote) "quote_not_canonical"
    match occurrences quote.toList normalized.toList with
    | [] => .error "quote_mismatch"
    | [_] => .ok ()
    | _ :: _ :: _ => .error "locator_ambiguous"
  else refuse (text.all (PyText.isIn quote) = false ∨ text = none) "quote_mismatch"

def validateSourceBytes : Except String Unit := do
  refuse (maxSourceBytes < payload.length) "source_size_invalid"
  refuse (quote = "") "source_reference_invalid"
  match formatOf payload locator with
  | some .text => validateText payload locator quote
  | some .html => validateElement formats payload locator quote true
  | some .xml => validateElement formats payload locator quote false
  | some .pdf => validatePage formats payload locator quote
  | none => .error "unsupported_locator"

end Check

end ProofOps.Application.Reconciliation
