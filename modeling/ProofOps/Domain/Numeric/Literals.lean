import Mathlib.Algebra.Order.Field.Rat
import ProofOps.Foundation.PyText

/-!
# Number, unit and period literals

The lexical half of `proofops.domain.numeric`: the displayed-number syntax, the
tokens of a source text, the note literals and the supported period literals.
The source's regular expressions are matched by hand; each matcher returns what
it consumed or the rest, and a docstring gives the expression it stands for.
-/

namespace ProofOps.Domain.Numeric

open Foundation Foundation.PyText

/-! ### Digits -/

/-- `[0-9]`. -/
def isDigit (c : Char) : Bool :=
  48 ≤ c.toNat && c.toNat ≤ 57

def digitsValue (digits : List Char) : Nat :=
  digits.foldl (fun value c => 10 * value + (c.toNat - 48)) 0

def matchGroups : List Char → List Char × List Char
  | ',' :: a :: b :: c :: rest =>
    if isDigit a && isDigit b && isDigit c then
      let (digits, tail) := matchGroups rest
      (a :: b :: c :: digits, tail)
    else
      ([], ',' :: a :: b :: c :: rest)
  | rest => ([], rest)

variable (chars : List Char)

def matchWhole : Option (List Char × List Char) :=
  let run := chars.takeWhile isDigit
  let rest := chars.dropWhile isDigit
  if run = [] then none
  else if run.length ≤ 3 then
    let (digits, tail) := matchGroups rest
    some (run ++ digits, tail)
  else
    some (run, rest)

def matchFraction : List Char → List Char × List Char
  | '.' :: rest =>
    if rest.takeWhile isDigit = [] then ([], '.' :: rest)
    else (rest.takeWhile isDigit, rest.dropWhile isDigit)
  | rest => ([], rest)

def matchSign : List Char → Bool × List Char
  | '-' :: rest => (true, rest)
  | '+' :: rest => (false, rest)
  | rest => (false, rest)

structure Numeral where
  negative : Bool
  (whole fraction : List Char)

def matchNumeral : Option (Numeral × List Char) :=
  let (negative, rest) := matchSign chars
  match matchWhole rest with
  | none => none
  | some (whole, rest) =>
    let (fraction, rest) := matchFraction rest
    some ({ negative, whole, fraction }, rest)

def Numeral.value (numeral : Numeral) : ℚ :=
  let magnitude : ℚ :=
    (digitsValue (numeral.whole ++ numeral.fraction) : ℚ) / 10 ^ numeral.fraction.length
  if numeral.negative then -magnitude else magnitude

def matchNumber (raw : String) : Option (Numeral × Option String) :=
  match matchNumeral (stripChars raw.toList) with
  | none => none
  | some (numeral, []) => some (numeral, none)
  | some (numeral, head :: rest) =>
    let suffix := rest.dropWhile isSpace
    if isSpace head && suffix ≠ [] && !suffix.contains '\n' then
      some (numeral, some (String.ofList suffix))
    else
      none

structure Display where
  (value lower upper : ℚ)

/-- `_display`. -/
def display (raw : String) (scale : ℚ) : Option Display :=
  (matchNumber raw).map fun (numeral, _) =>
    let value := numeral.value * scale
    let halfStep := 1 / (2 * 10 ^ numeral.fraction.length) * scale
    { value := value, lower := value - halfStep, upper := value + halfStep }

def matchExponent : List Char :=
  match chars with
  | c :: rest =>
    let digits := (matchSign rest).2
    if (c = 'e' ∨ c = 'E') ∧ digits.takeWhile isDigit ≠ [] then digits.dropWhile isDigit
    else chars
  | [] => []

def tokenLength : Option Nat :=
  (matchNumeral chars).map fun (_, rest) => chars.length - (matchExponent rest).length

def tokenSpans (position skip : Nat) : List Char → List (Nat × Nat)
  | [] => []
  | c :: rest =>
    if 0 < skip then tokenSpans (position + 1) (skip - 1) rest
    else
      match tokenLength (c :: rest) with
      | some length => (position, position + length) :: tokenSpans (position + 1) (length - 1) rest
      | none => tokenSpans (position + 1) 0 rest

/-! ### Decimal strings -/

def digitZeros : List Nat :=
  [0x30, 0x660, 0x6F0, 0x7C0, 0x966, 0x9E6, 0xA66, 0xAE6, 0xB66, 0xBE6, 0xC66, 0xCE6, 0xD66, 0xDE6,
    0xE50, 0xED0, 0xF20, 0x1040, 0x1090, 0x17E0, 0x1810, 0x1946, 0x19D0, 0x1A80, 0x1A90, 0x1B50,
    0x1BB0, 0x1C40, 0x1C50, 0xA620, 0xA8D0, 0xA900, 0xA9D0, 0xA9F0, 0xAA50, 0xABF0, 0xFF10, 0x104A0,
    0x10D30, 0x11066, 0x110F0, 0x11136, 0x111D0, 0x112F0, 0x11450, 0x114D0, 0x11650, 0x116C0,
    0x11730, 0x118E0, 0x11950, 0x11C50, 0x11D50, 0x11DA0, 0x11F50, 0x16A60, 0x16AC0, 0x16B50,
    0x1D7CE, 0x1D7D8, 0x1D7E2, 0x1D7EC, 0x1D7F6, 0x1E140, 0x1E2F0, 0x1E4F0, 0x1E950, 0x1FBF0]

def asciiDigit (c : Char) : Char :=
  match digitZeros.find? fun base => base ≤ c.toNat && c.toNat < base + 10 with
  | some base => Char.ofNat (48 + (c.toNat - base))
  | none => c

def decimalEmax : Int := 999999999999999999

def decimalEtiny : Int := -1999999999999999997

def matchCoefficient : Option (List Char × List Char × List Char) :=
  let whole := chars.takeWhile isDigit
  let (fraction, rest) := match chars.dropWhile isDigit with
    | '.' :: rest => (rest.takeWhile isDigit, rest.dropWhile isDigit)
    | rest => ([], rest)
  if whole ++ fraction = [] then none else some (whole, fraction, rest)

def matchDecimalExponent : List Char → Option Int
  | [] => some 0
  | c :: rest =>
    let (negative, digits) := matchSign rest
    if (c = 'e' ∨ c = 'E') ∧ digits ≠ [] ∧ digits.all isDigit then
      some (if negative then -(digitsValue digits : Int) else digitsValue digits)
    else
      none

/-- `_decimal`. -/
def decimal (value : Option String) : Option ℚ := do
  let text ← value
  let chars := ((stripChars text.toList).filter (· != '_')).map asciiDigit
  let (negative, unsigned) := matchSign chars
  let (whole, fraction, rest) ← matchCoefficient unsigned
  let exponent ← matchDecimalExponent rest
  let coefficient := digitsValue (whole ++ fraction)
  let scaled := exponent - fraction.length
  let adjusted := if coefficient = 0 then scaled
    else scaled + (toString coefficient).length - 1
  if decimalEtiny ≤ scaled ∧ adjusted ≤ decimalEmax then
    let magnitude : ℚ := coefficient * (10 : ℚ) ^ scaled
    some (if negative then -magnitude else magnitude)
  else
    none

def divideOut (factor : Nat) : Nat → Nat → Nat × Nat
  | 0, value => (value, 0)
  | fuel + 1, value =>
    if value % factor = 0 then
      let (rest, times) := divideOut factor fuel (value / factor)
      (rest, times + 1)
    else
      (value, 0)

def roundHalfEven (value places : Nat) : Nat :=
  let base := 10 ^ places
  let quotient := value / base
  let remainder := value % base
  if 2 * remainder < base then quotient
  else if base < 2 * remainder then quotient + 1
  else quotient + quotient % 2

def fixedPoint (negative : Bool) (coefficient : Nat) (exponent : Int) : String :=
  let digits := (toString coefficient).toList
  let body := match exponent with
    | .ofNat zeros => digits ++ List.replicate zeros '0'
    | .negSucc predecessor =>
      let places := predecessor + 1
      let padded := List.replicate (places + 1 - digits.length) '0' ++ digits
      padded.take (padded.length - places) ++ '.' :: padded.drop (padded.length - places)
  String.ofList (if negative then '-' :: body else body)

def exactDecimal (value : ℚ) : Option String :=
  let (odd, twos) := divideOut 2 value.den value.den
  let (rest, fives) := divideOut 5 odd odd
  if rest ≠ 1 then none
  else
    let numerator := value.num.natAbs
    let precision := (toString numerator).length + (toString value.den).length * 4 + 1
    let places := max twos fives
    let coefficient := numerator * 10 ^ places / value.den
    let excess := (toString coefficient).length - precision
    some (fixedPoint (value.num < 0) (roundHalfEven coefficient excess)
      ((excess : Int) - places))

def matchLiteral (head : String) (chars : List Char) : Option (List Char) :=
  if head.toList.isPrefixOf chars then some (chars.drop head.length) else none

def foldsToI : List Char := ['i', 'I', Char.ofNat 0x130, Char.ofNat 0x131]

def matchUnitWord : Option (List Char) :=
  match matchLiteral "단위" chars, chars with
  | some rest, _ => some rest
  | none, u :: n :: i :: t :: rest =>
    if (u = 'u' ∨ u = 'U') ∧ (n = 'n' ∨ n = 'N') ∧ i ∈ foldsToI ∧ (t = 't' ∨ t = 'T') then
      some rest
    else
      none
  | none, _ => none

def noteUnits : List String :=
  ["tCO2e", "tCO₂e", "kgCO2e", "t", "kg", "g", "GJ", "TJ", "MJ", "kWh", "MWh", "GWh", "m3", "m³",
    "㎥", "L", "%", "%p", "톤", "원", "백만원", "억원", "개", "명", "건", "대"]

/-- `unit_note_literal`. -/
def unitNoteLiteral (text : String) : Option String :=
  match matchUnitWord (stripChars text.toList) with
  | none => none
  | some rest =>
    match rest.dropWhile isSpace with
    | ':' :: rest =>
      let literal := String.ofList (rest.dropWhile isSpace)
      if noteUnits.contains literal || (noteUnits.map ("천 " ++ ·)).contains literal then
        some literal
      else
        none
    | _ => none

/-- `scope_note_literal`. -/
def scopeNoteLiteral (text : String) : Option String :=
  let chars := stripChars text.toList
  let literal := String.ofList (match matchLiteral "Scope:" chars with
    | some rest => rest.dropWhile isSpace
    | none => chars)
  if ["Scope 1", "Scope 2", "Scope 3"].contains literal then some literal else none

/-! ### Periods -/

def matchFixed (count : Nat) (chars : List Char) : Option (Nat × List Char) :=
  let run := chars.take count
  if run.length = count ∧ run.all isDigit then some (digitsValue run, chars.drop count) else none

/-- `년?`: the rest. -/
def dropYearMark : List Char → List Char
  | '년' :: rest => rest
  | rest => rest

def dropFiscalMark : List Char → List Char
  | f :: y :: rest =>
    if (f = 'f' ∨ f = 'F') ∧ (y = 'y' ∨ y = 'Y') then rest.dropWhile isSpace else f :: y :: rest
  | rest => rest

def isQuarterMark : Bool :=
  match chars with
  | [] => true
  | head :: rest =>
    isSpace head &&
      match rest.dropWhile isSpace with
      | [q, quarter] => (q == 'q' || q == 'Q') && ['1', '2', '3', '4'].contains quarter
      | _ => false

def yearPeriod : Option Nat :=
  match matchFixed 4 (dropFiscalMark chars) with
  | some (year, rest) => if isQuarterMark (dropYearMark rest) then some year else none
  | none => none

def yearSpan : Option (Nat × Nat) :=
  match matchFixed 4 chars with
  | none => none
  | some (first, rest) =>
    match (dropYearMark rest).dropWhile isSpace with
    | dash :: rest =>
      if ['-', '–', '—', '~'].contains dash then
        match matchFixed 4 (rest.dropWhile isSpace) with
        | some (last, rest) => if dropYearMark rest = [] then some (first, last) else none
        | none => none
      else
        none
    | [] => none

/-- A calendar date. -/
structure Date where
  (year month day : Nat)
  deriving DecidableEq

def isLeapYear (year : Nat) : Bool :=
  year % 4 == 0 && (year % 100 != 0 || year % 400 == 0)

/-- The days of a month. -/
def daysInMonth (year month : Nat) : Nat :=
  if month = 2 then (if isLeapYear year then 29 else 28)
  else if [4, 6, 9, 11].contains month then 30
  else 31

def Date.valid (date : Date) : Bool :=
  1 ≤ date.year && 1 ≤ date.month && date.month ≤ 12 && 1 ≤ date.day &&
    date.day ≤ daysInMonth date.year date.month

/-- Dates in calendar order. -/
def Date.le (first second : Date) : Bool :=
  first.year < second.year || (first.year == second.year &&
    (first.month < second.month || (first.month == second.month && first.day ≤ second.day)))

def matchDate : Option (Date × List Char) :=
  match matchFixed 4 chars with
  | some (year, '-' :: rest) =>
    match matchFixed 2 rest with
    | some (month, '-' :: rest) =>
      (matchFixed 2 rest).map fun (day, rest) => ({ year, month, day }, rest)
    | _ => none
  | _ => none

def isDateSeparator : Bool :=
  [['~'], ['–'], ['—'], ['t', 'o']].contains (stripChars chars) ||
    (stripChars chars == ['-'] && decide ([' ', '-', ' '] <:+: chars))

def dateSpan : Option (Date × Date) :=
  match matchDate chars with
  | none => none
  | some (start, []) => some (start, start)
  | some (start, rest) =>
    match matchDate (rest.drop (rest.length - 10)) with
    | some (finish, []) =>
      if isDateSeparator (rest.take (rest.length - 10)) then some (start, finish) else none
    | _ => none

def isSupportedPeriod (value : Option String) : Bool :=
  match value with
  | none => false
  | some value =>
    let text := stripChars value.toList
    match yearPeriod text with
    | some year => 0 < year
    | none =>
      match yearSpan text with
      | some (first, last) => 0 < first && first ≤ last
      | none =>
        match dateSpan text with
        | some (start, finish) => start.valid && finish.valid && start.le finish
        | none => false

end ProofOps.Domain.Numeric
