import Mathlib.Data.Char
import Mathlib.Data.List.Basic

/-!
# Strings in JSON text

How `json.dumps` writes a string with `ensure_ascii`, and how it is read back: quotation marks,
backslashes and control characters are escaped, everything beyond ASCII is written in UTF-16
units.
-/

namespace ProofOps.Foundation.JsonText

def hexDigit (n : Nat) : Char :=
  if n < 10 then Char.ofNat (48 + n) else Char.ofNat (87 + n)

def hexValue (c : Char) : Option Nat :=
  if '0' ≤ c ∧ c ≤ '9' then some (c.toNat - 48)
  else if 'a' ≤ c ∧ c ≤ 'f' then some (c.toNat - 87)
  else if 'A' ≤ c ∧ c ≤ 'F' then some (c.toNat - 55)
  else none

/-- Four hexadecimal digits. -/
def hexDigits (n : Nat) : List Char :=
  [hexDigit (n / 4096 % 16), hexDigit (n / 256 % 16), hexDigit (n / 16 % 16), hexDigit (n % 16)]

def unitValue (a b c d : Char) : Option Nat := do
  let a ← hexValue a
  let b ← hexValue b
  let c ← hexValue c
  let d ← hexValue d
  return a * 4096 + b * 256 + c * 16 + d

def unitEscape (n : Nat) : List Char :=
  '\\' :: 'u' :: hexDigits n

def shortEscapes : List (Char × Char) :=
  [('"', '"'), ('\\', '\\'), ('\n', 'n'), ('\r', 'r'), ('\t', 't'), ('\x0c', 'f'), ('\x08', 'b')]

def escapedChar (c : Char) : List Char :=
  match shortEscapes.lookup c with
  | some letter => ['\\', letter]
  | none =>
    if ' ' ≤ c ∧ c ≤ '~' then [c]
    else if c.toNat < 65536 then unitEscape c.toNat
    else
      unitEscape (55296 + (c.toNat - 65536) / 1024) ++
        unitEscape (56320 + (c.toNat - 65536) % 1024)

def escaped (chars : List Char) : List Char :=
  chars.flatMap escapedChar

def charOf (n : Nat) : Option Char :=
  if h : n.isValidChar then some (Char.ofNatAux n h) else none

def unescapedLetter (c : Char) : Option Char :=
  if c = '/' then some '/' else (shortEscapes.find? fun pair => pair.2 = c).map Prod.fst

def tokens : List Char → Option (List (Char ⊕ Nat))
  | [] => some []
  | '\\' :: 'u' :: a :: b :: c :: d :: rest =>
    (unitValue a b c d).bind fun unit => (tokens rest).map (.inr unit :: ·)
  | '\\' :: letter :: rest =>
    (unescapedLetter letter).bind fun made => (tokens rest).map (.inl made :: ·)
  | c :: rest => if c = '"' ∨ c < ' ' ∨ c = '\\' then none else (tokens rest).map (.inl c :: ·)

def joined : List (Char ⊕ Nat) → Option (List Char)
  | [] => some []
  | .inl c :: rest => (joined rest).map (c :: ·)
  | .inr high :: .inr low :: rest =>
    if 55296 ≤ high ∧ high < 56320 ∧ 56320 ≤ low ∧ low < 57344 then
      (charOf (65536 + (high - 55296) * 1024 + (low - 56320))).bind fun made =>
        (joined rest).map (made :: ·)
    else (charOf high).bind fun made => (joined (.inr low :: rest)).map (made :: ·)
  | .inr unit :: rest => (charOf unit).bind fun made => (joined rest).map (made :: ·)

def unescaped (chars : List Char) : Option (List Char) :=
  (tokens chars).bind joined

end ProofOps.Foundation.JsonText
