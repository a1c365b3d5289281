import Mathlib.Data.List.Infix
import Mathlib.Data.List.DropRight

/-!
# Python text operations

The `str` methods the modelled code calls, on lists of characters: `isspace`,
`strip`, `startswith`, `in` and the truth value of a string.
-/

namespace ProofOps.Foundation.PyText

def isSpace (c : Char) : Bool :=
  let code := c.toNat
  (9 ≤ code && code ≤ 13) || (28 ≤ code && code ≤ 32) || code == 0x85 || code == 0xA0 ||
    code == 0x1680 || (0x2000 ≤ code && code ≤ 0x200A) || code == 0x2028 || code == 0x2029 ||
    code == 0x202F || code == 0x205F || code == 0x3000

def stripChars (chars : List Char) : List Char :=
  (chars.dropWhile isSpace).rdropWhile isSpace

/-- `str.strip()`. -/
def strip (text : String) : String :=
  String.ofList (stripChars text.toList)

def nonBlank (text : String) : Bool :=
  text.toList.any fun c => !isSpace c

/-- `text.startswith(head)`. -/
def startsWith (text head : String) : Bool :=
  head.toList.isPrefixOf text.toList

/-- `needle in text`. -/
def isIn (needle text : String) : Bool :=
  decide (needle.toList <:+: text.toList)

def truthy : Option String → Bool
  | none => false
  | some text => text != ""

/-- Nothing is stripped from characters that are no white space. -/
theorem stripChars_of_forall {chars : List Char} (h : ∀ c ∈ chars, isSpace c = false) :
    stripChars chars = chars := by
  have hhead : chars.dropWhile isSpace = chars := by
    rw [List.dropWhile_eq_self_iff]
    intro hpositive hspace
    rw [h _ (List.getElem_mem hpositive)] at hspace
    cases hspace
  unfold stripChars
  rw [hhead, List.rdropWhile_eq_self_iff]
  intro hne hspace
  rw [h _ (List.getLast_mem hne)] at hspace
  cases hspace

end ProofOps.Foundation.PyText
