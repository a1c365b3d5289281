import ProofOps.Domain.Values
import ProofOps.Foundation.Checked
import ProofOps.Foundation.PyText
import ProofOps.Foundation.Thinning

/-!
# Joined display text

`join_allowed`, `display_alignment` and `locate_display` of `display_text`: spaces between syllables
are removed for display, and offsets of the display are mapped back to the raw text.
-/

namespace ProofOps.Application.Ingest.DisplayText

open Foundation Foundation.Checked Foundation.PyText Foundation.Scattered Foundation.Thinning Domain

/-- `[가-힣]`. -/
def isHangul (c : Char) : Bool :=
  0xAC00 ≤ c.toNat && c.toNat ≤ 0xD7A3

def protectedTokens : List (List Char) :=
  ["년", "월", "일", "톤", "원", "억", "만", "천", "백", "십", "미터", "제곱", "세제곱", "킬로미터",
    "밀리미터", "그램", "밀리그램", "밀리리터", "헥타르", "와트", "킬로와트", "메가와트", "기가와트",
    "와트시", "킬로와트시", "메가와트시", "시간", "초", "분", "도", "퍼센트", "개", "명", "대", "건",
    "리터", "킬로그램"].map String.toList

def insideUnit (raw : List Char) (offset : Nat) : Bool :=
  (protectedTokens.filter fun token => 1 < token.length).any fun token =>
    (findAll ' ' isHangul token raw).any fun place => place.1 < offset && offset < place.2

def notSpace (c : Char) : Bool :=
  !isSpace c

def leftWord (front : List Char) : List Char :=
  let word := front.rtakeWhile notSpace
  if word ≠ [] then word
  else if front.getLast? = some '\n' then front.dropLast.rtakeWhile notSpace
  else []

def rightWord (back : List Char) : List Char :=
  back.takeWhile notSpace

def isMark (c : Char) : Bool :=
  ['.', ',', ';', ':', '(', ')', '[', ']', '“', '”', '"', '\'', '•'].contains c

def stripMarks (word : List Char) : List Char :=
  (word.dropWhile isMark).rdropWhile isMark

def wordsJoin (left right : List Char) : Bool :=
  left ≠ [] && right ≠ [] && stripMarks left ≠ [] && (stripMarks left).all isHangul &&
    stripMarks right ≠ [] && (stripMarks right).all isHangul &&
    stripMarks left ∉ protectedTokens && stripMarks right ∉ protectedTokens &&
    stripMarks left ++ stripMarks right ∉ protectedTokens

/-- `join_allowed`. -/
def joinAllowed (raw : List Char) (offset : Nat) : Bool :=
  0 < offset && offset + 1 < raw.length && raw[offset]? = some ' ' && !insideUnit raw offset &&
    wordsJoin (leftWord (raw.take offset)) (rightWord (raw.drop (offset + 1))) &&
    (raw[offset - 1]?).any isHangul && (raw[offset + 1]?).any isHangul

/-- `DisplayAlignment`. -/
structure DisplayAlignment where
  (raw text : List Char)
  rawBoundaries : List Nat
  deriving DecidableEq

/-- `_bounds`. -/
def checkBounds (start stop length : Nat) : Except PyError Unit :=
  refuse (¬(start < stop ∧ stop ≤ length)) (.domainValidation "SPAN_RANGE")

def DisplayAlignment.rawSpan (mapping : DisplayAlignment) (start stop : Nat) :
    Except PyError (Nat × Nat) := do
  checkBounds start stop mapping.text.length
  return (mapping.rawBoundaries.getD (start + 1) 0 - 1, mapping.rawBoundaries.getD stop 0)

def DisplayAlignment.selectedSpan (mapping : DisplayAlignment) (start stop : Nat) :
    Except PyError (Nat × Nat) := do
  checkBounds start stop mapping.raw.length
  match mapping.rawBoundaries.tail.idxOf? (start + 1), mapping.rawBoundaries.tail.idxOf? stop with
  | some first, some last => .ok (first, last + 1)
  | _, _ => .error (.domainValidation "SPAN_SPLIT_CODEPOINT_MAP")

/-- `display_alignment`. -/
def displayAlignment (raw : List Char) (deleted : List Nat) : Except PyError DisplayAlignment := do
  refuse (¬deleted.Pairwise (fun first second => first < second) ∨
    deleted.any (fun offset => !joinAllowed raw offset) = true)
    (.valueError "DISPLAY_PROTECTED_BOUNDARY")
  return ⟨raw, thin deleted raw, 0 :: (kept deleted raw.length).map (· + 1)⟩

def placesOf (quote text : List Char) : List Nat :=
  (List.range (text.length + 1)).filter fun index => quote.isPrefixOf (text.drop index)

/-- `locate_display`. -/
def locateDisplay (quote : List Char) (mapping : DisplayAlignment) :
    Except PyError (Nat × Nat × List Char) :=
  if quote.all isSpace then .error (.valueError "display quote absent or ambiguous")
  else
    match placesOf quote mapping.text with
    | [start] => do
      let (rawStart, rawEnd) ← mapping.rawSpan start (start + quote.length)
      return (rawStart, rawEnd, (mapping.raw.take rawEnd).drop rawStart)
    | _ => .error (.valueError "display quote absent or ambiguous")

variable {raw : List Char} {offset : Nat}

theorem protectedTokens_hangul : ∀ token ∈ protectedTokens, ∀ c ∈ token, isHangul c = true := by
  simp only [← List.all_eq_true]
  decide +kernel

theorem protectedTokens_ne_nil : ∀ token ∈ protectedTokens, token ≠ [] := by
  decide +kernel

theorem protectedTokens_borderless : ∀ token ∈ protectedTokens, Borderless token := by
  have hcheck : ∀ token ∈ protectedTokens, ∀ count < token.length, 0 < count →
      ¬token.drop count <+: token := by
    decide +kernel
  intro token htoken
  exact borderless_of_drop (hcheck token htoken)

theorem isHangul_space : isHangul ' ' = false := by
  decide

structure Joinable (raw : List Char) (offset : Nat) : Prop where
  pos : 0 < offset
  inside : offset + 1 < raw.length
  space : raw[offset]? = some ' '
  unit : insideUnit raw offset = false
  words : wordsJoin (leftWord (raw.take offset)) (rightWord (raw.drop (offset + 1))) = true
  left : ∃ c, raw[offset - 1]? = some c ∧ isHangul c = true
  right : ∃ c, raw[offset + 1]? = some c ∧ isHangul c = true

theorem joinAllowed_iff : joinAllowed raw offset = true ↔ Joinable raw offset := by
  unfold joinAllowed
  simp only [Bool.and_eq_true, decide_eq_true_eq, Bool.not_eq_true', Option.any_eq_true]
  constructor
  · rintro ⟨⟨⟨⟨⟨⟨hpos, hinside⟩, hspace⟩, hunit⟩, hwords⟩, hleft⟩, hright⟩
    exact ⟨hpos, hinside, hspace, hunit, hwords, hleft, hright⟩
  · intro h
    exact ⟨⟨⟨⟨⟨⟨h.pos, h.inside⟩, h.space⟩, h.unit⟩, h.words⟩, h.left⟩, h.right⟩

/-- No joint lies inside a unit. -/
theorem Joinable.not_inside (h : Joinable raw offset) {token : List Char}
    (htoken : token ∈ protectedTokens) {start stop : Nat}
    (hoccurs : Occurs ' ' isHangul token raw start stop) : ¬(start < offset ∧ offset < stop) := by
  rintro ⟨hstart, hstop⟩
  have hlong : 1 < token.length := by
    by_contra hshort
    have hlength := hoccurs.length_of_short (by omega)
    omega
  have hmatch := (mem_findAll isHangul_space (protectedTokens_hangul token htoken)
    (protectedTokens_borderless token htoken)).mpr hoccurs
  have hunit : insideUnit raw offset = true := by
    refine List.any_eq_true.mpr ⟨token, List.mem_filter.mpr ⟨htoken, decide_eq_true hlong⟩, ?_⟩
    refine List.any_eq_true.mpr ⟨(start, stop), hmatch, ?_⟩
    simp [hstart, hstop]
  rw [h.unit] at hunit
  cases hunit

end ProofOps.Application.Ingest.DisplayText
