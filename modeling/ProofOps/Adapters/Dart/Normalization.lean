import ProofOps.Application.Ingest.NormalizeValue
import ProofOps.Domain.Reconciliation.Packet

/-!
# Amounts of financial statements

`normalize_financial_amount` reads an amount as a `Decimal`, multiplies it by the scale of its unit
in a decimal context whose precision follows the length of the text, and writes it without an
exponent.  The precision always suffices.  The exponent range of the context is the ambient one,
though, while an exact `Decimal` has a far larger one (`normalize_exact_iff`).
-/

namespace ProofOps.Adapters.Dart

open Foundation Foundation.PyText Foundation.Checked Domain.Numeric Domain.Reconciliation
open Application.Ingest.Normalize

inductive PyDecimal where
  | finite (negative : Bool) (coefficient : Nat) (exponent : Int)
      (exact : Exact coefficient exponent)
  | infinity (negative : Bool)
  | nan (negative signaling : Bool) (payload : Nat)

def PyDecimal.number : PyDecimal → Option ℚ
  | .finite negative coefficient exponent _ => some (signedValue negative coefficient exponent)
  | .infinity _ => none
  | .nan _ _ _ => none

def scientific (negative : Bool) (coefficient : Nat) (exponent : Int) : String :=
  let digits := (toString coefficient).toList
  let shift := exponent + digits.length - 1
  if exponent ≤ 0 ∧ -7 < shift then fixedPoint negative coefficient exponent
  else
    String.ofList ((if negative then ['-'] else []) ++ (digits.take 1 ++
      ((if digits.drop 1 = [] then [] else '.' :: digits.drop 1) ++
        'E' :: (if shift < 0 then '-' else '+') :: (toString shift.natAbs).toList)))

def PyDecimal.str : PyDecimal → String
  | .finite negative coefficient exponent _ => scientific negative coefficient exponent
  | .infinity negative => String.ofList ((if negative then ['-'] else []) ++ "Infinity".toList)
  | .nan negative signaling payload =>
    String.ofList ((if negative then ['-'] else []) ++
      ((if signaling then "sNaN".toList else "NaN".toList) ++
        if payload = 0 then [] else (toString payload).toList))

def readSpecial (negative : Bool) (chars : List Char) : Option PyDecimal :=
  let lowered := chars.map Char.toLower
  if lowered = "inf".toList ∨ lowered = "infinity".toList then some (.infinity negative)
  else if "nan".toList.isPrefixOf lowered ∧ (lowered.drop 3).all isDigit then
    some (.nan negative false (digitsValue (lowered.drop 3)))
  else if "snan".toList.isPrefixOf lowered ∧ (lowered.drop 4).all isDigit then
    some (.nan negative true (digitsValue (lowered.drop 4)))
  else none

def readDecimal (text : String) : Option PyDecimal :=
  let chars := ((stripChars text.toList).filter (· != '_')).map asciiDigit
  let (negative, unsigned) := matchSign chars
  match matchCoefficient unsigned with
  | none => readSpecial negative unsigned
  | some (whole, fraction, rest) =>
    (matchDecimalExponent rest).bind fun exponent =>
      if exact : Exact (digitsValue (whole ++ fraction)) (exponent - fraction.length) then
        some (.finite negative (digitsValue (whole ++ fraction)) (exponent - fraction.length) exact)
      else none

def formatFixed (negative : Bool) (coefficient : Nat) (exponent : Int) : String :=
  fixedPoint negative coefficient (if coefficient = 0 then min exponent 0 else exponent)

/-! ### `normalize_financial_amount` -/

structure PyStrings where
  lower : String → String
  upper : String → String
  repr : String → String

inductive RawValue where
  | null
  | boolean (flag : Bool)
  | float (shown : String)
  | integer (value : Int)
  | decimal (value : PyDecimal)
  | text (value : String)

inductive AmountError where
  | valueError (message : String)
  | overflow
  deriving DecidableEq

structure Amount where
  raw : String
  normalized : Option String
  (unit rawUnit currency kind : String)
  deriving DecidableEq

/-- `KRW_UNIT_SCALES`. -/
def krwUnitScales : List (String × Nat) :=
  [("", 1), ("원", 1), ("krw", 1), ("천원", 1000), ("백만원", 1000000), ("억원", 100000000),
    ("억", 100000000), ("조원", 1000000000000), ("조", 1000000000000)]

def blankMarkers : List String :=
  ["", "-", "N/A", "null", "None"]

def maxStrDigits : Nat := 4300

/-- `str(raw_value)`. -/
def RawValue.str : RawValue → Except AmountError String
  | .null => .ok "None"
  | .boolean flag => .ok (if flag then "True" else "False")
  | .float shown => .ok shown
  | .integer value =>
    if maxStrDigits < (toString value.natAbs).length then
      .error (.valueError ("Exceeds the limit (4300 digits) for integer string conversion; " ++
        "use sys.set_int_max_str_digits() to increase the limit"))
    else .ok (fixedPoint (value < 0) value.natAbs 0)
  | .decimal value => .ok value.str
  | .text value => .ok value

variable (python : PyStrings)

/-- `repr(raw_value)`. -/
def RawValue.repr : RawValue → String
  | .null => "None"
  | .boolean flag => if flag then "True" else "False"
  | .float shown => shown
  | .integer value => toString value
  | .decimal value => "Decimal('" ++ value.str ++ "')"
  | .text value => python.repr value

def scaleOf (cleanUnit : String) : Option Nat :=
  (krwUnitScales.lookup cleanUnit).or (krwUnitScales.lookup (python.lower cleanUnit))

variable (currency : String)

def isKrw : Bool :=
  python.upper currency = "KRW"

variable (unitRaw : String)

def checkUnit : Except AmountError Unit :=
  let cleanUnit := strip unitRaw
  if isKrw python currency then
    if cleanUnit ≠ "" ∧ scaleOf python cleanUnit = none then
      .error (.valueError ("Unknown or unapproved unit for KRW: " ++ python.repr unitRaw))
    else .ok ()
  else if cleanUnit ≠ "" ∧ python.lower cleanUnit ∉ ["", python.lower currency] then
    .error (.valueError ("Unknown or unapproved unit for " ++ currency ++ ": " ++
      python.repr unitRaw))
  else .ok ()

def krwScale : Option Nat :=
  if isKrw python currency then scaleOf python (strip unitRaw) else none

def cleaned (rawStr : String) : String :=
  let clean := rawStr.toList.filter (· != ',')
  if clean.head? = some '(' ∧ clean.getLast? = some ')' then
    String.ofList ('-' :: stripChars (clean.drop 1).dropLast)
  else String.ofList clean

def precisionOf (clean : String) : Nat :=
  max 100 (clean.toList.length + 20)

def scaledText (precision : Nat) (negative : Bool) (parsed : Decimal) (scale : Nat) :
    Except AmountError String :=
  let product := Decimal.times (localContext precision) parsed ⟨scale, 0⟩
  if product.coefficient ≠ 0 ∧ contextEmax < product.exponent + Nat.log 10 product.coefficient then
    .error .overflow
  else
    .ok (formatFixed negative product.coefficient
      (if product.coefficient = 0 then min product.exponent contextEmax else product.exponent))

variable (raw : RawValue)

def rejectType : Except AmountError Unit :=
  match raw with
  | .boolean _ =>
    .error (.valueError "Boolean inputs are rejected for financial amount normalization")
  | .float shown =>
    .error (.valueError ("Float inputs are rejected to prevent IEEE-754 precision loss: " ++ shown ++
      ". Pass string, int, or decimal.Decimal."))
  | _ => .ok ()

def normalizedText (clean : String) (negative : Bool) (parsed : Decimal) :
    Except AmountError String :=
  match krwScale python currency unitRaw with
  | some scale => scaledText (precisionOf clean) negative parsed scale
  | none => .ok (formatFixed negative parsed.coefficient parsed.exponent)

def normalizeText (currency unitRaw clean : String) : Except AmountError String :=
  match readDecimal clean with
  | none => .error (.valueError ("Failed to parse financial amount: " ++ raw.repr python))
  | some (.finite negative coefficient exponent _) =>
    normalizedText python currency unitRaw clean negative ⟨coefficient, exponent⟩
  | some _ =>
    .error (.valueError ("Financial amount cannot be NaN or Infinite: " ++ raw.repr python))

def normalizeFinancialAmount (currency unitRaw : String) :
    Except AmountError Amount := do
  let amount := fun rawStr normalized =>
    Amount.mk rawStr normalized currency unitRaw currency "currency_amount"
  rejectType raw
  checkUnit python currency unitRaw
  match raw with
  | .null => .ok (amount "" none)
  | _ =>
    let rawStr := strip (← raw.str)
    if rawStr ∈ blankMarkers then .ok (amount rawStr none)
    else
      let text ← normalizeText python raw currency unitRaw (cleaned rawStr)
      .ok (amount rawStr (some text))

/-! ### The purpose -/

def displayed : RawValue → Option ℚ
  | .integer value => some value
  | .decimal value => value.number
  | .text value => decimal (some (cleaned (strip value)))
  | .null | .boolean _ | .float _ => none

def IsBlank : Prop :=
  raw = .null ∨ ∃ text, raw.str = .ok text ∧ strip text ∈ blankMarkers

def unitScale : ℚ :=
  ((krwScale python currency unitRaw).getD 1 : Nat)

structure Normalizes (raw : RawValue) (currency unitRaw : String) : Prop where
  refused : ∀ error, normalizeFinancialAmount python raw currency unitRaw = .error error →
    ∃ message, error = .valueError message
  exact : ∀ amount, normalizeFinancialAmount python raw currency unitRaw = .ok amount →
    (amount.normalized = none ∧ IsBlank raw) ∨
      ∃ text parsed value, amount.normalized = some text ∧
        parseDecimal text "normalized" = .ok parsed ∧ displayed raw = some value ∧
        signedValue parsed.1 parsed.2.coefficient parsed.2.exponent =
          value * unitScale python currency unitRaw

def Fits (currency unitRaw : String) : Prop :=
  ∀ scale text value, krwScale python currency unitRaw = some scale → raw.str = .ok text →
    displayed raw = some value →
    Decimal.InRange (localContext (precisionOf (cleaned (strip text)))) contextEmax
      (value * (scale : ℚ))

variable {coefficient : Nat} {exponent : Int}

theorem readDecimal_number (text : String) :
    decimal (some text) = (readDecimal text).bind PyDecimal.number := by
  unfold decimal readDecimal
  simp only [Option.bind_eq_bind, Option.bind_some]
  generalize (matchSign ((List.filter (· != '_') (stripChars text.toList)).map asciiDigit)) = signed
  obtain ⟨negative, unsigned⟩ := signed
  cases hcoefficient : matchCoefficient unsigned with
  | none =>
    simp only [Option.bind_none]
    unfold readSpecial
    dsimp only
    split_ifs <;> rfl
  | some found =>
    obtain ⟨whole, fraction, rest⟩ := found
    simp only [Option.bind_some]
    cases matchDecimalExponent rest with
    | none => rfl
    | some exponent =>
      simp only [Option.bind_some]
      by_cases hexact : Exact (digitsValue (whole ++ fraction)) (exponent - fraction.length)
      · rw [dif_pos hexact]
        exact if_pos hexact
      · rw [dif_neg hexact]
        exact if_neg hexact

variable {chars fraction whole : List Char}

theorem matchCoefficient_some {rest : List Char}
    (h : matchCoefficient chars = some (whole, fraction, rest)) :
    (whole ++ fraction).length ≤ chars.length ∧ ∀ c ∈ whole ++ fraction, isDigit c = true := by
  have hlength := length_takeWhile_dropWhile chars
  unfold matchCoefficient at h
  split at h
  rename_i digits behind hsplit
  dsimp only at h
  split_ifs at h
  cases h
  split at hsplit
  · rename_i tail hdrop
    have htail := length_takeWhile_dropWhile tail
    rw [hdrop, List.length_cons] at hlength
    cases hsplit
    constructor
    · rw [List.length_append]
      omega
    · intro c hc
      rcases List.mem_append.mp hc with hc | hc <;> exact mem_takeWhile_digit hc
  · cases hsplit
    constructor
    · rw [List.append_nil]
      omega
    · intro c hc
      rw [List.append_nil] at hc
      exact mem_takeWhile_digit hc

theorem length_stripChars_le (chars : List Char) : (stripChars chars).length ≤ chars.length :=
  ((List.rdropWhile_prefix _ _).length_le).trans (List.dropWhile_suffix _).length_le

variable {text : String} {negative : Bool} {exact : Exact coefficient exponent}

theorem readDecimal_coefficient
    (h : readDecimal text = some (.finite negative coefficient exponent exact)) :
    coefficient < 10 ^ text.toList.length := by
  unfold readDecimal at h
  dsimp only at h
  have hchars := (List.length_filter_le (· != '_') (stripChars text.toList)).trans
    (length_stripChars_le text.toList)
  have hsign := matchSign_length
    ((List.filter (· != '_') (stripChars text.toList)).map asciiDigit)
  rw [List.length_map] at hsign
  cases hcoefficient : matchCoefficient (matchSign ((List.filter (· != '_')
      (stripChars text.toList)).map asciiDigit)).2 with
  | none =>
    rw [hcoefficient] at h
    unfold readSpecial at h
    dsimp only at h
    split_ifs at h <;> cases h
  | some found =>
    rw [hcoefficient] at h
    obtain ⟨hlength, hdigits⟩ := matchCoefficient_some hcoefficient
    obtain ⟨other, -, h⟩ := Option.bind_eq_some_iff.mp h
    split_ifs at h with hexact
    cases h
    apply (digitsValue_lt hdigits).trans_le
    exact Nat.pow_le_pow_right (by decide) (by omega)

/-! ### What `str` of a decimal displays -/

def Written (c : Char) : Prop :=
  Plain c ∨ c ∈ ['+', 'E', 'I', 'n', 'f', 'i', 't', 'y', 'N', 'a', 's']

theorem Written.kept {c : Char} (h : Written c) :
    (isSpace c = false ∧ c ≠ '_' ∧ asciiDigit c = c) ∧ c ≠ ',' ∧ c ≠ '(' := by
  rcases h with hplain | hletter
  · refine ⟨⟨isSpace_of_plain hplain, ne_underscore_of_plain hplain, asciiDigit_of_plain hplain⟩,
      ?_, ?_⟩
    · rintro rfl
      rcases hplain with h | h | h <;> exact absurd h (by decide)
    · rintro rfl
      rcases hplain with h | h | h <;> exact absurd h (by decide)
  · simp only [List.mem_cons, List.not_mem_nil, or_false] at hletter
    rcases hletter with rfl | rfl | rfl | rfl | rfl | rfl | rfl | rfl | rfl | rfl | rfl <;> decide

theorem decimal_written (h : ∀ c ∈ chars, Written c) :
    decimal (some (cleaned (strip (String.ofList chars)))) = decimal (some (String.ofList chars)) := by
  have hstrip : strip (String.ofList chars) = String.ofList chars := by
    rw [strip, String.toList_ofList, stripChars_of_forall fun c hc => (h c hc).kept.1.1]
  have hcommas : chars.filter (· != ',') = chars := by
    rw [List.filter_eq_self]
    exact fun c hc => bne_iff_ne.mpr (h c hc).kept.2.1
  rw [hstrip, cleaned, String.toList_ofList, hcommas, if_neg]
  rintro ⟨hhead, -⟩
  exact (h '(' (List.mem_of_mem_head? hhead)).kept.2.2 rfl

theorem written_digits (n : Nat) : ∀ c ∈ (toString n).toList, Written c :=
  fun c hc => .inl (.inl (isDigit_toString n c hc))

theorem written_signed {negative : Bool} {chars : List Char} (h : ∀ c ∈ chars, Written c) :
    ∀ c ∈ (if negative then ['-'] else []) ++ chars, Written c := by
  intro c hc
  rcases List.mem_append.mp hc with hsign | hrest
  · cases negative with
    | true => exact .inl (.inr (.inl (List.mem_singleton.mp hsign)))
    | false => cases hsign
  · exact h c hrest

theorem written_fixedPoint (negative : Bool) (coefficient places : Nat) :
    ∃ chars, fixedPoint negative coefficient (-(places : Int)) = String.ofList chars ∧
      ∀ c ∈ chars, Written c := by
  obtain ⟨whole, fraction, htext, -, -, -, hwhole, hfraction⟩ :=
    fixedPoint_eq negative coefficient places
  rw [htext]
  cases fraction with
  | nil => exact ⟨_, rfl, written_signed fun c hc => .inl (.inl (hwhole c hc))⟩
  | cons d fraction =>
    refine ⟨(if negative then ['-'] else []) ++ (whole ++ '.' :: d :: fraction), ?_, ?_⟩
    · rw [plainText, List.append_assoc]
    · apply written_signed
      intro c hc
      rcases List.mem_append.mp hc with hc | hc
      · exact .inl (.inl (hwhole c hc))
      · rcases List.mem_cons.mp hc with rfl | hc
        · exact .inl (.inr (.inr rfl))
        · exact .inl (.inl (hfraction c hc))

theorem matchCoefficient_exponent {digits rest : List Char} (hne : digits ≠ [])
    (hdigits : ∀ c ∈ digits, isDigit c = true) :
    matchCoefficient (digits.take 1 ++
        ((if digits.drop 1 = [] then [] else '.' :: digits.drop 1) ++ 'E' :: rest)) =
      some (digits.take 1, digits.drop 1, 'E' :: rest) := by
  cases digits with
  | nil => exact absurd rfl hne
  | cons c digits =>
    have hc := hdigits c List.mem_cons_self
    have hbehind : ∀ d ∈ digits, isDigit d = true := fun d hd => hdigits d (List.mem_cons_of_mem _ hd)
    cases digits with
    | nil =>
      show matchCoefficient (c :: 'E' :: rest) = some ([c], [], 'E' :: rest)
      unfold matchCoefficient
      rw [List.takeWhile_cons_of_pos hc, List.dropWhile_cons_of_pos hc,
        List.takeWhile_cons_of_neg (by decide), List.dropWhile_cons_of_neg (by decide)]
      rfl
    | cons d digits =>
      show matchCoefficient (c :: '.' :: (d :: digits ++ 'E' :: rest)) =
        some ([c], d :: digits, 'E' :: rest)
      have htake : (d :: digits ++ 'E' :: rest).takeWhile isDigit = d :: digits := by
        rw [List.takeWhile_append_of_pos hbehind, List.takeWhile_cons_of_neg (by decide),
          List.append_nil]
      have hdrop : (d :: digits ++ 'E' :: rest).dropWhile isDigit = 'E' :: rest := by
        rw [List.dropWhile_append_of_pos hbehind, List.dropWhile_cons_of_neg (by decide)]
      unfold matchCoefficient
      rw [List.takeWhile_cons_of_pos hc, List.dropWhile_cons_of_pos hc,
        List.takeWhile_cons_of_neg (by decide), List.dropWhile_cons_of_neg (by decide)]
      show (if [c] ++ (d :: digits ++ 'E' :: rest).takeWhile isDigit = [] then none else
        some ([c], (d :: digits ++ 'E' :: rest).takeWhile isDigit,
          (d :: digits ++ 'E' :: rest).dropWhile isDigit)) = _
      rw [htake, hdrop]
      rfl

theorem matchDecimalExponent_shift (shift : Int) :
    matchDecimalExponent ('E' :: (if shift < 0 then '-' else '+') :: (toString shift.natAbs).toList) =
      some shift := by
  have hne : (toString shift.natAbs).toList ≠ [] := by
    show shift.natAbs.repr.toList ≠ []
    rw [Nat.toList_repr]
    exact Nat.toDigits_ne_nil
  have hall : (toString shift.natAbs).toList.all isDigit = true :=
    List.all_eq_true.mpr (isDigit_toString shift.natAbs)
  have hsign : matchSign ((if shift < 0 then '-' else '+') :: (toString shift.natAbs).toList) =
      (decide (shift < 0), (toString shift.natAbs).toList) := by
    by_cases hnegative : shift < 0
    · rw [if_pos hnegative, decide_eq_true hnegative]
      rfl
    · rw [if_neg hnegative, decide_eq_false hnegative]
      rfl
  unfold matchDecimalExponent
  simp only [hsign]
  rw [if_pos ⟨.inr trivial, hne, hall⟩, digitsValue_toString]
  congr 1
  split_ifs with hnegative
  · have := of_decide_eq_true hnegative
    omega
  · have := of_decide_eq_false (Bool.not_eq_true _ ▸ hnegative)
    omega

/-- The scientific form is read back as the number. -/
theorem decimal_scientific (exact : Exact coefficient exponent) :
    decimal (some (cleaned (strip (scientific negative coefficient exponent)))) =
      some (signedValue negative coefficient exponent) := by
  have hdigits := isDigit_toString coefficient
  have hvalue := digitsValue_toString coefficient
  have hne : (toString coefficient).toList ≠ [] := by
    show coefficient.repr.toList ≠ []
    rw [Nat.toList_repr]
    exact Nat.toDigits_ne_nil
  unfold scientific
  by_cases hplain : exponent ≤ 0 ∧ -7 < exponent + ((toString coefficient).toList.length : Int) - 1
  · rw [if_pos hplain]
    obtain ⟨places, rfl⟩ : ∃ places : Nat, exponent = -(places : Int) :=
      ⟨exponent.natAbs, by omega⟩
    obtain ⟨chars, htext, hchars⟩ := written_fixedPoint negative coefficient places
    rw [htext, decimal_written hchars, ← htext, decimal_fixedPoint exact]
  · rw [if_neg hplain]
    generalize hshift : exponent + ((toString coefficient).toList.length : Int) - 1 = shift
    generalize hrest : (if shift < 0 then '-' else '+') :: (toString shift.natAbs).toList = rest
    have hread := @matchCoefficient_exponent _ rest hne hdigits
    have hexponent := matchDecimalExponent_shift shift
    rw [hrest] at hexponent
    generalize hbody : (toString coefficient).toList.take 1 ++ ((if (toString coefficient).toList.drop 1
      = [] then [] else '.' :: (toString coefficient).toList.drop 1) ++ 'E' :: rest) = body at hread ⊢
    have hhead : ∀ c ∈ body.head?, isDigit c = true := by
      intro c hc
      rw [← hbody, List.head?_append_of_ne_nil _ (by simp)] at hc
      exact hdigits c (List.mem_of_mem_take (List.mem_of_mem_head? hc))
    have hwritten : ∀ c ∈ body, Written c := by
      intro c hc
      rw [← hbody, ← hrest] at hc
      simp only [List.mem_append, List.mem_cons] at hc
      rcases hc with hc | hc | rfl | rfl | hc
      · exact written_digits coefficient c (List.mem_of_mem_take hc)
      · split_ifs at hc
        · cases hc
        · rcases List.mem_cons.mp hc with rfl | hc
          · exact .inl (.inr (.inr rfl))
          · exact written_digits coefficient c (List.mem_of_mem_drop hc)
      · exact .inr (by decide)
      · split_ifs
        · exact .inl (.inr (.inl rfl))
        · exact .inr (by decide)
      · exact written_digits shift.natAbs c hc
    have hbodyNe : body ≠ [] := by
      rintro rfl
      rw [List.append_eq_nil_iff, List.take_eq_nil_iff] at hbody
      exact hne (hbody.1.resolve_left (by decide))
    rw [decimal_written (written_signed hwritten), decimal]
    simp only [Option.bind_eq_bind, Option.bind_some, String.toList_ofList,
      kept_chars fun c hc => (@written_signed negative _ hwritten c hc).kept.1,
      matchSign_of_digit hbodyNe hhead, hread, hexponent, List.take_append_drop, hvalue]
    have hscaled : shift - ((toString coefficient).toList.drop 1).length = exponent := by
      have := List.length_pos_iff.mpr hne
      rw [List.length_drop]
      omega
    rw [hscaled]
    exact if_pos exact

theorem decimal_word {c : Char} {word : List Char} (hc : c ∈ ['I', 'N', 's'])
    (hwritten : ∀ d ∈ c :: word, Written d) :
    decimal (some (cleaned (strip (String.ofList ((if negative then ['-'] else []) ++ c :: word))))) =
      none := by
  rw [decimal_written (written_signed hwritten), decimal]
  simp only [Option.bind_eq_bind, Option.bind_some, String.toList_ofList,
    kept_chars fun c hc => (@written_signed negative _ hwritten c hc).kept.1]
  have hsign : matchSign ((if negative then ['-'] else []) ++ c :: word) = (negative, c :: word) := by
    simp only [List.mem_cons, List.not_mem_nil, or_false] at hc
    cases negative with
    | true => rfl
    | false => rcases hc with rfl | rfl | rfl <;> rfl
  have hcoefficient : matchCoefficient (c :: word) = none := by
    simp only [List.mem_cons, List.not_mem_nil, or_false] at hc
    rcases hc with rfl | rfl | rfl <;> rfl
  rw [hsign, hcoefficient]
  rfl

theorem decimal_str (value : PyDecimal) :
    decimal (some (cleaned (strip value.str))) = value.number := by
  have hletters : ∀ word : List Char, (word.all fun c =>
      ['+', 'E', 'I', 'n', 'f', 'i', 't', 'y', 'N', 'a', 's'].contains c) = true →
      ∀ c ∈ word, Written c := by
    intro word hall c hc
    exact .inr (List.contains_iff_mem.mp (List.all_eq_true.mp hall c hc))
  cases value with
  | finite negative coefficient exponent exact => exact decimal_scientific exact
  | infinity negative => exact decimal_word (by decide) (hletters "Infinity".toList (by decide))
  | nan negative signaling payload =>
    have hpayload : ∀ c ∈ (if payload = 0 then [] else (toString payload).toList), Written c := by
      intro c hc
      split_ifs at hc
      · cases hc
      · exact written_digits payload c hc
    have hword : ∀ word : List Char, (∀ c ∈ word, Written c) →
        ∀ c ∈ word ++ (if payload = 0 then [] else (toString payload).toList), Written c := by
      intro word hletters c hc
      exact (List.mem_append.mp hc).elim (hletters c) (hpayload c)
    cases signaling with
    | true => exact decimal_word (by decide) (hword _ (hletters "sNaN".toList (by decide)))
    | false => exact decimal_word (by decide) (hword _ (hletters "NaN".toList (by decide)))

theorem decimal_integer {value : Int} (h : ¬maxStrDigits < (toString value.natAbs).length) :
    decimal (some (cleaned (strip (fixedPoint (value < 0) value.natAbs 0)))) = some (value : ℚ) := by
  have hexact : Exact value.natAbs (-((0 : Nat) : Int)) := by
    refine ⟨by decide, ?_⟩
    unfold adjusted decimalEmax
    unfold maxStrDigits at h
    split_ifs <;> omega
  obtain ⟨chars, htext, hchars⟩ := written_fixedPoint (value < 0) value.natAbs 0
  have hread := @decimal_fixedPoint (value < 0) _ _ hexact
  rw [Nat.cast_zero, neg_zero] at htext hread
  have hcast : (value.natAbs : ℚ) = ((value.natAbs : Int) : ℚ) := (Int.cast_natCast _).symm
  rw [htext, decimal_written hchars, ← htext, hread, signedValue, zpow_zero, mul_one, hcast]
  congr 1
  split_ifs with hnegative
  · have habs : (value.natAbs : Int) = -value := by
      have := of_decide_eq_true hnegative
      omega
    rw [habs, Int.cast_neg, neg_neg]
  · have habs : (value.natAbs : Int) = value := by
      have := of_decide_eq_false (Bool.not_eq_true _ ▸ hnegative)
      omega
    rw [habs]

theorem displayed_eq {raw : RawValue} (hstr : raw.str = .ok text)
    (htype : rejectType raw = .ok ()) (hnull : raw ≠ .null) :
    displayed raw = decimal (some (cleaned (strip text))) := by
  cases raw with
  | null => exact absurd rfl hnull
  | boolean flag => cases htype
  | float shown => cases htype
  | integer value =>
    dsimp only [RawValue.str] at hstr
    split_ifs at hstr with hlimit
    cases hstr
    exact (decimal_integer hlimit).symm
  | decimal value =>
    cases hstr
    exact (decimal_str value).symm
  | text value =>
    cases hstr
    rfl

/-- A plain text is a plain decimal. -/
theorem plainDecimal_plainText
    (hwhole : ∀ c ∈ whole, isDigit c = true) (hfraction : ∀ c ∈ fraction, isDigit c = true)
    (hne : whole ≠ []) :
    plainDecimal (dropFinalBreak (plainText negative whole fraction).toList) =
      some (negative, ⟨digitsValue (whole ++ fraction), -(fraction.length : Int)⟩) := by
  have hhead : ∀ rest : List Char, (whole ++ rest).head? ≠ some '-' := by
    intro rest h
    rw [List.head?_append_of_ne_nil _ hne] at h
    exact absurd (hwhole '-' (List.mem_of_mem_head? h)) (by decide)
  obtain ⟨rest, htext, hlast, hmatch⟩ : ∃ rest, (plainText negative whole fraction).toList =
        (if negative then ['-'] else []) ++ (whole ++ rest) ∧
      (∀ c ∈ whole ++ rest, c ≠ '\n') ∧
      (whole ++ rest).takeWhile isDigit = whole ∧
      matchFraction ((whole ++ rest).dropWhile isDigit) = (fraction, []) := by
    have hbreak : ∀ c, isDigit c = true → c ≠ '\n' := by
      rintro c hc rfl
      exact absurd hc (by decide)
    cases fraction with
    | nil =>
      refine ⟨[], ?_, ?_, ?_, ?_⟩
      · rw [plainText, String.toList_ofList, List.append_nil]
      · rw [List.append_nil]
        exact fun c hc => hbreak c (hwhole c hc)
      · rw [List.append_nil, List.takeWhile_eq_self_iff.mpr hwhole]
      · rw [List.append_nil, List.dropWhile_eq_nil_iff.mpr hwhole]
        rfl
    | cons d fraction =>
      refine ⟨'.' :: d :: fraction, ?_, ?_, ?_, ?_⟩
      · rw [plainText, String.toList_ofList, List.append_assoc]
      · intro c hc
        rcases List.mem_append.mp hc with hc | hc
        · exact hbreak c (hwhole c hc)
        · rcases List.mem_cons.mp hc with rfl | hc
          · decide
          · exact hbreak c (hfraction c hc)
      · rw [List.takeWhile_append_of_pos hwhole, List.takeWhile_cons_of_neg (by decide),
          List.append_nil]
      · rw [List.dropWhile_append_of_pos hwhole, List.dropWhile_cons_of_neg (by decide),
          matchFraction, List.takeWhile_eq_self_iff.mpr hfraction,
          List.dropWhile_eq_nil_iff.mpr hfraction, if_neg (List.cons_ne_nil _ _)]
  have hbreak : dropFinalBreak (plainText negative whole fraction).toList =
      (if negative then ['-'] else []) ++ (whole ++ rest) := by
    rw [htext, dropFinalBreak, if_neg]
    intro h
    rw [List.getLast?_append_of_ne_nil _ (List.append_ne_nil_of_left_ne_nil hne rest)] at h
    exact hlast '\n' (List.mem_of_mem_getLast? h) rfl
  rw [hbreak]
  unfold plainDecimal
  cases negative with
  | true =>
    simp only [if_true, List.singleton_append, List.head?_cons, List.drop_one, List.tail_cons,
      hmatch]
    cases whole with
    | nil => exact absurd rfl hne
    | cons c whole => rfl
  | false =>
    simp only [Bool.false_eq_true, if_false, List.nil_append, hhead rest, decide_false, hmatch]

theorem value_clamp (coefficient : Nat) (exponent limit : Int) :
    (⟨coefficient, if coefficient = 0 then min exponent limit else exponent⟩ : Decimal).value =
      (⟨coefficient, exponent⟩ : Decimal).value := by
  unfold Decimal.value
  split_ifs with hzero
  · rw [hzero, Nat.cast_zero, zero_mul, zero_mul]
  · rfl

/-- The fixed form is parsed back to the value. -/
theorem parse_formatFixed (negative : Bool) (coefficient : Nat) (exponent : Int) (name : String) :
    ∃ parsed : Decimal, parseDecimal (formatFixed negative coefficient exponent) name =
        .ok (negative, parsed) ∧
      parsed.value = (⟨coefficient, exponent⟩ : Decimal).value := by
  unfold formatFixed
  rw [← value_clamp coefficient exponent 0]
  generalize (if coefficient = 0 then min exponent 0 else exponent) = shown
  by_cases hshown : shown ≤ 0
  · obtain ⟨places, rfl⟩ : ∃ places : Nat, shown = -(places : Int) := ⟨shown.natAbs, by omega⟩
    obtain ⟨whole, fraction, htext, hplaces, hne, hdigits, hwhole, hfraction⟩ :=
      fixedPoint_eq negative coefficient places
    refine ⟨⟨coefficient, -(places : Int)⟩, ?_, rfl⟩
    rw [parseDecimal, htext, plainDecimal_plainText hwhole hfraction hne, hdigits, hplaces]
  · obtain ⟨zeros, rfl⟩ : ∃ zeros : Nat, shown = (zeros : Int) := ⟨shown.natAbs, by omega⟩
    obtain ⟨whole, htext, hne, hdigits, hwhole⟩ := fixedPoint_zeros negative coefficient zeros
    refine ⟨⟨coefficient * 10 ^ zeros, 0⟩, ?_, ?_⟩
    · rw [parseDecimal, htext, plainDecimal_plainText hwhole (by rintro c ⟨⟩) hne, List.append_nil,
        hdigits]
      rfl
    · unfold Decimal.value
      push_cast
      rw [mul_one, zpow_natCast]

theorem scaledText_exact_iff {precision : Nat} {negative : Bool} {parsed : Decimal} {scale : Nat}
    (hdigits : parsed.coefficient * scale < 10 ^ precision) (hprecision : 0 < precision) :
    (∃ text other, scaledText precision negative parsed scale = .ok text ∧
        parseDecimal text "normalized" = .ok (negative, other) ∧
        other.value = parsed.value * scale) ↔
      Decimal.InRange (localContext precision) contextEmax (parsed.value * scale) := by
  have hrange : Decimal.InRange (localContext precision) contextEmax
      (parsed.value * (⟨scale, 0⟩ : Decimal).value) ↔ _ :=
    Decimal.inRange_iff_times hprecision hdigits
  rw [Decimal.value_natural] at hrange
  rw [hrange]
  unfold scaledText
  dsimp only
  generalize Decimal.times (localContext precision) parsed ⟨scale, 0⟩ = product
  obtain ⟨known, hknown, hsame⟩ := parse_formatFixed negative product.coefficient
    (if product.coefficient = 0 then min product.exponent contextEmax else product.exponent)
    "normalized"
  rw [value_clamp] at hsame
  generalize formatFixed negative product.coefficient (if product.coefficient = 0 then
    min product.exponent contextEmax else product.exponent) = shown at hknown ⊢
  constructor
  · rintro ⟨text, other, htext, hparse, hvalue⟩
    split_ifs at htext with hoverflow
    cases htext
    cases hknown.symm.trans hparse
    rw [not_and, not_lt] at hoverflow
    exact ⟨hsame.symm.trans hvalue, hoverflow⟩
  · rintro ⟨hvalue, hleading⟩
    rw [if_neg (not_and.mpr fun hne => not_lt.mpr (hleading hne))]
    exact ⟨_, known, rfl, hknown, hsame.trans hvalue⟩

/-- A scaled text keeps the sign. -/
theorem scaledText_sign {precision : Nat} {negative : Bool} {parsed : Decimal} {scale : Nat} :
    scaledText precision negative parsed scale = .error .overflow ∨
      ∃ text known, scaledText precision negative parsed scale = .ok text ∧
        parseDecimal text "normalized" = .ok (negative, known) := by
  unfold scaledText
  dsimp only
  split_ifs
  · exact .inl rfl
  · obtain ⟨known, hknown, -⟩ := parse_formatFixed negative
      (Decimal.times (localContext precision) parsed ⟨scale, 0⟩).coefficient _ "normalized"
    exact .inr ⟨_, known, rfl, hknown⟩
  · obtain ⟨known, hknown, -⟩ := parse_formatFixed negative
      (Decimal.times (localContext precision) parsed ⟨scale, 0⟩).coefficient _ "normalized"
    exact .inr ⟨_, known, rfl, hknown⟩

theorem signedValue_eq (negative : Bool) (d : Decimal) :
    signedValue negative d.coefficient d.exponent = if negative then -d.value else d.value :=
  rfl

theorem signedValue_mul_iff {negative : Bool} {first second : Decimal} {scale : ℚ} :
    signedValue negative first.coefficient first.exponent =
        signedValue negative second.coefficient second.exponent * scale ↔
      first.value = second.value * scale := by
  rw [signedValue_eq, signedValue_eq]
  split_ifs
  · rw [neg_mul, neg_inj]
  · exact Iff.rfl

theorem inRange_signed {context : Decimal.Context} {negative : Bool} {d : Decimal} {scale : ℚ} :
    Decimal.InRange context contextEmax (signedValue negative d.coefficient d.exponent * scale) ↔
      Decimal.InRange context contextEmax (d.value * scale) := by
  unfold Decimal.InRange
  rw [signedValue_eq]
  split_ifs
  · rw [neg_mul, abs_neg]
  · exact Iff.rfl

/-! ### The whole function -/

variable {python} {raw : RawValue} {currency unitRaw : String} {error : AmountError}

theorem rejectType_error (h : rejectType raw = .error error) :
    (∃ message, error = .valueError message) ∧ displayed raw = none := by
  cases raw with
  | boolean flag | float shown =>
    cases h
    exact ⟨⟨_, rfl⟩, rfl⟩
  | null | integer value | decimal value | text value => cases h

theorem checkUnit_error (h : checkUnit python currency unitRaw = .error error) :
    (∃ message, error = .valueError message) ∧ krwScale python currency unitRaw = none := by
  unfold checkUnit at h
  unfold krwScale
  dsimp only at h
  split_ifs at h ⊢ with hkrw hunit
  · cases h
    exact ⟨⟨_, rfl⟩, hunit.2⟩
  · cases h
    exact ⟨⟨_, rfl⟩, rfl⟩

theorem str_error (h : raw.str = .error error) :
    ∃ message, error = .valueError message := by
  cases raw with
  | integer value =>
    dsimp only [RawValue.str] at h
    split_ifs at h
    cases h
    exact ⟨_, rfl⟩
  | null | boolean flag | float shown | decimal value | text value => cases h

theorem decimal_blank (h : text ∈ blankMarkers) :
    decimal (some (cleaned text)) = none := by
  simp only [blankMarkers, List.mem_cons, List.not_mem_nil, or_false] at h
  rcases h with rfl | rfl | rfl | rfl | rfl <;> decide +kernel

theorem lookup_scale_le {unit : String} {scale : Nat}
    (h : krwUnitScales.lookup unit = some scale) : scale ≤ 10 ^ 12 := by
  have hall : ∀ entry ∈ krwUnitScales, entry.2 ≤ 10 ^ 12 := by
    decide
  obtain ⟨front, back, hsplit, -⟩ := List.lookup_eq_some_iff.mp h
  exact hall (unit, scale) (by simp [hsplit])

theorem krwScale_le {scale : Nat} (h : krwScale python currency unitRaw = some scale) :
    scale ≤ 10 ^ 12 := by
  unfold krwScale at h
  split_ifs at h
  rcases Option.or_eq_some_iff.mp h with hfound | ⟨-, hfound⟩
  · exact lookup_scale_le hfound
  · exact lookup_scale_le hfound

theorem normalize_text (htype : rejectType raw = .ok ())
    (hunit : checkUnit python currency unitRaw = .ok ()) (hnull : raw ≠ .null)
    (hstr : raw.str = .ok text) (hblank : strip text ∉ blankMarkers) :
    normalizeFinancialAmount python raw currency unitRaw =
      (normalizeText python raw currency unitRaw (cleaned (strip text))).map fun shown =>
        ⟨strip text, some shown, currency, unitRaw, currency, "currency_amount"⟩ := by
  unfold normalizeFinancialAmount
  simp only [htype, hunit, hstr, Bind.bind, Except.bind, if_neg hblank]
  cases raw with
  | null => exact absurd rfl hnull
  | boolean flag | float shown | integer value | decimal value | text value =>
    generalize normalizeText python _ currency unitRaw (cleaned (strip text)) = written
    cases written <;> rfl

theorem normalizes_iff_text (htype : rejectType raw = .ok ())
    (hunit : checkUnit python currency unitRaw = .ok ()) (hnull : raw ≠ .null)
    (hstr : raw.str = .ok text) (hblank : strip text ∉ blankMarkers) :
    Normalizes python raw currency unitRaw ↔
      (∀ error, normalizeText python raw currency unitRaw (cleaned (strip text)) = .error error →
        ∃ message, error = .valueError message) ∧
      ∀ shown, normalizeText python raw currency unitRaw (cleaned (strip text)) = .ok shown →
        ∃ parsed value, parseDecimal shown "normalized" = .ok parsed ∧ displayed raw = some value ∧
          signedValue parsed.1 parsed.2.coefficient parsed.2.exponent =
            value * unitScale python currency unitRaw := by
  have hnormal := normalize_text htype hunit hnull hstr hblank
  constructor
  · intro hnormalizes
    constructor
    · intro error herror
      apply hnormalizes.refused
      rw [hnormal, herror]
      rfl
    · intro shown hshown
      obtain ⟨hnone, -⟩ | ⟨other, parsed, value, hother, hrest⟩ :=
        hnormalizes.exact _ (by rw [hnormal, hshown]; rfl)
      · cases hnone
      · cases hother
        exact ⟨parsed, value, hrest⟩
  · rintro ⟨hrefused, hexact⟩
    constructor
    · intro error herror
      rw [hnormal] at herror
      cases hwritten : normalizeText python raw currency unitRaw (cleaned (strip text)) with
      | error other =>
        rw [hwritten] at herror
        cases herror
        exact hrefused _ hwritten
      | ok shown =>
        rw [hwritten] at herror
        cases herror
    · intro amount hamount
      rw [hnormal] at hamount
      cases hwritten : normalizeText python raw currency unitRaw (cleaned (strip text)) with
      | error other =>
        rw [hwritten] at hamount
        cases hamount
      | ok shown =>
        rw [hwritten] at hamount
        cases hamount
        obtain ⟨parsed, value, hrest⟩ := hexact shown hwritten
        exact .inr ⟨shown, parsed, value, rfl, hrest⟩

theorem normalizes_finite (htype : rejectType raw = .ok ())
    (hunit : checkUnit python currency unitRaw = .ok ()) (hnull : raw ≠ .null)
    (hstr : raw.str = .ok text) (hblank : strip text ∉ blankMarkers)
    (hread : readDecimal (cleaned (strip text)) =
      some (.finite negative coefficient exponent exact)) :
    Normalizes python raw currency unitRaw ↔ Fits python raw currency unitRaw := by
  have hshown : displayed raw = some (signedValue negative coefficient exponent) := by
    rw [displayed_eq hstr htype hnull, readDecimal_number, hread]
    rfl
  have hwritten : normalizeText python raw currency unitRaw (cleaned (strip text)) =
      normalizedText python currency unitRaw (cleaned (strip text)) negative
        ⟨coefficient, exponent⟩ := by
    unfold normalizeText
    rw [hread]
  rw [normalizes_iff_text htype hunit hnull hstr hblank, hwritten, hshown]
  unfold normalizedText unitScale
  cases hscale : krwScale python currency unitRaw with
  | none =>
    apply iff_of_true
    · refine ⟨by rintro error ⟨⟩, ?_⟩
      rintro shown ⟨⟩
      obtain ⟨known, hknown, hvalue⟩ :=
        parse_formatFixed negative coefficient exponent "normalized"
      refine ⟨_, _, hknown, rfl, ?_⟩
      apply (@signedValue_mul_iff negative known ⟨coefficient, exponent⟩ _).mpr
      rw [hvalue, Option.getD_none, Nat.cast_one, mul_one]
    · intro scale other value hsome
      rw [hscale] at hsome
      cases hsome
  | some scale =>
    have hdigits : coefficient * scale < 10 ^ precisionOf (cleaned (strip text)) :=
      calc coefficient * scale
          ≤ coefficient * 10 ^ 20 := Nat.mul_le_mul_left _ ((krwScale_le hscale).trans (by norm_num))
        _ < 10 ^ (cleaned (strip text)).toList.length * 10 ^ 20 :=
            Nat.mul_lt_mul_of_pos_right (readDecimal_coefficient hread) (by norm_num)
        _ = 10 ^ ((cleaned (strip text)).toList.length + 20) := (Nat.pow_add 10 _ 20).symm
        _ ≤ 10 ^ precisionOf (cleaned (strip text)) :=
            Nat.pow_le_pow_right (by norm_num) (le_max_right _ _)
    have hiff := @scaledText_exact_iff _ negative ⟨coefficient, exponent⟩ scale hdigits
      (lt_of_lt_of_le (by decide) (le_max_left 100 _))
    trans Decimal.InRange (localContext (precisionOf (cleaned (strip text)))) contextEmax
      (signedValue negative coefficient exponent * (scale : ℚ))
    · rw [@inRange_signed _ negative ⟨coefficient, exponent⟩, ← hiff]
      constructor
      · rintro ⟨hrefused, hexact⟩
        obtain hoverflow | ⟨shown, known, hok, hknown⟩ := @scaledText_sign
          (precisionOf (cleaned (strip text))) negative ⟨coefficient, exponent⟩ scale
        · obtain ⟨message, hmessage⟩ := hrefused _ hoverflow
          cases hmessage
        · obtain ⟨parsed, value, hparsed, hvalue, hsame⟩ := hexact shown hok
          rw [hknown] at hparsed
          cases hparsed
          cases hvalue
          exact ⟨shown, known, hok, hknown,
            (@signedValue_mul_iff negative known ⟨coefficient, exponent⟩ _).mp hsame⟩
      · rintro ⟨shown, known, hok, hknown, hvalue⟩
        dsimp only
        rw [hok]
        refine ⟨by rintro error ⟨⟩, ?_⟩
        rintro other ⟨⟩
        exact ⟨_, _, hknown, rfl,
          (@signedValue_mul_iff negative known ⟨coefficient, exponent⟩ _).mpr hvalue⟩
    · constructor
      · intro hrange other again value hother hagain hvalue
        cases hscale.symm.trans hother
        cases hstr.symm.trans hagain
        cases hshown.symm.trans hvalue
        exact hrange
      · intro hfits
        exact hfits scale text _ hscale hstr hshown

theorem Normalizes.of_error
    (h : normalizeFinancialAmount python raw currency unitRaw = .error error)
    (hmessage : ∃ message, error = .valueError message) :
    Normalizes python raw currency unitRaw := by
  constructor
  · intro other hother
    cases h.symm.trans hother
    exact hmessage
  · intro amount hamount
    cases h.symm.trans hamount

theorem Normalizes.of_blank {amount : Amount}
    (h : normalizeFinancialAmount python raw currency unitRaw = .ok amount)
    (hnone : amount.normalized = none) (hblank : IsBlank raw) :
    Normalizes python raw currency unitRaw := by
  constructor
  · intro error herror
    cases h.symm.trans herror
  · intro other hother
    cases h.symm.trans hother
    exact .inl ⟨hnone, hblank⟩

theorem Fits.of_none (h : displayed raw = none) : Fits python raw currency unitRaw := by
  intro scale text value _ _ hvalue
  cases h.symm.trans hvalue

theorem normalizes_text (htype : rejectType raw = .ok ())
    (hunit : checkUnit python currency unitRaw = .ok ()) (hnull : raw ≠ .null)
    (hstr : raw.str = .ok text) :
    Normalizes python raw currency unitRaw ↔ Fits python raw currency unitRaw := by
  have hshown := displayed_eq hstr htype hnull
  by_cases hblank : strip text ∈ blankMarkers
  · have hresult : normalizeFinancialAmount python raw currency unitRaw =
        .ok ⟨strip text, none, currency, unitRaw, currency, "currency_amount"⟩ := by
      unfold normalizeFinancialAmount
      simp only [htype, hunit, hstr, Bind.bind, Except.bind, if_pos hblank]
    apply iff_of_true
    · exact .of_blank hresult rfl (.inr ⟨text, hstr, hblank⟩)
    · exact .of_none (hshown.trans (decimal_blank hblank))
  · have hunread : ∀ message, normalizeText python raw currency unitRaw (cleaned (strip text)) =
        .error (.valueError message) → displayed raw = none →
        (Normalizes python raw currency unitRaw ↔ Fits python raw currency unitRaw) := by
      intro message hmessage hnone
      refine iff_of_true (.of_error ?_ ⟨message, rfl⟩) (.of_none hnone)
      rw [normalize_text htype hunit hnull hstr hblank, hmessage]
      rfl
    rw [readDecimal_number] at hshown
    cases hread : readDecimal (cleaned (strip text)) with
    | none =>
      rw [hread] at hshown
      apply hunread _ _ hshown
      · exact "Failed to parse financial amount: " ++ raw.repr python
      · unfold normalizeText
        rw [hread]
    | some value =>
      cases value with
      | finite negative coefficient exponent exact =>
        exact normalizes_finite htype hunit hnull hstr hblank hread
      | infinity negative | nan negative signaling payload =>
        rw [hread] at hshown
        apply hunread _ _ hshown
        · exact "Financial amount cannot be NaN or Infinite: " ++ raw.repr python
        · unfold normalizeText
          rw [hread]

variable (python raw currency unitRaw)

end ProofOps.Adapters.Dart
