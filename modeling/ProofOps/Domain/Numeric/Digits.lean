import ProofOps.Domain.Numeric.Literals

/-!
# Digits of displayed numbers

What a run of digits stands for, the characters that a numeral consumes, and the decimal text of a
coefficient with an exponent, which reads back as the same number (`decimal_fixedPoint`).  A bare run
of digits is read and displayed as the number it writes.
-/

namespace ProofOps.Domain.Numeric

open Foundation Foundation.PyText

theorem digitsValue_append (first second : List Char) :
    digitsValue (first ++ second) = digitsValue first * 10 ^ second.length + digitsValue second := by
  have h := @Nat.ofDigitChars_eq_ofDigitChars_zero second (digitsValue first)
  have happend := @Nat.ofDigitChars_append 10 first second 0
  rw [Nat.mul_comm]
  exact happend.trans h

theorem digitsValue_zeros_append (count : Nat) (digits : List Char) :
    digitsValue (List.replicate count '0' ++ digits) = digitsValue digits := by
  have hzeros : digitsValue (List.replicate count '0') = 0 := by
    have h := @Nat.ofDigitChars_replicate_zero 10 0 count
    exact h.trans (Nat.mul_zero _)
  rw [digitsValue_append, hzeros, Nat.zero_mul, Nat.zero_add]

theorem digitsValue_append_zeros (digits : List Char) (count : Nat) :
    digitsValue (digits ++ List.replicate count '0') = digitsValue digits * 10 ^ count := by
  have hzeros := digitsValue_zeros_append count []
  rw [List.append_nil] at hzeros
  rw [digitsValue_append, hzeros, List.length_replicate]
  rfl

theorem digitsValue_toString (n : Nat) : digitsValue (toString n).toList = n := by
  show digitsValue n.repr.toList = n
  rw [Nat.toList_repr]
  exact Nat.ofDigitChars_ten_toDigits

variable {c : Char}

theorem isDigit_iff : isDigit c = true ↔ 48 ≤ c.toNat ∧ c.toNat ≤ 57 := by
  rw [isDigit, Bool.and_eq_true, decide_eq_true_eq, decide_eq_true_eq]

theorem isDigit_toString (n : Nat) : ∀ c ∈ (toString n).toList, isDigit c = true := by
  intro c hc
  replace hc : c ∈ n.repr.toList := hc
  rw [Nat.toList_repr] at hc
  have hdigit := Nat.isDigit_of_mem_toDigits (by decide) (by decide) hc
  rw [Char.isDigit, Bool.and_eq_true, decide_eq_true_eq, decide_eq_true_eq] at hdigit
  exact isDigit_iff.mpr hdigit

theorem digitsValue_lt {digits : List Char} (h : ∀ c ∈ digits, isDigit c = true) :
    digitsValue digits < 10 ^ digits.length := by
  induction digits using List.reverseRecOn with
  | nil => exact Nat.one_pos
  | append_singleton digits c ih =>
    have hfront := ih fun other hother => h other (List.mem_append_left _ hother)
    have hlast := isDigit_iff.mp (h c (List.mem_append_right _ (List.mem_singleton_self c)))
    have hvalue : digitsValue [c] = c.toNat - 48 := Nat.zero_add _
    rw [digitsValue_append, List.length_append, List.length_singleton, hvalue, Nat.pow_one,
      Nat.pow_succ]
    omega

theorem matchGroups_length (chars : List Char) :
    (matchGroups chars).1.length + (matchGroups chars).2.length ≤ chars.length := by
  induction chars using matchGroups.induct with
  | case1 a b c rest hdigits digits tail hgroups ih =>
    rw [matchGroups, if_pos hdigits]
    simp only [List.length_cons]
    omega
  | case2 a b c rest hdigits =>
    rw [matchGroups, if_neg hdigits]
    simp
  | case3 rest hgroups =>
    rw [matchGroups]
    · simp
    · exact hgroups

/-- Groups are of digits. -/
theorem matchGroups_digits (chars : List Char) :
    ∀ c ∈ (matchGroups chars).1, isDigit c = true := by
  induction chars using matchGroups.induct with
  | case1 a b c rest hdigits digits tail hgroups ih =>
    rw [matchGroups, if_pos hdigits]
    rw [Bool.and_eq_true, Bool.and_eq_true] at hdigits
    intro d hd
    simp only [List.mem_cons] at hd
    rcases hd with rfl | rfl | rfl | hrest
    · exact hdigits.1.1
    · exact hdigits.1.2
    · exact hdigits.2
    · exact ih d hrest
  | case2 a b c rest hdigits =>
    rw [matchGroups, if_neg hdigits]
    rintro d ⟨⟩
  | case3 rest hgroups =>
    rw [matchGroups]
    · rintro d ⟨⟩
    · exact hgroups

variable {chars : List Char}

theorem mem_takeWhile_digit (h : c ∈ chars.takeWhile isDigit) :
    isDigit c = true :=
  List.mem_takeWhile_imp h

theorem length_takeWhile_dropWhile (chars : List Char) :
    (chars.takeWhile isDigit).length + (chars.dropWhile isDigit).length = chars.length := by
  rw [← List.length_append, List.takeWhile_append_dropWhile]

variable {whole : List Char}

theorem matchWhole_some {rest : List Char} (h : matchWhole chars = some (whole, rest)) :
    whole.length + rest.length ≤ chars.length ∧ ∀ c ∈ whole, isDigit c = true := by
  unfold matchWhole at h
  have hlength := length_takeWhile_dropWhile chars
  dsimp only at h
  split_ifs at h
  · cases h
    have hgroups := matchGroups_length (chars.dropWhile isDigit)
    constructor
    · rw [List.length_append]
      omega
    · intro c hc
      rcases List.mem_append.mp hc with hrun | hgroup
      · exact mem_takeWhile_digit hrun
      · exact matchGroups_digits _ c hgroup
  · cases h
    exact ⟨hlength.le, fun c hc => mem_takeWhile_digit hc⟩

theorem matchFraction_spec (chars : List Char) :
    (matchFraction chars).1.length + (matchFraction chars).2.length ≤ chars.length ∧
      ∀ c ∈ (matchFraction chars).1, isDigit c = true := by
  unfold matchFraction
  split
  · rename_i rest
    have hlength := length_takeWhile_dropWhile rest
    split_ifs
    · exact ⟨(Nat.zero_add _).le, by rintro c ⟨⟩⟩
    · refine ⟨?_, fun c hc => mem_takeWhile_digit hc⟩
      show (rest.takeWhile isDigit).length + (rest.dropWhile isDigit).length ≤ rest.length + 1
      omega
  · exact ⟨(Nat.zero_add _).le, by rintro c ⟨⟩⟩

theorem matchSign_length (chars : List Char) : (matchSign chars).2.length ≤ chars.length := by
  unfold matchSign
  split
  · exact Nat.le_succ _
  · exact Nat.le_succ _
  · exact Nat.le_refl _

theorem matchNumeral_some {rest : List Char} {numeral : Numeral}
    (h : matchNumeral chars = some (numeral, rest)) :
    numeral.whole.length + numeral.fraction.length + rest.length ≤ chars.length ∧
      ∀ c ∈ numeral.whole ++ numeral.fraction, isDigit c = true := by
  unfold matchNumeral at h
  have hsign := matchSign_length chars
  dsimp only at h
  cases hwhole : matchWhole (matchSign chars).2 with
  | none =>
    rw [hwhole] at h
    cases h
  | some found =>
    obtain ⟨whole, tail⟩ := found
    rw [hwhole] at h
    obtain ⟨hlength, hdigits⟩ := matchWhole_some hwhole
    obtain ⟨hfraction, hfractionDigits⟩ := matchFraction_spec tail
    cases h
    constructor
    · show whole.length + (matchFraction tail).1.length + (matchFraction tail).2.length ≤ _
      omega
    · intro c hc
      rcases List.mem_append.mp hc with hc | hc
      · exact hdigits c hc
      · exact hfractionDigits c hc

/-! ### Decimal texts -/

def Plain (c : Char) : Prop :=
  isDigit c = true ∨ c = '-' ∨ c = '.'

theorem isSpace_of_plain (h : Plain c) : isSpace c = false := by
  rcases h with hdigit | rfl | rfl
  · obtain ⟨hlow, hhigh⟩ := isDigit_iff.mp hdigit
    simp only [isSpace, Bool.or_eq_false_iff, Bool.and_eq_false_iff, decide_eq_false_iff_not,
      beq_eq_false_iff_ne]
    omega
  · decide
  · decide

theorem asciiDigit_of_plain (h : Plain c) : asciiDigit c = c := by
  rcases h with hdigit | rfl | rfl
  · obtain ⟨hlow, hhigh⟩ := isDigit_iff.mp hdigit
    have hfind : (digitZeros.find? fun base => base ≤ c.toNat && c.toNat < base + 10) =
        some 0x30 := by
      apply List.find?_cons_of_pos
      rw [Bool.and_eq_true, decide_eq_true_eq, decide_eq_true_eq]
      omega
    unfold asciiDigit
    rw [hfind]
    have hcode : 48 + (c.toNat - 0x30) = c.toNat := by omega
    show Char.ofNat (48 + (c.toNat - 0x30)) = c
    rw [hcode, Char.ofNat_toNat]
  · decide
  · decide

theorem ne_underscore_of_plain (h : Plain c) : c ≠ '_' := by
  rintro rfl
  rcases h with h | h | h <;> exact absurd h (by decide)

theorem kept_chars (h : ∀ c ∈ chars, isSpace c = false ∧ c ≠ '_' ∧ asciiDigit c = c) :
    ((stripChars chars).filter (· != '_')).map asciiDigit = chars := by
  rw [stripChars_of_forall fun c hc => (h c hc).1]
  have hfilter : chars.filter (· != '_') = chars := by
    rw [List.filter_eq_self]
    intro c hc
    exact bne_iff_ne.mpr (h c hc).2.1
  rw [hfilter]
  calc chars.map asciiDigit = chars.map id :=
        List.map_congr_left fun c hc => (h c hc).2.2
    _ = chars := List.map_id chars

theorem plain_chars (h : ∀ c ∈ chars, Plain c) :
    ((stripChars chars).filter (· != '_')).map asciiDigit = chars := by
  apply kept_chars
  intro c hc
  exact ⟨isSpace_of_plain (h c hc), ne_underscore_of_plain (h c hc), asciiDigit_of_plain (h c hc)⟩

theorem matchCoefficient_point {fraction : List Char}
    (hwhole : ∀ c ∈ whole, isDigit c = true) (hfraction : ∀ c ∈ fraction, isDigit c = true)
    (hne : whole ≠ []) :
    matchCoefficient (whole ++ '.' :: fraction) = some (whole, fraction, []) := by
  have htake : (whole ++ '.' :: fraction).takeWhile isDigit = whole := by
    rw [List.takeWhile_append_of_pos hwhole, List.takeWhile_cons_of_neg (by decide),
      List.append_nil]
  have hdrop : (whole ++ '.' :: fraction).dropWhile isDigit = '.' :: fraction := by
    rw [List.dropWhile_append_of_pos hwhole, List.dropWhile_cons_of_neg (by decide)]
  unfold matchCoefficient
  simp only [htake, hdrop, List.takeWhile_eq_self_iff.mpr hfraction,
    List.dropWhile_eq_nil_iff.mpr hfraction]
  rw [if_neg]
  rw [List.append_eq_nil_iff, not_and]
  exact fun hnil => absurd hnil hne

theorem matchCoefficient_whole (hwhole : ∀ c ∈ whole, isDigit c = true)
    (hne : whole ≠ []) : matchCoefficient whole = some (whole, [], []) := by
  unfold matchCoefficient
  simp only [List.takeWhile_eq_self_iff.mpr hwhole, List.dropWhile_eq_nil_iff.mpr hwhole]
  rw [if_neg]
  rwa [List.append_nil]

def adjusted (coefficient : Nat) (exponent : Int) : Int :=
  if coefficient = 0 then exponent else exponent + (toString coefficient).length - 1

def Exact (coefficient : Nat) (exponent : Int) : Prop :=
  decimalEtiny ≤ exponent ∧ adjusted coefficient exponent ≤ decimalEmax

instance (coefficient : Nat) (exponent : Int) : Decidable (Exact coefficient exponent) :=
  inferInstanceAs (Decidable (_ ∧ _))

variable (negative : Bool)

def plainText (whole : List Char) : List Char → String
  | [] => String.ofList ((if negative then ['-'] else []) ++ whole)
  | c :: fraction =>
    String.ofList ((if negative then ['-'] else []) ++ whole ++ '.' :: c :: fraction)

/-- The value of a decimal, with its sign. -/
def signedValue (coefficient : Nat) (exponent : Int) : ℚ :=
  if negative then -(coefficient * (10 : ℚ) ^ exponent) else coefficient * (10 : ℚ) ^ exponent

theorem matchSign_of_digit {negative : Bool} {chars : List Char} (hne : chars ≠ [])
    (hdigit : ∀ c ∈ chars.head?, isDigit c = true) :
    matchSign ((if negative then ['-'] else []) ++ chars) = (negative, chars) := by
  cases negative with
  | true => rfl
  | false =>
    cases chars with
    | nil => exact absurd rfl hne
    | cons c rest =>
      have hc : isDigit c = true := hdigit c rfl
      unfold matchSign
      split
      · rename_i heq
        cases heq
        exact absurd hc (by decide)
      · rename_i heq
        cases heq
        exact absurd hc (by decide)
      · rfl

theorem plain_signed {negative : Bool} (h : ∀ c ∈ chars, Plain c) :
    ∀ c ∈ (if negative then ['-'] else []) ++ chars, Plain c := by
  intro c hc
  rcases List.mem_append.mp hc with hsign | hrest
  · cases negative with
    | true => exact Or.inr (Or.inl (List.mem_singleton.mp hsign))
    | false => cases hsign
  · exact h c hrest

theorem decimal_plainText_eq {negative : Bool} {whole fraction : List Char}
    (hwhole : ∀ c ∈ whole, isDigit c = true) (hfraction : ∀ c ∈ fraction, isDigit c = true)
    (hne : whole ≠ []) :
    decimal (some (plainText negative whole fraction)) =
      if Exact (digitsValue (whole ++ fraction)) (-(fraction.length : Int)) then
        some (signedValue negative (digitsValue (whole ++ fraction)) (-(fraction.length : Int)))
      else none := by
  have hhead : ∀ rest : List Char, ∀ c ∈ (whole ++ rest).head?, isDigit c = true := by
    intro rest c hc
    rw [List.head?_append_of_ne_nil _ hne] at hc
    exact hwhole c (List.mem_of_mem_head? hc)
  -- Either way the sign and both runs of digits are found again.
  have hread : ∃ rest, (plainText negative whole fraction).toList =
        (if negative then ['-'] else []) ++ (whole ++ rest) ∧
      (∀ c ∈ whole ++ rest, Plain c) ∧
      matchCoefficient (whole ++ rest) = some (whole, fraction, []) := by
    cases fraction with
    | nil =>
      refine ⟨[], ?_, ?_, ?_⟩
      · rw [plainText, String.toList_ofList, List.append_nil]
      · rw [List.append_nil]
        exact fun c hc => Or.inl (hwhole c hc)
      · rw [List.append_nil]
        exact matchCoefficient_whole hwhole hne
    | cons c fraction =>
      refine ⟨'.' :: c :: fraction, ?_, ?_, ?_⟩
      · rw [plainText, String.toList_ofList, List.append_assoc]
      · intro d hd
        rcases List.mem_append.mp hd with hd | hd
        · exact Or.inl (hwhole d hd)
        · rcases List.mem_cons.mp hd with rfl | hd
          · exact Or.inr (Or.inr rfl)
          · exact Or.inl (hfraction d hd)
      · exact matchCoefficient_point hwhole hfraction hne
  obtain ⟨rest, htext, hplain, hcoefficient⟩ := hread
  have hsign := @matchSign_of_digit negative (whole ++ rest)
    (List.append_ne_nil_of_left_ne_nil hne rest) (hhead rest)
  unfold decimal
  simp only [Option.bind_eq_bind, Option.bind_some, htext, plain_chars (plain_signed hplain), hsign,
    hcoefficient]
  show (some (0 : Int)).bind _ = _
  rw [Option.bind_some]
  simp only [zero_sub]
  cases negative <;> rfl

/-- A decimal in fixed-point form is a plain text of its digits. -/
theorem fixedPoint_eq (coefficient places : Nat) :
    ∃ whole fraction, fixedPoint negative coefficient (-(places : Int)) =
        plainText negative whole fraction ∧
      fraction.length = places ∧ whole ≠ [] ∧ digitsValue (whole ++ fraction) = coefficient ∧
      (∀ c ∈ whole, isDigit c = true) ∧ ∀ c ∈ fraction, isDigit c = true := by
  have hdigits := isDigit_toString coefficient
  have hvalue := digitsValue_toString coefficient
  have hne : (toString coefficient).toList ≠ [] := by
    show coefficient.repr.toList ≠ []
    rw [Nat.toList_repr]
    exact Nat.toDigits_ne_nil
  cases places with
  | zero =>
    refine ⟨(toString coefficient).toList, [], ?_, rfl, hne, ?_, hdigits, by rintro c ⟨⟩⟩
    · show String.ofList (if negative = true then
          '-' :: ((toString coefficient).toList ++ List.replicate 0 '0')
        else (toString coefficient).toList ++ List.replicate 0 '0') = _
      rw [List.replicate_zero, List.append_nil, plainText]
      cases negative <;> rfl
    · rw [List.append_nil]
      exact hvalue
  | succ predecessor =>
    have hpadded : ∀ c ∈ List.replicate (predecessor + 1 + 1 - (toString coefficient).toList.length)
        '0' ++ (toString coefficient).toList, isDigit c = true := by
      intro c hc
      rcases List.mem_append.mp hc with hzero | hdigit
      · rw [List.eq_of_mem_replicate hzero]
        decide
      · exact hdigits c hdigit
    have hpaddedValue := digitsValue_zeros_append
      (predecessor + 1 + 1 - (toString coefficient).toList.length) (toString coefficient).toList
    have hlength : predecessor + 1 + 1 ≤
        (List.replicate (predecessor + 1 + 1 - (toString coefficient).toList.length) '0' ++
          (toString coefficient).toList).length := by
      rw [List.length_append, List.length_replicate]
      omega
    have htext : fixedPoint negative coefficient (-((predecessor + 1 : Nat) : Int)) =
        let padded := List.replicate (predecessor + 1 + 1 - (toString coefficient).toList.length)
          '0' ++ (toString coefficient).toList
        let body := padded.take (padded.length - (predecessor + 1)) ++
          '.' :: padded.drop (padded.length - (predecessor + 1))
        String.ofList (if negative then '-' :: body else body) := rfl
    rw [htext]
    rw [hvalue] at hpaddedValue
    generalize List.replicate (predecessor + 1 + 1 - (toString coefficient).toList.length) '0' ++
      (toString coefficient).toList = padded at hpadded hpaddedValue hlength
    have hplaces : (padded.drop (padded.length - (predecessor + 1))).length = predecessor + 1 := by
      rw [List.length_drop]
      omega
    refine ⟨padded.take (padded.length - (predecessor + 1)),
      padded.drop (padded.length - (predecessor + 1)), ?_, hplaces, ?_, ?_, ?_, ?_⟩
    · cases hfraction : padded.drop (padded.length - (predecessor + 1)) with
      | nil =>
        rw [hfraction] at hplaces
        cases hplaces
      | cons c fraction =>
        simp only [hfraction, plainText]
        cases negative <;> rfl
    · intro hnil
      have htake := congrArg List.length hnil
      rw [List.length_take, List.length_nil] at htake
      omega
    · rw [List.take_append_drop]
      exact hpaddedValue
    · exact fun c hc => hpadded c (List.mem_of_mem_take hc)
    · exact fun c hc => hpadded c (List.mem_of_mem_drop hc)

theorem decimal_fixedPoint_eq (coefficient places : Nat) :
    decimal (some (fixedPoint negative coefficient (-(places : Int)))) =
      if Exact coefficient (-(places : Int)) then
        some (signedValue negative coefficient (-(places : Int)))
      else none := by
  obtain ⟨whole, fraction, htext, rfl, hne, hvalue, hwhole, hfraction⟩ :=
    fixedPoint_eq negative coefficient places
  rw [htext, decimal_plainText_eq hwhole hfraction hne, hvalue]

theorem decimal_fixedPoint {negative : Bool} {coefficient places : Nat}
    (hexact : Exact coefficient (-(places : Int))) :
    decimal (some (fixedPoint negative coefficient (-(places : Int)))) =
      some (signedValue negative coefficient (-(places : Int))) := by
  rw [decimal_fixedPoint_eq, if_pos hexact]

theorem fixedPoint_zeros (coefficient zeros : Nat) :
    ∃ whole, fixedPoint negative coefficient (zeros : Int) = plainText negative whole [] ∧
      whole ≠ [] ∧ digitsValue whole = coefficient * 10 ^ zeros ∧
      ∀ c ∈ whole, isDigit c = true := by
  refine ⟨(toString coefficient).toList ++ List.replicate zeros '0', ?_, ?_, ?_, ?_⟩
  · show String.ofList (if negative = true then
        '-' :: ((toString coefficient).toList ++ List.replicate zeros '0')
      else (toString coefficient).toList ++ List.replicate zeros '0') = _
    cases negative <;> rfl
  · apply List.append_ne_nil_of_left_ne_nil
    show coefficient.repr.toList ≠ []
    rw [Nat.toList_repr]
    exact Nat.toDigits_ne_nil
  · rw [digitsValue_append_zeros, digitsValue_toString]
  · intro c hc
    rcases List.mem_append.mp hc with hdigit | hzero
    · exact isDigit_toString coefficient c hdigit
    · rw [List.eq_of_mem_replicate hzero]
      decide

theorem decimal_fixedPoint_zeros (coefficient zeros : Nat) :
    decimal (some (fixedPoint negative coefficient (zeros : Int))) =
      if Exact (coefficient * 10 ^ zeros) 0 then
        some (signedValue negative (coefficient * 10 ^ zeros) 0)
      else none := by
  obtain ⟨whole, htext, hne, hvalue, hdigits⟩ := fixedPoint_zeros negative coefficient zeros
  have hread := @decimal_plainText_eq negative whole [] hdigits (by rintro c ⟨⟩) hne
  rw [List.append_nil, hvalue] at hread
  rw [htext]
  exact hread

/-! ### A run of digits -/

theorem matchNumber_digits (hdigits : ∀ c ∈ whole, isDigit c = true) (hlong : 3 < whole.length) :
    matchNumber (String.ofList (whole ++ [' ', 't'])) =
      some ({ negative := false, whole, fraction := [] }, some "t") := by
  obtain ⟨first, rest, rfl⟩ := List.exists_cons_of_length_pos (Nat.zero_lt_of_lt hlong)
  have hfirst := hdigits first List.mem_cons_self
  have hspace : isSpace first = false := isSpace_of_plain (Or.inl hfirst)
  have hstrip : stripChars (first :: rest ++ [' ', 't']) = first :: rest ++ [' ', 't'] := by
    unfold stripChars
    rw [List.cons_append, List.dropWhile_cons_of_neg (by simp [hspace])]
    rw [show first :: (rest ++ [' ', 't']) = (first :: (rest ++ [' '])) ++ ['t'] by simp]
    exact List.rdropWhile_concat_neg _ _ _ (by decide)
  have htake : (first :: rest ++ [' ', 't']).takeWhile isDigit = first :: rest := by
    rw [List.takeWhile_append_of_pos hdigits, List.takeWhile_cons_of_neg (by decide), List.append_nil]
  have hdrop : (first :: rest ++ [' ', 't']).dropWhile isDigit = [' ', 't'] := by
    rw [List.dropWhile_append_of_pos hdigits, List.dropWhile_cons_of_neg (by decide)]
  have hsign : matchSign (first :: rest ++ [' ', 't']) = (false, first :: rest ++ [' ', 't']) :=
    @matchSign_of_digit false _ (by simp) (by simpa using hfirst)
  have hnumeral : matchNumeral (first :: rest ++ [' ', 't']) =
      some ({ negative := false, whole := first :: rest, fraction := [] }, [' ', 't']) := by
    unfold matchNumeral
    rw [hsign]
    dsimp only
    unfold matchWhole
    rw [htake, hdrop]
    rw [if_neg (List.cons_ne_nil _ _), if_neg (not_le.mpr hlong)]
    rfl
  unfold matchNumber
  rw [String.toList_ofList, hstrip, hnumeral]
  rfl

theorem display_digits (hdigits : ∀ c ∈ whole, isDigit c = true) (hlong : 3 < whole.length) :
    ∃ shown, display (String.ofList (whole ++ [' ', 't'])) 1 = some shown ∧
      shown.value = digitsValue whole := by
  unfold display
  rw [matchNumber_digits hdigits hlong]
  simp [Numeral.value]

theorem digitsValue_power (zeros : Nat) :
    digitsValue ('1' :: List.replicate zeros '0') = 10 ^ zeros :=
  (digitsValue_append_zeros ['1'] zeros).trans (Nat.one_mul _)

theorem decimal_digits (hdigits : ∀ c ∈ whole, isDigit c = true) (hne : whole ≠ [])
    (hexact : Exact (digitsValue whole) 0) :
    decimal (some (String.ofList whole)) = some (digitsValue whole : ℚ) := by
  have hread := @decimal_plainText_eq false whole [] hdigits (by rintro c ⟨⟩) hne
  rw [List.append_nil, List.length_nil, Nat.cast_zero, neg_zero, if_pos hexact] at hread
  simpa [signedValue, plainText] using hread

end ProofOps.Domain.Numeric
