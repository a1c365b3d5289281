import ProofOps.Domain.Numeric.Digits
import ProofOps.Domain.Reconciliation.SearchFlip

/-!
# The words of a packet

Each pattern ends in `$`, which a match passes over one final line break.  So what a check accepts
is a word of the grammar with at most a line break after it, and an accepted packet or policy is in
the grammar if and only if none of its words ends in a line break.  A refusal is the contract error
but for one: only a `ValueError` of `json.loads` is caught, so the `RecursionError` of a text that is
nested too deeply goes through.
-/

namespace ProofOps.Domain.Reconciliation

open Foundation Foundation.Checked Numeric

/-! ### The grammar -/

/-- The forms of checked texts. -/
inductive Form where
  | corp
  | hash
  | ratio
  | decimal
  | date
  | period
  deriving DecidableEq

def DateWord (chars : List Char) : Prop :=
  ∃ year month day : List Char, chars = year ++ '-' :: (month ++ '-' :: day) ∧
    (year.length, month.length, day.length) = (4, 2, 2) ∧ ∀ c ∈ year ++ month ++ day, isDigit c = true

def DecimalWord (negative : Bool) (chars : List Char) : Prop :=
  ∃ whole fraction : List Char, chars = (plainText negative whole fraction).toList ∧ whole ≠ [] ∧
    ∀ c ∈ whole ++ fraction, isDigit c = true

def Form.Word : Form → List Char → Prop
  | .corp, chars => chars.length = 8 ∧ ∀ c ∈ chars, isDigit c = true
  | .hash, chars => chars.length = 64 ∧ ∀ c ∈ chars, isHex c = true
  | .ratio, chars => DecimalWord false chars
  | .decimal, chars => ∃ negative, DecimalWord negative chars
  | .date, chars => DateWord chars
  | .period, chars => ∃ start finish, DateWord start ∧ DateWord finish ∧ chars = start ++ '/' :: finish

def Form.Accepts : Form → String → Prop
  | .corp, value => isCode isDigit 8 value = true
  | .hash, value => isCode isHex 64 value = true
  | .ratio, value => isRatio value = true
  | .decimal, value => ∃ name parsed, parseDecimal value name = .ok parsed
  | .date, value => ∃ name parsed, parseDate value name = .ok parsed
  | .period, value => ∃ name parsed, parsePeriod value name = .ok parsed

theorem digit_ne_break {c : Char} (h : isDigit c = true) : c ≠ '\n' := by
  rintro rfl
  exact absurd h (by decide)

variable {chars : List Char}

/-- A date has no line break. -/
theorem DateWord.no_break (h : DateWord chars) : '\n' ∉ chars := by
  obtain ⟨year, month, day, rfl, -, hdigits⟩ := h
  have hbreak : '\n' ∉ year ++ month ++ day := fun hmem => digit_ne_break (hdigits _ hmem) rfl
  simp only [List.mem_append, List.mem_cons, not_or] at hbreak ⊢
  exact ⟨hbreak.1.1, by decide, hbreak.1.2, by decide, hbreak.2⟩

theorem DecimalWord.no_break {negative : Bool} (h : DecimalWord negative chars) : '\n' ∉ chars := by
  obtain ⟨whole, fraction, rfl, -, hdigits⟩ := h
  have hbreak : '\n' ∉ whole ++ fraction := fun hmem => digit_ne_break (hdigits _ hmem) rfl
  have hsign : '\n' ∉ (if negative then ['-'] else []) := by
    cases negative <;> decide
  cases fraction with
  | nil =>
    rw [List.append_nil] at hbreak
    rw [plainText, String.toList_ofList, List.mem_append, not_or]
    exact ⟨hsign, hbreak⟩
  | cons c fraction =>
    rw [List.mem_append, not_or] at hbreak
    rw [plainText, String.toList_ofList, List.mem_append, List.mem_append, not_or, not_or,
      List.mem_cons, not_or]
    exact ⟨⟨hsign, hbreak.1⟩, by decide, hbreak.2⟩

/-- No word has a line break. -/
theorem Form.Word.no_break {form : Form} (h : form.Word chars) : '\n' ∉ chars := by
  cases form with
  | corp => exact fun hmem => digit_ne_break (h.2 _ hmem) rfl
  | hash => exact fun hmem => absurd (h.2 _ hmem) (by decide)
  | ratio => exact DecimalWord.no_break h
  | decimal => exact h.choose_spec.no_break
  | date => exact DateWord.no_break h
  | period =>
    obtain ⟨start, finish, hstart, hfinish, rfl⟩ := h
    rw [List.mem_append, List.mem_cons, not_or, not_or]
    exact ⟨hstart.no_break, by decide, hfinish.no_break⟩

/-! ### What a check accepts -/

theorem matchFixed_some {count value : Nat} {rest : List Char}
    (h : matchFixed count chars = some (value, rest)) :
    ∃ run, chars = run ++ rest ∧ run.length = count ∧ ∀ c ∈ run, isDigit c = true := by
  unfold matchFixed at h
  dsimp only at h
  split_ifs at h with hrun
  cases h
  exact ⟨chars.take count, (List.take_append_drop _ _).symm, hrun.1, List.all_eq_true.mp hrun.2⟩

theorem matchDate_some {date : Date} {rest : List Char} (h : matchDate chars = some (date, rest)) :
    ∃ word, DateWord word ∧ chars = word ++ rest := by
  unfold matchDate at h
  split at h
  · rename_i year tail hyear
    split at h
    · rename_i month tail' hmonth
      obtain ⟨⟨day, rest⟩, hday, hsame⟩ := Option.map_eq_some_iff.mp h
      cases hsame
      obtain ⟨first, rfl, hfirst, hyears⟩ := matchFixed_some hyear
      obtain ⟨second, htail, hsecond, hmonths⟩ := matchFixed_some hmonth
      obtain ⟨third, htail', hthird, hdays⟩ := matchFixed_some hday
      refine ⟨_, ⟨first, second, third, rfl, by rw [hfirst, hsecond, hthird], ?_⟩, ?_⟩
      · intro c hc
        simp only [List.mem_append] at hc
        rcases hc with (hc | hc) | hc
        · exact hyears c hc
        · exact hmonths c hc
        · exact hdays c hc
      · rw [htail, htail', List.append_assoc, List.cons_append, List.append_assoc, List.cons_append]
    · cases h
  · cases h

theorem matchPeriod_some {dates : Date × Date} (h : matchPeriod chars = some dates) :
    Form.period.Word chars := by
  unfold matchPeriod at h
  split at h
  · rename_i start rest hstart
    split at h
    · rename_i finish hfinish
      obtain ⟨first, hfirst, rfl⟩ := matchDate_some hstart
      obtain ⟨second, hsecond, rfl⟩ := matchDate_some hfinish
      rw [List.append_nil]
      exact ⟨first, second, hfirst, hsecond, rfl⟩
    · cases h
  · cases h

theorem matchFraction_whole {fraction : List Char} (h : matchFraction chars = (fraction, [])) :
    (∀ c ∈ fraction, isDigit c = true) ∧ chars = if fraction = [] then [] else '.' :: fraction := by
  unfold matchFraction at h
  split at h
  · split_ifs at h with hnone
    · cases h
    · obtain ⟨rfl, hend⟩ := Prod.mk.inj h
      rename_i rest
      refine ⟨fun c hc => List.mem_takeWhile_imp hc, ?_⟩
      rw [if_neg hnone, List.takeWhile_eq_self_iff.mpr (List.dropWhile_eq_nil_iff.mp hend)]
  · obtain ⟨rfl, rfl⟩ := Prod.mk.inj h
    exact ⟨fun c hc => absurd hc List.not_mem_nil, rfl⟩

/-- A plain decimal is a decimal word. -/
theorem plainDecimal_some {parsed : Bool × Decimal} (h : plainDecimal chars = some parsed) :
    DecimalWord parsed.1 chars := by
  unfold plainDecimal at h
  dsimp only at h
  generalize hunsigned : (if chars.head? = some '-' then chars.drop 1 else chars) = unsigned at h
  have hchars : chars = (if decide (chars.head? = some '-') then ['-'] else []) ++ unsigned := by
    rw [← hunsigned]
    cases chars with
    | nil => rfl
    | cons c rest =>
      simp only [List.head?_cons, Option.some.injEq, decide_eq_true_eq, List.drop_one, List.tail_cons]
      split_ifs with hsign
      · rw [hsign, List.singleton_append]
      · rfl
  split at h
  · cases h
  · rename_i fraction hfraction hne
    cases h
    obtain ⟨hdigits, hrest⟩ := matchFraction_whole hfraction
    refine ⟨unsigned.takeWhile isDigit, fraction, ?_, hne, ?_⟩
    · nth_rewrite 1 [hchars]
      have hsplit : unsigned = unsigned.takeWhile isDigit ++
          if fraction = [] then [] else '.' :: fraction := by
        rw [← hrest, List.takeWhile_append_dropWhile]
      cases fraction with
      | nil =>
        rw [plainText, String.toList_ofList]
        exact congrArg _ (hsplit.trans (List.append_nil _))
      | cons c fraction =>
        rw [plainText, String.toList_ofList, List.append_assoc]
        exact congrArg _ hsplit
    · intro c hc
      rcases List.mem_append.mp hc with hc | hc
      · exact List.mem_takeWhile_imp hc
      · exact hdigits c hc
  · cases h

theorem Form.Accepts.word {form : Form} {value : String} (h : form.Accepts value) :
    form.Word (dropFinalBreak value.toList) := by
  cases form with
  | corp | hash =>
    simp only [Form.Accepts, isCode, Bool.and_eq_true, decide_eq_true_eq, List.all_eq_true] at h
    exact h
  | ratio =>
    obtain ⟨⟨sign, parsed⟩, hparsed, hsign⟩ := (Option.any_eq_true _ _).mp h
    obtain rfl : sign = false := (Bool.not_eq_true' _).mp hsign
    have hword := plainDecimal_some hparsed
    exact hword
  | decimal =>
    obtain ⟨name, parsed, h⟩ := h
    unfold parseDecimal at h
    split at h
    · rename_i found hfound
      exact ⟨found.1, plainDecimal_some hfound⟩
    · cases h
  | date =>
    obtain ⟨name, parsed, h⟩ := h
    unfold parseDate at h
    split at h
    · rename_i date hdate
      obtain ⟨word, hword, htext⟩ := matchDate_some hdate
      rw [List.append_nil] at htext
      rw [htext]
      exact hword
    · cases h
  | period =>
    obtain ⟨name, parsed, h⟩ := h
    unfold parsePeriod at h
    split at h
    · cases h
    · rename_i start finish hfound
      exact matchPeriod_some hfound

def EndsInBreak (value : String) : Prop :=
  value.toList.getLast? = some '\n'

theorem Form.Accepts.word_iff {form : Form} {value : String} (h : form.Accepts value) :
    form.Word value.toList ↔ ¬EndsInBreak value := by
  constructor
  · intro hword hlast
    exact hword.no_break (List.mem_of_mem_getLast? hlast)
  · intro hlast
    have hword := h.word
    unfold EndsInBreak at hlast
    rwa [dropFinalBreak, if_neg hlast] at hword

/-! ### Packets and policies -/

def Fact.checked (fact : Fact) : List (Form × String) :=
  match fact.normalized, fact.kind with
  | some normalized, .period => [(.period, normalized)]
  | some normalized, .currencyAmount => [(.decimal, normalized)]
  | _, _ => []

/-- The dates of an identity. -/
def Identity.dates (identity : Identity) : List String :=
  identity.periodStart.toList ++ identity.periodEnd.toList ++
    (identity.financialPeriodStart.toList ++ identity.financialPeriodEnd.toList) ++
    (identity.srPublishedAt.toList ++ identity.financialPublishedAt.toList ++ [identity.asOfDate])

def C3Context.dates (context : C3Context) : List String :=
  context.targetPeriodStart.toList ++ context.targetPeriodEnd.toList ++
    (context.capexPeriodStart.toList ++ context.capexPeriodEnd.toList)

def Packet.checked (packet : Packet) : List (Form × String) :=
  (.corp, packet.identity.dartCorpCode) ::
    (packet.sources.map (fun source => (.hash, source.artifactSha256)) ++
      (packet.sustainability.checked ++ packet.financial.checked) ++
      (packet.identity.dates ++ packet.c3Context.toList.flatMap C3Context.dates).map
        fun date => (.date, date))

def Policy.checked (policy : Policy) : List (Form × String) :=
  (.hash, policy.sourcePolicySha256) :: (policy.c3Threshold.toList.map (fun ratio => (.ratio, ratio)) ++
    policy.approvedOn.toList.map fun date => (.date, date))

theorem requireOptionalDate_ok {value : Option String} {key name : String} {date : Option Date}
    (h : requireOptionalDate value key name = .ok date) :
    ∀ text ∈ value.toList, Form.date.Accepts text := by
  cases value with
  | none => simp
  | some value =>
    obtain ⟨parsed, hparsed, -⟩ := map_ok_iff.mp h
    rintro text htext
    cases List.mem_singleton.mp htext
    exact ⟨_, parsed, hparsed⟩

theorem requireOrderedPeriod_ok {start finish : Option String} {startKey endKey name : String}
    (h : requireOrderedPeriod start finish startKey endKey name = .ok ()) :
    ∀ text ∈ start.toList ++ finish.toList, Form.date.Accepts text := by
  obtain ⟨first, hfirst, h⟩ := bind_ok h
  obtain ⟨last, hlast, -⟩ := bind_ok h
  exact List.forall_mem_append.mpr ⟨requireOptionalDate_ok hfirst, requireOptionalDate_ok hlast⟩

variable {rules : EngineRules} {packet : Packet} {policy : Policy}

theorem validateIdentity_ok {identity : Identity} (h : validateIdentity identity = .ok ()) :
    Form.corp.Accepts identity.dartCorpCode ∧ ∀ text ∈ identity.dates, Form.date.Accepts text := by
  replace h := rest_ok (rest_ok (rest_ok (rest_ok (rest_ok (rest_ok h)))))
  obtain ⟨⟨⟩, hcorp, h⟩ := bind_ok h
  replace h := rest_ok (rest_ok h)
  obtain ⟨⟨⟩, hperiod, h⟩ := bind_ok h
  obtain ⟨⟨⟩, hfinancial, h⟩ := bind_ok h
  obtain ⟨published, hpublished, h⟩ := bind_ok h
  obtain ⟨filed, hfiled, h⟩ := bind_ok h
  obtain ⟨date, hdate, -⟩ := bind_ok h
  constructor
  · show isCode isDigit 8 identity.dartCorpCode = true
    simpa using failIf_ok_iff.mp hcorp
  · unfold Identity.dates
    simp only [List.forall_mem_append, List.forall_mem_singleton]
    exact ⟨⟨List.forall_mem_append.mp (requireOrderedPeriod_ok hperiod),
      List.forall_mem_append.mp (requireOrderedPeriod_ok hfinancial)⟩,
      ⟨requireOptionalDate_ok hpublished, requireOptionalDate_ok hfiled⟩, _, date, hdate⟩

theorem validateFact_ok {fact : Fact} {name : String} (h : validateFact rules fact name = .ok ()) :
    ∀ entry ∈ fact.checked, entry.1.Accepts entry.2 := by
  replace h := rest_ok (rest_ok (rest_ok (rest_ok h)))
  unfold Fact.checked
  split at h
  · simp_all
  · simp_all
  · rename_i normalized hnormalized hkind
    obtain ⟨dates, hdates, -⟩ := bind_ok h
    rw [hnormalized, hkind, List.forall_mem_singleton]
    exact ⟨_, dates, hdates⟩
  · rename_i normalized hnormalized hkind
    obtain ⟨amount, hamount, -⟩ := bind_ok h
    rw [hnormalized, hkind, List.forall_mem_singleton]
    exact ⟨_, amount, hamount⟩
  · split <;> simp_all

theorem validateSources_ok (h : validateSources packet = .ok ()) :
    packet.sourceIds.Nodup ∧ ∀ source ∈ packet.sources, Form.hash.Accepts source.artifactSha256 := by
  obtain ⟨⟨⟩, hsources, h⟩ := bind_ok h
  refine ⟨not_not.mp (failIf_ok_iff.mp h), fun source hsource => ?_⟩
  rw [← List.zipIdx_map_fst 0 packet.sources] at hsource
  obtain ⟨⟨source, index⟩, hindex, rfl⟩ := List.mem_map.mp hsource
  have hhash := rest_ok (rest_ok (rest_ok (rest_ok (forM_ok_iff.mp hsources _ hindex))))
  show isCode isHex 64 source.artifactSha256 = true
  simpa using failIf_ok_iff.mp hhash

theorem validateContexts_ok (h : validateContexts packet = .ok ()) :
    ∀ context ∈ packet.c3Context.toList, ∀ text ∈ context.dates, Form.date.Accepts text := by
  intro context hfound
  rw [Option.mem_toList] at hfound
  unfold validateContexts at h
  rw [hfound] at h
  obtain ⟨⟨⟩, hcontext, -⟩ := bind_ok h
  replace hcontext := rest_ok (rest_ok (rest_ok (rest_ok hcontext)))
  obtain ⟨⟨⟩, htarget, hcapex⟩ := bind_ok hcontext
  exact List.forall_mem_append.mpr ⟨requireOrderedPeriod_ok htarget, requireOrderedPeriod_ok hcapex⟩

theorem validatePacket_accepts (h : validatePacket rules packet = .ok ()) :
    packet.sourceIds.Nodup ∧ ∀ entry ∈ packet.checked, entry.1.Accepts entry.2 := by
  replace h := rest_ok h
  obtain ⟨⟨⟩, hidentity, h⟩ := bind_ok h
  obtain ⟨⟨⟩, hsources, h⟩ := bind_ok h
  obtain ⟨⟨⟩, hsustainability, h⟩ := bind_ok h
  obtain ⟨⟨⟩, hfinancial, h⟩ := bind_ok h
  replace h := rest_ok (rest_ok (rest_ok (rest_ok (rest_ok (rest_ok h)))))
  obtain ⟨⟨⟩, hcontexts, -⟩ := bind_ok h
  obtain ⟨hcorp, hdates⟩ := validateIdentity_ok hidentity
  obtain ⟨hdistinct, hhashes⟩ := validateSources_ok hsources
  refine ⟨hdistinct, ?_⟩
  unfold Packet.checked
  simp only [List.forall_mem_cons, List.forall_mem_append, List.forall_mem_map, List.forall_mem_flatMap]
  exact ⟨hcorp, ⟨hhashes, validateFact_ok hsustainability, validateFact_ok hfinancial⟩, hdates,
    validateContexts_ok hcontexts⟩

theorem validatePolicy_accepts (h : validatePolicy policy = .ok ()) :
    ∀ entry ∈ policy.checked, entry.1.Accepts entry.2 := by
  replace h := rest_ok (rest_ok (rest_ok (rest_ok (rest_ok (rest_ok (rest_ok h))))))
  obtain ⟨⟨⟩, hratio, h⟩ := bind_ok h
  obtain ⟨date, hdate, h⟩ := bind_ok (rest_ok h)
  obtain ⟨⟨⟩, hhash, -⟩ := bind_ok h
  unfold Policy.checked
  simp only [List.forall_mem_cons, List.forall_mem_append, List.forall_mem_map]
  refine ⟨?_, fun ratio hfound => ?_, requireOptionalDate_ok hdate⟩
  · show isCode isHex 64 policy.sourcePolicySha256 = true
    simpa using failIf_ok_iff.mp hhash
  · rw [Option.mem_toList] at hfound
    rw [hfound] at hratio
    show isRatio ratio = true
    simpa using failIf_ok_iff.mp hratio

/-! ### Refusals -/

def Contract {α : Type} (computation : Except EngineError α) : Prop :=
  RaisesOnly (fun error => ∃ message, error = .domainValidation message) computation

section Contract

variable {α β : Type}

@[simp]
theorem contract_ok (value : α) : Contract (.ok value) :=
  raisesOnly_ok value

@[simp]
theorem contract_fail (message : String) : Contract (fail message : Except EngineError α) :=
  raisesOnly_error ⟨message, rfl⟩

variable {first : Except EngineError α}

@[simp]
theorem contract_bind {next : α → Except EngineError β} :
    Contract (first >>= next) ↔ Contract first ∧ ∀ value, first = .ok value → Contract (next value) := by
  cases first with
  | error error =>
    constructor
    · intro h
      exact ⟨fun raised hraised => h raised (by cases hraised; rfl), by rintro value ⟨⟩⟩
    · intro h raised hraised
      exact h.1 raised (by cases hraised; rfl)
  | ok value =>
    constructor
    · intro h
      exact ⟨contract_ok value, by rintro value ⟨⟩; exact h⟩
    · intro h
      exact h.2 value rfl

theorem contract_seq {first : Except EngineError Unit} {next : Unit → Except EngineError β} :
    Contract (first >>= next) ↔ Contract first ∧ (first = .ok () → Contract (next ())) := by
  rw [contract_bind]
  exact and_congr_right' ⟨fun h => h (), fun h _ => h⟩

@[simp]
theorem contract_map {f : α → β} {computation : Except EngineError α} :
    Contract (f <$> computation) ↔ Contract computation := by
  rw [map_eq_pure_bind, contract_bind]
  exact and_iff_left fun value _ => contract_ok _

@[simp]
theorem contract_ite {p : Prop} [Decidable p] {second : Except EngineError α} :
    Contract (if p then first else second) ↔ (p → Contract first) ∧ (¬p → Contract second) := by
  split_ifs with hp <;> simp [hp]

theorem contract_forM {f : α → Except EngineError PUnit} {inputs : List α}
    (h : ∀ input, Contract (f input)) : Contract (inputs.forM f) := by
  induction inputs with
  | nil => exact contract_ok _
  | cons head tail ih => exact contract_bind.mpr ⟨h head, fun _ _ => ih⟩

end Contract

variable (value key name : String)

@[simp]
theorem contract_failIf (p : Prop) [Decidable p] (message : String) : Contract (failIf p message) := by
  simp [failIf]

@[simp]
theorem contract_requireText : Contract (requireText value key name) := by
  simp [requireText]

@[simp]
theorem contract_requireOptionalText (value : Option String) :
    Contract (requireOptionalText value key name) := by
  simp [requireOptionalText]

@[simp]
theorem contract_requireInt (value low high : Int) : Contract (requireInt value key name low high) := by
  simp [requireInt]

@[simp]
theorem contract_requireUniqueTextList (value : List String) :
    Contract (requireUniqueTextList value key name) := by
  simp [requireUniqueTextList]

@[simp]
theorem contract_parseDate : Contract (parseDate value name) := by
  unfold parseDate
  split <;> simp

@[simp]
theorem contract_requireOptionalDate (value : Option String) :
    Contract (requireOptionalDate value key name) := by
  cases value with
  | none => exact contract_ok _
  | some value => exact contract_map.mpr (contract_parseDate value _)

@[simp]
theorem contract_requireOrderedPeriod (start finish : Option String) (endKey : String) :
    Contract (requireOrderedPeriod start finish key endKey name) := by
  refine contract_bind.mpr ⟨contract_requireOptionalDate _ _ _, fun first _ => ?_⟩
  refine contract_bind.mpr ⟨contract_requireOptionalDate _ _ _, fun last _ => ?_⟩
  split <;> simp

theorem contract_parseEntitySet :
    Contract (parseEntitySet rules value name) ↔ rules.loads value ≠ .error .recursionError := by
  unfold parseEntitySet
  split
  · rename_i hdeep
    rw [hdeep]
    refine iff_of_false (fun h => ?_) (fun h => h rfl)
    obtain ⟨message, hmessage⟩ := h _ rfl
    cases hmessage
  · rename_i entries hentries
    simp [hentries]
  · rename_i hother _
    exact iff_of_true (contract_fail _) hother

structure Fact.TooDeep (rules : EngineRules) (fact : Fact) : Prop where
  raw : fact.raw ≠ some ""
  unit : fact.unit ≠ some ""
  source : fact.sourceId ≠ some ""
  kind : fact.kind = .entitySet ∨ fact.kind = .facilitySet
  nested : ∃ text, fact.normalized = some text ∧ text ≠ "" ∧
    rules.loads text = .error .recursionError

structure Packet.TooDeep (rules : EngineRules) (packet : Packet) : Prop where
  schema : packet.schemaVersion = Reconciliation.schemaVersion
  identity : validateIdentity packet.identity = .ok ()
  sources : validateSources packet = .ok ()
  nested : packet.sustainability.TooDeep rules ∨
    validateFact rules packet.sustainability "sustainability" = .ok () ∧
      packet.financial.TooDeep rules

theorem requireOptionalText_ok_iff {value : Option String} {key name : String} :
    requireOptionalText value key name = .ok () ↔ value ≠ some "" := by
  unfold requireOptionalText
  split_ifs with h <;> simp [h, fail]

theorem contract_validateFact_iff {fact : Fact} :
    Contract (validateFact rules fact name) ↔ ¬fact.TooDeep rules := by
  have hperiod : ∀ normalized name, Contract (parsePeriod normalized name) := by
    intro normalized name
    unfold parsePeriod
    split <;> simp
  have hamount : ∀ normalized name, Contract (parseDecimal normalized name) := by
    intro normalized name
    unfold parseDecimal
    split <;> simp
  have hfact : ¬fact.TooDeep rules ↔ (fact.raw ≠ some "" → fact.unit ≠ some "" →
      fact.sourceId ≠ some "" → fact.normalized ≠ some "" →
      (fact.kind = .entitySet ∨ fact.kind = .facilitySet) → ∀ text, fact.normalized = some text →
        rules.loads text ≠ .error .recursionError) := by
    constructor
    · intro h hraw hunit hsource hnormalized hkind text htext hdeep
      refine h ⟨hraw, hunit, hsource, hkind, text, htext, ?_, hdeep⟩
      rintro rfl
      exact hnormalized htext
    · rintro h ⟨hraw, hunit, hsource, hkind, text, htext, hne, hdeep⟩
      refine h hraw hunit hsource ?_ hkind text htext hdeep
      rw [htext]
      simpa using hne
  rw [hfact]
  unfold validateFact
  simp only [contract_seq, contract_requireOptionalText, true_and, requireOptionalText_ok_iff]
  cases fact.normalized with
  | none => simp
  | some text =>
    cases fact.kind with
    | entitySet | facilitySet => simp [contract_parseEntitySet]
    | period => simp [hperiod]
    | currencyAmount => simp [hamount]
    | classification | unknown => simp

theorem contract_validatePolicy (policy : Policy) : Contract (validatePolicy policy) := by
  simp [validatePolicy]

theorem contract_validateSources (packet : Packet) : Contract (validateSources packet) := by
  refine contract_bind.mpr ⟨contract_forM fun entry => ?_, fun _ _ => contract_failIf _ _⟩
  simp [validateSource]

theorem contract_validateContexts (packet : Packet) : Contract (validateContexts packet) := by
  unfold validateContexts
  cases packet.c3Context <;> cases packet.c4Context <;>
    simp [validateC3Context, validateC4Context]

theorem contract_validatePacket_iff :
    Contract (validatePacket rules packet) ↔ ¬packet.TooDeep rules := by
  have hreferences : Contract (validateReferences packet) := by
    unfold validateReferences
    split <;> simp
  have hidentity : Contract (validateIdentity packet.identity) := by
    simp [validateIdentity]
  have hsearch : Contract (validateSearch packet.search) := by
    simp [validateSearch, validateComplete]
  have hpacket : ¬packet.TooDeep rules ↔ (packet.schemaVersion = schemaVersion →
      validateIdentity packet.identity = .ok () → validateSources packet = .ok () →
      ¬packet.sustainability.TooDeep rules ∧
        (validateFact rules packet.sustainability "sustainability" = .ok () →
          ¬packet.financial.TooDeep rules)) := by
    constructor
    · intro h hschema hidentity hsources
      exact ⟨fun hdeep => h ⟨hschema, hidentity, hsources, Or.inl hdeep⟩,
        fun hfact hdeep => h ⟨hschema, hidentity, hsources, Or.inr ⟨hfact, hdeep⟩⟩⟩
    · rintro h ⟨hschema, hidentity, hsources, hnested⟩
      obtain ⟨hfirst, hsecond⟩ := h hschema hidentity hsources
      rcases hnested with hdeep | ⟨hfact, hdeep⟩
      · exact hfirst hdeep
      · exact hsecond hfact hdeep
  rw [hpacket]
  unfold validatePacket
  simp only [contract_seq, contract_failIf, failIf_ok_iff, hidentity, contract_validateSources,
    contract_validateFact_iff, contract_requireOptionalText, contract_requireText,
    contract_requireUniqueTextList, contract_requireInt, hsearch, contract_validateContexts,
    hreferences, true_and, implies_true, and_true, not_not]

/-- **An accepted input is in the grammar but for final line breaks.**  A text that its check accepts is
a word of its form if and only if it does not end in a line break; so is every checked text of an
accepted packet or policy, whose sources are distinct and bound to their hashes.  No output comes from
a refused input.  A refused policy raises the contract error, and so does a refused packet if and only
if validation reaches no entity set that is nested too deeply. -/
theorem grammar_iff (rules : EngineRules) (packet : Packet) (policy : Policy) :
    (∀ form value, Form.Accepts form value → (form.Word value.toList ↔ ¬EndsInBreak value)) ∧
      (validatePacket rules packet = .ok () →
        ((∀ entry ∈ packet.checked, entry.1.Word entry.2.toList) ↔
          ∀ entry ∈ packet.checked, ¬EndsInBreak entry.2) ∧
        packet.sourceIds.Nodup ∧ ∀ source ∈ packet.sources, Form.hash.Accepts source.artifactSha256) ∧
      (validatePolicy policy = .ok () →
        ((∀ entry ∈ policy.checked, entry.1.Word entry.2.toList) ↔
          ∀ entry ∈ policy.checked, ¬EndsInBreak entry.2)) ∧
      (Contract (validatePacket rules packet) ↔ ¬packet.TooDeep rules) ∧
      Contract (validatePolicy policy) ∧
      ∀ output, evaluate rules packet policy = .ok output →
        validatePolicy policy = .ok () ∧ validatePacket rules packet = .ok () := by
  have hwords : ∀ {entries : List (Form × String)}, (∀ entry ∈ entries, entry.1.Accepts entry.2) →
      ((∀ entry ∈ entries, entry.1.Word entry.2.toList) ↔ ∀ entry ∈ entries, ¬EndsInBreak entry.2) :=
    fun haccepts => forall₂_congr fun entry hentry => (haccepts entry hentry).word_iff
  refine ⟨fun form value h => h.word_iff, fun h => ?_, fun h => hwords (validatePolicy_accepts h),
    contract_validatePacket_iff, contract_validatePolicy policy, fun output h => ?_⟩
  · obtain ⟨hdistinct, haccepts⟩ := validatePacket_accepts h
    refine ⟨hwords haccepts, hdistinct, fun source hsource => ?_⟩
    apply haccepts (.hash, source.artifactSha256)
    unfold Packet.checked
    simp only [List.mem_cons, List.mem_append, List.mem_map]
    exact Or.inr (Or.inl (Or.inl ⟨source, hsource, rfl⟩))
  · obtain ⟨-, hpolicy, hpacket, -⟩ := evaluate_ok_iff.mp h
    exact ⟨hpolicy, hpacket⟩

def brokenPacket : Packet :=
  let packet := plainPacket "2024-01-01/2024-12-31" "2024-01-01/2024-12-31"
  { packet with identity := { packet.identity with dartCorpCode := "00126380\n" } }

def nestedText : String :=
  String.ofList (List.replicate 100000 '[')

def nestedRules : EngineRules :=
  { plainRules with
    loads := fun value => .error (if value = nestedText then .recursionError else .valueError) }

def nestedPacket : Packet :=
  let packet := plainPacket "2024-01-01/2024-12-31" "2024-01-01/2024-12-31"
  { packet with
    item := .c1
    sustainability := { packet.sustainability with kind := .entitySet, normalized := some nestedText } }

theorem nestedPacket_tooDeep : nestedPacket.TooDeep nestedRules := by
  have hreplicate : ∀ count, 0 < count → String.ofList (List.replicate count '[') ≠ "" := by
    intro count hcount h
    have hlength := congrArg (List.length ∘ String.toList) h
    simp only [Function.comp_apply, String.toList_ofList, List.length_replicate] at hlength
    exact absurd hlength hcount.ne'
  have hne : nestedText ≠ "" := hreplicate 100000 (by decide)
  refine ⟨rfl, by decide +kernel, by decide +kernel, Or.inl ?_⟩
  exact ⟨by decide, by decide, by decide, Or.inl rfl, nestedText, rfl, hne,
    congrArg Except.error (if_pos rfl)⟩

theorem broken_packet_accepted :
    validatePacket plainRules brokenPacket = .ok () ∧
      (Form.corp, "00126380\n") ∈ brokenPacket.checked ∧ ¬Form.corp.Word "00126380\n".toList ∧
      ¬Contract (validatePacket nestedRules nestedPacket) := by
  refine ⟨by decide +kernel, List.mem_cons_self, fun hword => ?_, fun hcontract => ?_⟩
  · exact absurd hword.1 (by decide)
  · exact contract_validatePacket_iff.mp hcontract nestedPacket_tooDeep

end ProofOps.Domain.Reconciliation
