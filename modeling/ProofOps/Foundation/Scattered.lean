import Mathlib.Data.List.Infix
import Mathlib.Data.List.TakeWhile

/-!
# Words with spacers between their letters

A search for a word whose letters may stand apart, delimited by what is no letter, as a scanner does
it: from left to right, and from the end of a match on.  A word without a border is found wherever it
is (`mem_findAll`).
-/

namespace ProofOps.Foundation.Scattered

universe u

variable {α : Type u}

inductive Spread (spacer : α) : List α → List α → Prop where
  | last (c : α) : Spread spacer [c] [c]
  | cons {word text : List α} (c : α) (count : Nat) : Spread spacer word text →
      Spread spacer (c :: word) (c :: (List.replicate count spacer ++ text))

variable [DecidableEq α] {spacer : α} {letter : α → Bool} {word chars text : List α}

def matchLength (spacer : α) : List α → List α → Option Nat
  | [], _ => none
  | _ :: _, [] => none
  | [t], c :: _ => if c = t then some 1 else none
  | t :: word, c :: rest =>
    if c = t then
      (matchLength spacer word (rest.dropWhile fun d => d = spacer)).map fun length =>
        1 + (rest.takeWhile fun d => d = spacer).length + length
    else none

theorem takeWhile_eq_replicate (spacer : α) (rest : List α) :
    rest.takeWhile (fun d => d = spacer) =
      List.replicate (rest.takeWhile fun d => d = spacer).length spacer := by
  rw [List.eq_replicate_iff]
  refine ⟨rfl, fun d hd => ?_⟩
  have hspacer := List.mem_takeWhile_imp hd
  exact decide_eq_true_eq.mp hspacer

/-- A length that is found spans the word. -/
theorem matchLength_spread {length : Nat} (h : matchLength spacer word chars = some length) :
    length ≤ chars.length ∧ Spread spacer word (chars.take length) := by
  induction word generalizing chars length with
  | nil => cases h
  | cons t word ih =>
    cases chars with
    | nil => cases word <;> cases h
    | cons c rest =>
      cases word with
      | nil =>
        unfold matchLength at h
        split_ifs at h with hc
        cases h
        subst hc
        exact ⟨Nat.succ_le_succ (Nat.zero_le _), .last c⟩
      | cons t' word =>
        unfold matchLength at h
        split_ifs at h with hc
        obtain ⟨rest_length, hrest, rfl⟩ := Option.map_eq_some_iff.mp h
        obtain ⟨hle, hspread⟩ := ih hrest
        subst hc
        have hsplit := @List.takeWhile_append_dropWhile _ (fun d => decide (d = spacer)) rest
        have hlengths := congrArg List.length hsplit
        rw [List.length_append] at hlengths
        refine ⟨by rw [List.length_cons]; omega, ?_⟩
        have htake : (c :: rest).take
              (1 + (rest.takeWhile fun d => d = spacer).length + rest_length) =
            c :: (List.replicate (rest.takeWhile fun d => d = spacer).length spacer ++
              (rest.dropWhile fun d => d = spacer).take rest_length) := by
          rw [Nat.add_assoc, Nat.add_comm 1, List.take_succ_cons, ← takeWhile_eq_replicate,
            ← List.take_length_add_append, hsplit]
        rw [htake]
        exact .cons c _ hspread

/-- The word is found wherever it stands. -/
theorem matchLength_of_spread (hword : spacer ∉ word) (h : Spread spacer word text) (back : List α) :
    matchLength spacer word (text ++ back) = some text.length := by
  induction h with
  | last c => simp [matchLength]
  | @cons word text c count h ih =>
    have hrest : spacer ∉ word := fun hmem => hword (List.mem_cons_of_mem _ hmem)
    obtain ⟨t, tail, rfl⟩ : ∃ t tail, word = t :: tail := by
      cases h with
      | last c => exact ⟨c, [], rfl⟩
      | cons c count h => exact ⟨c, _, rfl⟩
    obtain ⟨behind, hbehind⟩ : ∃ behind, text = t :: behind := by
      cases h with
      | last c => exact ⟨[], rfl⟩
      | cons c count h => exact ⟨_, rfl⟩
    have hstop : ∀ d ∈ (text ++ back).head?, decide (d = spacer) = false := by
      subst hbehind
      rintro d ⟨⟩
      exact decide_eq_false fun heq => hrest (heq ▸ List.mem_cons_self)
    have hfront : ∀ d ∈ List.replicate count spacer, decide (d = spacer) = true := by
      intro d hd
      exact decide_eq_true (List.eq_of_mem_replicate hd)
    have htake : (List.replicate count spacer ++ (text ++ back)).takeWhile (fun d => d = spacer) =
        List.replicate count spacer := by
      rw [List.takeWhile_append_of_pos hfront]
      subst hbehind
      rw [List.cons_append, List.takeWhile_cons_of_neg (by rw [hstop t rfl]; exact Bool.false_ne_true),
        List.append_nil]
    have hdrop : (List.replicate count spacer ++ (text ++ back)).dropWhile (fun d => d = spacer) =
        text ++ back := by
      rw [List.dropWhile_append_of_pos hfront]
      subst hbehind
      rw [List.cons_append, List.dropWhile_cons_of_neg (by rw [hstop t rfl]; exact Bool.false_ne_true)]
    rw [List.cons_append, List.append_assoc]
    unfold matchLength
    rw [if_pos rfl, htake, hdrop, ih hrest]
    simp only [Option.map_some, List.length_cons, List.length_append, List.length_replicate]
    congr 1
    omega

omit [DecidableEq α] in
theorem Spread.filter (h : Spread spacer word text) (hspacer : letter spacer = false)
    (hword : ∀ c ∈ word, letter c = true) : text.filter letter = word := by
  induction h with
  | last c => rw [List.filter_cons_of_pos (hword c List.mem_cons_self), List.filter_nil]
  | @cons word text c count h ih =>
    have hblank : (List.replicate count spacer).filter letter = [] := by
      rw [List.filter_eq_nil_iff]
      intro d hd
      rw [List.eq_of_mem_replicate hd, hspacer]
      exact Bool.false_ne_true
    rw [List.filter_cons_of_pos (hword c List.mem_cons_self), List.filter_append, hblank,
      List.nil_append, ih fun d hd => hword d (List.mem_cons_of_mem _ hd)]

omit [DecidableEq α] in
theorem Spread.length_le (h : Spread spacer word text) : word.length ≤ text.length := by
  induction h with
  | last c => exact Nat.le_refl _
  | cons c count h ih =>
    rw [List.length_cons, List.length_cons, List.length_append]
    omega

omit [DecidableEq α] in
theorem Spread.eq_of_length (h : Spread spacer word text) (hlength : text.length ≤ word.length) :
    text = word := by
  induction h with
  | last c => rfl
  | cons c count h ih =>
    have hle := h.length_le
    rw [List.length_cons, List.length_cons, List.length_append, List.length_replicate] at hlength
    have hcount : count = 0 := by omega
    subst hcount
    rw [List.replicate_zero, List.nil_append, ih (by omega)]

omit [DecidableEq α] in
theorem Spread.head (h : Spread spacer word text) : ∃ c ∈ word, ∃ rest, text = c :: rest := by
  cases h with
  | last c => exact ⟨c, List.mem_cons_self, [], rfl⟩
  | cons c count h => exact ⟨c, List.mem_cons_self, _, rfl⟩

/-! ### The scan -/

def matchAt (spacer : α) (letter : α → Bool) (word : List α) (before : Option α) (chars : List α) :
    Option Nat :=
  if before.all (fun c => !letter c) then
    (matchLength spacer word chars).filter fun length => (chars[length]?).all fun c => !letter c
  else none

def findFrom (spacer : α) (letter : α → Bool) (word : List α) :
    Nat → Option α → Nat → List α → List (Nat × Nat)
  | _, _, _, [] => []
  | skip + 1, _, index, c :: rest => findFrom spacer letter word skip (some c) (index + 1) rest
  | 0, before, index, c :: rest =>
    match matchAt spacer letter word before (c :: rest) with
    | none => findFrom spacer letter word 0 (some c) (index + 1) rest
    | some length =>
      (index, index + length) ::
        findFrom spacer letter word (length - 1) (some c) (index + 1) rest

/-- Every place of the word in a text. -/
def findAll (spacer : α) (letter : α → Bool) (word chars : List α) : List (Nat × Nat) :=
  findFrom spacer letter word 0 none 0 chars

def charBefore (before : Option α) (chars : List α) : Nat → Option α
  | 0 => before
  | index + 1 => chars[index]?

def Borderless (word : List α) : Prop :=
  ∀ part, part <+: word → part <:+ word → part = [] ∨ part = word

theorem matchAt_some {before : Option α} {length : Nat} :
    matchAt spacer letter word before chars = some length ↔
      (before.all fun c => !letter c) = true ∧ matchLength spacer word chars = some length ∧
        ((chars[length]?).all fun c => !letter c) = true := by
  unfold matchAt
  split_ifs with hbefore
  · rw [Option.filter_eq_some_iff]
    exact ⟨fun h => ⟨hbefore, h⟩, fun h => h.2⟩
  · exact ⟨fun h => absurd h (by simp), fun h => absurd h.1 hbefore⟩

/-- Two matches of a word without a border do not overlap. -/
theorem matchLength_apart (hspacer : letter spacer = false) (hword : ∀ c ∈ word, letter c = true)
    (hborder : Borderless word) {first second offset : Nat}
    (h : matchLength spacer word chars = some first)
    (h' : matchLength spacer word (chars.drop offset) = some second) (hpos : 0 < offset) :
    first ≤ offset := by
  by_contra hnot
  obtain ⟨hfirst, hspread⟩ := matchLength_spread h
  obtain ⟨hsecond, hspread'⟩ := matchLength_spread h'
  have hletters := hspread.filter hspacer hword
  have hletters' := hspread'.filter hspacer hword
  -- the letters of the first match from the offset on are a back of the word
  let part := ((chars.take first).drop offset).filter letter
  have hsplit : ((chars.take first).take offset).filter letter ++ part = word := by
    rw [← List.filter_append, List.take_append_drop]
    exact hletters
  have hsuffix : part <:+ word := ⟨_, hsplit⟩
  have hshorter : part.length < word.length := by
    obtain ⟨c, hc, rest, hhead⟩ := hspread.head
    have hmem : c ∈ ((chars.take first).take offset).filter letter := by
      refine List.mem_filter.mpr ⟨?_, hword c hc⟩
      obtain ⟨offset, rfl⟩ := Nat.exists_eq_succ_of_ne_zero (Nat.pos_iff_ne_zero.mp hpos)
      rw [hhead, List.take_succ_cons]
      exact List.mem_cons_self
    have hlength := congrArg List.length hsplit
    rw [List.length_append] at hlength
    have := List.length_pos_of_mem hmem
    omega
  have hpart : (chars.take first).drop offset = (chars.drop offset).take (first - offset) := by
    rw [List.drop_take]
  rcases Nat.le_total second (first - offset) with hle | hle
  · -- the second match ends inside of the first one
    have hsub : ((chars.drop offset).take second).filter letter <+: part := by
      show _ <+: ((chars.take first).drop offset).filter letter
      rw [hpart]
      exact ((List.take_prefix_take_left hle).filter _)
    rw [hletters'] at hsub
    have := hsub.length_le
    omega
  · -- the part is a front of the word as well
    have hsub : part <+: ((chars.drop offset).take second).filter letter := by
      show ((chars.take first).drop offset).filter letter <+: _
      rw [hpart]
      exact ((List.take_prefix_take_left hle).filter _)
    rw [hletters'] at hsub
    rcases hborder part hsub hsuffix with hempty | hwhole
    · obtain ⟨c, hc, rest, hhead⟩ := hspread'.head
      have hmem : c ∈ part := by
        refine List.mem_filter.mpr ⟨?_, hword c hc⟩
        rw [hpart]
        have hfront : (chars.drop offset).head? = some c := by
          cases hdrop : chars.drop offset with
          | nil => rw [hdrop, List.take_nil] at hhead; cases hhead
          | cons d tail =>
            rw [hdrop] at hhead
            cases second with
            | zero => cases hhead
            | succ second =>
              cases hhead
              rfl
        obtain ⟨count, hcount⟩ := Nat.exists_eq_succ_of_ne_zero (by omega : first - offset ≠ 0)
        rw [hcount]
        cases hdrop : chars.drop offset with
        | nil => rw [hdrop] at hfront; cases hfront
        | cons d tail =>
          rw [hdrop] at hfront
          cases hfront
          exact List.mem_cons_self
      rw [hempty] at hmem
      cases hmem
    · rw [hwhole] at hshorter
      omega

def Clear (spacer : α) (letter : α → Bool) (word : List α) (skip : Nat) (before : Option α)
    (chars : List α) : Prop :=
  ∀ index < skip,
    matchAt spacer letter word (charBefore before chars index) (chars.drop index) = none

/-- The scan finds exactly the whole words from where it goes on. -/
theorem mem_findFrom (hspacer : letter spacer = false) (hword : ∀ c ∈ word, letter c = true)
    (hborder : Borderless word) {skip index : Nat} {before : Option α} {place : Nat × Nat}
    (hclear : Clear spacer letter word skip before chars) :
    place ∈ findFrom spacer letter word skip before index chars ↔
      ∃ offset < chars.length, ∃ length, place = (index + offset, index + offset + length) ∧
        matchAt spacer letter word (charBefore before chars offset) (chars.drop offset) =
          some length := by
  induction chars generalizing skip before index with
  | nil => simp [findFrom]
  | cons c rest ih =>
    -- the matches behind the first character
    have hbehind : ∀ {skip : Nat}, Clear spacer letter word skip (some c) rest →
        (place ∈ findFrom spacer letter word skip (some c) (index + 1) rest ↔
          ∃ offset < (c :: rest).length, 0 < offset ∧ ∃ length,
            place = (index + offset, index + offset + length) ∧
              matchAt spacer letter word (charBefore before (c :: rest) offset)
                ((c :: rest).drop offset) = some length) := by
      intro skip hskip
      rw [ih hskip]
      constructor
      · rintro ⟨offset, hoffset, length, rfl, hmatch⟩
        refine ⟨offset + 1, Nat.succ_lt_succ hoffset, Nat.succ_pos _, length, ?_, ?_⟩
        · rw [Nat.add_assoc, Nat.add_comm 1]
        · cases offset with
          | zero | succ offset => exact hmatch
      · rintro ⟨offset, hoffset, hpos, length, rfl, hmatch⟩
        obtain ⟨offset, rfl⟩ := Nat.exists_eq_succ_of_ne_zero (Nat.pos_iff_ne_zero.mp hpos)
        refine ⟨offset, Nat.lt_of_succ_lt_succ hoffset, length, ?_, ?_⟩
        · rw [Nat.add_assoc index 1, Nat.add_comm 1]
        · cases offset with
          | zero => exact hmatch
          | succ offset => exact hmatch
    cases skip with
    | succ skip =>
      have hfirst := hclear 0 (Nat.succ_pos skip)
      have hrest : Clear spacer letter word skip (some c) rest := by
        intro later hlater
        have hnone := hclear (later + 1) (Nat.succ_lt_succ hlater)
        cases later with
        | zero | succ later => exact hnone
      show place ∈ findFrom spacer letter word skip (some c) (index + 1) rest ↔ _
      rw [hbehind hrest]
      constructor
      · rintro ⟨offset, hoffset, -, hmatch⟩
        exact ⟨offset, hoffset, hmatch⟩
      · rintro ⟨offset, hoffset, length, heq, hmatch⟩
        refine ⟨offset, hoffset, Nat.pos_of_ne_zero ?_, length, heq, hmatch⟩
        rintro rfl
        rw [hfirst] at hmatch
        cases hmatch
    | zero =>
      cases hhere : matchAt spacer letter word before (c :: rest) with
      | none =>
        have hempty : Clear spacer letter word 0 (some c) rest :=
          fun later hlater => absurd hlater (Nat.not_lt_zero later)
        unfold findFrom
        rw [hhere]
        rw [hbehind hempty]
        constructor
        · rintro ⟨offset, hoffset, -, hmatch⟩
          exact ⟨offset, hoffset, hmatch⟩
        · rintro ⟨offset, hoffset, length, heq, hmatch⟩
          refine ⟨offset, hoffset, Nat.pos_of_ne_zero ?_, length, heq, hmatch⟩
          rintro rfl
          have hnone : matchAt spacer letter word (charBefore before (c :: rest) 0)
              ((c :: rest).drop 0) = none := hhere
          rw [hnone] at hmatch
          cases hmatch
      | some length =>
        -- a match that starts inside of this one would overlap it
        have hclear' : Clear spacer letter word (length - 1) (some c) rest := by
          intro later hlater
          by_contra hsome
          obtain ⟨second, hsecond⟩ := Option.ne_none_iff_exists'.mp hsome
          have hfirst := (matchAt_some.mp hhere).2.1
          have hdrop : (c :: rest).drop (later + 1) = rest.drop later := rfl
          have hlength := matchLength_apart hspacer hword hborder hfirst
            (hdrop ▸ (matchAt_some.mp hsecond).2.1) (Nat.succ_pos later)
          omega
        unfold findFrom
        rw [hhere]
        rw [List.mem_cons, hbehind hclear']
        constructor
        · rintro (rfl | ⟨offset, hoffset, -, hmatch⟩)
          · exact ⟨0, Nat.succ_pos _, length, rfl, hhere⟩
          · exact ⟨offset, hoffset, hmatch⟩
        · rintro ⟨offset, hoffset, found, heq, hmatch⟩
          rcases Nat.eq_zero_or_pos offset with rfl | hpos
          · left
            have hsame : matchAt spacer letter word before (c :: rest) = some found := hmatch
            rw [hhere] at hsame
            cases hsame
            exact heq
          · exact .inr ⟨offset, hoffset, hpos, found, heq, hmatch⟩

structure Occurs (spacer : α) (letter : α → Bool) (word chars : List α) (start stop : Nat) : Prop where
  ordered : start ≤ stop
  inside : stop ≤ chars.length
  spread : Spread spacer word ((chars.take stop).drop start)
  before : ∀ c, 0 < start → chars[start - 1]? = some c → letter c = false
  behind : ∀ c, chars[stop]? = some c → letter c = false

/-- The scan finds exactly the whole words of the text. -/
theorem mem_findAll (hspacer : letter spacer = false) (hword : ∀ c ∈ word, letter c = true)
    (hborder : Borderless word) {start stop : Nat} :
    (start, stop) ∈ findAll spacer letter word chars ↔ Occurs spacer letter word chars start stop := by
  have hclear : Clear spacer letter word 0 none chars :=
    fun later hlater => absurd hlater (Nat.not_lt_zero later)
  have hnot : spacer ∉ word := by
    intro hmem
    rw [hword spacer hmem] at hspacer
    cases hspacer
  unfold findAll
  rw [mem_findFrom hspacer hword hborder hclear]
  constructor
  · rintro ⟨offset, hoffset, length, heq, hmatch⟩
    rw [Nat.zero_add] at heq
    cases heq
    obtain ⟨hbefore, hlength, hbehind⟩ := matchAt_some.mp hmatch
    obtain ⟨hle, hspread⟩ := matchLength_spread hlength
    rw [List.length_drop] at hle
    refine ⟨Nat.le_add_right _ _, by omega, ?_, ?_, ?_⟩
    · rw [List.take_drop] at hspread
      exact hspread
    · intro c hpos hc
      obtain ⟨offset, rfl⟩ := Nat.exists_eq_succ_of_ne_zero (Nat.pos_iff_ne_zero.mp hpos)
      have hprevious : charBefore none chars (offset + 1) = some c := hc
      rw [hprevious] at hbefore
      simpa using hbefore
    · intro c hc
      rw [List.getElem?_drop, hc] at hbehind
      simpa using hbehind
  · intro h
    have hlength : ((chars.take stop).drop start).length = stop - start := by
      rw [List.length_drop, List.length_take, Nat.min_eq_left h.inside]
    have hpos : start < stop := by
      obtain ⟨c, -, rest, hhead⟩ := h.spread.head
      rw [hhead, List.length_cons] at hlength
      omega
    have hdrop : chars.drop start = (chars.take stop).drop start ++ chars.drop stop := by
      conv_lhs => rw [← List.take_append_drop stop chars]
      rw [List.drop_append_of_le_length (by
        rw [List.length_take, Nat.min_eq_left h.inside]
        exact h.ordered)]
    refine ⟨start, Nat.lt_of_lt_of_le hpos h.inside, stop - start, ?_, matchAt_some.mpr ⟨?_, ?_, ?_⟩⟩
    · rw [Nat.zero_add, Nat.add_sub_cancel' h.ordered]
    · cases start with
      | zero => rfl
      | succ start =>
        show (chars[start]?).all _ = true
        cases hc : chars[start]? with
        | none => rfl
        | some c =>
          have hletter := h.before c (Nat.succ_pos start) hc
          simp [hletter]
    · rw [hdrop, matchLength_of_spread hnot h.spread, hlength]
    · rw [List.getElem?_drop, Nat.add_sub_cancel' h.ordered]
      cases hc : chars[stop]? with
      | none => rfl
      | some c =>
        have hletter := h.behind c hc
        simp [hletter]

omit [DecidableEq α] in
theorem Occurs.length_of_short {start stop : Nat} (h : Occurs spacer letter word chars start stop)
    (hshort : word.length ≤ 1) : stop = start + 1 := by
  have hlength : ((chars.take stop).drop start).length = stop - start := by
    rw [List.length_drop, List.length_take, Nat.min_eq_left h.inside]
  have hspread := h.spread
  generalize (chars.take stop).drop start = text at hlength hspread
  cases hspread with
  | last c =>
    rw [List.length_singleton] at hlength
    omega
  | @cons word text c count hspread =>
    obtain ⟨d, hd, -⟩ := hspread.head
    have := List.length_pos_of_mem hd
    rw [List.length_cons] at hshort
    omega

omit [DecidableEq α] in
theorem borderless_of_drop (h : ∀ count < word.length, 0 < count → ¬word.drop count <+: word) :
    Borderless word := by
  intro part hprefix hsuffix
  have hdrop := List.suffix_iff_eq_drop.mp hsuffix
  have hle := hsuffix.length_le
  by_cases hempty : part = []
  · exact .inl hempty
  · by_cases hwhole : part.length = word.length
    · exact .inr (hsuffix.eq_of_length hwhole)
    · have hpos := List.length_pos_iff.mpr hempty
      rw [hdrop] at hprefix
      exact absurd hprefix (h _ (by omega) (by omega))

end ProofOps.Foundation.Scattered
