import Mathlib.Data.List.Infix
import Mathlib.Data.List.TakeWhile

/-!
# Replacing words

`str.replace` scans a text from the left and replaces every occurrence that does not overlap the
one before.  Where the searched text is free of separators, it is replaced word by word
(`replaceAll_append`), and a text of separate words can be searched word by word
(`infix_iff_exists_word`).  A table of such replacements that run one after the other rewrites every
word by itself (`substitute_eq_mapWords`).
-/

namespace ProofOps.Foundation.Words

variable {α : Type*}

/-! ### Words between separators -/

def IsWord (sep : α → Bool) (text : List α) : Prop :=
  ∀ c ∈ text, sep c = false

instance (sep : α → Bool) (text : List α) : Decidable (IsWord sep text) :=
  decidable_of_iff (text.all fun c => !sep c) (by simp [IsWord])

theorem isWord_beq_iff [BEq α] [LawfulBEq α] {c : α} {text : List α} :
    IsWord (fun d => d == c) text ↔ c ∉ text := by
  constructor
  · intro h hc
    have hfalse := h c hc
    simp at hfalse
  · intro h d hd
    rw [beq_eq_false_iff_ne]
    rintro rfl
    exact h hd

def words (sep : α → Bool) (text : List α) : List (List α) :=
  text.splitOnP sep

def mapWordsFrom (sep : α → Bool) (f : List α → List α) : List α → List α → List α
  | word, [] => f word
  | word, c :: text =>
    if sep c then f word ++ c :: mapWordsFrom sep f [] text
    else mapWordsFrom sep f (word ++ [c]) text

def mapWords (sep : α → Bool) (f : List α → List α) (text : List α) : List α :=
  mapWordsFrom sep f [] text

variable {sep : α → Bool} {f g : List α → List α} {word rest text : List α} {c : α}

/-- Induction on a text, word by word. -/
theorem word_induction {motive : List α → Prop} (hword : ∀ word, IsWord sep word → motive word)
    (hstep : ∀ word c rest, IsWord sep word → sep c = true → motive rest →
      motive (word ++ c :: rest)) (text : List α) : motive text := by
  induction hlength : text.length using Nat.strong_induction_on generalizing text with
  | _ length ih =>
    have hsplit := List.takeWhile_append_dropWhile (p := fun c => !sep c) (l := text)
    have hfree : IsWord sep (text.takeWhile fun c => !sep c) := by
      intro c hc
      simpa using List.mem_takeWhile_imp hc
    cases hdrop : text.dropWhile fun c => !sep c with
    | nil =>
      rw [hdrop, List.append_nil] at hsplit
      rw [← hsplit]
      exact hword _ hfree
    | cons c rest =>
      rw [hdrop] at hsplit
      have hsep : sep c = true := by
        have hhead := List.head_dropWhile_not (fun c => !sep c) (l := text)
        simpa [hdrop] using hhead
      rw [← hsplit]
      apply hstep _ _ _ hfree hsep
      refine ih rest.length ?_ rest rfl
      rw [← hlength, ← hsplit]
      simp only [List.length_append, List.length_cons]
      omega

theorem mapWordsFrom_word (h : IsWord sep text) :
    mapWordsFrom sep f word text = f (word ++ text) := by
  induction text generalizing word with
  | nil => rw [mapWordsFrom, List.append_nil]
  | cons c text ih =>
    have hc : sep c = false := h c List.mem_cons_self
    rw [mapWordsFrom, hc, if_neg Bool.false_ne_true,
      ih fun c hc => h c (List.mem_cons_of_mem _ hc), List.append_assoc, List.singleton_append]

@[simp]
theorem mapWords_word (h : IsWord sep word) : mapWords sep f word = f word :=
  mapWordsFrom_word h

theorem mapWordsFrom_append (h : IsWord sep text) (hc : sep c = true) :
    mapWordsFrom sep f word (text ++ c :: rest) = f (word ++ text) ++ c :: mapWords sep f rest := by
  induction text generalizing word with
  | nil => rw [List.nil_append, mapWordsFrom, if_pos hc, List.append_nil, mapWords]
  | cons d text ih =>
    have hd : sep d = false := h d List.mem_cons_self
    rw [List.cons_append, mapWordsFrom, hd, if_neg Bool.false_ne_true,
      ih fun c hc => h c (List.mem_cons_of_mem _ hc), List.append_assoc, List.singleton_append]

@[simp]
theorem mapWords_append (h : IsWord sep word) (hc : sep c = true) :
    mapWords sep f (word ++ c :: rest) = f word ++ c :: mapWords sep f rest :=
  mapWordsFrom_append h hc

/-- A single word. -/
@[simp]
theorem words_word (h : IsWord sep word) : words sep word = [word] :=
  List.splitOnP_eq_singleton h

@[simp]
theorem words_append (h : IsWord sep word) (hc : sep c = true) :
    words sep (word ++ c :: rest) = word :: words sep rest :=
  List.splitOnP_append_cons_of_forall_mem h c hc rest

theorem isWord_of_mem (h : word ∈ words sep text) : IsWord sep word := by
  induction text using @word_induction α sep with
  | hword text htext =>
    rw [words_word htext, List.mem_singleton] at h
    exact h ▸ htext
  | hstep first c rest hfirst hc ih =>
    rw [words_append hfirst hc, List.mem_cons] at h
    rcases h with rfl | h
    · exact hfirst
    · exact ih h

theorem mapWords_congr (h : ∀ word ∈ words sep text, f word = g word) :
    mapWords sep f text = mapWords sep g text := by
  induction text using @word_induction α sep with
  | hword text htext =>
    rw [words_word htext] at h
    rw [mapWords_word htext, mapWords_word htext, h text (List.mem_singleton_self text)]
  | hstep first c rest hfirst hc ih =>
    rw [words_append hfirst hc] at h
    rw [mapWords_append hfirst hc, mapWords_append hfirst hc, h first List.mem_cons_self,
      ih fun word hword => h word (List.mem_cons_of_mem _ hword)]

theorem mapWords_id : mapWords sep (fun word => word) text = text := by
  induction text using @word_induction α sep with
  | hword text htext => rw [mapWords_word htext]
  | hstep first c rest hfirst hc ih => rw [mapWords_append hfirst hc, ih]

/-- A word does not reach across a separator. -/
theorem infix_append_iff (hword : IsWord sep word) (hne : word ≠ []) (hc : sep c = true) :
    word <:+: text ++ c :: rest ↔ word <:+: text ∨ word <:+: rest := by
  constructor
  · rintro ⟨before, behind, hsplit⟩
    rw [List.append_assoc] at hsplit
    rcases List.append_eq_append_iff.mp hsplit with ⟨middle, rfl, htail⟩ | ⟨middle, rfl, htail⟩
    · -- The word starts before the separator, and stops before it.
      rcases List.append_eq_append_iff.mp htail with ⟨last, rfl, -⟩ | ⟨last, rfl, hlast⟩
      · exact Or.inl ⟨before, last, List.append_assoc _ _ _⟩
      · cases last with
        | nil => exact Or.inl ⟨before, [], by rw [List.append_nil, List.append_nil]⟩
        | cons d last =>
          rw [List.cons_append, List.cons.injEq] at hlast
          have hd : sep d = false :=
            hword d (List.mem_append_right _ List.mem_cons_self)
          rw [← hlast.1, hc] at hd
          exact absurd hd (by decide)
    · cases middle with
      | nil =>
        cases word with
        | nil => exact absurd rfl hne
        | cons d word =>
          rw [List.nil_append, List.cons_append, List.cons.injEq] at htail
          have hd : sep d = false := hword d List.mem_cons_self
          rw [← htail.1, hc] at hd
          exact absurd hd (by decide)
      | cons d middle =>
        rw [List.cons_append, List.cons.injEq] at htail
        exact Or.inr ⟨middle, behind, by rw [htail.2, List.append_assoc]⟩
  · rintro (hin | hin)
    · exact hin.trans (List.prefix_append _ _).isInfix
    · exact hin.trans ⟨text ++ [c], [], by simp⟩

theorem infix_mapWords_iff (hword : IsWord sep word) (hne : word ≠ []) :
    word <:+: mapWords sep f text ↔ ∃ host ∈ words sep text, word <:+: f host := by
  induction text using @word_induction α sep with
  | hword text htext => simp only [mapWords_word htext, words_word htext, List.mem_singleton,
      exists_eq_left]
  | hstep first c rest hfirst hc ih =>
    rw [mapWords_append hfirst hc, words_append hfirst hc, infix_append_iff hword hne hc, ih]
    simp only [List.mem_cons, exists_eq_or_imp]

theorem infix_iff_exists_word (hword : IsWord sep word) (hne : word ≠ []) :
    word <:+: text ↔ ∃ host ∈ words sep text, word <:+: host := by
  have h := @infix_mapWords_iff α sep (fun word => word) word text hword hne
  rwa [mapWords_id] at h

theorem apply_infix_mapWords (h : word ∈ words sep text) : f word <:+: mapWords sep f text := by
  induction text using @word_induction α sep with
  | hword text htext =>
    rw [words_word htext, List.mem_singleton] at h
    rw [mapWords_word htext, h]
  | hstep first c rest hfirst hc ih =>
    rw [words_append hfirst hc, List.mem_cons] at h
    rw [mapWords_append hfirst hc]
    rcases h with rfl | h
    · exact (List.prefix_append _ _).isInfix
    · exact (ih h).trans ⟨f first ++ [c], [], by simp⟩

theorem first_word (sep : α → Bool) (text : List α) : ∃ word, IsWord sep word ∧
    (text = word ∨ ∃ c rest, sep c = true ∧ text = word ++ c :: rest) := by
  induction text using @word_induction α sep with
  | hword text htext => exact ⟨text, htext, Or.inl rfl⟩
  | hstep first c rest hfirst hc _ => exact ⟨first, hfirst, Or.inr ⟨c, rest, hc, rfl⟩⟩

theorem cons_first_word (hc : sep c = false) (text : List α) : ∃ word others,
    words sep text = word :: others ∧ words sep (c :: text) = (c :: word) :: others ∧
      ∀ f : List α → List α, ∃ tail, mapWords sep f text = f word ++ tail ∧
        mapWords sep f (c :: text) = f (c :: word) ++ tail := by
  obtain ⟨word, hword, hsplit⟩ := first_word sep text
  have hlong : IsWord sep (c :: word) := List.forall_mem_cons.mpr ⟨hc, hword⟩
  rcases hsplit with rfl | ⟨d, rest, hd, rfl⟩
  · exact ⟨text, [], words_word hword, words_word hlong,
      fun f => ⟨[], by rw [mapWords_word hword, List.append_nil],
        by rw [mapWords_word hlong, List.append_nil]⟩⟩
  · exact ⟨word, words sep rest, words_append hword hd, words_append hlong hd,
      fun f => ⟨d :: mapWords sep f rest, mapWords_append hword hd, mapWords_append hlong hd⟩⟩

theorem words_cons_sep (hc : sep c = true) (text : List α) :
    words sep (c :: text) = [] :: words sep text :=
  words_append (nofun : IsWord sep []) hc

def pieces (sep : α → Bool) (text : List α) : List (List α) :=
  (words sep text).filter fun word => !word.isEmpty

@[simp]
theorem pieces_nil : pieces sep [] = [] := by
  rfl

/-- A single piece. -/
theorem pieces_word (h : IsWord sep word) (hne : word ≠ []) : pieces sep word = [word] := by
  unfold pieces
  rw [words_word h]
  exact List.filter_eq_self.mpr (by simpa using hne)

theorem pieces_append (hc : sep c = true) (text rest : List α) :
    pieces sep (text ++ c :: rest) = pieces sep text ++ pieces sep rest := by
  induction text using @word_induction α sep with
  | hword text htext =>
    unfold pieces
    rw [words_append htext hc, words_word htext, ← List.filter_append]
    rfl
  | hstep first d last hfirst hd ih =>
    have hstep : ∀ last : List α, pieces sep (first ++ d :: last) =
        [first].filter (fun word => !word.isEmpty) ++ pieces sep last := by
      intro last
      unfold pieces
      rw [words_append hfirst hd, ← List.filter_append]
      rfl
    rw [List.append_assoc, List.cons_append, hstep, hstep, ih, List.append_assoc]

/-- Only separators have no pieces. -/
theorem pieces_eq_nil_iff : pieces sep text = [] ↔ ∀ c ∈ text, sep c = true := by
  induction text using @word_induction α sep with
  | hword text htext =>
    cases text with
    | nil => simp
    | cons c text =>
      rw [pieces_word htext (List.cons_ne_nil _ _)]
      constructor
      · intro h
        exact absurd h (List.cons_ne_nil _ _)
      · intro h
        have hword := htext c List.mem_cons_self
        rw [h c List.mem_cons_self] at hword
        cases hword
  | hstep first d last hfirst hd ih =>
    rw [pieces_append hd, List.append_eq_nil_iff, ih]
    constructor
    · rintro ⟨hnil, hlast⟩ c hc
      have hempty : first = [] := by
        by_contra hne
        rw [pieces_word hfirst hne] at hnil
        exact absurd hnil (List.cons_ne_nil _ _)
      rw [hempty, List.nil_append, List.mem_cons] at hc
      rcases hc with rfl | hc
      · exact hd
      · exact hlast c hc
    · intro h
      constructor
      · have hempty : first = [] := by
          refine List.eq_nil_iff_forall_not_mem.mpr fun c hc => ?_
          have hword := hfirst c hc
          rw [h c (List.mem_append_left _ hc)] at hword
          cases hword
        rw [hempty, pieces_nil]
      · exact fun c hc => h c (List.mem_append_right _ (List.mem_cons_of_mem _ hc))

theorem isWord_of_mem_pieces (h : word ∈ pieces sep text) : IsWord sep word ∧ word ≠ [] := by
  obtain ⟨hword, hne⟩ := List.mem_filter.mp h
  refine ⟨isWord_of_mem hword, ?_⟩
  rintro rfl
  cases hne

theorem pieces_intercalate (hc : sep c = true) {parts : List (List α)}
    (hparts : ∀ part ∈ parts, IsWord sep part ∧ part ≠ []) :
    pieces sep ([c].intercalate parts) = parts := by
  induction parts with
  | nil => exact pieces_nil
  | cons part parts ih =>
    rw [List.forall_mem_cons] at hparts
    cases parts with
    | nil =>
      rw [List.intercalate_singleton]
      exact pieces_word hparts.1.1 hparts.1.2
    | cons next parts =>
      rw [List.intercalate_cons_cons, List.append_assoc, List.singleton_append, pieces_append hc,
        pieces_word hparts.1.1 hparts.1.2, ih hparts.2]
      rfl

/-! ### Replacing -/

variable [DecidableEq α] {old new : List α}

def replaceFrom (old new : List α) : Nat → List α → List α
  | _, [] => []
  | skipped + 1, _ :: text => replaceFrom old new skipped text
  | 0, c :: text =>
    if old.isPrefixOf (c :: text) then new ++ replaceFrom old new (old.length - 1) text
    else c :: replaceFrom old new 0 text

def replaceAll (old new text : List α) : List α :=
  if old = [] then new ++ text.flatMap fun c => c :: new else replaceFrom old new 0 text

theorem replaceFrom_of_not_infix (h : ¬old <:+: text) : replaceFrom old new 0 text = text := by
  induction text with
  | nil => rfl
  | cons c text ih =>
    have hhead : old.isPrefixOf (c :: text) = false := by
      rw [← Bool.not_eq_true, List.isPrefixOf_iff_prefix]
      exact fun hprefix => h hprefix.isInfix
    rw [replaceFrom, hhead, if_neg Bool.false_ne_true,
      ih fun hin => h (hin.trans (List.suffix_cons c text).isInfix)]

theorem replaceAll_of_absent (h : ¬old <:+: text) : replaceAll old new text = text := by
  have hne : old ≠ [] := by
    rintro rfl
    exact h List.nil_infix
  rw [replaceAll, if_neg hne, replaceFrom_of_not_infix h]

theorem replaceFrom_drop {skipped : Nat} (h : text.length ≤ skipped) :
    replaceFrom old new skipped text = [] := by
  induction text generalizing skipped with
  | nil => rfl
  | cons c text ih =>
    cases skipped with
    | zero => exact absurd h (by simp)
    | succ skipped => exact ih (Nat.le_of_succ_le_succ h)

theorem replaceAll_self (hne : old ≠ []) : replaceAll old new old = new := by
  rw [replaceAll, if_neg hne]
  cases old with
  | nil => exact absurd rfl hne
  | cons c old =>
    have hhead : (c :: old).isPrefixOf (c :: old) = true := by
      rw [List.isPrefixOf_iff_prefix]
    rw [replaceFrom, hhead, if_pos rfl, replaceFrom_drop (by simp), List.append_nil]

theorem isPrefixOf_append (hold : IsWord sep old) (hc : sep c = true) :
    old.isPrefixOf (word ++ c :: rest) = old.isPrefixOf word := by
  rw [Bool.eq_iff_iff, List.isPrefixOf_iff_prefix, List.isPrefixOf_iff_prefix]
  constructor
  · rintro ⟨behind, hsplit⟩
    rcases List.append_eq_append_iff.mp hsplit with ⟨last, rfl, -⟩ | ⟨last, rfl, hlast⟩
    · exact List.prefix_append _ _
    · cases last with
      | nil => rw [List.append_nil]
      | cons d last =>
        rw [List.cons_append, List.cons.injEq] at hlast
        have hd : sep d = false := hold d (List.mem_append_right _ List.mem_cons_self)
        rw [← hlast.1, hc] at hd
        exact absurd hd (by decide)
  · exact fun h => h.trans (List.prefix_append _ _)

theorem replaceFrom_append (hold : IsWord sep old) (hne : old ≠ []) (hc : sep c = true)
    {skipped : Nat} (hskipped : skipped ≤ word.length) :
    replaceFrom old new skipped (word ++ c :: rest) =
      replaceFrom old new skipped word ++ c :: replaceFrom old new 0 rest := by
  induction word generalizing skipped with
  | nil =>
    have hnone : old.isPrefixOf (c :: rest) = false := by
      have hempty : old.isPrefixOf ([] ++ c :: rest) = old.isPrefixOf [] :=
        isPrefixOf_append hold hc
      rw [List.nil_append] at hempty
      rw [hempty]
      cases old with
      | nil => exact absurd rfl hne
      | cons d old => rfl
    cases skipped with
    | succ skipped => exact absurd hskipped (by simp)
    | zero =>
      simp only [List.nil_append, replaceFrom, hnone, Bool.false_eq_true, if_false]
  | cons d word ih =>
    cases skipped with
    | succ skipped => exact ih (Nat.le_of_succ_le_succ hskipped)
    | zero =>
      have hhead : old.isPrefixOf (d :: word ++ c :: rest) = old.isPrefixOf (d :: word) :=
        isPrefixOf_append hold hc
      rw [List.cons_append] at hhead ⊢
      rw [replaceFrom, hhead, replaceFrom]
      split_ifs with hfound
      · have hlength := (List.isPrefixOf_iff_prefix.mp hfound).length_le
        rw [ih (by simp only [List.length_cons] at hlength; omega), List.append_assoc]
      · rw [ih (Nat.zero_le _), List.cons_append]

theorem replaceAll_append (hold : IsWord sep old) (hne : old ≠ []) (hc : sep c = true) :
    replaceAll old new (text ++ c :: rest) =
      replaceAll old new text ++ c :: replaceAll old new rest := by
  simp only [replaceAll, if_neg hne]
  exact replaceFrom_append hold hne hc (Nat.zero_le _)

def substitute (table : List (List α × List α)) (text : List α) : List α :=
  table.foldl (fun text entry => replaceAll entry.1 entry.2 text) text

def assign : List (List α × List α) → List α → List α
  | [], word => word
  | entry :: table, word => if word = entry.1 then entry.2 else assign table word

variable {table : List (List α × List α)}

/-- A table that searches words. -/
def Searches (sep : α → Bool) (table : List (List α × List α)) : Prop :=
  ∀ entry ∈ table, IsWord sep entry.1 ∧ entry.1 ≠ []

theorem substitute_of_free (h : ∀ entry ∈ table, ¬entry.1 <:+: text) :
    substitute table text = text := by
  induction table with
  | nil => rfl
  | cons entry table ih =>
    show substitute table (replaceAll entry.1 entry.2 text) = text
    rw [replaceAll_of_absent (h entry List.mem_cons_self),
      ih fun other hother => h other (List.mem_cons_of_mem _ hother)]

theorem substitute_word (hne : ∀ entry ∈ table, entry.1 ≠ [])
    (hwhole : ∀ entry ∈ table, entry.1 <:+: word → entry.1 = word)
    (hsettled : ∀ entry ∈ table, entry.1 = word → ∀ other ∈ table, ¬other.1 <:+: entry.2) :
    substitute table word = assign table word := by
  induction table with
  | nil => rfl
  | cons entry table ih =>
    have hmem : entry ∈ entry :: table := List.mem_cons_self
    show substitute table (replaceAll entry.1 entry.2 word) = _
    rw [assign]
    split_ifs with hself
    · rw [hself, replaceAll_self (hne entry hmem)]
      exact substitute_of_free fun other hother =>
        hsettled entry hmem hself.symm other (List.mem_cons_of_mem _ hother)
    · rw [replaceAll_of_absent fun hin => hself (hwhole entry hmem hin).symm]
      exact ih (fun other hother => hne other (List.mem_cons_of_mem _ hother))
        (fun other hother => hwhole other (List.mem_cons_of_mem _ hother))
        (fun other hother hsame last hlast => hsettled other (List.mem_cons_of_mem _ hother) hsame
          last (List.mem_cons_of_mem _ hlast))

theorem substitute_append (hsearches : Searches sep table) (hc : sep c = true) :
    substitute table (text ++ c :: rest) = substitute table text ++ c :: substitute table rest := by
  induction table generalizing text rest with
  | nil => rfl
  | cons entry table ih =>
    obtain ⟨hentry, hne⟩ := hsearches entry List.mem_cons_self
    show substitute table (replaceAll entry.1 entry.2 _) = _
    rw [replaceAll_append hentry hne hc]
    exact ih fun other hother => hsearches other (List.mem_cons_of_mem _ hother)

theorem substitute_eq_mapWords (hsearches : Searches sep table) :
    substitute table text = mapWords sep (substitute table) text := by
  induction text using @word_induction α sep with
  | hword text htext => rw [mapWords_word htext]
  | hstep first c rest hfirst hc ih =>
    rw [substitute_append hsearches hc, mapWords_append hfirst hc, ← ih]

end ProofOps.Foundation.Words
