import ProofOps.Application.Ingest.DisplayText

/-!
# What joining leaves alone

The offset maps of a joined text are inverse to each other, and a located quote is a raw slice without
the removed spaces.  No unit is formed or cut by removed spaces.  A space beside a unit stays where the
unit is contiguous; beside a unit that spaces split, `join_allowed` looks at its first or last fragment
only, and the space may go (`protected_iff`).
-/

namespace ProofOps.Application.Ingest.DisplayProtection

open Foundation Foundation.Checked Foundation.PyText Foundation.Scattered Foundation.Thinning DisplayText

variable {raw : List Char} {deleted : List Nat} {mapping : DisplayAlignment}

/-! ### The maps -/

def aligned (raw : List Char) (deleted : List Nat) : DisplayAlignment :=
  ⟨raw, thin deleted raw, 0 :: (kept deleted raw.length).map (· + 1)⟩

theorem displayAlignment_ok_iff :
    displayAlignment raw deleted = .ok mapping ↔
      deleted.Pairwise (fun first second => first < second) ∧
        (∀ offset ∈ deleted, Joinable raw offset) ∧ mapping = aligned raw deleted := by
  constructor
  · intro h
    obtain ⟨_, hchecks, h⟩ := bind_ok h
    cases pure_ok h
    rw [refuse_ok_iff, not_or, Classical.not_not] at hchecks
    refine ⟨hchecks.1, fun offset hoffset => ?_, rfl⟩
    by_contra hnot
    refine hchecks.2 (List.any_eq_true.mpr ⟨offset, hoffset, ?_⟩)
    rw [Bool.not_eq_true', Bool.eq_false_iff]
    exact fun hallowed => hnot (joinAllowed_iff.mp hallowed)
  · rintro ⟨hsorted, hjoinable, rfl⟩
    refine bind_ok_iff.mpr ⟨(), refuse_ok_iff.mpr ?_, rfl⟩
    rintro (hnot | hany)
    · exact hnot hsorted
    · obtain ⟨offset, hoffset, hnot⟩ := List.any_eq_true.mp hany
      rw [joinAllowed_iff.mpr (hjoinable offset hoffset)] at hnot
      cases hnot

theorem boundary_succ {index : Nat} (h : index < (kept deleted raw.length).length) :
    (aligned raw deleted).rawBoundaries.getD (index + 1) 0 = position deleted raw.length index + 1 := by
  show (0 :: (kept deleted raw.length).map (· + 1)).getD (index + 1) 0 = _
  rw [List.getD_cons_succ, List.getD_eq_getElem?_getD, List.getElem?_map,
    List.getElem?_eq_getElem h, position_eq h]
  rfl

variable {start stop first last : Nat}

theorem rawSpan_ok_iff :
    (aligned raw deleted).rawSpan start stop = .ok (first, last) ↔
      start < stop ∧ stop ≤ (kept deleted raw.length).length ∧
        position deleted raw.length start = first ∧
        position deleted raw.length (stop - 1) + 1 = last := by
  have hlength : (aligned raw deleted).text.length = (kept deleted raw.length).length :=
    thin_length deleted raw
  unfold DisplayAlignment.rawSpan
  rw [hlength]
  have hvalues : start < stop → stop ≤ (kept deleted raw.length).length →
      (aligned raw deleted).rawBoundaries.getD (start + 1) 0 - 1 = position deleted raw.length start ∧
        (aligned raw deleted).rawBoundaries.getD stop 0 = position deleted raw.length (stop - 1) + 1 := by
    intro hlt hle
    constructor
    · rw [boundary_succ (by omega), Nat.add_sub_cancel]
    · have hstop := @boundary_succ raw deleted (stop - 1) (by omega)
      rwa [Nat.sub_add_cancel (by omega)] at hstop
  constructor
  · intro h
    obtain ⟨_, hbounds, h⟩ := bind_ok h
    have hrange := Classical.not_not.mp (refuse_ok_iff.mp hbounds)
    obtain ⟨hfirst, hlast⟩ := hvalues hrange.1 hrange.2
    have hpair := pure_ok h
    rw [hfirst, hlast, Prod.mk.injEq] at hpair
    exact ⟨hrange.1, hrange.2, hpair.1, hpair.2⟩
  · rintro ⟨hlt, hle, rfl, rfl⟩
    obtain ⟨hfirst, hlast⟩ := hvalues hlt hle
    refine bind_ok_iff.mpr ⟨(), refuse_ok_iff.mpr (Classical.not_not.mpr ⟨hlt, hle⟩), ?_⟩
    rw [hfirst, hlast]
    rfl

theorem selectedSpan_ok_iff :
    (aligned raw deleted).selectedSpan first last = .ok (start, stop) ↔
      start < stop ∧ stop ≤ (kept deleted raw.length).length ∧
        position deleted raw.length start = first ∧
        position deleted raw.length (stop - 1) + 1 = last := by
  have htail : (aligned raw deleted).rawBoundaries.tail = (kept deleted raw.length).map (· + 1) := rfl
  have hraw : (aligned raw deleted).raw = raw := rfl
  unfold DisplayAlignment.selectedSpan
  rw [htail, hraw]
  constructor
  · intro h
    obtain ⟨_, hbounds, h⟩ := bind_ok h
    have hrange := Classical.not_not.mp (refuse_ok_iff.mp hbounds)
    split at h
    · rename_i index final hindex hfinal
      obtain ⟨rfl, rfl⟩ := Prod.mk.inj (Except.ok.inj h)
      obtain ⟨last, rfl⟩ := Nat.exists_eq_succ_of_ne_zero (by omega : last ≠ 0)
      obtain ⟨hsize, hfirst⟩ := idxOf?_succ_eq_some.mp hindex
      obtain ⟨hsize', hlast⟩ := idxOf?_succ_eq_some.mp hfinal
      refine ⟨?_, hsize', hfirst, by rw [Nat.add_sub_cancel, hlast]⟩
      by_contra hnot
      have := @position_lt deleted raw.length _ _ (by omega : final < index) hsize
      omega
    · cases h
  · rintro ⟨hlt, hle, rfl, rfl⟩
    have hfirst := (@idxOf?_succ_eq_some deleted raw.length _ start).mpr ⟨by omega, rfl⟩
    have hlast := (@idxOf?_succ_eq_some deleted raw.length _ (stop - 1)).mpr ⟨by omega, rfl⟩
    have hle' := @position_le deleted raw.length _ _ (by omega : start ≤ stop - 1) (by omega)
    have hinside := (@position_mem deleted raw.length (stop - 1) (by omega)).1
    refine bind_ok_iff.mpr ⟨(), refuse_ok_iff.mpr (Classical.not_not.mpr ⟨by omega, hinside⟩), ?_⟩
    rw [hfirst, hlast]
    dsimp only
    rw [Nat.sub_add_cancel (by omega)]

theorem rawSpan_iff_selectedSpan :
    (aligned raw deleted).rawSpan start stop = .ok (first, last) ↔
      (aligned raw deleted).selectedSpan first last = .ok (start, stop) :=
  rawSpan_ok_iff.trans selectedSpan_ok_iff.symm

/-- What is left of a raw range. -/
def leftOf (raw : List Char) (deleted : List Nat) (start stop : Nat) : List Char :=
  ((List.range' start (stop - start)).filter fun index => index ∉ deleted).filterMap
    fun index => raw[index]?

theorem slice_eq_leftOf (hlt : start < stop) (hstop : stop ≤ (kept deleted raw.length).length) :
    ((thin deleted raw).take stop).drop start =
      leftOf raw deleted (position deleted raw.length start)
        (position deleted raw.length (stop - 1) + 1) := by
  rw [thin_slice, kept_slice hlt hstop]
  rfl

theorem slice_of_place {quote text : List Char} (h : start ∈ placesOf quote text) :
    start + quote.length ≤ text.length ∧ (text.drop start).take quote.length = quote := by
  obtain ⟨hrange, hmatch⟩ := List.mem_filter.mp h
  have hpre := List.isPrefixOf_iff_prefix.mp hmatch
  have hle := hpre.length_le
  rw [List.length_drop] at hle
  rw [List.mem_range] at hrange
  exact ⟨by omega, (List.prefix_iff_eq_take.mp hpre).symm⟩

theorem locateDisplay_ok {quote literal : List Char}
    (h : locateDisplay quote (aligned raw deleted) = .ok (first, last, literal)) :
    ∃ start, placesOf quote (thin deleted raw) = [start] ∧
      (aligned raw deleted).selectedSpan first last = .ok (start, start + quote.length) ∧
      literal = (raw.take last).drop first ∧ leftOf raw deleted first last = quote := by
  unfold locateDisplay at h
  split at h
  · cases h
  · split at h
    · rename_i start hplaces
      obtain ⟨⟨low, high⟩, hspan, h⟩ := bind_ok h
      have hvalues := pure_ok h
      obtain ⟨rfl, rfl, rfl⟩ := hvalues
      have hplaces' : placesOf quote (thin deleted raw) = [start] := hplaces
      have hmem : start ∈ placesOf quote (thin deleted raw) := by
        rw [hplaces']
        exact List.mem_singleton_self start
      obtain ⟨-, hslice⟩ := slice_of_place hmem
      refine ⟨start, hplaces', rawSpan_iff_selectedSpan.mp hspan, rfl, ?_⟩
      obtain ⟨hlt, hle, rfl, rfl⟩ := rawSpan_ok_iff.mp hspan
      rw [← slice_eq_leftOf hlt hle, List.drop_take, Nat.add_sub_cancel_left, hslice]
    · cases h

/-! ### The words beside a removed space -/

variable {c : Char}

theorem isMark_of_isHangul (h : isHangul c = true) : isMark c = false := by
  rw [Bool.eq_false_iff]
  intro hmark
  have hmem := List.contains_iff_mem.mp hmark
  have hall : ∀ d ∈ ['.', ',', ';', ':', '(', ')', '[', ']', '“', '”', '"', '\'', '•'],
      isHangul d = false := by
    simp only [← Bool.not_eq_true', ← List.all_eq_true]
    decide
  rw [hall c hmem] at h
  cases h

theorem notSpace_of_isHangul (h : isHangul c = true) : notSpace c = true := by
  unfold isHangul at h
  unfold notSpace isSpace
  simp only [Bool.and_eq_true, decide_eq_true_eq] at h
  simp only [Bool.not_eq_true', Bool.or_eq_false_iff, Bool.and_eq_false_imp, decide_eq_true_eq,
    decide_eq_false_iff_not, beq_eq_false_iff_ne]
  omega

variable {word : List Char}

theorem mem_of_stripMarks (hc : c ∈ word) : c ∈ stripMarks word ∨ isMark c = true := by
  rw [← @List.takeWhile_append_dropWhile _ isMark word, List.mem_append] at hc
  rcases hc with hfront | hc
  · exact .inr (List.mem_takeWhile_imp hfront)
  · rw [← @List.rdropWhile_append_rtakeWhile _ isMark (word.dropWhile isMark), List.mem_append] at hc
    rcases hc with hmiddle | hback
    · exact .inl hmiddle
    · exact .inr (List.mem_rtakeWhile_imp hback)

theorem isHangul_or_isMark (h : (stripMarks word).all isHangul = true) (hc : c ∈ word) :
    isHangul c = true ∨ isMark c = true := by
  rcases mem_of_stripMarks hc with hstripped | hmark
  · exact .inl (List.all_eq_true.mp h c hstripped)
  · exact .inr hmark

structure Joins (left right : List Char) : Prop where
  leftHangul : (stripMarks left).all isHangul = true
  rightHangul : (stripMarks right).all isHangul = true
  leftUnit : stripMarks left ∉ protectedTokens
  rightUnit : stripMarks right ∉ protectedTokens

theorem joins_of_wordsJoin {left right : List Char} (h : wordsJoin left right = true) :
    Joins left right := by
  unfold wordsJoin at h
  simp only [Bool.and_eq_true, decide_eq_true_eq] at h
  exact ⟨h.1.1.1.1.1.2, h.1.1.1.2, h.1.1.2, h.1.2⟩

theorem leftWord_of_isHangul {front : List Char} (hlast : front.getLast? = some c)
    (hc : isHangul c = true) : leftWord front = front.rtakeWhile notSpace := by
  unfold leftWord
  rw [if_pos]
  intro hempty
  rw [List.rtakeWhile_eq_nil_iff] at hempty
  obtain ⟨hne, rfl⟩ := List.mem_getLast?_eq_getLast hlast
  exact hempty hne (notSpace_of_isHangul hc)

variable {offset : Nat}

theorem leftWord_of_joinable (h : Joinable raw offset) :
    leftWord (raw.take offset) = (raw.take offset).rtakeWhile notSpace := by
  obtain ⟨c, hget, hc⟩ := h.left
  refine leftWord_of_isHangul ?_ hc
  have hinside := h.inside
  have hpos := h.pos
  rw [List.getLast?_eq_getElem?, List.length_take, Nat.min_eq_left (by omega),
    List.getElem?_take_of_lt (by omega), hget]

theorem word_beside (h : Joinable raw offset)
    (hc : c ∈ (raw.take offset).rtakeWhile notSpace ∨ c ∈ (raw.drop (offset + 1)).takeWhile notSpace)
    : isHangul c = true ∨ isMark c = true := by
  have hjoins := joins_of_wordsJoin h.words
  rcases hc with hleft | hright
  · rw [← leftWord_of_joinable h] at hleft
    exact isHangul_or_isMark hjoins.leftHangul hleft
  · exact isHangul_or_isMark hjoins.rightHangul hright

/-! ### Units beside a removed space -/

theorem rdropWhile_append_word {p : Char → Bool} (hne : word ≠ [])
    (hword : ∀ c ∈ word, p c = false) (back : List Char) :
    (word ++ back).rdropWhile p = word ++ back.rdropWhile p := by
  induction back using List.reverseRecOn with
  | nil =>
    rw [List.append_nil, List.rdropWhile_nil, List.append_nil, List.rdropWhile_eq_self_iff]
    intro _
    rw [hword _ (List.getLast_mem hne)]
    exact Bool.false_ne_true
  | append_singleton back c ih =>
    rw [← List.append_assoc, List.rdropWhile_concat, List.rdropWhile_concat]
    split_ifs with hc
    · exact ih
    · rw [List.append_assoc]

theorem dropWhile_append_word {p : Char → Bool} (hword : ∀ c ∈ word, p c = false)
    (front : List Char) : (front ++ word).dropWhile p = front.dropWhile p ++ word := by
  have hwhole : word.dropWhile p = word := by
    cases word with
    | nil => rfl
    | cons c rest =>
      rw [List.dropWhile_cons_of_neg]
      rw [hword c List.mem_cons_self]
      exact Bool.false_ne_true
  rw [List.dropWhile_append, hwhole]
  split_ifs with hempty
  · rw [List.isEmpty_iff.mp hempty, List.nil_append]
  · rfl

variable {token : List Char}

theorem not_isMark_of_token (htoken : token ∈ protectedTokens) :
    ∀ c ∈ token, isMark c = false :=
  fun c hc => isMark_of_isHangul (protectedTokens_hangul token htoken c hc)

theorem stripMarks_of_unit_front {back : List Char} (htoken : token ∈ protectedTokens)
    (hback : ∀ c, back.head? = some c → isHangul c = false)
    (hall : (stripMarks (token ++ back)).all isHangul = true) :
    stripMarks (token ++ back) = token := by
  have hmarks := not_isMark_of_token htoken
  have hne := protectedTokens_ne_nil token htoken
  have hstart : (token ++ back).dropWhile isMark = token ++ back := by
    cases token with
    | nil => exact absurd rfl hne
    | cons c rest =>
      rw [List.cons_append, List.dropWhile_cons_of_neg]
      rw [hmarks c List.mem_cons_self]
      exact Bool.false_ne_true
  have hstrip : stripMarks (token ++ back) = token ++ back.rdropWhile isMark := by
    unfold stripMarks
    rw [hstart, rdropWhile_append_word hne hmarks]
  rw [hstrip] at hall ⊢
  cases hrest : back.rdropWhile isMark with
  | nil => rw [List.append_nil]
  | cons c rest =>
    obtain ⟨tail, htail⟩ := @List.rdropWhile_prefix _ isMark back
    rw [hrest] at htail hall
    have hfirst := hback c (by rw [← htail]; rfl)
    have hsyllable := List.all_eq_true.mp hall c
      (List.mem_append_right _ List.mem_cons_self)
    rw [hfirst] at hsyllable
    cases hsyllable

theorem stripMarks_of_unit_back {front : List Char} (htoken : token ∈ protectedTokens)
    (hfront : ∀ c, front.getLast? = some c → isHangul c = false)
    (hall : (stripMarks (front ++ token)).all isHangul = true) :
    stripMarks (front ++ token) = token := by
  have hmarks := not_isMark_of_token htoken
  have hne := protectedTokens_ne_nil token htoken
  have hstrip : stripMarks (front ++ token) = front.dropWhile isMark ++ token := by
    unfold stripMarks
    rw [dropWhile_append_word hmarks, List.rdropWhile_eq_self_iff]
    intro hwhole
    rw [List.getLast_append_of_ne_nil _ hne, hmarks _ (List.getLast_mem hne)]
    exact Bool.false_ne_true
  rw [hstrip] at hall ⊢
  rcases List.eq_nil_or_concat (front.dropWhile isMark) with hnil | ⟨rest, c, hrest⟩
  · rw [hnil, List.nil_append]
  · obtain ⟨head, hhead⟩ := @List.dropWhile_suffix _ front isMark
    rw [List.concat_eq_append] at hrest
    rw [hrest] at hhead hall
    have hlast := hfront c (by
      rw [← hhead, ← List.append_assoc, List.getLast?_concat])
    have hsyllable := List.all_eq_true.mp hall c (by simp)
    rw [hlast] at hsyllable
    cases hsyllable

structure UnitRun (token chars : List Char) (start : Nat) : Prop where
  stands : (chars.drop start).take token.length = token
  inside : start + token.length ≤ chars.length
  before : ∀ c, 0 < start → chars[start - 1]? = some c → isHangul c = false
  behind : ∀ c, chars[start + token.length]? = some c → isHangul c = false

theorem not_before_run (h : Joinable raw offset) (htoken : token ∈ protectedTokens)
    (hrun : UnitRun token raw (offset + 1)) : False := by
  have hjoins := joins_of_wordsJoin h.words
  have hsplit : raw.drop (offset + 1) = token ++ raw.drop (offset + 1 + token.length) := by
    conv_lhs => rw [← List.take_append_drop token.length (raw.drop (offset + 1))]
    rw [hrun.stands, List.drop_drop]
  have hword : rightWord (raw.drop (offset + 1)) =
      token ++ (raw.drop (offset + 1 + token.length)).takeWhile notSpace := by
    unfold rightWord
    rw [hsplit, List.takeWhile_append_of_pos]
    exact fun c hc => notSpace_of_isHangul (protectedTokens_hangul token htoken c hc)
  have hall := hjoins.rightHangul
  have hunit := hjoins.rightUnit
  rw [hword] at hall hunit
  rw [stripMarks_of_unit_front htoken ?_ hall] at hunit
  · exact hunit htoken
  · intro c hc
    refine hrun.behind c ?_
    rw [← List.head?_drop]
    cases hrest : raw.drop (offset + 1 + token.length) with
    | nil => rw [hrest] at hc; cases hc
    | cons d rest =>
      rw [hrest, List.takeWhile_cons] at hc
      split at hc
      · exact hc
      · cases hc

/-- Nor right behind one. -/
theorem not_behind_run (h : Joinable raw (start + token.length)) (htoken : token ∈ protectedTokens)
    (hrun : UnitRun token raw start) : False := by
  have hjoins := joins_of_wordsJoin h.words
  have hsplit : raw.take (start + token.length) = raw.take start ++ token := by
    rw [List.take_add, hrun.stands]
  have hword : leftWord (raw.take (start + token.length)) =
      (raw.take start).rtakeWhile notSpace ++ token := by
    rw [leftWord_of_joinable h, hsplit]
    unfold List.rtakeWhile
    rw [List.reverse_append, List.takeWhile_append_of_pos, List.reverse_append, List.reverse_reverse]
    intro c hc
    exact notSpace_of_isHangul (protectedTokens_hangul token htoken c (List.mem_reverse.mp hc))
  have hall := hjoins.leftHangul
  have hunit := hjoins.leftUnit
  rw [hword] at hall hunit
  rw [stripMarks_of_unit_back htoken ?_ hall] at hunit
  · exact hunit htoken
  · intro c hc
    have hle : start ≤ raw.length := by
      have := hrun.inside
      omega
    have hlast : (raw.take start).getLast? = some c := by
      obtain ⟨front, hfront⟩ := @List.rtakeWhile_suffix _ notSpace (raw.take start)
      rcases List.eq_nil_or_concat ((raw.take start).rtakeWhile notSpace) with hnil | ⟨word, d, hword⟩
      · rw [hnil] at hc
        cases hc
      · rw [List.concat_eq_append] at hword
        rw [hword, List.getLast?_concat] at hc
        rw [← hfront, hword, ← List.append_assoc, List.getLast?_concat, hc]
    rw [List.getLast?_eq_getElem?, List.length_take, Nat.min_eq_left hle] at hlast
    cases start with
    | zero => rw [List.take_zero] at hlast; cases hlast
    | succ start =>
      rw [List.getElem?_take_of_lt (by omega)] at hlast
      exact hrun.before c (Nat.succ_pos start) hlast

theorem run_of_occurs (h : Occurs ' ' isHangul token raw start stop)
    (hlength : stop - start ≤ token.length) :
    stop = start + token.length ∧ UnitRun token raw start := by
  have hslice : ((raw.take stop).drop start).length = stop - start := by
    rw [List.length_drop, List.length_take, Nat.min_eq_left h.inside]
  have heq := h.spread.eq_of_length (by rw [hslice]; exact hlength)
  rw [heq] at hslice
  have hordered := h.ordered
  have hstop : stop = start + token.length := by omega
  subst hstop
  refine ⟨rfl, ?_, h.inside, h.before, h.behind⟩
  rw [List.drop_take, Nat.add_sub_cancel_left] at heq
  exact heq

theorem occurs_of_displayed (hjoinable : ∀ offset ∈ deleted, Joinable raw offset)
    (htoken : token ∈ protectedTokens) (hrun : UnitRun token (thin deleted raw) start) :
    Occurs ' ' isHangul token raw (position deleted raw.length start)
      (position deleted raw.length (start + token.length - 1) + 1) := by
  have hne := protectedTokens_ne_nil token htoken
  have hpos := List.length_pos_iff.mpr hne
  have hinside := hrun.inside
  rw [thin_length] at hinside
  have hspaces : ∀ offset ∈ deleted, raw[offset]? = some ' ' :=
    fun offset hoffset => (hjoinable offset hoffset).space
  have hlast : start + token.length - 1 < (kept deleted raw.length).length := by omega
  have hle := @position_le deleted raw.length _ _ (by omega : start ≤ start + token.length - 1) hlast
  refine ⟨by omega, (position_mem hlast).1, spread_of_thin hspaces hne hinside hrun.stands, ?_, ?_⟩
  · intro c hfirst hc
    by_cases hremoved : position deleted raw.length start - 1 ∈ deleted
    · rw [hspaces _ hremoved, Option.some.injEq] at hc
      rw [← hc]
      exact isHangul_space
    · -- the character before is kept, so it stands before the unit in the display too
      have hsize := (@position_mem deleted raw.length start (by omega)).1
      obtain ⟨place, hplace, heq⟩ := exists_position
        (by omega : position deleted raw.length start - 1 < raw.length) hremoved
      have hnext := @succ_of_position deleted raw.length place start hplace (by omega) (by omega)
      refine hrun.before c (by omega) ?_
      rw [hnext, Nat.add_sub_cancel, thin_getElem? hplace, heq, hc]
  · intro c hc
    by_cases hremoved : position deleted raw.length (start + token.length - 1) + 1 ∈ deleted
    · rw [hspaces _ hremoved, Option.some.injEq] at hc
      rw [← hc]
      exact isHangul_space
    · obtain ⟨hsize, -⟩ := List.getElem?_eq_some_iff.mp hc
      obtain ⟨place, hplace, heq⟩ := exists_position hsize hremoved
      have hnext := @succ_of_position deleted raw.length (start + token.length - 1) place hlast hplace heq
      refine hrun.behind c ?_
      rw [show start + token.length = place by omega, thin_getElem? hplace, heq, hc]

theorem run_of_displayed (hjoinable : ∀ offset ∈ deleted, Joinable raw offset)
    (htoken : token ∈ protectedTokens) (hrun : UnitRun token (thin deleted raw) start) :
    position deleted raw.length (start + token.length - 1) + 1 =
        position deleted raw.length start + token.length ∧
      UnitRun token raw (position deleted raw.length start) := by
  have hpos := List.length_pos_iff.mpr (protectedTokens_ne_nil token htoken)
  have hinside := hrun.inside
  rw [thin_length] at hinside
  have hoccurs := occurs_of_displayed hjoinable htoken hrun
  have hfree : ∀ index ∈ deleted, ¬(position deleted raw.length start < index ∧
      index < position deleted raw.length (start + token.length - 1) + 1) :=
    fun index hindex => (hjoinable index hindex).not_inside htoken hoccurs
  have hlength := position_of_free (by omega : start < start + token.length) hinside hfree
  rw [Nat.add_sub_cancel_left] at hlength
  refine ⟨hlength, (run_of_occurs hoccurs ?_).2⟩
  omega

/-! ### Joining -/

structure BetweenSyllables (raw : List Char) (offset : Nat) : Prop where
  pos : 0 < offset
  space : raw[offset]? = some ' '
  left : ∃ c, raw[offset - 1]? = some c ∧ isHangul c = true
  right : ∃ c, raw[offset + 1]? = some c ∧ isHangul c = true

structure ProtectedJoin (raw : List Char) (deleted : List Nat) (mapping : DisplayAlignment) : Prop where
  source : mapping.raw = raw
  text : mapping.text = thin deleted raw
  spaces : ∀ offset ∈ deleted, BetweenSyllables raw offset
  inverse : ∀ start stop first last,
    mapping.rawSpan start stop = .ok (first, last) ↔ mapping.selectedSpan first last = .ok (start, stop)
  located : ∀ quote first last literal, locateDisplay quote mapping = .ok (first, last, literal) →
    ∃ start, placesOf quote mapping.text = [start] ∧
      mapping.selectedSpan first last = .ok (start, start + quote.length) ∧
      literal = (raw.take last).drop first ∧ leftOf raw deleted first last = quote
  words : ∀ offset ∈ deleted, ∀ c, c ∈ (raw.take offset).rtakeWhile notSpace ∨
    c ∈ (raw.drop (offset + 1)).takeWhile notSpace → isHangul c = true ∨ isMark c = true
  formed : ∀ token ∈ protectedTokens, ∀ start, UnitRun token mapping.text start →
    ∃ place, mapping.rawSpan start (start + token.length) = .ok (place, place + token.length) ∧
      UnitRun token raw place
  units : ∀ token ∈ protectedTokens, ∀ start stop, Occurs ' ' isHangul token raw start stop →
    ∀ offset ∈ deleted, offset + 1 ≠ start ∧ ¬(start < offset ∧ offset < stop) ∧ offset ≠ stop

def ClearOfSplitUnits (raw : List Char) (deleted : List Nat) : Prop :=
  ∀ token ∈ protectedTokens, ∀ place ∈ findAll ' ' isHangul token raw,
    token.length < place.2 - place.1 → ∀ offset ∈ deleted, offset + 1 ≠ place.1 ∧ offset ≠ place.2

instance : Decidable (ClearOfSplitUnits raw deleted) :=
  inferInstanceAs (Decidable (∀ token ∈ protectedTokens, ∀ place ∈ findAll ' ' isHangul token raw,
    token.length < place.2 - place.1 → ∀ offset ∈ deleted, offset + 1 ≠ place.1 ∧ offset ≠ place.2))

theorem mem_findAll_token (htoken : token ∈ protectedTokens) :
    (start, stop) ∈ findAll ' ' isHangul token raw ↔ Occurs ' ' isHangul token raw start stop :=
  mem_findAll isHangul_space (protectedTokens_hangul token htoken)
    (protectedTokens_borderless token htoken)

theorem units_untouched (hjoinable : ∀ offset ∈ deleted, Joinable raw offset)
    (hclear : ClearOfSplitUnits raw deleted) (htoken : token ∈ protectedTokens)
    (hoccurs : Occurs ' ' isHangul token raw start stop) (hoffset : offset ∈ deleted) :
    offset + 1 ≠ start ∧ ¬(start < offset ∧ offset < stop) ∧ offset ≠ stop := by
  have hjoin := hjoinable offset hoffset
  have hinside := hjoin.not_inside htoken hoccurs
  by_cases hsplit : token.length < stop - start
  · obtain ⟨hbefore, hbehind⟩ :=
      hclear token htoken (start, stop) ((mem_findAll_token htoken).mpr hoccurs) hsplit offset hoffset
    exact ⟨hbefore, hinside, hbehind⟩
  · obtain ⟨rfl, hrun⟩ := run_of_occurs hoccurs (Nat.le_of_not_lt hsplit)
    refine ⟨?_, hinside, ?_⟩
    · rintro rfl
      exact not_before_run hjoin htoken hrun
    · rintro rfl
      exact not_behind_run hjoin htoken hrun

/-- Joining keeps off numbers and units exactly where no removed space is beside a split unit. -/
theorem protected_iff (h : displayAlignment raw deleted = .ok mapping) :
    ProtectedJoin raw deleted mapping ↔ ClearOfSplitUnits raw deleted := by
  obtain ⟨-, hjoinable, rfl⟩ := displayAlignment_ok_iff.mp h
  constructor
  · intro hprotected token htoken place hplace _ offset hoffset
    obtain ⟨hbefore, -, hbehind⟩ := hprotected.units token htoken place.1 place.2
      ((mem_findAll_token htoken).mp hplace) offset hoffset
    exact ⟨hbefore, hbehind⟩
  · intro hclear
    refine ⟨rfl, rfl, ?_, fun _ _ _ _ => rawSpan_iff_selectedSpan, fun _ _ _ _ => locateDisplay_ok,
      ?_, ?_, ?_⟩
    · intro offset hoffset
      have hjoin := hjoinable offset hoffset
      exact ⟨hjoin.pos, hjoin.space, hjoin.left, hjoin.right⟩
    · exact fun offset hoffset c hc => word_beside (hjoinable offset hoffset) hc
    · intro token htoken start hrun
      obtain ⟨hlength, hraw⟩ := run_of_displayed hjoinable htoken hrun
      have hpos := List.length_pos_iff.mpr (protectedTokens_ne_nil token htoken)
      have hinside := hrun.inside
      have hsize : (aligned raw deleted).text.length = (kept deleted raw.length).length :=
        thin_length deleted raw
      exact ⟨_, rawSpan_ok_iff.mpr ⟨by omega, by omega, rfl, hlength⟩, hraw⟩
    · intro token htoken start stop hoccurs offset hoffset
      exact units_untouched hjoinable hclear htoken hoccurs hoffset

namespace Sample

def apart : List Char :=
  "환 경 전담 부서".toList

theorem apart_joined : displayAlignment apart [1] = .ok (aligned apart [1]) := by
  decide +kernel

def splitUnit : List Char :=
  "약 킬 로 그 램".toList

theorem splitUnit_joined : displayAlignment splitUnit [1] = .ok (aligned splitUnit [1]) := by
  decide +kernel

end Sample

open Sample

theorem protected_apart : ProtectedJoin apart [1] (aligned apart [1]) :=
  (protected_iff apart_joined).mpr (by decide +kernel)

theorem split_unit_touched :
    (aligned splitUnit [1]).text = "약킬 로 그 램".toList ∧
      ∃ mapping, displayAlignment splitUnit [1] = .ok mapping ∧
        ¬ProtectedJoin splitUnit [1] mapping := by
  refine ⟨by decide +kernel, _, splitUnit_joined, fun hprotected => ?_⟩
  have hmatch : ((2, 9) : Nat × Nat) ∈ findAll ' ' isHangul "킬로그램".toList splitUnit := by
    decide +kernel
  have htoken : "킬로그램".toList ∈ protectedTokens := by
    decide +kernel
  obtain ⟨hbefore, -, -⟩ := hprotected.units _ htoken 2 9 ((mem_findAll_token htoken).mp hmatch) 1
    List.mem_cons_self
  exact hbefore rfl

end ProofOps.Application.Ingest.DisplayProtection
