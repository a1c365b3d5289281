import ProofOps.Adapters.Local.ModelResponses
import ProofOps.Foundation.Machine

/-!
# What a call under way holds

Every phase of a call fixes what its key, its ledger row and its files look like: while a call
works, the pending row of its key is its own marker.  A step of one call leaves alone what
another call rests on, because it changes a pending row only where that row is its own.
-/

namespace ProofOps.Adapters.Local.ModelResponses

open Foundation Foundation.Table Foundation.Machine

section Invariants

variable {rules : Rules} {calls : Nat → CallInfo} {state : State}

def Made (rules : Rules) (calls : Nat → CallInfo) (state : State) (key content : String) : Prop :=
  ∃ maker attempt file, maker ∈ state.provider ∧ keyOf rules calls maker = key ∧
    state.files.find ((calls maker).ledger, (calls maker).requestId, attempt) = some file ∧
    file.data.content = some content

structure Published (rules : Rules) (calls : Nat → CallInfo) (state : State) (key : String)
    (result : Result) : Prop where
  row : ∃ requestId, state.cache.find key = some
    { key := key, place := .origin key, requestId := requestId
      payload := some (result, rules.resultHash result) }
  verified : ∃ original, readOriginal rules state (.origin key) "" = some original ∧
    Agrees rules key result original
  made : Made rules calls state key result.content

structure Frame (calls : Nat → CallInfo) (id : Nat) (state after : State) : Prop where
  phases : ∀ other, other ≠ id → after.phases other = state.phases other
  cache : ∀ key row, state.cache.find key = some row →
    row.payload ≠ none ∨ row.requestId ≠ (calls id).requestId → after.cache.find key = some row
  ledgers : ∀ key, key ≠ ledgerKey calls id → after.ledgers.find key = state.ledgers.find key
  files : ∀ key file, state.files.find key = some file → after.files.find key = some file
  origins : ∀ key origin, state.origins.find key = some origin →
    after.origins.find key = some origin
  provider : ∀ other, other ∈ state.provider → other ∈ after.provider
  sender : ∀ other, other ≠ id → other ∈ after.provider → other ∈ state.provider

variable {id : Nat} {after : State} {key : String}

theorem Made.frame {content : String} (h : Made rules calls state key content)
    (hframe : Frame calls id state after) : Made rules calls after key content := by
  obtain ⟨maker, attempt, file, hmaker, hkey, hfile, hcontent⟩ := h
  exact ⟨maker, attempt, file, hframe.provider maker hmaker, hkey, hframe.files _ _ hfile, hcontent⟩

theorem readOriginal_frame {requestId : String} {original : Original}
    (h : readOriginal rules state (.origin key) requestId = some original)
    (hframe : Frame calls id state after) :
    readOriginal rules after (.origin key) requestId = some original := by
  obtain ⟨origin, horigin, h⟩ := Option.bind_eq_some_iff.mp h
  exact Option.bind_eq_some_iff.mpr ⟨origin, hframe.origins _ _ horigin, h⟩

theorem Published.frame {result : Result} (h : Published rules calls state key result)
    (hframe : Frame calls id state after) : Published rules calls after key result := by
  obtain ⟨requestId, hrow⟩ := h.row
  obtain ⟨original, horiginal, hagrees⟩ := h.verified
  exact
    { row := ⟨requestId, hframe.cache _ _ hrow (Or.inl (by simp))⟩
      verified := ⟨original, readOriginal_frame horiginal hframe, hagrees⟩
      made := h.made.frame hframe }

/-- A key has one published result. -/
theorem Published.unique {first second : Result} (h : Published rules calls state key first)
    (h' : Published rules calls state key second) : first = second := by
  obtain ⟨one, hone⟩ := h.row
  obtain ⟨other, hother⟩ := h'.row
  rw [hone, Option.some.injEq, CacheRow.mk.injEq, Option.some.injEq, Prod.mk.injEq] at hother
  exact hother.2.2.2.1

/-! ### The phases -/

def Holds (rules : Rules) (calls : Nat → CallInfo) (state : State) (id : Nat) : Prop :=
  state.cache.find (keyOf rules calls id) = some (marker rules calls id)

def Unreserved (calls : Nat → CallInfo) (state : State) (id : Nat) : Prop :=
  state.ledgers.find (ledgerKey calls id) = none

def Open (calls : Nat → CallInfo) (state : State) (id : Nat) : Prop :=
  ∃ row, state.ledgers.find (ledgerKey calls id) = some row ∧ row.receipt = none

def Settled (calls : Nat → CallInfo) (state : State) (id : Nat) (receipt : Receipt) : Prop :=
  ∃ row, state.ledgers.find (ledgerKey calls id) = some row ∧ row.receipt = some receipt

def Answers (rules : Rules) (calls : Nat → CallInfo) (state : State) (id : Nat)
    (content : String) : Prop :=
  id ∈ state.provider ∧ Made rules calls state (keyOf rules calls id) content

variable {other : Nat}

theorem Answers.frame {content : String} (h : Answers rules calls state other content)
    (hframe : Frame calls id state after) :
    Answers rules calls after other content :=
  ⟨hframe.provider other h.1, h.2.frame hframe⟩

def Reuses (rules : Rules) (calls : Nat → CallInfo) (state : State) (id : Nat)
    (result : Result) : Prop :=
  ∃ source receiptSha256, Published rules calls state (keyOf rules calls id) source ∧
    result = reused rules calls id source receiptSha256 ∧
    ∃ row, state.ledgers.find (ledgerKey calls id) = some row ∧ row.committed = "0" ∧
      row.receipt = some result.receipt

def Fits (rules : Rules) (calls : Nat → CallInfo) (state : State) (id : Nat) : Phase → Prop
  | .ready => Unreserved calls state id
  | .hit source _ => Unreserved calls state id ∧
      Published rules calls state (keyOf rules calls id) source
  | .claimed => Holds rules calls state id ∧ Unreserved calls state id
  | .reserved attempts => Holds rules calls state id ∧ Open calls state id ∧
      (attempts = 0 → id ∉ state.provider)
  | .awaiting _ => Holds rules calls state id ∧ Open calls state id ∧ id ∈ state.provider
  | .answered _ data _ => Holds rules calls state id ∧ Open calls state id ∧
      ∃ content, data.content = some content ∧ Answers rules calls state id content
  | .settled result => Holds rules calls state id ∧ Settled calls state id result.receipt ∧
      Answers rules calls state id result.content
  | .stored result => Holds rules calls state id ∧ Settled calls state id result.receipt ∧
      Answers rules calls state id result.content ∧
      ∃ original, readOriginal rules state (.origin (keyOf rules calls id)) "" = some original ∧
        Agrees rules (keyOf rules calls id) result original
  | .failed => Holds rules calls state id
  | .releasing result => Holds rules calls state id ∧ isReleasable calls state id = true ∧
      ∀ made ∈ result, Answers rules calls state id made.content
  | .returned result => Made rules calls state (keyOf rules calls id) result.content ∧
      (id ∈ state.provider ∨ Reuses rules calls state id result)
  | .raised => True
  | .crashed => True

def Accounted (calls : Nat → CallInfo) (state : State) (id : Nat) : Prop :=
  id ∈ state.provider → ∃ row, state.ledgers.find (ledgerKey calls id) = some row ∧
    ∀ receipt, row.receipt = some receipt → receipt.dispatchState ≠ some "never_sent"

def RowsKnown (rules : Rules) (calls : Nat → CallInfo) (state : State) : Prop :=
  ∀ key row, state.cache.find key = some row →
    (∃ id, keyOf rules calls id = key ∧ row = marker rules calls id) ∨
      ∃ result, Published rules calls state key result

/-- What holds in every reachable state. -/
structure Sound (rules : Rules) (calls : Nat → CallInfo) (state : State) : Prop where
  fits : ∀ id, Fits rules calls state id (state.phases id)
  accounted : ∀ id, Accounted calls state id
  known : RowsKnown rules calls state

theorem sound_initial : Sound rules calls State.initial where
  fits := fun _ => rfl
  accounted := fun _ h => absurd h List.not_mem_nil
  known := fun _ _ h => by cases h

theorem Holds.frame (h : Holds rules calls state other) (hframe : Frame calls id state after)
    (hids : (calls other).requestId ≠ (calls id).requestId) : Holds rules calls after other :=
  hframe.cache _ _ h (Or.inr hids)

theorem ledger_frame (hframe : Frame calls id state after)
    (hids : (calls other).requestId ≠ (calls id).requestId) :
    after.ledgers.find (ledgerKey calls other) = state.ledgers.find (ledgerKey calls other) := by
  refine hframe.ledgers _ fun hsame => hids ?_
  exact congrArg Prod.snd hsame

theorem isReleasable_frame (hframe : Frame calls id state after)
    (hids : (calls other).requestId ≠ (calls id).requestId) :
    isReleasable calls after other = isReleasable calls state other := by
  unfold isReleasable
  rw [ledger_frame hframe hids]

variable {phase : Phase}

theorem Fits.frame (h : Fits rules calls state other phase) (hframe : Frame calls id state after)
    (hids : (calls other).requestId ≠ (calls id).requestId) :
    Fits rules calls after other phase := by
  have hother : other ≠ id := fun hsame => hids (by rw [hsame])
  have hledger := ledger_frame hframe hids
  have hholds : Holds rules calls state other → Holds rules calls after other :=
    fun hheld => hheld.frame hframe hids
  cases phase with
  | ready =>
    show after.ledgers.find _ = none
    rw [hledger]
    exact h
  | hit source receiptSha256 =>
    refine ⟨?_, h.2.frame hframe⟩
    show after.ledgers.find _ = none
    rw [hledger]
    exact h.1
  | claimed =>
    refine ⟨hholds h.1, ?_⟩
    show after.ledgers.find _ = none
    rw [hledger]
    exact h.2
  | reserved attempts =>
    obtain ⟨hheld, hopen, hfresh⟩ := h
    refine ⟨hholds hheld, ?_, fun hzero hmem => hfresh hzero (hframe.sender other hother hmem)⟩
    unfold Open
    rw [hledger]
    exact hopen
  | awaiting attempts =>
    obtain ⟨hheld, hopen, hsent⟩ := h
    refine ⟨hholds hheld, ?_, hframe.provider other hsent⟩
    unfold Open
    rw [hledger]
    exact hopen
  | answered attempts data valid =>
    obtain ⟨hheld, hopen, content, hcontent, hmade⟩ := h
    refine ⟨hholds hheld, ?_, content, hcontent, hmade.frame hframe⟩
    unfold Open
    rw [hledger]
    exact hopen
  | settled result =>
    obtain ⟨hheld, hsettled, hmade⟩ := h
    refine ⟨hholds hheld, ?_, hmade.frame hframe⟩
    unfold Settled
    rw [hledger]
    exact hsettled
  | stored result =>
    obtain ⟨hheld, hsettled, hmade, original, horiginal, hagrees⟩ := h
    refine ⟨hholds hheld, ?_, hmade.frame hframe, original,
      readOriginal_frame horiginal hframe, hagrees⟩
    unfold Settled
    rw [hledger]
    exact hsettled
  | failed => exact hholds h
  | releasing result =>
    obtain ⟨hheld, hreleasable, hmade⟩ := h
    refine ⟨hholds hheld, ?_, fun made hmem => (hmade made hmem).frame hframe⟩
    rw [isReleasable_frame hframe hids]
    exact hreleasable
  | returned result =>
    obtain ⟨hmade, hsent | ⟨source, receiptSha256, hpublished, hreused, hrow⟩⟩ := h
    · exact ⟨hmade.frame hframe, Or.inl (hframe.provider other hsent)⟩
    · refine ⟨hmade.frame hframe, Or.inr ⟨source, receiptSha256, hpublished.frame hframe,
        hreused, ?_⟩⟩
      rw [hledger]
      exact hrow
  | raised => trivial
  | crashed => trivial

theorem Accounted.frame (h : Accounted calls state other) (hframe : Frame calls id state after)
    (hids : (calls other).requestId ≠ (calls id).requestId) : Accounted calls after other := by
  intro hsent
  rw [ledger_frame hframe hids]
  exact h (hframe.sender other (fun hsame => hids (by rw [hsame])) hsent)

theorem RowsKnown.frame (h : RowsKnown rules calls state) (hframe : Frame calls id state after)
    (hcache : after.cache = state.cache) : RowsKnown rules calls after := by
  intro key row hrow
  rw [hcache] at hrow
  obtain hmarker | ⟨result, hpublished⟩ := h key row hrow
  · exact Or.inl hmarker
  · exact Or.inr ⟨result, hpublished.frame hframe⟩

structure StepSound (rules : Rules) (calls : Nat → CallInfo) (id : Nat) (state after : State) :
    Prop where
  frame : Frame calls id state after
  fits : Fits rules calls after id (after.phases id)
  accounted : Accounted calls after id
  known : RowsKnown rules calls after

theorem StepSound.sound (h : StepSound rules calls id state after)
    (hsound : Sound rules calls state) (hids : Function.Injective fun id => (calls id).requestId) :
    Sound rules calls after where
  fits := by
    intro other
    by_cases hother : other = id
    · rw [hother]
      exact h.fits
    · rw [h.frame.phases other hother]
      exact (hsound.fits other).frame h.frame fun hsame => hother (hids hsame)
  accounted := by
    intro other
    by_cases hother : other = id
    · rw [hother]
      exact h.accounted
    · exact (hsound.accounted other).frame h.frame fun hsame => hother (hids hsame)
  known := h.known

@[simp]
theorem enter_phases_self (id : Nat) (phase : Phase) : (state.enter id phase).phases id = phase :=
  Function.update_self ..

theorem enter_frame (id : Nat) (phase : Phase) : Frame calls id state (state.enter id phase) where
  phases := fun _ hother => Function.update_of_ne hother ..
  cache := fun _ _ h _ => h
  ledgers := fun _ _ => rfl
  files := fun _ _ h => h
  origins := fun _ _ h => h
  provider := fun _ h => h
  sender := fun _ _ h => h

theorem fits_entered (hafter : after.phases = (state.enter id phase).phases)
    (h : Fits rules calls after id phase) : Fits rules calls after id (after.phases id) := by
  rw [hafter, enter_phases_self]
  exact h

theorem enter_sound (hsound : Sound rules calls state)
    (hfits : Fits rules calls (state.enter id phase) id phase) :
    StepSound rules calls id state (state.enter id phase) where
  frame := enter_frame id phase
  fits := fits_entered rfl hfits
  accounted := hsound.accounted id
  known := hsound.known.frame (enter_frame id phase) rfl

theorem idle_sound (hsound : Sound rules calls state) (id : Nat) :
    StepSound rules calls id state state where
  frame :=
    { phases := fun _ _ => rfl
      cache := fun _ _ h _ => h
      ledgers := fun _ _ => rfl
      files := fun _ _ h => h
      origins := fun _ _ h => h
      provider := fun _ h => h
      sender := fun _ _ h => h }
  fits := hsound.fits id
  accounted := hsound.accounted id
  known := hsound.known

/-! ### The steps -/

theorem verified_published (hsound : Sound rules calls state) {row : CacheRow}
    (hrow : state.cache.find key = some row) {result : Result} {digest : String}
    (hpayload : row.payload = some (result, digest)) : Published rules calls state key result := by
  obtain ⟨id, -, rfl⟩ | ⟨found, hpublished⟩ := hsound.known key row hrow
  · cases hpayload
  · obtain ⟨requestId, hfound⟩ := hpublished.row
    rw [hrow, Option.some.injEq] at hfound
    rw [hfound, Option.some.injEq, Prod.mk.injEq] at hpayload
    rw [← hpayload.1]
    exact hpublished

/-- Looking a key up is sound. -/
theorem look_sound (hsound : Sound rules calls state) (hphase : state.phases id = .ready) :
    StepSound rules calls id state (look rules calls state id) := by
  have hfits := hsound.fits id
  rw [hphase] at hfits
  have hunreserved : Unreserved calls state id := hfits
  unfold look
  split_ifs with hrefused
  · exact enter_sound hsound trivial
  · cases hfound : state.cache.find (keyOf rules calls id) with
    | none =>
      cases hinsert : state.cache.insert? (marker rules calls id) with
      | none => exact idle_sound hsound id
      | some cache =>
        have hframe : Frame calls id state { state.enter id .claimed with cache := cache } :=
          { enter_frame id .claimed with
            cache := fun _ _ hrow _ => find_insert?_of_some hinsert hrow }
        exact
          { frame := hframe
            fits := by
              refine fits_entered rfl ?_
              refine ⟨?_, hunreserved⟩
              exact (find_insert? hinsert _).trans (if_pos rfl)
            accounted := hsound.accounted id
            known := by
              intro key row hrow
              have hmade : cache.find key = some row := hrow
              rw [find_insert? hinsert] at hmade
              split_ifs at hmade with hkey
              · cases hmade
                exact Or.inl ⟨id, hkey, rfl⟩
              · obtain hmarker | ⟨result, hpublished⟩ := hsound.known key row hmade
                · exact Or.inl hmarker
                · exact Or.inr ⟨result, hpublished.frame hframe⟩ }
    | some row =>
      simp only
      cases hpayload : row.payload with
      | none => exact idle_sound hsound id
      | some stored =>
        obtain ⟨result, digest⟩ := stored
        simp only
        cases hverified : verified rules state row.key row.place row.requestId result digest with
        | none => exact enter_sound hsound trivial
        | some receiptSha256 =>
          have hpublished := verified_published hsound hfound hpayload
          exact enter_sound hsound
            ⟨hunreserved, hpublished.frame (enter_frame id (.hit result receiptSha256))⟩

variable {ledgers : Table LedgerRow LedgerRow.key}

theorem ledger_insert_frame {row : LedgerRow} (hkey : row.key = ledgerKey calls id)
    (hinsert : state.ledgers.insert? row = some ledgers) :
    Frame calls id state { state.enter id phase with ledgers := ledgers } :=
  { enter_frame id phase with
    ledgers := by
      intro key hother
      refine (find_insert? hinsert key).trans (if_neg ?_)
      rw [hkey]
      exact fun hsame => hother hsame.symm }

theorem record_sound (hsound : Sound rules calls state) {source : Result} {receiptSha256 : String}
    (hphase : state.phases id = .hit source receiptSha256) :
    StepSound rules calls id state (record rules calls state id source receiptSha256) := by
  have hfits := hsound.fits id
  rw [hphase] at hfits
  obtain ⟨hunreserved, hpublished⟩ := hfits
  unfold record
  dsimp only
  split
  · rename_i ledgers hinsert
    have hframe : Frame calls id state
        { state.enter id (.returned (reused rules calls id source receiptSha256)) with
          ledgers := ledgers } := ledger_insert_frame rfl hinsert
    have hfound := (find_insert? hinsert (ledgerKey calls id)).trans (if_pos rfl)
    have hlasting := hpublished.frame hframe
    exact
      { frame := hframe
        fits := fits_entered rfl ⟨hlasting.made, Or.inr ⟨source, receiptSha256, hlasting, rfl, _, hfound, rfl, rfl⟩⟩
        accounted := by
          intro hsent
          obtain ⟨row, hrow, -⟩ := hsound.accounted id hsent
          rw [hunreserved] at hrow
          cases hrow
        known := hsound.known.frame hframe rfl }
  · exact enter_sound hsound trivial

theorem reserve_sound (hsound : Sound rules calls state) {id : Nat}
    (hphase : state.phases id = .claimed) :
    StepSound rules calls id state (reserve rules calls state id) := by
  have hfits := hsound.fits id
  rw [hphase] at hfits
  obtain ⟨hheld, hunreserved⟩ := hfits
  have hunsent : id ∉ state.provider := by
    intro hsent
    obtain ⟨row, hrow, -⟩ := hsound.accounted id hsent
    rw [hunreserved] at hrow
    cases hrow
  unfold reserve
  split
  · rename_i ledgers hinsert
    have hframe : Frame calls id state { state.enter id (.reserved 0) with ledgers := ledgers } :=
      ledger_insert_frame rfl hinsert
    have hfound := (find_insert? hinsert (ledgerKey calls id)).trans (if_pos rfl)
    exact
      { frame := hframe
        fits := fits_entered rfl ⟨hheld, ⟨_, hfound, rfl⟩, fun _ => hunsent⟩
        accounted := fun hsent => absurd hsent hunsent
        known := hsound.known.frame hframe rfl }
  · exact enter_sound hsound hheld

variable {attempts : Nat}

theorem send_sound (hsound : Sound rules calls state)
    (hphase : state.phases id = .reserved attempts) :
    StepSound rules calls id state (send state id attempts) := by
  have hfits := hsound.fits id
  rw [hphase] at hfits
  obtain ⟨hheld, hopen, -⟩ := hfits
  unfold send
  split_ifs
  · have hframe : Frame calls id state
        { state.enter id (.awaiting attempts) with provider := state.provider ++ [id] } :=
      { enter_frame id (.awaiting attempts) with
        provider := fun _ h => List.mem_append_left _ h
        sender := by
          intro other hother hmem
          rcases List.mem_append.mp hmem with hold | hnew
          · exact hold
          · exact absurd (List.mem_singleton.mp hnew) hother }
    exact
      { frame := hframe
        fits := fits_entered rfl ⟨hheld, hopen, List.mem_append_right _ (List.mem_singleton_self id)⟩
        accounted := by
          intro _
          obtain ⟨row, hrow, hnone⟩ := hopen
          refine ⟨row, hrow, fun receipt hreceipt => ?_⟩
          rw [hnone] at hreceipt
          cases hreceipt
        known := hsound.known.frame hframe rfl }
  · exact idle_sound hsound id

theorem file_frame (phase : Phase) {file : ResponseFile}
    {files : Table ResponseFile ResponseFile.key} (hinsert : state.files.insert? file = some files)
    :
    Frame calls id state { state.enter id phase with files := files } :=
  { enter_frame id phase with files := fun _ _ h => find_insert?_of_some hinsert h }

/-- A reply is sound: its file is new. -/
theorem reply_sound (hsound : Sound rules calls state) {data : Data} {valid : Bool}
    (hphase : state.phases id = .awaiting attempts) :
    StepSound rules calls id state (reply calls state id attempts data valid) := by
  have hfits := hsound.fits id
  rw [hphase] at hfits
  obtain ⟨hheld, hopen, hsent⟩ := hfits
  unfold reply
  split
  · exact enter_sound hsound hheld
  · rename_i files hinsert
    have hfound := (find_insert? hinsert
      ((calls id).ledger, (calls id).requestId, attempts)).trans (if_pos rfl)
    split_ifs with hempty hlast
    · exact
        { frame := file_frame _ hinsert
          fits := fits_entered rfl hheld
          accounted := hsound.accounted id
          known := hsound.known.frame (file_frame .failed hinsert) rfl }
    · obtain ⟨content, hcontent⟩ := Option.ne_none_iff_exists'.mp hempty
      exact
        { frame := file_frame _ hinsert
          fits := fits_entered rfl ⟨hheld, hopen, content, hcontent, hsent, id, attempts, _, hsent, rfl, hfound,
              hcontent⟩
          accounted := hsound.accounted id
          known := hsound.known.frame
            (file_frame (.answered (attempts + 1) data valid) hinsert) rfl }
    · exact
        { frame := file_frame _ hinsert
          fits := fits_entered rfl ⟨hheld, hopen, fun hzero => absurd hzero (Nat.succ_ne_zero attempts)⟩
          accounted := hsound.accounted id
          known := hsound.known.frame (file_frame (.reserved (attempts + 1)) hinsert) rfl }

theorem settleRow_some {cost : String} {receipt : Receipt}
    (h : settleRow calls state id cost receipt = some ledgers) :
    ledgers.find (ledgerKey calls id) = some (settledRow calls id cost receipt) ∧
      ∀ key, key ≠ ledgerKey calls id → ledgers.find key = state.ledgers.find key := by
  unfold settleRow at h
  cases hrow : state.ledgers.find (ledgerKey calls id) with
  | none => simp [hrow] at h
  | some row =>
    simp only [hrow] at h
    split_ifs at h
    cases h
    refine ⟨?_, fun key hother => ?_⟩
    · rw [find_put]
      exact if_pos rfl
    · rw [find_put]
      exact if_neg fun hsame => hother hsame.symm

theorem settle_frame (phase : Phase) {cost : String} {receipt : Receipt}
    (h : settleRow calls state id cost receipt = some ledgers) :
    Frame calls id state { state.enter id phase with ledgers := ledgers } :=
  { enter_frame id phase with ledgers := (settleRow_some h).2 }

theorem neverSent_sound (hsound : Sound rules calls state) (hphase : state.phases id = .reserved 0)
    : StepSound rules calls id state (neverSent calls state id) := by
  have hfits := hsound.fits id
  rw [hphase] at hfits
  obtain ⟨hheld, hopen, hfresh⟩ := hfits
  unfold neverSent
  split
  · rename_i ledgers hsettled
    exact
      { frame := settle_frame _ hsettled
        fits := fits_entered rfl hheld
        accounted := fun hsent => absurd hsent (hfresh rfl)
        known := hsound.known.frame (settle_frame .failed hsettled) rfl }
  · exact enter_sound hsound hheld

theorem settle_sound (hsound : Sound rules calls state) {data : Data} {valid : Bool}
    (hphase : state.phases id = .answered attempts data valid) (cost : String) :
    StepSound rules calls id state (settle rules calls state id attempts data valid cost) := by
  have hfits := hsound.fits id
  rw [hphase] at hfits
  obtain ⟨hheld, hopen, content, hcontent, hmade⟩ := hfits
  unfold settle
  dsimp only
  split
  · rename_i ledgers hsettled
    have hframe : Frame calls id state
        { state.enter id (.settled (settledResult rules calls id attempts data valid cost)) with
          ledgers := ledgers } := settle_frame _ hsettled
    have hrow := (settleRow_some hsettled).1
    exact
      { frame := hframe
        fits := by
          refine fits_entered rfl ?_
          refine ⟨hheld, ⟨_, hrow, rfl⟩, ?_⟩
          show Answers rules calls _ _ (data.content.getD "")
          rw [hcontent]
          exact hmade.frame hframe
        accounted := by
          intro _
          refine ⟨_, hrow, fun receipt hreceipt => ?_⟩
          cases hreceipt
          exact fun hnone => by cases hnone
        known := hsound.known.frame hframe rfl }
  · exact enter_sound hsound hheld

end Invariants

end ProofOps.Adapters.Local.ModelResponses
