import ProofOps.Adapters.Local.ModelResponseInvariants
import ProofOps.Foundation.Rendering

/-!
# Single flight

Every step of every call keeps the invariants, so at any time the pending row of a key names the
one call that may dispatch for it.  A marker leaves the cache by its own call's release, or it
becomes the published response, which every later call of the key reuses.
-/

namespace ProofOps.Adapters.Local.ModelResponses

open Foundation Foundation.Table Foundation.Machine

section Flights

variable {rules : Rules} {calls : Nat → CallInfo} {state : State}

/-! ### Publishing -/

variable {id : Nat}

theorem Holds.pending (h : Holds rules calls state id) :
    pendingRow state (keyOf rules calls id) = some (marker rules calls id) := by
  unfold pendingRow
  rw [h]
  rfl

variable {result : Result}

theorem originOf_agrees {key : String} {row : CacheRow} {origin : Origin}
    (h : originOf rules state key row result = some origin) :
    origin.key = key ∧ rules.receiptHash origin.receipt = origin.receiptSha256 ∧
      Agrees rules key result
        { cost := origin.receipt.costWithVatReserveUsd
          receipt := origin.receipt
          wireSha256 := origin.wireSha256
          data := origin.data } := by
  obtain ⟨digest, hverified, h⟩ := Option.bind_eq_some_iff.mp h
  obtain ⟨original, horiginal, h⟩ := Option.bind_eq_some_iff.mp h
  cases h
  unfold verified at hverified
  rw [horiginal, Option.bind_some] at hverified
  split_ifs at hverified with hboth
  have hagrees := hboth.2
  refine ⟨rfl, rfl, ?_⟩
  exact
    { valid := hagrees.valid
      key := by rw [← hagrees.receipt]; exact hagrees.key
      wire := by rw [← hagrees.receipt]; exact hagrees.wire
      receipt := rfl
      cost := rfl
      data := by rw [← hagrees.receipt]; exact hagrees.data
      content := hagrees.content }

theorem keepOrigin_sound (hsound : Sound rules calls state)
    (hphase : state.phases id = .settled result) :
    StepSound rules calls id state (keepOrigin rules calls state id result) := by
  have hfits := hsound.fits id
  rw [hphase] at hfits
  obtain ⟨hheld, hsettled, hmade⟩ := hfits
  unfold keepOrigin
  dsimp only
  split
  · rename_i origins horigins
    obtain ⟨row, -, horigins⟩ := Option.bind_eq_some_iff.mp horigins
    obtain ⟨origin, horigin, hinsert⟩ := Option.bind_eq_some_iff.mp horigins
    obtain ⟨hkey, hhash, hagrees⟩ := originOf_agrees horigin
    have hframe : Frame calls id state
        { state.enter id (.stored result) with origins := origins } :=
      { enter_frame id (.stored result) with
        origins := fun _ _ h => find_insert?_of_some hinsert h }
    have hfound : origins.find (keyOf rules calls id) = some origin :=
      (find_insert? hinsert _).trans (if_pos hkey)
    exact
      { frame := hframe
        fits := by
          refine fits_entered rfl ?_
          refine ⟨hheld, hsettled, hmade.frame hframe, _, ?_, hagrees⟩
          refine Option.bind_eq_some_iff.mpr ⟨origin, hfound, ?_⟩
          rw [guard, if_pos hhash]
          rfl
        accounted := hsound.accounted id
        known := hsound.known.frame hframe rfl }
  · exact enter_sound hsound hheld

def publishedRow (rules : Rules) (calls : Nat → CallInfo) (id : Nat) (result : Result) : CacheRow :=
  { marker rules calls id with
    place := .origin (keyOf rules calls id), payload := some (result, rules.resultHash result) }

theorem put_frame {phase : Phase} (hheld : Holds rules calls state id) :
    Frame calls id state { state.enter id phase with
      cache := state.cache.put (publishedRow rules calls id result) } :=
  { enter_frame id phase with
    cache := by
      intro key row hrow hother
      rw [find_put, if_neg, hrow]
      rintro rfl
      have hsame : state.cache.find (keyOf rules calls id) = some row := hrow
      rw [hheld, Option.some.injEq] at hsame
      rw [← hsame] at hother
      exact hother.elim (fun h => h rfl) fun h => h rfl }

theorem publish_sound (hsound : Sound rules calls state)
    (hphase : state.phases id = .stored result) :
    StepSound rules calls id state (publish rules calls state id result) := by
  have hfits := hsound.fits id
  rw [hphase] at hfits
  obtain ⟨hheld, hsettled, hmade, original, horiginal, hagrees⟩ := hfits
  unfold publish
  simp only [hheld.pending]
  have hframe : Frame calls id state { state.enter id (.returned result) with
      cache := state.cache.put (publishedRow rules calls id result) } := put_frame hheld
  have hpublished : Published rules calls { state.enter id (.returned result) with
      cache := state.cache.put (publishedRow rules calls id result) }
      (keyOf rules calls id) result :=
    { row := ⟨(calls id).requestId, (find_put ..).trans (if_pos rfl)⟩
      verified := ⟨original, readOriginal_frame horiginal hframe, hagrees⟩
      made := hmade.2.frame hframe }
  exact
    { frame := hframe
      fits := fits_entered rfl ⟨hpublished.made, Or.inl hmade.1⟩
      accounted := hsound.accounted id
      known := by
        intro key row hrow
        have hput : (state.cache.put (publishedRow rules calls id result)).find key = some row :=
          hrow
        rw [find_put] at hput
        split_ifs at hput with hkey
        · rw [← show keyOf rules calls id = key from hkey]
          exact Or.inr ⟨result, hpublished⟩
        · obtain hmarker | ⟨other, hother⟩ := hsound.known key row hput
          · exact Or.inl hmarker
          · exact Or.inr ⟨other, hother.frame hframe⟩ }

theorem release_sound (hsound : Sound rules calls state) {result : Option Result}
    (hheld : Holds rules calls state id)
    (hmade : ∀ made ∈ result, Answers rules calls state id made.content) :
    StepSound rules calls id state (release calls state id result) := by
  unfold release
  split_ifs with hreleasable
  · exact enter_sound hsound ⟨hheld, hreleasable, hmade⟩
  · cases result with
    | none => exact enter_sound hsound trivial
    | some made =>
      obtain ⟨hsent, hanswer⟩ := hmade made rfl
      exact enter_sound hsound ⟨hanswer, Or.inl hsent⟩

theorem find_deleted (hheld : Holds rules calls state id) (key : String) :
    (state.cache.delete fun row =>
      decide (row.key = keyOf rules calls id ∧ row.payload = none)).find key =
      if keyOf rules calls id = key then none else state.cache.find key := by
  rw [find_delete]
  split_ifs with hkey
  · subst hkey
    rw [hheld]
    simp [marker]
  · cases hrow : state.cache.find key with
    | none => rfl
    | some row =>
      have hrowKey : row.key = key := (find_eq_some_iff.mp hrow).2
      have hkept : ¬(row.key = keyOf rules calls id ∧ row.payload = none) :=
        fun h => hkey (h.1.symm.trans hrowKey)
      rw [Option.filter_some, decide_eq_false hkept]
      rfl

theorem deleteMarker_sound (hsound : Sound rules calls state) {result : Option Result}
    (hphase : state.phases id = .releasing result) :
    StepSound rules calls id state (deleteMarker rules calls state id result) := by
  have hfits := hsound.fits id
  rw [hphase] at hfits
  obtain ⟨hheld, -, hmade⟩ := hfits
  have hframe : Frame calls id state (deleteMarker rules calls state id result) :=
    { enter_frame id (ended result) with
      cache := by
        intro key row hrow hother
        refine (find_deleted hheld key).trans ?_
        rw [if_neg, hrow]
        rintro rfl
        rw [hheld, Option.some.injEq] at hrow
        rw [← hrow] at hother
        exact hother.elim (fun h => h rfl) fun h => h rfl }
  exact
    { frame := hframe
      fits := by
        refine fits_entered rfl ?_
        cases result with
        | none => trivial
        | some made =>
          obtain ⟨hsent, hanswer⟩ := hmade made rfl
          exact ⟨hanswer.frame hframe, Or.inl hsent⟩
      accounted := hsound.accounted id
      known := by
        intro key row hrow
        have hkept := (find_deleted hheld key).symm.trans hrow
        split_ifs at hkept with hkey
        obtain hmarker | ⟨other, hother⟩ := hsound.known key row hkept
        · exact Or.inl hmarker
        · exact Or.inr ⟨other, hother.frame hframe⟩ }

theorem fail_sound (hsound : Sound rules calls state) (id : Nat) :
    StepSound rules calls id state (state.enter id (afterException (state.phases id))) := by
  have hfits := hsound.fits id
  refine enter_sound hsound ?_
  cases hphase : state.phases id with
  | ready | hit source receiptSha256 | failed | raised | crashed => trivial
  | claimed | reserved attempts | awaiting attempts | answered attempts data valid
  | settled result | stored result => rw [hphase] at hfits; exact hfits.1
  | releasing result =>
    cases result with
    | none => trivial
    | some made => rw [hphase] at hfits; exact hfits.1
  | returned result =>
    rw [hphase] at hfits
    obtain ⟨hmade, hsent | ⟨source, receiptSha256, hpublished, hrest⟩⟩ := hfits
    · exact ⟨hmade, Or.inl hsent⟩
    · exact ⟨hmade, Or.inr ⟨source, receiptSha256, hpublished.frame (enter_frame id _), hrest⟩⟩

/-- So does a crash. -/
theorem crash_sound (hsound : Sound rules calls state) (id : Nat) :
    StepSound rules calls id state (state.enter id (afterCrash (state.phases id))) := by
  have hfits := hsound.fits id
  refine enter_sound hsound ?_
  cases hphase : state.phases id with
  | returned result =>
    rw [hphase] at hfits
    obtain ⟨hmade, hsent | ⟨source, receiptSha256, hpublished, hrest⟩⟩ := hfits
    · exact ⟨hmade, Or.inl hsent⟩
    · exact ⟨hmade, Or.inr ⟨source, receiptSha256, hpublished.frame (enter_frame id _), hrest⟩⟩
  | _ => trivial

/-- Every step leaves a sound state. -/
theorem next_sound (hsound : Sound rules calls state) (step : Nat × Choice) :
    StepSound rules calls step.1 state (next rules calls state step) := by
  obtain ⟨id, choice⟩ := step
  unfold next
  dsimp only
  split
  · exact crash_sound hsound id
  · exact fail_sound hsound id
  · rename_i hphase
    exact look_sound hsound hphase
  · rename_i hphase
    exact record_sound hsound hphase
  · rename_i hphase
    exact reserve_sound hsound hphase
  · rename_i hphase
    exact send_sound hsound hphase
  · rename_i hphase
    exact neverSent_sound hsound hphase
  · rename_i hphase
    exact reply_sound hsound hphase
  · rename_i hphase
    exact settle_sound hsound hphase _
  · rename_i hphase
    split_ifs
    · exact keepOrigin_sound hsound hphase
    · exact idle_sound hsound id
  · rename_i hphase
    exact publish_sound hsound hphase
  · rename_i result hphase
    have hfits := hsound.fits id
    rw [hphase] at hfits
    obtain ⟨hheld, -, hmade⟩ := hfits
    split_ifs
    · exact idle_sound hsound id
    · refine release_sound hsound hheld fun made hmem => ?_
      cases hmem
      exact hmade
  · rename_i hphase
    have hfits := hsound.fits id
    rw [hphase] at hfits
    exact release_sound hsound hfits fun _ hmem => by cases hmem
  · rename_i hphase
    exact deleteMarker_sound hsound hphase
  · exact idle_sound hsound id

theorem sound_after (hids : Function.Injective fun id => (calls id).requestId)
    (steps : List (Nat × Choice)) :
    Sound rules calls (after (next rules calls) State.initial steps) :=
  @after_invariant _ _ (next rules calls) (Sound rules calls)
    (fun _ step h => (next_sound h step).sound h hids) _ sound_initial steps

/-- What a step may do to the cache. -/
inductive CacheStep (rules : Rules) (calls : Nat → CallInfo) (id : Nat) (state after : State) : Prop
  | same (cache : after.cache = state.cache)
  | set (free : state.cache.find (keyOf rules calls id) = none)
      (cache : ∀ key, after.cache.find key =
        if keyOf rules calls id = key then some (marker rules calls id) else state.cache.find key)
  | published {result : Result} (held : Holds rules calls state id)
      (cache : ∀ key, after.cache.find key =
        if keyOf rules calls id = key then some (publishedRow rules calls id result)
        else state.cache.find key)
  | deleted {result : Option Result} (held : Holds rules calls state id)
      (releasing : state.phases id = .releasing result)
      (cache : ∀ key, after.cache.find key =
        if keyOf rules calls id = key then none else state.cache.find key)

theorem look_cache (id : Nat) : CacheStep rules calls id state (look rules calls state id) := by
  unfold look
  split_ifs
  · exact .same rfl
  · cases hfound : state.cache.find (keyOf rules calls id) with
    | none =>
      cases hinsert : state.cache.insert? (marker rules calls id) with
      | none => exact .same rfl
      | some cache => exact .set hfound fun key => find_insert? hinsert key
    | some row =>
      simp only
      cases row.payload with
      | none => exact .same rfl
      | some stored =>
        simp only
        split
        · exact .same rfl
        · exact .same rfl

/-- Every step does one of these to the cache. -/
theorem next_cache (hsound : Sound rules calls state) (step : Nat × Choice) :
    CacheStep rules calls step.1 state (next rules calls state step) := by
  obtain ⟨id, choice⟩ := step
  have hfits := hsound.fits id
  unfold next
  dsimp only
  split
  · exact .same rfl
  · exact .same rfl
  · exact look_cache id
  · unfold record
    dsimp only
    split
    · exact .same rfl
    · exact .same rfl
  · unfold reserve
    split
    · exact .same rfl
    · exact .same rfl
  · unfold send
    split_ifs
    · exact .same rfl
    · exact .same rfl
  · unfold neverSent
    split
    · exact .same rfl
    · exact .same rfl
  · unfold reply
    split
    · exact .same rfl
    · split_ifs
      · exact .same rfl
      · exact .same rfl
      · exact .same rfl
  · unfold settle
    dsimp only
    split
    · exact .same rfl
    · exact .same rfl
  · split_ifs
    · unfold keepOrigin
      dsimp only
      split
      · exact .same rfl
      · exact .same rfl
    · exact .same rfl
  · rename_i result hphase
    rw [hphase] at hfits
    have hheld : Holds rules calls state id := hfits.1
    unfold publish
    simp only [hheld.pending]
    exact .published hheld fun key => find_put state.cache (publishedRow rules calls id result) key
  · split_ifs
    · exact .same rfl
    · exact .same rfl
  · exact .same rfl
  · rename_i result hphase
    rw [hphase] at hfits
    have hheld : Holds rules calls state id := hfits.1
    exact .deleted hheld hphase (find_deleted hheld)
  · exact .same rfl

/-! ### Markers -/

def Sends (state : State) (step : Nat × Choice) : Prop :=
  step.2 = .send ∧ ∃ attempts, state.phases step.1 = .reserved attempts ∧ attempts < 2

def SetsMarker (rules : Rules) (calls : Nat → CallInfo) (state : State) (step : Nat × Choice) :
    Prop :=
  state.cache.find (keyOf rules calls step.1) = none ∧
    Holds rules calls (next rules calls state step) step.1

def RemovesMarker (rules : Rules) (calls : Nat → CallInfo) (state : State) (step : Nat × Choice) :
    Prop :=
  Holds rules calls state step.1 ∧
    (next rules calls state step).cache.find (keyOf rules calls step.1) = none

theorem published_after (hsound : Sound rules calls state) {key : String}
    (hpublished : Published rules calls state key result)
    (hids : Function.Injective fun id => (calls id).requestId) (steps : List (Nat × Choice)) :
    Published rules calls (after (next rules calls) state steps) key result := by
  induction steps generalizing state with
  | nil => exact hpublished
  | cons step steps ih =>
    have hstep := next_sound hsound step
    exact ih (hstep.sound hsound hids) (hpublished.frame hstep.frame)

theorem Holds.not_published (h : Holds rules calls state id) :
    ¬Published rules calls state (keyOf rules calls id) result := by
  rintro ⟨⟨requestId, hrow⟩, -, -⟩
  rw [h, Option.some.injEq] at hrow
  have hpayload := congrArg CacheRow.payload hrow
  cases hpayload

/-- One call at most holds a key. -/
theorem Holds.unique {other : Nat} (h : Holds rules calls state id)
    (h' : Holds rules calls state other) (hkey : keyOf rules calls id = keyOf rules calls other)
    (hids : Function.Injective fun id => (calls id).requestId) : id = other := by
  rw [Holds, hkey, h', Option.some.injEq] at h
  exact hids (congrArg CacheRow.requestId h).symm

theorem Sends.holds {step : Nat × Choice} (h : Sends state step)
    (hsound : Sound rules calls state) : Holds rules calls state step.1 := by
  obtain ⟨-, attempts, hphase, -⟩ := h
  have hfits := hsound.fits step.1
  rw [hphase] at hfits
  exact hfits.1

theorem removed_between (hsound : Sound rules calls state) {other : Nat}
    (hids : Function.Injective fun id => (calls id).requestId) {steps : List (Nat × Choice)}
    (hheld : Holds rules calls state id)
    (hother : Holds rules calls (after (next rules calls) state steps) other)
    (hkey : keyOf rules calls id = keyOf rules calls other) (hne : id ≠ other) :
    ∃ front step back, steps = front ++ step :: back ∧ step.1 = id ∧
      RemovesMarker rules calls (after (next rules calls) state front) step := by
  have hlost : ¬Holds rules calls (after (next rules calls) state steps) id := fun hstill =>
    hne (hstill.unique hother hkey hids)
  obtain ⟨front, step, back, rfl, hbefore, hstep⟩ :=
    @exists_step _ _ (next rules calls) (fun state => ¬Holds rules calls state id) _ _
      (not_not.mpr hheld) hlost
  rw [not_not] at hbefore
  have hmid : Sound rules calls (after (next rules calls) state front) :=
    @after_invariant _ _ (next rules calls) (Sound rules calls)
      (fun _ step h => (next_sound h step).sound h hids) _ hsound front
  have hself : step.1 = id := by
    by_contra hdifferent
    refine hstep (hbefore.frame (next_sound hmid step).frame fun hsame => ?_)
    exact hdifferent (hids hsame).symm
  refine ⟨front, step, back, rfl, hself, ?_⟩
  subst hself
  refine ⟨hbefore, ?_⟩
  cases next_cache hmid step with
  | same cache =>
    refine absurd ?_ hstep
    show (next rules calls _ step).cache.find _ = _
    rw [cache]
    exact hbefore
  | set free cache =>
    rw [hbefore] at free
    cases free
  | @published result held cache =>
    -- A published row would still be there, in place of the other marker.
    have hafter := (next_sound hmid step).sound hmid hids
    have hrow : (next rules calls (after (next rules calls) state front) step).cache.find
        (keyOf rules calls step.1) = some (publishedRow rules calls step.1 result) := by
      rw [cache, if_pos rfl]
    have hpublished := verified_published hafter hrow rfl
    have hlater := published_after hafter hpublished hids back
    rw [after_append, after_cons] at hother
    rw [hkey] at hlater
    exact absurd hlater hother.not_published
  | deleted held releasing cache => rw [cache, if_pos rfl]

def MayRelease (calls : Nat → CallInfo) (state : State) (id : Nat) : Prop :=
  (Unreserved calls state id ∧ id ∉ state.provider) ∨
    ∃ receipt, Settled calls state id receipt ∧ receipt.schemaValid = false ∧
      (receipt.dispatchState = some "never_sent" → id ∉ state.provider)

theorem mayRelease (hsound : Sound rules calls state) {result : Option Result}
    (hphase : state.phases id = .releasing result) : MayRelease calls state id := by
  have hfits := hsound.fits id
  rw [hphase] at hfits
  obtain ⟨-, hreleasable, -⟩ := hfits
  have haccounted := hsound.accounted id
  unfold isReleasable at hreleasable
  cases hrow : state.ledgers.find (ledgerKey calls id) with
  | none =>
    refine Or.inl ⟨hrow, fun hsent => ?_⟩
    obtain ⟨row, hfound, -⟩ := haccounted hsent
    rw [hrow] at hfound
    cases hfound
  | some row =>
    simp only [hrow] at hreleasable
    cases hreceipt : row.receipt with
    | none => simp [hreceipt] at hreleasable
    | some receipt =>
      rw [hreceipt, Option.any_some, Bool.not_eq_true'] at hreleasable
      refine Or.inr ⟨receipt, ⟨row, hrow, hreceipt⟩, hreleasable, fun hnever hsent => ?_⟩
      obtain ⟨found, hfound, hstate⟩ := haccounted hsent
      rw [hrow] at hfound
      cases hfound
      exact hstate receipt hreceipt hnever

theorem next_provider (step : Nat × Choice) :
    (next rules calls state step).provider = state.provider ∨ Sends state step := by
  obtain ⟨id, choice⟩ := step
  unfold next
  dsimp only
  split
  · exact Or.inl rfl
  · exact Or.inl rfl
  · refine Or.inl ?_
    unfold look
    split_ifs
    · rfl
    · split
      · split
        · rfl
        · rfl
      · split
        · rfl
        · split
          · rfl
          · rfl
  · refine Or.inl ?_
    unfold record
    dsimp only
    split
    · rfl
    · rfl
  · refine Or.inl ?_
    unfold reserve
    split
    · rfl
    · rfl
  · rename_i attempts hphase
    by_cases hbound : attempts < 2
    · exact Or.inr ⟨rfl, attempts, hphase, hbound⟩
    · unfold send
      rw [if_neg hbound]
      exact Or.inl rfl
  · refine Or.inl ?_
    unfold neverSent
    split
    · rfl
    · rfl
  · refine Or.inl ?_
    unfold reply
    split
    · rfl
    · split_ifs
      · rfl
      · rfl
      · rfl
  · refine Or.inl ?_
    unfold settle
    dsimp only
    split
    · rfl
    · rfl
  · refine Or.inl ?_
    split_ifs
    · unfold keepOrigin
      dsimp only
      split
      · rfl
      · rfl
    · rfl
  · refine Or.inl ?_
    unfold publish
    dsimp only
    split
    · rfl
    · rfl
  · refine Or.inl ?_
    split_ifs
    · rfl
    · rfl
  · exact Or.inl rfl
  · exact Or.inl rfl
  · exact Or.inl rfl

theorem unsent_after (hsound : Sound rules calls state)
    (hids : Function.Injective fun id => (calls id).requestId)
    (hpublished : Published rules calls state (keyOf rules calls id) result)
    (hunsent : id ∉ state.provider) (steps : List (Nat × Choice)) :
    id ∉ (after (next rules calls) state steps).provider := by
  induction steps generalizing state with
  | nil => exact hunsent
  | cons step steps ih =>
    have hstep := next_sound hsound step
    refine ih (hstep.sound hsound hids) (hpublished.frame hstep.frame) ?_
    have hprovider : (next rules calls state step).provider = state.provider ∨ Sends state step :=
      next_provider step
    obtain hsame | hsends := hprovider
    · rw [hsame]
      exact hunsent
    · intro hsent
      by_cases hself : id = step.1
      · subst hself
        exact (hsends.holds hsound).not_published hpublished
      · exact hunsent (hstep.frame.sender id hself hsent)

theorem look_hit (hsound : Sound rules calls state)
    (hpublished : Published rules calls state (keyOf rules calls id) result)
    (hready : state.phases id = .ready) (hreplica : hasReplica calls id = true) :
    ∃ receiptSha256, next rules calls state (id, .look) =
      state.enter id (.hit result receiptSha256) := by
  have hfits := hsound.fits id
  rw [hready] at hfits
  have hunreserved : state.ledgers.find (ledgerKey calls id) = none := hfits
  obtain ⟨requestId, hrow⟩ := hpublished.row
  obtain ⟨original, horiginal, hagrees⟩ := hpublished.verified
  have hverified : verified rules state (keyOf rules calls id) (.origin (keyOf rules calls id))
      requestId result (rules.resultHash result) = some (rules.receiptHash original.receipt) := by
    unfold verified
    rw [show readOriginal rules state (.origin (keyOf rules calls id)) requestId =
      some original from horiginal, Option.bind_some, if_pos ⟨rfl, hagrees⟩]
  refine ⟨rules.receiptHash original.receipt, ?_⟩
  unfold next
  dsimp only
  rw [hready]
  unfold look
  rw [hunreserved, hreplica, if_neg (by simp), hrow]
  dsimp only
  rw [hverified]

theorem record_returns {source : Result} {receiptSha256 : String}
    (hphase : state.phases id = .hit source receiptSha256)
    (hunreserved : Unreserved calls state id) :
    (next rules calls state (id, .record)).phases id =
      .returned (reused rules calls id source receiptSha256) := by
  unfold next
  dsimp only
  rw [hphase]
  unfold record
  dsimp only
  split
  · exact enter_phases_self ..
  · rename_i hnone
    exact absurd hunreserved (insert?_eq_none_iff.mp hnone)

theorem reuse_returns (hsound : Sound rules calls state)
    (hids : Function.Injective fun id => (calls id).requestId)
    (hpublished : Published rules calls state (keyOf rules calls id) result)
    (hready : state.phases id = .ready) (hreplica : hasReplica calls id = true) :
    ∃ made, (after (next rules calls) state [(id, .look), (id, .record)]).phases id =
      .returned made ∧ made.content = result.content := by
  obtain ⟨receiptSha256, hlook⟩ := look_hit hsound hpublished hready hreplica
  have hafter := (next_sound hsound (id, .look)).sound hsound hids
  rw [hlook] at hafter
  have hfits := hafter.fits id
  rw [enter_phases_self] at hfits
  refine ⟨reused rules calls id result receiptSha256, ?_, rfl⟩
  rw [after_cons, after_cons, after_nil, hlook]
  exact record_returns (enter_phases_self ..) hfits.1

def run (rules : Rules) (calls : Nat → CallInfo) (steps : List (Nat × Choice)) : State :=
  after (next rules calls) State.initial steps

theorem rows_after (hsound : Sound rules calls state)
    (hids : Function.Injective fun id => (calls id).requestId) (steps : List (Nat × Choice)) :
    (∀ key row, state.cache.find key = some row → row.payload ≠ none →
      (after (next rules calls) state steps).cache.find key = some row) ∧
    ∀ key origin, state.origins.find key = some origin →
      (after (next rules calls) state steps).origins.find key = some origin := by
  induction steps generalizing state with
  | nil => exact ⟨fun _ _ h _ => h, fun _ _ h => h⟩
  | cons step steps ih =>
    have hstep := next_sound hsound step
    obtain ⟨hrows, horigins⟩ := ih (hstep.sound hsound hids)
    exact ⟨fun key row hrow hpayload =>
        hrows key row (hstep.frame.cache key row hrow (Or.inl hpayload)) hpayload,
      fun key origin horigin => horigins key origin (hstep.frame.origins key origin horigin)⟩

structure SingleFlight (rules : Rules) (calls : Nat → CallInfo) (steps : List (Nat × Choice)) :
    Prop where
  fenced : ∀ front step back, steps = front ++ step :: back → Sends (run rules calls front) step →
    Holds rules calls (run rules calls front) step.1 ∧
    ∀ early set middle, front = early ++ set :: middle →
      SetsMarker rules calls (run rules calls early) set →
      keyOf rules calls set.1 = keyOf rules calls step.1 → set.1 ≠ step.1 →
      ∃ one release two, middle = one ++ release :: two ∧ release.1 = set.1 ∧
        RemovesMarker rules calls (run rules calls (early ++ set :: one)) release
  lasting : ∀ front back, steps = front ++ back →
    (∀ key row, (run rules calls front).cache.find key = some row → row.payload ≠ none →
      (run rules calls steps).cache.find key = some row) ∧
    ∀ key origin, (run rules calls front).origins.find key = some origin →
      (run rules calls steps).origins.find key = some origin
  published : ∀ key row result digest, (run rules calls steps).cache.find key = some row →
    row.payload = some (result, digest) → Published rules calls (run rules calls steps) key result
  later : ∀ front back id result, steps = front ++ back →
    Published rules calls (run rules calls front) (keyOf rules calls id) result →
    (run rules calls front).phases id = .ready →
    id ∉ (run rules calls steps).provider ∧
    ∀ made, (run rules calls steps).phases id = .returned made →
      made.content = result.content ∧ made.receipt.costWithVatReserveUsd = "0" ∧
      ∃ row, (run rules calls steps).ledgers.find (ledgerKey calls id) = some row ∧
        row.committed = "0" ∧ row.receipt = some made.receipt
  returns : ∀ id result, Published rules calls (run rules calls steps) (keyOf rules calls id)
      result → (run rules calls steps).phases id = .ready → hasReplica calls id = true →
    ∃ made, (run rules calls (steps ++ [(id, .look), (id, .record)])).phases id =
      .returned made ∧ made.content = result.content
  removed : ∀ front step back key row, steps = front ++ step :: back →
    (run rules calls front).cache.find key = some row →
    (run rules calls (front ++ [step])).cache.find key = none →
    row = marker rules calls step.1 ∧ MayRelease calls (run rules calls front) step.1
  separate : ∀ id made, (run rules calls steps).phases id = .returned made →
    ∃ maker attempt file, maker ∈ (run rules calls steps).provider ∧
      (calls maker).request.role = (calls id).request.role ∧
      (calls maker).request.replica = (calls id).request.replica ∧
      (run rules calls steps).files.find
        ((calls maker).ledger, (calls maker).requestId, attempt) = some file ∧
      file.data.content = some made.content

/-- One cache under any number of calls, in every order and with every stop. -/
theorem single_flight {rules : Rules} {calls : Nat → CallInfo}
    (hids : Function.Injective fun id => (calls id).requestId)
    (hkeys : ∀ id other, keyOf rules calls id = keyOf rules calls other →
      (calls id).request = (calls other).request) (steps : List (Nat × Choice)) :
    SingleFlight rules calls steps where
  fenced := by
    intro front step back _ hsends
    have hsound : Sound rules calls (run rules calls front) := sound_after hids front
    have hheld := hsends.holds hsound
    refine ⟨hheld, ?_⟩
    rintro early set middle rfl hset hkey hne
    have hearly : Sound rules calls (run rules calls early) := sound_after hids early
    have hlater := (next_sound hearly set).sound hearly hids
    unfold run at hheld
    rw [after_append, after_cons] at hheld
    obtain ⟨one, release, two, hmiddle, hself, hremoves⟩ :=
      removed_between hlater hids hset.2 hheld hkey hne
    refine ⟨one, release, two, hmiddle, hself, ?_⟩
    unfold run
    rw [after_append, after_cons]
    exact hremoves
  lasting := by
    rintro front back rfl
    unfold run
    rw [after_append]
    exact rows_after (sound_after hids front) hids back
  published := by
    intro key row result digest hrow hpayload
    exact verified_published (sound_after hids steps) hrow hpayload
  later := by
    rintro front back id result rfl hpublished hready
    have hfront : Sound rules calls (run rules calls front) := sound_after hids front
    have hend : Sound rules calls (run rules calls (front ++ back)) := sound_after hids _
    have hfits := hfront.fits id
    rw [hready] at hfits
    have hunsent : id ∉ (run rules calls front).provider := by
      intro hsent
      obtain ⟨row, hrow, -⟩ := hfront.accounted id hsent
      rw [show (run rules calls front).ledgers.find (ledgerKey calls id) = none from hfits] at hrow
      cases hrow
    have hstill : id ∉ (run rules calls (front ++ back)).provider := by
      unfold run
      rw [after_append]
      exact unsent_after hfront hids hpublished hunsent back
    refine ⟨hstill, fun made hmade => ?_⟩
    have hreturned := hend.fits id
    rw [hmade] at hreturned
    obtain ⟨-, hsent | ⟨source, receiptSha256, hsource, hreused, hrow⟩⟩ := hreturned
    · exact absurd hsent hstill
    · have hlast : Published rules calls (run rules calls (front ++ back))
          (keyOf rules calls id) result := by
        unfold run
        rw [after_append]
        exact published_after hfront hpublished hids back
      have hsame : source = result := hsource.unique hlast
      subst hsame hreused
      exact ⟨rfl, rfl, hrow⟩
  returns := by
    intro id result hpublished hready hreplica
    unfold run
    rw [after_append]
    exact reuse_returns (sound_after hids steps) hids hpublished hready hreplica
  removed := by
    intro front step back key row _ hrow hgone
    have hfront : Sound rules calls (run rules calls front) := sound_after hids front
    have hnext : (next rules calls (run rules calls front) step).cache.find key = none := by
      unfold run at hgone ⊢
      rw [after_append] at hgone
      exact hgone
    cases next_cache hfront step with
    | same cache =>
      rw [cache, hrow] at hnext
      cases hnext
    | set free cache | published held cache =>
      rw [cache] at hnext
      split_ifs at hnext
      rw [hrow] at hnext
      cases hnext
    | deleted held releasing cache =>
      rw [cache] at hnext
      split_ifs at hnext with hkey
      · subst hkey
        rw [held, Option.some.injEq] at hrow
        exact ⟨hrow.symm, mayRelease hfront releasing⟩
      · rw [hrow] at hnext
        cases hnext
  separate := by
    intro id made hmade
    have hreached : Sound rules calls (after (next rules calls) State.initial steps) :=
      sound_after hids steps
    have hfits := hreached.fits id
    unfold run at hmade
    rw [hmade] at hfits
    obtain ⟨maker, attempt, file, hmaker, hkey, hfile, hcontent⟩ := hfits.1
    have hrequest := hkeys maker id hkey
    exact ⟨maker, attempt, file, hmaker, congrArg ResponseRequest.role hrequest,
      congrArg ResponseRequest.replica hrequest, hfile, hcontent⟩

end Flights

namespace Sample

open Rendering

def calls (id : Nat) : CallInfo where
  ledger := "ledger.sqlite3"
  requestId := String.ofList (natural id)
  request :=
    { role := "elements"
      replica := 1
      wireSha256 := "wire"
      schemaSha256 := "schema"
      policySha256 := "policy" }

theorem requestId_injective : Function.Injective fun id => (calls id).requestId :=
  fun _ _ h => natural_injective (String.ofList_injective h)

def rules : Rules where
  keyOf := ResponseRequest.role
  resultHash := Result.content
  receiptHash := Receipt.costWithVatReserveUsd
  dataHash := Data.id
  reservationUsd := "0.02"

def data : Data where
  id := "response"
  content := some "answer"

def steps : List (Nat × Choice) :=
  [(0, .look), (1, .look), (0, .reserve), (0, .send), (0, .reply data true), (0, .settle "0.01"),
    (0, .keepOrigin), (1, .look), (0, .publish), (1, .look), (1, .record)]

end Sample

theorem single_flight_two_calls : SingleFlight Sample.rules Sample.calls Sample.steps ∧
    (run Sample.rules Sample.calls Sample.steps).provider = [0] ∧
    ∃ made, (run Sample.rules Sample.calls Sample.steps).phases 1 = .returned made ∧
      made.content = "answer" := by
  have hreturned : (run Sample.rules Sample.calls Sample.steps).phases 1 =
      .returned (reused Sample.rules Sample.calls 1
        (settledResult Sample.rules Sample.calls 0 1 Sample.data true "0.01") "0.01") := by
    decide +kernel
  exact ⟨single_flight Sample.requestId_injective (fun _ _ _ => rfl) Sample.steps,
    by decide +kernel, _, hreturned, rfl⟩

/-- Whatever reached the provider stays on the books: the row of its call is open, or it was
settled, and not as never sent. -/
theorem provider_calls_accounted {rules : Rules} {calls : Nat → CallInfo}
    (hids : Function.Injective fun id => (calls id).requestId) (steps : List (Nat × Choice)) :
    ∀ id ∈ (run rules calls steps).provider,
      ∃ row, (run rules calls steps).ledgers.find (ledgerKey calls id) = some row ∧
        ∀ receipt, row.receipt = some receipt → receipt.dispatchState ≠ some "never_sent" :=
  fun id => (sound_after hids steps).accounted id

theorem provider_calls_accounted_first :
    ∃ row, (run Sample.rules Sample.calls Sample.steps).ledgers.find
        (ledgerKey Sample.calls 0) = some row ∧
      ∀ receipt, row.receipt = some receipt → receipt.dispatchState ≠ some "never_sent" :=
  provider_calls_accounted Sample.requestId_injective Sample.steps 0 (by decide +kernel)

end ProofOps.Adapters.Local.ModelResponses
