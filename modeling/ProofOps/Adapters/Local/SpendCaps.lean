import ProofOps.Adapters.Local.SpendGuard
import ProofOps.Foundation.Totals

/-!
# The caps of the spend guard

Every cap bounds a sum over the charges of some runs, and the four sums of a
reservation are checked together.  A settlement lowers the exposure of one row, so
only a reservation can raise a sum, and its check compares the cap with the sum that
the decimal context computed.  Where no addition is rounded that is the exact sum,
and every cap holds; the rest of the guard never adds and holds in any case.
-/

namespace ProofOps.Adapters.Local.SpendGuard

open Foundation Foundation.Checked

variable {store after : SpendStore}

/-! ### Caps and exposures -/

def exposure (store : SpendStore) (test : SpendRun → Bool) : ℚ :=
  ((exposures store test).map Decimal.value).sum

inductive Capped (store : SpendStore) : Scope → Amount → Prop where
  | event {event : SpendEvent} (hevent : event ∈ store.events) :
      Capped store (.event event.id) event.cap
  | day {event : SpendEvent} (hevent : event ∈ store.events) (day : String) :
      Capped store (.day event.id day) event.daily
  | run {run : SpendRun} (hrun : run ∈ store.runs) : Capped store (.run run.event run.id) run.cap
  | group {run : SpendRun} {named : String × Amount} (hrun : run ∈ store.runs)
      (hnamed : run.group = some named) : Capped store (.group run.event named.1) named.2

variable {scope : Scope} {cap : Amount}

theorem Capped.of_charges {charges : Table Charge Charge.id}
    (h : Capped { store with charges := charges } scope cap) : Capped store scope cap := by
  cases h with
  | event hevent => exact Capped.event hevent
  | day hevent day => exact @Capped.day store _ hevent day
  | run hrun => exact Capped.run hrun
  | group hrun hnamed => exact Capped.group hrun hnamed

def WithinCaps (store : SpendStore) : Prop :=
  ∀ scope cap, Capped store scope cap → exposure store scope.holds ≤ cap.number.value

def Charge.share (store : SpendStore) (test : SpendRun → Bool) (charge : Charge) : ℚ :=
  if (chargeRun store charge).any test then charge.exposure.number.value else 0

theorem exposure_eq_sumOf (store : SpendStore) (test : SpendRun → Bool) :
    exposure store test = store.charges.sumOf (Charge.share store test) := by
  unfold Charge.share
  rw [Table.sumOf_ite]
  unfold exposure exposures
  rw [List.map_map]
  rfl

def Call.AddsExactly (store : SpendStore) : Call → Prop
  | .reserve eventId runId _ requestId bound => ∀ bound', amount bound = .ok bound' →
      store.charges.find requestId = none → ∀ event run,
        findRun store eventId runId = .ok (event, run) → ∀ scope cap,
          (scope, cap) ∈ capsOf event run →
            Decimal.SumsExactly Decimal.standard (exposures store scope.holds ++ [bound'.number])
  | _ => True

structure Sound (store : SpendStore) : Prop where
  joined : ∀ charge ∈ store.charges, ∃ run ∈ store.runs, run.id = charge.run ∧
    ∃ event ∈ store.events, event.id = run.event
  bounded : ∀ charge ∈ store.charges, charge.exposure.number.value ≤ charge.bound.number.value
  full : ∀ charge ∈ store.charges, charge.state ≠ .settled → charge.exposure = charge.bound
  groups : ∀ run ∈ store.runs, ∀ other ∈ store.runs, run.event = other.event →
    ∀ named named', run.group = some named → other.group = some named' → named.1 = named'.1 →
      named.2 = named'.2

theorem Sound.initial : Sound SpendStore.initial where
  joined := fun _ hcharge => absurd hcharge Table.not_mem_empty
  bounded := fun _ hcharge => absurd hcharge Table.not_mem_empty
  full := fun _ hcharge => absurd hcharge Table.not_mem_empty
  groups := fun _ hrun => absurd hrun Table.not_mem_empty

variable {charge : Charge} {run : SpendRun}

theorem chargeRun_eq_some_iff :
    chargeRun store charge = some run ↔ run ∈ store.runs ∧ run.id = charge.run :=
  Table.find_eq_some_iff

theorem exposure_eq_zero {test : SpendRun → Bool}
    (h : ∀ charge ∈ store.charges, ∀ run, chargeRun store charge = some run → test run = false) :
    exposure store test = 0 := by
  have hnone : exposures store test = [] := by
    unfold exposures
    rw [List.map_eq_nil_iff, List.filter_eq_nil_iff]
    intro charge hcharge hany
    cases hrun : chargeRun store charge with
    | none => simp [hrun] at hany
    | some run =>
      rw [hrun, Option.any_some] at hany
      rw [h charge hcharge run hrun] at hany
      cases hany
  unfold exposure
  rw [hnone]
  rfl

theorem mem_capsOf {event : SpendEvent} (hsound : Sound store) (hcapped : Capped store scope cap)
    (hevent : event ∈ store.events) (hrun : run ∈ store.runs) (hbelongs : run.event = event.id)
    (hholds : scope.holds run = true) : (scope, cap) ∈ capsOf event run := by
  unfold capsOf
  cases hcapped with
  | @event other hother =>
    simp only [Scope.holds, decide_eq_true_eq] at hholds
    have hsame := Table.eq_of_key_eq hother hevent (hholds.symm.trans hbelongs)
    simp [hsame]
  | @day other hother day =>
    simp only [Scope.holds, Bool.and_eq_true, decide_eq_true_eq] at hholds
    have hsame := Table.eq_of_key_eq hother hevent (hholds.1.symm.trans hbelongs)
    simp [hsame, hholds.2]
  | @run other hother =>
    simp only [Scope.holds, Bool.and_eq_true, decide_eq_true_eq] at hholds
    have hsame := Table.eq_of_key_eq hother hrun hholds.2.symm
    simp [hsame, hbelongs]
  | @group other named hother hnamed =>
    simp only [Scope.holds, Bool.and_eq_true, decide_eq_true_eq, Option.any_eq_true] at hholds
    obtain ⟨hsameEvent, own, hown, hname⟩ := hholds
    have hcap := hsound.groups run hrun other hother hsameEvent own named hown hnamed hname
    have hown' : own = named := Prod.ext hname hcap
    simp [hown, hown', ← hsameEvent, hbelongs]

section InsertOrIgnore

variable {α κ : Type} [DecidableEq κ] {key : α → κ} {table : Table α key} {row candidate : α}

theorem mem_insertOrIgnore :
    candidate ∈ insertOrIgnore table row ↔
      candidate ∈ table ∨ candidate = row ∧ table.find (key row) = none := by
  unfold insertOrIgnore
  cases hinsert : table.insert? row with
  | none =>
    have htaken := Table.insert?_eq_none_iff.mp hinsert
    simp [htaken]
  | some made =>
    rw [Option.getD_some, Table.mem_insert? hinsert]
    simp [Table.find_of_insert? hinsert]

end InsertOrIgnore

variable {eventId : String}

theorem openGuard_ok {dailyLimit eventLimit : Numeral}
    (h : openGuard store eventId dailyLimit eventLimit = .ok after) :
    ∃ event : SpendEvent, after = { store with events := insertOrIgnore store.events event } := by
  obtain ⟨daily, -, h⟩ := bind_ok h
  obtain ⟨cap, -, h⟩ := bind_ok h
  split_ifs at h
  cases pure_ok h
  exact ⟨_, rfl⟩

variable {runId : String}

theorem configureRun_ok {day : String} {runLimit : Numeral} {group : Option String}
    {groupLimit : Option Numeral}
    (h : configureRun store eventId runId day runLimit group groupLimit = .ok after) :
    ∃ pin : SpendRun, groupDiffers store pin = false ∧
      after = { store with runs := insertOrIgnore store.runs pin } := by
  obtain ⟨pin, -, h⟩ := bind_ok h
  split_ifs at h with hchanged hgroup
  cases pure_ok h
  exact ⟨pin, by simpa using hgroup, rfl⟩

theorem findRun_ok {event : SpendEvent} (h : findRun store eventId runId = .ok (event, run)) :
    event ∈ store.events ∧ run ∈ store.runs ∧ run.id = runId ∧ run.event = event.id := by
  unfold findRun at h
  cases hrun : (store.runs.find runId).filter fun run => run.event = eventId with
  | none => simp [hrun] at h
  | some found =>
    simp only [hrun] at h
    cases hevent : store.events.find eventId with
    | none => simp [hevent] at h
    | some foundEvent =>
      simp only [hevent, Except.ok.injEq, Prod.mk.injEq] at h
      obtain ⟨rfl, rfl⟩ := h
      rw [Option.filter_eq_some_iff, decide_eq_true_eq] at hrun
      obtain ⟨hmem, hid⟩ := Table.find_eq_some_iff.mp hrun.1
      obtain ⟨hmemEvent, hidEvent⟩ := Table.find_eq_some_iff.mp hevent
      exact ⟨hmemEvent, hmem, hid, hrun.2.trans hidEvent.symm⟩

variable {requestId : String}

theorem reserve_ok {provider : String} {bound : Numeral}
    (h : reserve store eventId runId provider requestId bound = .ok after) :
    ∃ bound' event run charges, amount bound = .ok bound' ∧ store.charges.find requestId = none ∧
      findRun store eventId runId = .ok (event, run) ∧
      (∀ scope cap, (scope, cap) ∈ capsOf event run → overCap store scope bound' cap = false) ∧
      store.charges.insert? (Charge.reserved requestId runId provider bound') = some charges ∧
      after = { store with charges := charges } := by
  obtain ⟨bound', hbound, h⟩ := bind_ok h
  split_ifs at h
  cases hold : store.charges.find requestId with
  | some old =>
    simp only [hold] at h
    split_ifs at h
  | none =>
    simp only [hold] at h
    obtain ⟨⟨event, run⟩, hfound, h⟩ := bind_ok h
    dsimp only at h
    split_ifs at h with hover
    obtain ⟨charges, hcharges, h⟩ := bind_ok h
    cases pure_ok h
    refine ⟨bound', event, run, charges, hbound, rfl, hfound, fun scope cap hcap => ?_,
      Table.insertOr_ok hcharges, rfl⟩
    by_contra hexceeded
    exact hover (List.any_eq_true.mpr ⟨(scope, cap), hcap, by simpa using hexceeded⟩)

theorem settle_ok {charged : Option Numeral} (h : settle store requestId charged = .ok after) :
    ∃ row ∈ store.charges, ∃ exposure state,
      after = { store with charges := store.charges.put { row with exposure, state } } ∧
      exposure.number.value ≤ row.bound.number.value ∧
      (state ≠ .settled → exposure = row.bound) ∧
      (row.state ≠ .reserved → exposure = row.exposure ∧ state = row.state) := by
  unfold settle at h
  cases hrow : store.charges.find requestId with
  | none => simp [hrow] at h
  | some row =>
    simp only [hrow] at h
    obtain ⟨⟨exposure, state⟩, hsettlement, h⟩ := bind_ok h
    split_ifs at h with hexceeded hchanged
    cases pure_ok h
    have hle : exposure.number.value ≤ row.bound.number.value := by
      rw [← not_lt, ← Decimal.lt_iff]
      exact hexceeded
    refine ⟨row, (Table.find_eq_some_iff.mp hrow).1, exposure, state, rfl, hle, ?_, ?_⟩
    · intro hstate
      unfold settlement at hsettlement
      cases charged with
      | none =>
        simp only [Except.ok.injEq, Prod.mk.injEq] at hsettlement
        exact hsettlement.1.symm
      | some value =>
        obtain ⟨made, -, hmade⟩ := map_ok_iff.mp hsettlement
        cases hmade
        exact absurd rfl hstate
    · intro hfinal
      rw [not_and, not_not] at hchanged
      have hsame := hchanged hfinal
      simp only [Prod.mk.injEq] at hsame
      exact ⟨hsame.1.symm, hsame.2.symm⟩

theorem Sound.openEvent (h : Sound store) (event : SpendEvent) :
    Sound { store with events := insertOrIgnore store.events event } where
  joined := by
    intro charge hcharge
    obtain ⟨run, hrun, hid, found, hfound, hevent⟩ := h.joined charge hcharge
    exact ⟨run, hrun, hid, found, mem_insertOrIgnore.mpr (Or.inl hfound), hevent⟩
  bounded := h.bounded
  full := h.full
  groups := h.groups

theorem WithinCaps.openEvent (h : WithinCaps store) (hsound : Sound store) (event : SpendEvent) :
    WithinCaps { store with events := insertOrIgnore store.events event } := by
  have hfresh : ∀ {test : SpendRun → Bool}, store.events.find event.id = none →
      (∀ run, test run = true → run.event = event.id) → exposure store test = 0 := by
    intro test hnone htest
    refine exposure_eq_zero fun charge hcharge run hrun => ?_
    obtain ⟨found, hmem, hid, other, hother, hevent⟩ := hsound.joined charge hcharge
    have hsame := Table.eq_of_key_eq (chargeRun_eq_some_iff.mp hrun).1 hmem
      ((chargeRun_eq_some_iff.mp hrun).2.trans hid.symm)
    subst hsame
    by_contra hpass
    rw [Table.find_eq_none_iff] at hnone
    exact hnone other hother (hevent.trans (htest run (by simpa using hpass)))
  intro scope cap hcapped
  show exposure store scope.holds ≤ cap.number.value
  cases hcapped with
  | @event other hother =>
    rcases mem_insertOrIgnore.mp hother with hold | ⟨rfl, hnone⟩
    · exact h _ _ (Capped.event hold)
    · rw [hfresh hnone (by simp [Scope.holds])]
      exact Decimal.value_nonneg _
  | @day other hother day =>
    rcases mem_insertOrIgnore.mp hother with hold | ⟨rfl, hnone⟩
    · exact h _ _ (Capped.day hold day)
    · rw [hfresh hnone (by simp +contextual [Scope.holds])]
      exact Decimal.value_nonneg _
  | run hrun => exact h _ _ (Capped.run hrun)
  | group hrun hnamed => exact h _ _ (Capped.group hrun hnamed)

theorem chargeRun_configure (hsound : Sound store) (pin : SpendRun)
    (hcharge : charge ∈ store.charges) :
    chargeRun { store with runs := insertOrIgnore store.runs pin } charge =
      chargeRun store charge := by
  obtain ⟨run, hrun, hid, -⟩ := hsound.joined charge hcharge
  rw [chargeRun_eq_some_iff.mpr ⟨hrun, hid⟩]
  exact chargeRun_eq_some_iff.mpr ⟨mem_insertOrIgnore.mpr (Or.inl hrun), hid⟩

theorem exposure_configure (hsound : Sound store) (pin : SpendRun) (test : SpendRun → Bool) :
    exposure { store with runs := insertOrIgnore store.runs pin } test = exposure store test := by
  rw [exposure_eq_sumOf, exposure_eq_sumOf]
  refine Table.sumOf_congr fun charge hcharge => ?_
  unfold Charge.share
  rw [chargeRun_configure hsound pin hcharge]

variable {pin : SpendRun}

theorem cap_eq_of_groupDiffers {named named' : String × Amount} (h : groupDiffers store pin = false)
    (hpin : pin.group = some named) (hrun : run ∈ store.runs) (hgroup : run.group = some named')
    (hevent : run.event = pin.event) (hname : named'.1 = named.1) : named'.2 = named.2 := by
  unfold groupDiffers at h
  rw [hpin, Option.any_some, List.any_eq_false] at h
  have hsame := h run hrun
  simpa [hevent, hgroup, hname] using hsame

theorem Sound.configure (h : Sound store) (hgroup : groupDiffers store pin = false) :
    Sound { store with runs := insertOrIgnore store.runs pin } where
  joined := by
    intro charge hcharge
    obtain ⟨run, hrun, hrest⟩ := h.joined charge hcharge
    exact ⟨run, mem_insertOrIgnore.mpr (Or.inl hrun), hrest⟩
  bounded := h.bounded
  full := h.full
  groups := by
    intro run hrun other hother hevent named named' hnamed hnamed' hname
    rcases mem_insertOrIgnore.mp hrun with hold | ⟨rfl, -⟩ <;>
      rcases mem_insertOrIgnore.mp hother with hold' | ⟨rfl, -⟩
    · exact h.groups run hold other hold' hevent named named' hnamed hnamed' hname
    · exact cap_eq_of_groupDiffers hgroup hnamed' hold hnamed hevent hname
    · exact (cap_eq_of_groupDiffers hgroup hnamed hold' hnamed' hevent.symm hname.symm).symm
    · rw [hnamed] at hnamed'
      rw [Option.some.inj hnamed']

theorem WithinCaps.configure (h : WithinCaps store) (hsound : Sound store)
    (hgroup : groupDiffers store pin = false) :
    WithinCaps { store with runs := insertOrIgnore store.runs pin } := by
  intro scope cap hcapped
  rw [exposure_configure hsound]
  cases hcapped with
  | event hevent => exact h _ _ (Capped.event hevent)
  | day hevent day => exact h _ _ (@Capped.day store _ hevent day)
  | @run run hrun =>
    rcases mem_insertOrIgnore.mp hrun with hold | ⟨rfl, hnone⟩
    · exact h _ _ (Capped.run hold)
    · refine (exposure_eq_zero fun charge hcharge other hother => ?_).trans_le
        (Decimal.value_nonneg _)
      rw [Table.find_eq_none_iff] at hnone
      have hne := hnone other (chargeRun_eq_some_iff.mp hother).1
      simp [Scope.holds, hne]
  | @group run named hrun hnamed =>
    rcases mem_insertOrIgnore.mp hrun with hold | ⟨rfl, -⟩
    · exact h _ _ (Capped.group hold hnamed)
    · by_cases hshared : ∃ other ∈ store.runs, (Scope.group run.event named.1).holds other = true
      · obtain ⟨other, hother, hholds⟩ := hshared
        simp only [Scope.holds, Bool.and_eq_true, decide_eq_true_eq, Option.any_eq_true] at hholds
        obtain ⟨hevent, own, hown, hname⟩ := hholds
        have hcap := cap_eq_of_groupDiffers hgroup hnamed hother hown hevent hname
        have hwithin := h _ _ (Capped.group hother hown)
        rwa [hevent, hname, hcap] at hwithin
      · refine (exposure_eq_zero fun charge _ other hother => ?_).trans_le (Decimal.value_nonneg _)
        by_contra hpass
        exact hshared ⟨other, (chargeRun_eq_some_iff.mp hother).1, by simpa using hpass⟩

section Reserve

variable {requestId provider : String} {bound : Amount} {event : SpendEvent} {run : SpendRun}
  {charges : Table Charge Charge.id}

/-- A reservation keeps what every charge refers to. -/
theorem Sound.reserve (h : Sound store)
    (hfound : event ∈ store.events ∧ run ∈ store.runs ∧ run.event = event.id)
    (hcharges : store.charges.insert? (Charge.reserved requestId run.id provider bound) =
      some charges) : Sound { store with charges := charges } := by
  have hnew : ∀ charge ∈ charges, charge ∈ store.charges ∨
      charge = Charge.reserved requestId run.id provider bound :=
    fun charge hcharge => (Table.mem_insert? hcharges).mp hcharge
  refine ⟨fun charge hcharge => ?_, fun charge hcharge => ?_, fun charge hcharge => ?_, h.groups⟩
  · rcases hnew charge hcharge with hold | rfl
    · exact h.joined charge hold
    · exact ⟨run, hfound.2.1, rfl, event, hfound.1, hfound.2.2.symm⟩
  · rcases hnew charge hcharge with hold | rfl
    · exact h.bounded charge hold
    · exact le_rfl
  · rcases hnew charge hcharge with hold | rfl
    · exact h.full charge hold
    · exact fun _ => rfl

theorem exposure_add_le
    (hexact : Decimal.SumsExactly Decimal.standard (exposures store scope.holds ++ [bound.number]))
    (hover : overCap store scope bound cap = false) :
    exposure store scope.holds + bound.number.value ≤ cap.number.value := by
  unfold overCap at hover
  rw [← Decimal.sum_append_singleton] at hover
  have hle : ¬cap.number.value <
      (Decimal.sum Decimal.standard (exposures store scope.holds ++ [bound.number])).value := by
    rw [← Decimal.lt_iff, hover]
    exact Bool.false_ne_true
  rw [Decimal.sum_value hexact, List.map_append, List.sum_append, List.map_singleton,
    List.sum_singleton] at hle
  exact not_lt.mp hle

/-- A reservation whose additions were exact keeps every cap. -/
theorem WithinCaps.reserve (h : WithinCaps store) (hsound : Sound store)
    (hfound : event ∈ store.events ∧ run ∈ store.runs ∧ run.event = event.id)
    (hexact : ∀ scope cap, (scope, cap) ∈ capsOf event run →
      Decimal.SumsExactly Decimal.standard (exposures store scope.holds ++ [bound.number]))
    (hcaps : ∀ scope cap, (scope, cap) ∈ capsOf event run → overCap store scope bound cap = false)
    (hcharges : store.charges.insert? (Charge.reserved requestId run.id provider bound) =
      some charges) : WithinCaps { store with charges := charges } := by
  intro scope cap hcapped
  have hold := hcapped.of_charges
  have hsum : exposure { store with charges := charges } scope.holds =
      exposure store scope.holds +
        (Charge.reserved requestId run.id provider bound).share store scope.holds := by
    rw [exposure_eq_sumOf, exposure_eq_sumOf]
    exact Table.sumOf_insert? hcharges
  have hjoin : chargeRun store (Charge.reserved requestId run.id provider bound) = some run :=
    chargeRun_eq_some_iff.mpr ⟨hfound.2.1, rfl⟩
  rw [hsum]
  unfold Charge.share
  rw [hjoin, Option.any_some]
  split_ifs with hholds
  · have hcap := mem_capsOf hsound hold hfound.1 hfound.2.1 hfound.2.2 hholds
    exact exposure_add_le (hexact scope cap hcap) (hcaps scope cap hcap)
  · rw [add_zero]
    exact h scope cap hold

end Reserve

section Settle

variable {row : Charge} {exposed : Amount} {state : ChargeState}

theorem Sound.settle (h : Sound store) (hrow : row ∈ store.charges)
    (hle : exposed.number.value ≤ row.bound.number.value)
    (hfull : state ≠ .settled → exposed = row.bound) :
    Sound { store with charges := store.charges.put { row with exposure := exposed, state } } := by
  have hput : ∀ charge ∈ store.charges.put { row with exposure := exposed, state },
      charge = { row with exposure := exposed, state } ∨ charge ∈ store.charges := by
    intro charge hcharge
    rcases Table.mem_put.mp hcharge with hnew | ⟨hold, -⟩
    · exact Or.inl hnew
    · exact Or.inr hold
  refine ⟨fun charge hcharge => ?_, fun charge hcharge => ?_, fun charge hcharge => ?_, h.groups⟩
  · rcases hput charge hcharge with rfl | hold
    · exact h.joined row hrow
    · exact h.joined charge hold
  · rcases hput charge hcharge with rfl | hold
    · exact hle
    · exact h.bounded charge hold
  · rcases hput charge hcharge with rfl | hold
    · exact hfull
    · exact h.full charge hold

theorem WithinCaps.settle (h : WithinCaps store) (hsound : Sound store) (hrow : row ∈ store.charges)
    (hle : exposed.number.value ≤ row.bound.number.value)
    (hfinal : row.state ≠ .reserved → exposed = row.exposure ∧ state = row.state) :
    WithinCaps
      { store with charges := store.charges.put { row with exposure := exposed, state } } := by
  have hlower : exposed.number.value ≤ row.exposure.number.value := by
    by_cases hreserved : row.state = .reserved
    · have hfull := hsound.full row hrow (by simp [hreserved])
      rwa [hfull]
    · exact (congrArg (fun amount => amount.number.value) (hfinal hreserved).1).le
  intro scope cap hcapped
  have hold := hcapped.of_charges
  refine le_trans ?_ (h scope cap hold)
  rw [exposure_eq_sumOf, exposure_eq_sumOf]
  have hexchange := @Table.sumOf_put _ _ _ _ _ store.charges (Charge.share store scope.holds) _ row
    { row with exposure := exposed, state } hrow rfl
  have hshare : Charge.share store scope.holds { row with exposure := exposed, state } ≤
      Charge.share store scope.holds row := by
    have hjoin : chargeRun store { row with exposure := exposed, state } = chargeRun store row := rfl
    unfold Charge.share
    rw [hjoin]
    split_ifs
    · exact hlower
    · exact le_rfl
  show (store.charges.put { row with exposure := exposed, state }).sumOf
    (Charge.share store scope.holds) ≤ _
  linarith

end Settle

theorem perform_sound {call : Call} (h : Sound store) (hmade : perform store call = .ok after) :
    Sound after ∧ (WithinCaps store → call.AddsExactly store → WithinCaps after) := by
  cases call with
  | openGuard eventId dailyLimit eventLimit =>
    obtain ⟨event, rfl⟩ := openGuard_ok hmade
    exact ⟨h.openEvent event, fun hcaps _ => hcaps.openEvent h event⟩
  | configureRun eventId runId day runLimit group groupLimit =>
    obtain ⟨pin, hgroup, rfl⟩ := configureRun_ok hmade
    exact ⟨h.configure hgroup, fun hcaps _ => hcaps.configure h hgroup⟩
  | reserve eventId runId provider requestId bound =>
    obtain ⟨bound', event, run, charges, hbound, hnew, hfound, hcaps, hcharges, rfl⟩ :=
      reserve_ok hmade
    obtain ⟨hevent, hrun, rfl, hbelongs⟩ := findRun_ok hfound
    refine ⟨h.reserve ⟨hevent, hrun, hbelongs⟩ hcharges, fun hwithin hexact => ?_⟩
    exact hwithin.reserve h ⟨hevent, hrun, hbelongs⟩
      (hexact bound' hbound hnew event run hfound) hcaps hcharges
  | settle requestId charged =>
    obtain ⟨row, hrow, exposed, state, rfl, hle, hfull, hfinal⟩ := settle_ok hmade
    exact ⟨h.settle hrow hle hfull, fun hcaps _ => hcaps.settle h hrow hle hfinal⟩

theorem next_sound (store : SpendStore) (call : Call) (h : Sound store) :
    Sound (next store call) := by
  unfold next
  cases hmade : perform store call with
  | error error => exact h
  | ok made => exact (perform_sound h hmade).1

theorem next_withinCaps {call : Call} (h : Sound store) (hcaps : WithinCaps store)
    (hexact : call.AddsExactly store) : WithinCaps (next store call) := by
  unfold next
  cases hmade : perform store call with
  | error error => exact hcaps
  | ok made => exact (perform_sound h hmade).2 hcaps hexact

theorem Sound.reached (calls : List Call) : Sound (reached calls) :=
  Machine.after_invariant next_sound Sound.initial calls

/-! ### What stays of a charge -/

def Evolves (before after : SpendStore) : Prop :=
  ∀ charge ∈ before.charges, ∃ later ∈ after.charges, later.id = charge.id ∧
    (charge.state ≠ .reserved → later = charge)

theorem Evolves.of_charges (h : after.charges = store.charges) : Evolves store after :=
  fun charge hcharge => ⟨charge, h ▸ hcharge, rfl, fun _ => rfl⟩

theorem Evolves.trans {first second third : SpendStore} (h : Evolves first second)
    (h' : Evolves second third) : Evolves first third := by
  intro charge hcharge
  obtain ⟨later, hlater, hid, hfinal⟩ := h charge hcharge
  obtain ⟨last, hlast, hid', hfinal'⟩ := h' later hlater
  refine ⟨last, hlast, hid'.trans hid, fun hstate => ?_⟩
  have hsame := hfinal hstate
  rw [← hsame] at hstate
  exact (hfinal' hstate).trans hsame

theorem next_evolves (store : SpendStore) (call : Call) : Evolves store (next store call) := by
  unfold next
  cases hmade : perform store call with
  | error error => exact Evolves.of_charges rfl
  | ok made =>
    cases call with
    | openGuard eventId dailyLimit eventLimit =>
      obtain ⟨event, rfl⟩ := openGuard_ok hmade
      exact Evolves.of_charges rfl
    | configureRun eventId runId day runLimit group groupLimit =>
      obtain ⟨pin, -, rfl⟩ := configureRun_ok hmade
      exact Evolves.of_charges rfl
    | reserve eventId runId provider requestId bound =>
      obtain ⟨bound', event, run, charges, -, -, -, -, hcharges, rfl⟩ := reserve_ok hmade
      exact fun charge hcharge =>
        ⟨charge, (Table.mem_insert? hcharges).mpr (Or.inl hcharge), rfl, fun _ => rfl⟩
    | settle requestId charged =>
      obtain ⟨row, hrow, exposed, state, rfl, -, -, hfinal⟩ := settle_ok hmade
      intro charge hcharge
      by_cases hid : charge.id = row.id
      · have hsame := Table.eq_of_key_eq hcharge hrow hid
        subst hsame
        refine ⟨_, Table.mem_put.mpr (Or.inl rfl), rfl, fun hstate => ?_⟩
        obtain ⟨rfl, rfl⟩ := hfinal hstate
        rfl
      · exact ⟨charge, Table.mem_put.mpr (Or.inr ⟨hcharge, hid⟩), rfl, fun _ => rfl⟩

/-- So do any calls. -/
theorem after_evolves (store : SpendStore) (calls : List Call) :
    Evolves store (Machine.after next store calls) :=
  @Machine.after_related _ _ _ (fun _ => True) Evolves (fun _ _ _ => trivial)
    (fun _ => Evolves.of_charges rfl) Evolves.trans (fun store call _ => next_evolves store call)
    store trivial calls

/-! ### What stays of the limits -/

def Pinned (before after : SpendStore) : Prop :=
  (∀ event ∈ before.events, event ∈ after.events) ∧ ∀ run ∈ before.runs, run ∈ after.runs

theorem next_pinned (store : SpendStore) (call : Call) : Pinned store (next store call) := by
  unfold next
  cases hmade : perform store call with
  | error error => exact ⟨fun _ => id, fun _ => id⟩
  | ok made =>
    cases call with
    | openGuard eventId dailyLimit eventLimit =>
      obtain ⟨event, rfl⟩ := openGuard_ok hmade
      exact ⟨fun _ hold => mem_insertOrIgnore.mpr (Or.inl hold), fun _ => id⟩
    | configureRun eventId runId day runLimit group groupLimit =>
      obtain ⟨pin, -, rfl⟩ := configureRun_ok hmade
      exact ⟨fun _ => id, fun _ hold => mem_insertOrIgnore.mpr (Or.inl hold)⟩
    | reserve eventId runId provider requestId bound =>
      obtain ⟨bound', event, run, charges, -, -, -, -, -, rfl⟩ := reserve_ok hmade
      exact ⟨fun _ => id, fun _ => id⟩
    | settle requestId charged =>
      obtain ⟨row, -, exposed, state, rfl, -⟩ := settle_ok hmade
      exact ⟨fun _ => id, fun _ => id⟩

/-- **Limits are pinned.**  Whatever calls follow, no limit of an event or of a run is changed
or dropped; every charge counts for a run of an event that is there; and the runs of one event
name one limit for a group. -/
theorem limits_pinned (calls later : List Call) :
    Pinned (reached calls) (Machine.after next (reached calls) later) ∧
      (∀ charge ∈ (reached calls).charges, ∃ run ∈ (reached calls).runs, run.id = charge.run ∧
        ∃ event ∈ (reached calls).events, event.id = run.event) ∧
      ∀ run ∈ (reached calls).runs, ∀ other ∈ (reached calls).runs, run.event = other.event →
        ∀ group limit limit', run.group = some (group, limit) → other.group = some (group, limit') →
          limit = limit' := by
  have hsound := Sound.reached calls
  refine ⟨?_, hsound.joined, fun run hrun other hother hevent group limit limit' h h' =>
    hsound.groups run hrun other hother hevent _ _ h h' rfl⟩
  exact @Machine.after_related _ _ _ (fun _ => True) Pinned (fun _ _ _ => trivial)
    (fun _ => ⟨fun _ => id, fun _ => id⟩)
    (fun first second => ⟨fun _ hold => second.1 _ (first.1 _ hold),
      fun _ hold => second.2 _ (first.2 _ hold)⟩)
    (fun store call _ => next_pinned store call) _ trivial later

/-- The store accepts the call. -/
def Accepted (store : SpendStore) (call : Call) : Prop :=
  ∃ after, perform store call = .ok after

theorem not_accepted_of_charge (hcharge : charge ∈ store.charges)
    (eventId runId provider : String) (bound : Numeral) :
    ¬Accepted store (.reserve eventId runId provider charge.id bound) := by
  rintro ⟨made, hmade⟩
  obtain ⟨bound', event, run, charges, -, hnone, -⟩ := reserve_ok hmade
  rw [Table.find_of_mem hcharge] at hnone
  cases hnone

theorem reserved_once {provider : String} {bound : Numeral}
    (h : Accepted store (.reserve eventId runId provider requestId bound)) (later : List Call)
    (eventId' runId' provider' : String) (bound' : Numeral) :
    ¬Accepted (Machine.after next (next store (.reserve eventId runId provider requestId bound)) later)
      (.reserve eventId' runId' provider' requestId bound') := by
  obtain ⟨made, hmade⟩ := h
  obtain ⟨amount, event, run, charges, -, -, -, -, hcharges, hsaved⟩ := reserve_ok hmade
  have hnow : Charge.reserved requestId runId provider amount ∈
      (next store (.reserve eventId runId provider requestId bound)).charges := by
    unfold next
    rw [hmade, hsaved]
    exact (Table.mem_insert? hcharges).mpr (Or.inr rfl)
  obtain ⟨last, hlast, hid, -⟩ := after_evolves _ later _ hnow
  have hrefused := not_accepted_of_charge hlast eventId' runId' provider' bound'
  rwa [hid] at hrefused

/-- **The spend guard.**  Along every run in which no addition is rounded every cap
holds.  In every run each exposure is within its bound and is the bound until the call
is settled, settled and uncertain rows are final, and a request is reserved once. -/
theorem spend_caps_kept (calls : List Call) :
    (Machine.EachStep next (fun store call => call.AddsExactly store) SpendStore.initial calls →
      ∀ store ∈ Machine.states next SpendStore.initial calls, WithinCaps store) ∧
    (∀ charge ∈ (reached calls).charges,
      charge.exposure.number.value ≤ charge.bound.number.value ∧
        (charge.state ≠ .settled → charge.exposure = charge.bound)) ∧
    (∀ charge ∈ (reached calls).charges, charge.state ≠ .reserved → ∀ later,
      charge ∈ (Machine.after next (reached calls) later).charges) ∧
    ∀ eventId runId provider requestId bound,
      Accepted (reached calls) (.reserve eventId runId provider requestId bound) →
        ∀ later eventId' runId' provider' bound',
          ¬Accepted (Machine.after next
            (next (reached calls) (.reserve eventId runId provider requestId bound)) later)
              (.reserve eventId' runId' provider' requestId bound') := by
  have hsound := Sound.reached calls
  refine ⟨fun hexact store hstore => ?_, fun charge hcharge => ?_, fun charge hcharge hstate later => ?_,
    fun eventId runId provider requestId bound haccepted later eventId' runId' provider' bound' =>
      reserved_once haccepted later eventId' runId' provider' bound'⟩
  · have hinitial : WithinCaps SpendStore.initial := by
      intro scope cap hcapped
      exact (exposure_eq_zero fun _ hcharge => absurd hcharge Table.not_mem_empty).trans_le
        (Decimal.value_nonneg _)
    have hkept : ∀ store, ∀ call ∈ calls, Sound store ∧ WithinCaps store → call.AddsExactly store →
        Sound (next store call) ∧ WithinCaps (next store call) :=
      fun store call _ hinv hadds => ⟨next_sound store call hinv.1, next_withinCaps hinv.1 hinv.2 hadds⟩
    exact (hexact.invariant hkept ⟨Sound.initial, hinitial⟩ store hstore).2
  · exact ⟨hsound.bounded charge hcharge, hsound.full charge hcharge⟩
  · obtain ⟨last, hlast, -, hfinal⟩ := after_evolves _ later charge hcharge
    exact hfinal hstate ▸ hlast

theorem addsExactly_of_coarse {eventId runId provider requestId : String} {bound : Numeral}
    {exponent : Int} (htiny : Decimal.standard.tiny ≤ exponent)
    (hexposures : ∀ charge ∈ store.charges, exponent ≤ charge.exposure.number.exponent)
    (hbound : ∀ bound', amount bound = .ok bound' → exponent ≤ bound'.number.exponent ∧
      (store.charges.rows.map fun charge => charge.exposure.number.rescaled exponent).sum +
        bound'.number.rescaled exponent < 10 ^ Decimal.standard.precision) :
    (Call.reserve eventId runId provider requestId bound).AddsExactly store := by
  intro bound' hamount _ event run _ scope cap _
  obtain ⟨hexponent, hsum⟩ := hbound bound' hamount
  refine Decimal.sumsExactly_of_lt htiny (fun d hd => ?_) ?_
  · rcases List.mem_append.mp hd with hexposed | hlast
    · unfold exposures at hexposed
      obtain ⟨charge, hcharge, rfl⟩ := List.mem_map.mp hexposed
      exact hexposures charge (List.mem_filter.mp hcharge).1
    · rw [List.mem_singleton.mp hlast]
      exact hexponent
  · -- The charges of a scope are some of the charges.
    have hsome : ((exposures store scope.holds).map fun d => d.rescaled exponent).sum ≤
        (store.charges.rows.map fun charge => charge.exposure.number.rescaled exponent).sum := by
      unfold exposures
      rw [List.map_map]
      exact (List.filter_sublist.map _).sum_le_sum fun _ _ => Nat.zero_le _
    rw [List.map_append, List.sum_append, List.map_singleton, List.sum_singleton]
    omega

def openedCalls : List Call :=
  [.openGuard "event" (.finite false ⟨7, 0⟩) (.finite false ⟨7, 0⟩),
    .configureRun "event" "run" "day" (.finite false ⟨1, 0⟩) none none]

theorem spend_caps_kept_guarded :
    ∀ store ∈ Machine.states next SpendStore.initial
        (openedCalls ++ guarded "event" "run" "openai" "first" (.finite false ⟨2, -2⟩)
          (some (.finite false ⟨13, -3⟩, true)) ++
          guarded "event" "run" "openai" "second" (.finite false ⟨2, -2⟩)
            (some (.finite false ⟨0, 0⟩, false))), WithinCaps store := by
  have hcents : ∀ bound', amount (.finite false ⟨2, -2⟩) = .ok bound' →
      bound'.number = ⟨2, -2⟩ := by
    intro bound' hbound
    cases hbound
    rfl
  refine (spend_caps_kept _).1 ⟨trivial, trivial, ?_, trivial, ?_, trivial, trivial⟩
  · refine @addsExactly_of_coarse _ _ _ _ _ _ (-3) (by decide) (by decide +kernel) ?_
    intro bound' hbound
    rw [hcents bound' hbound]
    decide +kernel
  · refine @addsExactly_of_coarse _ _ _ _ _ _ (-3) (by decide) (by decide +kernel) ?_
    intro bound' hbound
    rw [hcents bound' hbound]
    decide +kernel

def roundedCalls : List Call :=
  openedCalls ++
    [.reserve "event" "run" "openai" "first" (.finite false ⟨9999999999999999999999999999, -28⟩),
      .reserve "event" "run" "openai" "second" (.finite false ⟨14, -29⟩)]

theorem cap_exceeded_by_rounding : ¬WithinCaps (reached roundedCalls) := by
  intro h
  have hrun : (⟨"run", "event", "day", ⟨false, ⟨1, 0⟩, nofun⟩, none⟩ : SpendRun) ∈
      (reached roundedCalls).runs := Table.mem_rows.mp (by decide +kernel)
  have hcap := h _ _ (Capped.run hrun)
  revert hcap
  decide +kernel

end ProofOps.Adapters.Local.SpendGuard
