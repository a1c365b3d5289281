import ProofOps.Adapters.Local.UpstageProbeAmounts

/-!
# The cap of the probe ledger

What the calls have committed stays below the limit: a reservation is checked against it, a
settlement lowers one row, and an extension raises the limit.  A call that is under way owns the
row of its request, so no other call posts the request or settles it.
-/

namespace ProofOps.Adapters.Local.UpstageProbe

open Foundation Foundation.Table Foundation.Machine Foundation.PyJson
open SpendGuard (Numeral)

variable {ledger : Ledger} {request : Request} {requestId : String} {receipt : Receipt} {id : Nat}

section Runs

variable {rules : Rules} {requests : Nat → Request} {state : State}

/-! ### The ledger -/

structure Ledger.Valid (ledger : Ledger) : Prop where
  rows : ∀ row ∈ ledger.calls, row.Valid
  within : ∃ limit, authorizedLimit ledger = some limit ∧ spent ledger.calls ≤ limit.value

theorem Ledger.Valid.initial : Ledger.initial.Valid where
  rows := fun _ hrow => absurd hrow Table.not_mem_empty
  within := by
    refine ⟨limitUsd, authorizedLimit_eq_some_iff.mpr ⟨rfl, ⟨limitUsd, 0⟩, rfl, rfl⟩, ?_⟩
    rw [value_limitUsd]
    show spent Table.empty ≤ 10
    norm_num [spent]

theorem Ledger.Valid.total (h : ledger.Valid) :
    ∃ limit total, authorizedLimit ledger = some limit ∧ callTotal ledger = some total ∧
      total.value = spent ledger.calls ∧ total.value ≤ limit.value ∧ limit.value ≤ 30 ∧
      total = Decimal.sum Decimal.standard (ledger.calls.rows.map CallRow.number) := by
  obtain ⟨limit, hlimit, hspent⟩ := h.within
  have hceiling := authorizedLimit_le hlimit
  obtain ⟨total, htotal, hvalue, hsum⟩ := callTotal_eq h.rows (by linarith)
  exact ⟨limit, total, hlimit, htotal, hvalue, hvalue ▸ hspent, hceiling, hsum⟩

theorem authorizedLimit_calls (ledger : Ledger) (calls : Table CallRow CallRow.requestId) :
    authorizedLimit { ledger with calls := calls } = authorizedLimit ledger :=
  rfl

theorem reservedRow_valid (request : Request) : (reservedRow rules request).Valid :=
  .reserved rfl rfl

theorem reserve_ok {after : Ledger} (h : ledger.Valid)
    (hok : reserve rules ledger request = .ok after) :
    after.Valid ∧ ∃ calls, ledger.calls.insert? (reservedRow rules request) = some calls ∧
      after = { ledger with calls := calls } := by
  obtain ⟨limit, total, hlimit, htotal, hvalue, hwithin, hceiling, hsum⟩ := h.total
  unfold reserve at hok
  rw [hlimit] at hok
  cases hinsert : ledger.calls.insert? (reservedRow rules request) with
  | none =>
    rw [hinsert] at hok
    cases hok
  | some calls =>
    rw [hinsert, htotal] at hok
    dsimp only at hok
    split_ifs at hok with hexhausted
    cases hok
    have hrows : ∀ row ∈ calls, row.Valid := by
      intro row hrow
      rcases (mem_insert? hinsert).mp hrow with hold | rfl
      · exact h.rows row hold
      · exact reservedRow_valid request
    have hspent : spent calls = spent ledger.calls + 1 := by
      unfold spent
      rw [sumOf_insert? hinsert]
      exact congrArg _ value_reservationUsd
    -- The addition of the check is the last one of the new total.
    have hadd : (Decimal.add Decimal.standard total reservationUsd).value = spent calls := by
      have hnumbers : calls.rows.map CallRow.number =
          ledger.calls.rows.map CallRow.number ++ [reservationUsd] := by
        rw [insert?_rows hinsert, List.map_append]
        rfl
      have hexact := sumsExactly hrows (by linarith)
      rw [hnumbers] at hexact
      rw [hsum, ← Decimal.sum_append_singleton, Decimal.sum_value hexact, ← hnumbers,
        List.map_map]
      rfl
    refine ⟨⟨hrows, limit, hlimit, ?_⟩, calls, rfl, rfl⟩
    rw [← hadd, ← not_lt, ← Decimal.lt_iff]
    exact hexhausted

def settledRow (row : CallRow) (receipt : Receipt) : CallRow :=
  { row with committed := receipt.costWithVatReserveUsd, receipt := some receipt }

theorem settle_ok {after : Ledger} (hok : settle ledger requestId receipt = .ok after) :
    ∃ row, ledger.calls.find requestId = some row ∧ row.receipt = none ∧
      row.committed = .finite false reservationUsd ∧
      after = { ledger with calls := ledger.calls.put (settledRow row receipt) } := by
  unfold settle at hok
  split at hok
  · rename_i row hfind
    split_ifs at hok with hreserved
    cases hok
    exact ⟨row, hfind, hreserved.1, hreserved.2, rfl⟩
  · cases hok

theorem settle_valid {after : Ledger}
    {cost : Decimal} (h : ledger.Valid) (hok : settle ledger requestId receipt = .ok after)
    (hcost : receipt.costWithVatReserveUsd = .finite false cost) (hplaces : -10 ≤ cost.exponent)
    (hbound : cost.value ≤ 1) : after.Valid := by
  obtain ⟨row, hfind, hreceipt, hcommitted, rfl⟩ := settle_ok hok
  obtain ⟨hrow, hkey⟩ := find_eq_some_iff.mp hfind
  have hsettled : (settledRow row receipt).Valid :=
    .settled receipt cost rfl hcost hcost hplaces hbound
  refine ⟨fun other hother => ?_, ?_⟩
  · rcases mem_put.mp hother with rfl | ⟨hold, -⟩
    · exact hsettled
    · exact h.rows other hold
  · obtain ⟨limit, hlimit, hspent⟩ := h.within
    refine ⟨limit, hlimit, le_trans ?_ hspent⟩
    have hput := @sumOf_put CallRow String CallRow.requestId ℚ _ ledger.calls
      (fun row => row.number.value) _ row (settledRow row receipt) hrow rfl
    have hold : row.number.value = 1 := by
      unfold CallRow.number
      rw [hcommitted]
      exact value_reservationUsd
    have hnew : (settledRow row receipt).number.value ≤ 1 := hsettled.amount.2.2
    unfold spent
    linarith

theorem authorize_ok {after : Ledger} {additional : Additional} (h : ledger.Valid)
    (hok : authorizeAdditionalBudget ledger additional = .ok after) :
    after.Valid ∧ after.calls = ledger.calls ∧ ∀ limit limit',
      authorizedLimit ledger = some limit → authorizedLimit after = some limit' →
        limit.value ≤ limit'.value := by
  unfold authorizeAdditionalBudget at hok
  split at hok
  · cases hok
  · cases hok
  · split_ifs at hok
    split at hok
    · cases hok
    · unfold extend at hok
      split at hok
      · cases hok
      · split_ifs at hok
        dsimp only at hok
        split at hok
        · cases hok
        · rename_i _ _ _ current hcurrent _ _ raised hraised
          cases hok
          have hmono := authorizedLimit_extended hcurrent hraised
          obtain ⟨limit, hlimit, hspent⟩ := h.within
          rw [hcurrent, Option.some.injEq] at hlimit
          subst hlimit
          refine ⟨⟨h.rows, raised, hraised, hspent.trans hmono⟩, rfl, fun limit limit' hold hnew => ?_⟩
          rw [hcurrent, Option.some.injEq] at hold
          rw [hraised, Option.some.injEq] at hnew
          rw [← hold, ← hnew]
          exact hmono

/-! ### Calls under way -/

def Phase.isOpen : Phase → Bool
  | .reserved | .awaiting | .replied _ => true
  | .ready | .ended => false

structure Sound (rules : Rules) (requests : Nat → Request) (state : State) : Prop where
  ledger : state.ledger.Valid
  owned : ∀ id, (state.phases id).isOpen = true →
    state.ledger.calls.find (requests id).requestId = some (reservedRow rules (requests id))
  apart : ∀ first second, (state.phases first).isOpen = true →
    (state.phases second).isOpen = true →
    (requests first).requestId = (requests second).requestId → first = second
  unposted : ∀ id, state.phases id = .reserved → (requests id).requestId ∉ state.posted
  known : ∀ requestId ∈ state.posted, state.ledger.calls.find requestId ≠ none
  once : state.posted.Nodup

theorem sound_initial : Sound rules requests State.initial where
  ledger := Ledger.Valid.initial
  owned := fun _ h => by cases h
  apart := fun _ _ h => by cases h
  unposted := fun _ h => by cases h
  known := fun _ h => absurd h List.not_mem_nil
  once := List.nodup_nil

@[simp]
theorem enter_phases (id : Nat) (phase : Phase) :
    (state.enter id phase).phases = Function.update state.phases id phase := rfl

section Sound

variable (h : Sound rules requests state)

include h

theorem Sound.moved (id : Nat) {phase : Phase}
    (hopen : phase.isOpen = true → (state.phases id).isOpen = true) (hphase : phase ≠ .reserved) :
    Sound rules requests (state.enter id phase) where
  ledger := h.ledger
  owned := by
    intro other hother
    refine h.owned other ?_
    by_cases hself : other = id
    · subst hself
      rw [enter_phases, Function.update_self] at hother
      exact hopen hother
    · rwa [enter_phases, Function.update_of_ne hself] at hother
  apart := by
    have hbefore : ∀ other, ((state.enter id phase).phases other).isOpen = true →
        (state.phases other).isOpen = true := by
      intro other hother
      by_cases hself : other = id
      · subst hself
        rw [enter_phases, Function.update_self] at hother
        exact hopen hother
      · rwa [enter_phases, Function.update_of_ne hself] at hother
    exact fun first second hfirst hsecond => h.apart first second (hbefore _ hfirst)
      (hbefore _ hsecond)
  unposted := by
    intro other hother
    refine h.unposted other ?_
    by_cases hself : other = id
    · subst hself
      rw [enter_phases, Function.update_self] at hother
      exact absurd hother hphase
    · rwa [enter_phases, Function.update_of_ne hself] at hother
  known := h.known
  once := h.once

theorem Sound.reserved {after : Ledger}
    (hok : reserve rules state.ledger (requests id) = .ok after) :
    Sound rules requests { state.enter id .reserved with ledger := after } := by
  obtain ⟨hvalid, calls, hinsert, rfl⟩ := reserve_ok h.ledger hok
  have hfree : state.ledger.calls.find (requests id).requestId = none := find_of_insert? hinsert
  -- Another open call of the request would have its row.
  have hother : ∀ other, other ≠ id → (state.phases other).isOpen = true →
      (requests other).requestId ≠ (requests id).requestId := by
    intro other _ hopen hsame
    have howned := h.owned other hopen
    rw [hsame, hfree] at howned
    cases howned
  have hphase : ∀ other, other ≠ id →
      (Function.update state.phases id Phase.reserved) other = state.phases other :=
    fun other hne => Function.update_of_ne hne _ _
  refine ⟨hvalid, ?_, ?_, ?_, ?_, h.once⟩
  · intro other hopen
    by_cases hself : other = id
    · rw [hself]
      exact find_eq_some_iff.mpr ⟨(mem_insert? hinsert).mpr (Or.inr rfl), rfl⟩
    · change (Function.update state.phases id Phase.reserved other).isOpen = true at hopen
      rw [hphase other hself] at hopen
      exact find_insert?_of_some hinsert (h.owned other hopen)
  · intro first second hfirst hsecond hsame
    change (Function.update state.phases id Phase.reserved first).isOpen = true at hfirst
    change (Function.update state.phases id Phase.reserved second).isOpen = true at hsecond
    by_cases hself : first = id
    · by_cases hself' : second = id
      · rw [hself, hself']
      · rw [hphase second hself'] at hsecond
        rw [hself] at hsame
        exact absurd hsame.symm (hother second hself' hsecond)
    · rw [hphase first hself] at hfirst
      by_cases hself' : second = id
      · rw [hself'] at hsame
        exact absurd hsame (hother first hself hfirst)
      · rw [hphase second hself'] at hsecond
        exact h.apart first second hfirst hsecond hsame
  · intro other hreserved hposted
    by_cases hself : other = id
    · rw [hself] at hposted
      exact h.known _ hposted hfree
    · change Function.update state.phases id Phase.reserved other = .reserved at hreserved
      rw [hphase other hself] at hreserved
      exact h.unposted other hreserved hposted
  · intro requestId hposted
    obtain ⟨row, hrow⟩ := Option.ne_none_iff_exists'.mp (h.known requestId hposted)
    rw [find_insert?_of_some hinsert hrow]
    exact Option.some_ne_none row

theorem Sound.post (hreserved : state.phases id = .reserved) :
    Sound rules requests
      { state.enter id .awaiting with posted := state.posted ++ [(requests id).requestId] } := by
  have hopen : (state.phases id).isOpen = true := by
    rw [hreserved]
    rfl
  have hmoved : Sound rules requests (state.enter id .awaiting) :=
    h.moved id (fun _ => hopen) (by simp)
  refine ⟨hmoved.ledger, hmoved.owned, hmoved.apart, ?_, ?_, ?_⟩
  · intro other hother hposted
    have hne : other ≠ id := by
      rintro rfl
      rw [show ({ state.enter other Phase.awaiting with
        posted := state.posted ++ [(requests other).requestId] } : State).phases other =
          .awaiting from Function.update_self ..] at hother
      cases hother
    change Function.update state.phases id Phase.awaiting other = .reserved at hother
    rw [Function.update_of_ne hne] at hother
    rcases List.mem_append.mp hposted with hold | hlast
    · exact h.unposted other hother hold
    · have hsame := List.mem_singleton.mp hlast
      exact hne (h.apart other id (by rw [hother]; rfl) hopen hsame)
  · intro requestId hposted
    rcases List.mem_append.mp hposted with hold | hlast
    · exact h.known requestId hold
    · rw [List.mem_singleton.mp hlast]
      show state.ledger.calls.find _ ≠ none
      rw [h.owned id hopen]
      exact Option.some_ne_none _
  · exact h.once.append (List.nodup_singleton _)
      (List.disjoint_singleton.mpr (h.unposted id hreserved))

theorem Sound.settled {data : Json}
    {value : String} {after : Ledger} (hreplied : state.phases id = .replied data)
    (haccepted : receiptOf rules (requests id) data = some (receipt, value))
    (hok : settle state.ledger (requests id).requestId receipt = .ok after) :
    Sound rules requests { state.enter id .ended with ledger := after } := by
  obtain ⟨cost, hcost, hplaces, hbound⟩ := receiptOf_cost haccepted
  have hvalid := settle_valid h.ledger hok hcost hplaces hbound
  have hopen : (state.phases id).isOpen = true := by
    rw [hreplied]
    rfl
  have hmoved : Sound rules requests (state.enter id .ended) :=
    h.moved id (fun hend => by cases hend) (by simp)
  obtain ⟨row, hfind, -, -, rfl⟩ := settle_ok hok
  have hkey : row.requestId = (requests id).requestId := (find_eq_some_iff.mp hfind).2
  have hput : ∀ requestId, requestId ≠ (requests id).requestId →
      (state.ledger.calls.put (settledRow row receipt)).find requestId =
        state.ledger.calls.find requestId := by
    intro requestId hne
    rw [find_put, if_neg]
    rintro rfl
    exact hne hkey
  refine ⟨hvalid, ?_, hmoved.apart, hmoved.unposted, ?_, h.once⟩
  · intro other hother
    have hne : other ≠ id := by
      rintro rfl
      change (Function.update state.phases other Phase.ended other).isOpen = true at hother
      rw [Function.update_self] at hother
      cases hother
    change (Function.update state.phases id Phase.ended other).isOpen = true at hother
    rw [Function.update_of_ne hne] at hother
    rw [hput]
    · exact h.owned other hother
    · exact fun hsame => hne (h.apart other id hother hopen hsame)
  · intro requestId hposted
    by_cases hsame : requestId = (requests id).requestId
    · have hself : (settledRow row receipt).requestId = requestId := hkey.trans hsame.symm
      rw [find_put, if_pos hself]
      exact Option.some_ne_none _
    · rw [hput requestId hsame]
      exact h.known requestId hposted

theorem Sound.withLedger {after : Ledger} (hvalid : after.Valid)
    (hcalls : after.calls = state.ledger.calls) :
    Sound rules requests { state with ledger := after } where
  ledger := hvalid
  owned := fun id hopen => by
    rw [hcalls]
    exact h.owned id hopen
  apart := h.apart
  unposted := h.unposted
  known := fun requestId hposted => by
    rw [hcalls]
    exact h.known requestId hposted
  once := h.once

end Sound

theorem bind_requestBody {expired : Bool} {after : Ledger}
    (h : ((requestBody rules request expired).bind fun _ => reserve rules ledger request) =
      .ok after) : reserve rules ledger request = .ok after := by
  cases hbody : requestBody rules request expired with
  | error error =>
    rw [hbody] at h
    cases h
  | ok value =>
    rw [hbody] at h
    exact h

/-- Every step keeps the state sound. -/
theorem next_sound (h : Sound rules requests state) (step : Step) :
    Sound rules requests (next rules requests state step) := by
  cases step with
  | reserve id expired =>
    unfold next move
    dsimp only
    cases htransaction : transaction rules requests state (.reserve id expired) with
    | none => exact h
    | some result =>
      unfold transaction at htransaction
      dsimp only at htransaction
      split_ifs at htransaction
      rw [Option.some.injEq] at htransaction
      cases result with
      | error error => exact h.moved id (fun hend => by cases hend) (by simp)
      | ok after => exact h.reserved (bind_requestBody htransaction)
  | post id =>
    unfold next move
    dsimp only
    split_ifs with hreserved
    · exact h.post hreserved
    · exact h
  | reply id data =>
    unfold next move
    dsimp only
    split_ifs with hawaiting
    · exact h.moved id (fun _ => by rw [hawaiting]; rfl) (by simp)
    · exact h
  | settle id =>
    unfold next move transaction
    dsimp only
    cases hphase : state.phases id with
    | replied data =>
      dsimp only
      cases haccepted : receiptOf rules (requests id) data with
      | none => exact h.moved id (fun hend => by cases hend) (by simp)
      | some accepted =>
        obtain ⟨receipt, value⟩ := accepted
        cases hok : settle state.ledger (requests id).requestId receipt with
        | error error =>
          simp only [Option.map_some, hok, committed]
          exact h.moved id (fun hend => by cases hend) (by simp)
        | ok after =>
          simp only [Option.map_some, hok, committed]
          exact h.settled hphase haccepted hok
    | ready | reserved | awaiting | ended => exact h
  | fail id => exact h.moved id (fun hend => by cases hend) (by simp)
  | authorize additional =>
    unfold next move transaction
    dsimp only
    cases hok : authorizeAdditionalBudget state.ledger additional with
    | error error => exact h
    | ok after =>
      obtain ⟨hvalid, hcalls, -⟩ := authorize_ok h.ledger hok
      exact h.withLedger hvalid hcalls

end Runs

/-! ### Runs -/

def run (rules : Rules) (requests : Nat → Request) (steps : List Step) : State :=
  after (next rules requests) State.initial steps

def Posts (rules : Rules) (requests : Nat → Request) (state : State) (step : Step)
    (requestId : String) : Prop :=
  (next rules requests state step).posted = state.posted ++ [requestId]

structure Settles (rules : Rules) (requests : Nat → Request) (state : State) (step : Step)
    (row after : CallRow) : Prop where
  own : ∃ id data receipt value, step = .settle id ∧ (requests id).requestId = row.requestId ∧
    state.phases id = .replied data ∧ receiptOf rules (requests id) data = some (receipt, value) ∧
    after = settledRow row receipt
  reserved : row.receipt = none ∧ row.committed = .finite false reservationUsd
  lowered : after.number.value ≤ row.number.value

/-- What a run of steps keeps of the ledger. -/
structure LedgerCap (rules : Rules) (requests : Nat → Request) (steps : List Step) : Prop where
  within : ∃ limit total, authorizedLimit (run rules requests steps).ledger = some limit ∧
    callTotal (run rules requests steps).ledger = some total ∧ total.value ≤ limit.value ∧
    limit.value ≤ generalCeilingUsd.value
  raised : ∀ front back limit limit', steps = front ++ back →
    authorizedLimit (run rules requests front).ledger = some limit →
    authorizedLimit (run rules requests steps).ledger = some limit' → limit.value ≤ limit'.value
  once : (run rules requests steps).posted.Nodup
  posted : ∀ front step back requestId, steps = front ++ step :: back →
    Posts rules requests (run rules requests front) step requestId →
    ∃ row, (run rules requests front).ledger.calls.find requestId = some row ∧
      row.receipt = none ∧ row.committed = .finite false reservationUsd
  kept : ∀ front step back requestId row, steps = front ++ step :: back →
    (run rules requests front).ledger.calls.find requestId = some row →
    ∃ after, (run rules requests (front ++ [step])).ledger.calls.find requestId = some after ∧
      (after = row ∨ Settles rules requests (run rules requests front) step row after)
  committed : ∀ row ∈ (run rules requests steps).ledger.calls,
    (row.receipt = none → row.committed = .finite false reservationUsd) ∧
      ∀ receipt, row.receipt = some receipt → row.committed = receipt.costWithVatReserveUsd
  rejected : ∀ front step back, steps = front ++ step :: back →
    (∀ accepted, transaction rules requests (run rules requests front) step ≠
      some (.ok accepted)) →
    (run rules requests (front ++ [step])).ledger = (run rules requests front).ledger

variable {rules : Rules} {requests : Nat → Request}

theorem run_append (front back : List Step) :
    run rules requests (front ++ back) =
      after (next rules requests) (run rules requests front) back :=
  after_append _ _ _

/-- Every run is sound. -/
theorem run_sound (steps : List Step) : Sound rules requests (run rules requests steps) :=
  after_invariant (fun state step (h : Sound rules requests state) => next_sound h step)
    sound_initial steps

theorem run_ledger (front : List Step) (step : Step) :
    (run rules requests (front ++ [step])).ledger =
      committed (run rules requests front).ledger
        (transaction rules requests (run rules requests front) step) := by
  rw [run_append]
  rfl

inductive Accepts (rules : Rules) (requests : Nat → Request) (state : State) :
    Step → Ledger → Prop
  | reserve (id : Nat) (expired : Bool) (after : Ledger)
      (hok : UpstageProbe.reserve rules state.ledger (requests id) = .ok after) :
      Accepts rules requests state (.reserve id expired) after
  | settle (id : Nat) (data : Json) (receipt : Receipt) (value : String) (after : Ledger)
      (hreplied : state.phases id = .replied data)
      (haccepted : receiptOf rules (requests id) data = some (receipt, value))
      (hok : UpstageProbe.settle state.ledger (requests id).requestId receipt = .ok after) :
      Accepts rules requests state (.settle id) after
  | authorize (additional : Additional) (after : Ledger)
      (hok : authorizeAdditionalBudget state.ledger additional = .ok after) :
      Accepts rules requests state (.authorize additional) after

variable {state : State}

theorem transaction_accepts {step : Step} {after : Ledger}
    (h : transaction rules requests state step = some (.ok after)) :
    Accepts rules requests state step after := by
  cases step with
  | reserve id expired =>
    unfold transaction at h
    dsimp only at h
    split_ifs at h
    exact .reserve id expired after (bind_requestBody (Option.some.inj h))
  | settle id =>
    unfold transaction at h
    dsimp only at h
    split at h
    · rename_i data hreplied
      obtain ⟨⟨receipt, value⟩, haccepted, hok⟩ := Option.map_eq_some_iff.mp h
      exact .settle id data receipt value after hreplied haccepted hok
    · cases h
  | authorize additional => exact .authorize additional after (Option.some.inj h)
  | post id | reply id data | fail id => cases h

variable {limit' : Decimal}

/-- A step never lowers the limit. -/
theorem next_raised (h : Sound rules requests state) (step : Step) {limit : Decimal}
    (hlimit : authorizedLimit state.ledger = some limit)
    (hlimit' : authorizedLimit (next rules requests state step).ledger = some limit') :
    limit.value ≤ limit'.value := by
  have hsame : ∀ ledger : Ledger, authorizedLimit ledger = authorizedLimit state.ledger →
      authorizedLimit ledger = some limit' → limit.value ≤ limit'.value := by
    intro ledger hledger hsome
    rw [hledger, hlimit, Option.some.injEq] at hsome
    rw [hsome]
  change authorizedLimit (committed state.ledger (transaction rules requests state step)) =
    some limit' at hlimit'
  cases htransaction : transaction rules requests state step with
  | none =>
    rw [htransaction] at hlimit'
    exact hsame state.ledger rfl hlimit'
  | some result =>
    rw [htransaction] at hlimit'
    cases result with
    | error error => exact hsame state.ledger rfl hlimit'
    | ok after =>
      cases transaction_accepts htransaction with
      | reserve id expired _ hok =>
        obtain ⟨-, calls, -, rfl⟩ := reserve_ok h.ledger hok
        exact hsame _ (authorizedLimit_calls ..) hlimit'
      | settle id data receipt value _ hreplied haccepted hok =>
        obtain ⟨row, -, -, -, rfl⟩ := settle_ok hok
        exact hsame _ (authorizedLimit_calls ..) hlimit'
      | authorize additional _ hok =>
        exact (authorize_ok h.ledger hok).2.2 limit limit' hlimit hlimit'

/-- Nor does a run of steps. -/
theorem run_raised (front back : List Step) {limit : Decimal}
    (hlimit : authorizedLimit (run rules requests front).ledger = some limit)
    (hlimit' : authorizedLimit (run rules requests (front ++ back)).ledger = some limit') :
    limit.value ≤ limit'.value := by
  induction back generalizing front limit with
  | nil =>
    rw [List.append_nil, hlimit, Option.some.injEq] at hlimit'
    rw [hlimit']
  | cons step back ih =>
    have hsound : Sound rules requests (run rules requests (front ++ [step])) := run_sound _
    obtain ⟨middle, -, hmiddle, -⟩ := hsound.ledger.total
    have hstep : limit.value ≤ middle.value := by
      refine next_raised (run_sound front) step hlimit ?_
      rw [← hmiddle, run_append]
      rfl
    refine hstep.trans (ih (front ++ [step]) hmiddle ?_)
    rw [List.append_assoc, List.singleton_append]
    exact hlimit'

/-- A step keeps a row, or settles it. -/
theorem next_kept (h : Sound rules requests state) (step : Step) {row : CallRow}
    (hrow : state.ledger.calls.find requestId = some row) :
    ∃ after, (next rules requests state step).ledger.calls.find requestId = some after ∧
      (after = row ∨ Settles rules requests state step row after) := by
  show ∃ after, (committed state.ledger
    (transaction rules requests state step)).calls.find requestId = some after ∧ _
  cases htransaction : transaction rules requests state step with
  | none => exact ⟨row, hrow, Or.inl rfl⟩
  | some result =>
    cases result with
    | error error => exact ⟨row, hrow, Or.inl rfl⟩
    | ok after =>
      cases transaction_accepts htransaction with
      | reserve id expired _ hok =>
        obtain ⟨-, calls, hinsert, rfl⟩ := reserve_ok h.ledger hok
        exact ⟨row, find_insert?_of_some hinsert hrow, Or.inl rfl⟩
      | authorize additional _ hok =>
        refine ⟨row, ?_, Or.inl rfl⟩
        show after.calls.find requestId = some row
        rw [(authorize_ok h.ledger hok).2.1]
        exact hrow
      | settle id data receipt value _ hreplied haccepted hok =>
        obtain ⟨old, hold, hreceipt, hcommitted, rfl⟩ := settle_ok hok
        have hkey : old.requestId = (requests id).requestId := (find_eq_some_iff.mp hold).2
        by_cases hsame : (settledRow old receipt).requestId = requestId
        · have hself : row = old := by
            rw [← hsame, show (settledRow old receipt).requestId = (requests id).requestId
              from hkey, hold, Option.some.injEq] at hrow
            exact hrow.symm
          subst hself
          refine ⟨settledRow row receipt, ?_, Or.inr ⟨?_, ⟨hreceipt, hcommitted⟩, ?_⟩⟩
          · show (state.ledger.calls.put _).find requestId = _
            rw [find_put, if_pos hsame]
          · exact ⟨id, data, receipt, value, rfl, hkey.symm, hreplied, haccepted, rfl⟩
          · obtain ⟨cost, hcost, -, hbound⟩ := receiptOf_cost haccepted
            have hnew : (settledRow row receipt).number = cost := by
              unfold CallRow.number settledRow
              rw [hcost]
            have hnumber : row.number = reservationUsd := by
              unfold CallRow.number
              rw [hcommitted]
            rw [hnew, hnumber, value_reservationUsd]
            exact hbound
        · refine ⟨row, ?_, Or.inl rfl⟩
          show (state.ledger.calls.put _).find requestId = _
          rw [find_put, if_neg hsame]
          exact hrow

theorem posts_reserved (h : Sound rules requests state) {step : Step}
    (hposts : Posts rules requests state step requestId) :
    ∃ row, state.ledger.calls.find requestId = some row ∧ row.receipt = none ∧
      row.committed = .finite false reservationUsd := by
  have hgrows : (move rules requests state step).posted = state.posted ++ [requestId] := hposts
  have hstays : ∀ moved : State, moved.posted = state.posted →
      moved.posted ≠ state.posted ++ [requestId] := by
    intro moved hsame hsome
    rw [hsame] at hsome
    have hlength := congrArg List.length hsome
    rw [List.length_append, List.length_singleton] at hlength
    omega
  cases step with
  | post id =>
    unfold move at hgrows
    dsimp only at hgrows
    split_ifs at hgrows with hreserved
    · have hsame : (requests id).requestId = requestId := by
        have hlast := List.append_cancel_left hgrows
        exact (List.cons.inj hlast).1
      rw [← hsame]
      exact ⟨_, h.owned id (by rw [hreserved]; rfl), rfl, rfl⟩
    · exact absurd hgrows (hstays state rfl)
  | reserve id expired | settle id =>
    refine absurd hgrows (hstays _ ?_)
    unfold move
    dsimp only
    split <;> rfl
  | reply id data =>
    refine absurd hgrows (hstays _ ?_)
    unfold move
    dsimp only
    split_ifs <;> rfl
  | fail id | authorize additional => exact absurd hgrows (hstays _ rfl)

/-- The cap of the probe ledger holds in every run. -/
theorem ledger_cap (steps : List Step) : LedgerCap rules requests steps where
  within := by
    have hsound : Sound rules requests (run rules requests steps) := run_sound steps
    obtain ⟨limit, total, hlimit, htotal, -, hwithin, hceiling, -⟩ := hsound.ledger.total
    rw [value_generalCeilingUsd]
    exact ⟨limit, total, hlimit, htotal, hwithin, hceiling⟩
  raised := by
    rintro front back limit limit' rfl hlimit hlimit'
    exact run_raised front back hlimit hlimit'
  once := (run_sound steps).once
  posted := by
    rintro front step back requestId rfl hposts
    exact posts_reserved (run_sound front) hposts
  kept := by
    rintro front step back requestId row rfl hrow
    rw [run_append]
    exact next_kept (run_sound front) step hrow
  committed := by
    intro row hrow
    cases (run_sound steps).ledger.rows row hrow with
    | reserved hreceipt hcommitted =>
      refine ⟨fun _ => hcommitted, fun receipt hsome => ?_⟩
      rw [hreceipt] at hsome
      cases hsome
    | settled receipt cost hreceipt hcommitted hcost =>
      refine ⟨fun hnone => ?_, fun other hother => ?_⟩
      · rw [hreceipt] at hnone
        cases hnone
      · rw [hreceipt, Option.some.injEq] at hother
        rw [← hother, hcommitted, hcost]
  rejected := by
    rintro front step back rfl hrejected
    rw [run_ledger]
    cases htransaction : transaction rules requests (run rules requests front) step with
    | none => rfl
    | some result =>
      cases result with
      | error error => rfl
      | ok accepted => exact absurd htransaction (hrejected accepted)

end ProofOps.Adapters.Local.UpstageProbe
