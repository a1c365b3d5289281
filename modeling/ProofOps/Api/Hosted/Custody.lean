import ProofOps.Api.Hosted.Bodies
import ProofOps.Api.Hosted.Ledger
import ProofOps.Api.Hosted.System

/-!
# Custody of reservations

Between its reservation and its settlement a dispatch owns one reserved cost row.
With the books in order no other call prices that row or archives it, so each call
of the system is a list of moves, and a receipt is checked against the bound of the
row it settles.
-/

namespace ProofOps.Api.Hosted

open Foundation Foundation.Checked

/-- The runs that a call may end. -/
def Call.ends (call : Call) (row : RunRow) : Prop :=
  match call with
  | .cancel _ runId => row.runId = runId
  | .deleteDocument auth documentId _ _ => row.document = (auth.tenantId, documentId)
  | .purge document _ => row.document = document
  | _ => False

def Call.prices (call : Call) (key : CallKey) : Prop :=
  match call with
  | .settle dispatch _ => key = dispatch.key
  | _ => False

def Dispatch.reserved (job : Job) (request : DispatchRequest) : Dispatch where
  job := job
  provider := request.provider
  callId := request.callId
  bound := request.bound
  sent := false

def drawn (system after : System) (identifier : String) : Prop :=
  identifier ∉ system.issued ∧ identifier ∈ after.issued

inductive Step (deployment : Deployment) (system : System) : Call → System → Prop
  | body {call : Call} {after : System}
      (hmoves : Moves deployment (drawn system after) call.ends (fun _ => False) system.store
        after.store)
      (hdispatches : after.dispatches = system.dispatches) (hsent : after.sent = system.sent)
      (hissued : system.issued ⊆ after.issued) : Step deployment system call after
  | reserve {job : Job} {request : DispatchRequest} {now created : ℚ} {store : HostedStore}
      (hreserved : Reserved system.store store job request now created) :
      Step deployment system (.reserve job request now created)
        { system with
          store := store, dispatches := system.dispatches ++ [Dispatch.reserved job request] }
  | transport {dispatch : Dispatch} (hmem : dispatch ∈ system.dispatches)
      (hunsent : dispatch.sent = false) :
      Step deployment system (.transport dispatch)
        { system with
          dispatches := system.dispatches.erase dispatch ++ [dispatch.markSent]
          sent := system.sent ++ [dispatch.key] }
  | settle {dispatch : Dispatch} {outcome : Outcome} (hmem : dispatch ∈ system.dispatches)
      (hsent : dispatch.sent = true) :
      Step deployment system (.settle dispatch outcome)
        { system with
          store := settleStore system.store dispatch outcome
          dispatches := system.dispatches.erase dispatch }

variable {deployment : Deployment} {fresh : String → Prop} {ends : RunRow → Prop}
  {prices : CallKey → Prop}

/-! ### Calls that commit one body -/

variable {system after : System} {reply : Reply}

theorem commit_ok {body : Except HostedError HostedStore}
    (h : system.commit body = .ok (reply, after)) :
    ∃ store, body = .ok store ∧ after = { system with store := store } := by
  obtain ⟨store, hbody, h⟩ := map_ok_iff.mp h
  cases h
  exact ⟨store, hbody, rfl⟩

variable {call : Call} {store : HostedStore}

theorem Step.of_moves
    (h : Moves deployment (drawn system { system with store := store }) call.ends (fun _ => False)
      system.store store) : Step deployment system call { system with store := store } :=
  Step.body h rfl rfl fun _ => id

theorem Moves.elsewhere {after : HostedStore} (hruns : after.runs = store.runs)
    (hcosts : after.costs = store.costs) (hspend : after.spend = store.spend)
    (htotals : after.eventTotals = store.eventTotals) :
    Moves deployment fresh ends prices store after :=
  Relation.ReflTransGen.single (Move.elsewhere hruns hcosts hspend htotals)

theorem issue_ok {identifier : String} {issued : List String}
    (h : issue system identifier = .ok issued) :
    identifier ∉ system.issued ∧ issued = system.issued ++ [identifier] := by
  unfold issue at h
  split_ifs at h with htaken
  cases h
  exact ⟨htaken, rfl⟩

variable {auth : Auth}

theorem createHosted_step {request : RunRequest}
    (hcosts : ∀ cost ∈ system.store.costs, cost.runId ∈ system.issued)
    (h : createHosted deployment system auth request = .ok (reply, after)) :
    Step deployment system (.createRun auth request) after := by
  obtain ⟨issued, hissued, h⟩ := bind_ok h
  obtain ⟨⟨shown, store⟩, hcreated, h⟩ := bind_ok h
  obtain ⟨-, rfl⟩ := h
  obtain ⟨hnew, rfl⟩ := issue_ok hissued
  refine Step.body (createRun_moves ⟨hnew, ?_⟩ (fun cost hcost heq => ?_) hcreated) rfl rfl ?_
  · exact List.mem_append_right _ (List.mem_singleton_self _)
  · exact hnew (heq ▸ hcosts cost hcost)
  · exact List.subset_append_left _ _

theorem uploadHosted_step {request : UploadRequest}
    (h : uploadHosted deployment system auth request = .ok (reply, after)) :
    Step deployment system (.upload auth request) after := by
  obtain ⟨issued, hissued, h⟩ := bind_ok h
  obtain ⟨store, hstore, h⟩ := bind_ok h
  obtain ⟨-, rfl⟩ := h
  obtain ⟨documents, owners, idempotency, rfl⟩ := upload_ok hstore
  obtain ⟨-, rfl⟩ := issue_ok hissued
  exact Step.body (Moves.elsewhere rfl rfl rfl rfl) rfl rfl (List.subset_append_left _ _)

variable {document : DocumentKey}

theorem startPurge_step {completed : Bool}
    (h : startPurge system document completed = .ok (reply, after)) :
    Step deployment system (.purge document completed) after := by
  obtain ⟨purged, hpurged, h⟩ := bind_ok h
  obtain ⟨-, rfl⟩ := h
  refine Step.body ?_ rfl rfl fun _ => id
  cases completed with
  | true => exact purge_moves hpurged
  | false => exact Relation.ReflTransGen.refl

theorem finishPurge_step {completed : Bool} {now : ℚ}
    (h : finishPurge system document completed now = .ok (reply, after)) :
    Step deployment system (.recordAttempt document completed now) after := by
  unfold finishPurge at h
  split_ifs at h
  cases h
  exact Step.body (Moves.elsewhere rfl rfl rfl rfl) rfl rfl fun _ => id

variable {runId : String}

theorem startReview_step (h : startReview system auth runId = .ok (reply, after)) :
    Step deployment system (.openReview auth runId) after := by
  replace h := rest_ok h
  obtain ⟨-, rfl⟩ := h
  exact Step.body Relation.ReflTransGen.refl rfl rfl fun _ => id

theorem finishReview_step {tenantId sha256 : String}
    (h : finishReview system tenantId runId sha256 = .ok (reply, after)) :
    Step deployment system (.publishReview tenantId runId sha256) after := by
  unfold finishReview at h
  split_ifs at h
  obtain ⟨store, hstore, h⟩ := bind_ok h
  obtain ⟨-, rfl⟩ := h
  obtain ⟨row, -, hrest⟩ := publishReview_ok hstore
  refine Step.body (Moves.elsewhere ?_ ?_ ?_ ?_) rfl rfl fun _ => id
  all_goals rw [hrest]

theorem reserveDispatch_step {job : Job} {request : DispatchRequest} {now created : ℚ}
    (h : reserveDispatch system job request now created = .ok (reply, after)) :
    Step deployment system (.reserve job request now created) after := by
  obtain ⟨store, hstore, h⟩ := bind_ok h
  obtain ⟨-, rfl⟩ := h
  exact Step.reserve (reserve_ok hstore)

variable {dispatch : Dispatch}

theorem callTransport_step (h : callTransport system dispatch = .ok (reply, after)) :
    Step deployment system (.transport dispatch) after := by
  unfold callTransport at h
  split_ifs at h with hready
  cases h
  exact Step.transport hready.1 hready.2

theorem settleDispatch_step {outcome : Outcome}
    (h : settleDispatch system dispatch outcome = .ok (reply, after)) :
    Step deployment system (.settle dispatch outcome) after := by
  unfold settleDispatch at h
  split_ifs at h with hready
  cases h
  exact Step.settle hready.1 hready.2

/-- Every call that succeeds is a step, whatever the order of the calls. -/
theorem perform_step (hcosts : ∀ cost ∈ system.store.costs, cost.runId ∈ system.issued)
    (h : perform deployment system call = .ok (reply, after)) :
    Step deployment system call after := by
  cases call with
  | upload auth request => exact uploadHosted_step h
  | createRun auth request => exact createHosted_step hcosts h
  | drain draining | forgetTombstones now =>
    obtain ⟨store, hstore, rfl⟩ := commit_ok h
    cases hstore
    exact Step.of_moves (Moves.elsewhere rfl rfl rfl rfl)
  | controlState now =>
    obtain ⟨store, hstore, rfl⟩ := commit_ok h
    cases hstore
    exact Step.of_moves (expireRunning_moves _ now)
  | claim now =>
    obtain ⟨⟨claimed, store⟩, hclaimed, h⟩ := map_ok_iff.mp h
    cases h
    exact Step.of_moves (claim_moves hclaimed)
  | renewLease job now =>
    obtain ⟨store, hstore, rfl⟩ := commit_ok h
    exact Step.of_moves (renewLease_moves hstore)
  | updateProgress job stage progress now =>
    obtain ⟨store, hstore, rfl⟩ := commit_ok h
    exact Step.of_moves (updateProgress_moves hstore)
  | reserve job request now created => exact reserveDispatch_step h
  | transport dispatch => exact callTransport_step h
  | settle dispatch outcome => exact settleDispatch_step h
  | finish job status now =>
    obtain ⟨store, hstore, rfl⟩ := commit_ok h
    exact Step.of_moves (finish_moves hstore)
  | publishAnalysis job status errorCode sha256 now =>
    obtain ⟨store, hstore, rfl⟩ := commit_ok h
    exact Step.of_moves (publishAnalysis_moves hstore)
  | failTick job code =>
    obtain ⟨store, hstore, rfl⟩ := commit_ok h
    cases hstore
    exact Step.of_moves (failTick_moves _ job code)
  | cancel auth runId =>
    obtain ⟨store, hstore, rfl⟩ := commit_ok h
    exact Step.of_moves (cancel_moves hstore)
  | deleteDocument auth documentId key now =>
    obtain ⟨store, hstore, rfl⟩ := commit_ok h
    exact Step.of_moves (deleteDocument_moves hstore)
  | purge document completed => exact startPurge_step h
  | recordAttempt document completed now => exact finishPurge_step h
  | maintain now =>
    obtain ⟨store, hstore, rfl⟩ := commit_ok h
    cases hstore
    exact Step.of_moves (maintain_moves _ now)
  | openReview auth runId => exact startReview_step h
  | publishReview tenantId runId sha256 => exact finishReview_step h
  | restart =>
    obtain ⟨store, hstore, rfl⟩ := commit_ok h
    cases hstore
    exact Step.of_moves (Relation.ReflTransGen.single Move.pend)

/-! ### The invariant -/

structure IdsIn (property : String → Prop) (store : HostedStore) : Prop where
  runs : ∀ row ∈ store.runs, property row.runId
  spend : ∀ row ∈ store.spend, property row.runId
  costs : ∀ cost ∈ store.costs, property cost.runId

def HasReservation (store : HostedStore) (key : CallKey) (bound : Nat) : Prop :=
  ∃ cost ∈ store.costs, cost.key = key ∧ cost.bound = bound ∧ cost.status = .reserved

structure Custody (deployment : Deployment) (system : System) : Prop where
  sound : LedgerSound deployment system.store
  ids : IdsIn (· ∈ system.issued) system.store
  keys : (system.dispatches.map Dispatch.key).Nodup
  reserved : ∀ dispatch ∈ system.dispatches,
    HasReservation system.store dispatch.key dispatch.bound

theorem custody_initial : Custody deployment System.initial where
  sound := ledgerSound_initial
  ids := ⟨nofun, nofun, nofun⟩
  keys := List.nodup_nil
  reserved := nofun

variable {property : String → Prop}

theorem IdsIn.mono {other : String → Prop} (h : IdsIn property store)
    (himp : ∀ identifier, property identifier → other identifier) :
    IdsIn other store :=
  ⟨fun row hrow => himp _ (h.runs row hrow), fun row hrow => himp _ (h.spend row hrow),
    fun cost hcost => himp _ (h.costs cost hcost)⟩

theorem exists_key_of_mem_modify {α κ : Type*} {key : α → κ} {table : Table α key} {test : α → Bool}
    {change : α → α} (keeps : ∀ row, key (change row) = key row) {row : α}
    (h : row ∈ table.modify test change keeps) : ∃ old ∈ table, key old = key row := by
  obtain ⟨old, hold, rfl⟩ := (@Table.mem_modify _ _ _ _ _ keeps _ _).mp h
  refine ⟨old, hold, ?_⟩
  split_ifs
  · exact (keeps old).symm
  · rfl

theorem IdsIn.settleEnvelope (h : IdsIn property store) (runId : String) :
    IdsIn property (Hosted.settleEnvelope store runId) := by
  have hmodified : ∀ (change : SpendRow → SpendRow)
      (keeps : ∀ row, SpendRow.key (change row) = SpendRow.key row),
      ∀ row ∈ store.spend.modify (isSpendOf runId) change keeps, property row.runId := by
    intro change keeps row hrow
    obtain ⟨old, hold, hkey⟩ := exists_key_of_mem_modify keeps hrow
    exact (show old.runId = row.runId from hkey) ▸ h.spend old hold
  rcases settleEnvelope_cases store runId with hcase | ⟨-, hcase⟩
  · rw [hcase]
    exact ⟨h.runs, hmodified _ SpendRow.pending_key, h.costs⟩
  · rw [hcase]
    exact ⟨h.runs, hmodified _ (SpendRow.settled_key _), h.costs⟩

theorem IdsIn.move {after : HostedStore}
    (hfresh : ∀ identifier, fresh identifier → property identifier)
    (hmove : Move deployment fresh ends prices store after) (h : IdsIn property store) :
    IdsIn property after := by
  have hmodified : ∀ (test : RunRow → Bool) (change : RunRow → RunRow)
      (keeps : ∀ row, RunRow.key (change row) = RunRow.key row),
      ∀ row ∈ store.runs.modify test change keeps, property row.runId := by
    intro test change keeps row hrow
    obtain ⟨old, hold, hkey⟩ := exists_key_of_mem_modify keeps hrow
    exact (show old.runId = row.runId from hkey) ▸ h.runs old hold
  cases hmove with
  | elsewhere hruns hcosts hspend _ =>
    exact ⟨hruns ▸ h.runs, hspend ▸ h.spend, hcosts ▸ h.costs⟩
  | admission hinserted hspend hnew _ hrun =>
    refine ⟨fun row hrow => ?_, fun row hrow => ?_, h.costs⟩
    · rcases (Table.mem_insert? hinserted).mp hrow with hold | rfl
      · exact h.runs row hold
      · exact hfresh _ hnew
    · rcases (Table.mem_insert? hspend).mp hrow with hold | rfl
      · exact h.spend row hold
      · exact hrun ▸ hfresh _ hnew
  | copy hinserted hnew =>
    refine ⟨fun row hrow => ?_, h.spend, h.costs⟩
    rcases (Table.mem_insert? hinserted).mp hrow with hold | rfl
    · exact h.runs row hold
    · exact hfresh _ hnew
  | start => exact ⟨hmodified _ _ (RunRow.started_key _), h.spend, h.costs⟩
  | @rewrite test change keeps => exact ⟨hmodified test change keeps, h.spend, h.costs⟩
  | drop => exact ⟨fun row hrow => h.runs row (Table.mem_delete.mp hrow).1, h.spend, h.costs⟩
  | reserve hrow _ hrun _ hinserted =>
    refine ⟨h.runs, h.spend, fun cost hcost => ?_⟩
    rcases (Table.mem_insert? hinserted).mp hcost with hold | rfl
    · exact h.costs cost hold
    · exact hrun ▸ h.runs _ hrow
  | @price _ _ keeps =>
    refine ⟨h.runs, h.spend, fun cost hcost => ?_⟩
    obtain ⟨old, hold, hkey⟩ := exists_key_of_mem_modify keeps hcost
    exact (show old.runId = cost.runId from congrArg Prod.fst hkey) ▸ h.costs old hold
  | pend =>
    refine ⟨h.runs, fun row hrow => ?_, h.costs⟩
    obtain ⟨old, hold, hkey⟩ := exists_key_of_mem_modify SpendRow.pending_key hrow
    exact (show old.runId = row.runId from hkey) ▸ h.spend old hold
  | settle => exact h.settleEnvelope _
  | archive =>
    exact ⟨h.runs, fun row hrow => h.spend row (Table.mem_delete.mp hrow).1,
      fun cost hcost => h.costs cost (Table.mem_delete.mp hcost).1⟩

theorem HasReservation.move {after : HostedStore} {key : CallKey} {bound : Nat}
    (hsound : LedgerSound deployment store) (hkey : ¬prices key)
    (hmove : Move deployment fresh ends prices store after) (h : HasReservation store key bound) :
    HasReservation after key bound := by
  obtain ⟨cost, hcost, rfl, hbound, hreserved⟩ := h
  cases hmove with
  | elsewhere _ hcosts => exact ⟨cost, hcosts ▸ hcost, rfl, hbound, hreserved⟩
  | reserve _ _ _ _ hinserted =>
    exact ⟨cost, (Table.mem_insert? hinserted).mpr (Or.inl hcost), rfl, hbound, hreserved⟩
  | @price test change keeps hprices =>
    have htest : ¬test cost = true := fun htest => hkey (hprices cost hcost htest)
    exact ⟨cost, (@Table.mem_modify _ _ _ _ _ keeps _ _).mpr ⟨cost, hcost, if_neg htest⟩, rfl,
      hbound, hreserved⟩
  | settle =>
    refine ⟨cost, ?_, rfl, hbound, hreserved⟩
    rw [settleEnvelope_costs]
    exact hcost
  | @archive row hrow hsettled =>
    refine ⟨cost, Table.mem_delete.mpr ⟨hcost, ?_⟩, rfl, hbound, hreserved⟩
    cases htest : isCostOf row.runId cost with
    | false => rfl
    | true =>
      have hdone := hsound.accounted row hrow hsettled cost hcost (isCostOf_iff.mp htest)
      rw [hreserved] at hdone
      cases hdone
  | _ => exact ⟨cost, hcost, rfl, hbound, hreserved⟩

theorem bound_of_reserved (h : Custody deployment system) (hmem : dispatch ∈ system.dispatches)
    {cost : CostRow} (hcost : cost ∈ system.store.costs) (hkey : cost.key = dispatch.key) :
    cost.bound = dispatch.bound := by
  obtain ⟨owned, howned, hsame, hbound, -⟩ := h.reserved dispatch hmem
  rw [Table.eq_of_key_eq hcost howned (hkey.trans hsame.symm)]
  exact hbound

theorem settleStore_moves (h : Custody deployment system) (hmem : dispatch ∈ system.dispatches)
    (outcome : Outcome) :
    Moves deployment fresh ends (· = dispatch.key) system.store
      (settleStore system.store dispatch outcome) := by
  have hfailed : ∀ failure, Moves deployment fresh ends (· = dispatch.key) system.store
      (settleFailure system.store dispatch.job dispatch.callId failure) := fun failure =>
    settleFailure_moves system.store dispatch.job dispatch.callId failure rfl
  cases outcome with
  | received matching actual failure =>
    unfold settleStore
    dsimp only
    split_ifs with hreceipt
    · refine settleReceipt_moves rfl fun cost hcost hkey => ?_
      rw [bound_of_reserved h hmem hcost hkey]
      exact hreceipt.2
    · exact hfailed failure
  | notSent failure =>
    unfold settleStore
    split_ifs
    · exact Relation.ReflTransGen.single (priceCall_move rfl fun _ _ _ => Nat.zero_le _)
    · exact hfailed failure
  | failed failure => exact hfailed failure

theorem Step.moves (h : Custody deployment system) (hstep : Step deployment system call after) :
    Moves deployment (drawn system after) call.ends call.prices system.store after.store := by
  cases hstep with
  | body hmoves =>
    exact hmoves.mono fun _ hkey => hkey.elim
  | reserve hreserved =>
    obtain ⟨⟨row, hfenced, hroom⟩, -, hinserted, hrest⟩ := hreserved
    rw [hrest]
    rw [← hfenced.mem.2] at hroom
    exact Relation.ReflTransGen.single
      (Move.reserve hfenced.mem.1 hfenced.running hfenced.mem.2.symm hroom hinserted rfl)
  | transport => exact Relation.ReflTransGen.refl
  | settle hmem => exact settleStore_moves h hmem _

theorem Step.issued (hstep : Step deployment system call after) : system.issued ⊆ after.issued := by
  cases hstep with
  | body _ _ _ hissued => exact hissued
  | reserve | transport | settle => exact fun _ => id

theorem Moves.keeps_reservation {after : HostedStore} {key : CallKey} {bound : Nat}
    (hmoves : Moves deployment fresh ends prices store after) (hkey : ¬prices key)
    (hsound : LedgerSound deployment store) (h : HasReservation store key bound) :
    HasReservation after key bound := by
  have hstep : ∀ {before later : HostedStore}, Move deployment fresh ends prices before later →
      LedgerSound deployment before → HasReservation before key bound →
        HasReservation later key bound := fun hmove hbefore hreserved =>
    hreserved.move hbefore hkey hmove
  exact (hmoves.invariant_of_sound hstep hsound h).2

theorem Custody.step (h : Custody deployment system) (hstep : Step deployment system call after) :
    Custody deployment after := by
  have hmoves := hstep.moves h
  have hsound : LedgerSound deployment after.store :=
    hmoves.invariant (fun hmove hinv => hinv.move hmove) h.sound
  have hids : IdsIn (· ∈ after.issued) after.store :=
    hmoves.invariant (fun hmove hinv => hinv.move (fun _ hdrawn => hdrawn.2) hmove)
      (h.ids.mono hstep.issued)
  cases hstep with
  | body hbody hdispatches =>
    refine ⟨hsound, hids, hdispatches ▸ h.keys, fun dispatch hmem => ?_⟩
    rw [hdispatches] at hmem
    exact hbody.keeps_reservation id h.sound (h.reserved dispatch hmem)
  | @reserve job request now created store hreserved =>
    refine ⟨hsound, hids, ?_, fun dispatch hmem => ?_⟩
    · -- The new key has no cost row yet, so no dispatch has it.
      rw [List.map_append, List.nodup_append]
      refine ⟨h.keys, List.nodup_singleton _, ?_⟩
      rintro key hkey _ hlast rfl
      rw [List.map_cons, List.map_nil, List.mem_singleton] at hlast
      obtain ⟨dispatch, hmem, hsame⟩ := List.mem_map.mp hkey
      obtain ⟨cost, hcost, howned, -, -⟩ := h.reserved dispatch hmem
      exact Table.find_eq_none_iff.mp hreserved.free cost hcost
        (howned.trans (hsame.trans hlast))
    · rcases List.mem_append.mp hmem with hold | hlast
      · exact hmoves.keeps_reservation id h.sound (h.reserved dispatch hold)
      · rw [List.mem_singleton] at hlast
        subst hlast
        exact ⟨_, (Table.mem_insert? hreserved.inserted).mpr (Or.inr rfl), rfl, rfl, rfl⟩
  | @transport dispatch hmem hunsent =>
    have hkeys : ((system.dispatches.erase dispatch ++ [dispatch.markSent]).map
        Dispatch.key).Perm (system.dispatches.map Dispatch.key) := by
      rw [List.map_append, List.map_singleton]
      refine (List.perm_append_singleton _ _).trans ?_
      exact (List.perm_cons_erase hmem).symm.map Dispatch.key
    refine ⟨hsound, hids, hkeys.nodup_iff.mpr h.keys, fun other hother => ?_⟩
    rcases List.mem_append.mp hother with hold | hlast
    · exact h.reserved other (List.mem_of_mem_erase hold)
    · rw [List.mem_singleton] at hlast
      subst hlast
      exact h.reserved dispatch hmem
  | @settle dispatch outcome hmem hsent =>
    have hsub : (system.dispatches.erase dispatch).Sublist system.dispatches :=
      List.erase_sublist
    refine ⟨hsound, hids, h.keys.sublist (hsub.map _), fun other hother => ?_⟩
    have hne : other.key ≠ dispatch.key := by
      intro hsame
      have hperm := (List.perm_cons_erase hmem).map Dispatch.key
      have hnodup := hperm.nodup_iff.mp h.keys
      rw [List.map_cons, List.nodup_cons] at hnodup
      exact hnodup.1 (hsame ▸ List.mem_map_of_mem hother)
    exact hmoves.keeps_reservation hne h.sound (h.reserved other (hsub.subset hother))

theorem next_cases (h : Custody deployment system) (call : Call) :
    Hosted.next deployment system call = system ∨
      Step deployment system call (Hosted.next deployment system call) := by
  unfold Hosted.next
  cases hperform : perform deployment system call with
  | error error => exact Or.inl rfl
  | ok made =>
    exact Or.inr (perform_step h.ids.costs hperform)

theorem Custody.next (h : Custody deployment system) (call : Call) :
    Custody deployment (Hosted.next deployment system call) := by
  rcases next_cases h call with hsame | hstep
  · rw [hsame]
    exact h
  · exact h.step hstep

theorem custody_reached (deployment : Deployment) (calls : List Call) :
    Custody deployment (reached deployment calls) := by
  have hstep : ∀ system call, Custody deployment system →
      Custody deployment (next deployment system call) := fun _ call h => h.next call
  exact Machine.after_invariant hstep custody_initial calls

theorem Custody.stable {inv : HostedStore → Prop}
    (hmove : ∀ {fresh : String → Prop} {ends : RunRow → Prop} {prices : CallKey → Prop}
      {store after : HostedStore}, Move deployment fresh ends prices store after →
        ¬fresh runId → LedgerSound deployment store → inv store → inv after)
    (h : Custody deployment system) (hissued : runId ∈ system.issued) (hinv : inv system.store)
    (calls : List Call) : inv (Machine.after (Hosted.next deployment) system calls).store := by
  have hstep : ∀ system call, Custody deployment system ∧ runId ∈ system.issued ∧ inv system.store →
      Custody deployment (Hosted.next deployment system call) ∧
        runId ∈ (Hosted.next deployment system call).issued ∧ inv (Hosted.next deployment system call).store := by
    rintro system call ⟨hcustody, hknown, hold⟩
    rcases next_cases hcustody call with hsame | hstep
    · rw [hsame]
      exact ⟨hcustody, hknown, hold⟩
    · refine ⟨hcustody.step hstep, hstep.issued hknown, ?_⟩
      have hkept : ∀ {store after : HostedStore},
          Move deployment (drawn system (Hosted.next deployment system call)) call.ends call.prices
            store after → LedgerSound deployment store → inv store → inv after := fun hmoved =>
        hmove hmoved fun hdrawn => hdrawn.1 hknown
      exact ((hstep.moves hcustody).invariant_of_sound hkept hcustody.sound hold).2
  exact (Machine.after_invariant hstep ⟨h, hissued, hinv⟩ calls).2.2

end ProofOps.Api.Hosted
