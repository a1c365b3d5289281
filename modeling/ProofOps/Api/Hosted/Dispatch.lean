import ProofOps.Api.Hosted.Burial

/-!
# Dispatching at most once

The reservation of a call is committed under the fence of its run before the
transport is called, and its cost row, or else the end of its run, keeps every later
reservation of the same call out.  So no call reaches the transport twice, and none
that is reserved after its run halted.
-/

namespace ProofOps.Api.Hosted

open Foundation Foundation.Checked

variable {deployment : Deployment} {fresh : String → Prop} {ends : RunRow → Prop}
  {prices : CallKey → Prop} {store after : HostedStore}

/-! ### Calls that were made -/

def Spoken (store : HostedStore) (key : CallKey) : Prop :=
  (∃ cost ∈ store.costs, cost.key = key) ∨
    ∀ row ∈ store.runs, row.runId = key.1 → ¬row.Active

theorem Spoken.move {key : CallKey} (hmove : Move deployment fresh ends prices store after)
    (hfresh : ¬fresh key.1) (hsound : LedgerSound deployment store) (h : Spoken store key) :
    Spoken after key := by
  rcases h with ⟨cost, hcost, rfl⟩ | hover
  · cases hmove with
    | elsewhere _ hcosts => exact Or.inl ⟨cost, hcosts ▸ hcost, rfl⟩
    | reserve _ _ _ _ hinserted =>
      exact Or.inl ⟨cost, (Table.mem_insert? hinserted).mpr (Or.inl hcost), rfl⟩
    | @price test change keeps =>
      refine Or.inl ⟨if test cost then change cost else cost,
        (@Table.mem_modify _ _ _ _ _ keeps _ _).mpr ⟨cost, hcost, rfl⟩, ?_⟩
      split_ifs
      · exact keeps cost
      · rfl
    | settle =>
      refine Or.inl ⟨cost, ?_, rfl⟩
      rw [settleEnvelope_costs]
      exact hcost
    | @archive row hrow hsettled =>
      cases htest : isCostOf row.runId cost with
      | false => exact Or.inl ⟨cost, Table.mem_delete.mpr ⟨hcost, htest⟩, rfl⟩
      | true =>
        right
        intro run hrun hsame hactive
        have hterminal := hsound.closed row hrow hsettled run hrun
          (hsame.trans (isCostOf_iff.mp htest))
        rcases hactive with hstatus | hstatus <;> rw [hstatus] at hterminal <;> exact hterminal
    | _ => exact Or.inl ⟨cost, hcost, rfl⟩
  · right
    intro row hrow hrun hactive
    obtain ⟨old, hold, hkey, -, hback⟩ := hmove.runsFrom row hrow (hrun ▸ hfresh)
    exact hover old hold (hkey.trans hrun) (hback hactive)

theorem Spoken.not_reserved {job : Job} {request : DispatchRequest} {now created : ℚ}
    (h : Spoken store (job.runId, request.callId)) :
    ¬Reserved store after job request now created := by
  intro hreserved
  rcases h with ⟨cost, hcost, hkey⟩ | hover
  · exact Table.find_eq_none_iff.mp hreserved.free cost hcost hkey
  · obtain ⟨row, hfenced, -⟩ := hreserved.fenced
    exact hover row hfenced.mem.1 hfenced.mem.2 (Or.inr hfenced.running)

structure Sendings (system : System) : Prop where
  nodup : system.sent.Nodup
  issued : ∀ key ∈ system.sent, key.1 ∈ system.issued
  spoken : ∀ key ∈ system.sent, Spoken system.store key
  unsent : ∀ dispatch ∈ system.dispatches, dispatch.sent = false → dispatch.key ∉ system.sent

theorem sendings_initial : Sendings System.initial where
  nodup := List.nodup_nil
  issued := nofun
  spoken := nofun
  unsent := nofun

variable {system : System} {dispatch : Dispatch}

theorem Custody.spoken (h : Custody deployment system) (hmem : dispatch ∈ system.dispatches) :
    Spoken system.store dispatch.key ∧ dispatch.key.1 ∈ system.issued := by
  obtain ⟨cost, hcost, hkey, -, -⟩ := h.reserved dispatch hmem
  refine ⟨Or.inl ⟨cost, hcost, hkey⟩, ?_⟩
  rw [← hkey]
  exact h.ids.costs cost hcost

theorem Custody.key_ne (h : Custody deployment system) {other : Dispatch}
    (hmem : dispatch ∈ system.dispatches) (hother : other ∈ system.dispatches.erase dispatch) :
    other.key ≠ dispatch.key := by
  intro hsame
  have hperm := (List.perm_cons_erase hmem).map Dispatch.key
  have hnodup := hperm.nodup_iff.mp h.keys
  rw [List.map_cons, List.nodup_cons] at hnodup
  exact hnodup.1 (hsame ▸ List.mem_map_of_mem hother)

variable {after : System} {call : Call}

/-- Each step keeps the dispatches apart, and sends none of them twice. -/
theorem Sendings.step (hcustody : Custody deployment system)
    (h : Sendings system) (hstep : Step deployment system call after) : Sendings after := by
  have hspoken : ∀ key ∈ system.sent, Spoken after.store key := by
    intro key hkey
    have hmove : ∀ {before later : HostedStore},
        Move deployment (drawn system after) call.ends call.prices before later →
          LedgerSound deployment before → Spoken before key → Spoken later key :=
      fun hmove hsound hbefore =>
        hbefore.move hmove (fun hdrawn => hdrawn.1 (h.issued key hkey)) hsound
    exact ((hstep.moves hcustody).invariant_of_sound hmove hcustody.sound (h.spoken key hkey)).2
  cases hstep with
  | body _ hdispatches hsent hissued =>
    refine ⟨hsent ▸ h.nodup, ?_, ?_, ?_⟩
    · intro key hkey
      rw [hsent] at hkey
      exact hissued (h.issued key hkey)
    · intro key hkey
      rw [hsent] at hkey
      exact hspoken key hkey
    · rw [hdispatches, hsent]
      exact h.unsent
  | @reserve job request now created store hreserved =>
    refine ⟨h.nodup, h.issued, hspoken, fun dispatch hmem hunsent => ?_⟩
    rcases List.mem_append.mp hmem with hold | hlast
    · exact h.unsent dispatch hold hunsent
    · rw [List.mem_singleton] at hlast
      subst hlast
      exact fun hkey => (h.spoken _ hkey).not_reserved hreserved
  | @transport dispatch hmem hunsent =>
    obtain ⟨hthis, hknown⟩ := hcustody.spoken hmem
    refine ⟨?_, ?_, ?_, ?_⟩
    · rw [List.nodup_append]
      refine ⟨h.nodup, List.nodup_singleton _, ?_⟩
      rintro key hkey _ hlast rfl
      rw [List.mem_singleton] at hlast
      exact h.unsent dispatch hmem hunsent (hlast ▸ hkey)
    · intro key hkey
      rcases List.mem_append.mp hkey with hold | hlast
      · exact h.issued key hold
      · rw [List.mem_singleton.mp hlast]
        exact hknown
    · intro key hkey
      rcases List.mem_append.mp hkey with hold | hlast
      · exact h.spoken key hold
      · rw [List.mem_singleton.mp hlast]
        exact hthis
    · intro other hother hopen hkey
      rcases List.mem_append.mp hother with hrest | hmarked
      · rcases List.mem_append.mp hkey with hold | hlast
        · exact h.unsent other (List.mem_of_mem_erase hrest) hopen hold
        · exact hcustody.key_ne hmem hrest (List.mem_singleton.mp hlast)
      · rw [List.mem_singleton] at hmarked
        subst hmarked
        cases hopen
  | settle hmem _ =>
    refine ⟨h.nodup, h.issued, hspoken, fun other hother => ?_⟩
    exact h.unsent other (List.mem_of_mem_erase hother)

/-- What holds of the system besides its books. -/
structure Orderly (deployment : Deployment) (system : System) : Prop where
  custody : Custody deployment system
  burials : Burials system
  sendings : Sendings system

theorem Orderly.next (h : Orderly deployment system) (call : Call) :
    Orderly deployment (Hosted.next deployment system call) := by
  unfold Hosted.next
  cases hperform : perform deployment system call with
  | error error => exact h
  | ok made =>
    have hstep := perform_step h.custody.ids.costs hperform
    exact ⟨h.custody.step hstep, h.burials.perform h.custody hperform,
      h.sendings.step h.custody hstep⟩

theorem orderly_reached (deployment : Deployment) (calls : List Call) :
    Orderly deployment (reached deployment calls) := by
  have hstep : ∀ system call, Orderly deployment system →
      Orderly deployment (next deployment system call) := fun _ call h => h.next call
  exact Machine.after_invariant hstep ⟨custody_initial, burials_initial, sendings_initial⟩ calls

theorem Step.begins (hstep : Step deployment system call after)
    (hunsent : dispatch.sent = false) (hnew : dispatch ∉ system.dispatches)
    (hmem : dispatch ∈ after.dispatches) :
    ∃ request now created, call = .reserve dispatch.job request now created ∧
      request.callId = dispatch.callId ∧
      Reserved system.store after.store dispatch.job request now created := by
  cases hstep with
  | body _ hdispatches => exact absurd (hdispatches ▸ hmem) hnew
  | @reserve job request now created store hreserved =>
    rcases List.mem_append.mp hmem with hold | hlast
    · exact absurd hold hnew
    · rw [List.mem_singleton] at hlast
      subst hlast
      exact ⟨request, now, created, rfl, rfl, hreserved⟩
  | transport =>
    rcases List.mem_append.mp hmem with hold | hlast
    · exact absurd (List.mem_of_mem_erase hold) hnew
    · rw [List.mem_singleton] at hlast
      subst hlast
      cases hunsent
  | settle => exact absurd (List.mem_of_mem_erase hmem) hnew

theorem exists_reservation (deployment : Deployment) {calls : List Call}
    (hunsent : dispatch.sent = false) (hmem : dispatch ∈ (reached deployment calls).dispatches) :
    ∃ front request now created back,
      calls = front ++ .reserve dispatch.job request now created :: back ∧
        request.callId = dispatch.callId ∧
        Reserved (reached deployment front).store
          (reached deployment (front ++ [.reserve dispatch.job request now created])).store
          dispatch.job request now created := by
  have hstart : dispatch ∉ System.initial.dispatches := List.not_mem_nil
  obtain ⟨front, call, back, rfl, hnew, hstep⟩ := @Machine.exists_step _ _ (next deployment)
    (fun system => dispatch ∈ system.dispatches) _ _ hstart hmem
  have hcustody := custody_reached deployment front
  rcases next_step hcustody call with hsame | ⟨hmade, -⟩
  · change dispatch ∈ (next deployment (reached deployment front) call).dispatches at hstep
    rw [hsame] at hstep
    exact absurd hstep hnew
  · obtain ⟨request, now, created, rfl, hcall, hreserved⟩ := hmade.begins hunsent hnew hstep
    refine ⟨front, request, now, created, back, rfl, hcall, ?_⟩
    have hafter : reached deployment (front ++ [.reserve dispatch.job request now created]) =
        next deployment (reached deployment front)
          (.reserve dispatch.job request now created) := Machine.after_append _ _ _
    rw [hafter]
    exact hreserved

def UnderWay (system : System) (key : CallKey) : Prop :=
  key ∈ system.sent ∨ ∃ dispatch ∈ system.dispatches, dispatch.key = key

theorem Step.underWay
    (hstep : Step deployment system call after) {key : CallKey} (h : UnderWay after key) :
    UnderWay system key ∨ ∃ job now row, job.runId = key.1 ∧ Fenced system.store job now row := by
  cases hstep with
  | body _ hdispatches hsent =>
    unfold UnderWay at h
    rw [hdispatches, hsent] at h
    exact Or.inl h
  | @reserve job request now created store hreserved =>
    rcases h with hsent | ⟨dispatch, hmem, hkey⟩
    · exact Or.inl (Or.inl hsent)
    · rcases List.mem_append.mp hmem with hold | hlast
      · exact Or.inl (Or.inr ⟨dispatch, hold, hkey⟩)
      · rw [List.mem_singleton] at hlast
        subst hlast
        obtain ⟨row, hfenced, -⟩ := hreserved.fenced
        exact Or.inr ⟨job, now, row, congrArg Prod.fst hkey, hfenced⟩
  | @transport dispatch hthere hunsent =>
    rcases h with hsent | ⟨other, hmem, hkey⟩
    · rcases List.mem_append.mp hsent with hold | hlast
      · exact Or.inl (Or.inl hold)
      · exact Or.inl (Or.inr ⟨dispatch, hthere, (List.mem_singleton.mp hlast).symm⟩)
    · rcases List.mem_append.mp hmem with hold | hlast
      · exact Or.inl (Or.inr ⟨other, List.mem_of_mem_erase hold, hkey⟩)
      · rw [List.mem_singleton] at hlast
        subst hlast
        exact Or.inl (Or.inr ⟨dispatch, hthere, hkey⟩)
  | settle =>
    rcases h with hsent | ⟨other, hmem, hkey⟩
    · exact Or.inl (Or.inl hsent)
    · exact Or.inl (Or.inr ⟨other, List.mem_of_mem_erase hmem, hkey⟩)

theorem Halted.later {runId : String} (h : Orderly deployment system)
    (hissued : runId ∈ system.issued) (hhalted : Halted system.store runId) (calls : List Call) :
    Halted (Machine.after (next deployment) system calls).store runId ∧
      ∀ key, key.1 = runId → UnderWay (Machine.after (next deployment) system calls) key →
        UnderWay system key := by
  have hstep : ∀ later call,
      (Orderly deployment later ∧ runId ∈ later.issued ∧ Halted later.store runId ∧
        ∀ key, key.1 = runId → UnderWay later key → UnderWay system key) →
      Orderly deployment (next deployment later call) ∧
        runId ∈ (next deployment later call).issued ∧
        Halted (next deployment later call).store runId ∧
        ∀ key, key.1 = runId → UnderWay (next deployment later call) key → UnderWay system key := by
    rintro later call ⟨horderly, hknown, hstill, hway⟩
    refine ⟨horderly.next call, ?_⟩
    unfold next
    cases hperform : Hosted.perform deployment later call with
    | error error => exact ⟨hknown, hstill, hway⟩
    | ok made =>
      have hmade := perform_step horderly.custody.ids.costs hperform
      refine ⟨hmade.issued hknown,
        hstill.perform horderly.custody horderly.burials hknown hperform, fun key hkey hnow => ?_⟩
      rcases hmade.underWay hnow with hbefore | ⟨job, now, row, hjob, hfenced⟩
      · exact hway key hkey hbefore
      · exact absurd hfenced (hstill.not_fenced (hjob.trans hkey))
  have hall := Machine.after_invariant hstep ⟨h, hissued, hhalted, fun _ _ => id⟩ calls
  exact hall.2.2

theorem expireOne_costs (store : HostedStore) (runId : String) :
    (expireOne store runId).costs = store.costs := by
  unfold expireOne
  split_ifs
  · exact settleEnvelope_costs _ runId
  · rfl

def Refunded (store after : HostedStore) : Prop :=
  ∀ row ∈ after.spend, ∃ old ∈ store.spend, old.runId = row.runId ∧
    (row.amount = old.amount ∨ (row.amount = 0 ∧ hasCost store row.runId = false))

theorem pendSpend_refunded (store : HostedStore) (runId : String) :
    Refunded store (pendSpend store runId) := by
  intro row hrow
  rcases mem_modify_spend SpendRow.pending_key hrow with ⟨old, hold, -, rfl⟩ | ⟨hold, -⟩
  · exact ⟨old, hold, rfl, Or.inl rfl⟩
  · exact ⟨row, hold, rfl, Or.inl rfl⟩

theorem expireOne_refunded (store : HostedStore) (runId : String) :
    Refunded store (expireOne store runId) := by
  unfold expireOne
  split_ifs with hunsent
  · rw [Bool.and_eq_true, Bool.not_eq_true'] at hunsent
    have hnone : ∀ cost ∈ store.costs, cost.runId ≠ runId := hasCost_eq_false.mp hunsent.2
    generalize hmodified : ({ store with
      runs := store.runs.modify (isRun runId) RunRow.unsent RunRow.unsent_key } : HostedStore) =
        modified
    have hspend : modified.spend = store.spend := by rw [← hmodified]
    have hcosts : modified.costs = store.costs := by rw [← hmodified]
    rcases settleEnvelope_cases modified runId with hpend | ⟨-, hsettle⟩
    · rw [hpend]
      intro row hrow
      obtain ⟨old, hold, hkey, hamount⟩ := pendSpend_refunded modified runId row hrow
      refine ⟨old, hspend ▸ hold, hkey, hamount.imp_right fun hzero => ⟨hzero.1, ?_⟩⟩
      rw [hasCost, ← hcosts]
      exact hzero.2
    · rw [hsettle]
      intro row hrow
      have hzero : receipts modified runId = 0 := by
        refine Table.total_eq_zero fun cost hcost htest => ?_
        exact absurd (isCostOf_iff.mp htest) (hnone cost (hcosts ▸ hcost))
      rcases mem_modify_spend (SpendRow.settled_key _) hrow with ⟨old, hold, htest, rfl⟩ | ⟨hold, -⟩
      · refine ⟨old, hspend ▸ hold, rfl, Or.inr ⟨hzero, ?_⟩⟩
        rw [show (old.settled (receipts modified runId)).runId = runId from isSpendOf_iff.mp htest]
        exact hunsent.2
      · exact ⟨row, hspend ▸ hold, rfl, Or.inl rfl⟩
  · intro row hrow
    exact pendSpend_refunded _ runId row hrow

theorem expireRunning_refunded (store : HostedStore) (now : ℚ) :
    Refunded store (expireRunning store now) := by
  unfold expireRunning
  generalize expiredRuns store now = runIds
  induction runIds generalizing store with
  | nil => exact fun row hrow => ⟨row, hrow, rfl, Or.inl rfl⟩
  | cons runId rest ih =>
    intro row hrow
    obtain ⟨mid, hmid, hkeyMid, hamountMid⟩ := ih (expireOne store runId) row hrow
    obtain ⟨old, hold, hkey, hamount⟩ := expireOne_refunded store runId mid hmid
    refine ⟨old, hold, hkey.trans hkeyMid, ?_⟩
    rcases hamountMid with hsame | ⟨hzero, hnone⟩
    · rw [hsame, ← hkeyMid]
      exact hamount
    · rw [hasCost, expireOne_costs] at hnone
      exact Or.inr ⟨hzero, hnone⟩

/-- Dispatching at most once under a live fence.  In every run of the system no call
reaches the transport twice; a call of the transport follows the committed
reservation of its key by a worker that held the run's fence with a lease still to
end; once an issued run halted, a reservation for it is refused and only what was
under way by then reaches the transport; and an expired lease changes the spend of a
run only to zero and only if the run has no cost row. -/
theorem dispatched_at_most_once (deployment : Deployment) (calls : List Call) :
    (reached deployment calls).sent.Nodup ∧
      (∀ dispatch made,
        perform deployment (reached deployment calls) (.transport dispatch) = .ok made →
        ∃ front request now created back row,
          calls = front ++ .reserve dispatch.job request now created :: back ∧
            request.callId = dispatch.callId ∧
            Fenced (reached deployment front).store dispatch.job now row ∧
            HasReservation
              (reached deployment (front ++ [.reserve dispatch.job request now created])).store
              dispatch.key request.bound) ∧
      (∀ runId ∈ (reached deployment calls).issued, Halted (reached deployment calls).store runId →
        ∀ later,
          (∀ job request now created, job.runId = runId →
            ∃ error, perform deployment (reached deployment (calls ++ later))
              (.reserve job request now created) = .error error) ∧
          ∀ key ∈ (reached deployment (calls ++ later)).sent, key.1 = runId →
            UnderWay (reached deployment calls) key) ∧
      ∀ now, Refunded (reached deployment calls).store
        (expireRunning (reached deployment calls).store now) := by
  have horderly := orderly_reached deployment calls
  refine ⟨horderly.sendings.nodup, ?_, ?_, fun now => expireRunning_refunded _ now⟩
  · rintro dispatch made hperform
    change callTransport _ dispatch = _ at hperform
    unfold callTransport at hperform
    split_ifs at hperform with hready
    obtain ⟨front, request, now, created, back, hcalls, hcall, hreserved⟩ :=
      exists_reservation deployment hready.2 hready.1
    obtain ⟨row, hfenced, -⟩ := hreserved.fenced
    refine ⟨front, request, now, created, back, row, hcalls, hcall, hfenced, ?_⟩
    refine ⟨_, (Table.mem_insert? hreserved.inserted).mpr (Or.inr rfl), ?_, rfl, rfl⟩
    exact congrArg (Prod.mk dispatch.job.runId) hcall
  · intro runId hissued hhalted later
    have hlater : reached deployment (calls ++ later) =
        Machine.after (next deployment) (reached deployment calls) later := Machine.after_append _ _ _
    rw [hlater]
    obtain ⟨hstill, hway⟩ := Halted.later horderly hissued hhalted later
    refine ⟨fun job request now created hjob => ?_, fun key hkey hrun => hway key hrun (Or.inl hkey)⟩
    cases hperform : perform deployment
        (Machine.after (next deployment) (reached deployment calls) later)
        (.reserve job request now created) with
    | error error => exact ⟨error, rfl⟩
    | ok made =>
      obtain ⟨store, hstore, -⟩ := bind_ok hperform
      obtain ⟨row, hfenced, -⟩ := (reserve_ok hstore).fenced
      exact absurd hfenced (hstill.not_fenced hjob)

example :
    let request : DispatchRequest :=
      { provider := "openai"
        callId := "call"
        requestId := "request"
        inputSha256 := "0123456789abcdef0123456789abcdef0123456789abcdef0123456789abcdef"
        bound := 10 }
    (reached sampleDeployment (sampleCalls ++
      [.reserve sampleJob request 2 2,
        .transport (Dispatch.reserved sampleJob request),
        .transport (Dispatch.reserved sampleJob request)])).sent = [("run", "call")] := by
  decide +kernel

/-! ### What later calls leave alone -/

theorem reached_append (deployment : Deployment) (calls later : List Call) :
    reached deployment (calls ++ later) =
      Machine.after (next deployment) (reached deployment calls) later :=
  Machine.after_append _ _ _

theorem Orderly.later (inv : System → Prop) {calls : List Call}
    (hnext : ∀ system call, Orderly deployment system → inv system →
      inv (Hosted.next deployment system call))
    (h : inv (reached deployment calls)) (later : List Call) :
    inv (reached deployment (calls ++ later)) := by
  have hstep : ∀ system call, Orderly deployment system ∧ inv system →
      Orderly deployment (Hosted.next deployment system call) ∧
        inv (Hosted.next deployment system call) :=
    fun system call hstate => ⟨hstate.1.next call, hnext system call hstate.1 hstate.2⟩
  rw [reached_append]
  exact (Machine.after_invariant hstep ⟨orderly_reached deployment calls, h⟩ later).2

variable {document : DocumentKey}

theorem Gone.next (h : Orderly deployment system) (hgone : Gone system document) (call : Call) :
    Gone (Hosted.next deployment system call) document := by
  unfold Hosted.next
  cases hperform : perform deployment system call with
  | error error => exact hgone
  | ok made =>
    exact hgone.step (perform_step h.custody.ids.costs hperform).issued (perform_papers hperform)

def Buried (system : System) (document : DocumentKey) : Prop :=
  Gone system document ∨ isDeleted system.store document = true

theorem Buried.next (h : Orderly deployment system) (hburied : Buried system document) (call : Call) :
    Buried (Hosted.next deployment system call) document := by
  by_cases hgone : Gone system document
  · exact Or.inl (hgone.next h call)
  · have hdeleted := hburied.resolve_left hgone
    -- The tombstone remembers the identifier, so a document that is not gone has its row.
    obtain ⟨tombstone, htombstone, rfl⟩ := isDeleted_iff.mp hdeleted
    have hthere : ∃ row ∈ system.store.documents, row.key = tombstone.key := by
      by_contra hnone
      exact hgone ⟨h.burials.tombstones tombstone htombstone,
        fun row hrow hkey => hnone ⟨row, hrow, hkey⟩⟩
    unfold Hosted.next
    cases hperform : perform deployment system call with
    | error error => exact hburied
    | ok made => exact Or.inr ((perform_papers hperform).deleted h.burials hthere hdeleted)

def Erased (store : HostedStore) (document : DocumentKey) : Prop :=
  (∀ row ∈ store.documents, row.key ≠ document) ∧ ∀ row ∈ store.runs, row.document ≠ document

theorem Gone.erased (h : Burials system) (hgone : Gone system document) :
    Erased system.store document := by
  refine ⟨hgone.rows, ?_⟩
  rintro row hrow rfl
  obtain ⟨placed, hplaced, hkey⟩ := h.runs row hrow
  exact hgone.rows placed hplaced hkey

/-- Deletion is final.  A run has its document in every reachable system; a deleted
document stays deleted until it is erased together with its runs; and once a purge was
recorded as completed, no later call brings the document or a run of it back. -/
theorem deletion_final (deployment : Deployment) (calls later : List Call) :
    (∀ row ∈ (reached deployment calls).store.runs,
        ∃ document ∈ (reached deployment calls).store.documents, document.key = row.document) ∧
      (∀ document, isDeleted (reached deployment calls).store document = true →
        isDeleted (reached deployment (calls ++ later)).store document = true ∨
          Erased (reached deployment (calls ++ later)).store document) ∧
      ∀ attempt ∈ (reached deployment calls).store.attempts, attempt.completed = true →
        Erased (reached deployment (calls ++ later)).store attempt.key := by
  have hnow := (orderly_reached deployment calls).burials
  have hlater := (orderly_reached deployment (calls ++ later)).burials
  refine ⟨hnow.runs, fun document hdeleted => ?_, fun attempt hattempt hdone => ?_⟩
  · have hburied := Orderly.later (Buried · document)
      (fun _ call horderly hold => hold.next horderly call) (Or.inr hdeleted) later
    exact hburied.symm.imp id (Gone.erased hlater)
  · have hgone := Orderly.later (Gone · attempt.key)
      (fun _ call horderly hold => hold.next horderly call) (hnow.attempts attempt hattempt hdone) later
    exact hgone.erased hlater

def Descends (system after : System) : Prop :=
  system.issued ⊆ after.issued ∧ ∀ row ∈ after.store.runs, row.runId ∈ system.issued →
    ∃ old ∈ system.store.runs, old.runId = row.runId ∧ old.document = row.document ∧
      (row.Active → old.Active)

/-- Runs are never brought back.  A run that was known and has a row later had one before,
for the same document, and it is queued or running only if it was: an ended run stays
ended, and an identifier whose run was purged never names another one. -/
theorem runs_never_return (deployment : Deployment) (calls later : List Call) :
    Descends (reached deployment calls) (reached deployment (calls ++ later)) := by
  have hstart : Descends (reached deployment calls) (reached deployment calls) :=
    ⟨fun _ => id, fun row hrow _ => ⟨row, hrow, rfl, rfl, id⟩⟩
  refine Orderly.later (Descends (reached deployment calls))
    (fun system call horderly hold => ?_) hstart later
  rcases next_cases horderly.custody call with hsame | hstep
  · exact hsame.symm ▸ hold
  · refine ⟨fun _ hissued => hstep.issued (hold.1 hissued), fun row hrow hissued => ?_⟩
    obtain ⟨middle, hmiddle, hsame, hdocument, hactive⟩ :=
      hstep.runsFrom horderly.custody hrow (hold.1 hissued)
    obtain ⟨old, hmem, hkey, hplace, hearlier⟩ := hold.2 middle hmiddle (hsame ▸ hissued)
    exact ⟨old, hmem, hkey.trans hsame, hplace.trans hdocument, hearlier ∘ hactive⟩

/-- A reservation outlives everything but its settlement.  In every reachable system the
dispatches under way have calls of their own, none that is unsent was transported, and each
holds a reserved cost row with exactly its bound, whatever became of its run. -/
theorem dispatches_hold_reservations (deployment : Deployment) (calls : List Call) :
    ((reached deployment calls).dispatches.map Dispatch.key).Nodup ∧
      ∀ dispatch ∈ (reached deployment calls).dispatches,
        HasReservation (reached deployment calls).store dispatch.key dispatch.bound ∧
          (dispatch.sent = false → dispatch.key ∉ (reached deployment calls).sent) := by
  have horderly := orderly_reached deployment calls
  refine ⟨horderly.custody.keys, fun dispatch hmem => ⟨horderly.custody.reserved dispatch hmem, ?_⟩⟩
  exact horderly.sendings.unsent dispatch hmem

end ProofOps.Api.Hosted
