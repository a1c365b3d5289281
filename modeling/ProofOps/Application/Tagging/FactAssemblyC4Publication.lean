import ProofOps.Application.Claims.Coverage
import ProofOps.Application.Tagging.FactAssemblyC4Gate
import ProofOps.Domain.Rules.Pinned

/-!
# The publication of a certification

A public receipt certifies its statement: three responses of one origin, each of which settles
every element inside the claim, and all of which agree.  A vote that would derive another
agreement takes the publication away, and a replay accepts what an assembly made.
-/

namespace ProofOps.Application.Tagging.FactAssemblyC4

open Foundation Foundation.Checked Domain Domain.Rules Evidence Ingest

section Publication

variable {rules : Rules} {inputs : Inputs}

/-- The steps behind a receipt. -/
structure Assembly (rules : Rules) (inputs : Inputs) (votes : List Vote) (receipt : Receipt)
    (candidate : Candidate) (checked : List (Vote × Raw)) (derivations : List Derivation)
    (decision : Option Decision) : Prop where
  frozen : frozenCandidate rules inputs = .ok candidate
  accepted : checkVotes rules inputs votes = .ok checked
  derived : (checked.mapM fun vote =>
    derive rules inputs (settingOf rules inputs candidate) vote.1 vote.2) = .ok derivations
  decided : decideAgreed rules inputs (settingOf rules inputs candidate)
    (checked.map Prod.fst) derivations = .ok decision
  made : receipt = receiptOf rules inputs (settingOf rules inputs candidate)
    (checked.map Prod.fst) (derivations.map Derivation.result) decision

variable {receipt : Receipt}

theorem assemble_ok {votes : List Vote} (h : assemble rules inputs votes = .ok receipt) :
    ∃ candidate checked derivations decision,
      Assembly rules inputs votes receipt candidate checked derivations decision := by
  replace h := rest_ok h
  obtain ⟨candidate, hcandidate, h⟩ := bind_ok h
  obtain ⟨checked, hchecked, h⟩ := bind_ok h
  obtain ⟨derivations, hderived, h⟩ := bind_ok h
  obtain ⟨decision, hdecided, h⟩ := bind_ok h
  exact ⟨candidate, checked, derivations, decision,
    ⟨hcandidate, hchecked, hderived, hdecided, (pure_ok h).symm⟩⟩

structure Nominated (rules : Rules) (inputs : Inputs) (candidate : Candidate) : Prop where
  frozen : inputs.packet.candidate = some candidate
  discovered : candidate ∈ discover rules.text rules.discovery inputs.original.graph
  quoted : inputs.claim.quote = candidate.quote

variable {candidate : Candidate}

theorem frozenCandidate_ok (h : frozenCandidate rules inputs = .ok candidate) :
    Nominated rules inputs candidate := by
  unfold frozenCandidate at h
  cases hfrozen : inputs.packet.candidate with
  | none => simp [hfrozen] at h
  | some found =>
    simp only [hfrozen] at h
    obtain ⟨⟨⟩, hrefused, h⟩ := bind_ok h
    cases pure_ok h
    have hboth := refuse_ok_iff.mp hrefused
    rw [not_or, not_not, not_not] at hboth
    exact ⟨hfrozen, hboth.1, hboth.2⟩

structure Publishable (rules : Rules) (inputs : Inputs) (setting : Setting) (ordered : List Vote)
    (derivations : List Derivation) (decision : Option Decision) : Prop where
  equivalent : isEquivalent (derivations.map Derivation.result) = true
  settled : unresolvedOf inputs setting (derivations.map Derivation.result) = []
  decided : ∃ first rest outcome, derivations = first :: rest ∧
    decideFacts rules inputs ordered first.facts = .ok outcome ∧ decision = some outcome ∧
      outcome.decisionStatus = .decided ∧ outcome.reviewStatus = .autoConfirmed ∧
      outcome.gapIds = []
  observed : anySimulated ordered = false
  captured : inputs.original.graph.candidates.any CandidateBatch.synthetic = false
  approved : isApproved inputs.pack = true

theorem isEligible_iff {decision : Decision} : isEligible decision = true ↔
    decision.decisionStatus = .decided ∧ decision.reviewStatus = .autoConfirmed ∧
      decision.gapIds = [] := by
  simp only [isEligible, Bool.and_eq_true, decide_eq_true_eq, List.isEmpty_iff, and_assoc]

variable {setting : Setting} {ordered : List Vote} {derivations : List Derivation}

theorem decideAgreed_some {outcome : Decision}
    (h : decideAgreed rules inputs setting ordered derivations = .ok (some outcome)) :
    isEquivalent (derivations.map Derivation.result) = true ∧
      unresolvedOf inputs setting (derivations.map Derivation.result) = [] ∧
      ∃ first rest, derivations = first :: rest ∧
        decideFacts rules inputs ordered first.facts = .ok outcome := by
  unfold decideAgreed at h
  dsimp only at h
  split_ifs at h with hagreed
  · refine ⟨hagreed.1, hagreed.2, ?_⟩
    cases derivations with
    | nil => cases h
    | cons first rest =>
      obtain ⟨made, hmade, hsome⟩ := map_ok_iff.mp h
      cases hsome
      exact ⟨first, rest, rfl, hmade⟩
  · cases h

variable {decision : Option Decision}

/-- A public receipt is publishable. -/
theorem publishable_of_public
    (hdecided : decideAgreed rules inputs setting ordered derivations = .ok decision)
    (hpublic : (receiptOf rules inputs setting ordered (derivations.map Derivation.result)
      decision).publicAutoConfirmed = true) :
    Publishable rules inputs setting ordered derivations decision := by
  have hall : ((decision.any isEligible && !anySimulated ordered &&
      !(inputs.original.graph.candidates.any CandidateBatch.synthetic)) &&
        isApproved inputs.pack) = true := hpublic
  simp only [Bool.and_eq_true, Bool.not_eq_true'] at hall
  obtain ⟨⟨⟨heligible, hobserved⟩, hcaptured⟩, happroved⟩ := hall
  cases decision with
  | none => cases heligible
  | some outcome =>
    obtain ⟨hequivalent, hsettled, first, rest, hfirst, hmade⟩ := decideAgreed_some hdecided
    exact
      { equivalent := hequivalent
        settled := hsettled
        decided := ⟨first, rest, outcome, hfirst, hmade, rfl, isEligible_iff.mp heligible⟩
        observed := hobserved
        captured := hcaptured
        approved := happroved }

theorem unresolvedOf_nil {results : List DerivedResult}
    (h : unresolvedOf inputs setting results = []) :
    (∀ result ∈ results, result.result.reasons = []) ∧ inputs.packet.status = some "candidate" ∧
      setting.claimVerified = true := by
  simp only [unresolvedOf, List.append_eq_nil_iff] at h
  obtain ⟨⟨⟨hreasons, hstatus⟩, -⟩, hverified⟩ := h
  refine ⟨List.flatMap_eq_nil_iff.mp (sortedSet_eq_nil hreasons), ?_, ?_⟩
  · exact not_not.mp (of_decide_eq_false (reasonIf_eq_nil hstatus))
  · exact Bool.not_eq_false' .. ▸ reasonIf_eq_nil hverified

/-! ### The certificate -/

structure Certifies (rules : Rules) (inputs : Inputs) (candidate : Candidate) (vote : Vote)
    (result : DerivedResult) : Prop where
  replica : vote.replicateId = some result.replicateId
  settled : ∃ raw, vote.raw = some raw ∧
    Settled rules inputs (settingOf rules inputs candidate) raw result

structure Certified (rules : Rules) (inputs : Inputs) (votes : List Vote) (receipt : Receipt) :
    Prop where
  identity : receipt.identity = identityOf rules inputs
  kept : receipt.rawReceipts.Perm votes
  replicas : receipt.rawReceipts.map Vote.replicateId = [some 1, some 2, some 3]
  requestIds : Distinct votes Vote.requestId
  requestHashes : Distinct votes Vote.requestSha256
  providerRequestIds : Distinct votes Vote.providerRequestId
  observed : ∀ vote ∈ votes, vote.simulated = some false
  origins : ∀ vote ∈ votes, ∀ other ∈ votes, vote.modelSha256 = other.modelSha256 ∧
    vote.promptSha256 = other.promptSha256 ∧ vote.provider = other.provider
  identities : ∀ vote ∈ votes, vote.identity = some receipt.identity
  claimVerified : claimRefsOf rules inputs ≠ [] ∧
    ∀ ref ∈ claimRefsOf rules inputs, isVerified ref = true
  settled : ∃ candidate, Nominated rules inputs candidate ∧
    List.Forall₂ (Certifies rules inputs candidate) receipt.rawReceipts receipt.derivedResults
  unresolved : receipt.unresolved = []
  agreed : ∀ first ∈ receipt.derivedResults, ∀ second ∈ receipt.derivedResults,
    first.agreement = second.agreement
  decided : ∃ facts decision, decideFacts rules inputs receipt.rawReceipts facts = .ok decision ∧
    receipt.engineDecision = some decision ∧ decision.decisionStatus = .decided ∧
      decision.reviewStatus = .autoConfirmed ∧ decision.gapIds = []
  pack : inputs.pack.status = "active" ∧ PyText.truthy inputs.pack.approvedBy = true ∧
    PyText.truthy inputs.pack.approvedAt = true

theorem isApproved_iff {pack : RulePackSnapshot} : isApproved pack = true ↔
    pack.status = "active" ∧ PyText.truthy pack.approvedBy = true ∧
      PyText.truthy pack.approvedAt = true := by
  simp only [isApproved, Bool.and_eq_true, decide_eq_true_eq, and_assoc]

variable (votes : List Vote)

theorem byReplica_perm : (byReplica votes).Perm votes :=
  Sorting.sortedBy_perm (fun vote : Vote => vote.replicateId.getD 0) votes

theorem Distinct.perm {votes : List Vote} {field : Vote → Option String}
    (h : Distinct ordered field) (hperm : ordered.Perm votes) : Distinct votes field :=
  ⟨(hperm.map field).nodup_iff.mp h.1, fun vote hvote => h.2 vote (hperm.mem_iff.mpr hvote)⟩

def NoOtherAgreement (rules : Rules) (receipt : Receipt) : Prop :=
  ∀ result ∈ receipt.derivedResults, ∀ agreement,
    rules.agreementSha256 agreement = rules.agreementSha256 result.agreement →
      agreement = result.agreement

variable {checked : List (Vote × Raw)}

theorem Assembly.certifies {votes : List Vote}
    (h : Assembly rules inputs votes receipt candidate checked derivations decision)
    (hreasons : ∀ result ∈ derivations.map Derivation.result, result.result.reasons = []) :
    List.Forall₂ (Certifies rules inputs candidate) (checked.map Prod.fst)
      (derivations.map Derivation.result) := by
  have hvotes := checkVotes_ok h.accepted
  rw [List.forall₂_map_left_iff, List.forall₂_map_right_iff]
  refine Paired.imp_of_mem (mapM_ok_iff.mp h.derived) fun entry hentry derivation hmem hderived => ?_
  have hreplica : ∃ replica, entry.1.replicateId = some replica := by
    have hordered : entry.1 ∈ byReplica votes := by
      rw [← hvotes.ordered]
      exact List.mem_map_of_mem hentry
    have hids := List.mem_map_of_mem (f := Vote.replicateId) hordered
    rw [hvotes.replicas] at hids
    simp only [List.mem_cons, List.not_mem_nil, or_false] at hids
    obtain hid | hid | hid := hids
    · exact ⟨1, hid⟩
    · exact ⟨2, hid⟩
    · exact ⟨3, hid⟩
  obtain ⟨replica, hreplica⟩ := hreplica
  have hshape := derive_shape hderived
  rw [hreplica] at hshape
  exact
    { replica := by rw [hreplica, hshape.1, Option.getD_some]
      settled := ⟨entry.2, (hvotes.each entry hentry).1,
        derive_settled hderived (hreasons _ (List.mem_map_of_mem hmem))⟩ }

theorem Assembly.agreement_hash {votes : List Vote}
    (h : Assembly rules inputs votes receipt candidate checked derivations decision) :
    ∀ derivation ∈ derivations, derivation.result.agreementSha256 =
      rules.agreementSha256 derivation.result.agreement := by
  intro derivation hmem
  obtain ⟨entry, -, hderived⟩ := (mem_of_mapM_ok h.derived).mp hmem
  exact (derive_shape hderived).2

theorem publishable_of_assembled {votes : List Vote}
    (h : assemble rules inputs votes = .ok receipt) (hpublic : receipt.publicAutoConfirmed = true) :
    ∃ candidate checked derivations decision,
      Assembly rules inputs votes receipt candidate checked derivations decision ∧
      Publishable rules inputs (settingOf rules inputs candidate) (checked.map Prod.fst)
        derivations decision := by
  obtain ⟨candidate, checked, derivations, decision, hassembly⟩ := assemble_ok h
  have hmade := hassembly.made
  rw [hmade] at hpublic
  exact ⟨candidate, checked, derivations, decision, hassembly,
    publishable_of_public hassembly.decided hpublic⟩

theorem public_agreement {votes : List Vote}
    (h : Assembly rules inputs votes receipt candidate checked derivations decision)
    (hpublishable : Publishable rules inputs (settingOf rules inputs candidate)
      (checked.map Prod.fst) derivations decision) :
    ∀ first ∈ derivations, ∀ second ∈ derivations,
      rules.agreementSha256 first.result.agreement =
        rules.agreementSha256 second.result.agreement := by
  intro first hfirst second hsecond
  have hone : ((derivations.map Derivation.result).map
      DerivedResult.agreementSha256).dedup.length = 1 :=
    of_decide_eq_true hpublishable.equivalent
  rw [← h.agreement_hash first hfirst, ← h.agreement_hash second hsecond]
  exact eq_of_dedup_one hone (List.mem_map_of_mem (List.mem_map_of_mem hfirst))
    (List.mem_map_of_mem (List.mem_map_of_mem hsecond))

theorem certified_of_public {votes : List Vote} (h : assemble rules inputs votes = .ok receipt)
    (hpublic : receipt.publicAutoConfirmed = true) (hhash : NoOtherAgreement rules receipt) :
    Certified rules inputs votes receipt := by
  obtain ⟨candidate, checked, derivations, decision, hassembly, hpublishable⟩ :=
    publishable_of_assembled h hpublic
  have hvotes := checkVotes_ok hassembly.accepted
  obtain ⟨hreasons, -, hverified⟩ := unresolvedOf_nil hpublishable.settled
  have hraw : receipt.rawReceipts = byReplica votes := by
    rw [hassembly.made, ← hvotes.ordered]
    rfl
  have hresults : receipt.derivedResults = derivations.map Derivation.result := by
    rw [hassembly.made]
    rfl
  have hperm : (byReplica votes).Perm votes := byReplica_perm votes
  have hentry : ∀ vote ∈ votes, ∃ entry ∈ checked, entry.1 = vote := by
    intro vote hvote
    have hordered : vote ∈ checked.map Prod.fst := by
      rw [hvotes.ordered]
      exact hperm.mem_iff.mpr hvote
    exact List.mem_map.mp hordered
  have hidentity : receipt.identity = identityOf rules inputs := by
    rw [hassembly.made]
    rfl
  refine
    { identity := hidentity
      kept := hraw ▸ hperm
      replicas := hraw ▸ hvotes.replicas
      requestIds := hvotes.requestIds.perm hperm
      requestHashes := hvotes.requestHashes.perm hperm
      providerRequestIds := hvotes.providerRequestIds.perm hperm
      observed := fun vote hvote => ?_
      origins := fun vote hvote other hother => ?_
      identities := fun vote hvote => ?_
      claimVerified := ?_
      settled := ⟨candidate, frozenCandidate_ok hassembly.frozen, ?_⟩
      unresolved := ?_
      agreed := ?_
      decided := ?_
      pack := isApproved_iff.mp hpublishable.approved }
  · have hsimulated : vote.simulated ≠ some true := by
      intro hsimulated
      have hany : anySimulated (checked.map Prod.fst) = true := by
        rw [hvotes.ordered]
        exact List.any_eq_true.mpr ⟨vote, hperm.mem_iff.mpr hvote, decide_eq_true hsimulated⟩
      rw [hpublishable.observed] at hany
      cases hany
    have hsome := hvotes.provenance vote hvote
    simp only [hasProvenance, Bool.and_eq_true] at hsome
    cases hvalue : vote.simulated with
    | none => simp [hvalue] at hsome
    | some value =>
      cases value with
      | false => rfl
      | true => exact absurd hvalue hsimulated
  · have hsame := hvotes.origins vote (hperm.mem_iff.mpr hvote) other (hperm.mem_iff.mpr hother)
    simp only [origin, Prod.mk.injEq] at hsame
    exact ⟨hsame.1, hsame.2.1, hsame.2.2.1⟩
  · obtain ⟨entry, hmem, rfl⟩ := hentry vote hvote
    rw [hidentity]
    exact (hvotes.each entry hmem).2
  · have hboth : (!(claimRefsOf rules inputs).isEmpty &&
        (claimRefsOf rules inputs).all isVerified) = true := hverified
    simp only [Bool.and_eq_true, Bool.not_eq_true', List.isEmpty_eq_false_iff,
      List.all_eq_true] at hboth
    exact hboth
  · rw [hraw, hresults, ← hvotes.ordered]
    exact hassembly.certifies hreasons
  · rw [hassembly.made]
    exact hpublishable.settled
  · intro first hfirst second hsecond
    rw [hresults] at hfirst
    obtain ⟨made, hmade, rfl⟩ := List.mem_map.mp hfirst
    have hderived := hsecond
    rw [hresults] at hderived
    obtain ⟨other, hother, rfl⟩ := List.mem_map.mp hderived
    exact hhash other.result hsecond made.result.agreement
      (public_agreement hassembly hpublishable made hmade other hother)
  · obtain ⟨first, rest, outcome, -, hmade, hdecision, houtcome⟩ := hpublishable.decided
    refine ⟨first.facts, outcome, ?_, ?_, houtcome⟩
    · rw [hraw, ← hvotes.ordered]
      exact hmade
    · rw [hassembly.made]
      exact hdecision

def agreementOf (rules : Rules) (inputs : Inputs) (vote : Vote) : Except PyError Agreement := do
  let candidate ← frozenCandidate rules inputs
  match vote.raw with
  | none => .error (.valueError "ValidationError")
  | some raw => do
    let derivation ← derive rules inputs (settingOf rules inputs candidate) vote raw
    return derivation.result.agreement

theorem Assembly.agreementOf_vote {votes : List Vote}
    (h : Assembly rules inputs votes receipt candidate checked derivations decision) {vote : Vote}
    (hvote : vote ∈ votes) : ∃ derivation ∈ derivations,
      agreementOf rules inputs vote = .ok derivation.result.agreement := by
  have hvotes := checkVotes_ok h.accepted
  have hordered : vote ∈ checked.map Prod.fst := by
    rw [hvotes.ordered]
    exact (byReplica_perm votes).mem_iff.mpr hvote
  obtain ⟨entry, hentry, rfl⟩ := List.mem_map.mp hordered
  obtain ⟨derivation, hmem, hderived⟩ := exists_of_mapM_ok h.derived hentry
  refine ⟨derivation, hmem, ?_⟩
  unfold agreementOf
  rw [h.frozen, (hvotes.each entry hentry).1]
  refine bind_ok_iff.mpr ⟨candidate, rfl, ?_⟩
  exact bind_ok_iff.mpr ⟨derivation, hderived, rfl⟩

theorem public_vote_hash {votes : List Vote} (h : assemble rules inputs votes = .ok receipt)
    (hpublic : receipt.publicAutoConfirmed = true) {first second : Vote} (hfirst : first ∈ votes)
    (hsecond : second ∈ votes) :
    ∃ one other, agreementOf rules inputs first = .ok one ∧
      agreementOf rules inputs second = .ok other ∧
      rules.agreementSha256 one = rules.agreementSha256 other := by
  obtain ⟨candidate, checked, derivations, decision, hassembly, hpublishable⟩ :=
    publishable_of_assembled h hpublic
  obtain ⟨one, hone, hofFirst⟩ := hassembly.agreementOf_vote hfirst
  obtain ⟨other, hother, hofSecond⟩ := hassembly.agreementOf_vote hsecond
  exact ⟨one.result.agreement, other.result.agreement, hofFirst, hofSecond,
    public_agreement hassembly hpublishable one hone other hother⟩

theorem votes_length {votes : List Vote} (h : assemble rules inputs votes = .ok receipt) :
    votes.length = 3 := by
  obtain ⟨candidate, checked, derivations, decision, hassembly⟩ := assemble_ok h
  have hreplicas := congrArg List.length (checkVotes_ok hassembly.accepted).replicas
  rw [List.length_map, (byReplica_perm votes).length_eq] at hreplicas
  exact hreplicas

theorem replaced_not_public {votes : List Vote} (h : assemble rules inputs votes = .ok receipt)
    (hpublic : receipt.publicAutoConfirmed = true) (hhash : NoOtherAgreement rules receipt)
    {index : Nat} (hindex : index < votes.length) {vote : Vote} {other : Receipt}
    (hother : assemble rules inputs (votes.set index vote) = .ok other)
    (hchanged : agreementOf rules inputs vote ≠ agreementOf rules inputs votes[index]) :
    other.publicAutoConfirmed = false := by
  by_contra hstill
  rw [Bool.not_eq_false] at hstill
  have hlength := votes_length h
  obtain ⟨kept, hkept, hne⟩ : ∃ kept, kept < votes.length ∧ kept ≠ index := by
    by_cases hzero : index = 0
    · exact ⟨1, by omega, by omega⟩
    · exact ⟨0, by omega, by omega⟩
  -- The kept vote is in both lists, so it ties both agreements to one hash.
  have hkeptSet : votes[kept] ∈ votes.set index vote := by
    rw [List.mem_iff_getElem]
    refine ⟨kept, by rw [List.length_set]; exact hkept, ?_⟩
    exact List.getElem_set_ne (Ne.symm hne) _
  have hvoteSet : vote ∈ votes.set index vote := List.mem_set hindex vote
  obtain ⟨was, common, hwas, hcommon, hsame⟩ :=
    public_vote_hash h hpublic (List.getElem_mem hindex) (List.getElem_mem hkept)
  obtain ⟨now, again, hnow, hagain, hstillSame⟩ := public_vote_hash hother hstill hvoteSet hkeptSet
  rw [hcommon] at hagain
  cases hagain
  obtain ⟨candidate, checked, derivations, decision, hassembly, -⟩ :=
    publishable_of_assembled h hpublic
  obtain ⟨derivation, hmem, hof⟩ := hassembly.agreementOf_vote (List.getElem_mem hindex)
  rw [hwas] at hof
  cases hof
  have hrecorded : derivation.result ∈ receipt.derivedResults := by
    rw [hassembly.made]
    exact List.mem_map_of_mem hmem
  have hequal := hhash derivation.result hrecorded now (hstillSame.trans hsame.symm)
  rw [hequal] at hnow
  exact hchanged (hnow.trans hwas.symm)

theorem byReplica_byReplica : byReplica (byReplica votes) = byReplica votes :=
  List.Pairwise.insertionSort_eq
    (Sorting.sortedBy_pairwise (fun vote : Vote => vote.replicateId.getD 0) votes)

theorem checkVotes_byReplica :
    checkVotes rules inputs (byReplica votes) = checkVotes rules inputs votes := by
  have hsame : (∃ vote ∈ byReplica votes, hasProvenance vote = false) ↔
      ∃ vote ∈ votes, hasProvenance vote = false :=
    exists_congr fun vote => and_congr_left fun _ => (byReplica_perm votes).mem_iff
  unfold checkVotes
  simp only [byReplica_byReplica, hsame]

theorem assemble_byReplica :
    assemble rules inputs (byReplica votes) = assemble rules inputs votes := by
  unfold assemble
  rw [checkVotes_byReplica]

theorem Assembly.sealed {votes : List Vote}
    (h : Assembly rules inputs votes receipt candidate checked derivations decision) :
    receipt.schema = "FactAssemblyReceiptV1" ∧ receipt.policySha256 = rules.policySha256 ∧
      receipt.receiptSha256 = rules.receiptSha256 { receipt with receiptSha256 := "" } := by
  rw [h.made]
  exact ⟨rfl, rfl, rfl⟩

theorem replay_ok_iff {stored result : Receipt} :
    replay rules inputs stored = .ok result ↔
      result = stored ∧ ∃ votes, assemble rules inputs votes = .ok stored := by
  constructor
  · intro h
    replace h := rest_ok h
    obtain ⟨made, hmade, h⟩ := bind_ok h
    obtain ⟨⟨⟩, hsame, h⟩ := bind_ok h
    cases pure_ok h
    have hequal := not_not.mp (refuse_ok_iff.mp hsame)
    rw [hequal] at hmade
    exact ⟨hequal, stored.rawReceipts, hmade⟩
  · rintro ⟨rfl, votes, h⟩
    obtain ⟨candidate, checked, derivations, decision, hassembly⟩ := assemble_ok h
    obtain ⟨hschema, hpolicy, hself⟩ := hassembly.sealed
    have hraw : result.rawReceipts = byReplica votes := by
      rw [hassembly.made, ← (checkVotes_ok hassembly.accepted).ordered]
      rfl
    have hagain : assemble rules inputs result.rawReceipts = .ok result := by
      rw [hraw, assemble_byReplica]
      exact h
    refine bind_ok_iff.mpr ⟨(), refuse_ok_iff.mpr ?_, ?_⟩
    · rw [not_or, not_or, not_not, not_not, not_not]
      exact ⟨hschema, hpolicy, hself⟩
    refine bind_ok_iff.mpr ⟨result, hagain, ?_⟩
    exact bind_ok_iff.mpr ⟨(), refuse_ok_iff.mpr (not_not.mpr rfl), rfl⟩

/-- The publication gate: a public receipt certifies its claim, a vote of another agreement
takes the publication away, and a replay accepts the receipts of assemblies. -/
theorem publication_gate {votes : List Vote} {receipt : Receipt}
    (h : assemble rules inputs votes = .ok receipt) (hpublic : receipt.publicAutoConfirmed = true)
    (hhash : NoOtherAgreement rules receipt) :
    Certified rules inputs votes receipt ∧
      (∀ index vote other, (hindex : index < votes.length) →
        assemble rules inputs (votes.set index vote) = .ok other →
        agreementOf rules inputs vote ≠ agreementOf rules inputs votes[index] →
        other.publicAutoConfirmed = false) ∧
      ∀ stored result, replay rules inputs stored = .ok result ↔
        result = stored ∧ ∃ others, assemble rules inputs others = .ok stored :=
  ⟨certified_of_public h hpublic hhash,
    fun _ _ _ hindex hother hchanged => replaced_not_public h hpublic hhash hindex hother hchanged,
    fun _ _ => replay_ok_iff⟩

end Publication

/-! ### A certified management system -/

namespace Sample

open Rendering
open Claims (spanSourceRef)
open Claims.Sample (toList_injective)

def statement : String := "2024 전사 ISO 14001 환경경영시스템 인증을 보유"

def text : CertificationText where
  possesses := PyText.isIn "인증을 보유"
  negates := PyText.isIn "예정"
  namesScope := PyText.isIn "전사"
  standards := fun text => if PyText.isIn "ISO 14001" text then ["14001"] else []
  namesOtherActivity := PyText.isIn "제품"
  namesValidity := PyText.isIn "유효기간"
  hasFootnote := PyText.isIn "*"
  needsConditionalReview := PyText.isIn "이사회"
  siteCounts := fun _ => none
  namesAllSites := fun _ => false
  sentences := fun text => [(0, text.length, PyText.strip text)]
  isYear := fun text => text = "2024"
  isReport := PyText.isIn "지속가능보고서"
  isBorrowed := PyText.isIn "전년"
  hasYear := PyText.isIn "2024"

def discovery : Claims.DiscoveryRules :=
  { Claims.Sample.rules with citation := { sha256 := fun _ => "text", normalized := id } }

theorem box_pos : (0 : ℚ) < 1 :=
  one_pos

def native : CandidateBlock :=
  { Claims.Sample.candidate "run" "1" statement with
    source :=
      { (Claims.Sample.candidate "run" "1" statement).source with
        nativeBbox := some ⟨0, 0, 1, 1, box_pos, box_pos⟩ } }

def block : CanonicalBlock where
  sourceId := "block"
  kind := .paragraph
  candidates := [native]
  independentFamilies := ["native"]
  quality := "verified"
  winner := some 0

def original : OriginalGraph where
  graph :=
    { identity := Claims.Sample.graph.identity
      blocks := [block]
      edges := []
      issues := []
      candidates := [
        { identity := Claims.Sample.graph.identity
          parserRunId := "run"
          parserName := "native"
          parserFamily := "native"
          blocks := [native]
          edges := []
          synthetic := false
          own_blocks := by decide +kernel
          native_nodup := by decide +kernel }] }
  verifiedSpans := none

def whole : List SourceRef :=
  (spanSourceRef discovery block 0 statement.length).toOption.toList

def digest (c : Char) : String := String.ofList (List.replicate 64 c)

def claim : Claims.Claim where
  claimId := "claim"
  tenantId := "tenant"
  documentVersionId := "document"
  parseManifestId := "manifest"
  sourceSha256 := original.graph.identity.sourceSha256
  quote := statement
  sourceRefs := whole
  sourceQuality := "verified"
  topicIds := []
  receipt :=
    { sourceId := "block"
      packetSha256 := "packet"
      responseSha256 := none
      rawResponseJson := none
      profile := Claims.Sample.extractor.profile
      status := .processed }
  revision := 1

def inputs : Inputs where
  claim := claim
  dimensions := []
  original := original
  packet :=
    { packetSha256 := digest 'd'
      claimId := some "claim"
      tenantId := some "tenant"
      graphSha256 := some "graph"
      candidate := (discover text discovery original.graph).head?
      sources := whole
      status := some "candidate" }
  pack :=
    { Pinned.pack "tenant" "rules" Pinned.rubric with
      status := "active", approvedBy := some "reviewer", approvedAt := some "2026-01-01" }
  tagRevision := 1

def ofTrack : Track → List Char
  | .goal => ['g']
  | .performance => ['p']
  | .management => ['m']

theorem ofTrack_injective : Function.Injective ofTrack := by
  intro first second
  cases first <;> cases second <;> decide

def ofKind : PeriodKind → List Char
  | .reportContext => ['r']
  | .explicitCurrent => ['e']

theorem ofKind_injective : Function.Injective ofKind := by
  intro first second
  cases first <;> cases second <;> decide

def ofState : ElementId × ResultState → List Char
  | (element, state) => element.name.toList ++ [match state with
      | .present => 'p'
      | .conflict => 'c'
      | .unknown => 'u']

theorem ofState_injective : Function.Injective ofState := by
  rintro ⟨element, state⟩ ⟨element', state'⟩
  cases element <;> cases element' <;> cases state <;> cases state' <;> decide

def ofBool (value : Bool) : List Char := [if value then 't' else 'f']

theorem ofBool_injective : Function.Injective ofBool := by
  intro first second
  cases first <;> cases second <;> decide

def render (agreement : Agreement) : String :=
  String.ofList (rendered [optional ofTrack agreement.track, optional ofKind agreement.periodKind,
    optional String.toList agreement.activity, optional String.toList agreement.boundary,
    optional String.toList agreement.period, optional String.toList agreement.activitySourceId,
    optional String.toList agreement.boundarySourceId, rendered (agreement.states.map ofState),
    optional ofBool agreement.triggers.governanceClaim,
    optional ofBool agreement.triggers.compensationLinkClaim])

theorem render_injective : Function.Injective render := by
  intro first second h
  have hfields := rendered_injective (String.ofList_injective h)
  simp only [List.cons.injEq, and_true] at hfields
  obtain ⟨htrack, hkind, hactivity, hboundary, hperiod, hsource, hother, hstates, hgovernance,
    hcompensation⟩ := hfields
  have htriggers : first.triggers = second.triggers := by
    cases hone : first.triggers
    cases htwo : second.triggers
    rw [hone, htwo] at hgovernance hcompensation
    rw [Triggers.mk.injEq]
    exact ⟨optional_injective ofBool_injective hgovernance,
      optional_injective ofBool_injective hcompensation⟩
  cases first
  cases second
  simp only [Agreement.mk.injEq]
  exact ⟨optional_injective ofTrack_injective htrack, optional_injective ofKind_injective hkind,
    optional_injective toList_injective hactivity, optional_injective toList_injective hboundary,
    optional_injective toList_injective hperiod, optional_injective toList_injective hsource,
    optional_injective toList_injective hother,
    List.map_injective_iff.mpr ofState_injective (rendered_injective hstates), htriggers⟩

def rules : Rules where
  text := text
  discovery := discovery
  acceptBinding := fun _ _ _ => .ok .accepted
  engine := Pinned.blankHash
  graphSha256 := fun _ => "graph"
  claimSha256 := fun _ => "claim"
  rawSha256 := fun _ => digest 'a'
  voteSha256 := fun vote => digest (if vote.replicateId = some 1 then '1'
    else if vote.replicateId = some 2 then '2' else '3')
  resultSha256 := fun _ => "result"
  agreementSha256 := render
  statementId := fun _ => "statement"
  receiptSha256 := fun _ => "receipt"
  policy := .null
  policySha256 := "policy"

def quoting (quote : String) : Option Selection :=
  some { sourceIndex := 0, quote := quote }

def present : ElementVote where
  state := .present
  evidence := quoting statement

def raw : Raw where
  track := some .management
  safeHarborCategory := none
  superlativeQuote := none
  periodKind := some .explicitCurrent
  activity := quoting "ISO 14001 환경경영시스템"
  period := quoting "2024"
  boundary := quoting "전사"
  m1 := present
  m2 := present
  m3 := present
  m4 := present
  triggers := { governanceClaim := some false, compensationLinkClaim := some false }

def vote (replica : Int) (name : String) (mark : Char) : Vote where
  replicateId := some replica
  simulated := some false
  provider := some "provider"
  requestId := some name
  requestSha256 := some (digest mark)
  providerRequestId := some name
  modelSha256 := some (digest 'b')
  promptSha256 := some (digest 'c')
  rawSha256 := some (digest 'a')
  voteSha256 := some (digest mark)
  responseSha256 := some (digest mark)
  cacheIdentity := some
    { tenantId := some "tenant"
      sourceSha256 := some original.graph.identity.sourceSha256
      replica := some replica
      role := some "elements" }
  identity := some (identityOf rules inputs)
  raw := some raw

def votes : List Vote := [vote 2 "second" '2', vote 1 "first" '1', vote 3 "third" '3']

end Sample

theorem publication_gate_environmental : ∃ receipt,
    assemble Sample.rules Sample.inputs Sample.votes = .ok receipt ∧
      receipt.publicAutoConfirmed = true ∧
      Certified Sample.rules Sample.inputs Sample.votes receipt := by
  have hrun : Returns (assemble Sample.rules Sample.inputs Sample.votes)
      fun receipt => receipt.publicAutoConfirmed = true := by
    decide +kernel
  obtain ⟨receipt, h, hpublic⟩ := hrun
  exact ⟨receipt, h, hpublic,
    (publication_gate h hpublic fun _ _ _ hsame => Sample.render_injective hsame).1⟩

end ProofOps.Application.Tagging.FactAssemblyC4
