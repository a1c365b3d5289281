import ProofOps.Application.Tagging.FactAssemblyC4

/-!
# What a public certification rests on

Every guard of a derivation either supports the result or leaves a reason, so a derivation
without reasons is read backwards into what each guard saw.  A public receipt has three such
derivations, with one agreement; a vote with another agreement leaves a reason of its own.
-/

namespace ProofOps.Application.Tagging.FactAssemblyC4

open Foundation Foundation.Checked Domain Domain.Rules Evidence Ingest
open Claims (normalizedText)

variable {raw : Raw} {vote : Vote} {votes : List Vote}
variable {element : ElementId} {derivation : Derivation} {checked : List (Vote × Raw)}

section Gate

variable {rules : Rules} {inputs : Inputs} {setting : Setting}

theorem sortedSet_eq_nil {values : List String} (h : sortedSet values = []) : values = [] := by
  unfold sortedSet at h
  have hempty := (List.perm_insertionSort (· ≤ ·) values.dedup).symm
  rw [h, List.perm_nil] at hempty
  rw [List.eq_nil_iff_forall_not_mem]
  intro value hvalue
  rw [← List.mem_dedup, hempty] at hvalue
  exact List.not_mem_nil hvalue

theorem reasonIf_eq_nil {test : Bool} {reason : String} (h : reasonIf test reason = []) :
    test = false := by
  cases test with
  | false => rfl
  | true => cases h

theorem eq_of_dedup_one {α : Type} [DecidableEq α] {values : List α}
    (h : values.dedup.length = 1) {first second : α} (hfirst : first ∈ values)
    (hsecond : second ∈ values) : first = second := by
  obtain ⟨only, honly⟩ := List.length_eq_one_iff.mp h
  have hmem : ∀ value ∈ values, value = only := by
    intro value hvalue
    rw [← List.mem_dedup, honly, List.mem_singleton] at hvalue
    exact hvalue
  rw [hmem first hfirst, hmem second hsecond]

/-- A selected reference is verified. -/
theorem refFor_verified {selection : Option Selection} {ref : SourceRef}
    (h : refFor rules inputs selection = .ok (some ref)) : isVerified ref = true := by
  unfold refFor at h
  cases selection with
  | none => cases h
  | some selection =>
    cases hsource : inputs.packet.sources[selection.sourceIndex]? with
    | none => simp [hsource] at h
    | some source =>
      simp only [hsource] at h
      split_ifs at h
      · cases h
      unfold verifiedPart at h
      cases hblock : blockOf inputs.original.graph.blocks source.sourceId with
      | none => simp [hblock] at h
      | some block =>
        simp only [hblock] at h
        cases hstart : findFrom selection.quote (normalizedText rules.discovery block) 0 with
        | none => simp [hstart] at h
        | some start =>
          simp only [hstart] at h
          obtain ⟨found, -, h⟩ := bind_ok h
          split at h
          · have hchecked := pure_ok h
            split_ifs at hchecked with hverified
            cases hchecked
            exact hverified
          · cases pure_ok h

structure ElementSettled (rules : Rules) (inputs : Inputs) (setting : Setting) (raw : Raw)
    (element : ElementId) (result : ElementResult) (ref : SourceRef) : Prop where
  voted : (raw.element element).state = .present
  selected : refFor rules inputs (raw.element element).evidence = .ok (some ref)
  verified : isVerified ref = true
  accepted : rules.acceptBinding inputs ref element = .ok .accepted
  inside : setting.isInside ref = true
  result : result = resultOf element .present [ref] .accepted

theorem boundRef_accepted {ref : SourceRef}
    (h : boundRef rules inputs setting element (raw.element element) = .ok (some ref, .accepted)) :
    (raw.element element).state = .present ∧
      refFor rules inputs (raw.element element).evidence = .ok (some ref) ∧
      rules.acceptBinding inputs ref element = .ok .accepted := by
  obtain ⟨found, hfound, h⟩ := bind_ok h
  cases found with
  | none =>
    have hnone := pure_ok h
    simp at hnone
  | some found =>
    unfold votedRef at hfound
    have hstate : (raw.element element).state = .present := by
      by_contra hother
      rw [if_neg hother] at hfound
      cases hfound
    rw [if_pos hstate] at hfound
    split_ifs at h
    · obtain ⟨binding, hbinding, h⟩ := bind_ok h
      cases pure_ok h
      exact ⟨hstate, hfound, hbinding⟩
    · have hopen := pure_ok h
      simp at hopen

theorem stepElement_settled {step : ElementStep}
    (h : stepElement rules inputs setting raw element = .ok step) (hreasons : step.reasons = []) :
    ∃ ref, ElementSettled rules inputs setting raw element step.result ref := by
  obtain ⟨⟨found, binding⟩, hbound, h⟩ := bind_ok h
  cases found with
  | none =>
    obtain ⟨fact, -, h⟩ := bind_ok h
    cases pure_ok h
    cases hreasons
  | some ref =>
    cases binding with
    | undetermined | rejected =>
      obtain ⟨fact, -, h⟩ := bind_ok h
      cases pure_ok h
      cases hreasons
    | accepted =>
      obtain ⟨hvoted, hselected, haccepted⟩ := boundRef_accepted hbound
      dsimp only at h
      split_ifs at h with hnone
      · obtain ⟨fact, -, h⟩ := bind_ok h
        cases pure_ok h
        have hinside : setting.isInside ref = true := by
          by_contra houtside
          unfold presentReasons at hnone
          rw [if_neg houtside] at hnone
          cases hnone
        exact ⟨ref, hvoted, hselected, refFor_verified hselected, haccepted, hinside, rfl⟩
      · obtain ⟨fact, -, h⟩ := bind_ok h
        cases pure_ok h
        exact absurd (List.append_eq_nil_iff.mp hreasons).2 (List.cons_ne_nil _ _)

theorem stepTrigger_settled {name : String} {value : Option Bool}
    {result : List String × ConfirmedFact} (h : stepTrigger inputs setting name value = .ok result)
    (hreasons : result.1 = []) : value = some false := by
  unfold stepTrigger at h
  split_ifs at h with hopen
  · obtain ⟨fact, -, h⟩ := bind_ok h
    cases pure_ok h
    cases hreasons
  · rw [not_or, not_not] at hopen
    exact hopen.1

theorem dimensionReasons_settled {kind : Option PeriodKind} {dimensions : Dimensions}
    (h : dimensionReasons rules inputs setting kind dimensions = .ok []) :
    ∃ activity period boundary, dimensions = ⟨some activity, some period, some boundary⟩ ∧
      setting.isInside activity = true ∧ setting.isInside boundary = true := by
  obtain ⟨ofPeriod, -, h⟩ := bind_ok h
  have hall := pure_ok h
  rw [List.append_eq_nil_iff, List.append_eq_nil_iff] at hall
  obtain ⟨⟨hmissing, houtside⟩, -⟩ := hall
  have hsome := reasonIf_eq_nil hmissing
  have hinside := reasonIf_eq_nil houtside
  obtain ⟨activity, period, boundary⟩ := dimensions
  cases activity with
  | none => simp at hsome
  | some activity =>
    cases period with
    | none => simp at hsome
    | some period =>
      cases boundary with
      | none => simp at hsome
      | some boundary =>
        simp only [Option.isSome_some, Bool.true_and, Bool.not_eq_false', Option.toList_some,
          List.all_append, List.all_cons, List.all_nil, Bool.and_true,
          Bool.and_eq_true] at hinside
        exact ⟨activity, period, boundary, rfl, hinside.1, hinside.2⟩

/-- A derivation in which nothing is open. -/
structure Settled (rules : Rules) (inputs : Inputs) (setting : Setting) (raw : Raw)
    (result : DerivedResult) : Prop where
  elements : ∀ element, ∃ found ∈ result.result.elements, ∃ ref,
    ElementSettled rules inputs setting raw element found ref
  dimensions : ∃ activity period boundary,
    result.result.dimensions = ⟨some activity, some period, some boundary⟩ ∧
      isVerified activity = true ∧ isVerified boundary = true ∧
      setting.isInside activity = true ∧ setting.isInside boundary = true
  triggers : result.result.triggers = ⟨some false, some false⟩
  reasons : result.result.reasons = []

theorem ElementId.mem_all (element : ElementId) : element ∈ ElementId.all := by
  cases element <;> decide

theorem derive_shape (h : derive rules inputs setting vote raw = .ok derivation) :
    derivation.result.replicateId = vote.replicateId.getD 0 ∧
      derivation.result.agreementSha256 = rules.agreementSha256 derivation.result.agreement := by
  obtain ⟨activity, -, h⟩ := bind_ok h
  obtain ⟨period, -, h⟩ := bind_ok h
  obtain ⟨boundary, -, h⟩ := bind_ok h
  obtain ⟨ofDimensions, -, h⟩ := bind_ok h
  obtain ⟨steps, -, h⟩ := bind_ok h
  obtain ⟨governance, -, h⟩ := bind_ok h
  obtain ⟨compensation, -, h⟩ := bind_ok h
  obtain ⟨m2Ref, -, h⟩ := bind_ok h
  cases pure_ok h
  exact ⟨rfl, rfl⟩

theorem derive_settled (h : derive rules inputs setting vote raw = .ok derivation)
    (hreasons : derivation.result.result.reasons = []) :
    Settled rules inputs setting raw derivation.result := by
  obtain ⟨activity, hactivity, h⟩ := bind_ok h
  obtain ⟨period, -, h⟩ := bind_ok h
  obtain ⟨boundary, hboundary, h⟩ := bind_ok h
  obtain ⟨ofDimensions, hdimensions, h⟩ := bind_ok h
  obtain ⟨steps, hsteps, h⟩ := bind_ok h
  obtain ⟨governance, hgovernance, h⟩ := bind_ok h
  obtain ⟨compensation, hcompensation, h⟩ := bind_ok h
  obtain ⟨m2Ref, -, h⟩ := bind_ok h
  cases pure_ok h
  have hall := sortedSet_eq_nil hreasons
  simp only [List.append_eq_nil_iff] at hall
  obtain ⟨⟨⟨⟨⟨⟨⟨-, hofDimensions⟩, hofSteps⟩, hgoverned⟩, hcompensated⟩, -⟩, -⟩, -⟩ := hall
  rw [hofDimensions] at hdimensions
  obtain ⟨found, length, bounds, hfound, hinside, hbounded⟩ := dimensionReasons_settled hdimensions
  cases hfound
  have hgovernanceFalse := stepTrigger_settled hgovernance hgoverned
  have hcompensationFalse := stepTrigger_settled hcompensation hcompensated
  refine ⟨fun element => ?_, ?_, ?_, hreasons⟩
  · obtain ⟨step, hstep, hok⟩ := exists_of_mapM_ok hsteps element.mem_all
    have hnone : step.reasons = [] := List.flatMap_eq_nil_iff.mp hofSteps step hstep
    exact ⟨step.result, List.mem_map_of_mem hstep, stepElement_settled hok hnone⟩
  · exact ⟨found, length, bounds, rfl, refFor_verified hactivity, refFor_verified hboundary,
      hinside, hbounded⟩
  · show raw.triggers = _
    cases htriggers : raw.triggers with
    | mk first second =>
      rw [htriggers] at hgovernanceFalse hcompensationFalse
      rw [show first = some false from hgovernanceFalse,
        show second = some false from hcompensationFalse]

def Distinct (votes : List Vote) (field : Vote → Option String) : Prop :=
  (votes.map field).Nodup ∧ ∀ vote ∈ votes, PyText.truthy (field vote) = true

theorem checkDistinct_ok {field : Vote → Option String}
    (h : checkDistinct votes field = .ok ()) : Distinct votes field := by
  have hboth := refuse_ok_iff.mp h
  rw [not_or, not_not] at hboth
  refine ⟨hboth.1, fun vote hvote => ?_⟩
  by_contra hfalse
  exact hboth.2 ⟨vote, hvote, Bool.not_eq_true _ ▸ hfalse⟩

structure VotesChecked (rules : Rules) (inputs : Inputs) (votes : List Vote)
    (checked : List (Vote × Raw)) : Prop where
  ordered : checked.map Prod.fst = byReplica votes
  provenance : ∀ vote ∈ votes, hasProvenance vote = true
  replicas : (byReplica votes).map Vote.replicateId = [some 1, some 2, some 3]
  requestIds : Distinct (byReplica votes) Vote.requestId
  requestHashes : Distinct (byReplica votes) Vote.requestSha256
  providerRequestIds : Distinct (byReplica votes) Vote.providerRequestId
  origins : ∀ vote ∈ byReplica votes, ∀ other ∈ byReplica votes, origin vote = origin other
  each : ∀ entry ∈ checked, entry.1.raw = some entry.2 ∧
    entry.1.identity = some (identityOf rules inputs)

theorem checkVote_ok (h : checkVote rules inputs vote = .ok raw) :
    vote.raw = some raw ∧ vote.identity = some (identityOf rules inputs) := by
  replace h := rest_ok h
  replace h := rest_ok h
  replace h := rest_ok h
  replace h := rest_ok h
  replace h := rest_ok h
  replace h := rest_ok h
  cases hraw : vote.raw with
  | none => simp [hraw] at h
  | some found =>
    simp only [hraw] at h
    obtain ⟨⟨⟩, hsame, h⟩ := bind_ok h
    cases pure_ok h
    have hall := refuse_ok_iff.mp hsame
    rw [not_or, not_not] at hall
    exact ⟨rfl, hall.1⟩

theorem checked_votes (h : (votes.mapM fun vote => do
      let raw ← checkVote rules inputs vote
      return (vote, raw)) = .ok checked) :
    checked.map Prod.fst = votes := by
  have hpaired := mapM_ok_iff.mp h
  clear h
  induction hpaired with
  | nil => rfl
  | cons hhead _ ih =>
    obtain ⟨raw, -, hpair⟩ := bind_ok hhead
    cases pure_ok hpair
    rw [List.map_cons, ih]

/-- Checked votes are of three independent replicas. -/
theorem checkVotes_ok
    (h : checkVotes rules inputs votes = .ok checked) : VotesChecked rules inputs votes checked := by
  obtain ⟨⟨⟩, hprovenance, h⟩ := bind_ok h
  obtain ⟨⟨⟩, hreplicas, h⟩ := bind_ok h
  obtain ⟨⟨⟩, hrequests, h⟩ := bind_ok h
  obtain ⟨⟨⟩, hhashes, h⟩ := bind_ok h
  obtain ⟨⟨⟩, hproviders, h⟩ := bind_ok h
  obtain ⟨⟨⟩, horigin, h⟩ := bind_ok h
  have hpairs : ∀ entry ∈ checked, ∃ vote, entry.1 = vote ∧
      checkVote rules inputs vote = .ok entry.2 := by
    intro entry hentry
    obtain ⟨vote, -, hvote⟩ := (mem_of_mapM_ok h).mp hentry
    obtain ⟨raw, hraw, hpair⟩ := bind_ok hvote
    cases pure_ok hpair
    exact ⟨vote, rfl, hraw⟩
  refine
    { ordered := checked_votes h
      provenance := fun vote hvote => ?_
      replicas := not_not.mp (refuse_ok_iff.mp hreplicas)
      requestIds := checkDistinct_ok hrequests
      requestHashes := checkDistinct_ok hhashes
      providerRequestIds := checkDistinct_ok hproviders
      origins := fun vote hvote other hother => ?_
      each := fun entry hentry => ?_ }
  · by_contra hfalse
    exact refuse_ok_iff.mp hprovenance ⟨vote, hvote, Bool.not_eq_true _ ▸ hfalse⟩
  · exact eq_of_dedup_one (not_not.mp (refuse_ok_iff.mp horigin)) (List.mem_map_of_mem hvote)
      (List.mem_map_of_mem hother)
  · obtain ⟨vote, rfl, hvote⟩ := hpairs entry hentry
    exact checkVote_ok hvote

end Gate

end ProofOps.Application.Tagging.FactAssemblyC4
