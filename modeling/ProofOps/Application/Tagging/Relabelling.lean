import Mathlib.Data.List.Perm.Subperm
import ProofOps.Application.Tagging.Consensus
import ProofOps.Foundation.Checked

/-!
# Replica identifiers carry no weight

Which replica carries which payload does not matter to the partial profiles: a
renaming of the replica identifiers reorders the votes, and everything a result
says about facts is a function of the votes without their order.  What does
depend on the order (the order of evidence references, the reason code of an
unsettled candidate, the hashes) is outside the view of a result.
-/

namespace ProofOps.Application.Tagging

open Domain Domain.Rules Foundation.Checked

variable {run : TagRun} {elementId : String} {vote : Vote}

theorem mem_votes_element
    (h : vote ∈ run.votes elementId) : vote.element.elementId = elementId := by
  unfold TagRun.votes at h
  cases hguarded : run.guarded with
  | none => simp [hguarded] at h
  | some tags =>
    simp only [hguarded, List.mem_map, List.mem_filter, beq_iff_eq] at h
    obtain ⟨element, ⟨-, hid⟩, rfl⟩ := h
    exact hid

theorem mem_votes_of_vote (h : run.vote elementId = some vote) : vote ∈ run.votes elementId :=
  List.mem_of_head? h

theorem guarded_of_mem_votes (h : vote ∈ run.votes elementId) : run.guarded.isSome := by
  unfold TagRun.votes at h
  cases hguarded : run.guarded with
  | none => simp [hguarded] at h
  | some tags => rfl

def TagRun.UniqueVotes (run : TagRun) : Prop :=
  ∀ tags, run.guarded = some tags → (tags.elements.map LlmElement.elementId).Nodup

instance (run : TagRun) : Decidable run.UniqueVotes :=
  match h : run.guarded with
  | none => isTrue fun tags htags => by simp [h] at htags
  | some tags =>
    decidable_of_iff (tags.elements.map LlmElement.elementId).Nodup
      ⟨fun hnodup other hother => by rw [h] at hother; cases hother; exact hnodup,
        fun hall => hall tags h⟩

theorem TagRun.UniqueVotes.vote_eq (hunique : run.UniqueVotes) (h : vote ∈ run.votes elementId) :
    run.votes elementId = [vote] := by
  unfold TagRun.votes at h ⊢
  cases hguarded : run.guarded with
  | none => simp [hguarded] at h
  | some tags =>
    simp only [hguarded] at h ⊢
    have hlength : (tags.elements.filter fun element => element.elementId == elementId).length ≤ 1 := by
      have hnodup := hunique tags hguarded
      rw [← List.countP_eq_length_filter]
      have hcount := List.nodup_iff_count_le_one.mp hnodup elementId
      rwa [List.count, List.countP_map] at hcount
    cases hvotes : tags.elements.filter fun element => element.elementId == elementId with
    | nil => simp [hvotes] at h
    | cons first rest =>
      rw [hvotes] at hlength h
      have hrest : rest = [] := by
        have : rest.length = 0 := by
          simpa using hlength
        exact List.length_eq_zero_iff.mp this
      subst hrest
      rw [List.map_cons, List.map_nil, List.mem_singleton] at h
      rw [h, List.map_cons, List.map_nil]

theorem keys_eq {cast : List Vote} (h : ¬1 < (cast.map Vote.key).dedup.length) {first second : Vote}
    (hfirst : first ∈ cast) (hsecond : second ∈ cast) : first.key = second.key := by
  have hmem : ∀ vote ∈ cast, vote.key ∈ (cast.map Vote.key).dedup := fun vote hvote =>
    List.mem_dedup.mpr (List.mem_map_of_mem hvote)
  have hmemFirst := hmem first hfirst
  have hmemSecond := hmem second hsecond
  match hkeys : (cast.map Vote.key).dedup with
  | [] => simp [hkeys] at hmemFirst
  | [key] =>
    rw [hkeys, List.mem_singleton] at hmemFirst hmemSecond
    rw [hmemFirst, hmemSecond]
  | one :: two :: rest => simp [hkeys] at h

theorem elementState_cases (policy : PartialPolicy) (votes : List (Option Vote)) :
    elementState policy votes = .present ∨ elementState policy votes = .conflict ∨
      elementState policy votes = .unknown := by
  unfold elementState
  dsimp only
  split_ifs
  · simp
  · simp
  · simp
  · split
    · simp
    · split_ifs with hpresent hkept
      · simp
      · rcases hkept with hunknown | ⟨-, hconflict⟩
        · simp [hunknown]
        · simp [hconflict]
      · simp

def CastWith (votes : List (Option Vote)) (key : VoteKey) : Prop :=
  ∀ entry ∈ votes, ∃ vote, entry = some vote ∧ vote.key = key ∧ vote.refsVerified = true

variable {votes : List (Option Vote)}

theorem elementState_present {policy : PartialPolicy} (h : elementState policy votes = .present) :
    ∃ key : VoteKey, key.state = .present ∧ key.binding.isSome ∧ CastWith votes key ∧
      ∀ vote ∈ votes.reduceOption, vote.key = key := by
  unfold elementState at h
  dsimp only at h
  split_ifs at h with hkeys hconflict hmissing
  cases hcast : votes.reduceOption with
  | nil => simp [hcast] at h
  | cons first rest =>
    have hfirst : first ∈ votes.reduceOption := by simp [hcast]
    have hsame : ∀ vote ∈ votes.reduceOption, vote.key = first.key := fun vote hvote =>
      keys_eq hkeys hvote hfirst
    rw [hcast] at h
    dsimp only at h
    split_ifs at h with hpresent hkept
    · rw [← hcast] at hpresent
      obtain ⟨hstate, hbound, hverified⟩ := hpresent
      rw [List.all_eq_true] at hbound hverified
      refine ⟨first.key, hstate, hbound first hfirst, ?_, by rwa [hcast] at hsame⟩
      intro entry hentry
      cases entry with
      | none => exact absurd (List.any_eq_true.mpr ⟨none, hentry, rfl⟩) hmissing
      | some vote =>
        have hvote : vote ∈ votes.reduceOption := List.reduceOption_mem_iff.mpr hentry
        exact ⟨vote, rfl, hsame vote hvote, hverified vote hvote⟩
    · rcases hkept with hunknown | ⟨-, hheld⟩
      · simp [hunknown] at h
      · simp [hheld] at h

theorem reduceOption_perm {other : List (Option Vote)} (h : votes.Perm other) :
    votes.reduceOption.Perm other.reduceOption :=
  h.filterMap id

theorem elementState_perm (policy : PartialPolicy) {other : List (Option Vote)}
    (h : votes.Perm other) : elementState policy votes = elementState policy other := by
  have hcast := reduceOption_perm h
  have hkeys := (hcast.map Vote.key).dedup.length_eq
  have hall : ∀ test : Vote → Bool,
      votes.reduceOption.all test = other.reduceOption.all test := fun test => hcast.all_eq
  unfold elementState
  dsimp only
  rw [hkeys, hcast.any_eq, h.any_eq, hall, hall]
  split_ifs with hmany hconflict hmissing
  · rfl
  · rfl
  · rfl
  · -- One key is left, so the first vote of either order has the same state.
    cases hvotes : votes.reduceOption with
    | nil =>
      rw [hvotes] at hcast
      rw [hcast.nil_eq]
    | cons first rest =>
      cases hother : other.reduceOption with
      | nil =>
        rw [hvotes, hother] at hcast
        exact absurd hcast.eq_nil (by simp)
      | cons second others =>
        have hfirst : first ∈ other.reduceOption :=
          hcast.mem_iff.mp (by rw [hvotes]; exact List.mem_cons_self)
        have hsecond : second ∈ other.reduceOption := by
          rw [hother]
          exact List.mem_cons_self
        have hstate : first.element.state = second.element.state :=
          congrArg VoteKey.state (keys_eq hmany hfirst hsecond)
        simp only [hstate]

/-- Nor does the agreement. -/
theorem agreementCount_perm {keys other : List VoteKey} (h : keys.Perm other) :
    agreementCount keys = agreementCount other := by
  unfold agreementCount
  have hcounts : (keys.map fun key => keys.count key).Perm
      (other.map fun key => other.count key) := by
    have hcount : (fun key => keys.count key) = fun key => other.count key :=
      funext fun key => h.count_eq key
    rw [hcount]
    exact h.map _
  have hmax : (keys.map fun key => keys.count key).max? =
      (other.map fun key => other.count key).max? := by
    cases hfound : (keys.map fun key => keys.count key).max? with
    | none =>
      rw [List.max?_eq_none_iff] at hfound
      rw [hfound] at hcounts
      rw [← hcounts.nil_eq]
      rfl
    | some greatest =>
      symm
      rw [List.max?_eq_some_iff] at hfound ⊢
      exact ⟨hcounts.mem_iff.mp hfound.1, fun count hcount =>
        hfound.2 count (hcounts.mem_iff.mpr hcount)⟩
  rw [hmax]

structure Relabelling where
  rename : Nat → Nat
  known : ∀ replica, IsReplica replica → IsReplica (rename replica)
  injective : ∀ first second, IsReplica first → IsReplica second → rename first = rename second →
    first = second

def relabelTags (σ : Relabelling) (tags : LlmTags) : LlmTags :=
  { tags with
    replicateId := σ.rename tags.replicateId
    replicate_known := σ.known _ tags.replicate_known }

def TagRun.relabel (σ : Relabelling) (run : TagRun) : TagRun :=
  { run with
    request :=
      { run.request with
        replicateId := σ.rename run.request.replicateId
        replicate_known := σ.known _ run.request.replicate_known }
    guarded := run.guarded.map (relabelTags σ) }

variable {σ : Relabelling}

@[simp]
theorem relabel_header (run : TagRun) : (run.relabel σ).header = run.header := by
  unfold TagRun.header TagRun.relabel
  cases run.guarded with
  | none => rfl
  | some tags => rfl

@[simp]
theorem relabel_votes (run : TagRun) (elementId : String) :
    (run.relabel σ).votes elementId = run.votes elementId := by
  unfold TagRun.votes TagRun.relabel
  cases run.guarded with
  | none => rfl
  | some tags => rfl

@[simp]
theorem relabel_vote (run : TagRun) (elementId : String) :
    (run.relabel σ).vote elementId = run.vote elementId := by
  unfold TagRun.vote
  rw [relabel_votes]

@[simp]
theorem relabel_guarded_isNone (run : TagRun) :
    (run.relabel σ).guarded.isNone = run.guarded.isNone := by
  simp [TagRun.relabel]

@[simp]
theorem relabel_guarded_isSome (run : TagRun) :
    (run.relabel σ).guarded.isSome = run.guarded.isSome := by
  simp [TagRun.relabel]

/-- What `checkRuns` asks of its runs. -/
structure RunsAccepted (packet : EvidencePacket) (pack : RulePackSnapshot) (tenantId : String)
    (runs : List TagRun) : Prop where
  three : runs.length = 3
  replicas : [1, 2, 3] ⊆ runs.map TagRun.replicateId
  tenants : packet.tenantId = tenantId ∧ pack.tenantId = tenantId
  identified : ∀ run ∈ runs, checkRun packet pack tenantId run = .ok ⟨⟩
  requests : checkRequests runs = .ok ⟨⟩

theorem sortByReplica_perm (runs : List TagRun) : (sortByReplica runs).Perm runs :=
  List.perm_insertionSort _ runs

variable {ordered other : List TagRun}

theorem checkRequests_perm (h : ordered.Perm other) :
    checkRequests ordered = checkRequests other := by
  unfold checkRequests
  rw [(h.map fun run => run.request.requestId).dedup.length_eq,
    (h.map fun run => run.request.requestSignature).dedup.length_eq,
    (h.map TagRun.settings).dedup.length_eq]

variable {packet : EvidencePacket} {pack : RulePackSnapshot} {tenantId : String}
  {runs : List TagRun}

/-- Accepted runs come back sorted by replica. -/
theorem checkRuns_ok_iff :
    checkRuns packet pack tenantId runs = .ok ordered ↔
      RunsAccepted packet pack tenantId runs ∧ ordered = sortByReplica runs := by
  have hperm := sortByReplica_perm runs
  constructor
  · intro h
    unfold checkRuns at h
    split_ifs at h with hreplicas htenants
    rw [not_or, not_not, not_not] at hreplicas
    rw [not_or, not_not, not_not] at htenants
    obtain ⟨⟨⟩, hruns, h⟩ := bind_ok h
    obtain ⟨⟨⟩, hrequests, h⟩ := bind_ok h
    rw [forM_ok_iff] at hruns
    rw [checkRequests_perm hperm] at hrequests
    exact ⟨⟨hreplicas.1, hreplicas.2, htenants,
      fun run hrun => hruns run (hperm.mem_iff.mpr hrun), hrequests⟩, (pure_ok h).symm⟩
  · rintro ⟨haccepted, rfl⟩
    unfold checkRuns
    rw [if_neg (not_or.mpr ⟨not_not.mpr haccepted.three, not_not.mpr haccepted.replicas⟩),
      if_neg (not_or.mpr ⟨not_not.mpr haccepted.tenants.1, not_not.mpr haccepted.tenants.2⟩)]
    refine bind_ok_iff.mpr ⟨⟨⟩, ?_, bind_ok_iff.mpr ⟨⟨⟩, ?_, rfl⟩⟩
    · exact forM_ok_iff.mpr fun run hrun => haccepted.identified run (hperm.mem_iff.mp hrun)
    · rw [checkRequests_perm hperm]
      exact haccepted.requests

theorem checkRun_relabel (packet : EvidencePacket) (pack : RulePackSnapshot) (tenantId : String)
    (run : TagRun) :
    checkRun packet pack tenantId (run.relabel σ) = checkRun packet pack tenantId run := by
  have hguarded : ((run.relabel σ).guarded.any fun tags =>
      (tags.replicateId, tags.packetSha256, tags.claimId) !=
        ((run.relabel σ).replicateId, (run.relabel σ).packetSha256, (run.relabel σ).claimId)) =
      run.guarded.any fun tags =>
        (tags.replicateId, tags.packetSha256, tags.claimId) !=
          (run.replicateId, run.packetSha256, run.claimId) := by
    unfold TagRun.relabel
    cases hcase : run.guarded with
    | none => rfl
    | some tags =>
      simp only [Option.map_some, Option.any_some, relabelTags]
      rw [Bool.eq_iff_iff, bne_iff_ne, bne_iff_ne]
      simp only [ne_eq, Prod.mk.injEq]
      refine not_congr (and_congr_left fun _ => ?_)
      exact ⟨σ.injective _ _ tags.replicate_known run.request.replicate_known,
        congrArg σ.rename⟩
  unfold checkRun
  rw [hguarded]
  rfl

theorem relabel_replicas (hreplicas : [1, 2, 3] ⊆ runs.map TagRun.replicateId) :
    [1, 2, 3] ⊆ (runs.map (TagRun.relabel σ)).map TagRun.replicateId := by
  have himage : [1, 2, 3].map σ.rename ⊆ (runs.map (TagRun.relabel σ)).map TagRun.replicateId := by
    intro replica hreplica
    obtain ⟨source, hsource, rfl⟩ := List.mem_map.mp hreplica
    obtain ⟨run, hrun, rfl⟩ := List.mem_map.mp (hreplicas hsource)
    exact List.mem_map.mpr ⟨run.relabel σ, List.mem_map_of_mem hrun, rfl⟩
  have hnodup : ([1, 2, 3].map σ.rename).Nodup := by
    refine List.Nodup.map_on ?_ (by decide)
    intro first hfirst second hsecond heq
    have hknown : ∀ replica ∈ [1, 2, 3], IsReplica replica := by decide
    exact σ.injective first second (hknown first hfirst) (hknown second hsecond) heq
  have hsubset : [1, 2, 3].map σ.rename ⊆ [1, 2, 3] := by
    intro replica hreplica
    obtain ⟨source, hsource, rfl⟩ := List.mem_map.mp hreplica
    have hknown : ∀ replica ∈ [1, 2, 3], IsReplica replica := by decide
    rcases σ.known source (hknown source hsource) with h | h | h <;> simp [h]
  -- Three distinct identifiers among three are all of them.
  have hperm : ([1, 2, 3].map σ.rename).Perm [1, 2, 3] :=
    (List.subperm_of_subset hnodup hsubset).perm_of_length_le (by simp)
  exact fun replica hreplica => himage (hperm.mem_iff.mpr hreplica)

theorem RunsAccepted.relabel (h : RunsAccepted packet pack tenantId runs) (σ : Relabelling) :
    RunsAccepted packet pack tenantId (runs.map (TagRun.relabel σ)) where
  three := by rw [List.length_map, h.three]
  replicas := relabel_replicas h.replicas
  tenants := h.tenants
  identified := by
    intro run hrun
    obtain ⟨source, hsource, rfl⟩ := List.mem_map.mp hrun
    rw [checkRun_relabel]
    exact h.identified source hsource
  requests := by
    have hrequests : checkRequests (runs.map (TagRun.relabel σ)) = checkRequests runs := by
      unfold checkRequests
      simp only [List.map_map]
      rfl
    rw [hrequests]
    exact h.requests

structure FactView where
  name : String
  state : FactState
  sourceScope : String
  normalizedValue : Option String

def factView (fact : ConfirmedFact) : FactView where
  name := fact.name
  state := fact.state
  sourceScope := fact.sourceScope
  normalizedValue := fact.normalizedValue

def elementView (element : LlmElement) : String × ElementState × Option String :=
  (element.elementId, element.state, element.normalizedValue)

structure OutcomeView where
  elementId : String
  agreement : Nat
  element : String × ElementState × Option String
  facts : List FactView

/-- The view of an outcome. -/
def outcomeView (outcome : ElementOutcome) : OutcomeView where
  elementId := outcome.elementId
  agreement := outcome.agreement
  element := elementView outcome.element
  facts := outcome.facts.map factView

structure ResultView where
  candidates : List (String × ElementState × Option String)
  agreement : List (String × Nat)
  reviewStatus : ReviewStatus
  facts : Option (List FactView)
  reasons : List String

/-- The view of a result. -/
def resultView (result : ConsensusResult) : ResultView where
  candidates := result.candidateElements.map elementView
  agreement := result.agreement
  reviewStatus := result.reviewStatus
  facts := result.confirmedTags.map fun tags => tags.facts.map factView
  reasons := result.reasons

/-- A present element has references. -/
theorem presentRefs_ne_nil {policy : PartialPolicy} {votes : List (Option Vote)}
    (h : elementState policy votes = .present) :
    presentRefs (elementState policy votes) votes.reduceOption ≠ [] := by
  obtain ⟨key, hkey, -, -, hall⟩ := elementState_present h
  have hcast : votes.reduceOption ≠ [] := by
    intro hnil
    unfold elementState at h
    dsimp only at h
    rw [hnil] at h
    split_ifs at h
  obtain ⟨vote, hvote⟩ := List.exists_mem_of_ne_nil _ hcast
  have hstate : vote.element.state = .present := by
    rw [← hkey, ← hall vote hvote]
    rfl
  obtain ⟨ref, href⟩ := List.exists_mem_of_ne_nil _ (vote.element.present_sourced hstate)
  unfold presentRefs
  rw [if_pos h]
  have hmem : ref ∈ (votes.reduceOption.flatMap fun vote => vote.element.evidenceRefs).eraseDups :=
    List.mem_eraseDups.mpr (List.mem_flatMap.mpr ⟨vote, hvote, href⟩)
  exact List.ne_nil_of_mem hmem

variable {votes : List (Option Vote)}

variable (policy : PartialPolicy)

theorem presentValue_perm {other : List (Option Vote)} (h : votes.Perm other) :
    presentValue (elementState policy votes) votes.reduceOption =
      presentValue (elementState policy other) other.reduceOption := by
  have hcast := reduceOption_perm h
  rw [← elementState_perm policy h]
  by_cases hpresent : elementState policy votes = .present
  · obtain ⟨key, -, -, -, hall⟩ := elementState_present hpresent
    have hvalue : ∀ vote ∈ votes.reduceOption,
        vote.element.normalizedValue = key.normalizedValue := by
      intro vote hvote
      rw [← hall vote hvote]
      rfl
    have hhead : ∀ {cast : List Vote}, (∀ vote ∈ cast, vote ∈ votes.reduceOption) → cast ≠ [] →
        presentValue (elementState policy votes) cast = key.normalizedValue := by
      intro cast hsub hne
      unfold presentValue
      rw [if_pos hpresent]
      cases cast with
      | nil => exact absurd rfl hne
      | cons first rest => exact hvalue first (hsub first List.mem_cons_self)
    by_cases hnil : votes.reduceOption = []
    · rw [hnil] at hcast
      rw [hnil, ← hcast.nil_eq]
    · rw [hhead (fun _ hvote => hvote) hnil]
      refine (hhead (fun vote hvote => hcast.mem_iff.mpr hvote) ?_).symm
      intro hother
      rw [hother] at hcast
      exact hnil hcast.eq_nil
  · simp only [presentValue, if_neg hpresent]

theorem candidateElement_view
    (hnamed : ∀ vote ∈ votes.reduceOption, vote.element.elementId = elementId) :
    ∃ element, candidateElement elementId (elementState policy votes)
        (presentRefs (elementState policy votes) votes.reduceOption) votes.reduceOption =
          .ok element ∧
      elementView element = (elementId, elementState policy votes,
        presentValue (elementState policy votes) votes.reduceOption) := by
  have hrefs := @presentRefs_ne_nil policy votes
  cases hcast : votes.reduceOption with
  | nil =>
    have hstate : elementState policy votes = .unknown := by
      unfold elementState
      rw [hcast]
      simp
    simp [candidateElement, LlmElement.make, elementView, presentValue, hstate]
  | cons base rest =>
    have hbase : base.element.elementId = elementId := hnamed base (by simp [hcast])
    rw [hcast] at hrefs
    simp only [candidateElement, replaceElement, LlmElement.make, hbase, dif_pos hrefs]
    exact ⟨_, rfl, rfl⟩

theorem voteFact_view {scope name : String} {state otherState : ElementState}
    {refs otherRefs : List SourceRef} {value otherValue : Option String}
    (hstate : state = otherState) (hrefs : refs = [] ↔ otherRefs = [])
    (hvalue : value = otherValue) :
    (voteFact tenantId state refs scope value name).map factView =
      (voteFact tenantId otherState otherRefs scope otherValue name).map factView := by
  subst hstate hvalue
  unfold voteFact
  split_ifs with hstate
  · have hsourced : refs ≠ [] ↔ otherRefs ≠ [] := not_congr hrefs
    unfold ConfirmedFact.make
    simp only [hsourced]
    split_ifs <;> rfl
  · rfl

theorem assembleVotes_view (tenantId : String) (track : Track) (scope elementId : String)
    {other : List (Option Vote)} (h : votes.Perm other)
    (hnamed : ∀ vote ∈ votes.reduceOption, vote.element.elementId = elementId) :
    (assembleVotes policy tenantId track scope elementId votes).map outcomeView =
      (assembleVotes policy tenantId track scope elementId other).map outcomeView := by
  have hcast := reduceOption_perm h
  have hstate := elementState_perm policy h
  have hvalue := presentValue_perm policy h
  have hother : ∀ vote ∈ other.reduceOption, vote.element.elementId = elementId :=
    fun vote hvote => hnamed vote (hcast.mem_iff.mpr hvote)
  have hrefs : presentRefs (elementState policy votes) votes.reduceOption = [] ↔
      presentRefs (elementState policy other) other.reduceOption = [] := by
    by_cases hpresent : elementState policy votes = .present
    · exact iff_of_false (presentRefs_ne_nil hpresent) (presentRefs_ne_nil (hstate ▸ hpresent))
    · exact iff_of_true (if_neg hpresent) (if_neg (hstate ▸ hpresent))
  obtain ⟨element, hmade, helement⟩ := candidateElement_view policy hnamed
  obtain ⟨otherElement, hotherMade, hotherElement⟩ := candidateElement_view policy hother
  unfold assembleVotes
  dsimp only
  rw [hmade, hotherMade]
  cases primitives? track elementId with
  | none => rfl
  | some names =>
    refine @map_bind_congr _ _ _ _ _ _ _ (List.map factView) ?_ _ _ outcomeView ?_
    · exact map_mapM_congr fun name _ => voteFact_view hstate hrefs hvalue
    · intro facts others _ _ hfacts
      have hcount := agreementCount_perm (hcast.map Vote.key)
      have hview : elementView element = elementView otherElement := by
        rw [helement, hotherElement, hvalue, hstate]
      simp only [pure, Except.pure, Except.map, outcomeView, hview, hfacts, hcount]

theorem pickScope_perm (h : ordered.Perm other) (elementId : String) :
    pickScope ordered elementId = pickScope other elementId := by
  have hscopes := ((h.filter fun run => run.guarded.isSome).map fun run =>
    lastValue run.sourceScopes elementId)
  have hcontains : ∀ name, ((ordered.filter fun run => run.guarded.isSome).map fun run =>
      lastValue run.sourceScopes elementId).contains name =
      ((other.filter fun run => run.guarded.isSome).map fun run =>
        lastValue run.sourceScopes elementId).contains name := by
    intro name
    rw [Bool.eq_iff_iff, List.contains_iff_mem, List.contains_iff_mem]
    exact hscopes.mem_iff
  unfold pickScope
  simp only [hcontains]

theorem mem_cast (h : vote ∈ (ordered.map fun run => run.vote elementId).reduceOption) :
    ∃ run ∈ ordered, run.vote elementId = some vote := by
  rw [List.reduceOption_mem_iff, List.mem_map] at h
  exact h

theorem assembleElement_view (tenantId : String) (track : Track) (h : ordered.Perm other)
    (elementId : String) :
    (assembleElement policy tenantId track ordered elementId).map outcomeView =
      (assembleElement policy tenantId track other elementId).map outcomeView := by
  unfold assembleElement
  rw [← pickScope_perm h]
  refine assembleVotes_view policy tenantId track _ elementId (h.map _) fun vote hvote => ?_
  obtain ⟨run, -, hrun⟩ := mem_cast hvote
  exact mem_votes_element (mem_votes_of_vote hrun)

/-! ### The whole result -/

variable {others outcomes : List ElementOutcome}

theorem outcomes_of_view (h : outcomes.map outcomeView = others.map outcomeView) :
    (outcomes.flatMap ElementOutcome.facts).map factView =
        (others.flatMap ElementOutcome.facts).map factView ∧
      (outcomes.map ElementOutcome.element).map elementView =
        (others.map ElementOutcome.element).map elementView ∧
      (outcomes.map fun outcome => (outcome.elementId, outcome.agreement)) =
        (others.map fun outcome => (outcome.elementId, outcome.agreement)) ∧
      reviewReasons outcomes = reviewReasons others := by
  have hmap : ∀ {δ : Type} (read : OutcomeView → δ),
      (outcomes.map fun outcome => read (outcomeView outcome)) =
        others.map fun outcome => read (outcomeView outcome) := by
    intro δ read
    have hread := congrArg (List.map read) h
    rwa [List.map_map, List.map_map] at hread
  refine ⟨?_, ?_, hmap fun view => (view.elementId, view.agreement), ?_⟩
  · rw [List.map_flatMap, List.map_flatMap]
    have hfacts := congrArg List.flatten (hmap OutcomeView.facts)
    rwa [← List.flatMap_def, ← List.flatMap_def] at hfacts
  · rw [List.map_map, List.map_map]
    exact hmap OutcomeView.element
  · have hreview : ∀ list : List ElementOutcome, reviewReasons list =
          ((list.map outcomeView).filter fun view => view.element.2.1 != .present).map
            fun view => "REVIEW:" ++ view.elementId := by
      intro list
      rw [List.filter_map, List.map_map]
      rfl
    rw [hreview, hreview, h]

theorem allPresent_of_view {elements others : List LlmElement}
    (h : elements.map elementView = others.map elementView) :
    (elements.all fun element => element.state == .present) =
      others.all fun element => element.state == .present := by
  have hall : ∀ list : List LlmElement, (list.all fun element => element.state == .present) =
      (list.map elementView).all fun view => view.2.1 == .present := by
    intro list
    rw [List.all_map]
    rfl
  rw [hall, hall, h]

variable {facts : List ConfirmedFact}

theorem names_of_view {others : List ConfirmedFact} (h : facts.map factView = others.map factView) :
    facts.map ConfirmedFact.name = others.map ConfirmedFact.name := by
  have hnames := congrArg (List.map FactView.name) h
  rwa [List.map_map, List.map_map] at hnames

theorem sortedFacts_view (facts : List ConfirmedFact) :
    (facts.insertionSort fun first second => first.name ≤ second.name).map factView =
      (facts.map factView).insertionSort fun first second => first.name ≤ second.name :=
  List.map_insertionSort (fun first second : ConfirmedFact => first.name ≤ second.name)
    (fun first second : FactView => first.name ≤ second.name) factView facts
    fun _ _ _ _ => Iff.rfl

variable {hashes otherHashes : List String} {tagRevision : Nat}

theorem assembleTags_view {header : Header} {others : List ConfirmedFact} {first second : TagRun}
    (hhashes : hashes.length = otherHashes.length)
    (hfacts : facts.map factView = others.map factView) :
    (assembleTags hashes packet pack tenantId tagRevision header facts first).map
        (fun tags => tags.facts.map factView) =
      (assembleTags otherHashes packet pack tenantId tagRevision header others second).map
        fun tags => tags.facts.map factView := by
  have hnames := names_of_view hfacts
  unfold assembleTags ConfirmedTags.make
  simp only [hnames, hhashes]
  split_ifs
  · simp only [Except.map, sortedFacts_view, hfacts]
  · rfl
  · rfl
  · rfl

variable {ruleGaps : List String}

theorem partialResult_view {header : Header} {otherFacts : List ConfirmedFact}
    (h : ordered.Perm other) (hhashes : hashes.length = otherHashes.length)
    (houtcomes : outcomes.map outcomeView = others.map outcomeView)
    (hfacts : facts.map factView = otherFacts.map factView) :
    (partialResult hashes packet pack tenantId tagRevision ruleGaps ordered header outcomes
        facts).map resultView =
      (partialResult otherHashes packet pack tenantId tagRevision ruleGaps other header others
        otherFacts).map resultView := by
  obtain ⟨-, helements, hagreement, hreasons⟩ := outcomes_of_view houtcomes
  unfold partialResult
  dsimp only
  rw [← allPresent_of_view helements]
  split_ifs with hall
  · simp only [Except.map, resultView, helements, hagreement, Option.map_none]
  · cases ordered with
    | nil => rw [← h.nil_eq]
    | cons first rest =>
      cases other with
      | nil => exact absurd h.eq_nil (by simp)
      | cons second remaining =>
        refine map_bind_congr (assembleTags_view hhashes hfacts) fun _ _ htags => ?_
        simp only [pure, Except.pure, Except.map, resultView, helements, hagreement,
          Option.map_some, htags, hreasons]

theorem partialTags_view (packet : EvidencePacket) (pack : RulePackSnapshot) (tenantId : String)
    (tagRevision : Nat) (ruleGaps : List String) (header : Header) (h : ordered.Perm other)
    (hhashes : hashes.length = otherHashes.length) :
    (partialTags policy hashes packet pack tenantId tagRevision ruleGaps ordered header).map
        resultView =
      (partialTags policy otherHashes packet pack tenantId tagRevision ruleGaps other header).map
        resultView := by
  refine map_bind_congr (map_mapM_congr fun elementId _ =>
    assembleElement_view policy tenantId header.track h elementId) fun _ _ houtcomes => ?_
  obtain ⟨hfacts, -⟩ := outcomes_of_view houtcomes
  refine map_bind_same fun entries _ => map_bind_same fun rubric _ => ?_
  dsimp only
  unfold missingNames
  rw [names_of_view hfacts]
  refine map_bind_same fun unvoted _ => ?_
  exact partialResult_view h hhashes houtcomes (by rw [List.map_append, List.map_append, hfacts])

theorem isFatal_perm (h : ordered.Perm other) : isFatal policy ordered = isFatal policy other :=
  h.any_eq

theorem providerReplay_perm (h : ordered.Perm other) :
    providerReplay ordered = providerReplay other := by
  unfold providerReplay
  rw [decide_eq_decide.mpr (h.filterMap TagRun.providerRequestId).nodup_iff]

theorem soleHeader_perm (h : ordered.Perm other) : soleHeader ordered = soleHeader other := by
  have hdedup := (h.filterMap TagRun.header).dedup
  unfold soleHeader
  match hfirst : (ordered.filterMap TagRun.header).dedup,
    hsecond : (other.filterMap TagRun.header).dedup with
  | [], second =>
    rw [hfirst, hsecond] at hdedup
    cases hdedup.nil_eq
    rfl
  | [header], second =>
    rw [hfirst, hsecond] at hdedup
    cases List.singleton_perm.mp hdedup
    rfl
  | one :: two :: rest, [] => rfl
  | one :: two :: rest, [header] =>
    rw [hfirst, hsecond] at hdedup
    exact absurd hdedup.length_eq (by simp)
  | one :: two :: rest, first :: second :: others => rfl

theorem partialFacts_view (packet : EvidencePacket) (pack : RulePackSnapshot) (tenantId : String)
    (tagRevision : Nat) (ruleGaps : List String) (h : ordered.Perm other)
    (hhashes : hashes.length = otherHashes.length) :
    (partialFacts policy hashes packet pack tenantId tagRevision ruleGaps ordered).map resultView =
      (partialFacts policy otherHashes packet pack tenantId tagRevision ruleGaps other).map
        resultView := by
  unfold partialFacts
  rw [providerReplay_perm h, isFatal_perm policy h, soleHeader_perm h]
  cases soleHeader other with
  | none => rfl
  | some header =>
    dsimp only
    split_ifs
    · rfl
    · exact partialTags_view policy packet pack tenantId tagRevision ruleGaps header h hhashes

theorem isFatal_relabel (ordered : List TagRun) :
    isFatal policy (ordered.map (TagRun.relabel σ)) = isFatal policy ordered := by
  unfold isFatal isTolerated
  rw [List.any_map]
  simp only [Function.comp_def, relabel_guarded_isNone]
  rfl

theorem assembleElement_relabel (tenantId : String) (track : Track) (ordered : List TagRun)
    (elementId : String) :
    assembleElement policy tenantId track (ordered.map (TagRun.relabel σ)) elementId =
      assembleElement policy tenantId track ordered elementId := by
  have hscope : pickScope (ordered.map (TagRun.relabel σ)) elementId =
      pickScope ordered elementId := by
    unfold pickScope
    rw [List.filter_map, List.map_map]
    simp only [Function.comp_def, relabel_guarded_isSome]
    rfl
  unfold assembleElement
  rw [hscope, List.map_map]
  simp only [Function.comp_def, relabel_vote]

theorem partialFacts_relabel (hashes : List String) (packet : EvidencePacket)
    (pack : RulePackSnapshot) (tenantId : String) (tagRevision : Nat) (ruleGaps : List String)
    (ordered : List TagRun) :
    partialFacts policy hashes packet pack tenantId tagRevision ruleGaps
        (ordered.map (TagRun.relabel σ)) =
      partialFacts policy hashes packet pack tenantId tagRevision ruleGaps ordered := by
  have hheader : soleHeader (ordered.map (TagRun.relabel σ)) = soleHeader ordered := by
    unfold soleHeader
    rw [List.filterMap_map]
    simp only [Function.comp_def, relabel_header]
  have hreplay : providerReplay (ordered.map (TagRun.relabel σ)) = providerReplay ordered := by
    unfold providerReplay
    rw [List.filterMap_map]
    rfl
  have hresult : ∀ (header : Header) (outcomes : List ElementOutcome) (facts : List ConfirmedFact),
      partialResult hashes packet pack tenantId tagRevision ruleGaps
          (ordered.map (TagRun.relabel σ)) header outcomes facts =
        partialResult hashes packet pack tenantId tagRevision ruleGaps ordered header outcomes
          facts := by
    intro header outcomes facts
    cases ordered with
    | nil => rfl
    | cons first rest => rfl
  have hassemble : ∀ track, assembleElement policy tenantId track (ordered.map (TagRun.relabel σ)) =
      assembleElement policy tenantId track ordered := fun track =>
    funext fun elementId => assembleElement_relabel policy tenantId track ordered elementId
  unfold partialFacts partialTags
  rw [hheader, hreplay, isFatal_relabel]
  simp only [hresult, hassemble]

theorem formConsensus_relabel {semanticHash : TagRun → String}
    {profileName : String} {profile : Profile} (hprofile : Profile.parse profileName = .ok profile)
    (hincomplete : profile ≠ .strictV1) {result : ConsensusResult}
    (h : formConsensus semanticHash runs packet pack tenantId tagRevision ruleGaps profileName =
      .ok result) (σ : Relabelling) :
    ∃ renamed, formConsensus semanticHash (runs.map (TagRun.relabel σ)) packet pack tenantId
        tagRevision ruleGaps profileName = .ok renamed ∧ resultView renamed = resultView result := by
  obtain ⟨policy, hpolicy⟩ : ∃ policy, profile.partialPolicy = some policy := by
    cases profile with
    | strictV1 => exact absurd rfl hincomplete
    | _ => exact ⟨_, rfl⟩
  obtain ⟨_, hparse, h⟩ := bind_ok h
  cases hprofile.symm.trans hparse
  obtain ⟨track, hpacket, h⟩ := bind_ok h
  obtain ⟨ordered, hruns, h⟩ := bind_ok h
  obtain ⟨haccepted, rfl⟩ := checkRuns_ok_iff.mp hruns
  have hrenamed := checkRuns_ok_iff.mpr ⟨haccepted.relabel σ, rfl⟩
  -- The renamed runs, sorted, are a reordering of the renamed sorted runs.
  have hperm : (sortByReplica (runs.map (TagRun.relabel σ))).Perm
      ((sortByReplica runs).map (TagRun.relabel σ)) :=
    (sortByReplica_perm _).trans ((sortByReplica_perm runs).map _).symm
  simp only [hpolicy] at h
  have hhashes : ((sortByReplica (runs.map (TagRun.relabel σ))).map semanticHash).length =
      ((sortByReplica runs).map semanticHash).length := by
    simp [hperm.length_eq]
  have hview := partialFacts_view policy packet pack tenantId tagRevision ruleGaps hperm hhashes
  rw [partialFacts_relabel] at hview
  obtain ⟨renamed, hok, hsame⟩ := exists_ok_of_map_eq hview h
  refine ⟨renamed, ?_, hsame⟩
  refine bind_ok_iff.mpr ⟨profile, hprofile, bind_ok_iff.mpr ⟨track, hpacket,
    bind_ok_iff.mpr ⟨_, hrenamed, ?_⟩⟩⟩
  simpa only [hpolicy] using hok

end ProofOps.Application.Tagging
