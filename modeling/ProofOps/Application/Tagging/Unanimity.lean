import ProofOps.Application.Tagging.Relabelling
import ProofOps.Domain.Rules.Pinned

/-!
# Consensus never promotes disagreement

What a result may call present.  In the partial profiles every present fact and
every present candidate rests on one vote of each replica, all of them with one
bound key and verified references; in the strict profile confirmed tags exist
only over three clean runs that agree on every element.
-/

namespace ProofOps.Application.Tagging

open Domain Domain.Rules Foundation.Checked

/-! ### Votes and agreement -/

def Surviving (run : TagRun) (elementId : String) (vote : Vote) : Prop :=
  vote ∈ run.votes elementId ∧ ∀ error ∈ run.errors, isReviewNote error = true

def Unanimous (runs : List TagRun) (elementId : String) (value : Option String) : Prop :=
  ∃ key : VoteKey, key.state = .present ∧ key.normalizedValue = value ∧ key.binding.isSome ∧
    ∀ run ∈ runs, ∃ vote, Surviving run elementId vote ∧ vote.key = key ∧ vote.refsVerified = true

def Disputed (runs : List TagRun) (elementId : String) : Prop :=
  ∃ first ∈ runs, ∃ second ∈ runs, ∃ vote ∈ first.votes elementId,
    ∃ other ∈ second.votes elementId, vote.key ≠ other.key

def Unheard (runs : List TagRun) (elementId : String) : Prop :=
  ∃ run ∈ runs, run.votes elementId = []

def SaysPresent (result : ConsensusResult) (elementId : String) (value : Option String) : Prop :=
  (∃ tags, result.confirmedTags = some tags ∧ ∃ names, (elementId, names) ∈ mappings tags.track ∧
    ∃ fact ∈ tags.facts, fact.name ∈ names ∧ fact.state = .present ∧
      fact.normalizedValue = value) ∨
  ∃ element ∈ result.candidateElements, element.elementId = elementId ∧
    element.state = .present ∧ element.normalizedValue = value

/-- What the partial profiles promise about a result. -/
structure PartialSafe (runs : List TagRun) (result : ConsensusResult) : Prop where
  replicas : (runs.map TagRun.replicateId).Perm [1, 2, 3]
  present_unanimous : ∀ {elementId value}, SaysPresent result elementId value →
    Unanimous runs elementId value
  disputed_not_present : ∀ {elementId}, Disputed runs elementId →
    ∀ value, ¬SaysPresent result elementId value
  unheard_not_present : ∀ {elementId}, Unheard runs elementId →
    ∀ value, ¬SaysPresent result elementId value
  no_minted_absence : ∀ tags, result.confirmedTags = some tags → ∀ fact ∈ tags.facts,
    fact.state ≠ .absent ∧ fact.state ≠ .notApplicable ∧ fact.state ≠ .absentInScope
  needs_review : result.reviewStatus = .needsReview

structure StrictlyUnanimous (runs : List TagRun) (packet : EvidencePacket) : Prop where
  replicas : (runs.map TagRun.replicateId).Perm [1, 2, 3]
  succeeded : ∀ run ∈ runs, run.status = "succeeded" ∧ run.errors = []
  one_header : ∃ header, ∀ run ∈ runs, run.header = some header
  unanimous : ∀ elementId ∈ packet.allowedElements, ∃ key : StrictKey,
    key.state ≠ .unknown ∧ key.state ≠ .conflict ∧
      ∀ run ∈ runs, ∃ vote ∈ run.votes elementId, vote.strictKey = key

variable {elementId : String} {value : Option String}

theorem Unanimous.not_disputed {runs : List TagRun} (h : Unanimous runs elementId value)
    (hunique : ∀ run ∈ runs, run.UniqueVotes) : ¬Disputed runs elementId := by
  rintro ⟨first, hfirst, second, hsecond, vote, hvote, other, hother, hne⟩
  obtain ⟨key, -, -, -, hall⟩ := h
  have hkey : ∀ run ∈ runs, ∀ vote ∈ run.votes elementId, vote.key = key := by
    intro run hrun vote hvote
    obtain ⟨cast, ⟨hcast, -⟩, hcastKey, -⟩ := hall run hrun
    rw [(hunique run hrun).vote_eq hcast, List.mem_singleton] at hvote
    rw [hvote, hcastKey]
  exact hne ((hkey first hfirst vote hvote).trans (hkey second hsecond other hother).symm)

theorem Unanimous.not_unheard {runs : List TagRun} (h : Unanimous runs elementId value) :
    ¬Unheard runs elementId := by
  rintro ⟨run, hrun, hnone⟩
  obtain ⟨key, -, -, -, hall⟩ := h
  obtain ⟨vote, ⟨hvote, -⟩, -⟩ := hall run hrun
  rw [hnone] at hvote
  cases hvote

theorem mappings_disjoint (track : Track) : ∀ entry ∈ mappings track, ∀ other ∈ mappings track,
    ∀ name ∈ entry.2, name ∈ other.2 → entry = other := by
  cases track <;> decide

theorem primitives?_mem {track : Track} {names : List String}
    (h : primitives? track elementId = some names) : (elementId, names) ∈ mappings track := by
  obtain ⟨entry, hentry, rfl⟩ := Option.map_eq_some_iff.mp h
  have hid : entry.1 = elementId := by
    simpa using List.find?_some hentry
  rw [← hid]
  exact List.mem_of_find?_eq_some hentry

variable {tenantId : String} {fact : ConfirmedFact}

theorem voteFact_ok {scope name : String} {state : ElementState} {refs : List SourceRef}
    (h : voteFact tenantId state refs scope value name = .ok fact) :
    fact.name = name ∧ fact.state = FactState.ofElement state ∧
      (fact.state = .present → fact.normalizedValue = value) := by
  unfold voteFact at h
  split_ifs at h with hstate
  · obtain ⟨hname, hfact, -, -, hvalue⟩ := ConfirmedFact.make_ok h
    exact ⟨hname, by rw [hfact, hstate]; rfl, fun _ => hvalue⟩
  · obtain ⟨hname, hfact, -⟩ := ConfirmedFact.make_ok h
    refine ⟨hname, hfact, fun hpresent => ?_⟩
    exact absurd (FactState.ofElement_present_iff.mp (hfact.symm.trans hpresent)) hstate

/-! ### The partial profiles -/

variable {policy : PartialPolicy} {ordered : List TagRun}

theorem assembleElement_ok {track : Track} {outcome : ElementOutcome}
    (h : assembleElement policy tenantId track ordered elementId = .ok outcome) :
    ∃ names, primitives? track elementId = some names ∧
      elementView outcome.element = (elementId,
        elementState policy (ordered.map fun run => run.vote elementId),
        presentValue (elementState policy (ordered.map fun run => run.vote elementId))
          (ordered.map fun run => run.vote elementId).reduceOption) ∧
      ∀ fact ∈ outcome.facts, fact.name ∈ names ∧
        fact.state = FactState.ofElement
          (elementState policy (ordered.map fun run => run.vote elementId)) ∧
        (fact.state = .present → fact.normalizedValue = outcome.element.normalizedValue) := by
  have hnamed : ∀ vote ∈ (ordered.map fun run => run.vote elementId).reduceOption,
      vote.element.elementId = elementId := by
    intro vote hvote
    obtain ⟨run, -, hrun⟩ := mem_cast hvote
    exact mem_votes_element (mem_votes_of_vote hrun)
  obtain ⟨element, hmade, hview⟩ := candidateElement_view policy hnamed
  obtain ⟨found, hfound, h⟩ := bind_ok h
  cases hmade.symm.trans hfound
  cases hnames : primitives? track elementId with
  | none => simp [hnames] at h
  | some names =>
    simp only [hnames] at h
    obtain ⟨facts, hfacts, h⟩ := bind_ok h
    cases pure_ok h
    refine ⟨names, rfl, hview, fun fact hfact => ?_⟩
    obtain ⟨name, hname, hmadeFact⟩ := (mem_of_mapM_ok hfacts).mp hfact
    obtain ⟨hfactName, hstate, hvalue⟩ := voteFact_ok hmadeFact
    refine ⟨hfactName ▸ hname, hstate, fun hpresent => ?_⟩
    rw [hvalue hpresent]
    exact (congrArg (fun view => view.2.2) hview).symm

theorem surviving_of_not_fatal (hfatal : isFatal policy ordered = false) {run : TagRun}
    (hrun : run ∈ ordered) {vote : Vote} (hvote : vote ∈ run.votes elementId) :
    Surviving run elementId vote := by
  refine ⟨hvote, fun error herror => ?_⟩
  have hguarded := guarded_of_mem_votes hvote
  unfold isFatal at hfatal
  rw [List.any_eq_false] at hfatal
  have hnone := hfatal run hrun
  rw [List.any_eq_true] at hnone
  by_contra hnote
  refine hnone ⟨error, herror, ?_⟩
  -- A tolerated failure is only one of a run without guarded tags.
  have htolerated : isTolerated policy run error = false := by
    simp [isTolerated, Option.isNone_eq_false_iff.mpr hguarded]
  simpa [htolerated] using hnote

theorem unanimous_of_present (hfatal : isFatal policy ordered = false)
    (h : elementState policy (ordered.map fun run => run.vote elementId) = .present) :
    Unanimous ordered elementId
      (presentValue .present (ordered.map fun run => run.vote elementId).reduceOption) := by
  obtain ⟨key, hstate, hbound, hcast, hall⟩ := elementState_present h
  refine ⟨key, hstate, ?_, hbound, fun run hrun => ?_⟩
  · have hne : (ordered.map fun run => run.vote elementId).reduceOption ≠ [] := by
      intro hnil
      have hrefs := presentRefs_ne_nil h
      rw [hnil, h] at hrefs
      exact hrefs rfl
    cases hlist : (ordered.map fun run => run.vote elementId).reduceOption with
    | nil => exact absurd hlist hne
    | cons first rest =>
      have hfirst := hall first (by simp [hlist])
      rw [← hfirst]
      rfl
  · obtain ⟨vote, hvote, hkey, hverified⟩ :=
      hcast (run.vote elementId) (List.mem_map_of_mem hrun)
    exact ⟨vote, surviving_of_not_fatal hfatal hrun (mem_votes_of_vote hvote), hkey, hverified⟩

variable {hashes : List String} {pack : RulePackSnapshot} {tagRevision : Nat} {header : Header}

theorem assembleTags_ok {packet : EvidencePacket} {facts : List ConfirmedFact} {first : TagRun}
    {tags : ConfirmedTags}
    (h : assembleTags hashes packet pack tenantId tagRevision header facts first = .ok tags) :
    tags.track = header.track ∧ tags.facts.Perm facts := by
  unfold assembleTags ConfirmedTags.make at h
  split_ifs at h
  cases h
  exact ⟨rfl, List.perm_insertionSort _ facts⟩

variable {ruleGaps : List String} {result : ConsensusResult}

theorem partialTags_ok {packet : EvidencePacket}
    (h : partialTags policy hashes packet pack tenantId tagRevision ruleGaps ordered header =
      .ok result) :
    result.reviewStatus = .needsReview ∧
      (∀ element ∈ result.candidateElements, ∃ elementId outcome,
        assembleElement policy tenantId header.track ordered elementId = .ok outcome ∧
          outcome.element = element) ∧
      ∀ tags, result.confirmedTags = some tags → tags.track = header.track ∧
        ∀ fact ∈ tags.facts, fact.state = .unknown ∨ ∃ elementId outcome,
          assembleElement policy tenantId header.track ordered elementId = .ok outcome ∧
            fact ∈ outcome.facts := by
  obtain ⟨outcomes, houtcomes, h⟩ := bind_ok h
  obtain ⟨entries, -, h⟩ := bind_ok h
  obtain ⟨rubric, -, h⟩ := bind_ok h
  obtain ⟨unvoted, hunvoted, h⟩ := bind_ok h
  have hmade := @mem_of_mapM_ok _ _ _ _ _ _ houtcomes
  have hcandidates : ∀ element ∈ outcomes.map ElementOutcome.element, ∃ elementId outcome,
      assembleElement policy tenantId header.track ordered elementId = .ok outcome ∧
        outcome.element = element := by
    intro element helement
    obtain ⟨outcome, houtcome, rfl⟩ := List.mem_map.mp helement
    obtain ⟨elementId, -, hok⟩ := hmade.mp houtcome
    exact ⟨elementId, outcome, hok, rfl⟩
  have hfacts : ∀ fact ∈ outcomes.flatMap ElementOutcome.facts ++ unvoted,
      fact.state = .unknown ∨ ∃ elementId outcome,
        assembleElement policy tenantId header.track ordered elementId = .ok outcome ∧
          fact ∈ outcome.facts := by
    intro fact hfact
    rcases List.mem_append.mp hfact with hvoted | hopen
    · obtain ⟨outcome, houtcome, hmem⟩ := List.mem_flatMap.mp hvoted
      obtain ⟨elementId, -, hok⟩ := hmade.mp houtcome
      exact Or.inr ⟨elementId, outcome, hok, hmem⟩
    · obtain ⟨name, -, hok⟩ := (mem_of_mapM_ok hunvoted).mp hopen
      exact Or.inl (voteFact_ok hok).2.1
  unfold partialResult at h
  dsimp only at h
  split_ifs at h with hall
  · cases h
    exact ⟨rfl, hcandidates, nofun⟩
  · cases ordered with
    | nil => simp at h
    | cons first rest =>
      obtain ⟨tags, htags, h⟩ := bind_ok h
      cases pure_ok h
      refine ⟨rfl, hcandidates, fun other hother => ?_⟩
      cases hother
      obtain ⟨htrack, hperm⟩ := assembleTags_ok htags
      exact ⟨htrack, fun fact hfact => hfacts fact (hperm.mem_iff.mp hfact)⟩

theorem partialTags_unanimous {packet : EvidencePacket}
    (h : partialTags policy hashes packet pack tenantId tagRevision ruleGaps ordered header =
      .ok result) (hfatal : isFatal policy ordered = false)
    (hpresent : SaysPresent result elementId value) : Unanimous ordered elementId value := by
  obtain ⟨-, hcandidates, htags⟩ := partialTags_ok h
  have hvoted : ∀ {id : String} {outcome : ElementOutcome},
      assembleElement policy tenantId header.track ordered id = .ok outcome →
      outcome.element.state = .present → Unanimous ordered id outcome.element.normalizedValue := by
    intro id outcome hok hstate
    obtain ⟨names, -, hview, -⟩ := assembleElement_ok hok
    have hview' := hview
    simp only [elementView, Prod.mk.injEq] at hview'
    obtain ⟨-, hviewState, hviewValue⟩ := hview'
    rw [hviewState] at hstate
    rw [hviewValue, hstate]
    exact unanimous_of_present hfatal hstate
  rcases hpresent with ⟨tags, hsome, names, hmapped, fact, hfact, hname, hstate, rfl⟩ |
    ⟨element, helement, rfl, hstate, rfl⟩
  · obtain ⟨htrack, hfacts⟩ := htags tags hsome
    rcases hfacts fact hfact with hunknown | ⟨id, outcome, hok, hmem⟩
    · rw [hunknown] at hstate
      cases hstate
    · obtain ⟨voted, hvotedNames, hview, hvotedFacts⟩ := assembleElement_ok hok
      obtain ⟨hvotedName, hvotedState, hvotedValue⟩ := hvotedFacts fact hmem
      -- The fact's name belongs to one element, so the vote was on that element.
      have hsame : (elementId, names) = (id, voted) :=
        mappings_disjoint tags.track _ hmapped _ (htrack ▸ primitives?_mem hvotedNames) fact.name
          hname hvotedName
      cases hsame
      have helementState : outcome.element.state = .present := by
        have hviewState := congrArg (fun view => view.2.1) hview
        simp only [elementView] at hviewState
        rw [hviewState]
        exact FactState.ofElement_present_iff.mp (hvotedState.symm.trans hstate)
      rw [hvotedValue hstate]
      exact hvoted hok helementState
  · obtain ⟨id, outcome, hok, rfl⟩ := hcandidates element helement
    obtain ⟨names, -, hview, -⟩ := assembleElement_ok hok
    have hid : outcome.element.elementId = id := congrArg Prod.fst hview
    rw [hid]
    exact hvoted hok hstate

theorem partialTags_no_absence {packet : EvidencePacket}
    (h : partialTags policy hashes packet pack tenantId tagRevision ruleGaps ordered header =
      .ok result) {tags : ConfirmedTags} (htags : result.confirmedTags = some tags)
    (hfact : fact ∈ tags.facts) :
    fact.state ≠ .absent ∧ fact.state ≠ .notApplicable ∧ fact.state ≠ .absentInScope := by
  obtain ⟨-, -, hfacts⟩ := partialTags_ok h
  rcases (hfacts tags htags).2 fact hfact with hunknown | ⟨id, outcome, hok, hmem⟩
  · simp [hunknown]
  · obtain ⟨names, -, -, hvoted⟩ := assembleElement_ok hok
    have hstate := (hvoted fact hmem).2.1
    rcases elementState_cases policy (ordered.map fun run => run.vote id) with hcase | hcase | hcase
    all_goals simp [hstate, hcase, FactState.ofElement]

/-- The partial profiles are safe. -/
theorem partialFacts_safe {packet : EvidencePacket} {runs : List TagRun}
    (hperm : ordered.Perm runs) (hreplicas : (runs.map TagRun.replicateId).Perm [1, 2, 3])
    (hunique : ∀ run ∈ runs, run.UniqueVotes)
    (h : partialFacts policy hashes packet pack tenantId tagRevision ruleGaps ordered = .ok result)
    : PartialSafe runs result := by
  have hsafe : (∀ {elementId value}, SaysPresent result elementId value →
      Unanimous ordered elementId value) ∧
      (∀ tags, result.confirmedTags = some tags → ∀ fact ∈ tags.facts,
        fact.state ≠ .absent ∧ fact.state ≠ .notApplicable ∧ fact.state ≠ .absentInScope) ∧
      result.reviewStatus = .needsReview := by
    have hunsafe : ∀ {elementId value}, ¬SaysPresent (unsafeResult hashes) elementId value := by
      rintro elementId value (⟨tags, htags, -⟩ | ⟨element, helement, -⟩)
      · cases htags
      · cases helement
    unfold partialFacts at h
    cases hheader : soleHeader ordered with
    | none =>
      simp only [hheader, Except.ok.injEq] at h
      subst h
      exact ⟨fun hpresent => absurd hpresent hunsafe, nofun, rfl⟩
    | some header =>
      simp only [hheader] at h
      split_ifs at h with hopening
      · cases h
        exact ⟨fun hpresent => absurd hpresent hunsafe, nofun, rfl⟩
      · rw [not_or, not_or, Bool.not_eq_true, Bool.not_eq_true] at hopening
        exact ⟨fun hpresent => partialTags_unanimous h hopening.2.2 hpresent,
          fun tags htags fact hfact => partialTags_no_absence h htags hfact,
          (partialTags_ok h).1⟩
  obtain ⟨hunanimous, habsence, hreview⟩ := hsafe
  have hall : ∀ {elementId value}, SaysPresent result elementId value →
      Unanimous runs elementId value := by
    intro elementId value hpresent
    obtain ⟨key, hstate, hvalue, hbound, hvotes⟩ := hunanimous hpresent
    exact ⟨key, hstate, hvalue, hbound, fun run hrun => hvotes run (hperm.mem_iff.mpr hrun)⟩
  exact
    { replicas := hreplicas
      present_unanimous := hall
      disputed_not_present := fun hdisputed _ hpresent =>
        (hall hpresent).not_disputed hunique hdisputed
      unheard_not_present := fun hunheard _ hpresent => (hall hpresent).not_unheard hunheard
      no_minted_absence := habsence
      needs_review := hreview }

theorem mostCommon_count {κ : Type*} [DecidableEq κ] {keys : List κ} {key : κ} {count : Nat}
    (h : mostCommon keys = some (key, count)) : keys.count key = count := by
  have hfold : ∀ (rest : List (κ × Nat)) (head : κ × Nat), keys.count head.1 = head.2 →
      (∀ entry ∈ rest, keys.count entry.1 = entry.2) →
      keys.count (rest.foldl (fun best next => if best.2 < next.2 then next else best) head).1 =
        (rest.foldl (fun best next => if best.2 < next.2 then next else best) head).2 := by
    intro rest
    induction rest with
    | nil =>
      intro head hhead _
      exact hhead
    | cons next rest ih =>
      intro head hhead hrest
      rw [List.forall_mem_cons] at hrest
      rw [List.foldl_cons]
      refine ih _ ?_ hrest.2
      split_ifs
      · exact hrest.1
      · exact hhead
  have hcounts : ∀ entry ∈ keys.eraseDups.map fun key => (key, keys.count key),
      keys.count entry.1 = entry.2 := by
    intro entry hentry
    obtain ⟨key, -, rfl⟩ := List.mem_map.mp hentry
    rfl
  unfold mostCommon at h
  cases hlist : keys.eraseDups.map fun key => (key, keys.count key) with
  | nil => simp [hlist] at h
  | cons head rest =>
    rw [hlist, List.forall_mem_cons] at hcounts
    simp only [hlist, Option.some.injEq] at h
    have hbest := hfold rest head hcounts.1 hcounts.2
    rwa [h] at hbest

theorem strictElement_settled {track : Option Track} {outcome : StrictOutcome}
    (h : strictElement tenantId track ordered elementId = .ok outcome)
    (hreasons : outcome.reasons = []) :
    ∃ key : StrictKey, key.state ≠ .unknown ∧ key.state ≠ .conflict ∧
      ((ordered.flatMap fun run => run.votes elementId).map Vote.strictKey).count key = 3 := by
  unfold strictElement at h
  dsimp only at h
  split at h
  · cases h
    simp at hreasons
  · rename_i key count hcommon
    have hcount := mostCommon_count hcommon
    split_ifs at h with hfew
    · cases h
      simp at hreasons
    · unfold strictMajority at h
      split at h
      · cases h
      · rename_i winner rest hwinners
        have hkey : winner.strictKey = key := by
          have hmem : winner ∈ (ordered.flatMap fun run => run.votes elementId).filter
              fun vote => vote.strictKey == key := by
            rw [hwinners]
            exact List.mem_cons_self
          simpa using (List.mem_filter.mp hmem).2
        obtain ⟨candidate, hcandidate, h⟩ := bind_ok h
        have hstate : candidate.state = winner.element.state := by
          unfold replaceElement LlmElement.make at hcandidate
          split_ifs at hcandidate
          cases hcandidate
          rfl
        have hreview : ¬(count ≠ 3 ∨ candidate.state = .unknown ∨ candidate.state = .conflict) := by
          intro hneeded
          simp only [if_pos hneeded] at h
          split at h
          · cases pure_ok h
            simp at hreasons
          · split at h
            · cases pure_ok h
              simp at hreasons
            · obtain ⟨facts, -, h⟩ := bind_ok h
              cases pure_ok h
              simp at hreasons
        rw [not_or, not_or, not_not, hstate] at hreview
        refine ⟨key, ?_, ?_, hcount.trans hreview.1⟩
        · rw [← hkey]
          exact hreview.2.1
        · rw [← hkey]
          exact hreview.2.2

theorem each_votes_of_count (hthree : ordered.length = 3)
    (hunique : ∀ run ∈ ordered, run.UniqueVotes) {key : StrictKey}
    (hcount : ((ordered.flatMap fun run => run.votes elementId).map Vote.strictKey).count key = 3) :
    ∀ run ∈ ordered, ∃ vote ∈ run.votes elementId, vote.strictKey = key := by
  have hone : ∀ run ∈ ordered, ((run.votes elementId).map Vote.strictKey).count key ≤ 1 := by
    intro run hrun
    have hlength : (run.votes elementId).length ≤ 1 := by
      cases hvotes : run.votes elementId with
      | nil => simp
      | cons vote rest =>
        have hmem : vote ∈ run.votes elementId := by simp [hvotes]
        have hsole := (hunique run hrun).vote_eq hmem
        rw [← hvotes, hsole]
        rfl
    calc
      ((run.votes elementId).map Vote.strictKey).count key ≤
          ((run.votes elementId).map Vote.strictKey).length := List.count_le_length
      _ = (run.votes elementId).length := List.length_map _
      _ ≤ 1 := hlength
  have hpositive : ∀ run ∈ ordered, 0 < ((run.votes elementId).map Vote.strictKey).count key := by
    obtain ⟨first, second, third, rfl⟩ := List.length_eq_three.mp hthree
    simp only [List.mem_cons, List.not_mem_nil, or_false, forall_eq_or_imp, forall_eq] at hone ⊢
    simp only [List.flatMap_cons, List.flatMap_nil, List.append_nil, List.map_append,
      List.count_append] at hcount
    omega
  intro run hrun
  obtain ⟨vote, hvote, hkey⟩ := List.mem_map.mp (List.count_pos_iff.mp (hpositive run hrun))
  exact ⟨vote, hvote, hkey⟩

theorem strictFacts_safe {packet : EvidencePacket} {runs : List TagRun} (hperm : ordered.Perm runs)
    (hthree : runs.length = 3) (hreplicas : (runs.map TagRun.replicateId).Perm [1, 2, 3])
    (hunique : ∀ run ∈ runs, run.UniqueVotes)
    (h : strictFacts hashes packet pack tenantId tagRevision ruleGaps ordered = .ok result)
    {tags : ConfirmedTags} (htags : result.confirmedTags = some tags) :
    StrictlyUnanimous runs packet := by
  obtain ⟨outcomes, houtcomes, h⟩ := bind_ok h
  obtain ⟨confirmed, hconfirmed, h⟩ := bind_ok h
  cases pure_ok h
  have hempty : strictReasons packet ruleGaps ordered ++
      outcomes.flatMap StrictOutcome.reasons = [] := by
    unfold strictTags at hconfirmed
    split at hconfirmed
    · assumption
    · cases hconfirmed
      cases htags
  rw [List.append_eq_nil_iff, List.flatMap_eq_nil_iff] at hempty
  obtain ⟨hopening, hreasons⟩ := hempty
  unfold strictReasons at hopening
  simp only [List.append_eq_nil_iff, ite_eq_right_iff, List.cons_ne_nil, imp_false] at hopening
  obtain ⟨⟨⟨⟨-, -⟩, hruns⟩, hheaders⟩, -⟩ := hopening
  have hclean : ∀ run ∈ ordered, run.status = "succeeded" ∧ run.errors = [] ∧
      run.guarded.isSome := by
    intro run hrun
    have hnone := List.any_eq_false.mp (Bool.not_eq_true _ ▸ hruns) run hrun
    simpa [Option.isSome_iff_ne_none, and_assoc] using hnone
  refine ⟨hreplicas, fun run hrun => ?_, ?_, fun elementId helement => ?_⟩
  · have hrunClean := hclean run (hperm.mem_iff.mpr hrun)
    exact ⟨hrunClean.1, hrunClean.2.1⟩
  · obtain ⟨header, hheader⟩ := List.length_eq_one_iff.mp (not_not.mp hheaders)
    refine ⟨header, fun run hrun => ?_⟩
    obtain ⟨guarded, hguarded⟩ :=
      Option.isSome_iff_exists.mp (hclean run (hperm.mem_iff.mpr hrun)).2.2
    obtain ⟨own, hown⟩ : ∃ own, run.header = some own := by
      unfold TagRun.header
      rw [hguarded]
      exact ⟨_, rfl⟩
    have hmem : own ∈ (ordered.filterMap TagRun.header).dedup :=
      List.mem_dedup.mpr (List.mem_filterMap.mpr ⟨run, hperm.mem_iff.mpr hrun, hown⟩)
    rw [hheader, List.mem_singleton] at hmem
    rw [hown, hmem]
  · obtain ⟨outcome, houtcome, hok⟩ := exists_of_mapM_ok houtcomes helement
    obtain ⟨key, hunknown, hconflict, hcount⟩ :=
      strictElement_settled hok (hreasons outcome houtcome)
    refine ⟨key, hunknown, hconflict, fun run hrun => ?_⟩
    exact each_votes_of_count (hperm.length_eq.trans hthree)
      (fun other hother => hunique other (hperm.mem_iff.mp hother)) hcount run
      (hperm.mem_iff.mpr hrun)

theorem parse_strict_iff {name : String} {profile : Profile}
    (h : Profile.parse name = .ok profile) : profile = .strictV1 ↔ name = "strict-v1" := by
  unfold Profile.parse at h
  split at h <;> cases h <;> simp_all

/-- A result never promotes disagreement.  In the partial profiles a present fact
or candidate is unanimous, nothing is minted absent, nothing is confirmed, and
the replica identifiers carry no weight; in the strict profile confirmed tags
rest on three clean, agreeing runs. -/
theorem formConsensus_guarded {semanticHash : TagRun → String} {runs : List TagRun}
    {packet : EvidencePacket} {pack : RulePackSnapshot} {tenantId : String} {tagRevision : Nat}
    {ruleGaps : List String} {profileName : String} {result : ConsensusResult}
    (hunique : ∀ run ∈ runs, run.UniqueVotes)
    (h : formConsensus semanticHash runs packet pack tenantId tagRevision ruleGaps profileName =
      .ok result) :
    (profileName ≠ "strict-v1" → PartialSafe runs result ∧ ∀ σ : Relabelling, ∃ renamed,
        formConsensus semanticHash (runs.map (TagRun.relabel σ)) packet pack tenantId tagRevision
          ruleGaps profileName = .ok renamed ∧ resultView renamed = resultView result) ∧
      (profileName = "strict-v1" → ∀ tags, result.confirmedTags = some tags →
        StrictlyUnanimous runs packet) := by
  have hwhole := h
  obtain ⟨profile, hprofile, h⟩ := bind_ok h
  obtain ⟨track, hpacket, h⟩ := bind_ok h
  obtain ⟨ordered, hruns, h⟩ := bind_ok h
  obtain ⟨haccepted, rfl⟩ := checkRuns_ok_iff.mp hruns
  have hperm := sortByReplica_perm runs
  have hreplicas : (runs.map TagRun.replicateId).Perm [1, 2, 3] :=
    ((List.subperm_of_subset (by decide) haccepted.replicas).perm_of_length_le
      (by simp [haccepted.three])).symm
  have hstrict := parse_strict_iff hprofile
  constructor
  · intro hname
    have hincomplete : profile ≠ .strictV1 := fun heq => hname (hstrict.mp heq)
    refine ⟨?_, fun σ => formConsensus_relabel hprofile hincomplete hwhole σ⟩
    cases hpolicy : profile.partialPolicy with
    | none => cases profile <;> simp_all [Profile.partialPolicy]
    | some policy =>
      simp only [hpolicy] at h
      exact partialFacts_safe hperm hreplicas hunique h
  · intro hname tags htags
    cases hstrict.mpr hname
    exact strictFacts_safe hperm haccepted.three hreplicas hunique h htags

/-! ### Three replicas of one management claim

All of them name the means; none finds anything else. -/

namespace Sample

def named : LlmElement where
  elementId := "M1"
  state := .present
  evidenceRefs := [Pinned.sourceRef "solar roof"]
  normalizedValue := some "solar roof"
  creditedFrom := none
  reasonCode := none
  present_sourced := fun _ => List.cons_ne_nil _ _

def unfound (elementId : String) : LlmElement where
  elementId := elementId
  state := .unknown
  evidenceRefs := []
  normalizedValue := none
  creditedFrom := none
  reasonCode := none
  present_sourced := nofun

def tags (replica : Nat) (hreplica : IsReplica replica) : LlmTags where
  claimId := "claim"
  packetSha256 := "packet"
  replicateId := replica
  track := .management
  safeHarborCategory := none
  elements := named :: ["M2", "M3", "M4", "M5", "M6"].map unfound
  superlativeQuote := none
  warnings := []
  replicate_known := hreplica

def run (replica : Nat) (hreplica : IsReplica replica) (requestId : String) : TagRun where
  request :=
    { cacheNamespace := "namespace", requestId := requestId, requestSignature := requestId
      replicateId := replica, extractionEpoch := 1, replicate_known := hreplica
      epoch_pos := first_pos }
  tenantId := "tenant"
  runId := "run"
  claimId := "claim"
  packetSha256 := "packet"
  graphSha256 := "graph"
  ruleSha256 := "rules"
  modelSha256 := "model"
  promptSha256 := "prompt"
  rawResponseJson := none
  usage := none
  guarded := some (tags replica hreplica)
  status := "succeeded"
  errors := []
  sourceScopes := [("M1", "local_claim")]
  bindingHashes := [("M1", "binding")]
  isSynthetic := true
  productVariant := false
  recovered := false
  providerResponseJson := none
  diagnosticDetail := none

def runs : List TagRun :=
  [run 2 replica_two "second", run 1 replica_one "first",
    run 3 replica_three "third"]

def packet : EvidencePacket where
  packetSha256 := "packet"
  retrievalPacketSha256 := some "retrieval"
  track := some .management
  allowedElements := ["M1", "M2", "M3", "M4", "M5", "M6"]
  tenantId := "tenant"
  claimId := "claim"
  runId := "run"
  graphSha256 := "graph"
  documentVersionId := "document"
  safeHarborCategory := none

end Sample

theorem formConsensus_guarded_named_means :
    Unanimous Sample.runs "M1" (some "solar roof") := by
  have hrun : Returns (formConsensus TagRun.runId Sample.runs Sample.packet
      (Pinned.pack "tenant" "rules" Pinned.rubric) "tenant" 1 [] "partial-facts-v1")
      fun result => ∃ element ∈ result.candidateElements, element.elementId = "M1" ∧
        element.state = .present ∧ element.normalizedValue = some "solar roof" := by
    decide +kernel
  obtain ⟨result, h, hpresent⟩ := hrun
  have hunique : ∀ run ∈ Sample.runs, run.UniqueVotes := by
    decide
  exact ((formConsensus_guarded hunique h).1 (by decide)).1.present_unanimous (Or.inr hpresent)

end ProofOps.Application.Tagging
