import ProofOps.Application.Tagging.Cf6Agreement
import ProofOps.Domain.Rules.Outcome

/-!
# What the three-replica gate publishes

The lemmas follow the order of the source: where the facts of an assembly come from, which
conditions an empty list of reasons leaves, and what the engine decides on.
-/

namespace ProofOps.Application.Tagging.Cf6

open Foundation Foundation.Checked Domain Domain.Rules Evidence

/-! ### Facts -/

def Supported (rules : Rules) (request : Request) (policy : Policy) (ordered : List TagRun)
    (elementId : String) (fact : ConfirmedFact) : Prop :=
  ∃ votes binding, castVotes rules request ordered elementId = .ok votes ∧
    PyText.truthy binding = true ∧ Agreed votes policy.requiredVotes
      { state := .tagged .present, value := fact.normalizedValue, binding,
        scope := fact.sourceScope }

variable {track : Track} {ordered : List TagRun} {entry : String × List String}
  {assessment : Assessment} {fact : ConfirmedFact}

theorem assessElement_present {rules : Rules} {request : Request} {policy : Policy}
    (h : assessElement rules request policy track ordered entry = .ok assessment)
    (hfact : fact ∈ assessment.facts) (hpresent : fact.state = .present) :
    Supported rules request policy ordered entry.1 fact := by
  obtain ⟨votes, hvotes, -, -, hfacts, -⟩ := assessElement_ok h
  obtain ⟨name, -, hok⟩ := (mem_of_mapM_ok hfacts).mp hfact
  obtain ⟨-, hstate, -, hscope, hvalue⟩ := ConfirmedFact.make_ok hok
  generalize hsettled : settleElement request policy ordered votes = settled at *
  obtain ⟨state, winners⟩ := settled
  have hsame : state = .present := hstate.symm.trans hpresent
  subst hsame
  obtain ⟨first, rest, rfl, hsupports, hagreed, hwon⟩ :=
    resolveVotes_present (settleVotes_present hsettled)
  obtain ⟨run, -, hcast⟩ :=
    (mem_of_mapM_ok hvotes).mp (hwon first List.mem_cons_self).1
  have hkey : first.key =
      { state := .tagged .present, value := fact.normalizedValue, binding := first.binding,
        scope := fact.sourceScope } := by
    rw [hvalue, hscope]
    simp [ElementVote.key, (ElementVote.supports_iff.mp hsupports).1]
  exact ⟨votes, first.binding, hvotes, (castVote_supports hcast hsupports).bound.2, hkey ▸ hagreed⟩

theorem assessments_name {rules : Rules} {request : Request} {policy : Policy}
    {assessments : List Assessment}
    (h : (mappings track).mapM (assessElement rules request policy track ordered) = .ok assessments)
    (hentry : entry ∈ mappings track) {name : String} (hname : name ∈ entry.2) :
    name ∈ (assessments.flatMap Assessment.facts).map ConfirmedFact.name := by
  obtain ⟨assessment, hassessment, hok⟩ := exists_of_mapM_ok h hentry
  obtain ⟨votes, -, -, -, hfacts, -⟩ := assessElement_ok hok
  obtain ⟨fact, hfact, hmade⟩ := exists_of_mapM_ok hfacts hname
  rw [← (ConfirmedFact.make_ok hmade).1]
  exact List.mem_map_of_mem (List.mem_flatMap.mpr ⟨assessment, hassessment, hfact⟩)

variable {assembly : Assembly} {baseline : ConsensusResult} {tags : ConfirmedTags}

theorem otherFacts_unknown {rules : Rules} {request : Request}
    (h : Assembled rules request assembly baseline tags)
    (hfact : fact ∈ otherFacts baseline (assembly.assessments.flatMap Assessment.facts)) :
    fact.state = .unknown := by
  have hconsensus := h.consensus
  obtain ⟨profile, hprofile, hconsensus⟩ := bind_ok hconsensus
  obtain ⟨track, -, hconsensus⟩ := bind_ok hconsensus
  obtain ⟨ordered, -, hconsensus⟩ := bind_ok hconsensus
  cases hprofile
  simp only [Profile.partialPolicy] at hconsensus
  unfold otherFacts at hfact
  cases hconfirmed : baseline.confirmedTags with
  | none => simp [hconfirmed] at hfact
  | some confirmed =>
    simp only [hconfirmed, List.mem_filter] at hfact
    obtain ⟨hmem, hfree⟩ := hfact
    unfold partialFacts at hconsensus
    cases hheader : soleHeader ordered with
    | none =>
      simp only [hheader, Except.ok.injEq] at hconsensus
      rw [← hconsensus] at hconfirmed
      cases hconfirmed
    | some header =>
      simp only [hheader] at hconsensus
      split_ifs at hconsensus with hopening
      · cases hconsensus
        cases hconfirmed
      · rw [not_or, not_not, Prod.mk.injEq] at hopening
        have htrack : header.track = assembly.track :=
          Option.some.inj (hopening.1.1.trans h.track)
        obtain ⟨-, -, htags⟩ := partialTags_ok hconsensus
        rcases (htags confirmed hconfirmed).2 fact hmem with hunknown | ⟨id, outcome, hok, hin⟩
        · exact hunknown
        · -- A fact of an element carries a mapped name, and these are all taken.
          obtain ⟨names, hnames, -, hvoted⟩ := assembleElement_ok hok
          have hname := assessments_name h.assessments (htrack ▸ primitives?_mem hnames)
            (hvoted fact hin).1
          simp only [Bool.not_eq_true', List.contains_eq_mem, decide_eq_false_iff_not] at hfree
          exact absurd hname hfree

variable {facts : List ConfirmedFact}

theorem ConfirmedTags.make_ok {tenantId documentVersionId claimId : String} {tagRevision : Nat}
    {packetSha256 modelSha256 promptSha256 : String} {replicateHashes : List String}
    {ontologyVersion : String} {safeHarborCategory : Option SafeHarborCategory}
    {superlativeQuote : Option String} {productVariant : Bool}
    (h : ConfirmedTags.make tenantId documentVersionId claimId track facts tagRevision packetSha256
      modelSha256 promptSha256 replicateHashes ontologyVersion safeHarborCategory superlativeQuote
      productVariant = .ok tags) :
    tags.track = track ∧ tags.facts.Perm facts ∧ tags.superlativeQuote = superlativeQuote ∧
      tags.documentVersionId = documentVersionId := by
  unfold ConfirmedTags.make at h
  split_ifs at h
  cases h
  exact ⟨rfl, List.perm_insertionSort _ facts, rfl, rfl⟩

theorem buildTags_ok {rules : Rules} {request : Request}
    (h : buildTags rules request track ordered facts = .ok tags) :
    tags.track = track ∧ tags.facts.Perm facts ∧
      tags.superlativeQuote =
        (ordered.filterMap TagRun.header).head?.bind Header.superlativeQuote ∧
      tags.documentVersionId = request.claim.documentVersionId := by
  cases ordered with
  | nil => cases h
  | cons first rest => exact ConfirmedTags.make_ok h

theorem mem_putFact {other : ConfirmedFact} (h : other ∈ putFact facts fact) :
    other ∈ facts ∨ other = fact := by
  unfold putFact at h
  split_ifs at h
  · obtain ⟨old, hold, rfl⟩ := List.mem_map.mp h
    split_ifs
    · exact Or.inr rfl
    · exact Or.inl hold
  · rcases List.mem_append.mp h with hold | hnew
    · exact Or.inl hold
    · exact Or.inr (List.mem_singleton.mp hnew)

variable {closed : List ConfirmedFact}

theorem mem_closeOperand {name : String}
    (h : closeOperand facts name = .ok closed) (hfact : fact ∈ closed) :
    fact ∈ facts ∨ fact.state = .absentInScope := by
  have hput : ∀ {made : List ConfirmedFact},
      (ConfirmedFact.make name .absentInScope [] none false false false "local_claim" none).map
        (putFact facts) = .ok made → fact ∈ made → fact ∈ facts ∨ fact.state = .absentInScope := by
    intro made hmade hmem
    obtain ⟨absent, habsent, rfl⟩ := map_ok_iff.mp hmade
    rcases mem_putFact hmem with hold | rfl
    · exact Or.inl hold
    · exact Or.inr (ConfirmedFact.make_ok habsent).2.1
  unfold closeOperand at h
  cases hnamed : factNamed facts name with
  | none =>
    simp only [hnamed] at h
    exact hput h hfact
  | some found =>
    simp only [hnamed] at h
    by_cases hunknown : found.state = .unknown
    · rw [if_pos hunknown] at h
      exact hput h hfact
    · rw [if_neg hunknown] at h
      cases h
      exact Or.inl hfact

theorem mem_closeOperands {names : List String}
    (h : names.foldlM closeOperand facts = .ok closed) (hfact : fact ∈ closed) :
    fact ∈ facts ∨ fact.state = .absentInScope := by
  induction names generalizing facts with
  | nil =>
    cases pure_ok h
    exact Or.inl hfact
  | cons name names ih =>
    obtain ⟨mid, hmid, h⟩ := bind_ok h
    rcases ih h with hold | habsent
    · exact mem_closeOperand hmid hold
    · exact Or.inr habsent

structure SuperlativeFact (tags : ConfirmedTags) (claimSourceRefs : List SourceRef)
    (fact : ConfirmedFact) : Prop where
  named : fact.name = "has_superlative"
  quoted : PyText.truthy tags.superlativeQuote = true
  sourced : fact.evidenceRefs = superlativeRefs tags claimSourceRefs ∧ fact.evidenceRefs ≠ []

theorem resolveExceptionFacts_ok {resolved : ConfirmedTags} {claimSourceRefs : List SourceRef}
    (h : resolveExceptionFacts tags claimSourceRefs = .ok resolved) :
    resolved.track = tags.track ∧ ∀ fact ∈ resolved.facts,
      fact ∈ tags.facts ∨ fact.state = .absentInScope ∨ SuperlativeFact tags claimSourceRefs fact := by
  obtain ⟨facts, hfacts, h⟩ := bind_ok h
  obtain ⟨closed, hclosed, h⟩ := bind_ok h
  obtain ⟨htrack, hperm, -, -⟩ := ConfirmedTags.make_ok h
  refine ⟨htrack, fun fact hfact => ?_⟩
  rcases mem_closeOperands hclosed (hperm.mem_iff.mp hfact) with hold | habsent
  · unfold addSuperlative at hfacts
    by_cases hadds : PyText.truthy tags.superlativeQuote = true ∧
        (factNamed tags.facts "has_superlative").isNone = true ∧
        superlativeRefs tags claimSourceRefs ≠ []
    · rw [if_pos hadds] at hfacts
      obtain ⟨made, hmade, hfacts⟩ := bind_ok hfacts
      cases pure_ok hfacts
      rcases List.mem_append.mp hold with hold | hnew
      · exact Or.inl hold
      · rw [List.mem_singleton.mp hnew]
        obtain ⟨hname, -, hrefs, -⟩ := ConfirmedFact.make_ok hmade
        exact Or.inr (Or.inr ⟨hname, hadds.1, hrefs, hrefs ▸ hadds.2.2⟩)
    · rw [if_neg hadds] at hfacts
      cases hfacts
      exact Or.inl hold
  · exact Or.inr (Or.inl habsent)

/-! ### Reasons -/

theorem reasonUnless_eq_nil_iff {test : Bool} {reason : String} :
    reasonUnless test reason = [] ↔ test = true := by
  unfold reasonUnless
  split_ifs with h
  · simp [h]
  · simp [h]

structure Opened (rules : Rules) (request : Request) (policy : Policy) (ordered : List TagRun)
    (claimVerified : Bool) : Prop where
  completed : allCompleted ordered = true
  current : ∀ run ∈ ordered, responseBound rules.toVoteRules run request.analysisPolicy = true
  headers : headersAgree request ordered = true
  claim : claimVerified = true
  packetPolicy : packetPolicyMatches request policy = true
  scope : validScope request = true
  providers : providersDistinct ordered = true

variable {claimVerified : Bool}

theorem opened_of_nil {rules : Rules} {request : Request} {policy : Policy}
    (h : openingReasons rules request policy ordered claimVerified = []) :
    Opened rules request policy ordered claimVerified := by
  unfold openingReasons at h
  simp only [List.append_eq_nil_iff, reasonUnless_eq_nil_iff, List.all_eq_true] at h
  obtain ⟨⟨⟨⟨⟨⟨⟨⟨⟨⟨hcompleted, hcurrent⟩, hheaders⟩, hclaim⟩, hpolicy⟩, hscope⟩, -⟩, -⟩, -⟩, -⟩,
    hproviders⟩ := h
  exact ⟨hcompleted, hcurrent, hheaders, hclaim, hpolicy, hscope, hproviders⟩

theorem Opened.header {rules : Rules} {request : Request} {policy : Policy}
    (h : Opened rules request policy ordered claimVerified) :
    ∃ header : Header, (∀ run ∈ ordered, run.header = some header) ∧
      (ordered.filterMap TagRun.header).head? = some header ∧
      request.packet.track = some header.track ∧
      request.packet.safeHarborCategory = header.safeHarborCategory := by
  have hagree := h.headers
  unfold headersAgree at hagree
  split at hagree
  · rename_i first second third hheaders
    simp only [Bool.and_eq_true, beq_iff_eq, Prod.mk.injEq] at hagree
    obtain ⟨⟨rfl, rfl⟩, htrack, hcategory⟩ := hagree
    refine ⟨third, fun run hrun => ?_, by rw [hheaders]; rfl, htrack.symm, hcategory.symm⟩
    have hdone := List.all_eq_true.mp h.completed run hrun
    unfold isCompleted at hdone
    simp only [Bool.and_eq_true] at hdone
    obtain ⟨tags, htags⟩ := Option.isSome_iff_exists.mp hdone.1.1
    have hsome : run.header = some
        { track := tags.track, safeHarborCategory := tags.safeHarborCategory,
          superlativeQuote := tags.superlativeQuote } := by
      unfold TagRun.header
      rw [htags]
      rfl
    have hmem := List.mem_filterMap.mpr ⟨run, hrun, hsome⟩
    rw [hheaders] at hmem
    rw [hsome]
    simp only [List.mem_cons, List.not_mem_nil, or_false, or_self] at hmem
    rw [hmem]
  · cases hagree

theorem Opened.provider {rules : Rules} {request : Request} {policy : Policy}
    (h : Opened rules request policy ordered claimVerified) (hthree : ordered.length = 3) :
    (ordered.map TagRun.providerRequestId).Nodup ∧
      ∀ run ∈ ordered, run.providerRequestId.isSome = true := by
  have husage : ordered.filter (fun run => run.usage.isSome) = ordered := by
    refine List.filter_eq_self.mpr fun run hrun => ?_
    have hdone := List.all_eq_true.mp h.completed run hrun
    unfold isCompleted at hdone
    simp only [Bool.and_eq_true] at hdone
    obtain ⟨usage, husage, -⟩ := (Option.any_eq_true _ _).mp hdone.1.2
    simp [husage]
  have hproviders := h.providers
  unfold providersDistinct at hproviders
  rw [husage, Bool.and_eq_true, decide_eq_true_eq, List.all_eq_true] at hproviders
  obtain ⟨hdistinct, hnamed⟩ := hproviders
  refine ⟨?_, hnamed⟩
  have hsame : ordered.map TagRun.providerRequestId =
      ordered.map fun run => run.usage.bind TokenUsage.providerRequestId := by
    refine List.map_congr_left fun run hrun => ?_
    obtain ⟨provider, hprovider⟩ := Option.isSome_iff_exists.mp (hnamed run hrun)
    rw [hprovider]
    exact (Option.filter_eq_some_iff.mp hprovider).1.symm
  rw [hsame]
  have hall : (ordered.map fun run => run.usage.bind TokenUsage.providerRequestId).dedup =
      ordered.map fun run => run.usage.bind TokenUsage.providerRequestId :=
    (List.dedup_sublist _).eq_of_length (by rw [hdistinct, List.length_map, hthree])
  exact hall ▸ List.nodup_dedup _

theorem claimSourceVerified_ok {rules : Rules} {request : Request}
    (h : claimSourceVerified rules request = .ok true) :
    request.claim.sourceRefs ≠ [] ∧ request.claim.sourceQuality = "verified" ∧
      ∀ ref ∈ request.claim.sourceRefs,
        isVerified (verifySourceRef rules.citations request.original ref) = true := by
  unfold claimSourceVerified at h
  by_cases hopen : request.claim.sourceRefs = [] ∨ request.claim.sourceQuality ≠ "verified"
  · rw [if_pos hopen] at h
    cases h
  · rw [if_neg hopen] at h
    rw [not_or, not_not] at hopen
    exact ⟨hopen.1, hopen.2, fun ref href => (allVerified_ok h ref href).2.2⟩

variable {analysisScope : Bool}

/-- A decided run has a grade. -/
theorem grade_of_decided {run : EngineRun} {dec127 : Bool}
    (h : (run.status tags analysisScope dec127).1 = .decided) :
    ∃ grade, run.grade tags analysisScope dec127 = some grade := by
  unfold EngineRun.grade
  rw [if_pos h]
  cases hoverride : run.effect.overrideGrade with
  | some grade => exact ⟨grade, rfl⟩
  | none =>
    unfold EngineRun.status applyEffect blockAdditional ladderStatus at h
    rw [hoverride] at h
    simp only [Option.isSome_none, Bool.false_eq_true, if_false] at h
    cases honly : theOnly (run.grades tags analysisScope dec127) with
    | none =>
      simp only [honly] at h
      split_ifs at h
    | some value =>
      cases value with
      | none =>
        simp only [honly] at h
        split_ifs at h
      | some grade => exact ⟨grade, rfl⟩

theorem evaluateCore_decided {hash : CanonicalHash} {context : RuleContext}
    {pack : RulePackSnapshot} {dec127 : Bool} {decision : Decision}
    (h : evaluateCore hash tags context pack analysisScope dec127 = .ok decision)
    (hdecided : decision.decisionStatus = .decided) : ∃ grade, decision.DecidedAs grade := by
  obtain ⟨run, -, h⟩ := bind_ok h
  cases pure_ok h
  obtain ⟨grade, hgrade⟩ := grade_of_decided hdecided
  exact ⟨grade, hdecided, hgrade⟩

def DecidesOn (rules : Rules) (request : Request) (policy : Policy)
    (elements : List ElementRecord) (tags : ConfirmedTags) (outcome : ScopeOutcome) : Prop :=
  (scopedAbsences tags = [] ∧ ∃ decision,
      evaluate rules.canonicalHash tags request.context request.pack = .ok decision ∧
        outcome = .plain decision) ∨
    (scopedAbsences tags ≠ [] ∧
      evaluateCf6Scope rules.canonicalHash rules.scopeHash tags request.context request.pack
        (confirmationScope rules request policy) (rules.policySha256 policy)
        (rules.scopedReceiptSha256 (confirmationScope rules request policy) elements) = .ok outcome)

variable {outcome : ScopeOutcome} {elements : List ElementRecord}

theorem decideTags_ok {rules : Rules} {request : Request} {policy : Policy}
    (h : decideTags rules request policy elements tags = .ok outcome)
    (hconflict : hasConflict tags = false) :
    DecidesOn rules request policy elements tags outcome := by
  unfold decideTags at h
  by_cases habsent : scopedAbsences tags ≠ []
  · rw [if_pos habsent, if_neg (by simp [hconflict])] at h
    exact Or.inr ⟨habsent, h⟩
  · rw [if_neg habsent] at h
    obtain ⟨decision, hdecision, rfl⟩ := map_ok_iff.mp h
    exact Or.inl ⟨not_not.mp habsent, decision, hdecision, rfl⟩

/-- A decided outcome carries a grade. -/
theorem DecidesOn.grade {rules : Rules} {request : Request} {policy : Policy}
    (h : DecidesOn rules request policy elements tags outcome)
    (hdecided : outcome.decision.decisionStatus = .decided) :
    ∃ grade, outcome.decision.DecidedAs grade := by
  rcases h with ⟨-, decision, hdecision, rfl⟩ | ⟨-, hscoped⟩
  · obtain ⟨-, hcore⟩ := evaluate_ok hdecision
    exact evaluateCore_decided hcore hdecided
  · unfold evaluateCf6Scope at hscoped
    cases hselected : selectedPolicy rules.scopeHash (confirmationScope rules request policy) with
    | none => simp [hselected] at hscoped
    | some selected =>
      simp only [hselected] at hscoped
      by_cases hrefused : (!cf6Admitted tags (confirmationScope rules request policy)) = true
      · rw [if_pos hrefused] at hscoped
        cases hscoped
      rw [if_neg hrefused] at hscoped
      obtain ⟨decision, hdecision, hscoped⟩ := bind_ok hscoped
      by_cases hopen : decision.decisionStatus ≠ .decided
      · rw [if_pos hopen] at hscoped
        cases pure_ok hscoped
        exact absurd hdecided hopen
      · rw [if_neg hopen] at hscoped
        cases pure_ok hscoped
        obtain ⟨grade, hgrade⟩ := evaluateCore_decided hdecision (not_not.mp hopen)
        exact ⟨grade, hgrade⟩

/-! ### The gate -/

structure QuotedSuperlative (request : Request) (header : Header) (fact : ConfirmedFact) : Prop where
  named : fact.name = "has_superlative"
  sourced : fact.evidenceRefs ≠ []
  quoted : ∃ quote, header.superlativeQuote = some quote ∧ ∀ ref ∈ fact.evidenceRefs,
    ref ∈ request.claim.sourceRefs ∧ isVerified ref = true ∧ PyText.isIn quote ref.quote = true

/-- What a published result rests on. -/
structure Published (rules : Rules) (request : Request) (result : Result)
    (confirmation : Confirmation) (header : Header) (assembly : Assembly) : Prop where
  replicas : (request.runs.map TagRun.replicateId).Perm [1, 2, 3]
  completed : ∀ run ∈ request.runs, isCompleted run = true
  current : ∀ run ∈ request.runs, responseBound rules.toVoteRules run request.analysisPolicy = true
  providers : (request.runs.map TagRun.providerRequestId).Nodup ∧
    ∀ run ∈ request.runs, run.providerRequestId.isSome = true
  one_header : ∀ run ∈ request.runs, run.header = some header
  packet_header : request.packet.track = some header.track ∧
    request.packet.safeHarborCategory = header.safeHarborCategory
  claim_source : request.claim.sourceRefs ≠ [] ∧ request.claim.sourceQuality = "verified" ∧
    ∀ ref ∈ request.claim.sourceRefs,
      isVerified (verifySourceRef rules.citations request.original ref) = true
  scope : validScope request = true
  assembled : assemble rules request = .ok assembly
  no_conflict : ∀ fact ∈ assembly.tags.facts, fact.state ≠ .conflict
  ladder_settled : ∀ elementId ∈ ladder assembly.track, ∃ record ∈ result.body.elements,
    record.elementId = elementId ∧ (record.state = .present ∨ record.state = .absentInScope)
  supported : ∀ fact ∈ assembly.tags.facts, fact.state = .present →
    (∃ entry ∈ mappings assembly.track, fact.name ∈ entry.2 ∧
      Supported rules request assembly.policy assembly.ordered entry.1 fact) ∨
    QuotedSuperlative request header fact
  decides : DecidesOn rules request assembly.policy assembly.elements assembly.tags
    confirmation.decision
  graded : ∃ grade, confirmation.decision.decision.DecidedAs grade

theorem ladder_mapped (track : Track) :
    ∀ elementId ∈ ladder track, elementId ∈ (mappings track).map Prod.fst := by
  cases track <;> decide

theorem confirm_some {rules : Rules} {request : Request} {body : Body} {confirmation : Confirmation}
    (h : confirm rules request assembly outcome body = some confirmation) :
    allReasons rules request assembly outcome.decision = [] ∧ confirmation.decision = outcome := by
  unfold confirm at h
  split_ifs at h with hreasons
  rw [Option.some.injEq] at h
  exact ⟨hreasons, by rw [← h]⟩

theorem Assembled.mem_facts {rules : Rules} {request : Request}
    (h : Assembled rules request assembly baseline tags) (hfact : fact ∈ tags.facts) :
    fact.state = .unknown ∨ ∃ entry ∈ mappings assembly.track, ∃ assessment ∈ assembly.assessments,
      assessElement rules request assembly.policy assembly.track assembly.ordered entry =
        .ok assessment ∧ fact ∈ assessment.facts := by
  obtain ⟨-, hperm, -⟩ := buildTags_ok h.built
  rcases List.mem_append.mp (hperm.mem_iff.mp hfact) with hown | hother
  · obtain ⟨assessment, hassessment, hin⟩ := List.mem_flatMap.mp hown
    obtain ⟨entry, hentry, hok⟩ := (mem_of_mapM_ok h.assessments).mp hassessment
    exact Or.inr ⟨entry, hentry, assessment, hassessment, hok, hin⟩
  · exact Or.inl (otherFacts_unknown h hother)

theorem Assembled.mem_resolved {rules : Rules} {request : Request}
    (h : Assembled rules request assembly baseline tags) (hclaim : assembly.claimVerified = true)
    (hfact : fact ∈ assembly.tags.facts) :
    fact ∈ tags.facts ∨ fact.state = .absentInScope ∨
      SuperlativeFact tags request.claim.sourceRefs fact := by
  have hresolved := h.resolved
  rw [if_pos hclaim] at hresolved
  by_cases hreads : readsExceptions request assembly.policy assembly.ordered = true
  · rw [if_pos hreads] at hresolved
    exact (resolveExceptionFacts_ok hresolved).2 fact hfact
  · rw [if_neg hreads] at hresolved
    rw [hresolved] at hfact
    exact Or.inl hfact

theorem SuperlativeFact.quotedBy {request : Request} {header : Header}
    (h : SuperlativeFact tags request.claim.sourceRefs fact)
    (hquote : tags.superlativeQuote = (some header).bind Header.superlativeQuote) :
    QuotedSuperlative request header fact := by
  obtain ⟨hrefs, hne⟩ := h.sourced
  refine ⟨h.named, hne, ?_⟩
  cases hsome : tags.superlativeQuote with
  | none =>
    have hquoted := h.quoted
    rw [hsome] at hquoted
    cases hquoted
  | some quote =>
    refine ⟨quote, by rw [← hsome, hquote]; rfl, fun ref href => ?_⟩
    rw [hrefs] at href
    unfold superlativeRefs at href
    simp only [hsome, List.mem_filter, Bool.and_eq_true] at href
    exact ⟨href.1, href.2.1.1.1, href.2.2⟩

theorem assessElement_fact {rules : Rules} {request : Request} {policy : Policy}
    (h : assessElement rules request policy track ordered entry = .ok assessment)
    (hfact : fact ∈ assessment.facts) :
    fact.name ∈ entry.2 ∧ fact.state = assessment.record.state := by
  obtain ⟨votes, -, -, hstate, hfacts, -⟩ := assessElement_ok h
  obtain ⟨name, hname, hok⟩ := (mem_of_mapM_ok hfacts).mp hfact
  obtain ⟨hmade, hmadeState, -⟩ := ConfirmedFact.make_ok hok
  exact ⟨hmade ▸ hname, hmadeState.trans hstate.symm⟩

theorem assessElement_silent {rules : Rules} {request : Request} {policy : Policy}
    (h : assessElement rules request policy track ordered entry = .ok assessment)
    (hreasons : assessment.reasons = []) :
    assessment.record.state ≠ .conflict ∧ (entry.1 ∈ ladder track →
      assessment.record.state = .present ∨ assessment.record.state = .absentInScope) := by
  obtain ⟨votes, -, -, hstate, -, hmade⟩ := assessElement_ok h
  rw [hmade, ← hstate] at hreasons
  unfold elementReasons at hreasons
  rw [List.append_eq_nil_iff, reasonUnless_eq_nil_iff, reasonUnless_eq_nil_iff] at hreasons
  refine ⟨by simpa using hreasons.2, fun hladder => ?_⟩
  simpa [hladder] using hreasons.1

/-- A published confirmation rests on three completed, current and distinct replicas of one
header, on a verified claim in a valid scope, and on facts without conflict: each present one
is agreed on by enough verified votes, or is the superlative that the header quotes from the
claim.  The published decision is the engine's on these facts. -/
theorem confirmationResult_published {rules : Rules} {request : Request} {result : Result}
    {confirmation : Confirmation} (h : confirmationResult rules request = .ok result)
    (hpublished : result.cf6Confirmation = some confirmation) :
    ∃ header assembly, Published rules request result confirmation header assembly := by
  obtain ⟨assembly, outcome, hassembly, houtcome, helements, body, -, hconfirm⟩ :=
    confirmationResult_ok h
  obtain ⟨baseline, tags, hparts⟩ := assemble_ok hassembly
  rw [hpublished] at hconfirm
  obtain ⟨hreasons, hdecision⟩ := confirm_some hconfirm.symm
  unfold allReasons at hreasons
  simp only [List.append_eq_nil_iff, reasonUnless_eq_nil_iff, List.flatMap_eq_nil_iff,
    beq_iff_eq] at hreasons
  obtain ⟨⟨⟨hopening, hsilent⟩, hconflicts⟩, hdecided⟩ := hreasons
  have hopened := opened_of_nil hopening
  obtain ⟨header, hheader, hhead, hpacket⟩ := hopened.header
  have hrun : ∀ {run}, run ∈ request.runs → run ∈ assembly.ordered := fun hrun => by
    rw [hparts.ordered]
    exact (sortByReplica_perm request.runs).mem_iff.mpr hrun
  have hproviders := hopened.provider hparts.three
  have hreads : readsExceptions request assembly.policy assembly.ordered =
      assembly.policy.revised := by
    unfold readsExceptions
    rw [hopened.completed, hopened.scope, Bool.and_true, Bool.and_true]
  obtain ⟨-, -, hquote, -⟩ := buildTags_ok hparts.built
  have hfacts := fun fact (hfact : fact ∈ assembly.tags.facts) =>
    hparts.mem_resolved hopened.claim hfact
  have hnoConflict : ∀ fact ∈ assembly.tags.facts, fact.state ≠ .conflict := by
    intro fact hfact hstate
    by_cases hrevised : assembly.policy.revised = true
    · rw [hreads, if_pos hrevised] at hconflicts
      have hmem : fact ∈ assembly.tags.facts.filter fun fact => fact.state == .conflict :=
        List.mem_filter.mpr ⟨hfact, by simp [hstate]⟩
      rw [List.map_eq_nil_iff.mp hconflicts] at hmem
      cases hmem
    · have hresolved := hparts.resolved
      rw [if_neg (by rw [hreads]; exact hrevised)] at hresolved
      rw [hresolved] at hfact
      rcases hparts.mem_facts hfact with hunknown | ⟨entry, -, assessment, hin, hok, hmem⟩
      · rw [hunknown] at hstate
        cases hstate
      · exact (assessElement_silent hok (hsilent assessment hin)).1
          ((assessElement_fact hok hmem).2.symm.trans hstate)
  have hdecides := decideTags_ok houtcome (by
    unfold hasConflict
    rw [List.any_eq_false]
    intro fact hfact
    simpa using hnoConflict fact hfact)
  refine ⟨header, assembly, ?_⟩
  exact
    { replicas := formConsensus_replicas hparts.consensus
      completed := fun run hmem => List.all_eq_true.mp hopened.completed run (hrun hmem)
      current := fun run hmem => hopened.current run (hrun hmem)
      providers := by
        refine ⟨?_, fun run hmem => hproviders.2 run (hrun hmem)⟩
        have hperm := (sortByReplica_perm request.runs).map TagRun.providerRequestId
        rw [← hparts.ordered] at hperm
        exact hperm.nodup_iff.mp hproviders.1
      one_header := fun run hmem => hheader run (hrun hmem)
      packet_header := hpacket
      claim_source := claimSourceVerified_ok (hopened.claim ▸ hparts.claimVerified)
      scope := hopened.scope
      assembled := hassembly
      no_conflict := hnoConflict
      ladder_settled := by
        intro elementId hladder
        obtain ⟨entry, hentry, rfl⟩ := List.mem_map.mp (ladder_mapped assembly.track _ hladder)
        obtain ⟨assessment, hassessment, hok⟩ := exists_of_mapM_ok hparts.assessments hentry
        obtain ⟨votes, -, hid, -⟩ := assessElement_ok hok
        refine ⟨assessment.record, ?_, hid,
          (assessElement_silent hok (hsilent assessment hassessment)).2 hladder⟩
        rw [helements]
        exact List.mem_map_of_mem hassessment
      supported := by
        intro fact hfact hpresent
        rcases hfacts fact hfact with hown | habsent | hsuperlative
        · rcases hparts.mem_facts hown with hunknown | ⟨entry, hentry, assessment, -, hok, hmem⟩
          · rw [hunknown] at hpresent
            cases hpresent
          · exact Or.inl ⟨entry, hentry, (assessElement_fact hok hmem).1,
              assessElement_present hok hmem hpresent⟩
        · rw [habsent] at hpresent
          cases hpresent
        · rw [hhead] at hquote
          exact Or.inr (hsuperlative.quotedBy hquote)
      decides := hdecision ▸ hdecides
      graded := hdecision ▸ hdecides.grade hdecided }

/-! ### A headline that one replica backs

Three replicas read a management headline that calls its solar roof the best.  The first one
finds the named means in it, the two others find nothing. -/

namespace Headline

theorem side_pos : (0 : ℚ) < 2 :=
  two_pos

theorem box_pos : (0 : ℚ) < 1 :=
  one_pos

def page : Ingest.PageGeometry where
  widthPt := 2
  heightPt := 2
  rotation := .r0
  cropBox := ⟨0, 0, 2, 2, side_pos, side_pos⟩
  width_pos := side_pos
  height_pos := side_pos
  consistent := by decide +kernel

def text : String := "our best solar roof"

def block : Ingest.CandidateBlock where
  kind := .paragraph
  source :=
    { documentVersionId := "document"
      parseManifestId := "manifest"
      parserRunId := "parser"
      sourceNativeId := "1"
      physicalPage := 1
      printedPageLabel := none
      nativeBbox := some ⟨0, 0, 1, 1, box_pos, box_pos⟩
      rawText := text
      charStart := 0
      charEnd := 19 }
  geometry := page
  context := []
  tableNativeId := none
  rowNumber := none
  columnNumber := none
  rowSpan := none
  columnSpan := none

def identity : Numeric.Identity where
  tenantId := "tenant"
  documentVersionId := "document"
  parseManifestId := "manifest"
  sourceSha256 := "source"

def original : OriginalGraph where
  graph :=
    { identity := identity
      blocks := [{ sourceId := "block", kind := .paragraph, candidates := [block]
                   independentFamilies := ["a", "b"], quality := "verified", winner := some 0 }]
      edges := []
      issues := []
      candidates :=
        [{ identity := identity, parserRunId := "parser", parserName := "parser"
           parserFamily := "a", blocks := [block], edges := [], synthetic := false
           own_blocks := by simp [identity, block]
           native_nodup := by simp }] }
  verifiedSpans := none

def ref : SourceRef where
  sourceId := "block"
  documentVersionId := "document"
  parseManifestId := "manifest"
  pageNum := 1
  printedPageLabel := none
  bbox := some ⟨0, 1, 1, 2, by norm_num, by norm_num⟩
  rawTextSha256 := "text"
  quote := text
  charStart := 0
  charEnd := 19
  locationQuality := .located
  verificationState := .verified
  page_pos := first_pos
  offsets_ordered := Nat.zero_le 19

def named : LlmElement where
  elementId := "M1"
  state := .present
  evidenceRefs := [ref]
  normalizedValue := some "solar roof"
  creditedFrom := none
  reasonCode := none
  present_sourced := fun _ => List.cons_ne_nil _ _

def run (replica : Nat) (hreplica : IsReplica replica) (requestId : String)
    (elements : List LlmElement) : TagRun where
  request :=
    { cacheNamespace := "namespace", requestId := requestId, requestSignature := requestId
      replicateId := replica, extractionEpoch := 1, replicate_known := hreplica
      epoch_pos := first_pos }
  tenantId := "tenant"
  runId := "run"
  claimId := "claim"
  packetSha256 := "packet"
  graphSha256 := "graph"
  ruleSha256 := "rules"
  modelSha256 := "model"
  promptSha256 := "prompt"
  rawResponseJson := some requestId
  usage := some
    { inputTokens := none, outputTokens := none, cacheReadTokens := none, cacheWriteTokens := none
      latencyMs := 0, status := "succeeded", providerRequestId := some requestId
      errorCode := none }
  guarded := some
    { claimId := "claim", packetSha256 := "packet", replicateId := replica, track := .management
      safeHarborCategory := none, elements := elements, superlativeQuote := some "best"
      warnings := [], replicate_known := hreplica }
  status := "succeeded"
  errors := []
  sourceScopes := []
  bindingHashes := [("M1", "binding")]
  isSynthetic := false
  productVariant := false
  recovered := false
  providerResponseJson := some requestId
  diagnosticDetail := none

def others : List LlmElement :=
  ["M2", "M3", "M4", "M5", "M6"].map Tagging.Sample.unfound

def backing : TagRun :=
  run 1 replica_one "first" (named :: others)

def runs : List TagRun :=
  [backing,
    run 2 replica_two "second" (Tagging.Sample.unfound "M1" :: others),
    run 3 replica_three "third" (Tagging.Sample.unfound "M1" :: others)]

def policy : Policy :=
  ⟨2, true, Or.inl rfl⟩

def request : Request where
  runs := runs
  packet :=
    { Tagging.Sample.packet with
      analysisPolicySha256 := some "analysis"
      confirmation := .registered policy
      selectedPages := [1] }
  pack := Pinned.pack "tenant" "rules" Pinned.rubric
  context := Pinned.context
  claim :=
    { tenantId := "tenant", documentVersionId := "document", claimId := "claim"
      sourceRefs := [ref], sourceQuality := "verified" }
  original := original
  analysisPolicy := { sha256 := "analysis", confirmation := .registered policy }
  priorProjection := { gapIds := [], gradeBasis := none }
  holdReason := none

def response (requestId : String) : Option ProviderResponse :=
  (runs.find? fun run => run.request.requestId == requestId).map fun run =>
    { receipt := some
        { schemaName := .text "cf6-authenticated-transport-v1"
          authenticated := .flag true
          freshModelCall := .flag true
          replay := .flag false
          responseSha256 := .text "response"
          expandedSha256 := .text "reply"
          providerRequestId := .text requestId
          binding := some (expectedBinding run request.analysisPolicy) }
      sha256 := "response"
      providerRequestId := .text requestId
      requestId := .text requestId
      simulated := none
      responseReuse := false
      savedResponseOrigin := false }

def rules : Rules where
  citations := { sha256 := fun _ => "text", normalized := id }
  decodeResponse := response
  replySha256 := fun _ => "reply"
  rawElement := fun _ _ => some { state := .text "unknown", evidenceRefs := .absent }
  canonicalHash := Pinned.blankHash
  scopeHash :=
    { policy := fun policy => match policy with
        | .analysis => "analysis"
        | .cf6V1 => "first"
        | .cf6V2 => "second"
      semantic := fun _ _ _ => "" }
  semanticHash := TagRun.runId
  graphSha256 := fun _ => "graph"
  policySha256 := fun _ => "policy"
  projectionSha256 := fun _ => "projection"
  scopedReceiptSha256 := fun _ _ => "scoped"
  bodySha256 := fun _ => "body"

end Headline

/-- The sample is published. -/
theorem confirmationResult_published_headline :
    ∃ result confirmation header assembly,
      Published Headline.rules Headline.request result confirmation header assembly := by
  have hrun : Returns (confirmationResult Headline.rules Headline.request)
      fun result => result.cf6Confirmation.isSome := by
    decide +kernel
  obtain ⟨result, h, hsome⟩ := hrun
  obtain ⟨confirmation, hconfirmation⟩ := Option.isSome_iff_exists.mp hsome
  obtain ⟨header, assembly, hpublished⟩ := confirmationResult_published h hconfirmation
  exact ⟨result, confirmation, header, assembly, hpublished⟩

def EveryPresentVoted (rules : Rules) (request : Request) : Prop :=
  ∀ result assembly, confirmationResult rules request = .ok result →
    result.cf6Confirmation.isSome → assemble rules request = .ok assembly →
    ∀ fact ∈ assembly.tags.facts, fact.state = .present →
      ∃ entry ∈ mappings assembly.track, fact.name ∈ entry.2 ∧
        Supported rules request assembly.policy assembly.ordered entry.1 fact

theorem headline_superlative_unvoted : ¬EveryPresentVoted Headline.rules Headline.request := by
  intro h
  have hrun : Returns (confirmationResult Headline.rules Headline.request)
      fun result => result.cf6Confirmation.isSome := by
    decide +kernel
  have hassembly : Returns (assemble Headline.rules Headline.request) fun assembly =>
      ∃ fact ∈ assembly.tags.facts, fact.state = .present ∧
        ∀ entry ∈ mappings assembly.track, fact.name ∉ entry.2 := by
    decide +kernel
  obtain ⟨result, hresult, hsome⟩ := hrun
  obtain ⟨assembly, hassembly, fact, hfact, hpresent, hunmapped⟩ := hassembly
  obtain ⟨entry, hentry, hname, -⟩ := h result assembly hresult hsome hassembly fact hfact hpresent
  exact hunmapped entry hentry hname

theorem confirm_none_of_reasons {rules : Rules} {request : Request} {body : Body}
    (hassessment : assessment ∈ assembly.assessments) (hreasons : assessment.reasons ≠ []) :
    confirm rules request assembly outcome body = none := by
  unfold confirm
  rw [if_neg]
  intro hnone
  unfold allReasons at hnone
  simp only [List.append_eq_nil_iff, List.flatMap_eq_nil_iff] at hnone
  exact hreasons (hnone.1.1.2 assessment hassessment)

theorem required_le_of_present {policy : Policy} {request : Request} {votes : List ElementVote}
    (h : (settleElement request policy ordered votes).1 = .present) :
    policy.requiredVotes ≤ (votes.filter ElementVote.supports).length := by
  have hsettled : settleElement request policy ordered votes =
      (.present, (settleElement request policy ordered votes).2) := by
    rw [← h]
  obtain ⟨first, rest, -, -, hagreed, -⟩ := resolveVotes_present (settleVotes_present hsettled)
  refine hagreed.2.trans ?_
  rw [← List.countP_eq_length_filter, ← List.countP_eq_length_filter]
  refine List.countP_mono_left fun vote _ hboth => ?_
  rw [Bool.and_eq_true] at hboth
  exact hboth.1

/-- **When too few supporting votes are an absence.**  An element is recorded as absent in scope if
and only if the replicas completed in a valid scope and its votes are readable, without conflict,
and support it too rarely but without contradiction.  An element of the ladder with too few
supporting votes that is not absent in this sense blocks the publication. -/
theorem absentInScope_iff_underSupported {rules : Rules} {request : Request} {result : Result}
    (h : confirmationResult rules request = .ok result) {record : ElementRecord}
    (hrecord : record ∈ result.body.elements) :
    ∃ policy votes, selectPolicy request.analysisPolicy = .ok policy ∧
      castVotes rules request (sortByReplica request.runs) record.elementId = .ok votes ∧
      (record.state = .absentInScope ↔ allCompleted (sortByReplica request.runs) = true ∧
        validScope request = true ∧ UnderSupported votes policy.requiredVotes) ∧
      ((votes.filter ElementVote.supports).length < policy.requiredVotes →
        record.state ≠ .absentInScope →
          ∀ track ∈ request.packet.track, record.elementId ∈ ladder track →
            result.cf6Confirmation = none) := by
  obtain ⟨assembly, outcome, hassembly, -, helements, body, -, hconfirm⟩ := confirmationResult_ok h
  obtain ⟨baseline, tags, hparts⟩ := assemble_ok hassembly
  rw [helements] at hrecord
  obtain ⟨assessment, hassessment, rfl⟩ := List.mem_map.mp hrecord
  obtain ⟨entry, -, hok⟩ := (mem_of_mapM_ok hparts.assessments).mp hassessment
  obtain ⟨votes, hvotes, hid, hstate, -, hreasons⟩ := assessElement_ok hok
  have hthree : votes.length = 3 := (castVotes_length hvotes).trans hparts.three
  have hcounted : ∀ vote ∈ votes, vote.isVerified = true → vote.supports = true := by
    intro vote hvote hverified
    obtain ⟨run, -, hcast⟩ := (mem_of_mapM_ok hvotes).mp hvote
    exact castVote_verified hcast hverified
  refine ⟨assembly.policy, votes, hparts.selected, ?_, ?_, ?_⟩
  · rw [hid, ← hparts.ordered]
    exact hvotes
  · rw [hstate, ← hparts.ordered]
    exact settleElement_absent_iff hthree hcounted
  · intro hfew hnotAbsent track htrack hladder
    obtain rfl : assembly.track = track := Option.some.inj (hparts.track.symm.trans htrack)
    rw [hstate] at hnotAbsent
    have hnotPresent : (settleElement request assembly.policy assembly.ordered votes).1 ≠ .present :=
      fun hpresent => absurd (required_le_of_present hpresent) (not_le.mpr hfew)
    rw [hconfirm]
    refine confirm_none_of_reasons hassessment ?_
    rw [hreasons, ← hid]
    unfold elementReasons
    rw [Ne, List.append_eq_nil_iff, not_and_or]
    left
    rw [reasonUnless_eq_nil_iff]
    simp [hladder, hnotPresent, hnotAbsent]

theorem absentInScope_iff_underSupported_headline : ∃ policy votes,
    selectPolicy Headline.request.analysisPolicy = .ok policy ∧
      castVotes Headline.rules Headline.request (sortByReplica Headline.runs) "M1" = .ok votes ∧
      UnderSupported votes policy.requiredVotes := by
  have hrun : Returns (confirmationResult Headline.rules Headline.request)
      fun result => ∃ record ∈ result.body.elements, record.elementId = "M1" ∧
        record.state = .absentInScope := by
    decide +kernel
  obtain ⟨result, h, record, hrecord, hid, habsent⟩ := hrun
  obtain ⟨policy, votes, hpolicy, hvotes, hiff, -⟩ := absentInScope_iff_underSupported h hrecord
  exact ⟨policy, votes, hpolicy, hid ▸ hvotes, (hiff.mp habsent).2.2⟩

def NeverOutvoted (rules : Rules) (request : Request) : Prop :=
  ∀ result, confirmationResult rules request = .ok result → result.cf6Confirmation.isSome →
    ∀ record ∈ result.body.elements, record.state = .absentInScope →
      ∀ run ∈ request.runs, ∀ vote : ElementVote,
        castVote rules.toVoteRules request.original request.claim record.elementId run = .ok vote →
          vote.supports = false

theorem headline_means_outvoted : ¬NeverOutvoted Headline.rules Headline.request := by
  intro h
  have hrun : Returns (confirmationResult Headline.rules Headline.request)
      fun result => result.cf6Confirmation.isSome ∧
        ∃ record ∈ result.body.elements, record.elementId = "M1" ∧
          record.state = .absentInScope := by
    decide +kernel
  have hvote : Returns (castVote Headline.rules.toVoteRules Headline.original
      Headline.request.claim "M1" Headline.backing) fun vote => vote.supports = true := by
    decide +kernel
  obtain ⟨result, hresult, hsome, record, hrecord, hid, habsent⟩ := hrun
  obtain ⟨vote, hcast, hsupports⟩ := hvote
  have houtvoted := h result hresult hsome record hrecord habsent Headline.backing
    List.mem_cons_self vote (hid ▸ hcast)
  rw [hsupports] at houtvoted
  cases houtvoted

end ProofOps.Application.Tagging.Cf6
