import ProofOps.Application.Reconciliation.ServiceSoundness

/-!
# Accepted explanations

An explanation enters by two routes.  A candidate of the search is verified and has to have
the role of an explanation; the one a packet names itself has to be reviewed, and its role is
never read.  What the engine accepts is therefore registered as an explanation exactly when
the packet's own one, if there is one, is.
-/

namespace ProofOps.Application.Reconciliation

open Foundation Foundation.Checked Domain.Reconciliation

/-! ### What the engine accepts -/

variable {reasons : List Reason} {sources : List String} {sourceId : String}

section Engine

variable {rules : EngineRules} {context : Context} {own : Option String}

def AcceptsOnly (own : Option String) (result : Except EngineError Outcome) : Prop :=
  ∀ outcome, result = .ok outcome →
    ∀ sourceId, outcome.explanationSourceId = some sourceId → own = some sourceId

namespace AcceptsOnly

theorem error {error : EngineError} : AcceptsOnly own (.error error) := nofun

theorem blocked :
    AcceptsOnly own (.ok (.blocked reasons sources)) := by
  intro outcome h sourceId hsource
  cases h
  cases hsource

theorem unexplained {status : Status} :
    AcceptsOnly own (.ok (.completed status reasons sources none)) := by
  intro outcome h sourceId hsource
  cases h
  cases hsource

theorem bind {α : Type} {first : Except EngineError α} {next : α → Except EngineError Outcome}
    (h : ∀ value, AcceptsOnly own (next value)) : AcceptsOnly own (first >>= next) := by
  intro outcome houtcome
  obtain ⟨value, -, hnext⟩ := bind_ok houtcome
  exact h value outcome hnext

theorem ite {p : Prop} [Decidable p] {first second : Except EngineError Outcome}
    (hfirst : AcceptsOnly own first) (hsecond : AcceptsOnly own second) :
    AcceptsOnly own (if p then first else second) := by
  by_cases hp : p
  · rwa [if_pos hp]
  · rwa [if_neg hp]

theorem withSources {extra : List String} {result : Except EngineError Outcome}
    (h : AcceptsOnly own result) : AcceptsOnly own (result.map (Outcome.withSources extra)) := by
  intro outcome houtcome sourceId hsource
  obtain ⟨inner, hinner, rfl⟩ := map_ok_iff.mp houtcome
  apply h inner hinner sourceId
  cases inner with
  | completed status reasons sources explanation => exact hsource
  | blocked reasons sources => exact hsource

theorem guards {mismatch unresolved : Option Outcome} {rest : Except EngineError Outcome} :
    (∀ outcome, mismatch = some outcome → AcceptsOnly own (.ok outcome)) →
    (∀ outcome, unresolved = some outcome → AcceptsOnly own (.ok outcome)) →
    AcceptsOnly own rest →
    AcceptsOnly own (match mismatch, unresolved with
      | some mismatch, _ => .ok mismatch
      | none, some unresolved => .ok unresolved
      | none, none => rest) := by
  intro hmismatch hunresolved hrest
  cases mismatch with
  | some outcome => exact hmismatch outcome rfl
  | none =>
    cases unresolved with
    | some outcome => exact hunresolved outcome rfl
    | none => exact hrest

end AcceptsOnly

theorem requireKind_accepts {allowed : List Kind} (outcome : Outcome)
    (h : context.requireKind allowed = some outcome) : AcceptsOnly own (.ok outcome) := by
  unfold Context.requireKind at h
  split_ifs at h
  cases h
  exact AcceptsOnly.blocked

theorem unresolvedValues_accepts (outcome : Outcome)
    (h : context.unresolvedValues = some outcome) : AcceptsOnly own (.ok outcome) := by
  unfold Context.unresolvedValues at h
  split_ifs at h
  cases h
  exact AcceptsOnly.blocked

theorem resolveDifference_accepts (reason : Reason) :
    AcceptsOnly context.packet.explanation.sourceId (.ok (context.resolveDifference reason)) := by
  intro outcome houtcome sourceId hsource
  cases houtcome
  unfold Context.resolveDifference at hsource
  cases hown : context.packet.explanation.sourceId with
  | some own =>
    rw [hown] at hsource
    exact hsource
  | none =>
    rw [hown] at hsource
    split_ifs at hsource <;> cases hsource

theorem C1.evaluate_accepts :
    AcceptsOnly context.packet.explanation.sourceId (C1.evaluate rules context) := by
  refine AcceptsOnly.guards requireKind_accepts unresolvedValues_accepts ?_
  refine AcceptsOnly.ite .blocked (.ite .blocked (.ite .blocked ?_))
  refine AcceptsOnly.bind fun sustainability => AcceptsOnly.bind fun financial => ?_
  exact AcceptsOnly.ite .blocked (.ite .unexplained (resolveDifference_accepts _))

/-- So does the second. -/
theorem C2.evaluate_accepts :
    AcceptsOnly context.packet.explanation.sourceId (C2.evaluate context) := by
  refine AcceptsOnly.guards requireKind_accepts unresolvedValues_accepts ?_
  refine AcceptsOnly.bind fun sustainability => AcceptsOnly.bind fun financial => ?_
  refine AcceptsOnly.bind fun window => ?_
  exact AcceptsOnly.ite .unexplained (.ite .unexplained (resolveDifference_accepts _))

theorem C3.compareThreshold_accepts (commitment capex : Decimal) :
    AcceptsOnly context.packet.explanation.sourceId
      (C3.compareThreshold context commitment capex) := by
  unfold C3.compareThreshold
  cases context.policy.c3Threshold with
  | none => exact AcceptsOnly.blocked
  | some threshold =>
    refine AcceptsOnly.bind fun value => AcceptsOnly.bind fun within => ?_
    exact AcceptsOnly.ite .unexplained (resolveDifference_accepts _)

theorem C3.judge_accepts (c3Context : C3Context) :
    AcceptsOnly context.packet.explanation.sourceId (C3.judge context c3Context) := by
  refine AcceptsOnly.guards requireKind_accepts unresolvedValues_accepts ?_
  refine AcceptsOnly.ite .blocked (.ite .blocked (.ite .blocked (.ite .blocked ?_)))
  refine AcceptsOnly.bind fun commitment => AcceptsOnly.bind fun capex => ?_
  refine AcceptsOnly.ite .blocked (.ite .blocked (.ite .unexplained ?_))
  exact C3.compareThreshold_accepts _ _

theorem C3.evaluate_accepts :
    AcceptsOnly context.packet.explanation.sourceId (C3.evaluate context) := by
  refine AcceptsOnly.ite .unexplained ?_
  cases context.packet.c3Context with
  | none => exact AcceptsOnly.error
  | some c3Context => exact (C3.judge_accepts c3Context).withSources

theorem C4.evaluate_accepts : AcceptsOnly own (C4.evaluate context) := by
  refine AcceptsOnly.guards requireKind_accepts unresolvedValues_accepts ?_
  cases context.packet.c4Context with
  | none => exact AcceptsOnly.error
  | some c4Context =>
    refine AcceptsOnly.bind fun found => ?_
    exact AcceptsOnly.ite .unexplained (.ite .blocked .unexplained)

theorem policyGate_accepts {packet : Packet} {policy : Policy} (outcome : Outcome)
    (h : policyGate packet policy = some outcome) : AcceptsOnly own (.ok outcome) := by
  unfold policyGate at h
  split_ifs at h <;> cases h <;> exact AcceptsOnly.blocked

theorem decideOutcome_accepts (packet : Packet) (policy : Policy) :
    AcceptsOnly packet.explanation.sourceId (decideOutcome rules packet policy) := by
  unfold decideOutcome
  cases hgate : policyGate packet policy with
  | some gate => exact policyGate_accepts gate hgate
  | none =>
    cases packet.comparability with
    | notComparable => exact AcceptsOnly.unexplained
    | unknown => exact AcceptsOnly.blocked
    | comparable =>
      refine AcceptsOnly.ite .blocked (.ite .blocked ?_)
      unfold evaluateItem
      cases packet.item with
      | c1 => exact C1.evaluate_accepts
      | c2 => exact C2.evaluate_accepts
      | c3 => exact C3.evaluate_accepts
      | c4 => exact C4.evaluate_accepts
      | c5 => exact AcceptsOnly.error

theorem evaluate_accepts {packet : Packet} {policy : Policy} {output : Output}
    (h : evaluate rules packet policy = .ok output)
    (hexplained : output.explanationSourceId = some sourceId) :
    packet.explanation.sourceId = some sourceId := by
  obtain ⟨-, -, -, outcome, houtcome, rfl⟩ := evaluate_ok_iff.mp h
  exact decideOutcome_accepts packet policy outcome houtcome sourceId hexplained

end Engine

/-! ### The two routes -/

section Routes

variable {rules : ServiceRules} {registries : Registries} {packet : Packet} {policy : Policy}

def hasExplanationRole (registries : Registries) (sources : List Source) (sourceId : String) :
    Bool :=
  (sourceNamed sources sourceId).any fun source => hasSourceRole registries source "explanation"

def isOwnSource (packet : Packet) (sourceId : String) : Prop :=
  sourceId = packet.claim.sourceId ∨ packet.sustainability.sourceId = some sourceId ∨
    packet.financial.sourceId = some sourceId

structure ExplanationRegistered (rules : ServiceRules) (registries : Registries) (packet : Packet)
    (policy : Policy) (sourceId : String) : Prop where
  role : ∃ given, trust rules registries packet policy = .ok given ∧
    hasExplanationRole registries given.1.sources sourceId = true
  reviewed : ∃ entry texts, coverageEntry registries packet = some entry ∧
    entry.reviewedSourceIds = some texts ∧ some sourceId ∈ texts
  apart : ¬isOwnSource packet sourceId

def OwnExplanationRegistered (registries : Registries) (packet : Packet) : Prop :=
  ∀ sourceId, packet.explanation.sourceId = some sourceId →
    hasExplanationRole registries packet.sources sourceId = true ∧ ¬isOwnSource packet sourceId

theorem applyCoverage_reviewed {covered : Packet}
    (h : applyCoverage registries packet policy = .ok covered)
    (hreviewed : sourceId ∈ covered.search.reviewedSourceIds) :
    ∃ entry texts, coverageEntry registries packet = some entry ∧
      entry.reviewedSourceIds = some texts ∧ some sourceId ∈ texts := by
  unfold applyCoverage at h
  cases hentry : coverageEntry registries packet with
  | none =>
    simp only [hentry] at h
    replace h := rest_ok h
    cases pure_ok h
    exact absurd hreviewed List.not_mem_nil
  | some entry =>
    simp only [hentry] at h
    replace h := rest_ok h
    replace h := rest_ok h
    obtain ⟨state, -, h⟩ := bind_ok h
    obtain ⟨required, -, h⟩ := bind_ok h
    obtain ⟨reviewed, htexts, h⟩ := bind_ok h
    obtain ⟨failed, -, h⟩ := bind_ok h
    replace h := rest_ok h
    replace h := rest_ok h
    cases pure_ok h
    exact ⟨entry, reviewed.map some, rfl, requireTexts_ok htexts,
      List.mem_map_of_mem hreviewed⟩

theorem validateSemantics_references (h : validateSemantics rules packet = .ok ()) :
    referenced packet ⊆ packet.sourceIds := by
  replace h := rest_ok h
  obtain ⟨⟨⟩, hreferences, -⟩ := bind_ok h
  exact not_not.mp (refuse_ok_iff.mp hreferences)

theorem checkSubmission_references {checked : Packet × Policy}
    (h : checkSubmission rules registries packet policy = .ok checked) :
    referenced packet ⊆ packet.sourceIds := by
  replace h := rest_ok h
  replace h := rest_ok h
  replace h := rest_ok h
  obtain ⟨trusted, -, h⟩ := bind_ok h
  replace h := rest_ok h
  obtain ⟨⟨⟩, hsemantics, -⟩ := bind_ok h
  exact validateSemantics_references hsemantics

theorem isOwnSource_known (h : referenced packet ⊆ packet.sourceIds)
    (hown : isOwnSource packet sourceId) : sourceId ∈ packet.sourceIds := by
  apply h
  unfold referenced
  rcases hown with rfl | hfact | hfact
  · simp
  · simp [hfact]
  · simp [hfact]

theorem sourceNamed_selected {source : Source} (h : source.sourceId ∉ packet.sourceIds) :
    sourceNamed (packet.sources ++ [source]) source.sourceId = some source := by
  unfold sourceNamed
  rw [List.find?_append, List.find?_eq_none.mpr]
  · simp
  · intro known hknown hsame
    apply h
    rw [← of_decide_eq_true hsame]
    exact List.mem_map_of_mem hknown

inductive Route (registries : Registries) (packet explained : Packet) : Prop where
  | submitted (sourceId : String) (hown : packet.explanation.sourceId = some sourceId)
      (hgiven : explained.explanation.sourceId = some sourceId)
      (hsources : explained.sources = packet.sources)
  | searched (source : Source) (hown : packet.explanation.sourceId = none)
      (hgiven : explained.explanation.sourceId = some source.sourceId)
      (hsources : explained.sources = packet.sources ++ [source])
      (hfresh : source.sourceId ∉ packet.sourceIds)
      (hrole : hasSourceRole registries source "explanation" = true)
  | silent (hown : packet.explanation.sourceId = none)
      (hgiven : explained.explanation.sourceId = none)

theorem explain_route {explained : Packet} (h : explain rules registries packet = .ok explained) :
    Route registries packet explained ∧ ∀ sourceId,
      explained.explanation.sourceId = some sourceId →
        sourceId ∈ packet.search.reviewedSourceIds := by
  unfold explain at h
  cases hown : packet.explanation.sourceId with
  | some own =>
    simp only [hown] at h
    obtain ⟨⟨⟩, hreviewed, h⟩ := bind_ok h
    cases pure_ok h
    rw [blockIf_ok_iff, not_not] at hreviewed
    refine ⟨.submitted own hown hown rfl, fun sourceId hsource => ?_⟩
    rw [hown, Option.some.injEq] at hsource
    exact hsource ▸ hreviewed
  | none =>
    simp only [hown] at h
    obtain ⟨candidates, -, h⟩ := bind_ok h
    obtain ⟨verified, hverified, h⟩ := bind_ok h
    cases pure_ok h
    cases hleast : leastSource verified with
    | none =>
      refine ⟨.silent hown hown, fun sourceId hsource => ?_⟩
      have hnone : packet.explanation.sourceId = some sourceId := hsource
      rw [hown] at hnone
      cases hnone
    | some selected =>
      obtain ⟨candidate, -, hok⟩ := (mem_of_mapM_ok hverified).mp (leastSource_mem hleast)
      have hcandidate := checkCandidate_ok hok
      refine ⟨.searched selected hown rfl rfl hcandidate.fresh hcandidate.role,
        fun sourceId hsource => ?_⟩
      cases hsource
      exact hcandidate.reviewed

theorem trust_route {given : Packet × Policy}
    (h : trust rules registries packet policy = .ok given) :
    Route registries packet given.1 ∧ referenced packet ⊆ packet.sourceIds ∧
      ∀ sourceId, given.1.explanation.sourceId = some sourceId →
        ∃ entry texts, coverageEntry registries packet = some entry ∧
          entry.reviewedSourceIds = some texts ∧ some sourceId ∈ texts := by
  obtain ⟨⟨bound, trusted⟩, hchecked, h⟩ := bind_ok h
  obtain ⟨covered, hcovered, h⟩ := bind_ok h
  obtain ⟨explained, hexplained, h⟩ := bind_ok h
  replace h := rest_ok h
  cases pure_ok h
  have hreferences := checkSubmission_references hchecked
  obtain ⟨rfl, -⟩ := checkSubmission_ok hchecked
  obtain ⟨search, rfl, -⟩ := applyCoverage_ok hcovered
  obtain ⟨hroute, hreviewed⟩ := explain_route hexplained
  refine ⟨?_, hreferences, fun sourceId hsource => ?_⟩
  · cases hroute with
    | submitted sourceId hown hgiven hsources => exact .submitted sourceId hown hgiven hsources
    | searched source hown hgiven hsources hfresh hrole =>
      exact .searched source hown hgiven hsources hfresh hrole
    | silent hown hgiven => exact .silent hown hgiven
  · exact applyCoverage_reviewed hcovered (hreviewed sourceId hsource)

/-- **An accepted explanation is registered exactly when the packet's own one is.**  Whatever
the engine accepts as the explanation of a difference has the role of an explanation, is
reviewed in the applied coverage and is none of the compared sources, if and only if the
packet names no explanation itself or one of which the registry says the same: the candidates
of the search are always checked, the packet's own source is not. -/
theorem explanation_registered_iff {output : Output} {sourceId : String}
    (h : reconcile rules registries packet policy = .ok (.evaluated output))
    (hexplained : output.explanationSourceId = some sourceId) :
    ExplanationRegistered rules registries packet policy sourceId ↔
      OwnExplanationRegistered registries packet := by
  obtain ⟨given, result, htrust, hresult, rfl⟩ := reconcile_evaluated h
  obtain ⟨hroute, hreferences, hreviewed⟩ := trust_route htrust
  have hnamed : given.1.explanation.sourceId = some sourceId :=
    evaluate_accepts hresult hexplained
  constructor
  · rintro ⟨⟨other, hother, hrole⟩, -, hapart⟩ own hown
    cases htrust.symm.trans hother
    cases hroute with
    | submitted submitted hsubmitted hgiven hsources =>
      cases hown.symm.trans hsubmitted
      cases hnamed.symm.trans hgiven
      exact ⟨hsources ▸ hrole, hapart⟩
    | searched source hnone | silent hnone =>
      rw [hnone] at hown
      cases hown
  · intro hregistered
    cases hroute with
    | submitted own hown hgiven hsources =>
      cases hnamed.symm.trans hgiven
      obtain ⟨hrole, hapart⟩ := hregistered sourceId hown
      exact ⟨⟨given, htrust, hsources ▸ hrole⟩, hreviewed sourceId hnamed, hapart⟩
    | searched source hown hgiven hsources hfresh hrole =>
      cases hnamed.symm.trans hgiven
      refine ⟨⟨given, htrust, ?_⟩, hreviewed _ hnamed, fun hsame => ?_⟩
      · unfold hasExplanationRole
        rw [hsources, sourceNamed_selected hfresh]
        exact hrole
      · exact hfresh (isOwnSource_known hreferences hsame)
    | silent hown hgiven =>
      rw [hgiven] at hnamed
      cases hnamed

end Routes

namespace Registered

def selfExplained : Packet :=
  { packet with explanation := ⟨some "s1", true⟩ }

def searchRules : ServiceRules :=
  { rules with explanationSearch := fun _ => some [some (source "s3" "filing")] }

def explainedRegistries : Registries :=
  { registries with
    coverage := some fun _ => .entry
      { tenantId := some "tenant", companyId := some "company", packageId := some "package"
        coveragePolicyId := some "coverage", state := some .complete
        requiredDocumentIds := some [some "report", some "filing"]
        reviewedSourceIds := some [some "s1", some "s2", some "s3"], failedDocumentIds := some [] }
    documents := some fun documentId =>
      if documentId = "filing" then
        .entry { document .financial "filing" "s2" ["financial_fact"] packet.financial with
          sourceBindings := fun name =>
            if name = "s2" then some ⟨some "chars:0:4", some "2024", ["financial_fact"]⟩
            else if name = "s3" then some ⟨some "chars:0:4", some "2024", ["explanation"]⟩
            else none }
      else documentSlot registries documentId }

end Registered

theorem explanation_registered_third_source : ∃ output : Output,
    output.explanationSourceId = some "s3" ∧
      (ExplanationRegistered Registered.searchRules Registered.explainedRegistries
          Registered.packet plainPolicy "s3" ↔
        OwnExplanationRegistered Registered.explainedRegistries Registered.packet) := by
  have hrun : Returns (reconcile Registered.searchRules Registered.explainedRegistries
      Registered.packet plainPolicy) fun reply =>
        (reply.output.bind Output.explanationSourceId) = some "s3" := by
    decide +kernel
  obtain ⟨reply, h, hexplained⟩ := hrun
  cases reply with
  | blocked record => cases hexplained
  | evaluated output => exact ⟨output, hexplained, explanation_registered_iff h hexplained⟩

theorem claim_source_explains_itself : ∃ output,
    reconcile Registered.rules Registered.registries Registered.selfExplained plainPolicy =
        .ok (.evaluated output) ∧
      output.status = some .matched ∧
      output.explanationSourceId = some Registered.selfExplained.claim.sourceId ∧
      hasExplanationRole Registered.registries Registered.selfExplained.sources
        Registered.selfExplained.claim.sourceId = false ∧
      ¬ExplanationRegistered Registered.rules Registered.registries Registered.selfExplained
        plainPolicy Registered.selfExplained.claim.sourceId := by
  have hrun : Returns (reconcile Registered.rules Registered.registries Registered.selfExplained
      plainPolicy) fun reply =>
        reply.output.map (fun output => (output.status, output.explanationSourceId)) =
          some (some .matched, some "s1") := by
    decide +kernel
  obtain ⟨reply, h, hreply⟩ := hrun
  cases reply with
  | blocked record => cases hreply
  | evaluated output =>
    simp only [Reply.output, Option.map_some, Option.some.injEq, Prod.mk.injEq] at hreply
    exact ⟨output, h, hreply.1, hreply.2, by decide,
      fun hregistered => hregistered.apart (.inl rfl)⟩

end ProofOps.Application.Reconciliation
