import Mathlib.Data.List.ReduceOption
import ProofOps.Application.Reconciliation.Service
import ProofOps.Domain.Reconciliation.SearchFlip

/-!
# What a completed reconciliation rests on

Each step of the service is read backwards once, as a record of what its success says; the
gate theorem puts the records together.  What a packet or a policy asserts about itself does
not reach the engine: two submissions that differ there alone are trusted alike.
-/

namespace ProofOps.Application.Reconciliation

open Foundation Foundation.Checked Domain.Reconciliation

variable {sources : List Source} {covered other : Packet} {checked given : Packet × Policy}
variable {otherPolicy : Policy}

section Soundness

variable {rules : ServiceRules} {registries : Registries} {packet : Packet} {policy : Policy}

theorem require_ok_iff {α : Type} {value : Option α} {exit : Exit} {result : α} :
    require value exit = .ok result ↔ value = some result := by
  unfold require
  cases value <;> simp

theorem blockIf_ok_iff {p : Prop} [Decidable p] {reason : String} {result : Unit} :
    blockIf p reason = .ok result ↔ ¬p :=
  refuse_ok_iff

structure PolicyApproved (rules : ServiceRules) (registries : Registries) (policy trusted : Policy)
    (entry : PolicyEntry) : Prop where
  registered : ∃ lookup, registries.policies = some lookup ∧
    lookup (rules.engine.policySha256 policy) = .entry entry
  approved : entry.approved = true
  version : entry.version = some policy.version
  source : entry.sourcePolicySha256 = some policy.sourcePolicySha256
  scope : entry.syntheticOnly = some policy.syntheticOnly
  trusted : trusted =
    { policy with
      approved := true
      approvedBy := entry.approvedBy
      approvedOn := entry.approvedOn
      syntheticOnly := entry.syntheticOnly = some true }

theorem slot_value_eq_some {α : Type} {slot : Slot α} {value : α} (h : slot.value = some value) :
    slot = .entry value := by
  cases slot <;> simp_all [Slot.value]

theorem trustedPolicy_ok {trusted : Policy}
    (h : trustedPolicy rules registries policy = .ok trusted) :
    ∃ entry, PolicyApproved rules registries policy trusted entry := by
  obtain ⟨entry, hentry, h⟩ := bind_ok h
  obtain ⟨⟨⟩, happroved, h⟩ := bind_ok h
  obtain ⟨⟨⟩, hversion, h⟩ := bind_ok h
  obtain ⟨⟨⟩, hsource, h⟩ := bind_ok h
  obtain ⟨⟨⟩, hscope, h⟩ := bind_ok h
  replace h := rest_ok h
  obtain ⟨day, -, h⟩ := bind_ok h
  cases pure_ok h
  rw [blockIf_ok_iff] at happroved hversion hsource hscope
  rw [require_ok_iff] at hentry
  obtain ⟨slot, hslot, hvalue⟩ := Option.bind_eq_some_iff.mp hentry
  obtain ⟨lookup, hlookup, rfl⟩ := Option.map_eq_some_iff.mp hslot
  exact ⟨entry,
    { registered := ⟨lookup, hlookup, slot_value_eq_some hvalue⟩
      approved := by simpa using happroved
      version := not_not.mp hversion
      source := not_not.mp hsource
      scope := not_not.mp hscope
      trusted := rfl }⟩

structure DocumentBound (packet : Packet) (source : Source) (entry : DocumentEntry) : Prop where
  tenant : entry.tenantId = some packet.identity.tenantId
  company : entry.companyId = some packet.identity.companyId
  package : entry.packageId = some packet.identity.packageId
  corporation : entry.corpCode = some packet.identity.dartCorpCode
  year : entry.fiscalYear = some packet.identity.financialFiscalYear
  consolidation : entry.consolidation = some packet.identity.consolidation
  version : ∃ role, entry.documentRole = some role ∧
    entry.documentVersionId = some (roleVersion packet.identity role)
  artifact : entry.artifactSha256 = some source.artifactSha256
  item : packet.item ∈ entry.relevantItems
  decision : entry.decisionBinding = some (expectedDecision packet)
  located : ∃ binding, entry.sourceBindings source.sourceId = some binding ∧
    binding.locator = some source.locator ∧ binding.quote = some source.quote

structure SourceVerified (rules : ServiceRules) (registries : Registries) (packet : Packet)
    (source : Source) : Prop where
  read : ∃ payload, rules.sourceReader source = some payload ∧
    rules.sha256 payload = source.artifactSha256 ∧ rules.validate source payload = true
  bound : ∃ entry, documentSlot registries source.documentId = .entry entry ∧
    DocumentBound packet source entry

/-- A checked document is bound. -/
theorem checkDocument_ok {source : Source}
    (h : checkDocument rules registries packet source = .ok ()) :
    ∃ entry, documentSlot registries source.documentId = .entry entry ∧
      DocumentBound packet source entry := by
  obtain ⟨entry, hentry, h⟩ := bind_ok h
  replace h := rest_ok h
  obtain ⟨⟨⟩, hidentity, h⟩ := bind_ok h
  obtain ⟨⟨⟩, hyear, h⟩ := bind_ok h
  obtain ⟨⟨⟩, hconsolidation, h⟩ := bind_ok h
  obtain ⟨role, hrole, h⟩ := bind_ok h
  obtain ⟨⟨⟩, hversion, h⟩ := bind_ok h
  replace h := rest_ok h
  replace h := rest_ok h
  replace h := rest_ok h
  replace h := rest_ok h
  replace h := rest_ok h
  obtain ⟨⟨⟩, hartifact, h⟩ := bind_ok h
  obtain ⟨⟨⟩, hitem, h⟩ := bind_ok h
  replace h := rest_ok h
  obtain ⟨decision, hdecision, h⟩ := bind_ok h
  obtain ⟨⟨⟩, hexpected, h⟩ := bind_ok h
  obtain ⟨binding, hbinding, hlocated⟩ := bind_ok h
  rw [blockIf_ok_iff, not_not, Prod.mk.injEq, Prod.mk.injEq] at hidentity
  rw [blockIf_ok_iff, not_or, not_not, not_not] at hyear hlocated
  rw [blockIf_ok_iff, not_not] at hconsolidation hversion hartifact hitem hexpected
  rw [require_ok_iff] at hentry hrole hdecision hbinding
  exact ⟨entry, slot_value_eq_some hentry,
    { tenant := hidentity.1
      company := hidentity.2.1
      package := hidentity.2.2
      corporation := hyear.1
      year := hyear.2
      consolidation := hconsolidation
      version := ⟨role, hrole, hversion⟩
      artifact := hartifact
      item := hitem
      decision := hexpected ▸ hdecision
      located := ⟨binding, hbinding, hlocated⟩ }⟩

theorem verifySource_ok {source : Source}
    (h : verifySource rules registries packet source = .ok ()) :
    SourceVerified rules registries packet source := by
  obtain ⟨⟨⟩, hdocument, h⟩ := bind_ok h
  obtain ⟨payload, hpayload, h⟩ := bind_ok h
  obtain ⟨⟨⟩, hhash, hvalid⟩ := bind_ok h
  rw [blockIf_ok_iff] at hhash hvalid
  rw [require_ok_iff] at hpayload
  exact ⟨⟨payload, hpayload, not_not.mp hhash, by simpa using hvalid⟩, checkDocument_ok hdocument⟩

structure FactBound (registries : Registries) (packet : Packet) (role : DocumentRole)
    (fact : Fact) : Prop where
  bound : ∃ source ∈ packet.sources, fact.sourceId = some source.sourceId ∧
    ∃ entry binding, documentSlot registries source.documentId = .entry entry ∧
      entry.documentRole = some role ∧ entry.factBindings source.sourceId = some binding ∧
      binding.raw = fact.raw ∧ binding.normalized = fact.normalized ∧
      binding.kind = some fact.kind ∧ binding.unit = fact.unit

theorem sourceNamed_some {sourceId : String} {source : Source}
    (h : sourceNamed sources sourceId = some source) :
    source ∈ sources ∧ source.sourceId = sourceId :=
  ⟨List.mem_of_find?_eq_some h, by simpa using List.find?_some h⟩

/-- A bound fact is the packet's fact. -/
theorem bindFact_ok {role : DocumentRole} {fact bound : Fact}
    (h : bindFact registries packet role fact = .ok bound) :
    bound = fact ∧ FactBound registries packet role fact := by
  obtain ⟨source, hsource, h⟩ := bind_ok h
  replace h := rest_ok h
  obtain ⟨entry, hentry, h⟩ := bind_ok h
  obtain ⟨⟨⟩, hrole, h⟩ := bind_ok h
  obtain ⟨binding, hbinding, h⟩ := bind_ok h
  obtain ⟨⟨⟩, hequal, h⟩ := bind_ok h
  cases pure_ok h
  rw [require_ok_iff] at hsource hentry hbinding
  rw [blockIf_ok_iff, not_not] at hrole hequal
  simp only [Prod.mk.injEq] at hequal
  obtain ⟨hraw, hnormalized, hkind, hunit⟩ := hequal
  obtain ⟨sourceId, hid, hnamed⟩ := Option.bind_eq_some_iff.mp hsource
  obtain ⟨hmem, hsame⟩ := sourceNamed_some hnamed
  refine ⟨?_, ⟨source, hmem, by rw [hid, hsame], entry, binding, slot_value_eq_some hentry, hrole,
    hbinding, hraw.symm, hnormalized.symm, hkind.symm, hunit.symm⟩⟩
  rw [← hraw, ← hnormalized, ← hunit]

theorem bindFacts_ok {bound : Packet} (h : bindFacts registries packet = .ok bound) :
    bound = packet ∧ FactBound registries packet .sustainability packet.sustainability ∧
      FactBound registries packet .financial packet.financial := by
  obtain ⟨sustainability, hsustainability, h⟩ := bind_ok h
  obtain ⟨financial, hfinancial, h⟩ := bind_ok h
  cases pure_ok h
  obtain ⟨rfl, hfirst⟩ := bindFact_ok hsustainability
  obtain ⟨rfl, hsecond⟩ := bindFact_ok hfinancial
  exact ⟨rfl, hfirst, hsecond⟩

structure CoverageComplete (registries : Registries) (packet : Packet) (policy : Policy)
    (search : Search) (entry : CoverageEntry) : Prop where
  registered : coverageEntry registries packet = some entry
  tenant : entry.tenantId = some packet.identity.tenantId
  company : entry.companyId = some packet.identity.companyId
  package : entry.packageId = some packet.identity.packageId
  policy : entry.coveragePolicyId = some policy.coveragePolicyId
  complete : entry.state = some .complete
  required : entry.requiredDocumentIds = some (search.requiredDocumentIds.map some)
  reviewed : entry.reviewedSourceIds = some (search.reviewedSourceIds.map some)
  nothing_failed : entry.failedDocumentIds = some []
  documents : packet.identity.sustainabilityDocumentVersion ∈ search.requiredDocumentIds ∧
    packet.identity.financialDocumentVersion ∈ search.requiredDocumentIds

theorem map_some_reduceOption {values : List (Option String)} (h : none ∉ values) :
    values.reduceOption.map some = values := by
  induction values with
  | nil => rfl
  | cons head tail ih =>
    rw [List.mem_cons, not_or] at h
    cases head with
    | none => exact absurd rfl h.1
    | some text => rw [List.reduceOption_cons_of_some, List.map_cons, ih h.2]

theorem requireTexts_ok {values : Option (List (Option String))} {texts : List String}
    (h : requireTexts values = .ok texts) : values = some (texts.map some) := by
  obtain ⟨found, hfound, h⟩ := bind_ok h
  obtain ⟨⟨⟩, htexts, h⟩ := bind_ok h
  cases pure_ok h
  rw [require_ok_iff] at hfound
  rw [blockIf_ok_iff, not_or] at htexts
  rw [hfound, map_some_reduceOption (mt List.contains_iff_mem.mpr htexts.1)]

theorem applyCoverage_ok (h : applyCoverage registries packet policy = .ok covered) :
    ∃ search, covered = withCoverage packet search ∧ (search.state = .complete →
      ∃ entry, CoverageComplete registries packet policy search entry) := by
  unfold applyCoverage at h
  cases hentry : coverageEntry registries packet with
  | none =>
    simp only [hentry] at h
    replace h := rest_ok h
    cases pure_ok h
    exact ⟨searchNotRun, rfl, nofun⟩
  | some entry =>
    simp only [hentry] at h
    obtain ⟨⟨⟩, hidentity, h⟩ := bind_ok h
    obtain ⟨⟨⟩, hpolicy, h⟩ := bind_ok h
    obtain ⟨state, hstate, h⟩ := bind_ok h
    obtain ⟨required, hrequired, h⟩ := bind_ok h
    obtain ⟨reviewed, hreviewed, h⟩ := bind_ok h
    obtain ⟨failed, hfailed, h⟩ := bind_ok h
    replace h := rest_ok h
    obtain ⟨⟨⟩, hcomplete, h⟩ := bind_ok h
    cases pure_ok h
    rw [blockIf_ok_iff, not_not, Prod.mk.injEq, Prod.mk.injEq] at hidentity
    rw [blockIf_ok_iff, not_not] at hpolicy
    rw [require_ok_iff] at hstate
    rw [blockIf_ok_iff, not_and, Bool.not_eq_true] at hcomplete
    refine ⟨_, rfl, fun hsearch => ⟨entry, ?_⟩⟩
    have hwhole := hcomplete hsearch
    unfold incompleteCoverage at hwhole
    simp only [Bool.or_eq_false_iff, Bool.not_eq_false', List.contains_iff_mem,
      List.isEmpty_iff] at hwhole
    obtain ⟨⟨⟨-, hnofail⟩, hfirst⟩, hsecond⟩ := hwhole
    exact
      { registered := hentry
        tenant := hidentity.1
        company := hidentity.2.1
        package := hidentity.2.2
        policy := hpolicy
        complete := hsearch ▸ hstate
        required := requireTexts_ok hrequired
        reviewed := requireTexts_ok hreviewed
        nothing_failed := by rw [requireTexts_ok hfailed, hnofail]; rfl
        documents := ⟨hfirst, hsecond⟩ }

/-- A candidate that went through all checks. -/
structure CandidateVerified (rules : ServiceRules) (registries : Registries) (packet : Packet)
    (source : Source) : Prop where
  verified : SourceVerified rules registries packet source
  fresh : source.sourceId ∉ packet.sourceIds
  reviewed : source.sourceId ∈ packet.search.reviewedSourceIds
  role : hasSourceRole registries source "explanation" = true

/-- Every checked candidate did. -/
theorem checkCandidate_ok {candidate : Option Source} {source : Source}
    (h : checkCandidate rules registries packet candidate = .ok source) :
    CandidateVerified rules registries packet source := by
  obtain ⟨found, -, h⟩ := bind_ok h
  obtain ⟨⟨⟩, hfresh, h⟩ := bind_ok h
  obtain ⟨⟨⟩, hreviewed, h⟩ := bind_ok h
  cases hverify : verifySource rules registries packet found with
  | error exit => cases exit <;> simp [hverify] at h
  | ok verified =>
    simp only [hverify] at h
    obtain ⟨⟨⟩, hrole, h⟩ := bind_ok h
    cases pure_ok h
    rw [blockIf_ok_iff] at hfresh hreviewed hrole
    exact ⟨verifySource_ok hverify, hfresh, not_not.mp hreviewed, by simpa using hrole⟩

theorem leastSource_mem {source : Source}
    (h : leastSource sources = some source) : source ∈ sources := by
  cases sources with
  | nil => cases h
  | cons head rest =>
    have hfold : ∀ (rest : List Source) (best : Source),
        rest.foldl (fun best next => if next.sourceId < best.sourceId then next else best) best ∈
          best :: rest := by
      intro rest
      induction rest with
      | nil => simp
      | cons next rest ih =>
        intro best
        rw [List.foldl_cons]
        rcases List.mem_cons.mp (ih (if next.sourceId < best.sourceId then next else best))
          with hsame | hlater
        · rw [hsame]
          split_ifs <;> simp
        · exact List.mem_cons_of_mem _ (List.mem_cons_of_mem _ hlater)
    rw [leastSource, Option.some.injEq] at h
    exact h ▸ hfold rest head

theorem explain_ok {explained : Packet} (h : explain rules registries packet = .ok explained) :
    ∃ selected, explained = withSelected packet selected ∧
      ∀ source, selected = some source → CandidateVerified rules registries packet source := by
  unfold explain at h
  cases hown : packet.explanation.sourceId with
  | some sourceId =>
    simp only [hown] at h
    replace h := rest_ok h
    cases pure_ok h
    exact ⟨none, rfl, nofun⟩
  | none =>
    simp only [hown] at h
    obtain ⟨candidates, -, h⟩ := bind_ok h
    obtain ⟨verified, hverified, h⟩ := bind_ok h
    cases pure_ok h
    refine ⟨leastSource verified, rfl, fun source hsource => ?_⟩
    obtain ⟨candidate, -, hok⟩ := (mem_of_mapM_ok hverified).mp (leastSource_mem hsource)
    exact checkCandidate_ok hok

/-! ### The gate -/

structure Trusted (rules : ServiceRules) (registries : Registries) (packet : Packet)
    (policy trusted : Policy) (search : Search) (selected : Option Source) : Prop where
  policy_approved : ∃ entry, PolicyApproved rules registries policy trusted entry
  sources_verified : ∀ source ∈ packet.sources, SourceVerified rules registries packet source
  facts_bound : FactBound registries packet .sustainability packet.sustainability ∧
    FactBound registries packet .financial packet.financial
  search_registered : search.state = .complete →
    ∃ entry, CoverageComplete registries packet policy search entry
  selected_verified : ∀ source, selected = some source →
    SourceVerified rules registries packet source ∧ source.sourceId ∈ search.reviewedSourceIds
  all_reviewed : search.state = .complete → search.reviewedSourceIds ⊆
    (packet.sources ++ selected.toList).map Source.sourceId

def engineInput (packet : Packet) (search : Search) (selected : Option Source) : Packet :=
  withSelected (withCoverage packet search) selected

theorem engineInput_search (packet : Packet) (search : Search) (selected : Option Source) :
    (engineInput packet search selected).search = search := by
  cases selected <;> rfl

theorem engineInput_sources (packet : Packet) (search : Search) (selected : Option Source) :
    (engineInput packet search selected).sources = packet.sources ++ selected.toList := by
  cases selected with
  | none => exact (List.append_nil _).symm
  | some source => rfl

theorem SourceVerified.of_withCoverage {search : Search} {source : Source}
    (h : SourceVerified rules registries (withCoverage packet search) source) :
    SourceVerified rules registries packet source := by
  obtain ⟨entry, hslot, hbound⟩ := h.bound
  exact ⟨h.read, entry, hslot,
    { tenant := hbound.tenant
      company := hbound.company
      package := hbound.package
      corporation := hbound.corporation
      year := hbound.year
      consolidation := hbound.consolidation
      version := hbound.version
      artifact := hbound.artifact
      item := hbound.item
      decision := hbound.decision
      located := hbound.located }⟩

theorem checkSubmission_ok (h : checkSubmission rules registries packet policy = .ok checked) :
    checked.1 = packet ∧ (∃ entry, PolicyApproved rules registries policy checked.2 entry) ∧
      (∀ source ∈ packet.sources, SourceVerified rules registries packet source) ∧
      FactBound registries packet .sustainability packet.sustainability ∧
      FactBound registries packet .financial packet.financial := by
  replace h := rest_ok h
  replace h := rest_ok h
  replace h := rest_ok h
  obtain ⟨trusted, htrusted, h⟩ := bind_ok h
  replace h := rest_ok h
  replace h := rest_ok h
  obtain ⟨⟨⟩, hsources, h⟩ := bind_ok h
  replace h := rest_ok h
  replace h := rest_ok h
  obtain ⟨bound, hbound, h⟩ := bind_ok h
  cases pure_ok h
  obtain ⟨hsame, hfacts⟩ := bindFacts_ok hbound
  exact ⟨hsame, trustedPolicy_ok htrusted,
    fun source hsource => verifySource_ok (forM_ok_iff.mp hsources source hsource), hfacts⟩

theorem trust_ok (h : trust rules registries packet policy = .ok given) :
    ∃ search selected, given.1 = engineInput packet search selected ∧
      Trusted rules registries packet policy given.2 search selected := by
  obtain ⟨⟨bound, trusted⟩, hchecked, h⟩ := bind_ok h
  obtain ⟨covered, hcovered, h⟩ := bind_ok h
  obtain ⟨explained, hexplained, h⟩ := bind_ok h
  obtain ⟨⟨⟩, hreviewed, h⟩ := bind_ok h
  cases pure_ok h
  obtain ⟨rfl, ⟨entry, happroved⟩, hsources, hfacts⟩ := checkSubmission_ok hchecked
  obtain ⟨search, rfl, hsearch⟩ := applyCoverage_ok hcovered
  obtain ⟨selected, rfl, hselected⟩ := explain_ok hexplained
  have hpolicyId : trusted.coveragePolicyId = policy.coveragePolicyId := by
    have hfield := congrArg Policy.coveragePolicyId happroved.trusted
    exact hfield
  rw [blockIf_ok_iff, not_and, not_not] at hreviewed
  refine ⟨search, selected, rfl,
    { policy_approved := ⟨entry, happroved⟩
      sources_verified := hsources
      facts_bound := hfacts
      search_registered := fun hstate => ?_
      selected_verified := fun source hsource => ?_
      all_reviewed := fun hstate => ?_ }⟩
  · obtain ⟨coverage, hcomplete⟩ := hsearch hstate
    exact ⟨coverage, { hcomplete with policy := hpolicyId ▸ hcomplete.policy }⟩
  · have hcandidate := hselected source hsource
    exact ⟨hcandidate.verified.of_withCoverage, hcandidate.reviewed⟩
  · have hinput := engineInput_search bound search selected
    have hall := hreviewed (by
      rw [← engineInput, hinput]
      exact hstate)
    rw [← engineInput, hinput, Packet.sourceIds, engineInput_sources] at hall
    exact hall

structure Gated (rules : ServiceRules) (registries : Registries) (packet : Packet) (policy : Policy)
    (output : Output) : Prop where
  evaluated : ∃ trusted search selected result,
    Trusted rules registries packet policy trusted search selected ∧
      evaluate rules.engine (engineInput packet search selected) trusted = .ok result ∧
      output = stamp rules packet policy result ∧
      (output.status = some .needsExplanation → search.state = .complete)

theorem reconcile_evaluated {output : Output}
    (h : reconcile rules registries packet policy = .ok (.evaluated output)) :
    ∃ given result, trust rules registries packet policy = .ok given ∧
      evaluate rules.engine given.1 given.2 = .ok result ∧
      output = stamp rules packet policy result := by
  unfold reconcile at h
  cases htrust : trust rules registries packet policy with
  | error exit => cases exit <;> simp [htrust] at h
  | ok given =>
    simp only [htrust] at h
    cases hresult : evaluate rules.engine given.1 given.2 with
    | error error => simp [hresult] at h
    | ok result =>
      simp only [hresult, Except.ok.injEq, Reply.evaluated.injEq] at h
      exact ⟨given, result, rfl, hresult, h.symm⟩

theorem gated_of_evaluated {output : Output}
    (h : reconcile rules registries packet policy = .ok (.evaluated output)) :
    Gated rules registries packet policy output := by
  obtain ⟨⟨input, trusted⟩, result, htrust, hresult, rfl⟩ := reconcile_evaluated h
  obtain ⟨search, selected, rfl, htrusted⟩ := trust_ok htrust
  refine ⟨trusted, search, selected, result, htrusted, hresult, rfl, fun hstatus => ?_⟩
  obtain ⟨-, -, hpacket, outcome, houtcome, rfl⟩ := evaluate_ok_iff.mp hresult
  have hcomplete := (decideOutcome_sound (validatePacket_ok hpacket) houtcome).2 hstatus
  rwa [engineInput_search] at hcomplete

/-! ### Self-asserted fields -/

def SameButSearch (packet other : Packet) : Prop :=
  ∃ (search : Search) (searchComplete : Bool), other = { packet with
    search := { search with receiptId := packet.search.receiptId }
    explanation := { packet.explanation with searchComplete } }

def SameButApproval (policy other : Policy) : Prop :=
  ∃ approved approvedBy approvedOn, other = { policy with approved, approvedBy, approvedOn }

structure Resubmitted (rules : ServiceRules) (registries : Registries) (packet other : Packet)
    (policy otherPolicy : Policy) : Prop where
  packets : SameButSearch packet other
  policies : SameButApproval policy otherPolicy
  entry : ∀ lookup, registries.policies = some lookup →
    lookup (rules.engine.policySha256 otherPolicy) = lookup (rules.engine.policySha256 policy)
  input : rules.inputSchema other = true
  policy : rules.policySchema otherPolicy = true
  semantics : validateSemantics rules other = .ok ()

theorem trustedPolicy_resubmitted {otherPolicy : Policy} (hsame : SameButApproval policy otherPolicy)
    (hentry : ∀ lookup, registries.policies = some lookup →
      lookup (rules.engine.policySha256 otherPolicy) =
        lookup (rules.engine.policySha256 policy)) :
    trustedPolicy rules registries otherPolicy = trustedPolicy rules registries policy := by
  obtain ⟨approved, approvedBy, approvedOn, rfl⟩ := hsame
  unfold trustedPolicy
  have hlookup : (registries.policies.map fun lookup =>
      lookup (rules.engine.policySha256 { policy with approved, approvedBy, approvedOn })) =
      registries.policies.map fun lookup => lookup (rules.engine.policySha256 policy) := by
    cases hpolicies : registries.policies with
    | none => rfl
    | some lookup => exact congrArg some (hentry lookup hpolicies)
  rw [hlookup]

theorem applyCoverage_resubmitted (hsame : SameButSearch packet other)
    (h : applyCoverage registries packet policy = .ok covered) :
    applyCoverage registries other policy = .ok covered ∨
      applyCoverage registries other policy = .error (.blocked "coverage_unverified") := by
  obtain ⟨search, searchComplete, rfl⟩ := hsame
  have hentry : coverageEntry registries { packet with
      search := { search with receiptId := packet.search.receiptId }
      explanation := { packet.explanation with searchComplete } } =
      coverageEntry registries packet := rfl
  unfold applyCoverage at h ⊢
  rw [hentry]
  cases hcoverage : coverageEntry registries packet with
  | none =>
    simp only [hcoverage] at h ⊢
    replace h := rest_ok h
    cases pure_ok h
    by_cases hstate : search.state = .complete
    · right
      unfold blockIf refuse
      rw [if_pos hstate]
      rfl
    · left
      exact bind_ok_iff.mpr ⟨(), blockIf_ok_iff.mpr hstate, rfl⟩
  | some entry =>
    simp only [hcoverage] at h ⊢
    left
    rw [← h]
    rfl

theorem bindFacts_resubmitted {bound : Packet} (h : bindFacts registries packet = .ok bound)
    {search : Search} {searchComplete : Bool} :
    bindFacts registries { packet with
      search := { search with receiptId := packet.search.receiptId }
      explanation := { packet.explanation with searchComplete } } = .ok { packet with
        search := { search with receiptId := packet.search.receiptId }
        explanation := { packet.explanation with searchComplete } } := by
  obtain ⟨sustainability, hsustainability, h⟩ := bind_ok h
  obtain ⟨financial, hfinancial, -⟩ := bind_ok h
  obtain ⟨rfl, -⟩ := bindFact_ok hsustainability
  obtain ⟨rfl, -⟩ := bindFact_ok hfinancial
  exact bind_ok_iff.mpr ⟨_, hsustainability, bind_ok_iff.mpr ⟨_, hfinancial, rfl⟩⟩

/-- Nor to the submission. -/
theorem checkSubmission_resubmitted
    (hsame : Resubmitted rules registries packet other policy otherPolicy)
    (h : checkSubmission rules registries packet policy = .ok checked) :
    checkSubmission rules registries other otherPolicy = .ok (other, checked.2) := by
  have hpolicy := @trustedPolicy_resubmitted rules _ _ _ hsame.policies hsame.entry
  have hinput : raiseIf (rules.inputSchema other = false) "reconciliation_schema_invalid" =
      .ok () := refuse_ok_iff.mpr (by simp [hsame.input])
  have hform : raiseIf (rules.policySchema otherPolicy = false) "reconciliation_schema_invalid" =
      .ok () := refuse_ok_iff.mpr (by simp [hsame.policy])
  have hsemantics := hsame.semantics
  obtain ⟨search, searchComplete, rfl⟩ := hsame.packets
  obtain ⟨⟨⟩, hitem, h⟩ := bind_ok h
  replace h := rest_ok h
  replace h := rest_ok h
  obtain ⟨trusted, htrusted, h⟩ := bind_ok h
  obtain ⟨⟨⟩, hscope, h⟩ := bind_ok h
  replace h := rest_ok h
  obtain ⟨⟨⟩, hsources, h⟩ := bind_ok h
  obtain ⟨⟨⟩, hclaim, h⟩ := bind_ok h
  obtain ⟨⟨⟩, hcontexts, h⟩ := bind_ok h
  obtain ⟨bound, hbound, h⟩ := bind_ok h
  cases pure_ok h
  refine bind_ok_iff.mpr ⟨(), hitem, bind_ok_iff.mpr ⟨(), hinput, bind_ok_iff.mpr ⟨(), hform, ?_⟩⟩⟩
  refine bind_ok_iff.mpr ⟨trusted, hpolicy.trans htrusted, bind_ok_iff.mpr ⟨(), hscope, ?_⟩⟩
  refine bind_ok_iff.mpr ⟨(), hsemantics, bind_ok_iff.mpr ⟨(), hsources, ?_⟩⟩
  refine bind_ok_iff.mpr ⟨(), hclaim, bind_ok_iff.mpr ⟨(), hcontexts, ?_⟩⟩
  exact bind_ok_iff.mpr ⟨_, bindFacts_resubmitted hbound, rfl⟩

theorem trust_resubmitted (hsame : Resubmitted rules registries packet other policy otherPolicy)
    (h : trust rules registries packet policy = .ok given) :
    trust rules registries other otherPolicy = .ok given ∨
      trust rules registries other otherPolicy = .error (.blocked "coverage_unverified") := by
  unfold trust at h ⊢
  obtain ⟨⟨bound, trusted⟩, hchecked, h⟩ := bind_ok h
  obtain ⟨covered, hcovered, hrest⟩ := bind_ok h
  obtain ⟨hbound, -⟩ := checkSubmission_ok hchecked
  dsimp only at hbound hcovered
  rw [hbound] at hcovered
  rw [checkSubmission_resubmitted hsame hchecked]
  rcases applyCoverage_resubmitted hsame.packets hcovered with hsameCoverage | hblocked
  · left
    exact bind_ok_iff.mpr ⟨_, rfl, bind_ok_iff.mpr ⟨covered, hsameCoverage, hrest⟩⟩
  · right
    simp only [bind, Except.bind, hblocked]

/-- **The reconciliation gate.**  A result of the engine, which every completed one is, rests
on a policy that the registry approves under its own hash, on sources that were read, checked
and bound to the packet, on facts that the registry binds, and on the registry's search alone:
a missing explanation needs a complete coverage whose reviewed sources were all verified.  A
submission that differs in its own search and approval only has the same result, or is blocked
for its coverage. -/
theorem reconcile_gated {output : Output}
    (h : reconcile rules registries packet policy = .ok (.evaluated output)) :
    Gated rules registries packet policy output ∧
      ∀ other otherPolicy, Resubmitted rules registries packet other policy otherPolicy →
        reconcile rules registries other otherPolicy =
            .ok (.evaluated (stamp rules other otherPolicy output)) ∨
          reconcile rules registries other otherPolicy =
            .ok (.blocked (blocked rules other otherPolicy "coverage_unverified")) := by
  refine ⟨gated_of_evaluated h, fun other otherPolicy hsame => ?_⟩
  obtain ⟨given, result, htrust, hresult, rfl⟩ := reconcile_evaluated h
  rcases trust_resubmitted hsame htrust with hother | hother
  · left
    unfold reconcile
    simp only [hother, hresult]
    rfl
  · right
    unfold reconcile
    simp only [hother]

end Soundness

/-! ### Two periods over two registered documents -/

namespace Registered

def digest : String :=
  "0123456789abcdef0123456789abcdef0123456789abcdef0123456789abcdef"

def source (sourceId documentId : String) : Source :=
  ⟨sourceId, documentId, digest, "chars:0:4", "2024"⟩

def packet : Packet :=
  { plainPacket "2024-01-01/2024-12-31" "2023-01-01/2024-12-31" with
    sources := [source "s1" "report", source "s2" "filing"]
    financial := ⟨some "2024", some "2023-01-01/2024-12-31", .period, none, some "s2"⟩ }

def ordinal (text : String) : Option Nat :=
  match text with
  | "2024-01-01" => some 738886
  | "2024-12-31" => some 739251
  | "2025-06-30" => some 739432
  | "2026-01-01" => some 739617
  | _ => none

def rules : ServiceRules where
  engine := plainRules
  fromIsoFormat := ordinal
  inputSchema := fun _ => true
  policySchema := fun _ => true
  sourceReader := fun _ => some (bytesOf "2024 in short")
  sha256 := fun _ => digest
  validator := none
  formats :=
    { htmlEvents := fun _ => none
      xmlElements := fun _ => none
      pdfText := fun _ _ => .error "pdf_invalid" }
  explanationSearch := fun _ => some []

def document (role : DocumentRole) (version sourceId : String) (roles : List String)
    (fact : Fact) : DocumentEntry where
  synthetic := some false
  tenantId := some "tenant"
  companyId := some "company"
  packageId := some "package"
  corpCode := some "00126380"
  fiscalYear := some 2024
  consolidation := some .consolidated
  documentRole := some role
  documentVersionId := some version
  rceptNo := none
  publishedAt := none
  asOfDate := some "2025-06-30"
  periodStart := some "2024-01-01"
  periodEnd := some "2024-12-31"
  artifactSha256 := some digest
  relevantItems := [.c2]
  availableOn := some (some "2025-06-30")
  decisionBinding := some (expectedDecision packet)
  sourceBindings := fun name =>
    if name = sourceId then some ⟨some "chars:0:4", some "2024", roles⟩ else none
  factBindings := fun name =>
    if name = sourceId then some ⟨fact.raw, fact.normalized, some fact.kind, fact.unit⟩ else none

def registries : Registries where
  policies := some fun _ => .entry
    { approved := true, version := some "1", sourcePolicySha256 := some digest
      syntheticOnly := some false, approvedBy := some "owner", approvedOn := some "2026-01-01" }
  coverage := some fun _ => .entry
    { tenantId := some "tenant", companyId := some "company", packageId := some "package"
      coveragePolicyId := some "coverage", state := some .complete
      requiredDocumentIds := some [some "report", some "filing"]
      reviewedSourceIds := some [some "s1", some "s2"], failedDocumentIds := some [] }
  documents := some fun documentId =>
    if documentId = "report" then
      .entry (document .sustainability "report" "s1" ["claim", "sustainability_fact"]
        packet.sustainability)
    else if documentId = "filing" then
      .entry (document .financial "filing" "s2" ["financial_fact"] packet.financial)
    else .missing

end Registered

def Reply.output : Reply → Option Output
  | .blocked _ => none
  | .evaluated output => some output

theorem reconcile_gated_two_periods : ∃ output,
    output.status = some .needsExplanation ∧
      Gated Registered.rules Registered.registries Registered.packet plainPolicy output := by
  have hrun : Returns (reconcile Registered.rules Registered.registries Registered.packet
      plainPolicy) fun reply =>
        (reply.output.bind Output.status) = some .needsExplanation := by
    decide +kernel
  obtain ⟨reply, h, hstatus⟩ := hrun
  cases reply with
  | blocked record => cases hstatus
  | evaluated output => exact ⟨output, hstatus, (reconcile_gated h).1⟩

end ProofOps.Application.Reconciliation
