import ProofOps.Application.Tagging.Cf6Confirmation
import ProofOps.Application.Tagging.Unanimity

/-!
# What settled votes say

A present element has won enough supporting votes of one key; a scoped absence leaves too few
of them.  A supporting vote is one on verified references with an accepted binding.
-/

namespace ProofOps.Application.Tagging.Cf6

open Foundation Foundation.Checked Domain Domain.Rules Evidence

/-! ### Votes -/

variable {vote : ElementVote}

theorem ElementVote.supports_iff :
    vote.supports = true ↔ vote.state = .tagged .present ∧ vote.isVerified = true := by
  unfold ElementVote.supports
  rw [Bool.and_eq_true, beq_iff_eq]

theorem ElementVote.isValid_of_supports (h : vote.supports = true) : vote.isValid = true := by
  obtain ⟨hstate, hverified⟩ := ElementVote.supports_iff.mp h
  simp [ElementVote.isValid, hstate, hverified]

variable {votes : List ElementVote}

theorem key_eq_of_dedup (h : ¬1 < (votes.map ElementVote.key).dedup.length)
    {first second : ElementVote} (hfirst : first ∈ votes) (hsecond : second ∈ votes) :
    first.key = second.key := by
  have hmem : ∀ vote ∈ votes, vote.key ∈ (votes.map ElementVote.key).dedup :=
    fun vote hvote => List.mem_dedup.mpr (List.mem_map_of_mem hvote)
  generalize (votes.map ElementVote.key).dedup = keys at h hmem
  match keys, h, hmem first hfirst, hmem second hsecond with
  | [key], _, hone, htwo =>
    rw [List.mem_singleton.mp hone, List.mem_singleton.mp htwo]
  | _ :: _ :: _, h, _, _ => simp at h

theorem resolveVotes_cases (votes : List ElementVote) (required : Nat) :
    resolveVotes votes required = (.conflict, []) ∨
      resolveVotes votes required = (.unknown, []) ∨
      ∃ first rest, votes.filter ElementVote.isValid = first :: rest ∧
        ¬1 < ((first :: rest).map ElementVote.key).dedup.length ∧
        required ≤ (first :: rest).length ∧
        resolveVotes votes required = (wonState first, first :: rest) := by
  unfold resolveVotes
  by_cases hconflict : (votes.any fun vote => vote.state == .tagged .conflict) = true
  · exact Or.inl (if_pos hconflict)
  rw [if_neg hconflict]
  by_cases hlost : votes.length ≠ 3 ∨ votes.any ElementVote.isLost = true
  · exact Or.inr (Or.inl (if_pos hlost))
  rw [if_neg hlost]
  by_cases hkeys : 1 < ((votes.filter ElementVote.isValid).map ElementVote.key).dedup.length
  · exact Or.inl (if_pos hkeys)
  rw [if_neg hkeys]
  cases hvalid : votes.filter ElementVote.isValid with
  | nil => exact Or.inr (Or.inl rfl)
  | cons first rest =>
    rw [hvalid] at hkeys
    by_cases hrequired : required ≤ (first :: rest).length
    · exact Or.inr (Or.inr ⟨first, rest, rfl, hkeys, hrequired, if_pos hrequired⟩)
    · exact Or.inr (Or.inl (if_neg hrequired))

def Agreed (votes : List ElementVote) (required : Nat) (key : BallotKey) : Prop :=
  key.state = .tagged .present ∧
    required ≤ (votes.filter fun vote => vote.supports && vote.key == key).length

variable {winners : List ElementVote} {required : Nat}

theorem resolveVotes_present (h : resolveVotes votes required = (.present, winners)) :
    ∃ first rest, winners = first :: rest ∧ first.supports = true ∧
      Agreed votes required first.key ∧ ∀ vote ∈ winners, vote ∈ votes ∧ vote.supports = true := by
  rcases resolveVotes_cases votes required with hcase | hcase | ⟨first, rest, hvalid, hkeys, hlen, hcase⟩
  · rw [hcase] at h
    cases h
  · rw [hcase] at h
    cases h
  · rw [hcase, Prod.mk.injEq] at h
    obtain ⟨hstate, rfl⟩ := h
    have hpresent : first.state = .tagged .present := by
      unfold wonState at hstate
      by_contra hne
      rw [if_neg hne] at hstate
      cases hstate
    have hwon : ∀ vote ∈ first :: rest, vote ∈ votes ∧ vote.supports = true ∧ vote.key = first.key := by
      intro vote hvote
      have hkey := key_eq_of_dedup hkeys hvote List.mem_cons_self
      have hmem := hvote
      rw [← hvalid, List.mem_filter] at hmem
      have hvoteState : vote.state = .tagged .present :=
        (congrArg BallotKey.state hkey).trans hpresent
      have hverified : vote.isVerified = true := (Bool.and_eq_true _ _ ▸ hmem.2).2
      exact ⟨hmem.1, ElementVote.supports_iff.mpr ⟨hvoteState, hverified⟩, hkey⟩
    have hsublist : (first :: rest).Sublist
        (votes.filter fun vote => vote.supports && vote.key == first.key) := by
      have hfiltered : (first :: rest).filter
          (fun vote => vote.supports && vote.key == first.key) = first :: rest := by
        refine List.filter_eq_self.mpr fun vote hvote => ?_
        obtain ⟨-, hsupports, hkey⟩ := hwon vote hvote
        simp [hsupports, hkey]
      rw [← hfiltered, ← hvalid]
      exact (List.filter_sublist).filter _
    exact ⟨first, rest, rfl, (hwon first List.mem_cons_self).2.1,
      ⟨hpresent, hlen.trans hsublist.length_le⟩,
      fun vote hvote => ⟨(hwon vote hvote).1, (hwon vote hvote).2.1⟩⟩

theorem resolveVotes_unknown (hthree : votes.length = 3)
    (hlost : votes.any ElementVote.isLost = false) (hrequired : 0 < required)
    (h : resolveVotes votes required = (.unknown, winners)) :
    (∀ vote ∈ votes, vote.state ≠ .tagged .conflict) ∧
      (votes.filter ElementVote.supports).length < required ∧
      ∀ first ∈ votes, ∀ second ∈ votes, first.supports = true → second.supports = true →
        first.key = second.key := by
  unfold resolveVotes at h
  by_cases hconflict : (votes.any fun vote => vote.state == .tagged .conflict) = true
  · rw [if_pos hconflict] at h
    cases h
  rw [if_neg hconflict, if_neg (by simp [hthree, hlost])] at h
  by_cases hkeys : 1 < ((votes.filter ElementVote.isValid).map ElementVote.key).dedup.length
  · rw [if_pos hkeys] at h
    cases h
  rw [if_neg hkeys] at h
  have hvalidMem : ∀ vote ∈ votes, vote.supports = true → vote ∈ votes.filter ElementVote.isValid :=
    fun vote hvote hsupports =>
      List.mem_filter.mpr ⟨hvote, ElementVote.isValid_of_supports hsupports⟩
  have hfew : (votes.filter ElementVote.isValid).length < required := by
    cases hvalid : votes.filter ElementVote.isValid with
    | nil => exact hrequired
    | cons first rest =>
      by_contra hmany
      rw [hvalid] at h
      simp only [if_pos (not_lt.mp hmany), Prod.mk.injEq] at h
      have hne : wonState first ≠ .unknown := by
        unfold wonState
        split_ifs <;> simp
      exact hne h.1
  refine ⟨?_, ?_, fun first hfirst second hsecond hone htwo =>
    key_eq_of_dedup hkeys (hvalidMem first hfirst hone) (hvalidMem second hsecond htwo)⟩
  · intro vote hvote hstate
    exact hconflict (List.any_eq_true.mpr ⟨vote, hvote, by simp [hstate]⟩)
  · refine lt_of_le_of_lt ?_ hfew
    rw [← List.countP_eq_length_filter, ← List.countP_eq_length_filter]
    exact List.countP_mono_left fun vote _ hsupports => ElementVote.isValid_of_supports hsupports

theorem settleVotes_cases (required : Nat) (completed validScope : Bool) (votes : List ElementVote) :
    (settleVotes required completed validScope votes =
        if vetoed votes then (.conflict, []) else resolveVotes votes required) ∨
      (vetoed votes = false ∧ completed = true ∧ validScope = true ∧
        votes.any ElementVote.isLost = false ∧ (resolveVotes votes required).1 = .unknown ∧
        (settleVotes required completed validScope votes).1 = .absentInScope) := by
  unfold settleVotes
  dsimp only
  split_ifs with hveto habsent habsent
  · simp at habsent
  · exact Or.inl rfl
  · obtain ⟨hunknown, hcompleted, hscope, hlost⟩ := habsent
    refine Or.inr ⟨by simpa using hveto, hcompleted, hscope, by simpa using hlost, hunknown, rfl⟩
  · exact Or.inl rfl

variable {completed validScope : Bool}

theorem settleVotes_present
    (h : settleVotes required completed validScope votes = (.present, winners)) :
    resolveVotes votes required = (.present, winners) := by
  rcases settleVotes_cases required completed validScope votes with hcase | ⟨-, -, -, -, -, hcase⟩
  · rw [hcase] at h
    split_ifs at h
    · cases h
    · exact h
  · rw [h] at hcase
    cases hcase

theorem resolveVotes_ne_absentInScope (votes : List ElementVote) (required : Nat) :
    (resolveVotes votes required).1 ≠ .absentInScope := by
  rcases resolveVotes_cases votes required with hcase | hcase | ⟨first, rest, -, -, -, hcase⟩
  · simp [hcase]
  · simp [hcase]
  · rw [hcase]
    unfold wonState
    split_ifs <;> simp

theorem settleVotes_absent
    (h : (settleVotes required completed validScope votes).1 = .absentInScope) :
    vetoed votes = false ∧ completed = true ∧ validScope = true ∧
      votes.any ElementVote.isLost = false ∧ (resolveVotes votes required).1 = .unknown := by
  rcases settleVotes_cases required completed validScope votes with
    hcase | ⟨hveto, hcompleted, hscope, hlost, hunknown, -⟩
  · rw [hcase] at h
    split_ifs at h
    · exact absurd h (resolveVotes_ne_absentInScope votes required)
  · exact ⟨hveto, hcompleted, hscope, hlost, hunknown⟩

variable {original : OriginalGraph} {tenantId : String}

theorem allVerified_ok {rules : VoteRules} {early late : SourceRef → Bool}
    {refs : List SourceRef} (h : allVerified rules original tenantId early late refs = .ok true) :
    ∀ ref ∈ refs, early ref = true ∧ late ref = true ∧
      isVerified (verifySourceRef rules.citations original ref) = true := by
  induction refs with
  | nil => simp
  | cons ref refs ih =>
    unfold allVerified at h
    by_cases hearly : early ref = true
    swap
    · rw [if_neg hearly] at h
      cases h
    rw [if_pos hearly] at h
    obtain ⟨checked, hchecked, h⟩ := bind_ok h
    unfold verifyFor at hchecked
    split_ifs at hchecked
    cases hchecked
    split_ifs at h with hboth
    · rw [Bool.and_eq_true] at hboth
      rw [List.forall_mem_cons]
      exact ⟨⟨hearly, hboth.2, hboth.1⟩, ih h⟩
    · cases pure_ok h

structure TrustedVote (rules : Rules) (request : Request) (run : TagRun) (elementId : String)
    (vote : ElementVote) : Prop where
  cast : castVote rules.toVoteRules request.original request.claim elementId run = .ok vote
  tagged : ∃ element, (run.vote elementId).map Vote.element = some element ∧
    element.state = .present ∧ element.evidenceRefs ≠ [] ∧ vote.refs = element.evidenceRefs ∧
    vote.value = element.normalizedValue ∧ ∀ ref ∈ element.evidenceRefs, isVerified ref = true ∧
      isVerified (verifySourceRef rules.citations request.original ref) = true
  bound : vote.binding = lastValue run.bindingHashes elementId ∧ PyText.truthy vote.binding = true

variable {run : TagRun} {elementId : String} {claim : AtomicClaim}

theorem readRaw_present {rules : VoteRules} {state : VoteState}
    (h : (readRaw rules original claim run elementId state).1 = .tagged .present) :
    state = .tagged .present := by
  unfold readRaw at h
  cases hraw : rules.rawElement run.rawResponseJson elementId with
  | none => simp [hraw] at h
  | some raw =>
    simp only [hraw] at h
    split_ifs at h with hconflict habsent
    · simp at h
    · cases hrefs : raw.evidenceRefs with
      | absent => simpa [hrefs] using h
      | malformed => simp [hrefs] at h
      | refs refs =>
        simp only [hrefs] at h
        cases hall : allVerified rules original claim.tenantId (fun _ => true)
            (insideClaim claim) refs with
        | error error => simp [hall] at h
        | ok negative => simpa [hall] using h
    · exact h

def guardedState (vote : Option Vote) : VoteState :=
  match vote with
  | none => .missing
  | some vote => .tagged vote.element.state

theorem castVote_present {rules : VoteRules}
    (h : castVote rules original claim elementId run = .ok vote)
    (hstate : vote.state = .tagged .present) :
    guardedState (run.vote elementId) = .tagged .present ∧
      evidenceVerified rules original claim (run.vote elementId)
        (lastValue run.bindingHashes elementId) = .ok vote.isVerified ∧
      vote.value = ((run.vote elementId).bind fun vote => vote.element.normalizedValue) ∧
      vote.binding = lastValue run.bindingHashes elementId ∧
      vote.refs = ((run.vote elementId).map fun vote => vote.element.evidenceRefs).getD [] := by
  obtain ⟨evidence, hevidence, h⟩ := bind_ok h
  cases pure_ok h
  have hpresent := readRaw_present hstate
  rw [beq_iff_eq.mpr hstate]
  exact ⟨hpresent, hevidence, rfl, rfl, rfl⟩

variable {rules : Rules} {request : Request}

theorem castVote_supports
    (h : castVote rules.toVoteRules request.original request.claim elementId run = .ok vote)
    (hsupports : vote.supports = true) : TrustedVote rules request run elementId vote := by
  obtain ⟨hstate, hverified⟩ := ElementVote.supports_iff.mp hsupports
  obtain ⟨hguarded, hevidence, hvalue, hbinding, hrefs⟩ := castVote_present h hstate
  cases hvote : run.vote elementId with
  | none => simp [hvote, guardedState] at hguarded
  | some voted =>
    simp only [hvote, guardedState, VoteState.tagged.injEq] at hguarded
    simp only [hvote, Option.bind_some, Option.map_some, Option.getD_some] at hvalue hrefs
    rw [hverified, hvote] at hevidence
    unfold evidenceVerified at hevidence
    dsimp only at hevidence
    by_cases hgiven : voted.element.evidenceRefs ≠ [] ∧
        PyText.truthy (lastValue run.bindingHashes elementId) = true
    swap
    · rw [if_neg hgiven] at hevidence
      cases hevidence
    rw [if_pos hgiven] at hevidence
    exact
      { cast := h
        tagged := ⟨voted.element, by rw [hvote]; rfl, hguarded, hgiven.1, hrefs, hvalue,
          fun ref href =>
            ⟨(allVerified_ok hevidence ref href).1, (allVerified_ok hevidence ref href).2.2⟩⟩
        bound := ⟨hbinding, hbinding ▸ hgiven.2⟩ }

/-! ### Assemblies -/

/-- The steps of an assembly that went through. -/
structure Assembled (rules : Rules) (request : Request) (assembly : Assembly)
    (baseline : ConsensusResult) (tags : ConfirmedTags) : Prop where
  selected : selectPolicy request.analysisPolicy = .ok assembly.policy
  consensus : formConsensus rules.semanticHash request.runs request.packet.toEvidencePacket
    request.pack request.context.tenantId 1 [] "grade-relevant-unanimity-v3" = .ok baseline
  ordered : assembly.ordered = sortByReplica request.runs
  claimVerified : claimSourceVerified rules request = .ok assembly.claimVerified
  track : request.packet.track = some assembly.track
  assessments : (mappings assembly.track).mapM
    (assessElement rules request assembly.policy assembly.track assembly.ordered) =
      .ok assembly.assessments
  built : buildTags rules request assembly.track assembly.ordered
    (assembly.assessments.flatMap Assessment.facts ++
      otherFacts baseline (assembly.assessments.flatMap Assessment.facts)) = .ok tags
  resolved : if readsExceptions request assembly.policy assembly.ordered then
      resolveExceptionFacts tags (if assembly.claimVerified then request.claim.sourceRefs else []) =
        .ok assembly.tags
    else assembly.tags = tags

variable {assembly : Assembly}

/-- An assembly went through all of its steps. -/
theorem assemble_ok (h : assemble rules request = .ok assembly) :
    ∃ baseline tags, Assembled rules request assembly baseline tags := by
  obtain ⟨policy, hpolicy, h⟩ := bind_ok h
  obtain ⟨baseline, hbaseline, h⟩ := bind_ok h
  replace h := rest_ok h
  obtain ⟨claimVerified, hclaim, h⟩ := bind_ok h
  obtain ⟨track, htrack, h⟩ := bind_ok h
  obtain ⟨assessments, hassessments, h⟩ := bind_ok h
  obtain ⟨tags, htags, h⟩ := bind_ok h
  have hpacket : request.packet.track = some track := by
    unfold packetTrack at htrack
    cases hsome : request.packet.track with
    | none => simp [hsome] at htrack
    | some found => simp_all
  refine ⟨baseline, tags, ?_⟩
  by_cases hreads : readsExceptions request policy (sortByReplica request.runs) = true
  · rw [if_pos hreads] at h
    obtain ⟨resolved, hresolved, h⟩ := bind_ok h
    cases pure_ok h
    exact ⟨hpolicy, hbaseline, rfl, hclaim, hpacket, hassessments, htags,
      by rw [if_pos hreads]; exact hresolved⟩
  · rw [if_neg hreads] at h
    cases pure_ok h
    exact ⟨hpolicy, hbaseline, rfl, hclaim, hpacket, hassessments, htags, by rw [if_neg hreads]⟩

theorem formConsensus_replicas {semanticHash : TagRun → String} {runs : List TagRun}
    {packet : EvidencePacket} {pack : RulePackSnapshot} {tagRevision : Nat}
    {ruleGaps : List String} {profileName : String} {result : ConsensusResult}
    (h : formConsensus semanticHash runs packet pack tenantId tagRevision ruleGaps profileName =
      .ok result) : (runs.map TagRun.replicateId).Perm [1, 2, 3] := by
  obtain ⟨profile, -, h⟩ := bind_ok h
  obtain ⟨track, -, h⟩ := bind_ok h
  obtain ⟨ordered, hruns, -⟩ := bind_ok h
  obtain ⟨haccepted, -⟩ := checkRuns_ok_iff.mp hruns
  exact ((List.subperm_of_subset (by decide) haccepted.replicas).perm_of_length_le
    (by simp [haccepted.three])).symm

variable {ordered : List TagRun}

/-- The parts of an assessed element, read off its votes. -/
theorem assessElement_ok {policy : Policy} {track : Track} {entry : String × List String}
    {assessment : Assessment}
    (h : assessElement rules request policy track ordered entry = .ok assessment) :
    ∃ votes, castVotes rules request ordered entry.1 = .ok votes ∧
      assessment.record.elementId = entry.1 ∧
      assessment.record.state = (settleElement request policy ordered votes).1 ∧
      entry.2.mapM (settledFact request.claim.tenantId
        (settleElement request policy ordered votes).1
        (settleElement request policy ordered votes).2) = .ok assessment.facts ∧
      assessment.reasons =
        elementReasons track entry.1 (settleElement request policy ordered votes).1 := by
  obtain ⟨votes, hvotes, h⟩ := bind_ok h
  obtain ⟨facts, hfacts, h⟩ := bind_ok h
  cases pure_ok h
  exact ⟨votes, hvotes, rfl, rfl, hfacts, rfl⟩

theorem buildBody_elements (rules : Rules) (request : Request) (assembly : Assembly)
    (outcome : ScopeOutcome) (gaps : List GapDetail) (first : TagRun) :
    (buildBody rules request assembly outcome gaps first).elements = assembly.elements := by
  rfl

theorem closeResult_confirmation (rules : Rules) (request : Request) (assembly : Assembly)
    (outcome : ScopeOutcome) (body : Body) :
    (closeResult rules request assembly outcome body).cf6Confirmation =
      confirm rules request assembly outcome body := by
  simp only [closeResult]

theorem confirmationResult_ok {result : Result} (h : confirmationResult rules request = .ok result)
    :
    ∃ assembly outcome, assemble rules request = .ok assembly ∧
      decideTags rules request assembly.policy assembly.elements assembly.tags = .ok outcome ∧
      result.body.elements = assembly.elements ∧
      ∃ body, result.body = body ∧
        result.cf6Confirmation = confirm rules request assembly outcome body := by
  obtain ⟨assembly, hassembly, h⟩ := bind_ok h
  obtain ⟨outcome, houtcome, h⟩ := bind_ok h
  obtain ⟨gaps, -, h⟩ := bind_ok h
  cases hordered : assembly.ordered with
  | nil => simp [hordered] at h
  | cons first rest =>
    simp only [hordered, Except.ok.injEq] at h
    subst h
    exact ⟨assembly, outcome, hassembly, houtcome,
      buildBody_elements rules request assembly outcome gaps first,
      _, rfl, closeResult_confirmation rules request assembly outcome _⟩

theorem Policy.requiredVotes_pos (policy : Policy) : 0 < policy.requiredVotes := by
  rcases policy.threshold_known with h | h <;> omega

structure UnderSupported (votes : List ElementVote) (required : Nat) : Prop where
  three : votes.length = 3
  readable : ∀ vote ∈ votes, vote.isLost = false ∧ vote.state ≠ .tagged .conflict
  few : (votes.filter ElementVote.supports).length < required
  agree : ∀ first ∈ votes, ∀ second ∈ votes, first.supports = true → second.supports = true →
    first.key = second.key
  uncontested : ∀ vote ∈ votes, vote.supports = true →
    ∀ other ∈ votes, other.negativeSource = false

theorem underSupported_of_absent {policy : Policy} (hthree : votes.length = 3)
    (h : (settleElement request policy ordered votes).1 = .absentInScope) :
    UnderSupported votes policy.requiredVotes := by
  obtain ⟨hveto, -, -, hlost, hunknown⟩ := settleVotes_absent h
  have hresolved : resolveVotes votes policy.requiredVotes =
      (.unknown, (resolveVotes votes policy.requiredVotes).2) := by
    rw [← hunknown]
  obtain ⟨hconflict, hfew, hagree⟩ :=
    resolveVotes_unknown hthree hlost policy.requiredVotes_pos hresolved
  refine ⟨hthree, fun vote hvote => ⟨?_, hconflict vote hvote⟩, hfew, hagree, ?_⟩
  · have := List.any_eq_false.mp hlost vote hvote
    simpa using this
  · intro vote hvote hsupports other hother
    by_contra hnegative
    rw [Bool.not_eq_false] at hnegative
    have hboth : vetoed votes = true := by
      unfold vetoed
      rw [Bool.and_eq_true]
      exact ⟨List.any_eq_true.mpr ⟨other, hother, hnegative⟩,
        List.any_eq_true.mpr ⟨vote, hvote, hsupports⟩⟩
    rw [hveto] at hboth
    cases hboth

theorem dedup_length_le_one (h : ∀ first ∈ votes, ∀ second ∈ votes, first.key = second.key) :
    (votes.map ElementVote.key).dedup.length ≤ 1 := by
  cases votes with
  | nil => exact Nat.zero_le 1
  | cons first rest =>
    have hall : ∀ key ∈ ((first :: rest).map ElementVote.key).dedup, key = first.key := by
      intro key hkey
      obtain ⟨vote, hvote, rfl⟩ := List.mem_map.mp (List.mem_dedup.mp hkey)
      exact h vote hvote first List.mem_cons_self
    have hsame := List.eq_replicate_length.mpr hall
    have hnodup := List.nodup_dedup ((first :: rest).map ElementVote.key)
    rw [hsame] at hnodup
    exact List.nodup_replicate.mp hnodup

theorem castVote_verified {rules : VoteRules}
    (h : castVote rules original claim elementId run = .ok vote)
    (hverified : vote.isVerified = true) : vote.supports = true := by
  obtain ⟨evidence, -, h⟩ := bind_ok h
  cases pure_ok h
  rw [Bool.and_eq_true, beq_iff_eq] at hverified
  rw [ElementVote.supports_iff]
  refine ⟨hverified.1, ?_⟩
  rw [Bool.and_eq_true, beq_iff_eq]
  exact hverified

theorem resolveVotes_of_underSupported (h : UnderSupported votes required)
    (hcounted : ∀ vote ∈ votes, vote.isVerified = true → vote.supports = true) :
    (resolveVotes votes required).1 = .unknown := by
  have hvalid : ∀ vote ∈ votes.filter ElementVote.isValid, vote ∈ votes ∧ vote.supports = true := by
    intro vote hvote
    obtain ⟨hmem, hcounts⟩ := List.mem_filter.mp hvote
    exact ⟨hmem, hcounted vote hmem (Bool.and_eq_true _ _ ▸ hcounts).2⟩
  have hconflict : ¬(votes.any fun vote => vote.state == .tagged .conflict) = true := by
    intro hany
    obtain ⟨vote, hvote, hstate⟩ := List.any_eq_true.mp hany
    exact (h.readable vote hvote).2 (beq_iff_eq.mp hstate)
  have hlost : ¬(votes.length ≠ 3 ∨ votes.any ElementVote.isLost = true) := by
    rintro (hthree | hany)
    · exact hthree h.three
    · obtain ⟨vote, hvote, hlost⟩ := List.any_eq_true.mp hany
      rw [(h.readable vote hvote).1] at hlost
      cases hlost
  have hkeys : ¬1 < ((votes.filter ElementVote.isValid).map ElementVote.key).dedup.length := by
    refine not_lt.mpr (dedup_length_le_one fun first hfirst second hsecond => ?_)
    obtain ⟨hfirstMem, hfirstSupports⟩ := hvalid first hfirst
    obtain ⟨hsecondMem, hsecondSupports⟩ := hvalid second hsecond
    exact h.agree first hfirstMem second hsecondMem hfirstSupports hsecondSupports
  have hfew : (votes.filter ElementVote.isValid).length < required := by
    refine lt_of_le_of_lt ?_ h.few
    rw [← List.countP_eq_length_filter, ← List.countP_eq_length_filter]
    refine List.countP_mono_left fun vote hvote hcounts => ?_
    exact (hvalid vote (List.mem_filter.mpr ⟨hvote, hcounts⟩)).2
  unfold resolveVotes
  rw [if_neg hconflict, if_neg hlost, if_neg hkeys]
  cases hfilter : votes.filter ElementVote.isValid with
  | nil => rfl
  | cons first rest =>
    rw [hfilter] at hfew
    dsimp only
    rw [if_neg (not_le.mpr hfew)]

theorem not_vetoed_of_underSupported (h : UnderSupported votes required) : vetoed votes = false := by
  by_contra hveto
  rw [Bool.not_eq_false] at hveto
  unfold vetoed at hveto
  rw [Bool.and_eq_true] at hveto
  obtain ⟨other, hother, hnegative⟩ := List.any_eq_true.mp hveto.1
  obtain ⟨vote, hvote, hsupports⟩ := List.any_eq_true.mp hveto.2
  rw [h.uncontested vote hvote hsupports other hother] at hnegative
  cases hnegative

theorem settleElement_absent_iff {policy : Policy} (hthree : votes.length = 3)
    (hcounted : ∀ vote ∈ votes, vote.isVerified = true → vote.supports = true) :
    (settleElement request policy ordered votes).1 = .absentInScope ↔
      allCompleted ordered = true ∧ Cf6.validScope request = true ∧
        UnderSupported votes policy.requiredVotes := by
  constructor
  · intro h
    obtain ⟨-, hcompleted, hscope, -, -⟩ := settleVotes_absent h
    exact ⟨hcompleted, hscope, underSupported_of_absent hthree h⟩
  · rintro ⟨hcompleted, hscope, hunder⟩
    have hlost : votes.any ElementVote.isLost = false := by
      rw [List.any_eq_false]
      intro vote hvote
      simp [(hunder.readable vote hvote).1]
    unfold settleElement settleVotes
    rw [not_vetoed_of_underSupported hunder, if_neg Bool.false_ne_true,
      if_pos ⟨resolveVotes_of_underSupported hunder hcounted, hcompleted, hscope, by rw [hlost]; rfl⟩]

theorem castVotes_length (h : castVotes rules request ordered elementId = .ok votes) :
    votes.length = ordered.length :=
  (mapM_ok_iff.mp h).length_eq.symm

theorem Assembled.three {baseline : ConsensusResult} {tags : ConfirmedTags}
    (h : Assembled rules request assembly baseline tags) : assembly.ordered.length = 3 := by
  rw [h.ordered, (sortByReplica_perm request.runs).length_eq]
  simpa using (formConsensus_replicas h.consensus).length_eq

end ProofOps.Application.Tagging.Cf6
