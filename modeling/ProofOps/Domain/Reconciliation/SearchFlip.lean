import ProofOps.Domain.Reconciliation.Engine
import ProofOps.Foundation.Checked

/-!
# What a reconciliation depends on the search for

Two packets that differ in the completeness of their search only are evaluated side by
side.  Every check before the shared resolver reads the same values in both, so the
outcomes are the same, or one claims a missing explanation after a complete search
where the other is blocked on an incomplete one.
-/

namespace ProofOps.Domain.Reconciliation

open Foundation Foundation.Checked Numeric

def Packet.withSearch (packet : Packet) (state : SearchState) : Packet :=
  { packet with
    search := { packet.search with state := state }
    explanation := { packet.explanation with searchComplete := state = .complete } }

/-! ### Outcomes side by side -/

inductive Flips (known : List String) : Outcome → Outcome → Prop
  | same (outcome : Outcome) (hstatus : outcome.status ≠ some .needsExplanation)
      (hreasons : .searchIncomplete ∉ outcome.reasonCodes)
      (hsources : outcome.extraSourceIds ⊆ known) : Flips known outcome outcome
  | missing (reasons : List Reason) (sources : List String)
      (hreasons : .searchIncomplete ∉ reasons) (hsources : sources ⊆ known) :
      Flips known (.completed .needsExplanation reasons sources none)
        (.blocked [.searchIncomplete] sources)

def Agree (known : List String) (complete incomplete : Except EngineError Outcome) : Prop :=
  (∃ error, complete = .error error ∧ incomplete = .error error) ∨
    ∃ first second, complete = .ok first ∧ incomplete = .ok second ∧ Flips known first second

variable {first second : Outcome}

namespace Agree

variable {known : List String}

theorem error (raised : EngineError) : Agree known (.error raised) (.error raised) :=
  Or.inl ⟨raised, rfl, rfl⟩

theorem ok (h : Flips known first second) :
    Agree known (.ok first) (.ok second) :=
  Or.inr ⟨first, second, rfl, rfl, h⟩

theorem completed {status : Status} {reason : Reason} (hstatus : status ≠ .needsExplanation)
    (hreason : reason ≠ .searchIncomplete) :
    Agree known (.ok (.completed status [reason] [] none)) (.ok (.completed status [reason] [] none)) := by
  refine ok (Flips.same _ ?_ ?_ ?_)
  · simpa [Outcome.status] using hstatus
  · simpa [Outcome.reasonCodes] using hreason.symm
  · simp [Outcome.extraSourceIds]

theorem blocked {reason : Reason} (hreason : reason ≠ .searchIncomplete) :
    Agree known (.ok (.blocked [reason] [])) (.ok (.blocked [reason] [])) := by
  refine ok (Flips.same _ ?_ ?_ ?_)
  · simp [Outcome.status]
  · simpa [Outcome.reasonCodes] using hreason.symm
  · simp [Outcome.extraSourceIds]

theorem bind {α : Type} (first : Except EngineError α) {next other : α → Except EngineError Outcome}
    (h : ∀ value, Agree known (next value) (other value)) :
    Agree known (first >>= next) (first >>= other) := by
  cases first with
  | error raised => exact error raised
  | ok value => exact h value

theorem ite {p : Prop} [Decidable p] {first second other third : Except EngineError Outcome}
    (hpos : Agree known first second) (hneg : Agree known other third) :
    Agree known (if p then first else other) (if p then second else third) := by
  split_ifs
  · exact hpos
  · exact hneg

theorem withSources {extra : List String} (hextra : extra ⊆ known)
    {first second : Except EngineError Outcome} (h : Agree known first second) :
    Agree known (first.map (Outcome.withSources extra)) (second.map (Outcome.withSources extra)) := by
  rcases h with ⟨raised, rfl, rfl⟩ | ⟨complete, incomplete, rfl, rfl, hflips⟩
  · exact error raised
  · refine ok ?_
    cases hflips with
    | same _ hstatus hreasons hsources =>
      cases complete with
      | completed status reasons sources explanation | blocked reasons sources =>
        exact Flips.same _ hstatus hreasons (List.append_subset.mpr ⟨hextra, hsources⟩)
    | missing reasons sources hreasons hsources =>
      exact Flips.missing _ _ hreasons (List.append_subset.mpr ⟨hextra, hsources⟩)

end Agree

/-! ### The items side by side -/

section Items

variable {rules : EngineRules} {packet : Packet} {policy : Policy} {state : SearchState}
  {known : List String}

abbrev searched (packet : Packet) (policy : Policy) (state : SearchState) : Context :=
  ⟨packet.withSearch state, policy⟩

theorem agree_guards {allowed : List Kind} {first second : Except EngineError Outcome}
    (h : Agree known first second) :
    Agree known
      (match (searched packet policy .complete).requireKind allowed,
          (searched packet policy .complete).unresolvedValues with
        | some mismatch, _ => .ok mismatch
        | none, some unresolved => .ok unresolved
        | none, none => first)
      (match (searched packet policy state).requireKind allowed,
          (searched packet policy state).unresolvedValues with
        | some mismatch, _ => .ok mismatch
        | none, some unresolved => .ok unresolved
        | none, none => second) := by
  unfold Context.requireKind Context.unresolvedValues
  simp only [Packet.withSearch]
  by_cases hkind : packet.sustainability.kind ∈ allowed
  · simp only [hkind, if_true]
    by_cases hmissing : packet.sustainability.normalized = none ∨ packet.financial.normalized = none
    · simp only [hmissing, if_true]
      exact Agree.blocked (by decide)
    · simp only [hmissing, if_false]
      exact h
  · simp only [hkind, if_false]
    exact Agree.blocked (by decide)

section Incomplete

variable (hstate : state ≠ .complete)

include hstate

/-- Resolving a difference flips. -/
theorem resolveDifference_flips
    (hknown : packet.explanation.sourceId.toList ⊆ known) {reason : Reason}
    (hreason : reason ≠ .searchIncomplete) :
    Agree known (.ok ((searched packet policy .complete).resolveDifference reason))
      (.ok ((searched packet policy state).resolveDifference reason)) := by
  refine Agree.ok ?_
  unfold Context.resolveDifference Context.searchComplete
  simp only [Packet.withSearch, decide_true, if_true, hstate, decide_false, Bool.false_eq_true,
    if_false]
  cases hsource : packet.explanation.sourceId with
  | some source =>
    refine Flips.same _ (by simp [Outcome.status]) ?_ ?_
    · simpa [Outcome.reasonCodes] using hreason.symm
    · rw [hsource] at hknown
      exact hknown
  | none => exact Flips.missing _ _ (by decide) (List.nil_subset _)

/-- C1 agrees. -/
theorem C1.evaluate_agree (hknown : packet.explanation.sourceId.toList ⊆ known) :
    Agree known (C1.evaluate rules (searched packet policy .complete))
      (C1.evaluate rules (searched packet policy state)) := by
  have hsets : Agree known (C1.compareSets rules (searched packet policy .complete))
      (C1.compareSets rules (searched packet policy state)) := by
    refine Agree.bind _ fun sustainability => Agree.bind _ fun financial => ?_
    refine Agree.ite (Agree.blocked (by decide)) ?_
    refine Agree.ite (Agree.completed (by decide) (by decide)) ?_
    exact resolveDifference_flips hstate hknown (by decide)
  refine agree_guards ?_
  refine Agree.ite (Agree.blocked (by decide)) ?_
  refine Agree.ite (Agree.blocked (by decide)) ?_
  exact Agree.ite (Agree.blocked (by decide)) hsets

/-- C2 agrees. -/
theorem C2.evaluate_agree (hknown : packet.explanation.sourceId.toList ⊆ known) :
    Agree known (C2.evaluate (searched packet policy .complete))
      (C2.evaluate (searched packet policy state)) := by
  refine agree_guards ?_
  refine Agree.bind _ fun sustainability => Agree.bind _ fun financial => ?_
  refine Agree.bind (C2.reportingWindow ⟨packet, policy⟩) fun window => ?_
  refine Agree.ite (Agree.completed (by decide) (by decide)) ?_
  refine Agree.ite (Agree.completed (by decide) (by decide)) ?_
  exact resolveDifference_flips hstate hknown (by decide)

theorem C3.compareThreshold_agree
    (hknown : packet.explanation.sourceId.toList ⊆ known) (commitment capex : Decimal) :
    Agree known (C3.compareThreshold (searched packet policy .complete) commitment capex)
      (C3.compareThreshold (searched packet policy state) commitment capex) := by
  unfold C3.compareThreshold
  cases policy.c3Threshold with
  | none => exact Agree.blocked (by decide)
  | some threshold =>
    refine Agree.bind _ fun parsed => Agree.bind _ fun within => ?_
    refine Agree.ite (Agree.completed (by decide) (by decide)) ?_
    exact resolveDifference_flips hstate hknown (by decide)

/-- The checks of C3 agree. -/
theorem C3.judge_agree
    (hknown : packet.explanation.sourceId.toList ⊆ known) (c3Context : C3Context) :
    Agree known (C3.judge (searched packet policy .complete) c3Context)
      (C3.judge (searched packet policy state) c3Context) := by
  have hamounts : Agree known (C3.compareAmounts (searched packet policy .complete) c3Context)
      (C3.compareAmounts (searched packet policy state) c3Context) := by
    refine Agree.bind _ fun commitment => Agree.bind _ fun capex => ?_
    refine Agree.ite (Agree.blocked (by decide)) ?_
    refine Agree.ite (Agree.blocked (by decide)) ?_
    refine Agree.ite (Agree.completed (by decide) (by decide)) ?_
    exact C3.compareThreshold_agree hstate hknown commitment.2 capex.2
  refine agree_guards ?_
  refine Agree.ite (Agree.blocked (by decide)) ?_
  refine Agree.ite (Agree.blocked (by decide)) ?_
  refine Agree.ite (Agree.blocked (by decide)) ?_
  exact Agree.ite (Agree.blocked (by decide)) hamounts

/-- C3 agrees, with its own sources in front. -/
theorem C3.evaluate_agree (hknown : packet.explanation.sourceId.toList ⊆ known)
    (hcontext : ∀ c3Context ∈ packet.c3Context, C3.extra c3Context ⊆ known) :
    Agree known (C3.evaluate (searched packet policy .complete))
      (C3.evaluate (searched packet policy state)) := by
  refine Agree.ite (Agree.completed (by decide) (by decide)) ?_
  dsimp only [searched, Packet.withSearch]
  cases hfound : packet.c3Context with
  | none => exact Agree.error _
  | some c3Context =>
    exact (C3.judge_agree hstate hknown c3Context).withSources (hcontext c3Context hfound)

end Incomplete

theorem C4.firsts_subset (values : List String) : C4.firsts values ⊆ values := by
  have hfold : ∀ (rest kept : List String), kept ⊆ values → rest ⊆ values →
      rest.foldl (fun kept value => if value ∈ kept then kept else kept ++ [value]) kept ⊆ values := by
    intro rest
    induction rest with
    | nil => exact fun kept hkept _ => hkept
    | cons value rest ih =>
      intro kept hkept hrest
      rw [List.cons_subset] at hrest
      refine ih _ ?_ hrest.2
      show (if value ∈ kept then kept else kept ++ [value]) ⊆ values
      split_ifs
      · exact hkept
      · exact List.append_subset.mpr ⟨hkept, by simpa using hrest.1⟩
  exact hfold values [] (List.nil_subset _) (List.Subset.refl _)

theorem C4.collect_ok {c4Context : C4Context} {explanations : List String} {cited : List String}
    {missing : List Reason} (h : C4.collect c4Context explanations = .ok (cited, missing)) :
    cited ⊆ c4Context.definitionSourceIds ++ c4Context.calculationSourceIds ∧
      .searchIncomplete ∉ missing := by
  induction explanations generalizing cited missing with
  | nil =>
    cases h
    exact ⟨List.nil_subset _, List.not_mem_nil⟩
  | cons explanation explanations ih =>
    obtain ⟨⟨sources, reason⟩, hbasis, h⟩ := bind_ok h
    obtain ⟨⟨laterCited, laterMissing⟩, hlater, h⟩ := bind_ok h
    obtain ⟨hcited, hmissing⟩ := ih hlater
    have hsources : sources ⊆ c4Context.definitionSourceIds ++ c4Context.calculationSourceIds ∧
        reason ≠ .searchIncomplete := by
      unfold C4.basis at hbasis
      split_ifs at hbasis
      · cases hbasis
        exact ⟨List.subset_append_left _ _, by decide⟩
      · cases hbasis
        exact ⟨List.subset_append_right _ _, by decide⟩
    split_ifs at h with hempty
    · cases pure_ok h
      exact ⟨List.append_subset.mpr ⟨hsources.1, hcited⟩, hmissing⟩
    · cases pure_ok h
      exact ⟨hcited, List.not_mem_cons_of_ne_of_not_mem hsources.2.symm hmissing⟩

/-- C4 agrees. -/
theorem C4.evaluate_agree (hstate : state ≠ .complete) (hcontext : ∀ c4Context ∈ packet.c4Context,
      c4Context.definitionSourceIds ++ c4Context.calculationSourceIds ⊆ known) :
    Agree known (C4.evaluate (searched packet policy .complete))
      (C4.evaluate (searched packet policy state)) := by
  refine agree_guards ?_
  dsimp only [searched, Packet.withSearch]
  cases hfound : packet.c4Context with
  | none => exact Agree.error _
  | some c4Context =>
    show Agree known (C4.collect c4Context policy.c4RequiredExplanations >>= _)
      (C4.collect c4Context policy.c4RequiredExplanations >>= _)
    cases hcollect : C4.collect c4Context policy.c4RequiredExplanations with
    | error raised => exact Agree.error raised
    | ok collected =>
      obtain ⟨cited, missing⟩ := collected
      obtain ⟨hcited, hmissing⟩ := C4.collect_ok hcollect
      have hsources : C4.firsts cited ⊆ known :=
        List.Subset.trans (C4.firsts_subset cited)
          (List.Subset.trans hcited (hcontext c4Context hfound))
      have hsearch : (searched packet policy state).searchComplete = false := by
        simp [Context.searchComplete, Packet.withSearch, hstate]
      show Agree known (if missing = [] then _ else if !true then _ else _)
        (if missing = [] then _ else if !(searched packet policy state).searchComplete then _ else _)
      rw [hsearch]
      by_cases hnone : missing = []
      · rw [if_pos hnone, if_pos hnone]
        exact Agree.ok (Flips.same _ (by simp [Outcome.status]) (by simp [Outcome.reasonCodes])
          hsources)
      · rw [if_neg hnone, if_neg hnone]
        exact Agree.ok (Flips.missing _ _ hmissing hsources)

end Items

variable {ordered : List String} {outcome : Outcome}

section Engine

variable {rules : EngineRules} {packet : Packet} {policy : Policy} {state : SearchState}

structure Validated (packet : Packet) : Prop where
  references : referenced packet ⊆ packet.sourceIds
  agrees : packet.explanation.searchComplete = decide (packet.search.state = .complete)

theorem validateReferences_ok_iff :
    validateReferences packet = .ok () ↔ referenced packet ⊆ packet.sourceIds := by
  unfold validateReferences
  cases hfound : (referenced packet).find? fun reference => !packet.sourceIds.contains reference with
  | none =>
    rw [List.find?_eq_none] at hfound
    simp only [true_iff]
    intro reference hreference
    simpa using hfound reference hreference
  | some reference =>
    have hmem := List.mem_of_find?_eq_some hfound
    have hunknown := List.find?_some hfound
    simp only [fail, reduceCtorEq, false_iff]
    intro hsubset
    simp [hsubset hmem] at hunknown

theorem failIf_ok_iff {p : Prop} [Decidable p] {message : String} :
    failIf p message = .ok () ↔ ¬p := by
  unfold failIf fail
  split_ifs with hp <;> simp [hp]

theorem validatePacket_ok (h : validatePacket rules packet = .ok ()) : Validated packet := by
  replace h := rest_ok h
  replace h := rest_ok h
  replace h := rest_ok h
  replace h := rest_ok h
  replace h := rest_ok h
  replace h := rest_ok h
  replace h := rest_ok h
  replace h := rest_ok h
  replace h := rest_ok h
  replace h := rest_ok h
  replace h := rest_ok h
  replace h := rest_ok h
  obtain ⟨⟨⟩, hagrees, h⟩ := bind_ok h
  exact ⟨validateReferences_ok_iff.mp h, not_not.mp (failIf_ok_iff.mp hagrees)⟩

theorem validatePacket_incomplete (h : validatePacket rules packet = .ok ())
    (hstate : state ≠ .complete) : validatePacket rules (packet.withSearch state) = .ok () := by
  obtain ⟨⟨⟩, hversion, h⟩ := bind_ok h
  obtain ⟨⟨⟩, hidentity, h⟩ := bind_ok h
  obtain ⟨⟨⟩, hsources, h⟩ := bind_ok h
  obtain ⟨⟨⟩, hsustainability, h⟩ := bind_ok h
  obtain ⟨⟨⟩, hfinancial, h⟩ := bind_ok h
  obtain ⟨⟨⟩, hexplanation, h⟩ := bind_ok h
  obtain ⟨⟨⟩, hquote, h⟩ := bind_ok h
  obtain ⟨⟨⟩, hclaim, h⟩ := bind_ok h
  obtain ⟨⟨⟩, htrigger, h⟩ := bind_ok h
  obtain ⟨⟨⟩, hyear, h⟩ := bind_ok h
  obtain ⟨⟨⟩, hsearch, h⟩ := bind_ok h
  obtain ⟨⟨⟩, hcontexts, h⟩ := bind_ok h
  obtain ⟨⟨⟩, -, hreferences⟩ := bind_ok h
  have hsearch' : validateSearch (packet.withSearch state).search = .ok () := by
    obtain ⟨⟨⟩, hcoverage, hsearch⟩ := bind_ok hsearch
    obtain ⟨⟨⟩, hreceipt, hsearch⟩ := bind_ok hsearch
    obtain ⟨⟨⟩, hrequired, hsearch⟩ := bind_ok hsearch
    obtain ⟨⟨⟩, hreviewed, hsearch⟩ := bind_ok hsearch
    obtain ⟨⟨⟩, hfailed, -⟩ := bind_ok hsearch
    refine bind_ok_iff.mpr ⟨(), hcoverage, bind_ok_iff.mpr ⟨(), hreceipt, ?_⟩⟩
    refine bind_ok_iff.mpr ⟨(), hrequired, bind_ok_iff.mpr ⟨(), hreviewed, ?_⟩⟩
    exact bind_ok_iff.mpr ⟨(), hfailed, if_neg hstate⟩
  refine bind_ok_iff.mpr ⟨(), hversion, bind_ok_iff.mpr ⟨(), hidentity, ?_⟩⟩
  refine bind_ok_iff.mpr ⟨(), hsources, bind_ok_iff.mpr ⟨(), hsustainability, ?_⟩⟩
  refine bind_ok_iff.mpr ⟨(), hfinancial, bind_ok_iff.mpr ⟨(), hexplanation, ?_⟩⟩
  refine bind_ok_iff.mpr ⟨(), hquote, bind_ok_iff.mpr ⟨(), hclaim, ?_⟩⟩
  refine bind_ok_iff.mpr ⟨(), htrigger, bind_ok_iff.mpr ⟨(), hyear, ?_⟩⟩
  refine bind_ok_iff.mpr ⟨(), hsearch', bind_ok_iff.mpr ⟨(), hcontexts, ?_⟩⟩
  exact bind_ok_iff.mpr ⟨(), failIf_ok_iff.mpr (not_not.mpr rfl), hreferences⟩

theorem Validated.withSearch_self (h : Validated packet) :
    packet.withSearch packet.search.state = packet := by
  have hagrees := h.agrees
  simp only [Packet.withSearch] at hagrees ⊢
  rw [← hagrees]

/-- The decision agrees for a valid packet. -/
theorem decideOutcome_agree (h : Validated packet) (hstate : state ≠ .complete) :
    Agree packet.sourceIds (decideOutcome rules (packet.withSearch .complete) policy)
      (decideOutcome rules (packet.withSearch state) policy) := by
  have hexplanation : packet.explanation.sourceId.toList ⊆ packet.sourceIds := by
    refine List.Subset.trans (fun source hsource => ?_) h.references
    simp only [referenced, List.mem_cons, List.mem_append, List.cons_append]
    simp [hsource]
  have hc3 : ∀ c3Context ∈ packet.c3Context, C3.extra c3Context ⊆ packet.sourceIds := by
    intro c3Context hcontext
    refine List.Subset.trans (fun source hsource => ?_) h.references
    have hmem : source ∈ packet.c3Context.toList.flatMap C3.extra :=
      List.mem_flatMap.mpr ⟨c3Context, Option.mem_toList.mpr hcontext, hsource⟩
    exact List.mem_append_left _ (List.mem_append_right _ hmem)
  have hc4 : ∀ c4Context ∈ packet.c4Context,
      c4Context.definitionSourceIds ++ c4Context.calculationSourceIds ⊆ packet.sourceIds := by
    intro c4Context hcontext
    refine List.Subset.trans (fun source hsource => ?_) h.references
    exact List.mem_append_right _
      (List.mem_flatMap.mpr ⟨c4Context, Option.mem_toList.mpr hcontext, hsource⟩)
  have hitem : Agree packet.sourceIds (evaluateItem rules (searched packet policy .complete))
      (evaluateItem rules (searched packet policy state)) := by
    unfold evaluateItem
    have hkept : ∀ state, (packet.withSearch state).item = packet.item := fun _ => rfl
    simp only [hkept]
    cases packet.item with
    | c1 => exact C1.evaluate_agree hstate hexplanation
    | c2 => exact C2.evaluate_agree hstate hexplanation
    | c3 => exact C3.evaluate_agree hstate hexplanation hc3
    | c4 => exact C4.evaluate_agree hstate hc4
    | c5 => exact Agree.error _
  unfold decideOutcome
  have hgated : ∀ state, policyGate (packet.withSearch state) policy = policyGate packet policy :=
    fun _ => rfl
  have hkept : ∀ state, (packet.withSearch state).comparability = packet.comparability :=
    fun _ => rfl
  simp only [hgated, hkept]
  cases hgate : policyGate packet policy with
  | some gate =>
    unfold policyGate at hgate
    split_ifs at hgate
    all_goals
      cases hgate
      exact Agree.blocked (by decide)
  | none =>
    cases packet.comparability with
    | notComparable => exact Agree.completed (by decide) (by decide)
    | unknown => exact Agree.blocked (by decide)
    | comparable =>
      refine Agree.ite (Agree.blocked (by decide)) ?_
      exact Agree.ite (Agree.blocked (by decide)) hitem

/-! ### The output -/

theorem listSources_nodup (candidates : List (Option String))
    (h : ordered.Nodup) : (listSources candidates ordered).Nodup := by
  induction candidates generalizing ordered with
  | nil => exact h
  | cons candidate candidates ih =>
    cases candidate with
    | none => exact ih h
    | some sourceId =>
      unfold listSources
      split_ifs with hlisted
      · exact ih h
      · refine ih (List.nodup_append.mpr ⟨h, List.nodup_singleton _, ?_⟩)
        rintro first hfirst second hsecond rfl
        exact hlisted (List.mem_singleton.mp hsecond ▸ hfirst)

theorem mem_listSources {candidates : List (Option String)}
    {sourceId : String} (h : sourceId ∈ listSources candidates ordered) :
    sourceId ∈ ordered ∨ some sourceId ∈ candidates := by
  induction candidates generalizing ordered with
  | nil => exact Or.inl h
  | cons candidate candidates ih =>
    cases candidate with
    | none => exact (ih h).imp_right (List.mem_cons_of_mem _)
    | some first =>
      unfold listSources at h
      split_ifs at h with hlisted
      · exact (ih h).imp_right (List.mem_cons_of_mem _)
      · rcases ih h with hordered | hlater
        · rcases List.mem_append.mp hordered with hold | hnew
          · exact Or.inl hold
          · rw [List.mem_singleton.mp hnew]
            exact Or.inr List.mem_cons_self
        · exact Or.inr (List.mem_cons_of_mem _ hlater)

theorem sourceIds_subset (h : Validated packet)
    (hsources : outcome.extraSourceIds ⊆ packet.sourceIds) :
    sourceIds packet outcome ⊆ packet.sourceIds := by
  intro sourceId hmem
  rcases mem_listSources hmem with hnone | hcandidate
  · cases hnone
  · have hfact : ∀ fact, fact = packet.sustainability ∨ fact = packet.financial →
        fact.sourceId = some sourceId → sourceId ∈ packet.sourceIds := by
      intro fact hside hid
      refine h.references ?_
      simp only [referenced, List.mem_cons, List.mem_append, List.cons_append, Option.mem_toList]
      rcases hside with rfl | rfl <;> simp [hid]
    rcases List.mem_cons.mp hcandidate with hfirst | hrest
    · exact hfact _ (Or.inl rfl) hfirst.symm
    · rcases List.mem_cons.mp hrest with hsecond | hextra
      · exact hfact _ (Or.inr rfl) hsecond.symm
      · obtain ⟨source, hsource, heq⟩ := List.mem_map.mp hextra
        cases heq
        exact hsources hsource

def OutputFlips (complete incomplete : Output) : Prop :=
  (complete.status ≠ some .needsExplanation ∧ .searchIncomplete ∉ complete.reasonCodes ∧
      incomplete = { complete with packetSha256 := incomplete.packetSha256 }) ∨
    complete.status = some .needsExplanation ∧ .searchIncomplete ∉ complete.reasonCodes ∧
      incomplete =
        { complete with
          executionState := .blocked
          status := none
          reviewRequired := true
          reasonCodes := [.searchIncomplete]
          packetSha256 := incomplete.packetSha256 }

theorem Flips.project (h : Flips packet.sourceIds first second) :
    OutputFlips (project rules (packet.withSearch .complete) policy first)
      (project rules (packet.withSearch state) policy second) := by
  cases h with
  | same _ hstatus hreasons hsources => exact Or.inl ⟨hstatus, hreasons, rfl⟩
  | missing reasons sources hreasons hsources => exact Or.inr ⟨rfl, hreasons, rfl⟩

theorem evaluate_ok_iff {output : Output} :
    evaluate rules packet policy = .ok output ↔ packet.item ≠ .c5 ∧
      validatePolicy policy = .ok () ∧ validatePacket rules packet = .ok () ∧
      ∃ outcome, decideOutcome rules packet policy = .ok outcome ∧
        project rules packet policy outcome = output := by
  unfold evaluate
  split_ifs with hitem
  · simp [hitem]
  · constructor
    · intro h
      obtain ⟨⟨⟩, hpolicy, h⟩ := bind_ok h
      obtain ⟨⟨⟩, hpacket, h⟩ := bind_ok h
      obtain ⟨outcome, houtcome, h⟩ := bind_ok h
      exact ⟨hitem, hpolicy, hpacket, outcome, houtcome, pure_ok h⟩
    · rintro ⟨-, hpolicy, hpacket, outcome, houtcome, rfl⟩
      exact bind_ok_iff.mpr ⟨(), hpolicy, bind_ok_iff.mpr ⟨(), hpacket,
        bind_ok_iff.mpr ⟨outcome, houtcome, rfl⟩⟩⟩

theorem flips_of_complete (h : Validated packet) (hstate : state ≠ .complete)
    (hfirst : decideOutcome rules (packet.withSearch .complete) policy = .ok first) :
    ∃ second, decideOutcome rules (packet.withSearch state) policy = .ok second ∧
      Flips packet.sourceIds first second := by
  rcases @decideOutcome_agree rules packet policy state h hstate with ⟨raised, herror, -⟩ | hboth
  · rw [hfirst] at herror
    cases herror
  · obtain ⟨complete, second, hcomplete, hsecond, hflips⟩ := hboth
    rw [hfirst] at hcomplete
    cases hcomplete
    exact ⟨second, hsecond, hflips⟩

theorem flips_of_incomplete (h : Validated packet) (hstate : state ≠ .complete)
    (hsecond : decideOutcome rules (packet.withSearch state) policy = .ok second) :
    ∃ first, decideOutcome rules (packet.withSearch .complete) policy = .ok first ∧
      Flips packet.sourceIds first second := by
  rcases @decideOutcome_agree rules packet policy state h hstate with ⟨raised, -, herror⟩ | hboth
  · rw [hsecond] at herror
    cases herror
  · obtain ⟨first, incomplete, hfirst, hincomplete, hflips⟩ := hboth
    rw [hsecond] at hincomplete
    cases hincomplete
    exact ⟨first, hfirst, hflips⟩

theorem decideOutcome_sound (h : Validated packet)
    (houtcome : decideOutcome rules packet policy = .ok outcome) :
    outcome.extraSourceIds ⊆ packet.sourceIds ∧
      (outcome.status = some .needsExplanation → packet.search.state = .complete) := by
  have hself := h.withSearch_self
  by_cases hstate : packet.search.state = .complete
  · rw [← hself, hstate] at houtcome
    obtain ⟨second, -, hflips⟩ := flips_of_complete h (by decide : SearchState.incomplete ≠ .complete)
      houtcome
    refine ⟨?_, fun _ => hstate⟩
    cases hflips with
    | same _ hstatus hreasons hsources | missing reasons sources hreasons hsources => exact hsources
  · rw [← hself] at houtcome
    obtain ⟨first, -, hflips⟩ := flips_of_incomplete h hstate houtcome
    cases hflips with
    | same _ hstatus hreasons hsources => exact ⟨hsources, fun hmissing => absurd hmissing hstatus⟩
    | missing reasons sources hreasons hsources =>
      refine ⟨hsources, fun hmissing => ?_⟩
      cases hmissing

/-- **A missing explanation is only claimed after a complete search.**  In every output
the status is null exactly when the result is blocked, which is when review is required;
the source identifiers are known and listed once.  Taking a complete search for an
incomplete one is accepted too, and it leaves the output as it was but for the hash of
the packet, unless the output claims a missing explanation: then, and only then, it is
blocked with the reason `search_incomplete`.  The same holds the other way round. -/
theorem missing_explanation_after_complete_search (rules : EngineRules) (packet : Packet)
    (policy : Policy) (output : Output) (h : evaluate rules packet policy = .ok output) :
    (output.status = none ↔ output.executionState = .blocked) ∧
      (output.executionState = .blocked ↔ output.reviewRequired = true) ∧
      output.sourceIds.Nodup ∧ output.sourceIds ⊆ packet.sourceIds ∧
      (output.status = some .needsExplanation → packet.search.state = .complete) ∧
      (packet.search.state = .complete → ∀ state, state ≠ .complete →
        ∃ other, evaluate rules (packet.withSearch state) policy = .ok other ∧
          OutputFlips output other) ∧
      (packet.search.state ≠ .complete → ∀ other,
        evaluate rules (packet.withSearch .complete) policy = .ok other →
          OutputFlips other output) := by
  obtain ⟨hitem, hpolicy, hpacket, outcome, houtcome, rfl⟩ := evaluate_ok_iff.mp h
  have hvalid := validatePacket_ok hpacket
  obtain ⟨hsources, hcomplete⟩ := decideOutcome_sound hvalid houtcome
  have hself := hvalid.withSearch_self
  refine ⟨?_, ?_, listSources_nodup _ List.nodup_nil, sourceIds_subset hvalid hsources, hcomplete,
    fun hstate state hother => ?_, fun hstate other hother => ?_⟩
  · cases outcome <;> simp [project, Outcome.status, Outcome.executionState]
  · cases outcome <;> simp [project, Outcome.executionState]
  · have hincomplete := validatePacket_incomplete hpacket hother
    rw [← hself, hstate] at houtcome ⊢
    obtain ⟨second, hsecond, hflips⟩ := flips_of_complete hvalid hother houtcome
    refine ⟨project rules (packet.withSearch state) policy second, ?_, hflips.project⟩
    exact evaluate_ok_iff.mpr ⟨hitem, hpolicy, hincomplete, second, hsecond, rfl⟩
  · obtain ⟨-, -, -, first, hfirst, rfl⟩ := evaluate_ok_iff.mp hother
    rw [← hself] at houtcome ⊢
    obtain ⟨second, hsecond, hflips⟩ := flips_of_complete hvalid hstate hfirst
    rw [houtcome] at hsecond
    cases hsecond
    exact hflips.project

end Engine

def plainRules : EngineRules where
  loads := fun _ => .error .valueError
  packetSha256 := fun packet =>
    if packet.search.state = .complete then "hash of the complete packet"
    else "hash of the incomplete packet"
  policySha256 := fun policy => policy.version

def plainPolicy : Policy where
  schemaVersion := "1.1"
  version := "1"
  approved := true
  syntheticOnly := false
  currentStage := 1
  enabledItems := [.c1, .c2, .c3, .c4]
  c1IdentityRule := "exact_verified_entity_set"
  c3Threshold := some "0.5"
  c3AccountMappingApproved := true
  approvedBy := some "owner"
  approvedOn := some "2026-01-01"
  sourcePolicySha256 := "0123456789abcdef0123456789abcdef0123456789abcdef0123456789abcdef"
  allowedCapexAccountIds := []
  coveragePolicyId := "coverage"
  allowedDifferenceTypes := []
  c2TimingRule := "same_period_or_verified_explanation"
  c4RequiredExplanations := ["definition", "calculation_basis"]

def plainPacket (sustainability financial : String) : Packet where
  schemaVersion := "1.1"
  synthetic := false
  identity :=
    { tenantId := "tenant"
      companyId := "company"
      claimId := "claim"
      packageId := "package"
      periodStart := some "2024-01-01"
      periodEnd := some "2024-12-31"
      sustainabilityDocumentVersion := "report"
      financialDocumentVersion := "filing"
      dartCorpCode := "00126380"
      financialFiscalYear := 2024
      consolidation := .consolidated
      financialPeriodStart := some "2024-01-01"
      financialPeriodEnd := some "2024-12-31"
      srPublishedAt := none
      financialPublishedAt := none
      rceptNo := none
      asOfDate := "2025-06-30" }
  item := .c2
  sources :=
    [{ sourceId := "s1"
       documentId := "report"
       artifactSha256 := "0123456789abcdef0123456789abcdef0123456789abcdef0123456789abcdef"
       locator := "p1"
       quote := "2024" }]
  sustainability := ⟨some "2024", some sustainability, .period, none, some "s1"⟩
  financial := ⟨some "2024", some financial, .period, none, none⟩
  comparability := .comparable
  explanation := ⟨none, true⟩
  c3Context := none
  claim := ⟨.performance, "2024", "s1", [], 2024⟩
  search := ⟨.complete, some "coverage", ["report"], ["s1"], [], some "receipt"⟩
  c4Context := none

theorem search_flip_changes_packet_hash :
    (evaluate plainRules (plainPacket "2024-01-01/2024-12-31" "2024-01-01/2024-12-31")
        plainPolicy).map (fun output => (output.status, output.packetSha256)) =
        .ok (some .matched, "hash of the complete packet") ∧
      (evaluate plainRules
        ((plainPacket "2024-01-01/2024-12-31" "2024-01-01/2024-12-31").withSearch .incomplete)
        plainPolicy).map (fun output => (output.status, output.packetSha256)) =
        .ok (some .matched, "hash of the incomplete packet") := by
  decide +kernel

def plainOutput : Output where
  schemaVersion := "1.1"
  claimId := "claim"
  item := .c2
  executionState := .completed
  status := some .needsExplanation
  reviewRequired := false
  reasonCodes := [.explanationNotFound]
  sourceIds := ["s1"]
  explanationSourceId := none
  sustainabilityValue := some "2024"
  financialValue := some "2024"
  packetSha256 := "hash of the complete packet"
  policySha256 := "1"
  synthetic := false
  engineVersion := "reconciliation-engine-1.2.0"

theorem missing_explanation_of_two_periods :
    plainOutput.status = some .needsExplanation ∧
      ∃ other, evaluate plainRules
        ((plainPacket "2024-01-01/2024-12-31" "2023-01-01/2024-12-31").withSearch .notRun)
        plainPolicy = .ok other ∧ OutputFlips plainOutput other :=
  ⟨rfl, (missing_explanation_after_complete_search plainRules
    (plainPacket "2024-01-01/2024-12-31" "2023-01-01/2024-12-31") plainPolicy plainOutput
    (by decide +kernel)).2.2.2.2.2.1 rfl .notRun (by decide)⟩

end ProofOps.Domain.Reconciliation
