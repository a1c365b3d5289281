import ProofOps.Domain.Rules.Outcome

/-!
# Settling facts

`Settles` relates a tag revision to one in which open facts were resolved and
missing ones were added; `Refines` is what that says about a state reading.  The
exceptions are monotone for it: the superlative and product rules keep a clear
effect, and the ordinal qualification keeps a settled reading.
-/

namespace ProofOps.Domain.Rules

open Foundation Foundation.Checked

/-- The state can still be resolved. -/
def FactState.Open (state : FactState) : Prop :=
  state = .unknown ∨ state = .conflict ∨ state = .notApplicable

instance (state : FactState) : Decidable state.Open :=
  inferInstanceAs (Decidable (_ ∨ _ ∨ _))

structure Settles (addable : ConfirmedFact → Prop) (tags settled : ConfirmedTags) : Prop where
  track_eq : settled.track = tags.track
  harbor_eq : settled.safeHarborCategory = tags.safeHarborCategory
  quote_eq : settled.superlativeQuote = tags.superlativeQuote
  variant_eq : settled.productVariant = tags.productVariant
  kept_or_resolved : ∀ fact ∈ tags.facts, fact ∈ settled.facts ∨
    fact.state.Open ∧ ∃ resolved ∈ settled.facts, resolved.name = fact.name ∧
      resolved.state.Resolved
  added : ∀ fact ∈ settled.facts, (∀ earlier ∈ tags.facts, earlier.name ≠ fact.name) →
    addable fact ∧ fact.state.Resolved

instance (addable : ConfirmedFact → Prop) [DecidablePred addable] (tags settled : ConfirmedTags) :
    Decidable (Settles addable tags settled) :=
  decidable_of_iff
    (settled.track = tags.track ∧ settled.safeHarborCategory = tags.safeHarborCategory ∧
      settled.superlativeQuote = tags.superlativeQuote ∧
      settled.productVariant = tags.productVariant ∧
      (∀ fact ∈ tags.facts, fact ∈ settled.facts ∨
        fact.state.Open ∧ ∃ resolved ∈ settled.facts, resolved.name = fact.name ∧
          resolved.state.Resolved) ∧
      ∀ fact ∈ settled.facts, (∀ earlier ∈ tags.facts, earlier.name ≠ fact.name) →
        addable fact ∧ fact.state.Resolved)
    ⟨fun ⟨h₁, h₂, h₃, h₄, h₅, h₆⟩ => ⟨h₁, h₂, h₃, h₄, h₅, h₆⟩,
      fun ⟨h₁, h₂, h₃, h₄, h₅, h₆⟩ => ⟨h₁, h₂, h₃, h₄, h₅, h₆⟩⟩

def Refines (coarse fine : String → FactState) : Prop :=
  ∀ name, (coarse name).Resolved → fine name = coarse name

structure Neutral (pack : RulePackSnapshot) (tags : ConfirmedTags) (fact : ConfirmedFact) :
    Prop where
  superlative : pack.superlativeEnabled = true → fact.name = "has_superlative" →
    fact.state ≠ .present
  ordinal : tags.track = .performance → fact.name ≠ "categorical_ordinal"

instance (pack : RulePackSnapshot) (tags : ConfirmedTags) :
    DecidablePred (Neutral pack tags) := fun fact =>
  decidable_of_iff
    ((pack.superlativeEnabled = true → fact.name = "has_superlative" → fact.state ≠ .present) ∧
      (tags.track = .performance → fact.name ≠ "categorical_ordinal"))
    ⟨fun ⟨h₁, h₂⟩ => ⟨h₁, h₂⟩, fun ⟨h₁, h₂⟩ => ⟨h₁, h₂⟩⟩

variable {state : FactState} {analysisScope : Bool}

theorem FactState.scoped_resolved_of_resolved (h : state.Resolved) :
    state.scoped analysisScope = state := by
  rcases h with rfl | rfl <;> cases analysisScope <;> rfl

theorem FactState.Open.scoped (h : state.Open) : ¬(state.scoped analysisScope).Resolved := by
  rcases h with rfl | rfl | rfl <;> cases analysisScope <;> decide

variable {name : String} {fact : ConfirmedFact}

section Settling

variable {addable : ConfirmedFact → Prop} {tags settled : ConfirmedTags}

theorem Settles.fact?_kept (h : Settles addable tags settled)
    (hfact : tags.fact? name = some fact) (hclosed : ¬fact.state.Open) :
    settled.fact? name = some fact := by
  obtain ⟨hmem, rfl⟩ := tags.fact?_eq_some_iff.mp hfact
  rcases h.kept_or_resolved fact hmem with hkept | ⟨hopen, -⟩
  · exact settled.fact?_eq_some_iff.mpr ⟨hkept, rfl⟩
  · exact absurd hopen hclosed

theorem Settles.fact?_added (h : Settles addable tags settled) (hnone : tags.fact? name = none)
    (hfact : settled.fact? name = some fact) : addable fact ∧ fact.state.Resolved := by
  obtain ⟨hmem, rfl⟩ := settled.fact?_eq_some_iff.mp hfact
  exact h.added fact hmem (tags.fact?_eq_none_iff.mp hnone)

theorem Settles.fact?_isSome (h : Settles addable tags settled)
    (hsome : (tags.fact? name).isSome = true) : (settled.fact? name).isSome = true := by
  obtain ⟨fact, hfact⟩ := Option.isSome_iff_exists.mp hsome
  obtain ⟨hmem, rfl⟩ := tags.fact?_eq_some_iff.mp hfact
  rw [Option.isSome_iff_exists]
  rcases h.kept_or_resolved fact hmem with hkept | ⟨-, resolved, hresolved, hname, -⟩
  · exact ⟨fact, settled.fact?_eq_some_iff.mpr ⟨hkept, rfl⟩⟩
  · exact ⟨resolved, settled.fact?_eq_some_iff.mpr ⟨hresolved, hname⟩⟩

/-- Settling only resolves states. -/
theorem Settles.refines (h : Settles addable tags settled) (analysisScope : Bool) :
    Refines (readState analysisScope tags) (readState analysisScope settled) := by
  intro name hresolved
  unfold readState ConfirmedTags.factState at hresolved ⊢
  cases hfact : tags.fact? name with
  | none =>
    simp only [hfact] at hresolved
    exact absurd hresolved (FactState.Open.scoped (Or.inl rfl))
  | some fact =>
    simp only [hfact] at hresolved ⊢
    have hclosed : ¬fact.state.Open := fun hopen => hopen.scoped hresolved
    simp only [h.fact?_kept hfact hclosed]

end Settling

variable {coarse fine : String → FactState}

theorem Refines.present (h : Refines coarse fine)
    (hstate : coarse name = .present) : fine name = .present := by
  rw [h name (Or.inl hstate), hstate]

theorem Refines.absent (h : Refines coarse fine)
    (hstate : coarse name = .absent) : fine name = .absent := by
  rw [h name (Or.inr hstate), hstate]

/-! ### The exceptions -/

/-- A resolved qualification stays as it is. -/
theorem ordinalState_refines (h : Refines coarse fine)
    (hresolved : (ordinalState coarse).Resolved) : ordinalState fine = ordinalState coarse := by
  unfold ordinalState at hresolved ⊢
  simp only [ordinalOperands, List.map_cons, List.map_nil, List.all_cons, List.all_nil,
    Bool.and_true, Bool.and_eq_true, beq_iff_eq, List.contains_eq_mem, List.mem_cons,
    List.not_mem_nil, or_false, decide_eq_true_eq] at hresolved ⊢
  by_cases hpresent : coarse "categorical_ordinal" = .present ∧
      coarse "certification_provider" = .present
  · rw [if_pos hpresent, if_pos ⟨h.present hpresent.1, h.present hpresent.2⟩]
  · rw [if_neg hpresent] at hresolved ⊢
    by_cases habsent : FactState.absent = coarse "categorical_ordinal" ∨
        FactState.absent = coarse "certification_provider"
    · rw [if_pos habsent]
      have hfine : FactState.absent = fine "categorical_ordinal" ∨
          FactState.absent = fine "certification_provider" :=
        habsent.imp (fun hname => (h.absent hname.symm).symm)
          (fun hname => (h.absent hname.symm).symm)
      rw [if_neg, if_pos hfine]
      rintro ⟨hfirst, hsecond⟩
      rcases hfine with hname | hname
      · rw [hfirst] at hname; cases hname
      · rw [hsecond] at hname; cases hname
    · rw [if_neg habsent] at hresolved
      split_ifs at hresolved <;> exact absurd hresolved (by decide)

variable {rule : SuperlativeRule} {effect effect' : ExceptionEffect}

section Effects

variable {pack : RulePackSnapshot} {tags settled : ConfirmedTags} {analysisScope dec127 : Bool}

theorem hasSuperlative_settled_eq_false
    (h : Settles (Neutral pack tags) tags settled) (hrule : pack.superlativeRule = .ok rule)
    (henabled : rule.enabled = true) (hhas : hasSuperlative tags (readState dec127 tags) = false) :
    hasSuperlative settled (readState dec127 settled) = false := by
  simp only [hasSuperlative, Bool.or_eq_false_iff, Bool.and_eq_false_iff, bne_eq_false_iff_eq,
    h.quote_eq] at hhas ⊢
  refine ⟨hhas.1, ?_⟩
  rcases hhas.2 with hnone | habsent
  · rw [Option.isSome_eq_false_iff, Option.isNone_iff_eq_none] at hnone
    cases hfact : settled.fact? "has_superlative" with
    | none => exact Or.inl rfl
    | some fact =>
      obtain ⟨hneutral, hresolved⟩ := h.fact?_added hnone hfact
      have hname := (settled.fact?_eq_some_iff.mp hfact).2
      have hstate : fact.state = .absent :=
        hresolved.resolve_left
          (hneutral.superlative ((RulePackSnapshot.superlativeEnabled_eq hrule).trans henabled) hname)
      refine Or.inr ?_
      simp only [readState, ConfirmedTags.factState, hfact, hstate]
      exact FactState.scoped_resolved_of_resolved (Or.inr rfl)
  · exact Or.inr ((h.refines dec127).absent habsent)

theorem superlativeSourced_settled {addable : ConfirmedFact → Prop}
    (h : Settles addable tags settled) (hsourced : superlativeSourced tags = true) :
    superlativeSourced settled = true := by
  unfold superlativeSourced at hsourced ⊢
  cases hfact : tags.fact? "has_superlative" with
  | none => simp [hfact] at hsourced
  | some original =>
    have hpresent : original.state = .present := by
      cases hquote : tags.superlativeQuote with
      | none => simp [hfact, hquote] at hsourced
      | some quote =>
        simp only [hfact, hquote, Bool.and_eq_true, beq_iff_eq] at hsourced
        exact hsourced.1.1.1
    have hclosed : ¬original.state.Open := by
      rw [hpresent]
      decide
    rw [h.fact?_kept hfact hclosed, h.quote_eq]
    rwa [hfact] at hsourced

/-- A sourced superlative is one. -/
theorem hasSuperlative_of_sourced {state : String → FactState}
    (hsourced : superlativeSourced tags = true) : hasSuperlative tags state = true := by
  unfold superlativeSourced at hsourced
  unfold hasSuperlative
  cases hfact : tags.fact? "has_superlative" with
  | none => simp [hfact] at hsourced
  | some original =>
    cases hquote : tags.superlativeQuote with
    | none => simp [hfact, hquote] at hsourced
    | some quote =>
      simp only [hfact, hquote, Bool.and_eq_true] at hsourced
      simp [PyText.truthy, hsourced.1.1.2]

theorem superlativeOperands_settled (h : Refines coarse fine) (hclear : ∀ elements,
      (if superlativeOperands.all (fun name => coarse name == .absent) then
          SuperlativeReading.override
        else if superlativeOperands.any (fun name => coarse name == .present) then
          .unresolved []
        else
          .unresolved (superlativeOperands.filter fun name => coarse name != .absent)) =
        .unresolved elements → elements = []) :
    (if superlativeOperands.all (fun name => fine name == .absent) then
        SuperlativeReading.override
      else if superlativeOperands.any (fun name => fine name == .present) then
        .unresolved []
      else
        .unresolved (superlativeOperands.filter fun name => fine name != .absent)) =
      if superlativeOperands.all (fun name => coarse name == .absent) then .override
      else if superlativeOperands.any (fun name => coarse name == .present) then .unresolved []
      else .unresolved (superlativeOperands.filter fun name => coarse name != .absent) := by
  by_cases hall : superlativeOperands.all (fun name => coarse name == .absent) = true
  · have hfine : superlativeOperands.all (fun name => fine name == .absent) = true := by
      rw [List.all_eq_true] at hall ⊢
      intro name hname
      simpa using h.absent (by simpa using hall name hname)
    rw [if_pos hall, if_pos hfine]
  · rw [if_neg hall] at hclear ⊢
    by_cases hany : superlativeOperands.any (fun name => coarse name == .present) = true
    · obtain ⟨name, hname, hpresent⟩ := List.any_eq_true.mp hany
      have hfine : fine name = .present := h.present (by simpa using hpresent)
      have hnotall : ¬superlativeOperands.all (fun name => fine name == .absent) = true := by
        rw [List.all_eq_true]
        intro habsent
        have := habsent name hname
        simp [hfine] at this
      have hfineAny : superlativeOperands.any (fun name => fine name == .present) = true :=
        List.any_eq_true.mpr ⟨name, hname, by simp [hfine]⟩
      rw [if_neg hnotall, if_pos hfineAny, if_pos hany]
    · -- No operand is present and not all are absent, so one would stay unresolved.
      rw [if_neg hany] at hclear
      have hempty := hclear _ rfl
      refine absurd ?_ hall
      rw [List.all_eq_true]
      intro name hname
      have := List.filter_eq_nil_iff.mp hempty name hname
      simpa using this

theorem superlativeReading_settled
    (h : Settles (Neutral pack tags) tags settled) (hrule : pack.superlativeRule = .ok rule)
    (hclear : ∀ elements, superlativeReading rule tags (readState dec127 tags) =
      .unresolved elements → elements = []) :
    superlativeReading rule settled (readState dec127 settled) =
      superlativeReading rule tags (readState dec127 tags) := by
  have hrefines := h.refines dec127
  cases henabled : rule.enabled with
  | false => simp [superlativeReading, henabled]
  | true =>
    cases hhas : hasSuperlative tags (readState dec127 tags) with
    | false =>
      simp [superlativeReading, hhas, hasSuperlative_settled_eq_false h hrule henabled hhas]
    | true =>
      simp only [superlativeReading, hhas, henabled, Bool.and_true, if_true] at hclear ⊢
      by_cases hsourced : superlativeSourced tags = true
      · have hsettled := superlativeSourced_settled h hsourced
        rw [if_pos (hasSuperlative_of_sourced hsettled), if_pos hsettled, if_pos hsourced]
        rw [if_pos hsourced] at hclear
        exact superlativeOperands_settled hrefines hclear
      · rw [if_neg hsourced] at hclear
        exact absurd (hclear _ rfl) (List.cons_ne_nil _ _)

def OrdinalRefines : Option FactState → Option FactState → Prop
  | none, none => True
  | some coarse, some fine => coarse.Resolved → fine = coarse
  | _, _ => False

theorem OrdinalRefines.refl (ordinal : Option FactState) : OrdinalRefines ordinal ordinal := by
  cases ordinal with
  | none => trivial
  | some state => exact fun _ => rfl

theorem ordinalReading_settled {ordinal ordinal' : Option FactState}
    (h : Settles (Neutral pack tags) tags settled)
    (hordinal : ordinalReading tags (readState dec127 tags) = .ok ordinal)
    (hordinal' : ordinalReading settled (readState dec127 settled) = .ok ordinal') :
    OrdinalRefines ordinal ordinal' := by
  rw [ordinalReading_ok hordinal, ordinalReading_ok hordinal', h.track_eq]
  by_cases htrack : tags.track = .performance
  · by_cases hcarries : (tags.fact? "categorical_ordinal").isSome = true
    · rw [if_pos ⟨htrack, hcarries⟩, if_pos ⟨htrack, h.fact?_isSome hcarries⟩]
      exact ordinalState_refines (h.refines dec127)
    · have hsettled : ¬(settled.fact? "categorical_ordinal").isSome = true := by
        intro hsome
        obtain ⟨fact, hfact⟩ := Option.isSome_iff_exists.mp hsome
        rw [Option.not_isSome_iff_eq_none] at hcarries
        have hname := (settled.fact?_eq_some_iff.mp hfact).2
        exact (h.fact?_added hcarries hfact).1.ordinal htrack hname
      rw [if_neg fun h => hcarries h.2, if_neg fun h => hsettled h.2]
      trivial
  · rw [if_neg fun h => htrack h.1, if_neg fun h => htrack h.1]
    trivial

theorem productReading_settled {product product' : ExceptionEffect}
    (h : Settles (Neutral pack tags) tags settled)
    (hproduct : productReading tags pack (readState dec127 tags) = .ok product)
    (hproduct' : productReading settled pack (readState dec127 settled) = .ok product')
    (hclear : product.Clear) : product' = product := by
  rcases productReading_clear hproduct hclear with
    ⟨hvariant, rfl⟩ | ⟨hvariant, htrack, rule, hrule, habsent, rfl⟩
  · simp only [productReading, h.variant_eq, hvariant, Bool.false_eq_true, if_false,
      pure_ok_iff] at hproduct'
    exact hproduct'.symm
  · simp only [productReading, h.variant_eq, hvariant, h.track_eq, htrack, if_true,
      bne_self_eq_false, Bool.false_eq_true, if_false] at hproduct'
    obtain ⟨rule', hrule', hproduct'⟩ := bind_ok hproduct'
    rw [hrule, Except.ok.injEq] at hrule'
    subst hrule'
    rw [(h.refines dec127).absent habsent] at hproduct'
    exact (pure_ok hproduct').symm

theorem effect_settled {context context' : RuleContext}
    (h : Settles (Neutral pack tags) tags settled)
    (heffect : applySourceExceptions tags context pack dec127 = .ok effect)
    (heffect' : applySourceExceptions settled context' pack dec127 = .ok effect')
    (hclear : effect.Clear) :
    effect'.Clear ∧ effect'.overrideGrade = effect.overrideGrade ∧
      effect'.capGrade = effect.capGrade ∧
      OrdinalRefines effect.ordinalState effect'.ordinalState := by
  obtain ⟨-, special, hspecial, hcases⟩ := applySourceExceptions_ok heffect
  obtain ⟨-, special', hspecial', hcases'⟩ := applySourceExceptions_ok heffect'
  rw [hspecial, Except.ok.injEq] at hspecial'
  subst hspecial'
  rcases hcases with ⟨-, hgaps, -⟩ | ⟨hharbor, hcases⟩
  · exact absurd hclear.1 hgaps
  · rw [h.harbor_eq] at hcases'
    rcases hcases' with ⟨hharbor', -⟩ | ⟨-, hcases'⟩
    · rw [hharbor] at hharbor'
      cases hharbor'
    · have hreading : superlativeReading special settled (readState dec127 settled) =
          superlativeReading special tags (readState dec127 tags) := by
        refine superlativeReading_settled h hspecial fun elements helements => ?_
        rcases hcases with ⟨hoverride, -⟩ | ⟨elements', -, product, hread, -, -, -, -, -, hun, -⟩
        · rw [hoverride] at helements
          cases helements
        · rw [hread] at helements
          cases helements
          have hunresolved := hclear.2
          rw [hun, List.append_eq_nil_iff] at hunresolved
          exact hunresolved.1
      rw [hreading] at hcases'
      rcases hcases with ⟨hread, rfl⟩ |
        ⟨elements, ordinal, product, hread, hordinal, hproduct, hover, hcap, hgaps, hun, hord⟩
      · rcases hcases' with ⟨-, rfl⟩ | ⟨elements', -, -, hread', -⟩
        · exact ⟨⟨rfl, rfl⟩, rfl, rfl, trivial⟩
        · rw [hread] at hread'
          cases hread'
      · rcases hcases' with ⟨hread', -⟩ |
          ⟨elements', ordinal', product', hread', hordinal', hproduct', hover', hcap', hgaps',
            hun', hord'⟩
        · rw [hread] at hread'
          cases hread'
        · rw [hread] at hread'
          cases hread'
          have hunresolved := hclear.2
          rw [hun, List.append_eq_nil_iff] at hunresolved
          have hproductClear : product.Clear := ⟨hgaps ▸ hclear.1, hunresolved.2⟩
          have hsame := productReading_settled h hproduct hproduct' hproductClear
          subst hsame
          refine ⟨⟨hgaps'.trans (hgaps ▸ hclear.1), ?_⟩, hover'.trans hover.symm,
            hcap'.trans hcap.symm, ?_⟩
          · rw [hun', ← hun]
            exact hclear.2
          · rw [hord, hord']
            exact ordinalReading_settled h hordinal hordinal'

end Effects

/-- The engine's states are only refined. -/
theorem engineState_refines {tags tags' : ConfirmedTags} {analysisScope' : Bool}
    (h : Refines (readState analysisScope tags) (readState analysisScope' tags'))
    (hordinal : OrdinalRefines effect.ordinalState effect'.ordinalState) :
    Refines (engineState effect analysisScope tags) (engineState effect' analysisScope' tags') := by
  intro name hresolved
  unfold engineState at hresolved ⊢
  cases hcoarse : effect.ordinalState with
  | none =>
    cases hfine : effect'.ordinalState with
    | none =>
      simp only [hcoarse] at hresolved ⊢
      exact h name hresolved
    | some fine => simp [OrdinalRefines, hcoarse, hfine] at hordinal
  | some coarse =>
    cases hfine : effect'.ordinalState with
    | none => simp [OrdinalRefines, hcoarse, hfine] at hordinal
    | some fine =>
      simp only [hcoarse, hfine, OrdinalRefines] at hordinal hresolved ⊢
      by_cases hname : ordinalPrimitives.contains name = true
      · rw [if_pos hname] at hresolved ⊢
        rw [if_pos hname, hordinal hresolved]
      · rw [if_neg hname] at hresolved ⊢
        rw [if_neg hname]
        exact h name hresolved

end ProofOps.Domain.Rules
