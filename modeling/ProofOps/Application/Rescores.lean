import ProofOps.Domain.Rules.Selection
import ProofOps.Domain.Rules.Soundness

/-!
# Rules-only rescoring

`create_rescore` re-judges a confirmed tag revision under another pack, or
refuses with the reasons the tags cannot be reused.  The facts it asks for are
collected apart from the evaluator that reads them.
-/

namespace ProofOps.Application.Rescores

open Foundation Foundation.Checked Domain Domain.Rules

structure RescorePack (Value : Type) where
  snapshot : RulePackSnapshot
  meaning : String → Value
  checklists : Option Value

/-- `RetagRequired`. -/
inductive RescoreOutcome where
  | decided (decision : Decision)
  | retagRequired (reasons : List String)

variable {Value : Type} [DecidableEq Value]

def definitionReasons (new previous : RescorePack Value) (after before : ElementDefinition) :
    List String :=
  (if before.trigger ≠ after.trigger ∨ previous.meaning after.id ≠ new.meaning after.id then
    ["ELEMENT_MEANING_CHANGED:" ++ after.id] else []) ++
  if after.sourceScopes.all before.sourceScopes.contains then []
  else ["SOURCE_SCOPES_EXPANDED:" ++ after.id]

def elementReasons (new previous : RescorePack Value) (fresh old : List ElementDefinition) :
    List String :=
  (if (∀ after ∈ fresh, ∃ before ∈ old, before.id = after.id) ∧
      ∀ before ∈ old, ∃ after ∈ fresh, before.id = after.id then []
    else ["ELEMENT_SET_CHANGED"]) ++
  fresh.flatMap fun after =>
    (old.filter (·.id = after.id)).flatMap (definitionReasons new previous after)

def RescorePack.checklistsFile (pack : RescorePack Value) : Except PyError Value :=
  orRaise pack.checklists (.keyError "unknown rule file: regulatory/safe_harbor.yaml")

/-! ### The facts a rescore asks for -/

variable (tags : ConfirmedTags) (definition : ElementDefinition)

def skipsElement : Bool :=
  PyText.truthy definition.trigger &&
    (tags.fact? (definition.trigger.getD "")).any (·.state == .absent)

def elementFacts (names : List String) : List String :=
  (if PyText.truthy definition.trigger then [definition.trigger.getD ""] else []) ++
    if skipsElement tags definition then [] else names

def scopeReasons (names : List String) : List String :=
  if !skipsElement tags definition && names.any (fun name => (tags.fact? name).any fun fact =>
      fact.state == .present && !definition.sourceScopes.contains fact.sourceScope) then
    ["SOURCE_SCOPE_RECHECK:" ++ definition.id]
  else
    []

def trackElements (track : Track) (entries : List ElementDefinition) :
    Except PyError (List (ElementDefinition × List String)) :=
  (mappings track).mapM fun entry => do
    let definition ← RulePackSnapshot.definition entries entry.1
    return (definition, entry.2)

def withOperands (required : List String) : List String :=
  if required.contains exceptionApplies then
    required.filter (· != exceptionApplies) ++ ["target_metric", "transition_plan"]
  else
    required

def productFacts (rubric : Rubric) : Except PyError (List String) :=
  if tags.productVariant && tags.track == .management then
    (orRaise rubric.productVariant (.keyError "product_variant")).map ([·.e2PlusRequires])
  else
    .ok []

def exceptionFacts : List String :=
  (if hasSuperlative tags tags.factState then "has_superlative" :: superlativeOperands else []) ++
    if tags.track == .performance && (tags.fact? "categorical_ordinal").isSome then
      ["certification_provider"]
    else
      []

variable (elements : List (ElementDefinition × List String))

/-- `required`, complete. -/
def requiredFacts (rubric : Rubric) (product : List String) : List String :=
  withOperands (elements.flatMap (fun entry => elementFacts tags entry.1 entry.2) ++
    rubric.branches.flatMap Branch.names) ++ product ++ exceptionFacts tags

def factReasons (required : List String) (oldChecklists newChecklists : Value) : List String :=
  elements.flatMap (fun entry => scopeReasons tags entry.1 entry.2) ++
    (if oldChecklists ≠ newChecklists then ["SAFE_HARBOR_INPUTS_CHANGED"] else []) ++
    (required.filter fun name => (tags.fact? name).isNone).map ("MISSING_FACT:" ++ ·)

def followsDecision (hash : CanonicalHash) (tags : ConfirmedTags) (context : RuleContext) :
    Option Decision → Except PyError Unit
  | some prior =>
    refuse (context.decisionRevision ≠ prior.decisionRevision + 1 ∨
        prior.tagRevision ≠ tags.tagRevision ∨ prior.inputTagsSha256 ≠ hash.tags tags)
      (.domainValidation "previous decision/tag or next revision mismatch")
  | none =>
    refuse (context.decisionRevision ≠ 1)
      (.domainValidation "first decision revision must be one")

def rescoreElements (hash : CanonicalHash) (new previous : RescorePack Value)
    (tags : ConfirmedTags) (context : RuleContext) (fresh : List ElementDefinition) :
    Except PyError RescoreOutcome := do
  let elements ← trackElements tags.track fresh
  let rubric ← new.snapshot.rubricFile tags.track
  let product ← productFacts tags rubric
  let oldChecklists ← previous.checklistsFile
  let newChecklists ← new.checklistsFile
  let reasons := factReasons tags elements (requiredFacts tags elements rubric product)
    oldChecklists newChecklists
  if reasons = [] then
    let decision ← evaluate hash tags context new.snapshot
    return .decided decision
  else
    return .retagRequired (sortedSet reasons)

/-- `create_rescore`. -/
def createRescore (hash : CanonicalHash) (new : RescorePack Value) (tags : Option ConfirmedTags)
    (previous : RescorePack Value) (context : RuleContext) (prior : Option Decision) :
    Except PyError RescoreOutcome := do
  refuse (new.snapshot.tenantId ≠ context.tenantId ∨
      previous.snapshot.tenantId ≠ context.tenantId ∨
      new.snapshot.mode ≠ previous.snapshot.mode ∨ new.snapshot.mode ≠ context.mode)
    (.domainValidation "rescore tenant or mode mismatch")
  match tags with
  | none => return .retagRequired ["CONFIRMED_TAGS_REQUIRED"]
  | some tags =>
    validateInputs tags context previous.snapshot
    followsDecision hash tags context prior
    if new.snapshot.ontologyVersion ≠ previous.snapshot.ontologyVersion then
      return .retagRequired ["ONTOLOGY_CHANGED"]
    let old ← previous.snapshot.elementsFile
    let fresh ← new.snapshot.elementsFile
    refuse (¬(old.map ElementDefinition.id).Nodup ∨ ¬(fresh.map ElementDefinition.id).Nodup)
      (.domainValidation "duplicate element definitions")
    if elementReasons new previous fresh old ≠ [] then
      return .retagRequired (sortedSet (elementReasons new previous fresh old))
    rescoreElements hash new previous tags context fresh

/-! ### What a rescore may rest on -/

inductive Consulted (tags : ConfirmedTags) (run : EngineRun) : String → Prop
  | trigger {item : ElementDefinition × ElementReading × String} (hitem : item ∈ run.readings)
      (htrigger : PyText.truthy item.1.trigger = true) :
      Consulted tags run (item.1.trigger.getD "")
  | primitive {item : ElementDefinition × ElementReading × String} (hitem : item ∈ run.readings)
      (hread : item.2.1 ≠ .excluded) {names : List String}
      (hnames : (item.2.2, names) ∈ mappings tags.track) {name : String} (hname : name ∈ names) :
      Consulted tags run name
  | ladder {name : String} (hname : name ∈ run.names tags false) : Consulted tags run name
  | superlative (hcarries : hasSuperlative tags tags.factState = true) {name : String}
      (hname : name ∈ "has_superlative" :: superlativeOperands) : Consulted tags run name
  | ordinal (htrack : tags.track = .performance)
      (hcarries : (tags.fact? "categorical_ordinal").isSome = true) {name : String}
      (hname : name ∈ ordinalOperands) : Consulted tags run name
  | product (hvariant : tags.productVariant = true) (htrack : tags.track = .management)
      {rule : ProductVariantRule} (hrule : run.rubric.productVariant = some rule) :
      Consulted tags run rule.e2PlusRequires

structure Rejudges (hash : CanonicalHash) (new previous : RescorePack Value)
    (tags : ConfirmedTags) (context : RuleContext) (decision : Decision) : Prop where
  evaluated : evaluate hash tags context new.snapshot = .ok decision
  ontology : new.snapshot.ontologyVersion = previous.snapshot.ontologyVersion
  elements : ∃ fresh old, new.snapshot.elements = some fresh ∧
    previous.snapshot.elements = some old ∧
    (∀ after ∈ fresh, ∃ before ∈ old, before.id = after.id) ∧
    (∀ before ∈ old, ∃ after ∈ fresh, before.id = after.id) ∧
    ∀ after ∈ fresh, ∀ before ∈ old, before.id = after.id →
      before.trigger = after.trigger ∧ previous.meaning after.id = new.meaning after.id ∧
        ∀ scope ∈ after.sourceScopes, scope ∈ before.sourceScopes
  checklists : previous.checklists = new.checklists
  complete : ∀ run, gather tags context new.snapshot false false = .ok run →
    ∀ name, Consulted tags run name → (tags.fact? name).isSome = true

def qualification (special : SuperlativeRule) (tags : ConfirmedTags) : Option FactState :=
  if tags.safeHarborCategory.isSome ∨
      superlativeReading special tags tags.factState = .override then
    none
  else if tags.track = .performance ∧ (tags.fact? "categorical_ordinal").isSome = true then
    some (ordinalState tags.factState)
  else
    none

structure Covers (tags : ConfirmedTags) (fresh : List ElementDefinition) (rubric : Rubric)
    (special : SuperlativeRule) : Prop where
  operands : tags.track = .goal → (∀ branch ∈ rubric.branches, exceptionApplies ∉ branch.names) →
    ∀ name ∈ ["target_metric", "transition_plan"], (tags.fact? name).isSome = true
  trigger : ∀ entry ∈ mappings tags.track, ∀ definition,
    RulePackSnapshot.definition fresh entry.1 = .ok definition →
      definition.trigger = some exceptionApplies → (tags.fact? exceptionApplies).isSome = true
  qualified : ∀ entry ∈ mappings tags.track, ∀ definition,
    RulePackSnapshot.definition fresh entry.1 = .ok definition →
      skipsElement tags definition = true → definition.trigger.getD "" ∈ ordinalPrimitives →
        ∀ state, qualification special tags = some state → state ≠ .absent →
          ∀ name ∈ entry.2, (tags.fact? name).isSome = true

variable {elements : List (ElementDefinition × List String)}
variable {special : SuperlativeRule} {state : String → FactState} {product : List String}

section Reading

variable {tags : ConfirmedTags} {context : RuleContext} {pack : RulePackSnapshot}
variable {effect : ExceptionEffect} {definition : ElementDefinition}

theorem skipsElement_iff : skipsElement tags definition = true ↔
    PyText.truthy definition.trigger = true ∧
      tags.factState (definition.trigger.getD "") = .absent := by
  unfold skipsElement ConfirmedTags.factState
  cases tags.fact? (definition.trigger.getD "") with
  | none => simp
  | some fact => simp

theorem ordinalState_eq_qualification
    (h : applySourceExceptions tags context pack false = .ok effect) :
    ∃ special, pack.exceptions = some special ∧
      effect.ordinalState = qualification special tags := by
  obtain ⟨-, special, hspecial, hcases⟩ := applySourceExceptions_ok h
  unfold RulePackSnapshot.superlativeRule at hspecial
  rw [readState_false] at hcases
  refine ⟨special, by split at hspecial <;> simp_all, ?_⟩
  unfold qualification
  rcases hcases with ⟨hharbor, -, -, -, -, hordinal⟩ | ⟨hharbor, ⟨hover, rfl⟩ |
    ⟨elements, ordinal, product, hreading, hordinal, -, -, -, -, -, hstate⟩⟩
  · simp [hharbor, hordinal]
  · simp [hover]
  · rw [hstate, ordinalReading_ok hordinal]
    simp [hharbor, hreading]

theorem engineState_absent_of_skips (hordinal : effect.ordinalState = qualification special tags)
    (hskips : skipsElement tags definition = true)
    (hread : engineState effect false tags (definition.trigger.getD "") ≠ .absent) :
    definition.trigger.getD "" ∈ ordinalPrimitives ∧
      ∃ state, qualification special tags = some state ∧ state ≠ .absent := by
  obtain ⟨-, habsent⟩ := skipsElement_iff.mp hskips
  unfold engineState at hread
  rw [hordinal, readState_false] at hread
  cases hstate : qualification special tags with
  | none =>
    rw [hstate] at hread
    exact absurd habsent hread
  | some state =>
    rw [hstate] at hread
    by_cases hmem : definition.trigger.getD "" ∈ ordinalPrimitives
    · exact ⟨hmem, state, rfl, by simpa [hmem] using hread⟩
    · exact absurd habsent (by simpa [hmem] using hread)

theorem readElement_excluded_iff {trigger : Option String}
    {names : List String} : readElement state trigger names = .excluded ↔
      PyText.truthy trigger = true ∧ state (trigger.getD "") = .absent := by
  unfold readElement
  by_cases h : PyText.truthy trigger = true ∧ state (trigger.getD "") = .absent
  · simp [h]
  · rw [if_neg (by simpa using h)]
    refine iff_of_false ?_ h
    split_ifs <;> simp

theorem mem_requiredFacts {rubric : Rubric} {name : String} :
    name ∈ requiredFacts tags elements rubric product ↔
      ((∃ entry ∈ elements, name ∈ elementFacts tags entry.1 entry.2) ∨
          ∃ branch ∈ rubric.branches, name ∈ branch.names) ∧ name ≠ exceptionApplies ∨
        ((∃ entry ∈ elements, exceptionApplies ∈ elementFacts tags entry.1 entry.2) ∨
          ∃ branch ∈ rubric.branches, exceptionApplies ∈ branch.names) ∧
            name ∈ ["target_metric", "transition_plan"] ∨
        name ∈ product ∨ name ∈ exceptionFacts tags := by
  unfold requiredFacts withOperands
  simp only [List.contains_eq_mem, List.mem_append, List.mem_flatMap, decide_eq_true_eq]
  split_ifs with hasked
  · simp only [List.mem_append, List.mem_filter, List.mem_flatMap, bne_iff_ne, hasked, true_and,
      or_assoc]
  · simp only [List.mem_append, List.mem_flatMap]
    constructor
    · rintro ((h | h) | h)
      · exact Or.inl ⟨h, by rintro rfl; exact hasked h⟩
      · exact Or.inr (Or.inr (Or.inl h))
      · exact Or.inr (Or.inr (Or.inr h))
    · rintro (⟨h, -⟩ | ⟨h, -⟩ | h | h)
      · exact Or.inl (Or.inl h)
      · exact absurd h hasked
      · exact Or.inl (Or.inr h)
      · exact Or.inr h

end Reading

section Rescoring

variable {hash : CanonicalHash} {new previous : RescorePack Value} {tags : ConfirmedTags}
variable {context : RuleContext} {prior : Option Decision} {decision : Decision}
variable {fresh old : List ElementDefinition}

/-- A decision was made with no reason against it. -/
theorem rescoreElements_ok
    (h : rescoreElements hash new previous tags context fresh = .ok (.decided decision)) :
    ∃ elements rubric product, trackElements tags.track fresh = .ok elements ∧
      new.snapshot.rubricFile tags.track = .ok rubric ∧ productFacts tags rubric = .ok product ∧
      previous.checklists = new.checklists ∧
      (∀ name ∈ requiredFacts tags elements rubric product, (tags.fact? name).isSome = true) ∧
      evaluate hash tags context new.snapshot = .ok decision := by
  obtain ⟨elements, helements, h⟩ := bind_ok h
  obtain ⟨rubric, hrubric, h⟩ := bind_ok h
  obtain ⟨product, hproduct, h⟩ := bind_ok h
  obtain ⟨before, hbefore, h⟩ := bind_ok h
  obtain ⟨after, hafter, h⟩ := bind_ok h
  dsimp only at h
  split_ifs at h with hreasons
  · obtain ⟨made, hmade, h⟩ := bind_ok h
    cases pure_ok h
    simp only [factReasons, List.append_eq_nil_iff, List.map_eq_nil_iff, List.filter_eq_nil_iff,
      ite_eq_right_iff, List.cons_ne_nil, imp_false, not_not] at hreasons
    obtain ⟨⟨-, hsame⟩, hmissing⟩ := hreasons
    refine ⟨elements, rubric, product, helements, hrubric, hproduct, ?_, ?_, hmade⟩
    · rw [orRaise_ok_iff.mp hbefore, orRaise_ok_iff.mp hafter, hsame]
    · intro name hname
      simpa [Option.isSome_iff_ne_none] using hmissing name hname
  · cases pure_ok h

theorem createRescore_ok {given : Option ConfirmedTags}
    (h : createRescore hash new given previous context prior = .ok (.decided decision)) :
    ∃ tags fresh old, given = some tags ∧
      new.snapshot.ontologyVersion = previous.snapshot.ontologyVersion ∧
      new.snapshot.elementsFile = .ok fresh ∧ previous.snapshot.elementsFile = .ok old ∧
      elementReasons new previous fresh old = [] ∧
      rescoreElements hash new previous tags context fresh = .ok (.decided decision) := by
  replace h := rest_ok h
  cases given with
  | none => cases pure_ok h
  | some tags =>
    replace h := rest_ok h
    replace h := rest_ok h
    split_ifs at h with hontology
    · cases pure_ok h
    obtain ⟨old, hold, h⟩ := bind_ok h
    obtain ⟨fresh, hfresh, h⟩ := bind_ok h
    replace h := rest_ok h
    split_ifs at h with hreasons
    · cases pure_ok h
    exact ⟨tags, fresh, old, rfl, not_not.mp hontology, hfresh, hold, not_not.mp hreasons, h⟩

theorem elements_unchanged (h : elementReasons new previous fresh old = []) :
    (∀ after ∈ fresh, ∃ before ∈ old, before.id = after.id) ∧
      (∀ before ∈ old, ∃ after ∈ fresh, before.id = after.id) ∧
      ∀ after ∈ fresh, ∀ before ∈ old, before.id = after.id →
        before.trigger = after.trigger ∧ previous.meaning after.id = new.meaning after.id ∧
          ∀ scope ∈ after.sourceScopes, scope ∈ before.sourceScopes := by
  obtain ⟨hset, hdefinitions⟩ := List.append_eq_nil_iff.mp h
  have hids := of_not_not fun hne => List.cons_ne_nil _ _ ((if_neg hne).symm.trans hset)
  refine ⟨hids.1, hids.2, ?_⟩
  intro after hafter before hbefore hid
  have hnone := List.flatMap_eq_nil_iff.mp (List.flatMap_eq_nil_iff.mp hdefinitions after hafter)
    before (List.mem_filter.mpr ⟨hbefore, by simpa using hid⟩)
  obtain ⟨hmeaning, hscopes⟩ := List.append_eq_nil_iff.mp hnone
  have hkept := of_not_not fun hne => List.cons_ne_nil _ _ ((if_pos (not_and_or.mp hne)).symm.trans
    hmeaning)
  have hall := of_not_not fun hne => List.cons_ne_nil _ _ ((if_neg hne).symm.trans hscopes)
  exact ⟨hkept.1, hkept.2, by simpa using hall⟩

end Rescoring

variable {entry : String × List String}

theorem mappings_functional (track : Track) {other : String × List String}
    (hentry : entry ∈ mappings track) (hother : other ∈ mappings track)
    (h : entry.1 = other.1) : entry = other := by
  have hall : ∀ track, ∀ entry ∈ mappings track, ∀ other ∈ mappings track,
      entry.1 = other.1 → entry = other := by
    intro track
    cases track <;> decide
  exact hall track entry hentry other hother h

theorem primitive_ne_exceptionApplies (track : Track)
    (hentry : entry ∈ mappings track) {name : String} (hname : name ∈ entry.2) :
    name ≠ exceptionApplies := by
  have hall : ∀ track, ∀ entry ∈ mappings track, exceptionApplies ∉ entry.2 := by
    intro track
    cases track <;> decide
  rintro rfl
  exact hall track entry hentry hname

section Coverage

variable {tags : ConfirmedTags} {fresh : List ElementDefinition}

theorem mem_trackElements
    (h : trackElements tags.track fresh = .ok elements) {item : ElementDefinition × List String} :
    item ∈ elements ↔ ∃ entry ∈ mappings tags.track, ∃ definition,
      RulePackSnapshot.definition fresh entry.1 = .ok definition ∧
        (definition, entry.2) = item := by
  rw [mem_of_mapM_ok h]
  simp only [bind_ok_iff, pure_ok_iff]

theorem mem_readings {readings : List (ElementDefinition × ElementReading × String)}
    (h : readElements tags.track fresh state = .ok readings)
    {item : ElementDefinition × ElementReading × String} :
    item ∈ readings ↔ ∃ entry ∈ mappings tags.track, ∃ definition,
      RulePackSnapshot.definition fresh entry.1 = .ok definition ∧
        (definition, readElement state definition.trigger entry.2, entry.1) = item := by
  rw [mem_of_mapM_ok h]
  simp only [bind_ok_iff, pure_ok_iff]

theorem consulted_iff_covers {context : RuleContext} {pack : RulePackSnapshot} {run : EngineRun}
    (hrun : gather tags context pack false false = .ok run)
    (hspecial : pack.exceptions = some special) (hfresh : pack.elementsFile = .ok fresh)
    (helements : trackElements tags.track fresh = .ok elements)
    (hproduct : productFacts tags run.rubric = .ok product)
    (hrequired : ∀ name ∈ requiredFacts tags elements run.rubric product,
      (tags.fact? name).isSome = true) :
    (∀ name, Consulted tags run name → (tags.fact? name).isSome = true) ↔
      Covers tags fresh run.rubric special := by
  have hof := gather_ok hrun
  obtain ⟨entries, hentries, hreadings⟩ := hof.readings_ok
  obtain rfl := Except.ok.inj (hfresh.symm.trans hentries)
  obtain ⟨found, hfound, hordinal⟩ := ordinalState_eq_qualification hof.effect_ok
  obtain rfl := Option.some.inj (hspecial.symm.trans hfound)
  have hnames : ∀ {name}, name ∈ run.names tags false ↔
      (name ≠ exceptionApplies ∧ ∃ branch ∈ run.rubric.branches, name ∈ branch.names) ∨
        tags.track = .goal ∧ (name = "target_metric" ∨ name = "transition_plan") := by
    exact mem_ladderNames
  have hread : ∀ {entry}, entry ∈ mappings tags.track → ∀ {definition},
      RulePackSnapshot.definition fresh entry.1 = .ok definition →
        (definition, readElement (run.state tags false) definition.trigger entry.2, entry.1) ∈
          run.readings := by
    intro entry hentry definition hdefinition
    exact (mem_readings hreadings).mpr ⟨entry, hentry, definition, hdefinition, rfl⟩
  have hasked : ∀ {entry}, entry ∈ mappings tags.track → ∀ {definition},
      RulePackSnapshot.definition fresh entry.1 = .ok definition → ∀ {name},
        name ∈ elementFacts tags definition entry.2 → name ≠ exceptionApplies →
          (tags.fact? name).isSome = true := by
    intro entry hentry definition hdefinition name hname hne
    refine hrequired name (mem_requiredFacts.mpr (Or.inl ⟨Or.inl ⟨(definition, entry.2), ?_,
      hname⟩, hne⟩))
    exact (mem_trackElements helements).mpr ⟨entry, hentry, definition, hdefinition, rfl⟩
  constructor
  · intro hall
    refine ⟨?_, ?_, ?_⟩
    · intro hgoal _ name hname
      exact hall name (.ladder (hnames.mpr (Or.inr ⟨hgoal, by simpa using hname⟩)))
    · intro entry hentry definition hdefinition htrigger
      have hconsulted := @Consulted.trigger tags _ _ (hread hentry hdefinition)
        (by simp [htrigger, PyText.truthy, exceptionApplies])
      simpa [htrigger] using hall _ hconsulted
    · intro entry hentry definition hdefinition hskips hprimitive state hstate hne name hname
      refine hall name (.primitive (hread hentry hdefinition) ?_ hentry hname)
      rw [Ne, readElement_excluded_iff]
      rintro ⟨-, habsent⟩
      simp only [EngineRun.state, engineState, hordinal, hstate] at habsent
      rw [if_pos (by simpa using hprimitive)] at habsent
      exact hne habsent
  · intro hcovers name hname
    cases hname with
    | @trigger item hitem htrigger =>
      obtain ⟨entry, hentry, definition, hdefinition, rfl⟩ := (mem_readings hreadings).mp hitem
      by_cases hexception : definition.trigger.getD "" = exceptionApplies
      · rw [hexception]
        refine hcovers.trigger entry hentry definition hdefinition ?_
        cases hnamed : definition.trigger with
        | none => simp [hnamed, PyText.truthy] at htrigger
        | some name => simpa [hnamed] using hexception
      · exact hasked hentry hdefinition (by simp [elementFacts, htrigger]) hexception
    | @primitive item hitem hread names hnames name hname =>
      obtain ⟨entry, hentry, definition, hdefinition, rfl⟩ := (mem_readings hreadings).mp hitem
      obtain rfl : entry.2 = names :=
        congrArg Prod.snd (mappings_functional tags.track hentry hnames rfl)
      by_cases hskips : skipsElement tags definition = true
      · have hne : run.state tags false (definition.trigger.getD "") ≠ .absent := by
          intro habsent
          exact hread (readElement_excluded_iff.mpr ⟨(skipsElement_iff.mp hskips).1, habsent⟩)
        obtain ⟨hprimitive, state, hstate, hne⟩ := engineState_absent_of_skips hordinal hskips hne
        exact hcovers.qualified entry hentry definition hdefinition hskips hprimitive state hstate
          hne name hname
      · exact hasked hentry hdefinition (by simp [elementFacts, hskips, hname])
          (primitive_ne_exceptionApplies tags.track hentry hname)
    | @ladder name hname =>
      rcases hnames.mp hname with ⟨hne, hbranch⟩ | ⟨hgoal, hoperand⟩
      · exact hrequired name (mem_requiredFacts.mpr (Or.inl ⟨Or.inr hbranch, hne⟩))
      · by_cases hnone : ∀ branch ∈ run.rubric.branches, exceptionApplies ∉ branch.names
        · exact hcovers.operands hgoal hnone name (by simpa using hoperand)
        · push Not at hnone
          exact hrequired name (mem_requiredFacts.mpr (Or.inr (Or.inl ⟨Or.inr hnone,
            by simpa using hoperand⟩)))
    | @superlative hcarries name hname =>
      refine hrequired name (mem_requiredFacts.mpr (Or.inr (Or.inr (Or.inr ?_))))
      simp only [exceptionFacts, hcarries, if_true, List.mem_append]
      exact Or.inl hname
    | @ordinal htrack hcarries name hname =>
      rcases List.mem_cons.mp hname with rfl | hprovider
      · exact hcarries
      refine hrequired name (mem_requiredFacts.mpr (Or.inr (Or.inr (Or.inr ?_))))
      simp [exceptionFacts, htrack, hcarries, List.mem_singleton.mp hprovider]
    | @product hvariant htrack rule hrule =>
      refine hrequired _ (mem_requiredFacts.mpr (Or.inr (Or.inr (Or.inl ?_))))
      simp only [productFacts, hvariant, htrack, hrule, orRaise, Except.map] at hproduct
      cases hproduct
      exact List.mem_singleton_self _

end Coverage

/-- A rescore that decides re-judges complete facts of unchanged meaning exactly
when the facts asked for cover the facts read: `_evaluate` reads the operands of
the exception on every goal ladder, and an element by the qualified state of its
trigger, where `create_rescore` goes by the branches and the raw state. -/
theorem rescore_rejudges_iff {hash : CanonicalHash} {new previous : RescorePack Value}
    {given : Option ConfirmedTags} {context : RuleContext} {prior : Option Decision}
    {decision : Decision}
    (h : createRescore hash new given previous context prior = .ok (.decided decision)) :
    ∃ tags fresh rubric special, given = some tags ∧ new.snapshot.elements = some fresh ∧
      new.snapshot.rubrics tags.track = some rubric ∧ new.snapshot.exceptions = some special ∧
      (Rejudges hash new previous tags context decision ↔ Covers tags fresh rubric special) := by
  obtain ⟨tags, fresh, old, hgiven, hontology, hfresh, hold, hreasons, h⟩ := createRescore_ok h
  obtain ⟨elements, rubric, product, helements, hrubric, hproduct, hlists, hrequired, hevaluated⟩ :=
    rescoreElements_ok h
  obtain ⟨run, hrun, -⟩ := bind_ok (evaluate_ok hevaluated).2
  have hof := gather_ok hrun
  obtain rfl := Except.ok.inj (hrubric.symm.trans hof.rubric_ok)
  obtain ⟨special, hspecial, -⟩ := ordinalState_eq_qualification hof.effect_ok
  have hcovers := consulted_iff_covers hrun hspecial hfresh helements hproduct hrequired
  have hfiles : new.snapshot.elements = some fresh ∧ previous.snapshot.elements = some old ∧
      new.snapshot.rubrics tags.track = some run.rubric := by
    unfold RulePackSnapshot.elementsFile at hfresh hold
    unfold RulePackSnapshot.rubricFile at hrubric
    refine ⟨?_, ?_, ?_⟩
    · split at hfresh <;> simp_all
    · split at hold <;> simp_all
    · split at hrubric <;> simp_all
  refine ⟨tags, fresh, run.rubric, special, hgiven, hfiles.1, hfiles.2.2, hspecial, ?_⟩
  rw [← hcovers]
  constructor
  · exact fun hrejudges => hrejudges.complete run hrun
  · intro hall
    refine ⟨hevaluated, hontology, ⟨fresh, old, hfiles.1, hfiles.2.1, elements_unchanged hreasons⟩,
      hlists, ?_⟩
    intro other hother name hname
    obtain rfl := Except.ok.inj (hrun.symm.trans hother)
    exact hall name hname

/-! ### Rescores of the shipped pack -/

def RescoreOutcome.decision? : RescoreOutcome → Option Decision
  | .decided decision => some decision
  | .retagRequired _ => none

theorem RescoreOutcome.exists_decided {result : Except PyError RescoreOutcome}
    (h : Returns result (·.decision?.isSome = true)) :
    ∃ decision, result = .ok (.decided decision) := by
  obtain ⟨outcome, houtcome, hdecided⟩ := h
  cases outcome with
  | decided decision => exact ⟨decision, houtcome⟩
  | retagRequired reasons => cases hdecided

def bareFacts (state : FactState) (not_present : state ≠ .present) (names : List String) :
    List ConfirmedFact :=
  names.filterMap fun name =>
    if h : name ≠ "" then some (Pinned.bareFact name state h not_present) else none

def shipped (elements : List ElementDefinition) : RescorePack Unit where
  snapshot := { Pinned.pack "tenant" "sha" Pinned.rubric with elements := some elements }
  meaning := fun _ => ()
  checklists := some ()

theorem unknown_ne_present : FactState.unknown ≠ .present := by
  decide

theorem absent_ne_present : FactState.absent ≠ .present := by
  decide

theorem ordinal_named : "categorical_ordinal" ≠ "" := by
  decide

def openManagement : ConfirmedTags :=
  Pinned.claim .management
    (bareFacts .unknown unknown_ne_present
      ["named_means_or_concrete_state", "org_boundary", "external_verification",
        "concrete_implementation_detail", "responsible_organization", "compensation_link",
        "governance_claim", "compensation_link_claim", "willingness_only"]) (by decide +kernel)

theorem rescore_rejudges_shipped :
    ∃ decision, createRescore Pinned.blankHash (shipped Pinned.elements) (some openManagement)
        (shipped Pinned.elements) Pinned.context none = .ok (.decided decision) ∧
      ∃ tags fresh rubric special, some openManagement = some tags ∧
        (shipped Pinned.elements).snapshot.elements = some fresh ∧
        (shipped Pinned.elements).snapshot.rubrics tags.track = some rubric ∧
        (shipped Pinned.elements).snapshot.exceptions = some special ∧
        (Rejudges Pinned.blankHash (shipped Pinned.elements) (shipped Pinned.elements) tags
            Pinned.context decision ↔ Covers tags fresh rubric special) := by
  obtain ⟨decision, h⟩ := RescoreOutcome.exists_decided
    (show Returns (createRescore Pinned.blankHash (shipped Pinned.elements) (some openManagement)
      (shipped Pinned.elements) Pinned.context none) (·.decision?.isSome = true) by decide +kernel)
  exact ⟨decision, h, rescore_rejudges_iff h⟩

def ordinalTriggered : List ElementDefinition :=
  Pinned.elements.map fun definition =>
    if definition.id = "P5" then
      { definition with trigger := some "quantitative_or_qualified_ordinal" }
    else
      definition

def certifiedGrade : ConfirmedTags :=
  Pinned.claim .performance
    (Pinned.presentFact "categorical_ordinal" ordinal_named ::
      Pinned.presentFact "certification_provider" (by decide) ::
      bareFacts .absent absent_ne_present ["quantitative_or_qualified_ordinal"] ++
      bareFacts .unknown unknown_ne_present
        ["unit_or_qualified_ordinal", "comparison_baseline", "method", "calculation_boundary",
          "assurance_covered", "numerical_check"]) (by decide +kernel)

theorem rescore_reads_unasked :
    ∃ decision, createRescore Pinned.blankHash (shipped ordinalTriggered) (some certifiedGrade)
        (shipped ordinalTriggered) Pinned.context none = .ok (.decided decision) ∧
      ¬Rejudges Pinned.blankHash (shipped ordinalTriggered) (shipped ordinalTriggered)
        certifiedGrade Pinned.context decision := by
  obtain ⟨decision, h⟩ := RescoreOutcome.exists_decided
    (show Returns (createRescore Pinned.blankHash (shipped ordinalTriggered) (some certifiedGrade)
      (shipped ordinalTriggered) Pinned.context none) (·.decision?.isSome = true) by decide +kernel)
  obtain ⟨run, hrun, item, hitem, helement, hread⟩ :
      Returns (gather certifiedGrade Pinned.context (shipped ordinalTriggered).snapshot false false)
        fun run => ∃ item ∈ run.readings, item.2.2 = "P5" ∧ item.2.1 ≠ .excluded := by
    decide +kernel
  refine ⟨decision, h, fun hrejudges => ?_⟩
  have hnames : (item.2.2, ["absolute_intensity"]) ∈ mappings .performance := by
    rw [helement]
    decide
  have hasked := hrejudges.complete run hrun _ (.primitive hitem hread hnames
    (List.mem_singleton_self _))
  exact absurd hasked (by decide +kernel)

end ProofOps.Application.Rescores
