import ProofOps.Domain.Values

/-!
# The pinned rule pack

`RulePackSnapshot` with the retained files the engine reads, already decoded
from their canonical JSON: `rubric/elements.yaml`, one rubric a track and
`rubric/exceptions.yaml`.  A file the manifest does not list is `none`, and
reading it raises the source's `KeyError`.

Grades written in a pack are the four ladder grades, so branch grades and the
product cap are of type `Grade`.
-/

namespace ProofOps.Domain.Rules

/-- A branch of a ladder. -/
structure Branch where
  id : String
  when? : Option (List (String × Bool))
  requireAll : List String
  grade : Grade
  cap : Bool
  deriving DecidableEq

namespace Branch

def conditions (branch : Branch) : List (String × Bool) :=
  branch.when?.getD (branch.requireAll.map fun name => (name, true))

def names (branch : Branch) : List String :=
  (branch.when?.getD []).map Prod.fst ++ branch.requireAll

/-- A condition of a branch names one of its names. -/
theorem mem_names_of_mem_conditions {branch : Branch} {name : String} {value : Bool}
    (h : (name, value) ∈ branch.conditions) : name ∈ branch.names := by
  unfold conditions at h
  unfold names
  cases hwhen : branch.when? with
  | some entries =>
    simp only [hwhen, Option.getD_some] at h
    simp only [Option.getD_some, List.mem_append, List.mem_map]
    exact Or.inl ⟨(name, value), h, rfl⟩
  | none =>
    simp only [hwhen, Option.getD_none, List.mem_map, Prod.mk.injEq] at h
    obtain ⟨required, hrequired, rfl, -⟩ := h
    simp [hrequired]

end Branch

structure ProductVariantRule where
  specificNamesOnlyCap : Grade
  (e2PlusRequires genericBoundaryInteraction : String)

/-- One `rubric/<track>.yaml`. -/
structure Rubric where
  branches : List Branch
  additionalElementPolicy : Option String
  productVariant : Option ProductVariantRule

/-- One entry of `rubric/elements.yaml`. -/
structure ElementDefinition where
  id : String
  trigger : Option String
  sourceScopes : List String
  basis : String

structure SuperlativeRule where
  enabled : Bool
  withSafeHarbor : String

/-- `RulePackSnapshot`. -/
structure RulePackSnapshot where
  (tenantId mode status ontologyVersion sha256 : String)
  (approvedBy approvedAt : Option String)
  elements : Option (List ElementDefinition)
  rubrics : Track → Option Rubric
  exceptions : Option SuperlativeRule

def Track.stem : Track → String
  | .goal => "goal"
  | .performance => "performance"
  | .management => "management"

namespace RulePackSnapshot

variable (pack : RulePackSnapshot)

def elementsFile : Except PyError (List ElementDefinition) :=
  match pack.elements with
  | some entries => .ok entries
  | none => .error (.keyError "unknown rule file: rubric/elements.yaml")

def rubricFile (track : Track) : Except PyError Rubric :=
  match pack.rubrics track with
  | some rubric => .ok rubric
  | none => .error (.keyError ("unknown rule file: rubric/" ++ Track.stem track ++ ".yaml"))

def superlativeRule : Except PyError SuperlativeRule :=
  match pack.exceptions with
  | some rule => .ok rule
  | none => .error (.keyError "unknown rule file: rubric/exceptions.yaml")

def superlativeEnabled : Bool :=
  pack.exceptions.any SuperlativeRule.enabled

theorem superlativeEnabled_eq {pack : RulePackSnapshot} {rule : SuperlativeRule}
    (h : pack.superlativeRule = .ok rule) : pack.superlativeEnabled = rule.enabled := by
  unfold superlativeRule at h
  unfold superlativeEnabled
  cases hrule : pack.exceptions with
  | none => simp [hrule] at h
  | some found =>
    simp only [hrule, Except.ok.injEq] at h
    simp [h]

def productVariantRule : Except PyError ProductVariantRule := do
  let rubric ← pack.rubricFile .management
  match rubric.productVariant with
  | some rule => .ok rule
  | none => .error (.keyError "product_variant")

def definition (entries : List ElementDefinition) (element : String) :
    Except PyError ElementDefinition :=
  match entries.reverse.find? fun entry => entry.id == element with
  | some entry => .ok entry
  | none => .error (.keyError element)

end RulePackSnapshot

/-- `ELEMENTS`. -/
def mappings : Track → List (String × List String)
  | .goal =>
    [("G1", ["target_year"]), ("G2", ["target_metric"]),
      ("G3", ["baseline_year", "baseline_value"]), ("G4", ["scope", "org_boundary"]),
      ("G5", ["current_progress"]), ("G6", ["transition_plan"]), ("G7", ["offset_plan"]),
      ("G8", ["science_based_verification"])]
  | .performance =>
    [("P1", ["quantitative_or_qualified_ordinal", "unit_or_qualified_ordinal"]),
      ("P2", ["comparison_baseline"]), ("P3", ["method", "calculation_boundary"]),
      ("P4", ["assurance_covered"]), ("P5", ["absolute_intensity"]),
      ("P6", ["numerical_check"])]
  | .management =>
    [("M1", ["named_means_or_concrete_state"]), ("M2", ["org_boundary"]),
      ("M3", ["external_verification"]), ("M4", ["concrete_implementation_detail"]),
      ("M5", ["responsible_organization"]), ("M6", ["compensation_link"])]

def ordinalPrimitives : List String :=
  ["quantitative_or_qualified_ordinal", "unit_or_qualified_ordinal"]

end ProofOps.Domain.Rules
