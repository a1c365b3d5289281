import ProofOps.Domain.Rules.Engine

/-!
# Analysis-scope profiles

The two scoped evaluators, `analysis_scope.evaluate_scope` and
`cf6_scope.evaluate_scope`.  Both admit a claim by its scope header, run
`_evaluate` with scoped absence read as absence, and wrap a decided result with
the confirmation it rests on.  The second one also runs the DEC-127 profile when
its header names the second policy.

Policy digests and the closing semantic digest are `canonical_hash` values and
are parameters.
-/

namespace ProofOps.Domain.Rules

open Foundation

/-- The policies a scope header can name. -/
inductive ScopePolicy where
  | analysis
  | cf6V1
  | cf6V2
  deriving DecidableEq

structure ScopeHeader where
  (tenantId documentVersionId runId : Option String)
  (selectedPages inspectedPages uninspectedPages : Option (List Nat))
  (rulePolicySha256 confirmationPolicySha256 : Option String)

def truthyPages (pages : Option (List Nat)) : Bool :=
  !(pages.getD []).isEmpty

/-- `ScopeDecision`. -/
structure ScopeDecision extends Decision where
  (confirmationBasis confirmationDisplay : String)
  confirmationScope : ScopeHeader
  (receiptSha256 confirmationPolicySha256 : String)

/-- The hashes of the scoped evaluators. -/
structure ScopeHash where
  policy : ScopePolicy → String
  semantic : ScopePolicy → Option (ScopeHeader × String) → ScopeDecision → String

inductive ScopeOutcome where
  | plain (decision : Decision)
  | confirmed (decision : ScopeDecision)

def ScopeOutcome.decision : ScopeOutcome → Decision
  | .plain decision => decision
  | .confirmed decision => decision.toDecision

def scopedAbsences (tags : ConfirmedTags) : List String :=
  (tags.facts.filter fun fact => fact.state == .absentInScope).map ConfirmedFact.name

def analysisAdmitted (hash : ScopeHash) (tags : ConfirmedTags) (scope : ScopeHeader)
    (absentFacts : List String) : Bool :=
  scope.tenantId == some tags.tenantId && scope.documentVersionId == some tags.documentVersionId &&
    PyText.truthy scope.runId && truthyPages scope.selectedPages &&
    !truthyPages scope.uninspectedPages && scope.inspectedPages == scope.selectedPages &&
    scope.rulePolicySha256 == some (hash.policy .analysis) &&
    (absentFacts.all (scopedAbsences tags).contains && (scopedAbsences tags).all absentFacts.contains) &&
    !absentFacts.isEmpty && !tags.facts.any (fun fact => fact.state == .conflict)

/-- `evaluate_scope`. -/
def evaluateScope (hash : CanonicalHash) (scopeHash : ScopeHash) (tags : ConfirmedTags)
    (context : RuleContext) (pack : RulePackSnapshot) (scope : ScopeHeader)
    (absentFacts : List String) (receiptSha256 : String) : Except PyError ScopeOutcome := do
  if !analysisAdmitted scopeHash tags scope absentFacts then
    throw (.domainValidation "SC1_SCOPE_NOT_CONFIRMABLE")
  let decision ← evaluateCore hash tags context pack true false
  if decision.decisionStatus ≠ .decided then
    return .plain decision
  match scope.confirmationPolicySha256 with
  | none => throw (.keyError "confirmation_policy_sha256")
  | some confirmationPolicySha256 =>
    let result : ScopeDecision :=
      { toDecision := decision
        confirmationBasis := "analysis_scope"
        confirmationDisplay := "분석 범위 기준 확정"
        confirmationScope := scope
        receiptSha256 := receiptSha256
        confirmationPolicySha256 := confirmationPolicySha256 }
    return .confirmed { result with
      semanticHash := scopeHash.semantic .analysis (some (scope, receiptSha256)) result }

def selectedPolicy (hash : ScopeHash) (scope : ScopeHeader) : Option ScopePolicy :=
  [ScopePolicy.cf6V1, .cf6V2].find? fun policy =>
    some (hash.policy policy) == scope.rulePolicySha256

def cf6Admitted (tags : ConfirmedTags) (scope : ScopeHeader) : Bool :=
  scope.tenantId == some tags.tenantId && scope.documentVersionId == some tags.documentVersionId &&
    PyText.truthy scope.runId && truthyPages scope.selectedPages &&
    !tags.facts.any (fun fact => fact.state == .conflict)

/-- `evaluate_scope`. -/
def evaluateCf6Scope (hash : CanonicalHash) (scopeHash : ScopeHash) (tags : ConfirmedTags)
    (context : RuleContext) (pack : RulePackSnapshot) (scope : ScopeHeader)
    (policySha256 receiptSha256 : String) : Except PyError ScopeOutcome :=
  match selectedPolicy scopeHash scope with
  | none => .error (.domainValidation "CF6_SCOPE_NOT_CONFIRMABLE")
  | some selected => do
    if !cf6Admitted tags scope then
      throw (.domainValidation "CF6_SCOPE_NOT_CONFIRMABLE")
    let decision ← evaluateCore hash tags context pack true (selected == .cf6V2)
    if decision.decisionStatus ≠ .decided then
      return .plain decision
    let result : ScopeDecision :=
      { toDecision := decision
        confirmationBasis := "cf6_dec127_system_scope"
        confirmationDisplay := "확정"
        confirmationScope := scope
        receiptSha256 := receiptSha256
        confirmationPolicySha256 := policySha256 }
    return .confirmed { result with semanticHash := scopeHash.semantic selected none result }

end ProofOps.Domain.Rules
