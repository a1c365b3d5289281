import Mathlib.Data.List.Dedup

/-!
# Partial Boolean valuations and their completions

A partial valuation `ν → Option Bool` records what is known about a family of
Boolean names; `none` means unresolved.  Relative to a list of names, its
*completions* are the valuations that are defined exactly on those names and
extend it.  Enumerating them name by name gives `completions`, and the set of
values a function takes on them is a three-valued reading of that function: a
value reached by every completion is settled, and resolving names can only
shrink the set.

Nothing here mentions a particular vocabulary of names.
-/

namespace ProofOps.Foundation

variable {ν : Type*} {α : Type*}

abbrev PartialValuation (ν : Type*) := ν → Option Bool

variable {known : PartialValuation ν} {value : α}

namespace PartialValuation

def Extends (coarse refined : PartialValuation ν) : Prop :=
  ∀ name value, coarse name = some value → refined name = some value

def TotalOn (names : List ν) (valuation : PartialValuation ν) : Prop :=
  ∀ name, (valuation name).isSome = true ↔ name ∈ names

def SupportedOn (names : List ν) (valuation : PartialValuation ν) : Prop :=
  ∀ name, (valuation name).isSome = true → name ∈ names

theorem Extends.trans {first second third : PartialValuation ν}
    (h₁ : first.Extends second) (h₂ : second.Extends third) : first.Extends third :=
  fun name value h => h₂ name value (h₁ name value h)

/-- The names it does not know. -/
def unresolved (names : List ν) (known : PartialValuation ν) : List ν :=
  names.filter fun name => (known name).isNone

@[simp] theorem mem_unresolved {names : List ν} {name : ν} :
    name ∈ known.unresolved names ↔ name ∈ names ∧ known name = none := by
  simp [unresolved]

section Completions

variable [DecidableEq ν]

def completions (known : PartialValuation ν) : List ν → List (PartialValuation ν)
  | [] => [known]
  | name :: rest =>
    completions (Function.update known name (some false)) rest ++
      completions (Function.update known name (some true)) rest

theorem completions_ne_nil (known : PartialValuation ν) (names : List ν) :
    known.completions names ≠ [] := by
  induction names generalizing known with
  | nil => simp [completions]
  | cons name rest ih => simp [completions, ih]

variable {valuation : PartialValuation ν}

theorem mem_completions {names : List ν} :
    valuation ∈ known.completions names ↔
      (∀ name, name ∉ names → valuation name = known name) ∧
        ∀ name ∈ names, (valuation name).isSome = true := by
  induction names generalizing known with
  | nil =>
    simp only [completions, List.mem_singleton, List.not_mem_nil, not_false_eq_true,
      forall_true_left, false_implies, implies_true, and_true]
    exact ⟨fun h => by simp [h], fun h => funext h⟩
  | cons head rest ih =>
    simp only [completions, List.mem_append, ih, List.mem_cons, not_or, forall_eq_or_imp]
    constructor
    · -- Either half fixes the value at `head`, unless a later entry repeats it.
      rintro (⟨hoff, hon⟩ | ⟨hoff, hon⟩)
      all_goals
        refine ⟨fun name hname => ?_, ?_, hon⟩
        · rw [hoff name hname.2, Function.update_of_ne hname.1]
        · by_cases hhead : head ∈ rest
          · exact hon head hhead
          · simp [hoff head hhead]
    · rintro ⟨hoff, hhead, hon⟩
      obtain ⟨value, hvalue⟩ := Option.isSome_iff_exists.mp hhead
      have hagree : ∀ name, name ∉ rest →
          valuation name = Function.update known head (some value) name := by
        intro name hname
        by_cases heq : name = head
        · subst heq
          simp [hvalue]
        · rw [hoff name ⟨heq, hname⟩, Function.update_of_ne heq]
      cases value with
      | false => exact Or.inl ⟨hagree, hon⟩
      | true => exact Or.inr ⟨hagree, hon⟩

theorem mem_completions_unresolved {names : List ν} (hsupport : known.SupportedOn names) :
    valuation ∈ known.completions (known.unresolved names) ↔
      valuation.TotalOn names ∧ known.Extends valuation := by
  rw [mem_completions]
  constructor
  · rintro ⟨hoff, hon⟩
    constructor
    · intro name
      by_cases hmem : name ∈ known.unresolved names
      · exact ⟨fun _ => (mem_unresolved.mp hmem).1, fun _ => hon name hmem⟩
      · rw [hoff name hmem]
        refine ⟨hsupport name, fun hname => ?_⟩
        rw [mem_unresolved, not_and] at hmem
        exact Option.isSome_iff_ne_none.mpr (hmem hname)
    · intro name value hknown
      have hresolved : name ∉ known.unresolved names := by simp [hknown]
      rw [hoff name hresolved, hknown]
  · rintro ⟨htotal, hextends⟩
    refine ⟨fun name hname => ?_, fun name hname => ?_⟩
    · cases hknown : known name with
      | some value => exact hextends name value hknown
      | none =>
        have hout : name ∉ names := fun hin => hname (mem_unresolved.mpr ⟨hin, hknown⟩)
        have hundefined := mt (htotal name).mp hout
        simpa using hundefined
    · exact (htotal name).mpr (mem_unresolved.mp hname).1

section Outcomes

variable (names : List ν) (decide : PartialValuation ν → α)

def outcomes (known : PartialValuation ν) : List α :=
  (known.completions (known.unresolved names)).map decide

variable {names decide}

theorem outcomes_ne_nil (known : PartialValuation ν) : known.outcomes names decide ≠ [] := by
  simp [outcomes, completions_ne_nil]

theorem mem_outcomes (hsupport : known.SupportedOn names)
    :
    value ∈ known.outcomes names decide ↔
      ∃ valuation : PartialValuation ν,
        valuation.TotalOn names ∧ known.Extends valuation ∧ decide valuation = value := by
  simp only [outcomes, List.mem_map, mem_completions_unresolved hsupport, and_assoc]

/-- Knowing more leaves fewer outcomes. -/
theorem outcomes_subset_of_extends {coarse refined : PartialValuation ν}
    (hcoarse : coarse.SupportedOn names) (hrefined : refined.SupportedOn names)
    (hextends : coarse.Extends refined) :
    refined.outcomes names decide ⊆ coarse.outcomes names decide := by
  intro value hvalue
  rw [mem_outcomes hrefined] at hvalue
  obtain ⟨valuation, htotal, hrefinedExt, hdecide⟩ := hvalue
  exact (mem_outcomes hcoarse).mpr ⟨valuation, htotal, hextends.trans hrefinedExt, hdecide⟩

theorem outcomes_eq_singleton_of_resolved (hresolved : known.unresolved names = []) :
    known.outcomes names decide = [decide known] := by
  simp [outcomes, hresolved, completions]

end Outcomes

end Completions

end PartialValuation

/-! ### One-element sets

A source language's set literal is a list up to order and repetition; the test
"exactly one element" is the one its readers branch on. -/

def theOnly [DecidableEq α] (values : List α) : Option α :=
  match values.dedup with
  | [value] => some value
  | _ => none

theorem theOnly_eq_some_iff [DecidableEq α] {values : List α} :
    theOnly values = some value ↔ values ≠ [] ∧ ∀ other ∈ values, other = value := by
  have hdedup : values.dedup = [value] ↔ values ≠ [] ∧ ∀ other ∈ values, other = value := by
    constructor
    · intro h
      have hmem : ∀ other, other ∈ values ↔ other = value := by
        intro other
        rw [← List.mem_dedup, h, List.mem_singleton]
      exact ⟨List.ne_nil_of_mem ((hmem value).mpr rfl), fun other => (hmem other).mp⟩
    · rintro ⟨hne, hall⟩
      obtain ⟨head, hhead⟩ := List.exists_mem_of_ne_nil values hne
      have hvalue : value ∈ values.dedup := by
        rw [List.mem_dedup, ← hall head hhead]
        exact hhead
      rw [← List.perm_singleton,
        List.perm_ext_iff_of_nodup values.nodup_dedup (List.nodup_singleton value)]
      intro other
      rw [List.mem_singleton]
      exact ⟨fun h => hall other (List.mem_dedup.mp h), fun h => h ▸ hvalue⟩
  unfold theOnly
  cases hvalues : values.dedup with
  | nil => rw [hvalues] at hdedup; simpa using hdedup
  | cons head tail =>
    cases tail with
    | nil | cons second rest => rw [hvalues] at hdedup; simpa using hdedup

theorem theOnly_of_subset [DecidableEq α] {smaller larger : List α}
    (hne : smaller ≠ []) (hsubset : smaller ⊆ larger) (hvalue : theOnly larger = some value) :
    theOnly smaller = some value := by
  rw [theOnly_eq_some_iff] at hvalue ⊢
  exact ⟨hne, fun other hother => hvalue.2 other (hsubset hother)⟩

end ProofOps.Foundation
