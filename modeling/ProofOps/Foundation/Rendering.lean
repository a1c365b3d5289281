import Mathlib.Data.Rat.Defs
import Mathlib.Data.String.Basic

/-!
# Rendering of records

A record is rendered as the texts of its fields, each of which tells where it ends.  Records whose
fields differ are rendered differently, so the rendering stands for an injective hash.
-/

namespace ProofOps.Foundation.Rendering

def delimited : List Char → List Char
  | [] => ['0']
  | c :: cs => '1' :: c :: delimited cs

theorem delimited_append_inj {first second rest rest' : List Char}
    (h : delimited first ++ rest = delimited second ++ rest') : first = second ∧ rest = rest' := by
  induction first generalizing second with
  | nil =>
    cases second with
    | nil => exact ⟨rfl, (List.cons.inj h).2⟩
    | cons d ds => simp [delimited] at h
  | cons c cs ih =>
    cases second with
    | nil => simp [delimited] at h
    | cons d ds =>
      simp only [delimited, List.cons_append, List.cons.injEq, true_and] at h
      obtain ⟨rfl, h⟩ := h
      obtain ⟨rfl, hrest⟩ := ih h
      exact ⟨rfl, hrest⟩

def rendered (fields : List (List Char)) : List Char :=
  fields.flatMap delimited

theorem rendered_injective : Function.Injective rendered := by
  intro first second h
  induction first generalizing second with
  | nil =>
    cases second with
    | nil => rfl
    | cons field fields => cases field <;> cases h
  | cons field fields ih =>
    cases second with
    | nil => cases field <;> cases h
    | cons other others =>
      obtain ⟨rfl, hrest⟩ := delimited_append_inj h
      rw [ih hrest]

def optional {α : Type} (field : α → List Char) : Option α → List Char
  | none => []
  | some value => 'S' :: field value

theorem optional_injective {α : Type} {field : α → List Char} (h : Function.Injective field) :
    Function.Injective (optional field) := by
  intro first second hsame
  cases first with
  | none =>
    cases second with
    | none => rfl
    | some other => cases hsame
  | some value =>
    cases second with
    | none => cases hsame
    | some other => rw [h (List.cons.inj hsame).2]

def natural (n : Nat) : List Char :=
  List.replicate n '1'

theorem natural_injective : Function.Injective natural := by
  intro first second h
  have hlength := congrArg List.length h
  rwa [natural, natural, List.length_replicate, List.length_replicate] at hlength

/-- An integer, with its sign. -/
def integer : Int → List Char
  | .ofNat n => '+' :: natural n
  | .negSucc n => '-' :: natural n

/-- Integers are told apart. -/
theorem integer_injective : Function.Injective integer := by
  intro first second h
  cases first with
  | ofNat m =>
    cases second with
    | ofNat n => rw [natural_injective (List.cons.inj h).2]
    | negSucc n => exact absurd (List.cons.inj h).1 (by decide)
  | negSucc m =>
    cases second with
    | ofNat n => exact absurd (List.cons.inj h).1 (by decide)
    | negSucc n => rw [natural_injective (List.cons.inj h).2]

def rational (q : ℚ) : List Char :=
  rendered [integer q.num, natural q.den]

theorem rational_injective : Function.Injective rational := by
  intro first second h
  have hfields := rendered_injective h
  rw [List.cons.injEq, List.cons.injEq] at hfields
  exact Rat.ext (integer_injective hfields.1) (natural_injective hfields.2.1)

end ProofOps.Foundation.Rendering
