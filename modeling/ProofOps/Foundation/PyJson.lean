import Mathlib.Data.Rat.Defs
import Mathlib.Data.String.Basic
import ProofOps.Foundation.Fields

/-!
# JSON values

Values of `json.loads`.  The fields of an object stand in key order, so that two ordered values
are equal exactly when their canonical encodings are; the sign of a zero is not represented.
Python's own `==` also identifies numbers and truth values of different types (`pyEqual`).
-/

namespace ProofOps.Foundation.PyJson

inductive Json where
  | null
  | bool (value : Bool)
  | int (value : Int)
  | float (value : ℚ)
  | str (value : String)
  | arr (items : List Json)
  | obj (fields : List (String × Json))

abbrev Dict := List (String × Json)

mutual

def decideEq : (first second : Json) → Decidable (first = second)
  | .null, second =>
    match second with
    | .null => isTrue rfl
    | .bool _ | .int _ | .float _ | .str _ | .arr _ | .obj _ => isFalse (by simp)
  | .bool value, second =>
    match second with
    | .bool other => decidable_of_iff (value = other) (by simp)
    | .null | .int _ | .float _ | .str _ | .arr _ | .obj _ => isFalse (by simp)
  | .int value, second =>
    match second with
    | .int other => decidable_of_iff (value = other) (by simp)
    | .null | .bool _ | .float _ | .str _ | .arr _ | .obj _ => isFalse (by simp)
  | .float value, second =>
    match second with
    | .float other => decidable_of_iff (value = other) (by simp)
    | .null | .bool _ | .int _ | .str _ | .arr _ | .obj _ => isFalse (by simp)
  | .str value, second =>
    match second with
    | .str other => decidable_of_iff (value = other) (by simp)
    | .null | .bool _ | .int _ | .float _ | .arr _ | .obj _ => isFalse (by simp)
  | .arr items, second =>
    match second with
    | .arr others =>
      match decideEqItems items others with
      | isTrue h => isTrue (by rw [h])
      | isFalse h => isFalse (by simpa using h)
    | .null | .bool _ | .int _ | .float _ | .str _ | .obj _ => isFalse (by simp)
  | .obj fields, second =>
    match second with
    | .obj others =>
      match decideEqFields fields others with
      | isTrue h => isTrue (by rw [h])
      | isFalse h => isFalse (by simpa using h)
    | .null | .bool _ | .int _ | .float _ | .str _ | .arr _ => isFalse (by simp)

def decideEqItems : (first second : List Json) → Decidable (first = second)
  | [], [] => isTrue rfl
  | [], _ :: _ => isFalse (by simp)
  | _ :: _, [] => isFalse (by simp)
  | item :: items, other :: others =>
    match decideEq item other, decideEqItems items others with
    | isTrue h, isTrue h' => isTrue (by rw [h, h'])
    | isFalse h, _ => isFalse (by simp [h])
    | _, isFalse h => isFalse (by simp [h])

def decideEqFields : (first second : List (String × Json)) → Decidable (first = second)
  | [], [] => isTrue rfl
  | [], _ :: _ => isFalse (by simp)
  | _ :: _, [] => isFalse (by simp)
  | (key, value) :: fields, (key', value') :: others =>
    match decideEq value value', decideEqFields fields others with
    | isTrue h, isTrue h' => decidable_of_iff (key = key') (by simp [h, h'])
    | isFalse h, _ => isFalse (by simp [h])
    | _, isFalse h => isFalse (by simp [h])

end

instance : DecidableEq Json :=
  decideEq

/-! ### Equality of Python -/

def numberOf : Json → Option ℚ
  | .bool value => some (if value then 1 else 0)
  | .int value => some value
  | .float value => some value
  | _ => none

mutual

/-- `first == second`. -/
def pyEqual : Json → Json → Bool
  | .arr items, .arr others => pyEqualItems items others
  | .obj fields, .obj others => pyEqualFields fields others
  | .null, .null => true
  | .str value, .str other => value = other
  | first, second =>
    match numberOf first, numberOf second with
    | some value, some other => value = other
    | _, _ => false

def pyEqualItems : List Json → List Json → Bool
  | [], [] => true
  | item :: items, other :: others => pyEqual item other && pyEqualItems items others
  | _, _ => false

def pyEqualFields : List (String × Json) → List (String × Json) → Bool
  | [], [] => true
  | (key, value) :: fields, (key', value') :: others =>
    key = key' && pyEqual value value' && pyEqualFields fields others
  | _, _ => false

end

mutual

/-- Every value equals itself. -/
theorem pyEqual_self : (value : Json) → pyEqual value value = true
  | .null => by simp [pyEqual]
  | .bool _ => by simp [pyEqual, numberOf]
  | .int _ => by simp [pyEqual, numberOf]
  | .float _ => by simp [pyEqual, numberOf]
  | .str _ => by simp [pyEqual]
  | .arr items => by rw [pyEqual, pyEqualItems_self items]
  | .obj fields => by rw [pyEqual, pyEqualFields_self fields]

theorem pyEqualItems_self : (items : List Json) → pyEqualItems items items = true
  | [] => by simp [pyEqualItems]
  | item :: items => by simp [pyEqualItems, pyEqual_self item, pyEqualItems_self items]

theorem pyEqualFields_self : (fields : List (String × Json)) → pyEqualFields fields fields = true
  | [] => by simp [pyEqualFields]
  | (_, value) :: fields => by
    simp [pyEqualFields, pyEqual_self value, pyEqualFields_self fields]

end

theorem pyEqualFields_get {fields others : Dict} {key : String} {value : Json}
    (h : pyEqualFields fields others = true) (hget : Fields.get others key = some value) :
    ∃ found, Fields.get fields key = some found ∧ pyEqual found value = true := by
  induction others generalizing fields with
  | nil => cases hget
  | cons other others ih =>
    cases fields with
    | nil => cases h
    | cons field fields =>
      unfold pyEqualFields at h
      simp only [Bool.and_eq_true, decide_eq_true_eq] at h
      obtain ⟨⟨hkey, hvalue⟩, hrest⟩ := h
      rw [Fields.get_cons] at hget ⊢
      rw [hkey]
      split_ifs at hget ⊢ with hhere
      · cases hget
        exact ⟨field.2, rfl, hvalue⟩
      · exact ih hrest hget

theorem numberOf_of_pyEqual_int {value : Json} {number : Int}
    (h : pyEqual value (.int number) = true) : numberOf value = some (number : ℚ) := by
  cases value <;> simp_all [pyEqual, numberOf]

/-- `bool(value)`. -/
def Json.truthy : Json → Bool
  | .null => false
  | .bool value => value
  | .int value => value ≠ 0
  | .float value => value ≠ 0
  | .str value => value ≠ ""
  | .arr items => !items.isEmpty
  | .obj fields => !fields.isEmpty

end ProofOps.Foundation.PyJson
