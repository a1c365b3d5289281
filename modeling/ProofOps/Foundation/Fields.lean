import Mathlib.Data.List.Pairwise
import Mathlib.Order.Lattice

/-!
# Fields in key order

The fields of a dictionary, each key once and in order.  What updates and unions do is read off their
lookups (`get_set`, `get_merge`).
-/

namespace ProofOps.Foundation.Fields

universe u v

variable {κ : Type u} {α : Type v} [LinearOrder κ]

/-- `fields.get(key)`. -/
def get (fields : List (κ × α)) (key : κ) : Option α :=
  (fields.find? fun field => field.1 = key).map Prod.snd

/-- `fields[key] = value`. -/
def set : List (κ × α) → κ → α → List (κ × α)
  | [], key, value => [(key, value)]
  | field :: fields, key, value =>
    if key < field.1 then (key, value) :: field :: fields
    else if key = field.1 then (key, value) :: fields
    else field :: set fields key value

/-- The keys are increasing. -/
def Ordered (fields : List (κ × α)) : Prop :=
  fields.Pairwise fun first second => first.1 < second.1

instance (fields : List (κ × α)) : Decidable (Ordered fields) :=
  inferInstanceAs (Decidable (List.Pairwise _ _))

variable {fields other : List (κ × α)} {key key' : κ} {value : α}

theorem get_cons (field : κ × α) (fields : List (κ × α)) (key : κ) :
    get (field :: fields) key = if field.1 = key then some field.2 else get fields key := by
  unfold get
  by_cases h : field.1 = key
  · simp [h]
  · simp [h]

/-- Setting a key changes the look-up of that key only. -/
@[simp]
theorem get_set (fields : List (κ × α)) (key key' : κ) (value : α) :
    get (set fields key value) key' = if key' = key then some value else get fields key' := by
  have hhead : ∀ rest : List (κ × α), get ((key, value) :: rest) key' =
      if key' = key then some value else get rest key' := by
    intro rest
    rw [get_cons]
    exact if_congr eq_comm rfl rfl
  induction fields with
  | nil => exact hhead []
  | cons field fields ih =>
    unfold set
    by_cases hlt : key < field.1
    · rw [if_pos hlt]
      exact hhead (field :: fields)
    · rw [if_neg hlt]
      by_cases heq : key = field.1
      · rw [if_pos heq, hhead, get_cons, ← heq]
        by_cases hkey : key' = key
        · rw [if_pos hkey, if_pos hkey]
        · rw [if_neg hkey, if_neg hkey, if_neg (Ne.symm hkey)]
      · rw [if_neg heq, get_cons, ih, get_cons]
        by_cases hkey : key' = key
        · rw [if_pos hkey, if_pos hkey, if_neg fun hsame => heq (hkey.symm.trans hsame.symm)]
        · rw [if_neg hkey, if_neg hkey]

theorem get_eq_none_of_lt (h : ∀ field ∈ fields, key < field.1) : get fields key = none := by
  induction fields with
  | nil => rfl
  | cons field fields ih =>
    rw [List.forall_mem_cons] at h
    rw [get_cons, if_neg (ne_of_gt h.1), ih h.2]

def restrict (fields : List (κ × α)) (keys : List κ) : List (κ × α) :=
  fields.filter fun field => field.1 ∈ keys

theorem get_restrict {keys : List κ} (h : key ∈ keys) :
    get (restrict fields keys) key = get fields key := by
  unfold restrict
  induction fields with
  | nil => rfl
  | cons field fields ih =>
    by_cases hfield : field.1 ∈ keys
    · rw [List.filter_cons_of_pos (by simpa using hfield), get_cons, get_cons, ih]
    · have hne : field.1 ≠ key := fun hsame => hfield (hsame ▸ h)
      rw [List.filter_cons_of_neg (by simpa using hfield), ih, get_cons, if_neg hne]

/-- `{**first, **second}`. -/
def merge (first second : List (κ × α)) : List (κ × α) :=
  second.foldl (fun fields field => set fields field.1 field.2) first

theorem get_merge {first second : List (κ × α)} (h : Ordered second) (key : κ) :
    get (merge first second) key = (get second key).or (get first key) := by
  unfold merge
  induction second generalizing first with
  | nil => rfl
  | cons field second ih =>
    have hcons := List.pairwise_cons.mp h
    rw [List.foldl_cons, ih hcons.2, get_set, get_cons]
    by_cases hkey : key = field.1
    · rw [if_pos hkey, if_pos hkey.symm, hkey, get_eq_none_of_lt hcons.1]
      rfl
    · rw [if_neg hkey, if_neg (Ne.symm hkey)]

def keysAre (fields : List (κ × α)) (keys : List κ) : Bool :=
  fields.all (fun field => field.1 ∈ keys) && keys.all fun key => (get fields key).isSome

end ProofOps.Foundation.Fields
