import Mathlib.Data.List.Nodup
import Mathlib.Data.List.Pairwise

/-!
# Paired lists

Two lists whose entries stand in a relation, one to one and in order.  What holds between the
entries of one list passes to the other, and an entry of the first has its partner in the second,
where every other partner belongs to an entry with a different key.
-/

namespace ProofOps.Foundation.Paired

universe u v w

variable {α : Type u} {β : Type v} {R : α → β → Prop} {first : List α} {second : List β}

/-- Every second item has a first one. -/
theorem exists_left (h : List.Forall₂ R first second) {b : β} (hb : b ∈ second) :
    ∃ a ∈ first, R a b := by
  induction h with
  | nil => cases hb
  | @cons a made first second hab _ ih =>
    rcases List.mem_cons.mp hb with rfl | htail
    · exact ⟨a, List.mem_cons_self, hab⟩
    · obtain ⟨partner, hpartner, hpair⟩ := ih htail
      exact ⟨partner, List.mem_cons_of_mem _ hpartner, hpair⟩

theorem imp_of_mem {S : α → β → Prop} (h : List.Forall₂ R first second)
    (himp : ∀ a ∈ first, ∀ b ∈ second, R a b → S a b) : List.Forall₂ S first second := by
  induction h with
  | nil => exact .nil
  | cons hhead _ ih =>
    refine .cons (himp _ List.mem_cons_self _ List.mem_cons_self hhead) (ih ?_)
    intro a ha b hb
    exact himp a (List.mem_cons_of_mem _ ha) b (List.mem_cons_of_mem _ hb)

variable {S : α → α → Prop}

theorem pairwise {T : β → β → Prop} (h : List.Forall₂ R first second) (hfirst : first.Pairwise S)
    (hpass : ∀ {a a' b b'}, S a a' → R a b → R a' b' → T b b') : second.Pairwise T := by
  induction h with
  | nil => exact List.Pairwise.nil
  | @cons a b first second hab hrest ih =>
    rw [List.pairwise_cons] at hfirst
    refine List.pairwise_cons.mpr ⟨fun b' hb' => ?_, ih hfirst.2⟩
    obtain ⟨a', ha', hpair⟩ := exists_left hrest hb'
    exact hpass (hfirst.1 a' ha') hab hpair

theorem exists_split (h : List.Forall₂ R first second) (hfirst : first.Pairwise S)
    (hsymm : ∀ {a a'}, S a a' → S a' a) {a : α} (ha : a ∈ first) :
    ∃ front b back, second = front ++ b :: back ∧ R a b ∧
      ∀ b' ∈ front ++ back, ∃ a' ∈ first, S a a' ∧ R a' b' := by
  induction h with
  | nil => cases ha
  | @cons head b first second hab hrest ih =>
    rw [List.pairwise_cons] at hfirst
    rcases List.mem_cons.mp ha with rfl | htail
    · refine ⟨[], b, second, rfl, hab, fun b' hb' => ?_⟩
      obtain ⟨a', ha', hother⟩ := exists_left hrest hb'
      exact ⟨a', List.mem_cons_of_mem _ ha', hfirst.1 a' ha', hother⟩
    · obtain ⟨front, partner, back, rfl, hpartner, hothers⟩ := ih hfirst.2 htail
      refine ⟨b :: front, partner, back, rfl, hpartner, fun b' hb' => ?_⟩
      rcases List.mem_cons.mp hb' with rfl | hother
      · exact ⟨head, List.mem_cons_self, hsymm (hfirst.1 a htail), hab⟩
      · obtain ⟨a', ha', hne, hpair⟩ := hothers b' hother
        exact ⟨a', List.mem_cons_of_mem _ ha', hne, hpair⟩

theorem exists_flatMap_eq (h : List.Forall₂ R first second) (hfirst : first.Pairwise S)
    (hsymm : ∀ {a a'}, S a a' → S a' a) {a : α} (ha : a ∈ first) :
    ∃ b ∈ second, R a b ∧ ∀ {γ : Type w} (f : β → List γ),
      (∀ {a' b'}, S a a' → R a' b' → f b' = []) → second.flatMap f = f b := by
  obtain ⟨front, b, back, rfl, hpair, hothers⟩ := exists_split h hfirst hsymm ha
  refine ⟨b, by simp, hpair, fun f hempty => ?_⟩
  have hnil : ∀ b' ∈ front ++ back, f b' = [] := by
    intro b' hb'
    obtain ⟨a', -, hne, hother⟩ := hothers b' hb'
    exact hempty hne hother
  have hfront : front.flatMap f = [] :=
    List.flatMap_eq_nil_iff.mpr fun b' hb' => hnil b' (List.mem_append_left _ hb')
  have hback : back.flatMap f = [] :=
    List.flatMap_eq_nil_iff.mpr fun b' hb' => hnil b' (List.mem_append_right _ hb')
  rw [List.flatMap_append, List.flatMap_cons, hfront, hback, List.nil_append, List.append_nil]

end ProofOps.Foundation.Paired
