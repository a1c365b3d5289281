import Mathlib.Data.List.Perm.Basic
import Mathlib.Data.List.Nodup
import ProofOps.Api.HostedReuse.Leaves

/-!
# Orders of a result

`Reorder` permutes the fields of the objects and the items of the lists inside a value.  The
strings of the public part stay the same in every order (`publicOf_reorder`), and any of them comes
first in some order (`main_first`, `pipeline_first`).
-/

namespace ProofOps.Api.HostedReuse

open Foundation Foundation.Checked Foundation.PyJson

inductive Reorder : Json → Json → Prop where
  | refl (value : Json) : Reorder value value
  | trans {first second third : Json} :
      Reorder first second → Reorder second third → Reorder first third
  | item {before behind : List Json} {value other : Json} : Reorder value other →
      Reorder (.arr (before ++ value :: behind)) (.arr (before ++ other :: behind))
  | items {items others : List Json} : items.Perm others → Reorder (.arr items) (.arr others)
  | field {before behind : Dict} {key : String} {value other : Json} : Reorder value other →
      Reorder (.obj (before ++ (key, value) :: behind)) (.obj (before ++ (key, other) :: behind))
  | fields {fields others : Dict} : fields.Perm others → Reorder (.obj fields) (.obj others)

theorem leavesItems_perm {items others : List Json} (key : String) (h : items.Perm others) :
    (leavesItems key items).Perm (leavesItems key others) := by
  induction h with
  | nil => exact List.Perm.refl _
  | cons item _ ih => exact ih.append_left _
  | swap first second items =>
    simp only [leavesItems, ← List.append_assoc]
    exact List.perm_append_comm.append_right _
  | trans _ _ ih ih' => exact ih.trans ih'

variable {fields : Dict}

theorem leavesFields_perm {others : Dict} (h : fields.Perm others) :
    (leavesFields fields).Perm (leavesFields others) := by
  induction h with
  | nil => exact List.Perm.refl _
  | cons field _ ih =>
    rw [leavesFields, leavesFields]
    split_ifs
    · exact ih
    · exact ih.append_left _
  | swap first second fields =>
    simp only [leavesFields]
    split_ifs
    · exact List.Perm.refl _
    · exact List.Perm.refl _
    · exact List.Perm.refl _
    · simp only [← List.append_assoc]
      exact List.perm_append_comm.append_right _
  | trans _ _ ih ih' => exact ih.trans ih'

variable {other value : Json}

theorem Reorder.leaves_perm (h : Reorder value other) (key : String) :
    (leaves key value).Perm (leaves key other) := by
  induction h generalizing key with
  | refl value => exact List.Perm.refl _
  | trans _ _ ih ih' => exact (ih key).trans (ih' key)
  | item _ ih =>
    simp only [leaves, leavesItems_append, leavesItems]
    exact ((ih (itemKey key)).append_right _).append_left _
  | items h => exact leavesItems_perm (itemKey key) h
  | @field before behind label value other _ ih =>
    simp only [leaves, leavesFields_append, leavesFields]
    split_ifs
    · exact List.Perm.refl _
    · exact ((ih label).append_right _).append_left _
  | fields h => exact leavesFields_perm h

theorem Reorder.of_obj (h : Reorder value other) (hobj : value = .obj fields) :
    ∃ others, other = .obj others ∧ ∀ keys,
      (leavesFields (keep keys fields)).Perm (leavesFields (keep keys others)) := by
  induction h generalizing fields with
  | refl value => exact ⟨fields, hobj, fun keys => List.Perm.refl _⟩
  | trans _ _ ih ih' =>
    obtain ⟨middle, hmiddle, hfirst⟩ := ih hobj
    obtain ⟨others, hothers, hsecond⟩ := ih' hmiddle
    exact ⟨others, hothers, fun keys => (hfirst keys).trans (hsecond keys)⟩
  | item _ _ => cases hobj
  | items _ => cases hobj
  | @field before behind label value other h _ =>
    cases hobj
    refine ⟨_, rfl, fun keys => ?_⟩
    simp only [keep, List.filter_append, leavesFields_append, List.filter_cons]
    refine List.Perm.append_left _ ?_
    split_ifs
    · simp only [leavesFields]
      split_ifs
      · exact List.Perm.refl _
      · exact (h.leaves_perm label).append_right _
    · exact List.Perm.refl _
  | @fields fields others h =>
    cases hobj
    exact ⟨others, rfl, fun keys => leavesFields_perm (h.filter _)⟩

theorem lookup_eq_some_iff {β : Type} {fields : List (String × β)}
    (hkeys : (fields.map Prod.fst).Nodup) {key : String} {value : β} :
    fields.lookup key = some value ↔ (key, value) ∈ fields := by
  induction fields with
  | nil => simp
  | cons field fields ih =>
    rw [List.map_cons, List.nodup_cons] at hkeys
    rw [List.lookup_cons, List.mem_cons]
    by_cases hsame : key = field.1
    · rw [hsame, beq_self_eq_true]
      constructor
      · intro h
        cases h
        exact Or.inl rfl
      · rintro (h | h)
        · rw [← h]
        · exact absurd (List.mem_map_of_mem (f := Prod.fst) h) hkeys.1
    · rw [beq_eq_false_iff_ne.mpr hsame, ih hkeys.2]
      constructor
      · exact Or.inr
      · rintro (h | h)
        · exact absurd (congrArg Prod.fst h) hsame
        · exact h

/-- Reordered mappings have reordered values under the same keys. -/
theorem Reorder.lookup (h : Reorder value other) {others : Dict}
    (hobj : value = .obj fields) (hother : other = .obj others)
    (hkeys : (fields.map Prod.fst).Nodup) :
    (others.map Prod.fst).Nodup ∧ ∀ key,
      (fields.lookup key = none ∧ others.lookup key = none) ∨
      ∃ found kept, fields.lookup key = some found ∧ others.lookup key = some kept ∧
        Reorder found kept := by
  induction h generalizing fields others with
  | refl value =>
    cases hobj.symm.trans hother
    refine ⟨hkeys, fun key => ?_⟩
    cases fields.lookup key with
    | none => exact Or.inl ⟨rfl, rfl⟩
    | some found => exact Or.inr ⟨found, found, rfl, rfl, .refl found⟩
  | trans h h' ih ih' =>
    obtain ⟨middle, hmiddle, -⟩ := h.of_obj hobj
    obtain ⟨hmiddleKeys, hfirst⟩ := ih hobj hmiddle hkeys
    obtain ⟨hotherKeys, hsecond⟩ := ih' hmiddle hother hmiddleKeys
    refine ⟨hotherKeys, fun key => ?_⟩
    rcases hfirst key with ⟨hnone, hgone⟩ | ⟨found, kept, hfound, hkept, hreorder⟩
    · rcases hsecond key with ⟨-, hlast⟩ | ⟨found, kept, hfound, -, -⟩
      · exact Or.inl ⟨hnone, hlast⟩
      · cases hgone.symm.trans hfound
    · rcases hsecond key with ⟨hgone, -⟩ | ⟨found', last, hfound', hlast, hreorder'⟩
      · cases hgone.symm.trans hkept
      · cases hfound'.symm.trans hkept
        exact Or.inr ⟨found, last, hfound, hlast, hreorder.trans hreorder'⟩
  | item _ _ => cases hobj
  | items _ => cases hobj
  | @field before behind label value other h _ =>
    cases hobj
    cases hother
    have hsame : (before ++ (label, other) :: behind).map Prod.fst =
        (before ++ (label, value) :: behind).map Prod.fst := by
      simp only [List.map_append, List.map_cons]
    refine ⟨hsame ▸ hkeys, fun key => ?_⟩
    rw [List.lookup_append, List.lookup_append, List.lookup_cons, List.lookup_cons]
    cases before.lookup key with
    | some found => exact Or.inr ⟨found, found, rfl, rfl, .refl found⟩
    | none =>
      by_cases hlabel : key = label
      · rw [hlabel, beq_self_eq_true]
        exact Or.inr ⟨value, other, rfl, rfl, h⟩
      · rw [beq_eq_false_iff_ne.mpr hlabel]
        cases behind.lookup key with
        | none => exact Or.inl ⟨rfl, rfl⟩
        | some found => exact Or.inr ⟨found, found, rfl, rfl, .refl found⟩
  | @fields fields others h =>
    cases hobj
    cases hother
    have hotherKeys : (others.map Prod.fst).Nodup := (h.map Prod.fst).nodup_iff.mp hkeys
    refine ⟨hotherKeys, fun key => ?_⟩
    cases hfound : fields.lookup key with
    | some found =>
      refine Or.inr ⟨found, found, rfl, ?_, .refl found⟩
      rw [lookup_eq_some_iff hotherKeys, ← h.mem_iff, ← lookup_eq_some_iff hkeys]
      exact hfound
    | none =>
      refine Or.inl ⟨rfl, Option.eq_none_iff_forall_ne_some.mpr fun found hkept => ?_⟩
      rw [lookup_eq_some_iff hotherKeys, ← h.mem_iff, ← lookup_eq_some_iff hkeys] at hkept
      cases hfound.symm.trans hkept

def mainLeaves (payload : Dict) : List Leaf :=
  leavesFields (keep publicKeys payload)

/-- The leaves of a pipeline that are shared. -/
def pipelineLeaves (pipeline : Dict) : List Leaf :=
  leavesFields (keep pipelineKeys pipeline)

variable {payload : Dict}

theorem publicOf_ok_iff {shared : Dict} :
    publicOf payload = .ok shared ↔ ∃ pipeline, pipelineOf payload = .ok pipeline ∧
      keep publicKeys payload ++ [("pipeline", .obj (keep pipelineKeys pipeline))] = shared := by
  unfold publicOf
  rw [bind_ok_iff]
  simp only [pure_ok_iff]

variable {pipeline : Dict}

theorem leaves_publicOf {shared : Dict} (hshared : publicOf payload = .ok shared)
    (hpipeline : pipelineOf payload = .ok pipeline) :
    leaves "" (.obj shared) = mainLeaves payload ++ pipelineLeaves pipeline := by
  obtain ⟨found, hfound, rfl⟩ := publicOf_ok_iff.mp hshared
  cases hpipeline.symm.trans hfound
  have hopen : privateKeys.contains "pipeline" = false := by decide
  simp only [leaves, leavesFields_append, leavesFields, hopen, Bool.false_eq_true, if_false,
    List.append_nil]
  rfl

theorem publicOf_reorder {other : Dict} (hkeys : (payload.map Prod.fst).Nodup)
    (h : Reorder (.obj payload) (.obj other)) (hpipeline : pipelineOf payload = .ok pipeline) :
    ∃ kept, pipelineOf other = .ok kept ∧ (mainLeaves payload).Perm (mainLeaves other) ∧
      (pipelineLeaves pipeline).Perm (pipelineLeaves kept) := by
  obtain ⟨others, hothers, hleaves⟩ := h.of_obj rfl
  cases hothers
  obtain ⟨-, hlookup⟩ := h.lookup rfl rfl hkeys
  unfold pipelineOf at hpipeline ⊢
  rcases hlookup "pipeline" with ⟨hnone, hgone⟩ | ⟨found, kept, hfound, hkept, hreorder⟩
  · rw [hnone] at hpipeline
    cases hpipeline
    rw [hgone]
    exact ⟨[], rfl, hleaves publicKeys, List.Perm.refl _⟩
  · rw [hfound] at hpipeline
    rw [hkept]
    cases found with
    | obj fields =>
      cases hpipeline
      obtain ⟨others, rfl, hperm⟩ := hreorder.of_obj rfl
      exact ⟨others, rfl, hleaves publicKeys, hperm pipelineKeys⟩
    | null | bool _ | int _ | float _ | str _ | arr _ => cases hpipeline

mutual

theorem leaf_first (leaf : Leaf) (key : String) : (value : Json) → leaf ∈ leaves key value →
    ∃ other rest, Reorder value other ∧ leaves key other = leaf :: rest
  | .null, h | .bool _, h | .int _, h | .float _, h => absurd h List.not_mem_nil
  | .str value, h => by
    rw [leaves, List.mem_singleton] at h
    exact ⟨.str value, [], .refl _, by rw [leaves, h]⟩
  | .arr items, h => by
    obtain ⟨before, value, behind, other, rest, rfl, hreorder, hfirst⟩ :=
      leafItems_first leaf (itemKey key) items h
    refine ⟨.arr (other :: (before ++ behind)), rest ++ leavesItems (itemKey key) (before ++ behind),
      (Reorder.item hreorder).trans (.items List.perm_middle), ?_⟩
    rw [leaves, leavesItems, hfirst, List.cons_append]
  | .obj fields, h => by
    obtain ⟨before, label, value, behind, other, rest, rfl, hopen, hreorder, hfirst⟩ :=
      leafFields_first leaf fields h
    refine ⟨.obj ((label, other) :: (before ++ behind)), rest ++ leavesFields (before ++ behind),
      (Reorder.field hreorder).trans (.fields List.perm_middle), ?_⟩
    rw [leaves, leavesFields, hopen, if_neg Bool.false_ne_true, hfirst, List.cons_append]

theorem leafItems_first (leaf : Leaf) (key : String) : (items : List Json) →
    leaf ∈ leavesItems key items → ∃ before value behind other rest,
      items = before ++ value :: behind ∧ Reorder value other ∧ leaves key other = leaf :: rest
  | [], h => absurd h List.not_mem_nil
  | item :: items, h => by
    rw [leavesItems, List.mem_append] at h
    rcases h with h | h
    · obtain ⟨other, rest, hreorder, hfirst⟩ := leaf_first leaf key item h
      exact ⟨[], item, items, other, rest, rfl, hreorder, hfirst⟩
    · obtain ⟨before, value, behind, other, rest, hsplit, hreorder, hfirst⟩ :=
        leafItems_first leaf key items h
      exact ⟨item :: before, value, behind, other, rest, by rw [hsplit, List.cons_append],
        hreorder, hfirst⟩

theorem leafFields_first (leaf : Leaf) : (fields : List (String × Json)) →
    leaf ∈ leavesFields fields → ∃ before label value behind other rest,
      fields = before ++ (label, value) :: behind ∧ privateKeys.contains label = false ∧
        Reorder value other ∧ leaves label other = leaf :: rest
  | [], h => absurd h List.not_mem_nil
  | (key, value) :: fields, h => by
    have hlater : leaf ∈ leavesFields fields → ∃ before label found behind other rest,
        (key, value) :: fields = before ++ (label, found) :: behind ∧
          privateKeys.contains label = false ∧ Reorder found other ∧
          leaves label other = leaf :: rest := by
      intro h
      obtain ⟨before, label, found, behind, other, rest, hsplit, hopen, hreorder, hfirst⟩ :=
        leafFields_first leaf fields h
      exact ⟨(key, value) :: before, label, found, behind, other, rest,
        by rw [hsplit, List.cons_append], hopen, hreorder, hfirst⟩
    rw [leavesFields] at h
    split_ifs at h with hprivate
    · exact hlater h
    · rw [List.mem_append] at h
      rcases h with h | h
      · obtain ⟨other, rest, hreorder, hfirst⟩ := leaf_first leaf key value h
        exact ⟨[], key, value, fields, other, rest, rfl,
          Bool.eq_false_of_not_eq_true hprivate, hreorder, hfirst⟩
      · exact hlater h

end

theorem keep_split {keys : List String} {before behind : Dict} {label : String}
    (h : keep keys fields = before ++ (label, value) :: behind) :
    keys.contains label = true ∧ ∃ front back, fields = front ++ (label, value) :: back := by
  have hmem : (label, value) ∈ keep keys fields := by
    rw [h]
    exact List.mem_append_right _ List.mem_cons_self
  obtain ⟨hfield, hkept⟩ := List.mem_filter.mp hmem
  obtain ⟨front, back, hsplit⟩ := List.append_of_mem hfield
  exact ⟨hkept, front, back, hsplit⟩

variable {leaf : Leaf}

theorem kept_first {keys : List String} (h : leaf ∈ leavesFields (keep keys fields)) :
    ∃ others rest, Reorder (.obj fields) (.obj others) ∧
      leavesFields (keep keys others) = leaf :: rest := by
  obtain ⟨before, label, value, behind, other, rest, hsplit, hopen, hreorder, hfirst⟩ :=
    leafFields_first leaf _ h
  obtain ⟨hkept, front, back, rfl⟩ := keep_split hsplit
  refine ⟨(label, other) :: (front ++ back), rest ++ leavesFields (keep keys (front ++ back)),
    (Reorder.field hreorder).trans (.fields List.perm_middle), ?_⟩
  rw [keep, List.filter_cons, if_pos hkept, leavesFields, hopen, if_neg Bool.false_ne_true, hfirst,
    List.cons_append]
  rfl

theorem main_first (h : leaf ∈ mainLeaves payload) :
    ∃ other rest, Reorder (.obj payload) (.obj other) ∧ mainLeaves other = leaf :: rest :=
  kept_first h

theorem pipeline_first
    (hkeys : (payload.map Prod.fst).Nodup) (hpipeline : pipelineOf payload = .ok pipeline)
    (h : leaf ∈ pipelineLeaves pipeline) :
    ∃ other kept rest, Reorder (.obj payload) (.obj other) ∧ pipelineOf other = .ok kept ∧
      mainLeaves other = mainLeaves payload ∧ pipelineLeaves kept = leaf :: rest := by
  obtain ⟨kept, rest, hreorder, hfirst⟩ := kept_first h
  have hfound : payload.lookup "pipeline" = some (.obj pipeline) := by
    unfold pipelineOf at hpipeline
    cases hlookup : payload.lookup "pipeline" with
    | none =>
      rw [hlookup] at hpipeline
      cases hpipeline
      exact absurd h List.not_mem_nil
    | some found =>
      rw [hlookup] at hpipeline
      cases found with
      | obj fields =>
        cases hpipeline
        rfl
      | null | bool _ | int _ | float _ | str _ | arr _ => cases hpipeline
  obtain ⟨front, back, rfl⟩ := List.append_of_mem ((lookup_eq_some_iff hkeys).mp hfound)
  have hmoved : Reorder (.obj (front ++ ("pipeline", .obj pipeline) :: back))
      (.obj (front ++ ("pipeline", .obj kept) :: back)) := .field hreorder
  refine ⟨_, kept, rest, hmoved, ?_, ?_, hfirst⟩
  · obtain ⟨hotherKeys, -⟩ := hmoved.lookup rfl rfl hkeys
    have hkept : (front ++ ("pipeline", Json.obj kept) :: back).lookup "pipeline" =
        some (.obj kept) :=
      (lookup_eq_some_iff hotherKeys).mpr (List.mem_append_right _ List.mem_cons_self)
    rw [pipelineOf, hkept]
  · have hdropped : publicKeys.contains "pipeline" = false := by decide
    simp only [mainLeaves, keep, List.filter_append, List.filter_cons, hdropped,
      Bool.false_eq_true, if_false]

end ProofOps.Api.HostedReuse
