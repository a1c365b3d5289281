import ProofOps.Api.HostedReuse.Orders
import ProofOps.Api.HostedReuse.Rewriting

/-!
# What the private copy rebinds

`Rebinds` states the purpose of the copy: one function, the same in every order of the result,
rewrites the identifiers that stand in a string and nothing else, and leaves none of them.  The
walk enters an identifier only when it meets its key, so among results whose free strings mention
identifiers as whole words it does so exactly where nothing is mentioned before it is entered and no
target brings an identifier back (`private_copy_rebinds`).
-/

namespace ProofOps.Api.HostedReuse

open Foundation Foundation.Checked Foundation.PyJson

/-! ### The purpose -/

/-- The identifiers of the scope that is copied. -/
def Copying.sourceIds (copying : Copying) : List String :=
  [copying.source.tenantId, copying.source.documentId, copying.source.runId]

def Copying.targetOf (copying : Copying) (id : String) : String :=
  (copying.initial.lookup id).getD (copying.uuid5 id)

/-- The values that stand under identity keys. -/
def identified (strings : List Leaf) : List String :=
  (strings.filter fun leaf => roleOf leaf.1 = .identity).map Prod.snd

def registered (copying : Copying) (strings : List Leaf) : List String :=
  copying.sourceIds ++ identified strings

def outsideText (f : String → String) (leaf : Leaf) : String :=
  if roleOf leaf.1 = .text then leaf.2 else f leaf.2

structure RewritesIds (copying : Copying) (strings : List Leaf) (f : String → String) : Prop where
  rewritten : ∀ leaf ∈ strings, roleOf leaf.1 ≠ .text →
    Rewritten (registered copying strings) copying.targetOf leaf.2.toList (f leaf.2).toList
  whole : ∀ leaf ∈ strings, roleOf leaf.1 ≠ .text → leaf.2 ∈ registered copying strings →
    f leaf.2 = copying.targetOf leaf.2
  clean : ∀ leaf ∈ strings, roleOf leaf.1 ≠ .text → ∀ id ∈ registered copying strings,
    ¬Embeds id (f leaf.2)

def Rebinds (copying : Copying) (payload : Dict) : Prop :=
  ∃ shared f, publicOf payload = .ok shared ∧
    RewritesIds copying (leaves "" (.obj shared)) f ∧
    (∀ label ∈ labels (.obj shared), ∀ id ∈ registered copying (leaves "" (.obj shared)),
      ¬Embeds id label) ∧
    ∀ other, Reorder (.obj payload) (.obj other) → ∃ kept, publicOf other = .ok kept ∧
      privateCopy copying other = .ok (rebind (outsideText f) "" (.obj kept))

structure Worded (sep : Char → Bool) (copying : Copying) (strings : List Leaf) : Prop where
  ids : ∀ id ∈ registered copying strings, Words.IsWord sep id.toList
  whole : ∀ leaf ∈ strings, roleOf leaf.1 = .free →
    ∀ word ∈ Words.words sep leaf.2.toList, ∀ id ∈ registered copying strings,
      id.toList <:+: word → id.toList = word

def Copying.scopeTarget (copying : Copying) : Role → Option String
  | .tenant => some copying.target.tenantId
  | .run => some copying.target.runId
  | .document => some copying.target.documentId
  | _ => none

def Mentions (leaf : Leaf) (id : String) : Prop :=
  (roleOf leaf.1 = .identity ∧ leaf.2 = id) ∨ (roleOf leaf.1 = .free ∧ Embeds id leaf.2)

instance (leaf : Leaf) (id : String) : Decidable (Mentions leaf id) :=
  inferInstanceAs (Decidable (_ ∨ _))

structure ScopeFits (copying : Copying) (strings : List Leaf) (value target : String) : Prop where
  rewritten : Rewritten (registered copying strings) copying.targetOf value.toList target.toList
  whole : value ∈ registered copying strings → copying.targetOf value = target
  clean : ∀ id ∈ registered copying strings, ¬Embeds id target
  agree : ∀ leaf ∈ strings, leaf.2 = value →
    ∀ written ∈ copying.scopeTarget (roleOf leaf.1), written = target

structure Ready (copying : Copying) (payload pipeline : Dict) (strings : List Leaf)
    (keys : List String) : Prop where
  keys_clean : ∀ label ∈ keys, ∀ id ∈ registered copying strings, ¬Embeds id label
  settled : ∀ leaf ∈ strings, ∀ id ∈ registered copying strings, Mentions leaf id →
    ∀ other ∈ registered copying strings, ¬Embeds other (copying.targetOf id)
  scope : ∀ leaf ∈ strings, ∀ target ∈ copying.scopeTarget (roleOf leaf.1),
    ScopeFits copying strings leaf.2 target
  main : ∀ leaf ∈ mainLeaves payload, roleOf leaf.1 = .free →
    ∀ id ∈ registered copying strings, Embeds id leaf.2 → id ∈ copying.sourceIds
  pipeline : ∀ leaf ∈ pipelineLeaves pipeline, roleOf leaf.1 = .free →
    ∀ id ∈ registered copying strings, Embeds id leaf.2 →
      id ∈ copying.sourceIds ∨ id ∈ identified (mainLeaves payload)

def WholeWords (copying : Copying) (payload : Dict) : Prop :=
  ∀ shared, publicOf payload = .ok shared → ∃ sep, Worded sep copying (leaves "" (.obj shared))

def EnteredFirst (copying : Copying) (payload : Dict) : Prop :=
  ∃ pipeline shared, pipelineOf payload = .ok pipeline ∧ publicOf payload = .ok shared ∧
    Ready copying payload pipeline (leaves "" (.obj shared)) (labels (.obj shared))

/-! ### The dictionary -/

variable {copying : Copying} {strings : List Leaf} {identities : Identities} {sep : Char → Bool}

variable {key value : String}

theorem lookup_enter {other : String} :
    (enter identities key value).lookup other =
      if other = key then some value else identities.lookup other := by
  induction identities with
  | nil =>
    rw [enter, List.lookup_cons, List.lookup_nil]
    split_ifs with hsame
    · rw [hsame, beq_self_eq_true]
    · rw [beq_eq_false_iff_ne.mpr hsame]
  | cons entry identities ih =>
    rw [enter]
    by_cases hentry : entry.1 = key
    · rw [if_pos hentry, List.lookup_cons, List.lookup_cons, hentry]
      split_ifs with hsame
      · rw [hsame, beq_self_eq_true]
      · rw [beq_eq_false_iff_ne.mpr hsame]
    · rw [if_neg hentry, List.lookup_cons, List.lookup_cons, ih]
      by_cases hsame : other = entry.1
      · simp only [hsame, beq_self_eq_true, if_neg hentry]
      · rw [beq_eq_false_iff_ne.mpr hsame]

theorem map_fst_enter :
    (enter identities key value).map Prod.fst =
      if key ∈ identities.map Prod.fst then identities.map Prod.fst
      else identities.map Prod.fst ++ [key] := by
  induction identities with
  | nil => simp [enter]
  | cons entry identities ih =>
    rw [enter, List.map_cons]
    by_cases hentry : entry.1 = key
    · rw [if_pos hentry, if_pos (by rw [hentry]; exact List.mem_cons_self), List.map_cons, hentry]
    · have hkey : key ∈ entry.1 :: identities.map Prod.fst ↔ key ∈ identities.map Prod.fst := by
        rw [List.mem_cons]
        exact or_iff_right (Ne.symm hentry)
      rw [if_neg hentry, List.map_cons, ih]
      simp only [hkey]
      split_ifs
      · rfl
      · rw [List.cons_append]

theorem nodup_enter (h : (identities.map Prod.fst).Nodup) :
    ((enter identities key value).map Prod.fst).Nodup := by
  rw [map_fst_enter]
  split_ifs with hkey
  · exact h
  · rw [List.nodup_append]
    refine ⟨h, List.nodup_singleton key, ?_⟩
    intro first hfirst second hsecond
    rw [List.mem_singleton.mp hsecond]
    exact fun hsame => hkey (hsame ▸ hfirst)

theorem nodup_initial (copying : Copying) : (copying.initial.map Prod.fst).Nodup :=
  nodup_enter (nodup_enter (nodup_enter List.nodup_nil))

theorem lookup_initial (copying : Copying) (id : String) :
    copying.initial.lookup id =
      if id = copying.source.runId then some copying.target.runId
      else if id = copying.source.documentId then some copying.target.documentId
      else if id = copying.source.tenantId then some copying.target.tenantId
      else none := by
  simp only [Copying.initial, lookup_enter, List.lookup_nil]

variable {id : String}

theorem lookup_initial_isSome_iff :
    (copying.initial.lookup id).isSome = true ↔ id ∈ copying.sourceIds := by
  rw [lookup_initial]
  unfold Copying.sourceIds
  split_ifs <;> simp_all

structure Sound (copying : Copying) (strings : List Leaf) (identities : Identities) : Prop where
  nodup : (identities.map Prod.fst).Nodup
  registered : ∀ entry ∈ identities, entry.1 ∈ registered copying strings
  targets : ∀ entry ∈ identities, entry.2 = copying.targetOf entry.1
  source : ∀ id ∈ copying.sourceIds, id ∈ identities.map Prod.fst

theorem sound_initial (copying : Copying) (strings : List Leaf) :
    Sound copying strings copying.initial := by
  have hlookup : ∀ entry ∈ copying.initial, copying.initial.lookup entry.1 = some entry.2 :=
    fun entry hentry => (lookup_eq_some_iff (nodup_initial copying)).mpr hentry
  constructor
  case nodup => exact nodup_initial copying
  case registered =>
    intro entry hentry
    apply List.mem_append_left
    rw [← lookup_initial_isSome_iff, hlookup entry hentry]
    rfl
  case targets =>
    intro entry hentry
    rw [Copying.targetOf, hlookup entry hentry]
    rfl
  case source =>
    intro id hid
    obtain ⟨target, htarget⟩ := Option.isSome_iff_exists.mp (lookup_initial_isSome_iff.mpr hid)
    exact List.mem_map_of_mem (f := Prod.fst)
      ((lookup_eq_some_iff (nodup_initial copying)).mp htarget)

/-- An identity becomes its target, and is known afterwards. -/
theorem identity_spec (h : Sound copying strings identities)
    (hvalue : value ∈ registered copying strings) :
    (identity copying identities value).1 = copying.targetOf value ∧
      Sound copying strings (identity copying identities value).2 ∧
      (identity copying identities value).2.map Prod.fst =
        if value ∈ identities.map Prod.fst then identities.map Prod.fst
        else identities.map Prod.fst ++ [value] := by
  unfold identity
  cases hfound : identities.lookup value with
  | some replacement =>
    have hentry := (lookup_eq_some_iff h.nodup).mp hfound
    have hkey : value ∈ identities.map Prod.fst := List.mem_map_of_mem (f := Prod.fst) hentry
    refine ⟨h.targets _ hentry, h, ?_⟩
    rw [if_pos hkey]
  | none =>
    have hkey : value ∉ identities.map Prod.fst := by
      intro hkey
      obtain ⟨entry, hentry, rfl⟩ := List.mem_map.mp hkey
      rw [(lookup_eq_some_iff h.nodup).mpr hentry] at hfound
      cases hfound
    have htarget : copying.targetOf value = copying.uuid5 value := by
      have hsource : value ∉ copying.sourceIds := fun hsource => hkey (h.source value hsource)
      rw [← lookup_initial_isSome_iff, Bool.not_eq_true, Option.isSome_eq_false_iff,
        Option.isNone_iff_eq_none] at hsource
      rw [Copying.targetOf, hsource]
      rfl
    refine ⟨htarget.symm, ?_, ?_⟩
    · constructor
      case nodup =>
        rw [List.map_append, List.nodup_append]
        refine ⟨h.nodup, List.nodup_singleton _, ?_⟩
        intro first hfirst second hsecond
        rw [List.map_singleton, List.mem_singleton] at hsecond
        intro hsame
        rw [hsame, hsecond] at hfirst
        exact hkey hfirst
      case registered =>
        intro entry hentry
        rcases List.mem_append.mp hentry with hentry | hentry
        · exact h.registered entry hentry
        · rw [List.mem_singleton.mp hentry]
          exact hvalue
      case targets =>
        intro entry hentry
        rcases List.mem_append.mp hentry with hentry | hentry
        · exact h.targets entry hentry
        · rw [List.mem_singleton.mp hentry]
          exact htarget.symm
      case source =>
        intro id hid
        rw [List.map_append]
        exact List.mem_append_left _ (h.source id hid)
    · rw [if_neg hkey, List.map_append, List.map_singleton]

variable {met : List Leaf}

theorem copyLeaves_entered (h : Sound copying strings identities)
    (hmet : ∀ id ∈ identified met, id ∈ registered copying strings) :
    Sound copying strings (copyLeaves copying identities met).2 ∧
      ∀ id, id ∈ (copyLeaves copying identities met).2.map Prod.fst ↔
        id ∈ identities.map Prod.fst ∨ id ∈ identified met := by
  induction met generalizing identities with
  | nil => exact ⟨h, fun id => by simp [copyLeaves, identified]⟩
  | cons leaf rest ih =>
    have hrest : ∀ id ∈ identified rest, id ∈ registered copying strings := by
      intro id hid
      apply hmet id
      unfold identified at hid ⊢
      rw [List.filter_cons]
      split_ifs
      · exact List.mem_cons_of_mem _ hid
      · exact hid
    rw [copyLeaves]
    by_cases hrole : roleOf leaf.1 = .identity
    · have hleaf : leaf.2 ∈ registered copying strings := by
        apply hmet
        simp [identified, hrole]
      obtain ⟨-, hsound, hkeys⟩ := identity_spec h hleaf
      obtain ⟨hlast, hentered⟩ := ih hsound hrest
      simp only [copyString, hrole]
      refine ⟨hlast, fun id => ?_⟩
      rw [hentered id, hkeys]
      have hsplit : id ∈ identified (leaf :: rest) ↔ id = leaf.2 ∨ id ∈ identified rest := by
        simp [identified, hrole]
      rw [hsplit]
      split_ifs with hknown
      · constructor
        · rintro (hid | hid)
          · exact Or.inl hid
          · exact Or.inr (Or.inr hid)
        · rintro (hid | rfl | hid)
          · exact Or.inl hid
          · exact Or.inl hknown
          · exact Or.inr hid
      · rw [List.mem_append, List.mem_singleton, or_assoc]
    · have hsame : (copyString copying identities leaf.1 leaf.2).2 = identities := by
        unfold copyString
        cases hcase : roleOf leaf.1 with
        | identity => exact absurd hcase hrole
        | tenant | run | document | text | free => rfl
      have hsplit : identified (leaf :: rest) = identified rest := by
        simp [identified, hrole]
      rw [hsame, hsplit]
      exact ih h hrest

def tableOf (identities : Identities) : List (List Char × List Char) :=
  identities.map fun entry => (entry.1.toList, entry.2.toList)

theorem toList_replaceEach (identities : Identities) (value : String) :
    (replaceEach identities value).toList = Words.substitute (tableOf identities) value.toList := by
  induction identities generalizing value with
  | nil => rfl
  | cons entry identities ih =>
    show (replaceEach identities (replace entry.1 entry.2 value)).toList = _
    rw [ih, replace, String.toList_ofList]
    rfl

def Named (copying : Copying) (strings : List Leaf) : Prop :=
  ∀ id ∈ registered copying strings, id.toList ≠ []

theorem named_of_clean {label : String}
    (h : ∀ id ∈ registered copying strings, ¬Embeds id label) : Named copying strings := by
  intro id hid hempty
  apply h id hid
  rw [Embeds, hempty]
  exact List.nil_infix

theorem searches_tableOf (hworded : Worded sep copying strings) (hnamed : Named copying strings)
    (hsound : Sound copying strings identities) : Words.Searches sep (tableOf identities) := by
  intro row hrow
  obtain ⟨entry, hentry, rfl⟩ := List.mem_map.mp hrow
  have hid := hsound.registered entry hentry
  exact ⟨hworded.ids _ hid, hnamed _ hid⟩

theorem assign_tableOf (hsound : Sound copying strings identities) (word : List Char) :
    Words.assign (tableOf identities) word =
      if String.ofList word ∈ identities.map Prod.fst then
        (copying.targetOf (String.ofList word)).toList
      else word := by
  have htargets := hsound.targets
  clear hsound
  induction identities with
  | nil => rfl
  | cons entry identities ih =>
    show (if word = entry.1.toList then entry.2.toList
      else Words.assign (tableOf identities) word) = _
    rw [ih fun other hother => htargets other (List.mem_cons_of_mem _ hother), List.map_cons]
    by_cases hsame : word = entry.1.toList
    · have hkey : String.ofList word = entry.1 := by rw [hsame, String.ofList_toList]
      rw [if_pos hsame, if_pos (by rw [hkey]; exact List.mem_cons_self), hkey,
        htargets entry List.mem_cons_self]
    · have hkey : String.ofList word ≠ entry.1 := by
        intro hkey
        exact hsame (by rw [← hkey, String.toList_ofList])
      simp only [if_neg hsame, List.mem_cons, hkey, false_or]

variable {leaf : Leaf}

theorem replaceEach_eq (value : String) (hworded : Worded sep copying strings)
    (hnamed : Named copying strings) (hsound : Sound copying strings identities) :
    (replaceEach identities value).toList =
      Words.mapWords sep (Words.substitute (tableOf identities)) value.toList := by
  rw [toList_replaceEach, Words.substitute_eq_mapWords (searches_tableOf hworded hnamed hsound)]

theorem embeds_of_word (hworded : Worded sep copying strings)
    (hnamed : Named copying strings) (hid : id ∈ registered copying strings)
    (hword : id.toList ∈ Words.words sep value.toList) : Embeds id value := by
  rw [Embeds, Words.infix_iff_exists_word (hworded.ids id hid) (hnamed id hid)]
  exact ⟨id.toList, hword, List.infix_rfl⟩

def scopeOf (copying : Copying) (strings : List Leaf) (value : String) : Option String :=
  strings.findSome? fun leaf =>
    if leaf.2 = value then copying.scopeTarget (roleOf leaf.1) else none

def rewrite (sep : Char → Bool) (copying : Copying) (strings : List Leaf)
    (value : String) : String :=
  (scopeOf copying strings value).getD (String.ofList
    (Words.mapWords sep (writtenFor (registered copying strings) copying.targetOf) value.toList))

variable {target : String}

theorem scopeOf_some (h : scopeOf copying strings value = some target) :
    ∃ leaf ∈ strings, leaf.2 = value ∧ copying.scopeTarget (roleOf leaf.1) = some target := by
  obtain ⟨leaf, hleaf, hfound⟩ := List.exists_of_findSome?_eq_some h
  split_ifs at hfound with hsame
  exact ⟨leaf, hleaf, hsame, hfound⟩

theorem scopeOf_eq (hfits : ScopeFits copying strings leaf.2 target) (hleaf : leaf ∈ strings)
    (htarget : copying.scopeTarget (roleOf leaf.1) = some target) :
    scopeOf copying strings leaf.2 = some target := by
  cases hfound : scopeOf copying strings leaf.2 with
  | some written =>
    obtain ⟨other, hother, hsame, hwritten⟩ := scopeOf_some hfound
    rw [hfits.agree other hother hsame written hwritten]
  | none =>
    have hnone := List.findSome?_eq_none_iff.mp hfound leaf hleaf
    rw [if_pos rfl, htarget] at hnone
    cases hnone

theorem mem_registered_of_identity (hleaf : leaf ∈ strings) (hrole : roleOf leaf.1 = .identity) :
    leaf.2 ∈ registered copying strings :=
  List.mem_append_right _ (List.mem_map_of_mem (f := Prod.snd)
    (List.mem_filter.mpr ⟨hleaf, decide_eq_true hrole⟩))

theorem eq_rewrite_of_free {f : String} (hworded : Worded sep copying strings)
    (hnamed : Named copying strings) (hleaf : leaf ∈ strings) (hrole : roleOf leaf.1 = .free)
    (h : Rewritten (registered copying strings) copying.targetOf leaf.2.toList f.toList)
    (hclean : ∀ id ∈ registered copying strings, ¬Embeds id f) :
    f.toList = Words.mapWords sep (writtenFor (registered copying strings) copying.targetOf)
      leaf.2.toList :=
  h.eq_mapWords hnamed hworded.ids (hworded.whole leaf hleaf hrole) hclean

theorem rewrite_of_scope (hfits : ScopeFits copying strings leaf.2 target) (hleaf : leaf ∈ strings)
    (htarget : copying.scopeTarget (roleOf leaf.1) = some target) :
    rewrite sep copying strings leaf.2 = target := by
  rw [rewrite, scopeOf_eq hfits hleaf htarget]
  rfl

theorem rewrite_of_free (hworded : Worded sep copying strings) (hnamed : Named copying strings)
    (hscope : ∀ leaf ∈ strings, ∀ target ∈ copying.scopeTarget (roleOf leaf.1),
      ScopeFits copying strings leaf.2 target)
    (hleaf : leaf ∈ strings) (hrole : roleOf leaf.1 = .free) :
    (rewrite sep copying strings leaf.2).toList =
      Words.mapWords sep (writtenFor (registered copying strings) copying.targetOf)
        leaf.2.toList := by
  cases hfound : scopeOf copying strings leaf.2 with
  | none => rw [rewrite, hfound, Option.getD_none, String.toList_ofList]
  | some target =>
    obtain ⟨other, hother, hsame, htarget⟩ := scopeOf_some hfound
    have hfits := hscope other hother target htarget
    rw [hsame] at hfits
    rw [rewrite, hfound, Option.getD_some]
    exact eq_rewrite_of_free hworded hnamed hleaf hrole hfits.rewritten hfits.clean

variable {payload pipeline : Dict} {keys : List String}

/-- The word-wise rewriting is one that rewrites identifiers. -/
theorem rewrite_rewritesIds (hworded : Worded sep copying strings) (hnamed : Named copying strings)
    (hready : Ready copying payload pipeline strings keys) :
    RewritesIds copying strings (rewrite sep copying strings) := by
  have hcases : ∀ leaf ∈ strings, roleOf leaf.1 ≠ .text →
      ScopeFits copying strings leaf.2 (rewrite sep copying strings leaf.2) ∨
        (roleOf leaf.1 = .identity ∧
          rewrite sep copying strings leaf.2 = copying.targetOf leaf.2) ∨
        roleOf leaf.1 = .free := by
    intro leaf hleaf hrole
    cases hfound : scopeOf copying strings leaf.2 with
    | some target =>
      obtain ⟨other, hother, hsame, htarget⟩ := scopeOf_some hfound
      have hfits := hready.scope other hother target htarget
      rw [hsame] at hfits
      rw [rewrite, hfound]
      exact Or.inl hfits
    | none =>
      have hnone := List.findSome?_eq_none_iff.mp hfound leaf hleaf
      rw [if_pos rfl] at hnone
      cases hcase : roleOf leaf.1 with
      | text => exact absurd hcase hrole
      | tenant | run | document =>
        rw [hcase] at hnone
        cases hnone
      | free => exact Or.inr (Or.inr rfl)
      | identity =>
        have hid : leaf.2 ∈ registered copying strings := mem_registered_of_identity hleaf hcase
        refine Or.inr (Or.inl ⟨rfl, ?_⟩)
        rw [rewrite, hfound, Option.getD_none, Words.mapWords_word (hworded.ids _ hid), writtenFor,
          String.ofList_toList, if_pos hid, String.ofList_toList]
  constructor
  case rewritten =>
    intro leaf hleaf hrole
    rcases hcases leaf hleaf hrole with hfits | ⟨hidentity, hwritten⟩ | hfree
    · exact hfits.rewritten
    · rw [hwritten]
      have hid : leaf.2 ∈ registered copying strings := mem_registered_of_identity hleaf hidentity
      simpa using Rewritten.id hid (.nil : Rewritten _ copying.targetOf [] [])
    · rw [rewrite_of_free hworded hnamed hready.scope hleaf hfree]
      exact rewritten_mapWords _
  case whole =>
    intro leaf hleaf hrole hid
    rcases hcases leaf hleaf hrole with hfits | ⟨-, hwritten⟩ | hfree
    · exact (hfits.whole hid).symm
    · exact hwritten
    · apply String.toList_injective
      rw [rewrite_of_free hworded hnamed hready.scope hleaf hfree,
        Words.mapWords_word (hworded.ids _ hid), writtenFor, String.ofList_toList, if_pos hid]
  case clean =>
    intro leaf hleaf hrole id hid hin
    rcases hcases leaf hleaf hrole with hfits | ⟨hidentity, hwritten⟩ | hfree
    · exact hfits.clean id hid hin
    · rw [hwritten] at hin
      exact hready.settled leaf hleaf leaf.2 (mem_registered_of_identity hleaf hidentity)
        (Or.inl ⟨hidentity, rfl⟩) id hid hin
    · rw [Embeds, rewrite_of_free hworded hnamed hready.scope hleaf hfree,
        Words.infix_mapWords_iff (hworded.ids id hid) (hnamed id hid)] at hin
      obtain ⟨word, hword, hin⟩ := hin
      unfold writtenFor at hin
      split_ifs at hin with hknown
      · have hmention : Embeds (String.ofList word) leaf.2 :=
          embeds_of_word hworded hnamed hknown (by rw [String.toList_ofList]; exact hword)
        exact hready.settled leaf hleaf _ hknown (Or.inr ⟨hfree, hmention⟩) id hid hin
      · have hsame := hworded.whole leaf hleaf hfree word hword id hid hin
        rw [← hsame, String.ofList_toList] at hknown
        exact hknown hid

theorem copyString_eq (hworded : Worded sep copying strings) (hnamed : Named copying strings)
    (hready : Ready copying payload pipeline strings keys)
    (hsound : Sound copying strings identities) (hleaf : leaf ∈ strings)
    (hentered : roleOf leaf.1 = .free → ∀ id ∈ registered copying strings, Embeds id leaf.2 →
      id ∈ identities.map Prod.fst) :
    (copyString copying identities leaf.1 leaf.2).1 =
      outsideText (rewrite sep copying strings) leaf := by
  have hscope : ∀ target, copying.scopeTarget (roleOf leaf.1) = some target →
      rewrite sep copying strings leaf.2 = target :=
    fun target htarget => rewrite_of_scope (hready.scope leaf hleaf target htarget) hleaf htarget
  unfold copyString outsideText
  cases hrole : roleOf leaf.1 with
  | tenant | run | document =>
    rw [hrole] at hscope
    exact (hscope _ rfl).symm
  | text => rfl
  | identity =>
    have hid : leaf.2 ∈ registered copying strings := mem_registered_of_identity hleaf hrole
    have hwhole := (rewrite_rewritesIds hworded hnamed hready).whole leaf hleaf
      (by rw [hrole]; decide) hid
    simp only [(identity_spec hsound hid).1, hwhole]
    rfl
  | free =>
    apply String.toList_injective
    simp only [reduceCtorEq, if_false]
    rw [replaceEach_eq leaf.2 hworded hnamed hsound,
      rewrite_of_free hworded hnamed hready.scope hleaf hrole]
    apply Words.mapWords_congr
    intro word hword
    have hmention : ∀ id ∈ registered copying strings, id.toList = word → Embeds id leaf.2 :=
      fun id hid hsame => embeds_of_word hworded hnamed hid (hsame ▸ hword)
    rw [Words.substitute_word, assign_tableOf hsound, writtenFor]
    · -- A registered word stands in the string, so it was entered.
      have hknown : String.ofList word ∈ identities.map Prod.fst ↔
          String.ofList word ∈ registered copying strings := by
        constructor
        · intro hkey
          obtain ⟨entry, hentry, hsame⟩ := List.mem_map.mp hkey
          exact hsame ▸ hsound.registered entry hentry
        · intro hid
          exact hentered hrole _ hid (hmention _ hid String.toList_ofList)
      simp only [hknown]
    · intro row hrow
      exact (searches_tableOf hworded hnamed hsound row hrow).2
    · intro row hrow hin
      obtain ⟨entry, hentry, rfl⟩ := List.mem_map.mp hrow
      exact hworded.whole leaf hleaf hrole word hword _ (hsound.registered entry hentry) hin
    · intro row hrow hsame other hother
      obtain ⟨entry, hentry, rfl⟩ := List.mem_map.mp hrow
      obtain ⟨last, hlast, rfl⟩ := List.mem_map.mp hother
      have hid := hsound.registered entry hentry
      show ¬last.1.toList <:+: entry.2.toList
      rw [hsound.targets entry hentry]
      exact hready.settled leaf hleaf entry.1 hid (Or.inr ⟨hrole, hmention _ hid hsame⟩) last.1
        (hsound.registered last hlast)

theorem copyLeaves_eq (hworded : Worded sep copying strings) (hnamed : Named copying strings)
    (hready : Ready copying payload pipeline strings keys)
    (hsound : Sound copying strings identities) (hmet : met ⊆ strings)
    (hentered : ∀ leaf ∈ met, roleOf leaf.1 = .free → ∀ id ∈ registered copying strings,
      Embeds id leaf.2 → id ∈ identities.map Prod.fst) :
    (copyLeaves copying identities met).1 =
      met.map fun leaf => (leaf.1, outsideText (rewrite sep copying strings) leaf) := by
  induction met generalizing identities with
  | nil => rfl
  | cons leaf rest ih =>
    have hleaf : leaf ∈ strings := hmet List.mem_cons_self
    have hfirst := copyString_eq hworded hnamed hready hsound hleaf
      (hentered leaf List.mem_cons_self)
    have hone : ∀ id ∈ identified [leaf], id ∈ registered copying strings := by
      intro id hid
      obtain ⟨other, hother, rfl⟩ := List.mem_map.mp hid
      obtain ⟨hmem, hrole⟩ := List.mem_filter.mp hother
      rw [List.mem_singleton.mp hmem] at hrole ⊢
      exact mem_registered_of_identity hleaf (of_decide_eq_true hrole)
    obtain ⟨hsound', hkeys⟩ := copyLeaves_entered hsound hone
    have hnext : (copyLeaves copying identities [leaf]).2 =
        (copyString copying identities leaf.1 leaf.2).2 := rfl
    rw [hnext] at hsound' hkeys
    rw [copyLeaves, List.map_cons]
    simp only [hfirst, ih hsound' (fun other hother => hmet (List.mem_cons_of_mem _ hother))
      (fun other hother hrole id hid hin => (hkeys id).mpr
        (Or.inl (hentered other (List.mem_cons_of_mem _ hother) hrole id hid hin)))]

theorem mem_keys_initial : id ∈ copying.initial.map Prod.fst ↔ id ∈ copying.sourceIds := by
  rw [← lookup_initial_isSome_iff, Option.isSome_iff_exists, List.mem_map]
  constructor
  · rintro ⟨entry, hentry, rfl⟩
    exact ⟨entry.2, (lookup_eq_some_iff (nodup_initial copying)).mpr hentry⟩
  · rintro ⟨target, htarget⟩
    exact ⟨(id, target), (lookup_eq_some_iff (nodup_initial copying)).mp htarget, rfl⟩

theorem identified_subset (h : met ⊆ strings) :
    ∀ id ∈ identified met, id ∈ registered copying strings := by
  intro id hid
  obtain ⟨leaf, hleaf, rfl⟩ := List.mem_map.mp hid
  obtain ⟨hmem, hrole⟩ := List.mem_filter.mp hleaf
  exact List.mem_append_right _ (List.mem_map_of_mem (f := Prod.snd)
    (List.mem_filter.mpr ⟨h hmem, hrole⟩))

theorem mem_identified_perm {first second : List Leaf} (h : first.Perm second) :
    id ∈ identified first ↔ id ∈ identified second :=
  ((h.filter _).map _).mem_iff

theorem privateCopy_eq_iff {f : Leaf → String} {other kept : Dict}
    (hkept : publicOf other = .ok kept) :
    privateCopy copying other = .ok (rebind f "" (.obj kept)) ↔
      (copyLeaves copying copying.initial (leaves "" (.obj kept))).1 =
        (leaves "" (.obj kept)).map fun leaf => (leaf.1, f leaf) := by
  rw [← copy_eq_rebind_iff, privateCopy, bind_ok_iff]
  constructor
  · rintro ⟨shared, hshared, h⟩
    cases hkept.symm.trans hshared
    exact pure_ok h
  · exact fun h => ⟨kept, hkept, pure_ok_iff.mpr h⟩

theorem privateCopy_of_ready {payload pipeline shared : Dict}
    (hkeys : (payload.map Prod.fst).Nodup) (hpipeline : pipelineOf payload = .ok pipeline)
    (hshared : publicOf payload = .ok shared)
    (hworded : Worded sep copying (leaves "" (.obj shared)))
    (hnamed : Named copying (leaves "" (.obj shared)))
    (hready : Ready copying payload pipeline (leaves "" (.obj shared)) (labels (.obj shared)))
    {other : Dict} (h : Reorder (.obj payload) (.obj other)) :
    ∃ kept, publicOf other = .ok kept ∧ privateCopy copying other =
      .ok (rebind (outsideText (rewrite sep copying (leaves "" (.obj shared)))) ""
        (.obj kept)) := by
  obtain ⟨kept, hkept, hmain, hpipe⟩ := publicOf_reorder hkeys h hpipeline
  have hother := publicOf_ok_iff.mpr ⟨kept, hkept, rfl⟩
  refine ⟨_, hother, ?_⟩
  rw [privateCopy_eq_iff hother, leaves_publicOf hother hkept, copyLeaves_append, List.map_append]
  have hstrings := leaves_publicOf hshared hpipeline
  have hmainMet : mainLeaves other ⊆ leaves "" (.obj shared) := by
    intro leaf hleaf
    rw [hstrings]
    exact List.mem_append_left _ (hmain.mem_iff.mpr hleaf)
  have hpipeMet : pipelineLeaves kept ⊆ leaves "" (.obj shared) := by
    intro leaf hleaf
    rw [hstrings]
    exact List.mem_append_right _ (hpipe.mem_iff.mpr hleaf)
  have hinitial := sound_initial copying (leaves "" (.obj shared))
  have hfirst := copyLeaves_eq hworded hnamed hready hinitial hmainMet
    fun leaf hleaf hrole id hid hin =>
      mem_keys_initial.mpr (hready.main leaf (hmain.mem_iff.mpr hleaf) hrole id hid hin)
  obtain ⟨hsound, hentered⟩ := copyLeaves_entered hinitial (identified_subset hmainMet)
  have hsecond := copyLeaves_eq hworded hnamed hready hsound hpipeMet
    fun leaf hleaf hrole id hid hin => by
      rw [hentered id, mem_keys_initial, ← mem_identified_perm hmain]
      exact hready.pipeline leaf (hpipe.mem_iff.mpr hleaf) hrole id hid hin
  simp only [hfirst, hsecond]

/-! ### Rebound results are ready -/

theorem embeds_replaceEach (hworded : Worded sep copying strings) (hnamed : Named copying strings)
    (hsound : Sound copying strings identities) (hleaf : leaf ∈ strings)
    (hrole : roleOf leaf.1 = .free) (hid : id ∈ registered copying strings)
    (hin : Embeds id leaf.2) (hunknown : id ∉ identities.map Prod.fst) :
    Embeds id (replaceEach identities leaf.2) := by
  have hword := hworded.ids id hid
  rw [Embeds, Words.infix_iff_exists_word hword (hnamed id hid)] at hin
  obtain ⟨word, hmem, hin⟩ := hin
  have hsame := hworded.whole leaf hleaf hrole word hmem id hid hin
  have hkept : Words.substitute (tableOf identities) word = word := by
    apply Words.substitute_of_free
    intro row hrow hrowIn
    obtain ⟨entry, hentry, rfl⟩ := List.mem_map.mp hrow
    have hentryWord := hworded.whole leaf hleaf hrole word hmem _ (hsound.registered entry hentry)
      hrowIn
    apply hunknown
    rw [String.toList_injective (hsame.trans hentryWord.symm)]
    exact List.mem_map_of_mem (f := Prod.fst) hentry
  rw [Embeds, replaceEach_eq leaf.2 hworded hnamed hsound,
    Words.infix_mapWords_iff hword (hnamed id hid)]
  exact ⟨word, hmem, by rw [hkept]; exact hin⟩

theorem copyString_of_split {f : Leaf → String} {before behind : List Leaf} {leaf : Leaf}
    (h : (copyLeaves copying identities (before ++ leaf :: behind)).1 =
      (before ++ leaf :: behind).map fun leaf => (leaf.1, f leaf)) :
    (copyString copying (copyLeaves copying identities before).2 leaf.1 leaf.2).1 = f leaf := by
  obtain ⟨-, hrest⟩ := copyLeaves_eq_map_append h
  rw [copyLeaves, List.map_cons, List.cons.injEq] at hrest
  exact congrArg Prod.snd hrest.1

variable {f : String → String}

theorem entered_of_clean (hworded : Worded sep copying strings) (hnamed : Named copying strings)
    (hsound : Sound copying strings identities) (hrewrites : RewritesIds copying strings f)
    (hleaf : leaf ∈ strings) (hrole : roleOf leaf.1 = .free)
    (hcopied : (copyString copying identities leaf.1 leaf.2).1 = outsideText f leaf)
    (hid : id ∈ registered copying strings) (hin : Embeds id leaf.2) :
    id ∈ identities.map Prod.fst := by
  have hnotText : roleOf leaf.1 ≠ .text := by rw [hrole]; decide
  have hwritten : replaceEach identities leaf.2 = f leaf.2 := by
    simpa only [copyString, hrole, outsideText, reduceCtorEq, if_false] using hcopied
  by_contra hunknown
  apply hrewrites.clean leaf hleaf hnotText id hid
  rw [← hwritten]
  exact embeds_replaceEach hworded hnamed hsound hleaf hrole hid hin hunknown

theorem scope_written (htarget : copying.scopeTarget (roleOf leaf.1) = some target)
    (hcopied : (copyString copying identities leaf.1 leaf.2).1 = outsideText f leaf) :
    roleOf leaf.1 ≠ .text ∧ f leaf.2 = target := by
  unfold copyString outsideText at hcopied
  cases hrole : roleOf leaf.1 with
  | identity | text | free => rw [hrole] at htarget; cases htarget
  | tenant | run | document =>
    rw [hrole] at htarget hcopied
    cases htarget
    exact ⟨by decide, hcopied.symm⟩

theorem scopeFits_of_rewritten (hrewrites : RewritesIds copying strings f)
    (hcopied : ∀ leaf ∈ strings, ∃ identities,
      (copyString copying identities leaf.1 leaf.2).1 = outsideText f leaf) (hleaf : leaf ∈ strings)
    (htarget : copying.scopeTarget (roleOf leaf.1) = some target) :
    ScopeFits copying strings leaf.2 target := by
  obtain ⟨_, hself⟩ := hcopied leaf hleaf
  obtain ⟨hrole, hsame⟩ := scope_written htarget hself
  constructor
  case rewritten =>
    rw [← hsame]
    exact hrewrites.rewritten leaf hleaf hrole
  case whole =>
    intro hid
    rw [← hsame]
    exact (hrewrites.whole leaf hleaf hrole hid).symm
  case clean =>
    rw [← hsame]
    exact hrewrites.clean leaf hleaf hrole
  case agree =>
    intro other hother hvalue written hwritten
    obtain ⟨_, hbeside⟩ := hcopied other hother
    obtain ⟨-, hothers⟩ := scope_written hwritten hbeside
    rw [← hothers, hvalue, hsame]

theorem settled_of_rewritten (hworded : Worded sep copying strings) (hnamed : Named copying strings)
    (hrewrites : RewritesIds copying strings f) (hleaf : leaf ∈ strings)
    (hid : id ∈ registered copying strings) (hmentions : Mentions leaf id) :
    ∀ other ∈ registered copying strings, ¬Embeds other (copying.targetOf id) := by
  intro other hother hin
  rcases hmentions with ⟨hrole, rfl⟩ | ⟨hrole, hmention⟩
  · have hnotText : roleOf leaf.1 ≠ .text := by rw [hrole]; decide
    apply hrewrites.clean leaf hleaf hnotText other hother
    rw [hrewrites.whole leaf hleaf hnotText hid]
    exact hin
  · have hnotText : roleOf leaf.1 ≠ .text := by rw [hrole]; decide
    have hwritten := eq_rewrite_of_free hworded hnamed hleaf hrole
      (hrewrites.rewritten leaf hleaf hnotText) (hrewrites.clean leaf hleaf hnotText)
    rw [Embeds, Words.infix_iff_exists_word (hworded.ids id hid) (hnamed id hid)] at hmention
    obtain ⟨word, hword, hinWord⟩ := hmention
    have hsame := hworded.whole leaf hleaf hrole word hword id hid hinWord
    have htarget : writtenFor (registered copying strings) copying.targetOf word =
        (copying.targetOf id).toList := by
      rw [← hsame, writtenFor, String.ofList_toList, if_pos hid]
    apply hrewrites.clean leaf hleaf hnotText other hother
    rw [Embeds, hwritten]
    refine List.IsInfix.trans hin ?_
    rw [← htarget]
    exact Words.apply_infix_mapWords hword

theorem ready_of_rebinds {payload pipeline shared : Dict}
    (hkeys : (payload.map Prod.fst).Nodup) (hpipeline : pipelineOf payload = .ok pipeline)
    (hshared : publicOf payload = .ok shared)
    (hworded : Worded sep copying (leaves "" (.obj shared)))
    (hnamed : Named copying (leaves "" (.obj shared)))
    (hrewrites : RewritesIds copying (leaves "" (.obj shared)) f)
    (hlabels : ∀ label ∈ labels (.obj shared),
      ∀ id ∈ registered copying (leaves "" (.obj shared)), ¬Embeds id label)
    (hcopied : ∀ other, Reorder (.obj payload) (.obj other) → ∃ kept, publicOf other = .ok kept ∧
      privateCopy copying other = .ok (rebind (outsideText f) "" (.obj kept))) :
    Ready copying payload pipeline (leaves "" (.obj shared)) (labels (.obj shared)) := by
  have hstrings := leaves_publicOf hshared hpipeline
  have hwalk : ∀ other kept, Reorder (.obj payload) (.obj other) → pipelineOf other = .ok kept →
      (copyLeaves copying copying.initial (mainLeaves other ++ pipelineLeaves kept)).1 =
        (mainLeaves other ++ pipelineLeaves kept).map fun leaf => (leaf.1, outsideText f leaf) := by
    intro other kept hreorder hkept
    obtain ⟨found, hfound, hcopy⟩ := hcopied other hreorder
    rw [privateCopy_eq_iff hfound, leaves_publicOf hfound hkept] at hcopy
    exact hcopy
  have hinitial := sound_initial copying (leaves "" (.obj shared))
  constructor
  case keys_clean => exact hlabels
  case settled =>
    intro leaf hleaf id hid hmentions
    exact settled_of_rewritten hworded hnamed hrewrites hleaf hid hmentions
  case scope =>
    intro leaf hleaf target htarget
    refine scopeFits_of_rewritten hrewrites ?_ hleaf htarget
    intro other hother
    have hself := hwalk payload pipeline (.refl _) hpipeline
    rw [← hstrings] at hself
    obtain ⟨before, behind, hsplit⟩ := List.append_of_mem hother
    rw [hsplit] at hself
    exact ⟨_, copyString_of_split hself⟩
  case main =>
    intro leaf hleaf hrole id hid hin
    obtain ⟨other, rest, hreorder, hfirst⟩ := main_first hleaf
    obtain ⟨kept, hkept, -, -⟩ := publicOf_reorder hkeys hreorder hpipeline
    have hother := hwalk other kept hreorder hkept
    rw [hfirst, List.cons_append] at hother
    have hmem : leaf ∈ leaves "" (.obj shared) := by
      rw [hstrings]
      exact List.mem_append_left _ hleaf
    exact mem_keys_initial.mp (entered_of_clean hworded hnamed hinitial hrewrites hmem hrole
      (@copyString_of_split _ _ _ [] _ _ hother) hid hin)
  case pipeline =>
    intro leaf hleaf hrole id hid hin
    obtain ⟨other, kept, rest, hreorder, hkept, hmain, hfirst⟩ :=
      pipeline_first hkeys hpipeline hleaf
    have hother := hwalk other kept hreorder hkept
    rw [hfirst, hmain] at hother
    have hmem : leaf ∈ leaves "" (.obj shared) := by
      rw [hstrings]
      exact List.mem_append_right _ hleaf
    have hmet : mainLeaves payload ⊆ leaves "" (.obj shared) := by
      rw [hstrings]
      exact List.subset_append_left _ _
    obtain ⟨hsound, hentered⟩ := copyLeaves_entered hinitial (identified_subset hmet)
    have hknown := entered_of_clean hworded hnamed hsound hrewrites hmem hrole
      (copyString_of_split hother) hid hin
    rw [hentered, mem_keys_initial] at hknown
    exact hknown

theorem pipeline_label {shared : Dict} (h : publicOf payload = .ok shared) :
    "pipeline" ∈ labels (.obj shared) := by
  obtain ⟨pipeline, -, rfl⟩ := publicOf_ok_iff.mp h
  have hopen : privateKeys.contains "pipeline" = false := by decide
  rw [labels, labelsFields_append, labelsFields, hopen, if_neg Bool.false_ne_true]
  exact List.mem_append_right _ List.mem_cons_self

namespace Sample

def toOther : Copying where
  source := ⟨"tenant-a", "document-a", "run-a"⟩
  target := ⟨"tenant-b", "document-b", "7b0e7a54-3f0e-4c39-9a53-0d9d3f1c2a11"⟩
  uuid5 := fun name =>
    if name = "claim-10" then "a24953ca-e377-5929-854e-a36d514aa719"
    else "9b6f33fa-4603-5723-8ec2-e0940aa2341f"

def claimOf (fields : Dict) : Dict :=
  [("claims", .arr [.obj fields])]

def noted : Dict :=
  claimOf [("note", .str "claim-1"), ("claim_id", .str "claim-1")]

def leaked : Dict :=
  claimOf [("note", .str "claim-1"), ("claim_id", .str "9b6f33fa-4603-5723-8ec2-e0940aa2341f")] ++
    [("pipeline", .obj [])]

def cited : Dict :=
  [("claims", .arr
    [.obj [("note", .str "tenant-a: first"), ("quote", .str "claim-1"),
      ("claim_id", .str "claim-1"), ("tenant_id", .str "tenant-a")],
     .obj [("claim_id", .str "claim-10")]])]

def isBreak (c : Char) : Bool :=
  c = ':' || c = ' '

end Sample

end ProofOps.Api.HostedReuse
