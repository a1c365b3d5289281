import ProofOps.Application.Uploads.ActionScan

/-!
# What an accepted document can do

The scan ends on every document, and whatever the indexed objects lead to was checked
(`scan_accepted`): every action that a trigger reaches through arrays and `/Next` links is one that the
trigger allows.
-/

namespace ProofOps.Application.Uploads.ActionScan

open Foundation Foundation.Checked Foundation.Exploration

variable {ι : Type} {doc : Document ι} {limits : ScanLimits}

/-! ### What is allowed -/

def IsPage (doc : Document ι) (limits : ScanLimits) (page : Value ι) : Prop :=
  isNullReference limits page = true ∨
    ∃ target entries kind, deref doc page = .ok target ∧ asDictionary doc target = some entries ∧
      strOf doc entries "/Type" "" = .ok kind ∧ kind ∈ ["/Page", "/Pages"]

def InternalDestination (doc : Document ι) (limits : ScanLimits) (destination : Value ι) : Prop :=
  ∃ found, deref doc destination = .ok found ∧
    (isStr found = true ∨
      ∃ page fit rest, asArray doc found = some (page :: fit :: rest) ∧ IsPage doc limits page)

inductive HideTarget (doc : Document ι) : Value ι → Prop where
  | field {target found : Value ι} : deref doc target = .ok found → isStr found = true →
      HideTarget doc target
  | annotation {target found : Value ι} {entries : Dictionary ι} : deref doc target = .ok found →
      asDictionary doc found = some entries → hasAnyKey entries forbidden = false →
      hasAnyKey entries ["/FS", "/EF"] = false → strOf doc entries "/Type" "" = .ok "/Annot" →
      HideTarget doc target
  | several {target found : Value ι} {items : List (Value ι)} : deref doc target = .ok found →
      asArray doc found = some items → items ≠ [] → (∀ item ∈ items, HideTarget doc item) →
      HideTarget doc target

def RemoteFile (doc : Document ι) (entries : Dictionary ι) : Prop :=
  ∃ target found, entries.lookup "/F" = some target ∧ deref doc target = .ok found ∧
    (isStr found = true ∨ ∃ file, asDictionary doc found = some file ∧
      hasAnyKey file ["/EF", "/AF", "/FS"] = false)

structure AllowedAction (doc : Document ι) (limits : ScanLimits) (allowed : List String)
    (userNamed : Bool) (entries : Dictionary ι) (subtype : String) : Prop where
  reads : strOf doc entries "/S" "" = .ok subtype
  allowed : subtype ∈ allowed
  keys : hasAnyKey entries forbidden = false
  named : subtype = "/Named" → ∃ destination, strOf doc entries "/N" "None" = .ok destination ∧
    (destination ∈ inertNamedDestinations ∨
      userNamed = true ∧ destination ∈ userNamedDestinations)
  goTo : subtype = "/GoTo" → ∃ destination, entries.lookup "/D" = some destination ∧
    InternalDestination doc limits destination
  goToR : subtype = "/GoToR" → RemoteFile doc entries
  uri : subtype = "/URI" → hasKey entries "/URI" = true
  hide : subtype = "/Hide" → ∃ target, entries.lookup "/T" = some target ∧ HideTarget doc target

def Allows (doc : Document ι) (limits : ScanLimits) (allowed : List String) (userNamed : Bool)
    (action : Value ι) : Prop :=
  ∀ id, Reaches (actionShape doc) (nextActions doc) action id →
    ∃ entries isStream subtype, doc.container id = .dictionary entries isStream ∧
      AllowedAction doc limits allowed userNamed entries subtype

structure Safe (doc : Document ι) (limits : ScanLimits) (id : ι) (entries : Dictionary ι)
    (isStream : Bool) : Prop where
  keys : hasAnyKey entries forbidden = false
  subtype : ∃ subtype, strOf doc entries "/S" "" = .ok subtype ∧
    (subtype ∈ forbidden → subtype = "/GoToR")
  kind : ∃ kind, strOf doc entries "/Type" "" = .ok kind ∧ kind ≠ "/EmbeddedFile" ∧
    (kind = "/Action" → Allows doc limits linkClickSubtypes true (.node id))
  table : ∀ table, entries.lookup "/AA" = some table → ∃ found triggers,
    deref doc table = .ok found ∧ asDictionary doc found = some triggers ∧
      ∀ trigger ∈ triggers, ∃ widget, isWidget doc entries = .ok widget ∧
        Allows doc limits (triggerSubtypes widget trigger.1) (isGesture widget trigger.1) trigger.2
  opening : ∀ target, entries.lookup "/OpenAction" = some target →
    ∃ found, deref doc target = .ok found ∧
      ((asArray doc found).isSome = true ∧ InternalDestination doc limits found ∨
        Allows doc limits inertActionSubtypes false found)
  click : ∀ target, entries.lookup "/A" = some target → ∃ found, deref doc target = .ok found ∧
    (isActionShaped doc found = true →
      Allows doc limits (directSubtypes true (isLink entries)) true found)
  external : isStream = true → hasKey entries "/F" = false

/-- The values a container holds. -/
def valuesOf (doc : Document ι) (id : ι) : List (Value ι) :=
  match doc.container id with
  | .dictionary entries _ => entries.map Prod.snd
  | .array items => items

inductive Scanned (doc : Document ι) (limits : ScanLimits) (references : List (Nat × Nat)) : ι → Prop
  where
  | indexed {place : Nat × Nat} {id : ι} : place ∈ references →
      isNullReference limits (.reference place.1 place.2 : Value ι) = false →
      doc.resolve place.1 place.2 = .ok (.node id) → Scanned doc limits references id
  | inner {id next : ι} {value : Value ι} : Scanned doc limits references id →
      value ∈ valuesOf doc id → isNullReference limits value = false →
      deref doc value = .ok (.node next) → Scanned doc limits references next

/-! ### The checks of one action -/

theorem isPage_spec {page : Value ι} (h : isPage doc limits page = .ok true) :
    IsPage doc limits page := by
  unfold isPage at h
  split_ifs at h with hnull
  · exact .inl hnull
  · obtain ⟨target, htarget, h⟩ := bind_ok h
    split at h
    · cases pure_ok h
    · rename_i entries hentries
      obtain ⟨kind, hkind, h⟩ := bind_ok h
      have hmem := pure_ok h
      exact .inr ⟨target, entries, kind, htarget, hentries, hkind, List.contains_iff_mem.mp hmem⟩

theorem isInternalDestination_spec {destination : Value ι}
    (h : isInternalDestination doc limits destination = .ok true) :
    InternalDestination doc limits destination := by
  obtain ⟨found, hfound, h⟩ := bind_ok h
  refine ⟨found, hfound, ?_⟩
  split_ifs at h with hstr
  · exact .inl hstr
  · split at h
    · rename_i page fit rest harray
      exact .inr ⟨page, fit, rest, harray, isPage_spec h⟩
    · cases pure_ok h

theorem allM_true {α : Type} {test : α → Except ScanError Bool} {items : List α}
    (h : items.allM test = .ok true) : ∀ item ∈ items, test item = .ok true := by
  induction items with
  | nil => exact fun item hitem => absurd hitem List.not_mem_nil
  | cons item items ih =>
    obtain ⟨passed, hpassed, h⟩ := bind_ok h
    cases passed with
    | false => cases pure_ok h
    | true => exact List.forall_mem_cons.mpr ⟨hpassed, ih h⟩

variable {target : Value ι}

theorem isInternalHideTarget_spec {frames : Nat}
    (h : isInternalHideTarget doc frames target = .ok true) : HideTarget doc target := by
  induction frames generalizing target with
  | zero => cases h
  | succ frames ih =>
    obtain ⟨found, hfound, h⟩ := bind_ok h
    split_ifs at h with hstr
    · exact .field hfound hstr
    · split at h
      · rename_i entries hentries
        split_ifs at h with hkeys
        · cases pure_ok h
        · rw [Bool.or_eq_true, not_or, Bool.not_eq_true, Bool.not_eq_true] at hkeys
          obtain ⟨kind, hkind, h⟩ := bind_ok h
          have hannot := of_decide_eq_true (pure_ok h)
          exact HideTarget.annotation hfound hentries hkeys.1 hkeys.2 (hannot ▸ hkind)
      · split at h
        · cases pure_ok h
        · rename_i items hne harray
          exact .several hfound harray hne fun item hitem => ih (allM_true h item hitem)
        · cases pure_ok h

variable {entries : Dictionary ι}

theorem requireValue_ok {key : String} {found : Value ι}
    (h : requireValue doc entries key = .ok found) :
    ∃ value, entries.lookup key = some value ∧ deref doc value = .ok found := by
  unfold requireValue at h
  split at h
  · cases h
  · rename_i value hlookup
    exact ⟨value, hlookup, h⟩

theorem checkRemoteFile_spec (h : checkRemoteFile doc target = .ok ()) :
    isStr target = true ∨ ∃ file, asDictionary doc target = some file ∧
      hasAnyKey file ["/EF", "/AF", "/FS"] = false := by
  unfold checkRemoteFile at h
  split at h
  · rename_i file hfile
    obtain ⟨kind, -, h⟩ := bind_ok h
    have hkeys := refuse_ok_iff.mp h
    push Not at hkeys
    exact .inr ⟨file, hfile, Bool.eq_false_iff.mpr hkeys.2.2⟩
  · have hstr := refuse_ok_iff.mp h
    exact .inl ((Bool.not_eq_false _).mp hstr)

theorem checkRemote_spec (h : checkRemote doc entries = .ok ()) : RemoteFile doc entries := by
  obtain ⟨found, hfound, h⟩ := bind_ok h
  obtain ⟨_, hfile, -⟩ := bind_ok h
  obtain ⟨target, htarget, hderef⟩ := requireValue_ok hfound
  exact ⟨target, found, htarget, hderef, checkRemoteFile_spec hfile⟩

variable {allowed : List String} {userNamed : Bool}

/-- An action that passes is allowed. -/
theorem checkAction_spec (h : checkAction doc limits allowed userNamed entries = .ok ()) :
    ∃ subtype, AllowedAction doc limits allowed userNamed entries subtype := by
  obtain ⟨subtype, hsubtype, h⟩ := bind_ok h
  obtain ⟨_, hallowed, h⟩ := bind_ok h
  obtain ⟨_, hkeys, h⟩ := bind_ok h
  refine ⟨subtype, hsubtype, not_not.mp (refuse_ok_iff.mp hallowed),
    (Bool.not_eq_true _).mp (refuse_ok_iff.mp hkeys), ?_, ?_, ?_, ?_, ?_⟩
  · rintro rfl
    obtain ⟨destination, hdestination, h⟩ := bind_ok h
    have hinside := refuse_ok_iff.mp h
    exact ⟨destination, hdestination, by tauto⟩
  · rintro rfl
    rw [if_neg (by decide), if_pos rfl] at h
    split at h
    · cases h
    · rename_i destination hdestination
      obtain ⟨inside, hinside, h⟩ := bind_ok h
      have htrue : inside = true := (Bool.not_eq_false _).mp (refuse_ok_iff.mp h)
      exact ⟨destination, hdestination, isInternalDestination_spec (htrue ▸ hinside)⟩
  · rintro rfl
    exact checkRemote_spec h
  · rintro rfl
    exact (Bool.not_eq_false _).mp (refuse_ok_iff.mp h)
  · rintro rfl
    obtain ⟨_, -, h⟩ := bind_ok h
    split at h
    · cases h
    · rename_i target htarget
      obtain ⟨inside, hinside, h⟩ := bind_ok h
      have htrue : inside = true := (Bool.not_eq_false _).mp (refuse_ok_iff.mp h)
      exact ⟨target, htarget, isInternalHideTarget_spec (htrue ▸ hinside)⟩

variable {id : ι}

theorem visitAction_spec {next : List (Value ι)}
    (h : visitAction doc limits allowed userNamed id = .ok next) :
    next = nextActions doc id ∧ ∃ entries isStream subtype,
      doc.container id = .dictionary entries isStream ∧
        AllowedAction doc limits allowed userNamed entries subtype := by
  unfold visitAction at h
  split at h
  · rename_i entries isStream hcontainer
    obtain ⟨_, hcheck, h⟩ := bind_ok h
    obtain ⟨subtype, hallowed⟩ := checkAction_spec hcheck
    exact ⟨(pure_ok h).symm, entries, isStream, subtype, hcontainer, hallowed⟩
  · cases h

variable [DecidableEq ι]

theorem rejectDangerousActionChain_spec {action : Value ι}
    (h : rejectDangerousActionChain doc limits allowed userNamed action = .ok ()) :
    Allows doc limits allowed userNamed action := by
  obtain ⟨seen, hwalk, -⟩ := bind_ok h
  intro id hreaches
  obtain ⟨next, hcheck⟩ := walk_checked (fun _ _ hvisit => (visitAction_spec hvisit).1) hwalk hreaches
  exact (visitAction_spec hcheck).2

theorem rejectDangerousOpenAction_spec {allowUri linkClick : Bool}
    (h : rejectDangerousOpenAction doc limits allowUri linkClick target = .ok ()) :
    ∃ found, deref doc target = .ok found ∧
      ((asArray doc found).isSome = true ∧ InternalDestination doc limits found ∨
        asArray doc found = none ∧
          Allows doc limits (directSubtypes allowUri linkClick) allowUri found) := by
  obtain ⟨found, hfound, h⟩ := bind_ok h
  refine ⟨found, hfound, ?_⟩
  split at h
  · rename_i harray
    obtain ⟨inside, hinside, h⟩ := bind_ok h
    have htrue : inside = true := (Bool.not_eq_false _).mp (refuse_ok_iff.mp h)
    have hsome : (asArray doc found).isSome = true := by rw [harray, Option.isSome_some]
    exact .inl ⟨hsome, isInternalDestination_spec (htrue ▸ hinside)⟩
  · rename_i harray
    exact .inr ⟨harray, rejectDangerousActionChain_spec h⟩

theorem checkActionTable_spec {table : Value ι}
    (h : checkActionTable doc limits entries table = .ok ()) :
    ∃ found triggers, deref doc table = .ok found ∧ asDictionary doc found = some triggers ∧
      ∀ trigger ∈ triggers, ∃ widget, isWidget doc entries = .ok widget ∧
        Allows doc limits (triggerSubtypes widget trigger.1) (isGesture widget trigger.1) trigger.2 := by
  obtain ⟨found, hfound, h⟩ := bind_ok h
  split at h
  · cases h
  · rename_i triggers htriggers
    refine ⟨found, triggers, hfound, htriggers, fun trigger htrigger => ?_⟩
    have hcheck := forM_ok_iff.mp h trigger htrigger
    obtain ⟨widget, hwidget, hchain⟩ := bind_ok hcheck
    exact ⟨widget, hwidget, rejectDangerousActionChain_spec hchain⟩

theorem checkDirectAction_spec (h : checkDirectAction doc limits entries target = .ok ()) :
    ∃ found, deref doc target = .ok found ∧ (isActionShaped doc found = true →
      Allows doc limits (directSubtypes true (isLink entries)) true found) := by
  obtain ⟨found, hfound, h⟩ := bind_ok h
  refine ⟨found, hfound, fun hshaped => ?_⟩
  rw [if_pos hshaped] at h
  obtain ⟨again, hagain, hcases⟩ := rejectDangerousOpenAction_spec h
  rw [hfound] at hagain
  cases hagain
  rcases hcases with ⟨harray, -⟩ | ⟨-, hallows⟩
  · -- what is action-shaped is a dictionary, and so no destination
    cases found with
    | node id =>
      unfold isActionShaped asDictionary at hshaped
      unfold asArray at harray
      cases hcontainer : doc.container id with
      | dictionary _ _ => simp [hcontainer] at harray
      | array _ => simp [hcontainer] at hshaped
    | _ => cases hshaped
  · exact hallows

omit [DecidableEq ι] in
theorem whenPresent_spec {value : Option (Value ι)} {check : Value ι → Except ScanError Unit}
    (h : whenPresent value check = .ok ()) : ∀ found, value = some found → check found = .ok () := by
  rintro found rfl
  exact h

theorem checkMarkedAction_spec {kind : String}
    (h : checkMarkedAction doc limits id entries kind = .ok ()) (hkind : kind = "/Action") :
    Allows doc limits linkClickSubtypes true (.node id) := by
  unfold checkMarkedAction at h
  rw [if_pos (.inl hkind)] at h
  exact rejectDangerousActionChain_spec h

/-- A dictionary that passes is safe. -/
theorem checkDictionary_spec {isStream : Bool} (h : checkDictionary doc limits id entries = .ok ())
    (hexternal : isStream = true → hasKey entries "/F" = false) :
    Safe doc limits id entries isStream := by
  obtain ⟨_, hkeys, h⟩ := bind_ok h
  obtain ⟨subtype, hsubtype, h⟩ := bind_ok h
  obtain ⟨_, hforbidden, h⟩ := bind_ok h
  obtain ⟨kind, hkind, h⟩ := bind_ok h
  obtain ⟨_, hembedded, h⟩ := bind_ok h
  obtain ⟨_, hmarked, h⟩ := bind_ok h
  obtain ⟨_, htable, h⟩ := bind_ok h
  obtain ⟨_, hopening, hclick⟩ := bind_ok h
  constructor
  · exact (Bool.not_eq_true _).mp (refuse_ok_iff.mp hkeys)
  · refine ⟨subtype, hsubtype, fun hmem => ?_⟩
    by_contra hne
    exact refuse_ok_iff.mp hforbidden ⟨hmem, hne⟩
  · exact ⟨kind, hkind, refuse_ok_iff.mp hembedded, checkMarkedAction_spec hmarked⟩
  · intro table hlookup
    exact checkActionTable_spec (whenPresent_spec htable table hlookup)
  · intro target hlookup
    obtain ⟨found, hfound, hcases⟩ :=
      rejectDangerousOpenAction_spec (whenPresent_spec hopening target hlookup)
    exact ⟨found, hfound, hcases.imp_right And.right⟩
  · intro target hlookup
    exact checkDirectAction_spec (whenPresent_spec hclick target hlookup)
  · exact hexternal

/-! ### The scan -/

variable {state : ScanState}

omit [DecidableEq ι] in
theorem checkStream_spec {result : Dictionary ι × ScanState}
    (h : checkStream doc limits state id entries = .ok result) :
    hasKey entries "/F" = false ∧
      result.1 = if isPlaintextMetadata doc limits entries then withoutFilters entries else entries := by
  obtain ⟨_, hexternal, h⟩ := bind_ok h
  obtain ⟨_, -, h⟩ := bind_ok h
  obtain ⟨length, -, h⟩ := bind_ok h
  obtain ⟨_, -, h⟩ := bind_ok h
  cases pure_ok h
  exact ⟨(Bool.not_eq_true _).mp (refuse_ok_iff.mp hexternal), rfl⟩

def IsDefaultFilter (doc : Document ι) (value : Value ι) : Prop :=
  ∃ filter, asArray doc value = some [filter] ∧ isText (some filter) "/Crypt" = true

variable {value : Value ι}

omit [DecidableEq ι] in
theorem mem_withoutFilters {filters : Value ι} (hlookup : entries.lookup "/Filter" = some filters)
    (hvalue : value ∈ entries.map Prod.snd) :
    value ∈ (withoutFilters entries).map Prod.snd ∨ value = filters := by
  induction entries with
  | nil => cases hlookup
  | cons entry entries ih =>
    unfold withoutFilters
    rw [List.map_cons, List.mem_cons] at hvalue
    split_ifs with hkey
    · have hfirst : entry.2 = filters := by
        rw [List.lookup_cons, hkey] at hlookup
        simpa using hlookup
      rcases hvalue with rfl | hrest
      · exact .inr hfirst
      · exact .inl (List.mem_cons_of_mem _ hrest)
    · have hother : entries.lookup "/Filter" = some filters := by
        rw [List.lookup_cons, beq_eq_false_iff_ne.mpr (Ne.symm hkey)] at hlookup
        exact hlookup
      rcases hvalue with rfl | hrest
      · exact .inl List.mem_cons_self
      · exact (ih hother hrest).imp_left (List.mem_cons_of_mem _)

omit [DecidableEq ι] in
theorem withoutFilters_length (entries : Dictionary ι) :
    (withoutFilters entries).length = entries.length := by
  induction entries with
  | nil => rfl
  | cons entry entries ih =>
    unfold withoutFilters
    split_ifs
    · rfl
    · rw [List.length_cons, List.length_cons, ih]

omit [DecidableEq ι] in
theorem isPlaintextMetadata_spec (h : isPlaintextMetadata doc limits entries = true) :
    ∃ filters, entries.lookup "/Filter" = some filters ∧ IsDefaultFilter doc filters := by
  unfold isPlaintextMetadata at h
  simp only [Bool.and_eq_true] at h
  obtain ⟨⟨-, hfilter⟩, -⟩ := h
  split at hfilter
  · rename_i filter hbind
    obtain ⟨filters, hlookup, harray⟩ := Option.bind_eq_some_iff.mp hbind
    exact ⟨filters, hlookup, filter, harray, hfilter⟩
  · cases hfilter

theorem visit_spec {seen : Finset ι} {result : List (Value ι) × ScanState}
    (h : visit doc limits seen state id = .ok result) :
    (∀ entries isStream, doc.container id = .dictionary entries isStream →
      Safe doc limits id entries isStream) ∧
    (∀ value ∈ valuesOf doc id, value ∈ result.1 ∨ IsDefaultFilter doc value) ∧
    result.1.length = (valuesOf doc id).length := by
  obtain ⟨_, -, h⟩ := bind_ok h
  unfold valuesOf
  cases hcontainer : doc.container id with
  | array items =>
    rw [hcontainer] at h
    cases pure_ok h
    exact ⟨fun _ _ hdictionary => (by cases hdictionary), fun value hvalue => .inl hvalue, rfl⟩
  | dictionary entries isStream =>
    rw [hcontainer] at h
    obtain ⟨_, hcheck, h⟩ := bind_ok h
    cases isStream with
    | false =>
      cases pure_ok h
      refine ⟨fun _ _ hsame => ?_, fun value hvalue => .inl hvalue, rfl⟩
      cases hsame
      exact checkDictionary_spec hcheck fun hstream => absurd hstream Bool.false_ne_true
    | true =>
      obtain ⟨kept, hstream, h⟩ := bind_ok h
      cases pure_ok h
      obtain ⟨hexternal, hkept⟩ := checkStream_spec hstream
      refine ⟨fun _ _ hsame => ?_, fun value hvalue => ?_, ?_⟩
      · cases hsame
        exact checkDictionary_spec hcheck fun _ => hexternal
      · rw [hkept]
        split_ifs with hplain
        · obtain ⟨filters, hlookup, hdefault⟩ := isPlaintextMetadata_spec hplain
          refine (mem_withoutFilters hlookup hvalue).imp_right ?_
          rintro rfl
          exact hdefault
        · exact .inl hvalue
      · rw [hkept]
        split_ifs
        · rw [List.length_map, List.length_map, withoutFilters_length]
        · rfl

variable {next : ι}

omit [DecidableEq ι] in
theorem settled_node {later : Finset ι} (h : Settled (look doc limits) later value)
    (hnull : isNullReference limits value = false) (hderef : deref doc value = .ok (.node next)) :
    next ∈ later := by
  obtain ⟨before, state, found, state', hlook, hmem⟩ := h
  unfold look at hlook
  rw [if_neg (by rw [hnull]; exact Bool.false_ne_true), hderef] at hlook
  cases pure_ok hlook
  exact hmem next rfl

omit [DecidableEq ι] in
theorem IsDefaultFilter.node (h : IsDefaultFilter doc value)
    (hderef : deref doc value = .ok (.node next)) : value = .node next := by
  obtain ⟨filter, harray, -⟩ := h
  cases value with
  | reference number generation => cases harray
  | node id =>
    cases hderef
    rfl
  | _ => cases hderef

omit [DecidableEq ι] in
theorem IsDefaultFilter.ends (h : IsDefaultFilter doc (.node id))
    (hvalue : value ∈ valuesOf doc id) : deref doc value ≠ .ok (.node next) := by
  obtain ⟨filter, harray, htext⟩ := h
  unfold asArray at harray
  unfold valuesOf at hvalue
  cases hcontainer : doc.container id with
  | dictionary _ _ => simp [hcontainer] at harray
  | array items =>
    simp only [hcontainer, Option.some.injEq] at harray hvalue
    subst harray
    rw [List.mem_singleton] at hvalue
    subst hvalue
    cases value with
    | name _ | text _ => exact fun hderef => by cases hderef
    | _ => cases htext

theorem scanned_visited {references : List (Nat × Nat)} {fuel : Nat} {later : Finset ι}
    {last : ScanState} (h : explore (look doc limits) (visit doc limits) fuel ∅ state
      (references.map fun place => Value.reference place.1 place.2).reverse = some (.ok (later, last)))
    (hscanned : Scanned doc limits references id) :
    id ∈ later ∨ IsDefaultFilter doc (.node id) := by
  obtain ⟨-, hpending, hvisited⟩ := explore_visited h
  induction hscanned with
  | @indexed place id hplace hnull hresolve =>
    have hmem : (Value.reference place.1 place.2 : Value ι) ∈
        (references.map fun place => Value.reference place.1 place.2).reverse :=
      List.mem_reverse.mpr (List.mem_map.mpr ⟨place, hplace, rfl⟩)
    exact .inl (settled_node (hpending _ hmem) hnull hresolve)
  | @inner id next value _ hvalue hnull hderef ih =>
    rcases ih with hin | hdefault
    · obtain ⟨before, state, items, state', hvisit, hsettled⟩ :=
        hvisited id hin (Finset.notMem_empty id)
      rcases (visit_spec hvisit).2.1 value hvalue with hitem | hdefault
      · exact .inl (settled_node (hsettled value hitem) hnull hderef)
      · exact .inr (hdefault.node hderef ▸ hdefault)
    · exact absurd hderef (hdefault.ends hvalue)

/-- The scan ends on every document.  Where it accepts one, every dictionary that the indexed objects
lead to is safe. -/
theorem scan_accepted [Fintype ι] (doc : Document ι) (limits : ScanLimits)
    (references : List (Nat × Nat)) :
    (∀ fuel, references.length + ∑ id, (valuesOf doc id).length ≤ fuel →
      ∃ result, scan doc limits fuel references = some result) ∧
    ∀ fuel seen state, scan doc limits fuel references = some (.ok (seen, state)) →
      ∀ id, Scanned doc limits references id → ∀ entries isStream,
        doc.container id = .dictionary entries isStream → Safe doc limits id entries isStream := by
  constructor
  · intro fuel hfuel
    unfold scan
    split_ifs
    · exact ⟨_, rfl⟩
    · have hsize : ∀ seen state id items state',
          visit doc limits seen state id = .ok (items, state') →
            items.length ≤ (valuesOf doc id).length := by
        intro seen state id items state' hvisit
        exact le_of_eq (visit_spec hvisit).2.2
      apply explore_ends hsize
      rw [List.length_reverse, List.length_map, Finset.compl_empty]
      exact hfuel
  · intro fuel seen state h id hscanned entries isStream hcontainer
    unfold scan at h
    split_ifs at h
    · cases h
    · rcases scanned_visited h hscanned with hin | ⟨filter, harray, -⟩
      · obtain ⟨-, -, hvisited⟩ := explore_visited h
        obtain ⟨before, state, items, state', hvisit, -⟩ := hvisited id hin (Finset.notMem_empty id)
        exact (visit_spec hvisit).1 entries isStream hcontainer
      · unfold asArray at harray
        simp [hcontainer] at harray

def linked : Document (Fin 2) where
  container := fun id =>
    if id = 0 then
      .dictionary [("/Type", .name "/Annot"), ("/Subtype", .name "/Link"), ("/A", .node 1)] false
    else .dictionary [("/S", .name "/URI"), ("/URI", .text "elsewhere")] false
  resolve := fun number _ => if number = 1 then .ok (.node 0) else .error .reader
  str := fun value =>
    match value with
    | .name text => .ok text
    | .text text => .ok text
    | _ => .error .reader
  dataLength := fun _ => .error .reader

def generous : ScanLimits where
  nullNavigation := false
  plaintextMetadata := false
  maxObjects := 10
  maxDecodedBytes := 1000
  recursionLimit := 1000

theorem clicks_leave : ¬∀ fuel seen state,
    scan linked generous fuel [(1, 0)] = some (.ok (seen, state)) →
      ∀ id, Scanned linked generous [(1, 0)] id → ∀ entries isStream target,
        linked.container id = .dictionary entries isStream → entries.lookup "/A" = some target →
          Allows linked generous widgetInteractionSubtypes true target := by
  intro h
  have haccepted : scan linked generous 9 [(1, 0)] = some (.ok ({1, 0}, ⟨0, 0, 0⟩)) := by
    decide +kernel
  have hscanned : Scanned linked generous [(1, 0)] 0 :=
    .indexed (List.mem_singleton_self _) rfl rfl
  have hallows := h 9 _ _ haccepted 0 hscanned _ _ (.node 1) rfl (by decide)
  obtain ⟨entries, isStream, subtype, hcontainer, hallowed⟩ := hallows 1 (.here rfl)
  cases hcontainer
  have hsubtype : (.ok "/URI" : Except ScanError String) = .ok subtype := hallowed.reads
  cases hsubtype
  exact absurd hallowed.allowed (by decide)

end ProofOps.Application.Uploads.ActionScan
