import ProofOps.Foundation.Checked
import ProofOps.Foundation.PyJson
import ProofOps.Foundation.Words

/-!
# The strings of a copy

The walk of `copy` is a fold over the strings of the value that it keeps, each beside the key above
it (`copy_eq_rebind_iff`): the shape of the value never matters to what becomes of a string.
-/

namespace ProofOps.Api.HostedReuse

open Foundation Foundation.PyJson

structure RunScope where
  (tenantId documentId runId : String)

structure Copying where
  (source target : RunScope)
  uuid5 : String → String

abbrev Identities := List (String × String)

def enter : Identities → String → String → Identities
  | [], key, value => [(key, value)]
  | entry :: identities, key, value =>
    if entry.1 = key then (key, value) :: identities else entry :: enter identities key value

variable (copying : Copying)

def Copying.initial : Identities :=
  enter (enter (enter [] copying.source.tenantId copying.target.tenantId)
    copying.source.documentId copying.target.documentId) copying.source.runId copying.target.runId

variable (identities : Identities)

/-- `identity(value)`. -/
def identity (value : String) : String × Identities :=
  match identities.lookup value with
  | some replacement => (replacement, identities)
  | none => (copying.uuid5 value, identities ++ [(value, copying.uuid5 value)])

def replace (original replacement value : String) : String :=
  String.ofList (Words.replaceAll original.toList replacement.toList value.toList)

def replaceEach (value : String) : String :=
  identities.foldl (fun value entry => replace entry.1 entry.2 value) value

/-! ### Keys -/

def privateKeys : List String :=
  ["user_id", "user_sub", "user_hash", "session_id", "reviewer_id", "reviewer", "resolved_by",
    "created_by", "updated_by", "actor", "workspace", "path", "source_path", "object_key", "url",
    "reuse"]

def identityKeys : List String :=
  ["claim_id", "source_id", "document_version_id", "parse_manifest_id", "object_version_id",
    "review_id", "job_id", "tag_id", "decision_id", "request_id"]

def textKeys : List String :=
  ["quote", "raw_text", "text", "canonical_quote"]

inductive Role where
  | tenant
  | run
  | document
  | identity
  | text
  | free
  deriving DecidableEq

def roleOf (key : String) : Role :=
  if key = "tenant_id" then .tenant
  else if key = "run_id" then .run
  else if key = "document_id" then .document
  else if identityKeys.contains key then .identity
  else if textKeys.contains key then .text
  else .free

/-- `key.removesuffix("s")`. -/
def itemKey (key : String) : String :=
  match key.toList.reverse with
  | 's' :: rest => String.ofList rest.reverse
  | _ => key

def copyString (key value : String) : String × Identities :=
  match roleOf key with
  | .tenant => (copying.target.tenantId, identities)
  | .run => (copying.target.runId, identities)
  | .document => (copying.target.documentId, identities)
  | .identity => identity copying identities value
  | .text => (value, identities)
  | .free => (replaceEach identities value, identities)

mutual

/-- `copy(value, key)`. -/
def copy (copying : Copying) (identities : Identities) (key : String) : Json → Json × Identities
  | .str value =>
    let copied := copyString copying identities key value
    (.str copied.1, copied.2)
  | .arr items =>
    let copied := copyItems copying identities (itemKey key) items
    (.arr copied.1, copied.2)
  | .obj fields =>
    let copied := copyFields copying identities fields
    (.obj copied.1, copied.2)
  | value => (value, identities)

def copyItems (copying : Copying) (identities : Identities) (key : String) :
    List Json → List Json × Identities
  | [] => ([], identities)
  | item :: items =>
    let first := copy copying identities key item
    let rest := copyItems copying first.2 key items
    (first.1 :: rest.1, rest.2)

def copyFields (copying : Copying) (identities : Identities) :
    List (String × Json) → List (String × Json) × Identities
  | [] => ([], identities)
  | (key, value) :: fields =>
    if privateKeys.contains key then copyFields copying identities fields
    else
      let first := copy copying identities key value
      let rest := copyFields copying first.2 fields
      ((key, first.1) :: rest.1, rest.2)

end

def publicKeys : List String :=
  ["schema", "claims", "reviews", "hold_reasons", "hold_reason_details", "page_map",
    "possible_grade_range", "confirmed_grade", "w16_source_document"]

def pipelineKeys : List String :=
  ["status", "reason", "reporting_scope", "scope", "extraction_outcome", "stage_seconds",
    "pipeline_profile", "pipeline_failure_projection", "provider_failure_projection_sha256"]

inductive CopyError where
  | attributeError
  deriving DecidableEq

def pipelineOf (result : Dict) : Except CopyError Dict :=
  match result.lookup "pipeline" with
  | none => .ok []
  | some (.obj fields) => .ok fields
  | some _ => .error .attributeError

def keep (keys : List String) (fields : Dict) : Dict :=
  fields.filter fun field => keys.contains field.1

def publicOf (result : Dict) : Except CopyError Dict := do
  let pipeline ← pipelineOf result
  return keep publicKeys result ++ [("pipeline", .obj (keep pipelineKeys pipeline))]

/-- `_private_copy`. -/
def privateCopy (result : Dict) : Except CopyError Json := do
  let shared ← publicOf result
  return (copy copying copying.initial "" (.obj shared)).1

abbrev Leaf := String × String

/-! ### Strings, keys and rewriting -/

mutual

def leaves (key : String) : Json → List Leaf
  | .str value => [(key, value)]
  | .arr items => leavesItems (itemKey key) items
  | .obj fields => leavesFields fields
  | _ => []

def leavesItems (key : String) : List Json → List Leaf
  | [] => []
  | item :: items => leaves key item ++ leavesItems key items

def leavesFields : List (String × Json) → List Leaf
  | [] => []
  | (key, value) :: fields =>
    if privateKeys.contains key then leavesFields fields
    else leaves key value ++ leavesFields fields

end

mutual

def labels : Json → List String
  | .arr items => labelsItems items
  | .obj fields => labelsFields fields
  | _ => []

def labelsItems : List Json → List String
  | [] => []
  | item :: items => labels item ++ labelsItems items

def labelsFields : List (String × Json) → List String
  | [] => []
  | (key, value) :: fields =>
    if privateKeys.contains key then labelsFields fields
    else key :: (labels value ++ labelsFields fields)

end

mutual

def rebind (f : Leaf → String) (key : String) : Json → Json
  | .str value => .str (f (key, value))
  | .arr items => .arr (rebindItems f (itemKey key) items)
  | .obj fields => .obj (rebindFields f fields)
  | value => value

def rebindItems (f : Leaf → String) (key : String) : List Json → List Json
  | [] => []
  | item :: items => rebind f key item :: rebindItems f key items

def rebindFields (f : Leaf → String) : List (String × Json) → List (String × Json)
  | [] => []
  | (key, value) :: fields =>
    if privateKeys.contains key then rebindFields f fields
    else (key, rebind f key value) :: rebindFields f fields

end

theorem leavesItems_append (key : String) (first second : List Json) :
    leavesItems key (first ++ second) = leavesItems key first ++ leavesItems key second := by
  induction first with
  | nil => rfl
  | cons item items ih => rw [List.cons_append, leavesItems, leavesItems, ih, List.append_assoc]

theorem leavesFields_append (first second : Dict) :
    leavesFields (first ++ second) = leavesFields first ++ leavesFields second := by
  induction first with
  | nil => rfl
  | cons field fields ih =>
    rw [List.cons_append, leavesFields, leavesFields, ih]
    split_ifs
    · rfl
    · rw [List.append_assoc]

theorem labelsFields_append (first second : Dict) :
    labelsFields (first ++ second) = labelsFields first ++ labelsFields second := by
  induction first with
  | nil => rfl
  | cons field fields ih =>
    rw [List.cons_append, labelsFields, labelsFields, ih]
    split_ifs
    · rfl
    · rw [List.cons_append, List.append_assoc]

mutual

theorem leaves_rebind (f : Leaf → String) (key : String) : (value : Json) →
    leaves key (rebind f key value) = (leaves key value).map fun leaf => (leaf.1, f leaf)
  | .null | .bool _ | .int _ | .float _ => rfl
  | .str _ => rfl
  | .arr items => leavesItems_rebind f (itemKey key) items
  | .obj fields => leavesFields_rebind f fields

theorem leavesItems_rebind (f : Leaf → String) (key : String) : (items : List Json) →
    leavesItems key (rebindItems f key items) =
      (leavesItems key items).map fun leaf => (leaf.1, f leaf)
  | [] => rfl
  | item :: items => by
    rw [rebindItems, leavesItems, leaves_rebind f key item, leavesItems_rebind f key items,
      leavesItems, List.map_append]

theorem leavesFields_rebind (f : Leaf → String) : (fields : List (String × Json)) →
    leavesFields (rebindFields f fields) =
      (leavesFields fields).map fun leaf => (leaf.1, f leaf)
  | [] => rfl
  | (key, value) :: fields => by
    rw [rebindFields, leavesFields]
    split_ifs with hprivate
    · exact leavesFields_rebind f fields
    · rw [leavesFields, if_neg hprivate, leaves_rebind f key value,
        leavesFields_rebind f fields, List.map_append]

end

/-! ### The walk as a fold -/

variable {copying : Copying} {identities : Identities}

def copyLeaves (copying : Copying) : Identities → List Leaf → List Leaf × Identities
  | identities, [] => ([], identities)
  | identities, leaf :: rest =>
    let first := copyString copying identities leaf.1 leaf.2
    let copied := copyLeaves copying first.2 rest
    ((leaf.1, first.1) :: copied.1, copied.2)

theorem copyLeaves_append (first second : List Leaf) :
    copyLeaves copying identities (first ++ second) =
      ((copyLeaves copying identities first).1 ++
          (copyLeaves copying (copyLeaves copying identities first).2 second).1,
        (copyLeaves copying (copyLeaves copying identities first).2 second).2) := by
  induction first generalizing identities with
  | nil => rfl
  | cons leaf rest ih =>
    rw [List.cons_append, copyLeaves, ih]
    rfl

theorem length_copyLeaves (strings : List Leaf) :
    (copyLeaves copying identities strings).1.length = strings.length := by
  induction strings generalizing identities with
  | nil => rfl
  | cons leaf rest ih => rw [copyLeaves, List.length_cons, ih, List.length_cons]

theorem copyLeaves_eq_map_append {f : Leaf → Leaf} {first second : List Leaf}
    (h : (copyLeaves copying identities (first ++ second)).1 = (first ++ second).map f) :
    (copyLeaves copying identities first).1 = first.map f ∧
      (copyLeaves copying (copyLeaves copying identities first).2 second).1 = second.map f := by
  rw [copyLeaves_append, List.map_append] at h
  exact List.append_inj h (by rw [length_copyLeaves, List.length_map])

mutual

theorem leaves_copy (copying : Copying) (identities : Identities) (key : String) : (value : Json) →
    leaves key (copy copying identities key value).1 =
        (copyLeaves copying identities (leaves key value)).1 ∧
      (copy copying identities key value).2 =
        (copyLeaves copying identities (leaves key value)).2
  | .null | .bool _ | .int _ | .float _ => ⟨rfl, rfl⟩
  | .str _ => ⟨rfl, rfl⟩
  | .arr items => leavesItems_copy copying identities (itemKey key) items
  | .obj fields => leavesFields_copy copying identities fields

theorem leavesItems_copy (copying : Copying) (identities : Identities) (key : String) :
    (items : List Json) →
    leavesItems key (copyItems copying identities key items).1 =
        (copyLeaves copying identities (leavesItems key items)).1 ∧
      (copyItems copying identities key items).2 =
        (copyLeaves copying identities (leavesItems key items)).2
  | [] => ⟨rfl, rfl⟩
  | item :: items => by
    obtain ⟨hfirst, hentered⟩ := leaves_copy copying identities key item
    obtain ⟨hrest, hlast⟩ :=
      leavesItems_copy copying (copy copying identities key item).2 key items
    rw [copyItems, leavesItems, leavesItems, copyLeaves_append, ← hentered]
    exact ⟨by rw [hfirst, hrest], hlast⟩

theorem leavesFields_copy (copying : Copying) (identities : Identities) :
    (fields : List (String × Json)) →
    leavesFields (copyFields copying identities fields).1 =
        (copyLeaves copying identities (leavesFields fields)).1 ∧
      (copyFields copying identities fields).2 =
        (copyLeaves copying identities (leavesFields fields)).2
  | [] => ⟨rfl, rfl⟩
  | (key, value) :: fields => by
    rw [copyFields, leavesFields]
    split_ifs with hprivate
    · exact leavesFields_copy copying identities fields
    · obtain ⟨hfirst, hentered⟩ := leaves_copy copying identities key value
      obtain ⟨hrest, hlast⟩ :=
        leavesFields_copy copying (copy copying identities key value).2 fields
      rw [leavesFields, if_neg hprivate, copyLeaves_append, ← hentered]
      exact ⟨by rw [hfirst, hrest], hlast⟩

end

variable {f : Leaf → String}

mutual

/-- A copy rewrites the value where it rewrites its leaves. -/
theorem copy_eq_rebind (copying : Copying) (identities : Identities)
    (key : String) : (value : Json) →
    (copyLeaves copying identities (leaves key value)).1 =
      (leaves key value).map (fun leaf => (leaf.1, f leaf)) →
    (copy copying identities key value).1 = rebind f key value
  | .null, _ | .bool _, _ | .int _, _ | .float _, _ => rfl
  | .str value, h => by
    have hcopied := congrArg (List.map Prod.snd) h
    simp only [leaves, copyLeaves, List.map_cons, List.map_nil, List.cons.injEq, and_true]
      at hcopied
    rw [copy, rebind, hcopied]
  | .arr items, h => by
    rw [copy, rebind, copyItems_eq_rebind copying identities (itemKey key) items h]
  | .obj fields, h => by
    rw [copy, rebind, copyFields_eq_rebind copying identities fields h]

theorem copyItems_eq_rebind (copying : Copying) (identities : Identities)
    (key : String) : (items : List Json) →
    (copyLeaves copying identities (leavesItems key items)).1 =
      (leavesItems key items).map (fun leaf => (leaf.1, f leaf)) →
    (copyItems copying identities key items).1 = rebindItems f key items
  | [], _ => rfl
  | item :: items, h => by
    obtain ⟨hfirst, hrest⟩ := copyLeaves_eq_map_append h
    rw [← (leaves_copy copying identities key item).2] at hrest
    rw [copyItems, rebindItems, copy_eq_rebind copying identities key item hfirst,
      copyItems_eq_rebind copying _ key items hrest]

theorem copyFields_eq_rebind (copying : Copying) (identities : Identities) :
    (fields : List (String × Json)) →
    (copyLeaves copying identities (leavesFields fields)).1 =
      (leavesFields fields).map (fun leaf => (leaf.1, f leaf)) →
    (copyFields copying identities fields).1 = rebindFields f fields
  | [], _ => rfl
  | (key, value) :: fields, h => by
    rw [leavesFields] at h
    rw [copyFields, rebindFields]
    split_ifs at h ⊢ with hprivate
    · exact copyFields_eq_rebind copying identities fields h
    · obtain ⟨hfirst, hrest⟩ := copyLeaves_eq_map_append h
      rw [← (leaves_copy copying identities key value).2] at hrest
      simp only [copy_eq_rebind copying identities key value hfirst,
        copyFields_eq_rebind copying _ fields hrest]

end

theorem copy_eq_rebind_iff {key : String} {value : Json} :
    (copy copying identities key value).1 = rebind f key value ↔
      (copyLeaves copying identities (leaves key value)).1 =
        (leaves key value).map fun leaf => (leaf.1, f leaf) := by
  constructor
  · intro h
    rw [← (leaves_copy copying identities key value).1, h, leaves_rebind]
  · exact copy_eq_rebind copying identities key value

end ProofOps.Api.HostedReuse
