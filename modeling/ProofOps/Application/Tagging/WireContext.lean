import Mathlib.Algebra.Order.BigOperators.Group.List
import Mathlib.Algebra.Ring.Nat
import ProofOps.Foundation.JsonText
import ProofOps.Foundation.PyJson

/-!
# Interpretation context on the wire

The context of a tagging request is cut until the provider's body is within its limit.  No cut is
larger than a longer one, so the binary search finds the longest one that fits.  A wire is
represented by the value that it writes, the check by the bytes that it takes in the body.
-/

namespace ProofOps.Application.Tagging.WireContext

open Foundation Foundation.PyJson

/-! ### Bytes -/

def escapedChar (c : Char) : List Char :=
  match JsonText.shortEscapes.lookup c with
  | some letter => ['\\', letter]
  | none => if c < ' ' then JsonText.unitEscape c.toNat else [c]

def charBytes (c : Char) : Nat :=
  ((escapedChar c).map Char.utf8Size).sum

def stringBytes (text : List Char) : Nat :=
  4 + ((text.flatMap escapedChar).map charBytes).sum

mutual

def wireBytes (floatBytes : ℚ → Nat) : Json → Nat
  | .null => 4
  | .bool value => if value then 4 else 5
  | .int value => (toString value).length
  | .float value => floatBytes value
  | .str value => stringBytes value.toList
  | .arr items => 1 + max 1 (itemsBytes floatBytes items)
  | .obj fields => 1 + max 1 (fieldsBytes floatBytes fields)

def itemsBytes (floatBytes : ℚ → Nat) : List Json → Nat
  | [] => 0
  | item :: items => wireBytes floatBytes item + 1 + itemsBytes floatBytes items

def fieldsBytes (floatBytes : ℚ → Nat) : Dict → Nat
  | [] => 0
  | (key, value) :: fields =>
    stringBytes key.toList + 1 + wireBytes floatBytes value + 1 + fieldsBytes floatBytes fields

end

/-! ### The request -/

structure SourceRef where
  quote : String
  pageNum : Json
  verificationState : Option Json
  tableId : Option String

structure SentenceContext where
  sourceKind : Option String
  sourceRefs : List SourceRef
  text : String
  verificationState : Option Json

structure Request where
  fields : Dict
  data : Dict
  taggingWirePolicy : Option Json
  sentenceContext : Option SentenceContext
  popped : ∀ key ∈ ["sentence_context", "tagging_wire_policy"], Fields.get data key = none

structure WireRules where
  (policyV1 policy policyK8 policyK8V2 : Json)
  canonicalHash : Json → String
  contextHash : SentenceContext → String
  floatBytes : ℚ → Nat

structure Endpoint where
  (overhead maxBytes : Nat)

def tooLarge : String := "PROBE_REQUEST_TOO_LARGE"

structure Piece where
  text : List Char
  (page quality : Json)

def lengthOf (pieces : List Piece) : Nat :=
  (pieces.map fun piece => piece.text.length).sum

variable {α : Type}

def lastFirst (items : List α) : List α :=
  items.getLast?.toList ++ items.dropLast

section Rendering

variable (rules : WireRules) (request : Request) (context : SentenceContext) (count : Nat)

def policyOf : Json :=
  request.taggingWirePolicy.getD rules.policy

def refsOf : List SourceRef :=
  if policyOf rules request = rules.policyV1 ∧ 1 < context.sourceRefs.length ∧
      context.sourceRefs.any fun ref => ref.tableId.isSome then lastFirst context.sourceRefs
  else context.sourceRefs

def pieces : List Piece :=
  if (refsOf rules request context).isEmpty then
    [{ text := context.text.toList
       page := .null
       quality := context.verificationState.getD (.str "candidate") }]
  else (refsOf rules request context).map fun ref =>
    { text := ref.quote.toList
      page := ref.pageNum
      quality := ref.verificationState.getD (.str "candidate") }

def total : Nat :=
  lengthOf (pieces rules request context)

def ordered : List Piece :=
  if policyOf rules request ∈ [rules.policy, rules.policyK8, rules.policyK8V2] ∧
      context.sourceKind = some "table" ∧ count < total rules request context then
    lastFirst (pieces rules request context)
  else pieces rules request context

def cut : List Piece → Nat → List (Piece × Nat)
  | [], _ => []
  | piece :: rest, remaining =>
    let take := min remaining piece.text.length
    if take = 0 then cut rest remaining else (piece, take) :: cut rest (remaining - take)

def block (piece : Piece) (take : Nat) : Json :=
  .obj [("page_num", piece.page), ("quality", piece.quality), ("rule_credit", .bool false),
    ("text", .str (String.ofList (piece.text.take take))),
    ("truncated", .bool (decide (take < piece.text.length)))]

def parts : List (Piece × Nat) :=
  cut (ordered rules request context count) count

/-- The blocks of the parts. -/
def blocks (parts : List (Piece × Nat)) : List Json :=
  parts.map fun part => block part.1 part.2

def budget : Json :=
  .obj [("fallback", if count = 0 then .str "atomic_without_context" else .null),
    ("original_chars", .int (total rules request context)),
    ("original_sha256", .str (rules.contextHash context)),
    ("policy_sha256", .str (rules.canonicalHash (policyOf rules request))),
    ("retained_chars", .int count),
    ("truncated", .bool (decide (count < total rules request context)))]

def dataOf : Dict :=
  let data := Fields.set request.data "interpretation_budget" (budget rules request context count)
  if (parts rules request context count).isEmpty then data
  else Fields.set data "sentence_context"
    (.obj [("blocks", .arr (blocks (parts rules request context count))),
      ("rule_credit", .bool false)])

def wireOf (data : Dict) : Dict :=
  Fields.set request.fields "untrusted_document_data" (.obj data)

/-- `render(count)`. -/
def render : Dict :=
  wireOf request (dataOf rules request context count)

def accepts (endpoint : Endpoint) (wire : Dict) : Bool :=
  endpoint.overhead + wireBytes rules.floatBytes (.obj wire) ≤ endpoint.maxBytes

/-- `fit_context.fits`. -/
def fits (endpoint : Endpoint) : Bool :=
  accepts rules endpoint (render rules request context count)

def search (fits : Nat → Bool) (low high : Nat) : Nat :=
  if low < high then
    let mid := (low + high + 1) / 2
    if fits mid then search fits mid high else search fits low (mid - 1)
  else low
termination_by high - low

/-- `fit_context`. -/
def fitContext (endpoint : Endpoint) : Except String Dict :=
  match request.sentenceContext with
  | none =>
    let wire := wireOf request request.data
    if accepts rules endpoint wire then .ok wire else .error tooLarge
  | some context =>
    let all := total rules request context
    if fits rules request context all endpoint then .ok (render rules request context all)
    else if !fits rules request context 0 endpoint then .error tooLarge
    else .ok (render rules request context
      (search (fun count => fits rules request context count endpoint) 0 all))

/-! ### What is taken -/

/-- The text that is taken. -/
def textOf (parts : List (Piece × Nat)) : List Char :=
  parts.flatMap fun part => part.1.text.take part.2

theorem textOf_cut (pieces : List Piece) (count : Nat) :
    textOf (cut pieces count) = (pieces.flatMap Piece.text).take count := by
  induction pieces generalizing count with
  | nil => simp [cut, textOf]
  | cons piece rest ih =>
    rw [cut, List.flatMap_cons, List.take_append]
    split_ifs with htake
    · rw [ih]
      rcases Nat.eq_zero_or_pos count with rfl | hpos
      · simp
      · have hempty : piece.text = [] := by
          rw [← List.length_eq_zero_iff]
          omega
        simp [hempty]
    · have hrest : count - min count piece.text.length = count - piece.text.length := by omega
      unfold textOf at ih ⊢
      rw [List.flatMap_cons, ih, hrest, ← List.take_eq_take_min]

theorem lastFirst_perm (items : List α) : (lastFirst items).Perm items := by
  rcases List.eq_nil_or_concat items with rfl | ⟨front, last, rfl⟩
  · exact List.Perm.refl _
  · simpa [lastFirst] using (List.perm_append_singleton last front).symm

theorem ordered_perm :
    (ordered rules request context count).Perm (pieces rules request context) := by
  unfold ordered
  split_ifs
  · exact lastFirst_perm _
  · exact List.Perm.refl _

variable {rules request context count} {other : Nat} {floatBytes : ℚ → Nat}

theorem length_textOf (hle : count ≤ total rules request context) :
    (textOf (parts rules request context count)).length = count := by
  have hlength : ((ordered rules request context count).flatMap Piece.text).length =
      total rules request context := by
    rw [List.length_flatMap]
    exact ((ordered_perm rules request context count).map _).sum_nat
  unfold parts
  rw [textOf_cut, List.length_take, hlength, Nat.min_eq_left hle]

theorem parts_eq_nil_iff (hle : count ≤ total rules request context) :
    parts rules request context count = [] ↔ count = 0 := by
  constructor
  · intro hnil
    have hlength := length_textOf hle
    rw [hnil] at hlength
    exact hlength.symm
  · rintro rfl
    unfold parts
    induction ordered rules request context 0 with
    | nil => rfl
    | cons piece rest ih => simpa [cut] using ih

/-! ### Larger cuts -/

theorem flag_le {p q : Prop} [Decidable p] [Decidable q] (h : q → p) :
    wireBytes floatBytes (.bool (decide p)) ≤ wireBytes floatBytes (.bool (decide q)) := by
  unfold wireBytes
  by_cases hq : q
  · simp [hq, h hq]
  · by_cases hp : p <;> simp [hp, hq]

theorem number_le {first second : Nat} (h : first ≤ second) :
    wireBytes floatBytes (.int first) ≤ wireBytes floatBytes (.int second) := by
  show first.repr.length ≤ second.repr.length
  rw [Nat.length_repr_le_iff Nat.length_repr_pos]
  exact h.trans_lt ((Nat.length_repr_le_iff Nat.length_repr_pos).mp le_rfl)

variable {first second : Nat}

theorem stringBytes_take_le (text : List Char) (h : first ≤ second) :
    stringBytes (text.take first) ≤ stringBytes (text.take second) := by
  obtain ⟨rest, hrest⟩ : text.take first <+: text.take second := List.take_prefix_take_left h
  unfold stringBytes
  rw [← hrest, List.flatMap_append, List.map_append, List.sum_append]
  omega

def partBytes (floatBytes : ℚ → Nat) (piece : Piece) (take : Nat) : Nat :=
  if take = 0 then 0 else wireBytes floatBytes (block piece take) + 1

theorem partBytes_mono (piece : Piece) (h : first ≤ second) :
    partBytes floatBytes piece first ≤ partBytes floatBytes piece second := by
  unfold partBytes
  by_cases hfirst : first = 0
  · rw [if_pos hfirst]
    exact Nat.zero_le _
  · have htext := stringBytes_take_le piece.text h
    have hflag := @flag_le floatBytes (first < piece.text.length) (second < piece.text.length) _ _
      h.trans_lt
    rw [if_neg hfirst, if_neg (by omega)]
    simp only [block, wireBytes, fieldsBytes, String.toList_ofList] at hflag ⊢
    omega

theorem itemsBytes_cut (piece : Piece) (rest : List Piece) (count : Nat) :
    itemsBytes floatBytes (blocks (cut (piece :: rest) count)) =
      partBytes floatBytes piece (min count piece.text.length) +
        itemsBytes floatBytes (blocks (cut rest (count - min count piece.text.length))) := by
  rw [cut, partBytes]
  split_ifs with htake
  · rw [htake, Nat.zero_add, Nat.sub_zero]
  · rw [blocks, List.map_cons, itemsBytes, blocks]

theorem itemsBytes_mono (pieces : List Piece) (h : first ≤ second) :
    itemsBytes floatBytes (blocks (cut pieces first)) ≤
      itemsBytes floatBytes (blocks (cut pieces second)) := by
  induction pieces generalizing first second with
  | nil => exact Nat.le_refl _
  | cons piece rest ih =>
    rw [itemsBytes_cut, itemsBytes_cut]
    exact Nat.add_le_add (partBytes_mono piece (by omega)) (ih (by omega))

theorem itemsBytes_whole (pieces : List Piece) (h : lengthOf pieces ≤ count) :
    itemsBytes floatBytes (blocks (cut pieces count)) =
      (pieces.map fun piece => partBytes floatBytes piece piece.text.length).sum := by
  induction pieces generalizing count with
  | nil => rfl
  | cons piece rest ih =>
    unfold lengthOf at h ih
    rw [List.map_cons, List.sum_cons] at h ⊢
    rw [itemsBytes_cut, ih (by omega), Nat.min_eq_right (by omega)]

theorem blocks_mono (h : count ≤ other) (hle : other ≤ total rules request context) :
    itemsBytes floatBytes (blocks (parts rules request context count)) ≤
      itemsBytes floatBytes (blocks (parts rules request context other)) := by
  unfold parts
  rcases Nat.lt_or_eq_of_le hle with hlt | rfl
  · have hsame : ordered rules request context count = ordered rules request context other := by
      unfold ordered
      simp only [hlt, h.trans_lt hlt]
    rw [hsame]
    exact itemsBytes_mono _ h
  · have hwhole : ∀ count, itemsBytes floatBytes (blocks (cut
        (ordered rules request context count) (total rules request context))) =
          ((pieces rules request context).map fun piece =>
            partBytes floatBytes piece piece.text.length).sum := by
      intro count
      have hperm := ordered_perm rules request context count
      have hlength : lengthOf (ordered rules request context count) =
          total rules request context := (hperm.map _).sum_nat
      rw [itemsBytes_whole _ hlength.le]
      exact (hperm.map _).sum_nat
    refine (itemsBytes_mono _ h).trans_eq ?_
    rw [hwhole, hwhole]

theorem fieldsBytes_set (fields : Dict) (key : String) (first second : Json) :
    fieldsBytes floatBytes (Fields.set fields key first) + wireBytes floatBytes second =
      fieldsBytes floatBytes (Fields.set fields key second) + wireBytes floatBytes first := by
  induction fields with
  | nil =>
    simp only [Fields.set, fieldsBytes]
    omega
  | cons field fields ih =>
    unfold Fields.set
    split_ifs <;> simp only [fieldsBytes] <;> omega

theorem fieldsBytes_set_of_absent {fields : Dict} {key : String} (value : Json)
    (h : Fields.get fields key = none) :
    fieldsBytes floatBytes (Fields.set fields key value) = fieldsBytes floatBytes fields +
      stringBytes key.toList + wireBytes floatBytes value + 2 := by
  induction fields with
  | nil =>
    simp only [Fields.set, fieldsBytes]
    omega
  | cons field fields ih =>
    have hne : field.1 ≠ key := by
      intro hsame
      rw [Fields.get_cons, if_pos hsame] at h
      cases h
    rw [Fields.get_cons, if_neg hne] at h
    unfold Fields.set
    rw [if_neg (Ne.symm hne)]
    split_ifs <;> simp only [fieldsBytes, ih h] <;> omega

def contextBytes (floatBytes : ℚ → Nat) (parts : List (Piece × Nat)) : Nat :=
  if parts.isEmpty then 0 else 58 + max 1 (itemsBytes floatBytes (blocks parts))

theorem fieldsBytes_dataOf : fieldsBytes floatBytes (dataOf rules request context count) =
    fieldsBytes floatBytes (Fields.set request.data "interpretation_budget"
      (budget rules request context count)) +
        contextBytes floatBytes (parts rules request context count) := by
  have hkeys : stringBytes "sentence_context".toList = 20 ∧ stringBytes "blocks".toList = 10 ∧
      stringBytes "rule_credit".toList = 15 := by decide
  unfold dataOf contextBytes
  split_ifs
  · rfl
  · rw [fieldsBytes_set_of_absent]
    · simp only [wireBytes, fieldsBytes, if_neg Bool.false_ne_true]
      omega
    · rw [Fields.get_set, if_neg (by decide)]
      exact request.popped _ List.mem_cons_self

/-- A rendering that retains more has no fewer bytes. -/
theorem render_mono (h : count ≤ other) (hle : other ≤ total rules request context) :
    wireBytes floatBytes (.obj (render rules request context count)) ≤
      wireBytes floatBytes (.obj (render rules request context other)) := by
  have hdata : wireBytes floatBytes (budget rules request context count) +
        contextBytes floatBytes (parts rules request context count) ≤
      wireBytes floatBytes (budget rules request context other) +
        contextBytes floatBytes (parts rules request context other) := by
    rcases Nat.eq_or_lt_of_le h with rfl | hlt
    · exact Nat.le_refl _
    · have hretained := @number_le floatBytes _ _ h
      have htruncated := @flag_le floatBytes (count < total rules request context)
        (other < total rules request context) _ _ hlt.trans
      have hatomic : stringBytes "atomic_without_context".toList = 26 := by decide
      have hsome : other ≠ 0 := Nat.ne_of_gt (Nat.zero_lt_of_lt hlt)
      have hother : ¬(parts rules request context other).isEmpty := by
        rwa [List.isEmpty_iff, parts_eq_nil_iff hle]
      unfold contextBytes budget
      rw [if_neg hsome, if_neg hother]
      -- The first character brings the blocks, which outweigh the fallback.
      rcases Nat.eq_zero_or_pos count with rfl | hpos
      · rw [if_pos rfl, (parts_eq_nil_iff (Nat.zero_le _)).mpr rfl]
        simp only [wireBytes, fieldsBytes, List.isEmpty_nil, if_true] at hretained htruncated ⊢
        omega
      · have hblocks := @blocks_mono rules request context count other floatBytes h hle
        have hcount : ¬(parts rules request context count).isEmpty := by
          rw [List.isEmpty_iff, parts_eq_nil_iff (h.trans hle)]
          exact Nat.ne_of_gt hpos
        rw [if_neg (Nat.ne_of_gt hpos), if_neg hcount]
        simp only [wireBytes, fieldsBytes] at hretained htruncated ⊢
        omega
  have hinner := @fieldsBytes_set floatBytes request.data "interpretation_budget"
    (budget rules request context count) (budget rules request context other)
  have houter := @fieldsBytes_set floatBytes request.fields "untrusted_document_data"
    (.obj (dataOf rules request context count)) (.obj (dataOf rules request context other))
  unfold render wireOf
  simp only [wireBytes, fieldsBytes_dataOf] at houter ⊢
  omega

/-! ### The longest context that fits -/

theorem search_spec {fits : Nat → Bool} {low high : Nat} (hlow : fits low = true) (hle : low ≤ high)
    (hdown : ∀ count other, count ≤ other → other ≤ high → fits other = true →
      fits count = true) :
    search fits low high ≤ high ∧ fits (search fits low high) = true ∧
      ∀ longer, search fits low high < longer → longer ≤ high → fits longer = false := by
  fun_induction search fits low high with
  | case1 low high hlt mid hfits ih => exact ih hfits (by omega) hdown
  | case2 low high hlt mid hfits ih =>
    obtain ⟨hbound, hfound, hlonger⟩ := ih hlow (by omega)
      fun count other hcount hother => hdown count other hcount (by omega)
    refine ⟨by omega, hfound, fun longer hlt' hle' => ?_⟩
    by_cases hmid : longer ≤ mid - 1
    · exact hlonger longer hlt' hmid
    · exact Bool.eq_false_iff.mpr fun hlong => hfits (hdown mid longer (by omega) hle' hlong)
  | case3 low high hlt =>
    exact ⟨hle, hlow, fun longer hlt' hle' => absurd hle' (by omega)⟩

theorem fits_mono {endpoint : Endpoint} (h : count ≤ other)
    (hle : other ≤ total rules request context)
    (hfits : fits rules request context other endpoint = true) :
    fits rules request context count endpoint = true :=
  decide_eq_true ((Nat.add_le_add_left (render_mono h hle) _).trans (of_decide_eq_true hfits))

theorem fitContext_cases {endpoint : Endpoint} (h : request.sentenceContext = some context) :
    fits rules request context 0 endpoint = false ∧
        fitContext rules request endpoint = .error tooLarge ∨
      fits rules request context 0 endpoint = true ∧ ∃ count ≤ total rules request context,
        fitContext rules request endpoint = .ok (render rules request context count) ∧
        fits rules request context count endpoint = true ∧
        ∀ longer, count < longer → longer ≤ total rules request context →
          fits rules request context longer endpoint = false := by
  unfold fitContext
  rw [h]
  dsimp only
  cases hall : fits rules request context (total rules request context) endpoint with
  | true =>
    exact Or.inr ⟨fits_mono (Nat.zero_le _) le_rfl hall, _, le_rfl, rfl, hall,
      fun longer hlt hle => absurd hle (not_le.mpr hlt)⟩
  | false =>
    cases hzero : fits rules request context 0 endpoint with
    | false => exact Or.inl ⟨rfl, rfl⟩
    | true =>
      obtain ⟨hle, hfound, hlonger⟩ := search_spec hzero (Nat.zero_le _)
        fun count other hcount hother => fits_mono hcount hother
      exact Or.inr ⟨rfl, _, hle, rfl, hfound, hlonger⟩

structure Fitted (rules : WireRules) (endpoint : Endpoint) (request : Request)
    (context : SentenceContext) : Prop where
  returns : (∃ wire, fitContext rules request endpoint = .ok wire) ↔
    accepts rules endpoint (render rules request context 0) = true
  refuses : ∀ error, fitContext rules request endpoint = .error error → error = tooLarge
  longest : ∀ wire, fitContext rules request endpoint = .ok wire →
    accepts rules endpoint wire = true ∧ ∃ count ≤ total rules request context,
      wire = render rules request context count ∧
      ∀ longer, count < longer → longer ≤ total rules request context →
        accepts rules endpoint (render rules request context longer) = false
  retained : ∀ count ≤ total rules request context,
    textOf (parts rules request context count) =
        ((ordered rules request context count).flatMap Piece.text).take count ∧
      (textOf (parts rules request context count)).length = count
  unchanged : ∀ count key, key ≠ "untrusted_document_data" →
    Fields.get (render rules request context count) key = Fields.get request.fields key
  kept : ∀ count, Fields.get (render rules request context count) "untrusted_document_data" =
      some (.obj (dataOf rules request context count)) ∧
    ∀ key, key ≠ "interpretation_budget" → key ≠ "sentence_context" →
      Fields.get (dataOf rules request context count) key = Fields.get request.data key

/-- Whatever the request and the limit, the context is fitted. -/
theorem context_fitted (rules : WireRules) (endpoint : Endpoint) (request : Request)
    (context : SentenceContext) :
    Fitted rules endpoint { request with sentenceContext := some context } context := by
  generalize hrequest : { request with sentenceContext := some context } = whole
  have hcontext : whole.sentenceContext = some context := by rw [← hrequest]
  have hresult := @fitContext_cases rules whole context endpoint hcontext
  refine ⟨?_, ?_, ?_, fun count hle => ⟨textOf_cut _ _, length_textOf hle⟩, ?_, ?_⟩
  · change _ ↔ fits rules whole context 0 endpoint = true
    rcases hresult with ⟨hzero, herror⟩ | ⟨hzero, count, -, hok, -⟩
    · simp [herror, hzero]
    · simp [hok, hzero]
  · intro error herror
    rcases hresult with ⟨-, hrefused⟩ | ⟨-, count, -, hok, -⟩
    · exact (Except.error.inj (hrefused.symm.trans herror)).symm
    · rw [hok] at herror
      cases herror
  · intro wire hwire
    rcases hresult with ⟨-, hrefused⟩ | ⟨-, count, hle, hok, hfits, hlonger⟩
    · rw [hrefused] at hwire
      cases hwire
    · rw [hok] at hwire
      cases hwire
      exact ⟨hfits, count, hle, rfl, hlonger⟩
  · intro count key hkey
    unfold render wireOf
    rw [Fields.get_set, if_neg hkey]
  · intro count
    unfold render wireOf
    rw [Fields.get_set, if_pos rfl]
    refine ⟨rfl, fun key hbudget hsentence => ?_⟩
    unfold dataOf
    split_ifs
    · rw [Fields.get_set, if_neg hbudget]
    · rw [Fields.get_set, if_neg hsentence, Fields.get_set, if_neg hbudget]

end Rendering

/-! ### A policy on the wire -/

namespace Sample

def rules : WireRules where
  policyV1 := .str "v1"
  policy := .str "v2"
  policyK8 := .str "k8"
  policyK8V2 := .str "k8v2"
  canonicalHash := fun _ => "hash"
  contextHash := fun _ => "hash"
  floatBytes := fun _ => 3

def context : SentenceContext where
  sourceKind := none
  sourceRefs := []
  text := "ab"
  verificationState := none

def request : Request where
  fields := []
  data := []
  taggingWirePolicy := some (.str "v2")
  sentenceContext := some context
  popped := fun _ _ => rfl

end Sample

theorem policy_removed :
    Sample.request.taggingWirePolicy = some (.str "v2") ∧
      fitContext Sample.rules Sample.request ⟨0, 16384⟩ =
        .ok (render Sample.rules Sample.request Sample.context 2) ∧
      Fields.get (dataOf Sample.rules Sample.request Sample.context 2) "tagging_wire_policy" =
        none := by
  decide +kernel

end ProofOps.Application.Tagging.WireContext
