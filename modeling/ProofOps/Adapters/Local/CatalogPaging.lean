import Mathlib.Data.Nat.Digits.Lemmas
import ProofOps.Adapters.Local.CatalogPages

/-!
# A page after the other

The rows of a reachable store are what a loader yielded, within the caps.  A cursor names a
row and an offset, so that a client whose row stays alive reads one slice of the row's items
after the other, whatever else happens to the store between its requests.
-/

namespace ProofOps.Adapters.Local.Catalog

open Foundation Foundation.Checked

variable {Time Item Scope Digest : Type}

/-! ### The caps -/

structure WithinCaps (store : Store Time Item Digest) : Prop where
  tenant_count : ∀ tenantId, store.tenantCount tenantId ≤ maxTenantSnapshotCount
  tenant_bytes : ∀ tenantId, store.tenantBytes tenantId ≤ maxTenantSnapshotBytes
  global_count : store.globalCount ≤ maxGlobalSnapshotCount
  global_bytes : store.globalBytes ≤ maxGlobalSnapshotBytes

structure Payload.Holds (payload : Payload Item) (items : List Item)
    (snapshotEpoch : Option Int) : Prop where
  stored : payload.stored = .withSnapshotEpoch items snapshotEpoch
  rows : items.length ≤ maxRowsPerSnapshot
  epoch : ∀ epoch ∈ snapshotEpoch, 0 ≤ epoch

structure Sound (store : Store Time Item Digest) : Prop where
  within : WithinCaps store
  epochs : ∀ row ∈ store.snapshots, 1 ≤ row.epoch ∧ row.epoch ≤ store.sequence
  sequence : store.sequence ≤ maxRowId
  payloads : ∀ row ∈ store.snapshots, ∃ items snapshotEpoch, row.payload.Holds items snapshotEpoch

theorem Sound.initial : Sound (Store.initial : Store Time Item Digest) where
  within :=
    { tenant_count := fun _ => Nat.zero_le _
      tenant_bytes := fun _ => Nat.zero_le _
      global_count := Nat.zero_le _
      global_bytes := Nat.zero_le _ }
  epochs := fun _ hrow => absurd hrow Table.not_mem_empty
  sequence := Nat.zero_le _
  payloads := fun _ hrow => absurd hrow Table.not_mem_empty

variable {store : Store Time Item Digest}

/-- Snapshots may be removed. -/
theorem Sound.delete (h : Sound store) (test : SnapshotRow Time Item Digest → Bool) :
    Sound (store.delete test) where
  within :=
    { tenant_count := fun tenantId => Table.total_delete_le.trans (h.within.tenant_count tenantId)
      tenant_bytes := fun tenantId => Table.total_delete_le.trans (h.within.tenant_bytes tenantId)
      global_count := Table.total_delete_le.trans h.within.global_count
      global_bytes := Table.total_delete_le.trans h.within.global_bytes }
  epochs := fun row hrow => h.epochs row (Table.mem_delete.mp hrow).1
  sequence := h.sequence
  payloads := fun row hrow => h.payloads row (Table.mem_delete.mp hrow).1

/-- What inserting a snapshot leaves. -/
structure Inserted (store opened : Store Time Item Digest)
    (row : SnapshotRow Time Item Digest) : Prop where
  capacity : checkCapacity store row.tenantId row.payload.bytes = .ok ()
  room : store.sequence < maxRowId
  epoch : row.epoch = store.sequence + 1
  sequence : opened.sequence = store.sequence + 1
  snapshots : store.snapshots.insert? row = some opened.snapshots

variable {opened : Store Time Item Digest} {row : SnapshotRow Time Item Digest}

theorem Inserted.mem_iff (h : Inserted store opened row) {other : SnapshotRow Time Item Digest} :
    other ∈ opened.snapshots ↔ other ∈ store.snapshots ∨ other = row :=
  Table.mem_insert? h.snapshots

theorem Inserted.withinCaps (h : Inserted store opened row) (hwithin : WithinCaps store) :
    WithinCaps opened := by
  obtain ⟨⟨⟩, -, hcaps⟩ := bind_ok h.capacity
  rw [refuse_ok_iff] at hcaps
  push Not at hcaps
  obtain ⟨htenantCount, htenantBytes, hglobalCount, hglobalBytes⟩ := hcaps
  -- The new row has a share in the totals of its own tenant, and in the global ones.
  have htotal : ∀ test value, opened.snapshots.total test value =
      store.snapshots.total test value + Table.share test value row :=
    fun test value => Table.total_insert? h.snapshots
  refine ⟨fun tenantId => ?_, fun tenantId => ?_, ?_, ?_⟩
  · have hold := hwithin.tenant_count tenantId
    unfold Store.tenantCount Table.count at hold htenantCount ⊢
    rw [htotal]
    by_cases htenant : row.tenantId = tenantId
    · subst htenant
      rw [Table.share, if_pos (by simp)]
      exact htenantCount
    · rw [Table.share, if_neg (by simpa using htenant)]
      exact hold
  · have hold := hwithin.tenant_bytes tenantId
    unfold Store.tenantBytes at hold htenantBytes ⊢
    rw [htotal]
    by_cases htenant : row.tenantId = tenantId
    · subst htenant
      rw [Table.share, if_pos (by simp)]
      exact htenantBytes
    · rw [Table.share, if_neg (by simpa using htenant)]
      exact hold
  · unfold Store.globalCount Table.count at hglobalCount ⊢
    rw [htotal, Table.share, if_pos rfl]
    exact hglobalCount
  · unfold Store.globalBytes at hglobalBytes ⊢
    rw [htotal, Table.share, if_pos rfl]
    exact hglobalBytes

variable {snapshotEpoch : Option Int}

theorem Inserted.sound (h : Inserted store opened row) (hsound : Sound store) {items : List Item}
    (hpayload : row.payload.Holds items snapshotEpoch) : Sound opened where
  within := h.withinCaps hsound.within
  epochs := fun other hother => by
    have hsequence := h.sequence
    rcases h.mem_iff.mp hother with hold | rfl
    · have hbounds := hsound.epochs other hold
      omega
    · have hepoch := h.epoch
      omega
  sequence := by
    have hroom := h.room
    have hsequence := h.sequence
    omega
  payloads := fun other hother => by
    rcases h.mem_iff.mp hother with hold | rfl
    · exact hsound.payloads other hold
    · exact ⟨items, snapshotEpoch, hpayload⟩

theorem insert_ok {row : Nat → SnapshotRow Time Item Digest} (h : insert store row = .ok opened) :
    store.sequence < maxRowId ∧ opened.sequence = store.sequence + 1 ∧
      store.snapshots.insert? (row (store.sequence + 1)) = some opened.snapshots := by
  obtain ⟨⟨⟩, hroom, h⟩ := bind_ok h
  obtain ⟨snapshots, hinsert, h⟩ := bind_ok h
  cases pure_ok h
  rw [refuse_ok_iff, not_le] at hroom
  exact ⟨hroom, rfl, Table.insertOr_ok hinsert⟩

/-- The items of a load. -/
def Loaded.items : Loaded Item → List Item
  | .rows items => items
  | .frozen items _ => items
  | .malformed _ => []

/-- Encoding counts all items. -/
theorem encodeItems_length {rules : Rules Time Item Scope Digest} {items : List Item}
    {count bytes : Nat} {encoded : List Nat} (hcount : count ≤ maxRowsPerSnapshot)
    (h : encodeItems rules items count bytes = .ok encoded) :
    count + items.length ≤ maxRowsPerSnapshot := by
  induction items generalizing count bytes encoded with
  | nil => simpa using hcount
  | cons item rest ih =>
    obtain ⟨⟨⟩, hrows, h⟩ := bind_ok h
    rw [refuse_ok_iff] at hrows
    cases hjson : rules.jsonBytes item with
    | none => simp [hjson] at h
    | some width =>
      simp only [hjson] at h
      replace h := rest_ok h
      obtain ⟨others, hothers, -⟩ := bind_ok h
      have hrest := ih (by omega) hothers
      rw [List.length_cons]
      omega

variable {made : Materialized Item}

theorem materializeItems_ok {rules : Rules Time Item Scope Digest} {items : List Item}
    (hepoch : ∀ epoch ∈ snapshotEpoch, 0 ≤ epoch)
    (h : materializeItems rules items snapshotEpoch = .ok made) :
    made.items = items ∧ made.payload.Holds made.items made.snapshotEpoch := by
  obtain ⟨encoded, hencoded, h⟩ := bind_ok h
  cases pure_ok h
  have hrows := encodeItems_length (Nat.zero_le _) hencoded
  exact ⟨rfl, ⟨rfl, by simpa using hrows, hepoch⟩⟩

theorem materialize_ok {rules : Rules Time Item Scope Digest} {loaded : Loaded Item}
    (h : materialize rules loaded = .ok made) :
    made.items = loaded.items ∧ made.payload.Holds made.items made.snapshotEpoch := by
  cases loaded with
  | rows items => exact materializeItems_ok (by simp) h
  | frozen items snapshotEpoch =>
    obtain ⟨⟨⟩, hepoch, h⟩ := bind_ok h
    rw [refuse_ok_iff] at hepoch
    push Not at hepoch
    exact materializeItems_ok hepoch h
  | malformed message => cases h

def Request.digest (rules : Rules Time Item Scope Digest)
    (request : Request Time Item Scope Digest) : Digest :=
  rules.sha256 (request.query.rest, request.limit)

theorem scopeHash_ok {rules : Rules Time Item Scope Digest} {query : Query Scope} {limit : Int}
    {queryHash : Digest} (h : scopeHash rules query limit = .ok queryHash) :
    queryHash = rules.sha256 (query.rest, limit) := by
  replace h := rest_ok h
  exact (pure_ok h).symm

/-! ### Cursors -/

variable {view : View Time Item} {cursor : Cursor Time Digest}

section Cursors

variable {rules : Rules Time Item Scope Digest} {store : Store Time Item Digest}
  {request : Request Time Item Scope Digest} {queryHash : Digest}

structure SnapshotRow.IsFor (row : SnapshotRow Time Item Digest)
    (request : Request Time Item Scope Digest) (queryHash : Digest) : Prop where
  tenant : row.tenantId = request.tenantId
  endpoint : row.endpoint = request.endpoint
  query : row.queryHash = queryHash

def cursorAt (rules : Rules Time Item Scope Digest) (row : SnapshotRow Time Item Digest)
    (items : List Item) (offset : Nat) : Option (Cursor Time Digest) :=
  if offset < items.length then
    some (encode rules ⟨row.tenantId, row.endpoint, row.queryHash, row.expires, row.epoch, offset⟩)
  else none

theorem cut_nextCursor (hfor : row.IsFor request queryHash)
    (items : List Item) (snapshotEpoch : Option Int) (offset : Nat) :
    (cut rules request queryHash ⟨row.epoch, row.expires, items, snapshotEpoch, offset⟩).nextCursor =
      cursorAt rules row items (offset + request.limit.toNat) := by
  obtain ⟨htenant, hendpoint, hquery⟩ := hfor
  unfold cut cursorAt
  simp only [List.length_take, List.length_drop]
  rw [htenant, hendpoint, hquery]
  by_cases hmore : offset + request.limit.toNat < items.length
  · have hmin : min request.limit.toNat (items.length - offset) = request.limit.toNat := by omega
    rw [hmin, if_pos hmore]
  · rw [if_neg (by omega), if_neg hmore]

theorem cut_token (h : (cut rules request queryHash view).nextCursor = some cursor) :
    ∃ token, cursor.token = some token ∧ token.tenantId = request.tenantId ∧
      token.endpoint = request.endpoint ∧ token.queryHash = queryHash := by
  unfold cut at h
  simp only at h
  split_ifs at h
  cases h
  exact ⟨_, rfl, rfl, rfl, rfl⟩

theorem decimalBytes_le {n k : Nat} (hk : 1 ≤ k) (h : n < 10 ^ k) : decimalBytes n ≤ k := by
  have hlength := (Nat.digits_length_le_iff (by decide : 1 < 10) n).mpr h
  unfold decimalBytes
  omega

theorem epochBytes_le {n k : Nat} (hk : 1 ≤ k) (h : n < 10 ^ k) :
    epochBytes (some (n : Int)) ≤ k := by
  have hdigits := decimalBytes_le hk h
  calc
    epochBytes (some (n : Int)) = 0 + decimalBytes n := by
      simp only [epochBytes, Int.natAbs_natCast]
      rw [if_neg (by omega)]
    _ ≤ k := by omega

def ShortNames (request : Request Time Item Scope Digest) : Prop :=
  textBytes request.tenantId + textBytes request.endpoint ≤ 1200

theorem encode_length_le (htime : ∀ time, rules.timeBytes time ≤ 24)
    (hfor : row.IsFor request queryHash)
    (hnames : ShortNames request) (hepoch : row.epoch ≤ maxRowId) {offset : Nat}
    (hoffset : offset < maxRowsPerSnapshot) :
    (encode rules ⟨row.tenantId, row.endpoint, row.queryHash, row.expires, row.epoch,
      offset⟩).length ≤ 2048 := by
  have hafter : epochBytes (some (offset : Int)) ≤ 5 :=
    epochBytes_le (by decide) (by unfold maxRowsPerSnapshot at hoffset; omega)
  have hrow : epochBytes (some (row.epoch : Int)) ≤ 19 :=
    epochBytes_le (by decide) (by unfold maxRowId at hepoch; omega)
  have hexpires := htime row.expires
  unfold ShortNames at hnames
  rw [← hfor.tenant, ← hfor.endpoint] at hnames
  have hframe : "\x7b\"after\":,\"endpoint\":,\"epoch\":,\"expires\":,\"query_hash\":,\"tenant\":\x7d".length =
      66 := by decide
  unfold encode tokenBytes
  dsimp only
  omega

section Decode

variable [LinearOrder Time] [DecidableEq Digest]

theorem decode_ok_iff {token : Token Time Digest} :
    decode request queryHash cursor = .ok token ↔
      cursor.length ≤ 2048 ∧ cursor.token = some token ∧ TokenValid request queryHash token := by
  constructor
  · intro h
    obtain ⟨⟨⟩, hlength, h⟩ := bind_ok h
    rw [refuse_ok_iff, not_lt] at hlength
    cases htoken : cursor.token with
    | none => simp [htoken] at h
    | some found =>
      simp only [htoken] at h
      obtain ⟨⟨⟩, hvalid, h⟩ := bind_ok h
      cases pure_ok h
      rw [refuse_ok_iff, not_not] at hvalid
      exact ⟨hlength, rfl, hvalid⟩
  · rintro ⟨hlength, htoken, hvalid⟩
    refine bind_ok_iff.mpr ⟨(), refuse_ok_iff.mpr (not_lt.mpr hlength), ?_⟩
    simp only [htoken]
    exact bind_ok_iff.mpr ⟨(), refuse_ok_iff.mpr (not_not.mpr hvalid), rfl⟩

/-- A further page is cut from its snapshot. -/
theorem resume_of_mem (hsound : Sound store) (htime : ∀ time, rules.timeBytes time ≤ 24)
    {row : SnapshotRow Time Item Digest} (hrow : row ∈ store.snapshots)
    (hfor : row.IsFor request queryHash) (hnames : ShortNames request)
    (hlive : request.now < row.expires) {items : List Item} {snapshotEpoch : Option Int}
    (hholds : row.payload.Holds items snapshotEpoch) {offset : Nat}
    (hoffset : offset < items.length) :
    resume store request queryHash (encode rules
      ⟨row.tenantId, row.endpoint, row.queryHash, row.expires, row.epoch, offset⟩) =
        .ok ⟨row.epoch, row.expires, items, snapshotEpoch, offset⟩ := by
  obtain ⟨hstored, hrows, hepoch⟩ := hholds
  obtain ⟨hfirst, hlast⟩ := hsound.epochs row hrow
  have hlength := encode_length_le htime hfor hnames (hlast.trans hsound.sequence)
    (hoffset.trans_le hrows)
  have hvalid : TokenValid request queryHash
      ⟨row.tenantId, row.endpoint, row.queryHash, row.expires, row.epoch, offset⟩ :=
    ⟨hfor.tenant, hfor.endpoint, hfor.query, hlive, by simpa using hfirst, by simp⟩
  refine bind_ok_iff.mpr ⟨_, decode_ok_iff.mpr ⟨hlength, rfl, hvalid⟩, ?_⟩
  simp only [Int.toNat_natCast, Table.find_of_mem hrow, hstored, storedContents]
  refine bind_ok_iff.mpr ⟨(), refuse_ok_iff.mpr (not_not.mpr ⟨hfor.tenant, hfor.endpoint,
    hfor.query⟩), ?_⟩
  refine bind_ok_iff.mpr ⟨(), refuse_ok_iff.mpr (not_le.mpr hlive), ?_⟩
  refine bind_ok_iff.mpr ⟨(), refuse_ok_iff.mpr ?_, rfl⟩
  rintro (hmany | ⟨epoch, hmem, hnegative⟩)
  · omega
  · have hpositive := hepoch epoch hmem
    omega

end Decode

theorem mem_expire [LinearOrder Time]
    (hrow : row ∈ store.snapshots) {now : Time} (hlive : now < row.expires) : row ∈ (store.expire now).snapshots :=
  Table.mem_delete.mpr ⟨hrow, by simpa using hlive⟩

end Cursors

/-! ### Requests -/

variable {answer : Page Time Item Digest}

section Page

variable [LinearOrder Time] [DecidableEq Item] [DecidableEq Digest]
  {rules : Rules Time Item Scope Digest} {store opened : Store Time Item Digest}
  {request : Request Time Item Scope Digest} {queryHash : Digest}

theorem openSnapshot_ok (h : openSnapshot rules store request queryHash = .ok (opened, view)) :
    ∃ loaded snapshotEpoch row, request.loadItems = .ok loaded ∧
      view = ⟨row.epoch, row.expires, loaded.items, snapshotEpoch, 0⟩ ∧
      row ∈ opened.snapshots ∧ row.IsFor request queryHash ∧
      row.payload.Holds loaded.items snapshotEpoch ∧
      (opened = store ∨ Inserted store opened row) := by
  obtain ⟨loaded, hloaded, h⟩ := bind_ok h
  obtain ⟨made, hmade, h⟩ := bind_ok h
  have hload : request.loadItems = .ok loaded := by
    cases hcases : request.loadItems with
    | error message => simp [hcases, Except.mapError] at hloaded
    | ok value => simpa [hcases, Except.mapError] using hloaded
  obtain ⟨hitems, hholds⟩ := materialize_ok hmade
  rw [hitems] at hholds
  cases hexisting : existing store request queryHash made.payload with
  | some row =>
    simp only [hexisting] at h
    cases pure_ok h
    obtain ⟨hrow, hmatch⟩ := List.mem_filter.mp (List.mem_of_getLast? hexisting)
    simp only [decide_eq_true_eq] at hmatch
    obtain ⟨htenant, hendpoint, hquery, hpayload, -⟩ := hmatch
    exact ⟨loaded, made.snapshotEpoch, row, hload, by rw [hitems], hrow, ⟨htenant, hendpoint, hquery⟩,
      hpayload ▸ hholds, Or.inl rfl⟩
  | none =>
    simp only [hexisting] at h
    obtain ⟨⟨⟩, hcapacity, h⟩ := bind_ok h
    obtain ⟨inserted, hinsert, h⟩ := bind_ok h
    cases pure_ok h
    obtain ⟨hroom, hsequence, hsnapshots⟩ := insert_ok hinsert
    have hinserted : Inserted store opened _ := ⟨hcapacity, hroom, rfl, hsequence, hsnapshots⟩
    exact ⟨loaded, made.snapshotEpoch, _, hload, by rw [hsequence, hitems],
      hinserted.mem_iff.mpr (Or.inr rfl), ⟨rfl, rfl, rfl⟩, hholds, Or.inr hinserted⟩

/-- How a first page is answered. -/
structure FirstPage (rules : Rules Time Item Scope Digest) (store : Store Time Item Digest)
    (request : Request Time Item Scope Digest) (page : Page Time Item Digest)
    (opened : Store Time Item Digest) (row : SnapshotRow Time Item Digest)
    (snapshotEpoch : Option Int) (loaded : Loaded Item) : Prop where
  yielded : request.loadItems = .ok loaded
  page : page = cut rules request (request.digest rules)
    ⟨row.epoch, row.expires, loaded.items, snapshotEpoch, 0⟩
  row_mem : row ∈ opened.snapshots
  row_for : row.IsFor request (request.digest rules)
  payload : row.payload.Holds loaded.items snapshotEpoch
  store : opened = store.expire request.now ∨ Inserted (store.expire request.now) opened row

/-- What a request is checked for. -/
structure Accepted (rules : Rules Time Item Scope Digest)
    (request : Request Time Item Scope Digest) : Prop where
  valid : ¬(request.tenantId = "" ∨ request.endpoint = "" ∨ request.limit < 1 ∨ 100 < request.limit)
  scope : scopeHash rules request.query request.limit = .ok (request.digest rules)

theorem page_ok (h : page rules store request = .ok (answer, opened)) :
    Accepted rules request ∧ ((request.cursor = none ∧ ∃ row snapshotEpoch loaded,
      FirstPage rules store request answer opened row snapshotEpoch loaded) ∨
    (opened = store.expire request.now ∧ ∃ cursor view, request.cursor = some cursor ∧
      resume opened request (request.digest rules) cursor = .ok view ∧
      answer = cut rules request (request.digest rules) view)) := by
  obtain ⟨⟨⟩, hvalid, h⟩ := bind_ok h
  obtain ⟨queryHash, hhash, h⟩ := bind_ok h
  cases scopeHash_ok hhash
  refine ⟨⟨refuse_ok_iff.mp hvalid, hhash⟩, ?_⟩
  cases hcursor : request.cursor with
  | none =>
    left
    simp only [hcursor] at h
    obtain ⟨⟨made, view⟩, hopen, h⟩ := bind_ok h
    cases pure_ok h
    obtain ⟨loaded, snapshotEpoch, row, hloaded, rfl, hrow, hfor, hholds, hstore⟩ :=
      openSnapshot_ok hopen
    exact ⟨rfl, row, snapshotEpoch, loaded, hloaded, rfl, hrow, hfor, hholds, hstore⟩
  | some cursor =>
    right
    simp only [hcursor] at h
    obtain ⟨view, hresume, h⟩ := bind_ok h
    cases pure_ok h
    exact ⟨rfl, cursor, view, rfl, hresume, rfl⟩

/-- A page keeps the store sound. -/
theorem Sound.page (hsound : Sound store)
    (h : page rules store request = .ok (answer, opened)) : Sound opened := by
  have hexpire : Sound (store.expire request.now) := hsound.delete _
  rcases (page_ok h).2 with ⟨-, row, snapshotEpoch, loaded, hfirst⟩ | ⟨rfl, -⟩
  · rcases hfirst.store with rfl | hinserted
    · exact hexpire
    · exact hinserted.sound hexpire hfirst.payload
  · exact hexpire

theorem next_of_ok (h : page rules store request = .ok (answer, opened)) :
    next rules store (.request request) = opened := by
  simp only [next, h]

theorem next_of_error {error : CatalogError} (h : page rules store request = .error error) :
    next rules store (.request request) = store := by
  simp only [next, h]

/-- Every event keeps the store sound. -/
theorem Sound.next (hsound : Sound store) (event : Event Time Item Scope Digest) :
    Sound (next rules store event) := by
  cases event with
  | request request =>
    cases hpage : Catalog.page rules store request with
    | ok answered =>
      rw [next_of_ok hpage]
      exact hsound.page hpage
    | error error =>
      rw [next_of_error hpage]
      exact hsound
  | forget tenantId => exact hsound.delete _

theorem sound_after (events : List (Event Time Item Scope Digest)) :
    Sound (Machine.after (next rules) Store.initial events) :=
  Machine.after_invariant (fun _ event hsound => hsound.next event) Sound.initial events

def Spares (row : SnapshotRow Time Item Digest) : Event Time Item Scope Digest → Prop
  | .request request => request.now < row.expires
  | .forget tenantId => tenantId ≠ row.tenantId

theorem mem_page (hrow : row ∈ store.snapshots) (hlive : request.now < row.expires)
    (h : page rules store request = .ok (answer, opened)) : row ∈ opened.snapshots := by
  have hexpire := mem_expire hrow hlive
  rcases (page_ok h).2 with ⟨-, other, snapshotEpoch, loaded, hfirst⟩ | ⟨rfl, -⟩
  · rcases hfirst.store with rfl | hinserted
    · exact hexpire
    · exact hinserted.mem_iff.mpr (Or.inl hexpire)
  · exact hexpire

theorem mem_after (hrow : row ∈ store.snapshots)
    {events : List (Event Time Item Scope Digest)} (hspares : ∀ event ∈ events, Spares row event) :
    row ∈ (Machine.after (next rules) store events).snapshots := by
  induction events generalizing store with
  | nil => exact hrow
  | cons event events ih =>
    rw [List.forall_mem_cons] at hspares
    refine ih ?_ hspares.2
    cases event with
    | request request =>
      cases hpage : page rules store request with
      | error error =>
        rw [next_of_error hpage]
        exact hrow
      | ok answered =>
        rw [next_of_ok hpage]
        exact mem_page hrow hspares.1 hpage
    | forget tenantId =>
      have hother : row.tenantId ≠ tenantId := hspares.1.symm
      exact Table.mem_delete.mpr ⟨hrow, by simpa using hother⟩

def Alive (rules : Rules Time Item Scope Digest) (request : Request Time Item Scope Digest)
    (row : SnapshotRow Time Item Digest) :
    Store Time Item Digest → Option (Cursor Time Digest) → List (Turn Time Item Scope Digest) → Prop
  | _, none, _ => True
  | _, some _, [] => True
  | store, some cursor, turn :: turns =>
    row ∈ (Machine.after (next rules) store turn.events).snapshots ∧ turn.now < row.expires ∧
      ∀ answer answered, page rules (Machine.after (next rules) store turn.events)
        (request.following cursor turn.now) = .ok (answer, answered) →
          Alive rules request row answered answer.nextCursor turns

theorem alive_of_spares (hrow : row ∈ store.snapshots) {turns : List (Turn Time Item Scope Digest)}
    (hspares : ∀ turn ∈ turns, (∀ event ∈ turn.events, Spares row event) ∧ turn.now < row.expires)
    (cursor : Option (Cursor Time Digest)) : Alive rules request row store cursor turns := by
  induction turns generalizing store cursor with
  | nil => cases cursor <;> exact trivial
  | cons turn turns ih =>
    cases cursor with
    | none => trivial
    | some cursor =>
      rw [List.forall_mem_cons] at hspares
      obtain ⟨⟨hevents, hnow⟩, hrest⟩ := hspares
      have hmem : row ∈ (Machine.after (next rules) store turn.events).snapshots :=
        mem_after hrow hevents
      exact ⟨hmem, hnow, fun answer answered hpage => ih (mem_page hmem hnow hpage) hrest _⟩

theorem page_following (haccepted : Accepted rules request) (hsound : Sound store)
    (htime : ∀ time, rules.timeBytes time ≤ 24)
    (hrow : row ∈ store.snapshots) (hfor : row.IsFor request (request.digest rules))
    (hnames : ShortNames request) {now : Time} (hlive : now < row.expires) {items : List Item}
    (hholds : row.payload.Holds items snapshotEpoch) {offset : Nat}
    (hcursor : cursorAt rules row items offset = some cursor) :
    page rules store (request.following cursor now) =
      .ok (cut rules request (request.digest rules)
        ⟨row.epoch, row.expires, items, snapshotEpoch, offset⟩, store.expire now) := by
  unfold cursorAt at hcursor
  split_ifs at hcursor with hoffset
  cases hcursor
  have hexpired : Sound (store.expire now) := hsound.delete _
  have hresume := @resume_of_mem _ _ _ _ rules (store.expire now)
    (request.following (encode rules
      ⟨row.tenantId, row.endpoint, row.queryHash, row.expires, row.epoch, offset⟩) now)
    (request.digest rules) _ _ hexpired htime row (mem_expire hrow hlive)
    ⟨hfor.tenant, hfor.endpoint, hfor.query⟩ hnames hlive items snapshotEpoch hholds offset hoffset
  refine bind_ok_iff.mpr ⟨(), refuse_ok_iff.mpr haccepted.valid, ?_⟩
  refine bind_ok_iff.mpr ⟨_, haccepted.scope, ?_⟩
  exact bind_ok_iff.mpr ⟨_, hresume, rfl⟩

theorem follow_alive (haccepted : Accepted rules request) (hsound : Sound store)
    (htime : ∀ time, rules.timeBytes time ≤ 24)
    (hfor : row.IsFor request (request.digest rules)) (hnames : ShortNames request)
    {items : List Item} (hholds : row.payload.Holds items snapshotEpoch) (offset : Nat)
    (turns : List (Turn Time Item Scope Digest))
    (halive : Alive rules request row store (cursorAt rules row items offset) turns) :
    follow rules request store (cursorAt rules row items offset) turns =
      .ok ((items.drop offset).take (turns.length * request.limit.toNat),
        cursorAt rules row items (offset + turns.length * request.limit.toNat)) := by
  induction turns generalizing store offset with
  | nil =>
    cases hcursor : cursorAt rules row items offset with
    | none | some cursor => simp [follow, hcursor]
  | cons turn turns ih =>
    cases hcursor : cursorAt rules row items offset with
    | none =>
      -- Nothing is left, and the client stops.
      have hend : items.length ≤ offset := by
        unfold cursorAt at hcursor
        split_ifs at hcursor with hoffset
        exact not_lt.mp hoffset
      have hafter : cursorAt rules row items
          (offset + (turn :: turns).length * request.limit.toNat) = none :=
        if_neg (by omega)
      rw [hafter, List.drop_of_length_le hend, List.take_nil]
      rfl
    | some cursor =>
      rw [hcursor] at halive
      obtain ⟨hrow, hnow, hrest⟩ := halive
      have hturn : Sound (Machine.after (next rules) store turn.events) :=
        Machine.after_invariant (fun _ event h => h.next event) hsound turn.events
      have hpage := page_following haccepted hturn htime hrow hfor hnames hnow hholds hcursor
      have hnext := hrest _ _ hpage
      rw [cut_nextCursor hfor] at hnext
      refine bind_ok_iff.mpr ⟨_, hpage, ?_⟩
      have hfollow := ih (hturn.delete _) (offset + request.limit.toNat) hnext
      simp only [cut_nextCursor hfor]
      refine bind_ok_iff.mpr ⟨_, hfollow, pure_ok_iff.mpr (Prod.ext ?_ ?_)⟩
      · show (items.drop offset).take request.limit.toNat ++ _ = _
        rw [List.length_cons, Nat.succ_mul, Nat.add_comm (turns.length * _), List.take_add,
          List.drop_drop]
      · show cursorAt rules row items _ = cursorAt rules row items _
        rw [List.length_cons, Nat.succ_mul]
        congr 1
        omega

/-! ### Lossless and bound -/

def Lossless (rules : Rules Time Item Scope Digest) (request : Request Time Item Scope Digest)
    (items : List Item) (answer : Page Time Item Digest) (opened : Store Time Item Digest) : Prop :=
  ∃ row ∈ opened.snapshots, row.IsFor request (request.digest rules) ∧
    ∀ turns, Alive rules request row opened answer.nextCursor turns →
      ∃ rest cursor, follow rules request opened answer.nextCursor turns = .ok (rest, cursor) ∧
        answer.items ++ rest = items.take ((turns.length + 1) * request.limit.toNat) ∧
        (cursor = none ↔ items.length ≤ (turns.length + 1) * request.limit.toNat)

theorem page_lossless (hsound : Sound store) (htime : ∀ time, rules.timeBytes time ≤ 24)
    (hnames : ShortNames request) (hfirst : request.cursor = none)
    (h : page rules store request = .ok (answer, opened)) :
    ∃ loaded, request.loadItems = .ok loaded ∧
      Lossless rules request loaded.items answer opened := by
  obtain ⟨haccepted, ⟨-, row, snapshotEpoch, loaded, hpage⟩ | ⟨-, cursor, view, hcursor, -⟩⟩ :=
    page_ok h
  · refine ⟨loaded, hpage.yielded, row, hpage.row_mem, hpage.row_for, fun turns halive => ?_⟩
    rw [hpage.page, cut_nextCursor hpage.row_for, Nat.zero_add] at halive ⊢
    have hfollow := follow_alive haccepted (hsound.page h) htime hpage.row_for hnames hpage.payload
      request.limit.toNat turns halive
    have hcount : request.limit.toNat + turns.length * request.limit.toNat =
        (turns.length + 1) * request.limit.toNat := by
      rw [Nat.succ_mul, Nat.add_comm]
    rw [hcount] at hfollow
    refine ⟨_, _, hfollow, ?_, ?_⟩
    · show (loaded.items.drop 0).take request.limit.toNat ++ _ = _
      rw [List.drop_zero, ← List.take_add, hcount]
    · unfold cursorAt
      split_ifs with hmore
      · simp [hmore]
      · simp [not_lt.mp hmore]
  · rw [hfirst] at hcursor
    cases hcursor

theorem page_token (h : page rules store request = .ok (answer, opened))
    (hcursor : answer.nextCursor = some cursor) :
    ∃ token, cursor.token = some token ∧ token.tenantId = request.tenantId ∧
      token.endpoint = request.endpoint ∧ token.queryHash = request.digest rules := by
  rcases (page_ok h).2 with ⟨-, row, snapshotEpoch, loaded, hfirst⟩ | ⟨-, sent, view, -, -, rfl⟩
  · rw [hfirst.page] at hcursor
    exact cut_token hcursor
  · exact cut_token hcursor

theorem page_valid (h : page rules store request = .ok (answer, opened))
    (hcursor : request.cursor = some cursor) :
    ∃ token, cursor.token = some token ∧ TokenValid request (request.digest rules) token := by
  rcases (page_ok h).2 with ⟨hnone, -⟩ | ⟨-, sent, view, hsent, hresume, -⟩
  · rw [hcursor] at hnone
    cases hnone
  · obtain rfl : cursor = sent := Option.some.inj (hcursor.symm.trans hsent)
    obtain ⟨token, hdecode, -⟩ := bind_ok hresume
    exact ⟨token, (decode_ok_iff.mp hdecode).2⟩

def Foreign (rules : Rules Time Item Scope Digest) (request : Request Time Item Scope Digest)
    (cursor : Cursor Time Digest) : Prop :=
  cursor.token = none ∨ (∃ token ∈ cursor.token, token.expires ≤ request.now) ∨
    ∃ earlier issuer, ∃ answer : Page Time Item Digest, ∃ answered,
      page rules earlier issuer = .ok (answer, answered) ∧ answer.nextCursor = some cursor ∧
      (issuer.tenantId ≠ request.tenantId ∨ issuer.endpoint ≠ request.endpoint ∨
        (issuer.query.rest, issuer.limit) ≠ (request.query.rest, request.limit))

theorem page_of_foreign (hhash : Function.Injective rules.sha256)
    (hcursor : request.cursor = some cursor) (hforeign : Foreign rules request cursor) :
    ∃ error, page rules store request = .error error := by
  cases hpage : page rules store request with
  | error error => exact ⟨error, rfl⟩
  | ok answered =>
    exfalso
    obtain ⟨token, htoken, hvalid⟩ := page_valid hpage hcursor
    obtain ⟨htenant, hendpoint, hquery, hlive, -⟩ := hvalid
    rcases hforeign with hunsigned | ⟨expired, hmem, hexpired⟩ |
      ⟨earlier, issuer, answer, answered, hissued, hnext, hother⟩
    · rw [hunsigned] at htoken
      cases htoken
    · obtain rfl : expired = token := Option.some.inj (hmem.symm.trans htoken)
      exact absurd hlive (not_lt.mpr hexpired)
    · obtain ⟨given, hgiven, htenant', hendpoint', hquery'⟩ := page_token hissued hnext
      obtain rfl : given = token := Option.some.inj (hgiven.symm.trans htoken)
      rcases hother with hdiffer | hdiffer | hdiffer
      · exact hdiffer (htenant'.symm.trans htenant)
      · exact hdiffer (hendpoint'.symm.trans hendpoint)
      · exact hdiffer (hhash (hquery'.symm.trans hquery))

/-- **Catalog paging.**  In every reachable store the snapshots stay within the caps, the first
page of a client opens a lossless walk through what its loader yielded, and a cursor that does
not belong to the request is refused. -/
theorem catalog_paging (htime : ∀ time, rules.timeBytes time ≤ 24)
    (hhash : Function.Injective rules.sha256) (events : List (Event Time Item Scope Digest)) :
    WithinCaps (Machine.after (next rules) Store.initial events) ∧
      (∀ request answer opened, request.cursor = none → ShortNames request →
        page rules (Machine.after (next rules) Store.initial events) request =
          .ok (answer, opened) →
        ∃ loaded, request.loadItems = .ok loaded ∧
          Lossless rules request loaded.items answer opened) ∧
      ∀ request cursor, request.cursor = some cursor → Foreign rules request cursor →
        ∃ error, page rules (Machine.after (next rules) Store.initial events) request =
          .error error := by
  have hsound : Sound (Machine.after (next rules) Store.initial events) := sound_after events
  exact ⟨hsound.within,
    fun request answer opened hfirst hnames hpage =>
      page_lossless hsound htime hnames hfirst hpage,
    fun request cursor hcursor hforeign => page_of_foreign hhash hcursor hforeign⟩

end Page

namespace Sample

def rules : Rules Nat Nat Unit Int where
  deadline := fun now => now + 900
  timeBytes := fun _ => 12
  jsonBytes := fun _ => some 2
  sha256 := Prod.snd

def request (tenantId : String) (now : Nat) (items : List Nat) : Request Nat Nat Unit Int where
  tenantId := tenantId
  endpoint := "runs"
  query := ⟨none, ()⟩
  cursor := none
  limit := 2
  now := now
  loadItems := .ok (.rows items)

def turn : Turn Nat Nat Unit Int :=
  ⟨[.request (request "other" 150 [40]), .request (request "tenant" 160 [10, 20, 30, 50])], 200⟩

end Sample

theorem catalog_paging_two_pages : ∃ answer opened rest,
    page Sample.rules Store.initial (Sample.request "tenant" 100 [10, 20, 30]) =
        .ok (answer, opened) ∧
      follow Sample.rules (Sample.request "tenant" 100 [10, 20, 30]) opened answer.nextCursor
        [Sample.turn] = .ok (rest, none) ∧
      answer.items ++ rest = [10, 20, 30] := by
  have hrun : Returns (page Sample.rules Store.initial (Sample.request "tenant" 100 [10, 20, 30]))
      fun answered => ∀ row ∈ answered.2.snapshots, row.tenantId = "tenant" ∧ row.expires = 1000 := by
    decide +kernel
  obtain ⟨⟨answer, opened⟩, hpage, hrows⟩ := hrun
  have hhash : Function.Injective Sample.rules.sha256 := by
    rintro ⟨⟨⟩, first⟩ ⟨⟨⟩, second⟩ h
    exact Prod.ext rfl h
  have htime : ∀ time, Sample.rules.timeBytes time ≤ 24 := by
    intro time
    show (12 : Nat) ≤ 24
    omega
  have hnames : ShortNames (Sample.request "tenant" 100 [10, 20, 30]) := by
    unfold ShortNames
    decide
  obtain ⟨loaded, hloaded, row, hrow, -, hwalk⟩ :=
    (catalog_paging htime hhash []).2.1 _ answer opened rfl hnames hpage
  obtain rfl : Loaded.rows [10, 20, 30] = loaded := Except.ok.inj hloaded
  obtain ⟨htenant, hexpires⟩ := hrows row hrow
  have halive : Alive Sample.rules (Sample.request "tenant" 100 [10, 20, 30]) row opened
      answer.nextCursor [Sample.turn] := by
    refine alive_of_spares hrow (fun turn hturn => ?_) _
    obtain rfl := List.mem_singleton.mp hturn
    refine ⟨fun event hevent => ?_, by rw [hexpires]; decide⟩
    rcases List.mem_pair.mp hevent with rfl | rfl
    · show (150 : Nat) < row.expires
      omega
    · show (160 : Nat) < row.expires
      omega
  obtain ⟨rest, cursor, hfollow, hitems, hend⟩ := hwalk _ halive
  have hnone : cursor = none := hend.mpr (by decide)
  exact ⟨answer, opened, rest, hpage, hnone ▸ hfollow, hitems⟩

end ProofOps.Adapters.Local.Catalog
