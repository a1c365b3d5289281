import Mathlib.Data.Nat.Digits.Defs
import ProofOps.Foundation.Checked
import ProofOps.Foundation.Machine
import ProofOps.Foundation.Totals

/-!
# Catalog pages

`catalog_pages.page`: the first request of a client freezes what its loader yields as a
snapshot row, and every cursor names that row and an offset into it.  A request is one
transaction, which a refusal rolls back.

A payload text is kept as the value it decodes to and its number of bytes, and a cursor as the
token its signature vouches for, if it does, and its number of characters.
-/

namespace ProofOps.Adapters.Local.Catalog

open Foundation Foundation.Checked

def maxRowsPerSnapshot : Nat := 10000

def maxSnapshotBytes : Nat := 8 * 1024 * 1024

def maxTenantSnapshotCount : Nat := 32

def maxTenantSnapshotBytes : Nat := 32 * 1024 * 1024

def maxGlobalSnapshotCount : Nat := 256

def maxGlobalSnapshotBytes : Nat := 128 * 1024 * 1024

def maxRowId : Nat := 2 ^ 63 - 1

/-- What a page is refused with. -/
inductive CatalogError where
  | valueError (message : String)
  | invalidCursor
  | capacityExceeded (message : String)
  | loader (message : String)
  | databaseFull

def decimalBytes (n : Nat) : Nat :=
  max 1 (Nat.digits 10 n).length

def epochBytes : Option Int → Nat
  | none => 4
  | some epoch => (if epoch < 0 then 1 else 0) + decimalBytes epoch.natAbs

def charBytes (c : Char) : Nat :=
  if c = '"' ∨ c = '\\' ∨ c = '\n' ∨ c = '\r' ∨ c = '\t' ∨ c.toNat = 8 ∨ c.toNat = 12 then 2
  else if 32 ≤ c.toNat ∧ c.toNat < 127 then 1
  else if c.toNat < 65536 then 6
  else 12

/-- `len(_json(text))`. -/
def textBytes (text : String) : Nat :=
  2 + (text.toList.map charBytes).sum

/-! ### Records -/

inductive Stored (Item : Type) where
  | items (items : List Item)
  | withEpoch (items : List Item) (epoch : Option Int)
  | withSnapshotEpoch (items : List Item) (snapshotEpoch : Option Int)
  | other
  deriving DecidableEq

structure Payload (Item : Type) where
  stored : Stored Item
  bytes : Nat
  deriving DecidableEq

/-- A row of `catalog_list_snapshots`. -/
structure SnapshotRow (Time Item Digest : Type) where
  epoch : Nat
  (tenantId endpoint : String)
  queryHash : Digest
  expires : Time
  payload : Payload Item

structure Store (Time Item Digest : Type) where
  snapshots : Table (SnapshotRow Time Item Digest) SnapshotRow.epoch
  sequence : Nat

/-- `_key`. -/
structure Token (Time Digest : Type) where
  (tenantId endpoint : String)
  queryHash : Digest
  expires : Time
  (epoch after : Int)

structure Cursor (Time Digest : Type) where
  token : Option (Token Time Digest)
  length : Nat

/-- What `load_items` returns. -/
inductive Loaded (Item : Type) where
  | rows (items : List Item)
  | frozen (items : List Item) (snapshotEpoch : Option Int)
  | malformed (message : String)

/-- What is asked for. -/
structure Query (Scope : Type) where
  limit : Option Int
  rest : Scope

structure Request (Time Item Scope Digest : Type) where
  (tenantId endpoint : String)
  query : Query Scope
  cursor : Option (Cursor Time Digest)
  limit : Int
  now : Time
  loadItems : Except String (Loaded Item)

/-- A page. -/
structure Page (Time Item Digest : Type) where
  items : List Item
  nextCursor : Option (Cursor Time Digest)
  snapshotEpoch : Int

/-- `_json`. -/
structure Rules (Time Item Scope Digest : Type) where
  deadline : Time → Time
  timeBytes : Time → Nat
  jsonBytes : Item → Option Nat
  sha256 : Scope × Int → Digest

variable {Time Item Scope Digest : Type}

variable (rules : Rules Time Item Scope Digest)

def tokenBytes (token : Token Time Digest) : Nat :=
  "\x7b\"after\":,\"endpoint\":,\"epoch\":,\"expires\":,\"query_hash\":,\"tenant\":\x7d".length +
    epochBytes (some token.after) + textBytes token.endpoint + epochBytes (some token.epoch) +
    rules.timeBytes token.expires + 66 + textBytes token.tenantId

/-- `_encode`. -/
def encode (token : Token Time Digest) : Cursor Time Digest where
  token := some token
  length := 4 * ((tokenBytes rules token + 32 + 2) / 3)

section Decode

variable [LinearOrder Time] [DecidableEq Digest] (request : Request Time Item Scope Digest)

def TokenValid (queryHash : Digest) (token : Token Time Digest) : Prop :=
  token.tenantId = request.tenantId ∧ token.endpoint = request.endpoint ∧
    token.queryHash = queryHash ∧ request.now < token.expires ∧ 1 ≤ token.epoch ∧ 0 ≤ token.after

instance (request : Request Time Item Scope Digest) (queryHash : Digest)
    (token : Token Time Digest) : Decidable (TokenValid request queryHash token) :=
  inferInstanceAs (Decidable (_ ∧ _ ∧ _ ∧ _ ∧ _ ∧ _))

/-- `_decode`. -/
def decode (queryHash : Digest)
    (cursor : Cursor Time Digest) : Except CatalogError (Token Time Digest) := do
  refuse (2048 < cursor.length) .invalidCursor
  match cursor.token with
  | none => .error .invalidCursor
  | some token => do
    refuse (¬TokenValid request queryHash token) .invalidCursor
    return token

end Decode

/-! ### Snapshots -/

def frameBytes (snapshotEpoch : Option Int) : Nat :=
  "\x7b\"items\":[".length + "],\"snapshot_epoch\":\x7d".length + epochBytes snapshotEpoch

def joinedBytes (encoded : List Nat) : Nat :=
  encoded.sum + (encoded.length - 1)

def encodeItems (rules : Rules Time Item Scope Digest) :
    List Item → Nat → Nat → Except CatalogError (List Nat)
  | [], _, _ => .ok []
  | item :: rest, count, bytes => do
    refuse (count = maxRowsPerSnapshot)
      (.capacityExceeded "catalog snapshot row capacity exceeded")
    match rules.jsonBytes item with
    | none => .error (.valueError "item")
    | some encoded => do
      let total := bytes + encoded + if count = 0 then 0 else 1
      refuse (maxSnapshotBytes < total)
        (.capacityExceeded "catalog snapshot byte capacity exceeded")
      let others ← encodeItems rules rest (count + 1) total
      return encoded :: others

structure Materialized (Item : Type) where
  items : List Item
  snapshotEpoch : Option Int
  payload : Payload Item

def materializeItems (items : List Item) (snapshotEpoch : Option Int) :
    Except CatalogError (Materialized Item) := do
  let encoded ← encodeItems rules items 0 (frameBytes snapshotEpoch)
  return {
    items, snapshotEpoch
    payload := ⟨.withSnapshotEpoch items snapshotEpoch,
      frameBytes snapshotEpoch + joinedBytes encoded⟩ }

/-- `_materialize`. -/
def materialize :
    Loaded Item → Except CatalogError (Materialized Item)
  | .malformed message => .error (.valueError message)
  | .rows items => materializeItems rules items none
  | .frozen items snapshotEpoch => do
    refuse (∃ epoch ∈ snapshotEpoch, epoch < 0) (.valueError "snapshot epoch invalid")
    materializeItems rules items snapshotEpoch

namespace Store

/-- `initialize`. -/
def initial : Store Time Item Digest where
  snapshots := Table.empty
  sequence := 0

variable (store : Store Time Item Digest)

def tenantCount (tenantId : String) : Nat :=
  store.snapshots.count fun row => row.tenantId = tenantId

def tenantBytes (tenantId : String) : Nat :=
  store.snapshots.total (fun row => row.tenantId = tenantId) fun row => row.payload.bytes

/-- All snapshots. -/
def globalCount : Nat :=
  store.snapshots.count fun _ => true

/-- All stored bytes. -/
def globalBytes : Nat :=
  store.snapshots.total (fun _ => true) fun row => row.payload.bytes

def delete (test : SnapshotRow Time Item Digest → Bool) : Store Time Item Digest :=
  { store with snapshots := store.snapshots.delete test }

def expire [LinearOrder Time] (store : Store Time Item Digest) (now : Time) :
    Store Time Item Digest :=
  store.delete fun row => row.expires ≤ now

def forget (store : Store Time Item Digest) (tenantId : String) : Store Time Item Digest :=
  store.delete fun row => row.tenantId = tenantId

end Store

/-- `_check_capacity`. -/
def checkCapacity (store : Store Time Item Digest) (tenantId : String) (payloadBytes : Nat) :
    Except CatalogError Unit := do
  refuse (maxSnapshotBytes < payloadBytes)
    (.capacityExceeded "catalog snapshot byte capacity exceeded")
  refuse (maxTenantSnapshotCount < store.tenantCount tenantId + 1 ∨
      maxTenantSnapshotBytes < store.tenantBytes tenantId + payloadBytes ∨
      maxGlobalSnapshotCount < store.globalCount + 1 ∨
      maxGlobalSnapshotBytes < store.globalBytes + payloadBytes)
    (.capacityExceeded "catalog snapshot storage capacity exceeded")

def insert (store : Store Time Item Digest) (row : Nat → SnapshotRow Time Item Digest) :
    Except CatalogError (Store Time Item Digest) := do
  refuse (maxRowId ≤ store.sequence) .databaseFull
  let snapshots ← store.snapshots.insertOr .databaseFull (row (store.sequence + 1))
  return { snapshots, sequence := store.sequence + 1 }

/-! ### A request -/

/-- What a page is cut from. -/
structure View (Time Item : Type) where
  epoch : Nat
  expires : Time
  items : List Item
  snapshotEpoch : Option Int
  offset : Nat

section Page

variable [LinearOrder Time] [DecidableEq Item] [DecidableEq Digest]

/-- `_scope_hash`. -/
def scopeHash (query : Query Scope) (limit : Int) :
    Except CatalogError Digest := do
  refuse (∃ own ∈ query.limit, own ≠ limit) (.valueError "query limit mismatch")
  return rules.sha256 (query.rest, limit)

variable (store : Store Time Item Digest) (request : Request Time Item Scope Digest)

def existing (queryHash : Digest)
    (payload : Payload Item) : Option (SnapshotRow Time Item Digest) :=
  (store.snapshots.rows.filter fun row =>
    row.tenantId = request.tenantId ∧ row.endpoint = request.endpoint ∧
      row.queryHash = queryHash ∧ row.payload = payload ∧ request.now < row.expires).getLast?

def openSnapshot (rules : Rules Time Item Scope Digest) (store : Store Time Item Digest)
    (request : Request Time Item Scope Digest) (queryHash : Digest) :
    Except CatalogError (Store Time Item Digest × View Time Item) := do
  let loaded ← request.loadItems.mapError .loader
  let made ← materialize rules loaded
  match existing store request queryHash made.payload with
  | some row => return (store, ⟨row.epoch, row.expires, made.items, made.snapshotEpoch, 0⟩)
  | none => do
    checkCapacity store request.tenantId made.payload.bytes
    let expires := rules.deadline request.now
    let inserted ← insert store fun epoch =>
      { epoch, tenantId := request.tenantId, endpoint := request.endpoint, queryHash, expires
        payload := made.payload }
    return (inserted, ⟨inserted.sequence, expires, made.items, made.snapshotEpoch, 0⟩)

def storedContents : Stored Item → Option (List Item × Option Int)
  | .items items => some (items, none)
  | .withEpoch items epoch => some (items, epoch)
  | .withSnapshotEpoch items snapshotEpoch => some (items, snapshotEpoch)
  | .other => none

/-- A further page. -/
def resume (queryHash : Digest)
    (cursor : Cursor Time Digest) : Except CatalogError (View Time Item) := do
  let token ← decode request queryHash cursor
  match store.snapshots.find token.epoch.toNat with
  | none => .error .invalidCursor
  | some row => do
    refuse (¬(row.tenantId = request.tenantId ∧ row.endpoint = request.endpoint ∧
      row.queryHash = queryHash)) .invalidCursor
    refuse (row.expires ≤ request.now) .invalidCursor
    match storedContents row.payload.stored with
    | none => .error .invalidCursor
    | some (items, snapshotEpoch) => do
      refuse (maxRowsPerSnapshot < items.length ∨ ∃ epoch ∈ snapshotEpoch, epoch < 0)
        .invalidCursor
      return ⟨row.epoch, row.expires, items, snapshotEpoch, token.after.toNat⟩

def cut (queryHash : Digest) (view : View Time Item) : Page Time Item Digest :=
  let selected := (view.items.drop view.offset).take request.limit.toNat
  let after := view.offset + selected.length
  { items := selected
    nextCursor :=
      if after < view.items.length then
        some (encode rules
          { tenantId := request.tenantId, endpoint := request.endpoint, queryHash
            expires := view.expires, epoch := view.epoch, after })
      else none
    snapshotEpoch := view.snapshotEpoch.getD view.epoch }

/-- `page`. -/
def page (rules : Rules Time Item Scope Digest) (store : Store Time Item Digest)
    (request : Request Time Item Scope Digest) :
    Except CatalogError (Page Time Item Digest × Store Time Item Digest) := do
  refuse (request.tenantId = "" ∨ request.endpoint = "" ∨ request.limit < 1 ∨ 100 < request.limit)
    (.valueError "invalid catalog page request")
  let queryHash ← scopeHash rules request.query request.limit
  let live := store.expire request.now
  match request.cursor with
  | none => do
    let (opened, view) ← openSnapshot rules live request queryHash
    return (cut rules request queryHash view, opened)
  | some cursor => do
    let view ← resume live request queryHash cursor
    return (cut rules request queryHash view, live)

inductive Event (Time Item Scope Digest : Type) where
  | request (request : Request Time Item Scope Digest)
  | forget (tenantId : String)

def next (rules : Rules Time Item Scope Digest) (store : Store Time Item Digest) :
    Event Time Item Scope Digest → Store Time Item Digest
  | .request request =>
    match page rules store request with
    | .ok (_, store) => store
    | .error _ => store
  | .forget tenantId => store.forget tenantId

structure Turn (Time Item Scope Digest : Type) where
  events : List (Event Time Item Scope Digest)
  now : Time

def Request.following (cursor : Cursor Time Digest) (now : Time) : Request Time Item Scope Digest :=
  { request with cursor := some cursor, now }

def follow (rules : Rules Time Item Scope Digest) (request : Request Time Item Scope Digest) :
    Store Time Item Digest → Option (Cursor Time Digest) → List (Turn Time Item Scope Digest) →
      Except CatalogError (List Item × Option (Cursor Time Digest))
  | _, none, _ => .ok ([], none)
  | _, some cursor, [] => .ok ([], some cursor)
  | store, some cursor, turn :: turns => do
    let (page, answered) ← page rules (Machine.after (next rules) store turn.events)
      (request.following cursor turn.now)
    let (items, rest) ← follow rules request answered page.nextCursor turns
    return (page.items ++ items, rest)

end Page

end ProofOps.Adapters.Local.Catalog
