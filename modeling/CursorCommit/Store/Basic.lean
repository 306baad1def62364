/-
  The coordination store: records under keys, with versions and revisions.

  Every write bumps the revision of the whole store and stamps the record
  with it; the version of a record counts the writes to its key since it was
  created.  A deletion that removes something bumps the revision too.

  * `get`, `list`, `put`, `delete`, `deletePrefix` and `compareAndSet` fail,
    and change nothing, while the store is unavailable;
  * `compareAndSet` writes iff the key is at the expected version, `0` for
    an absent key, and each guard's key is at the guard's revision;
  * `StoreOp` has the operations that change a store as data, and
    `Store.after` runs one of them.
-/
import CursorCommit.Store.Error
import CursorCommit.Store.Table

namespace CursorCommit

/-- A stored value.  Its version and its revision are 64-bit numbers in a
    deployed store.  They have no bound of their own here, but neither exceeds
    the revision of the store (`Store.Sound`). -/
structure Record where
  bytes : List UInt8
  /-- The number of writes to the key since it was created. -/
  version : Nat
  /-- The revision of the store at the last write to the key. -/
  revision : Nat
deriving DecidableEq, Repr

/-- The value of a record as text. -/
def Record.text (record : Record) : Except StoreFault String :=
  (Utf8.decode record.bytes).mapError .notUtf8

/-- A condition on another key: it must still be at this revision, `0` if it
    must be absent. -/
structure Guard where
  key : String
  revision : Int
deriving DecidableEq, Repr

/-- A coordination store.  Its revision too is a 64-bit number where it is
    deployed.  It is at most the number of operations that led to the store
    (`Store.revision_afterAll_le`), so no run of fewer than `2 ^ 63` of them
    tells the difference. -/
structure Store where
  revision : Nat
  records : Table Record
  available : Bool
deriving DecidableEq

namespace Store

/-- The store at its creation. -/
def empty : Store := ⟨0, .empty, true⟩

instance : Inhabited Store := ⟨empty⟩

/-- The record at a key, available or not. -/
def record? (s : Store) (key : String) : Option Record :=
  s.records.find? key

/-- The version at a key, `0` if it is absent. -/
def versionAt (s : Store) (key : String) : Nat :=
  ((s.record? key).map Record.version).getD 0

/-- The revision at a key, `0` if it is absent. -/
def revisionAt (s : Store) (key : String) : Nat :=
  ((s.record? key).map Record.revision).getD 0

/-- Whether the guarded key is still at the guard's revision. -/
def holds (s : Store) (guard : Guard) : Bool :=
  (s.revisionAt guard.key : Int) == guard.revision

/-- The store with new bytes at a key. -/
def write (s : Store) (key : String) (bytes : List UInt8) : Store :=
  { s with
    revision := s.revision + 1
    records := s.records.insert key ⟨bytes, s.versionAt key + 1, s.revision + 1⟩ }

/-- The store without the records whose keys do not satisfy `keep`. -/
def retain (s : Store) (keep : String → Bool) : Store :=
  let kept := s.records.filter keep
  { s with
    revision := if kept.entries.length = s.records.entries.length then s.revision else s.revision + 1
    records := kept }

/-- Does `answer`, unless the store is out of reach. -/
def whenAvailable {α : Type} (s : Store) (answer : α) : Except StoreError α :=
  if s.available then .ok answer else .error .outOfReach

/-- The record at a key. -/
def get (s : Store) (key : String) : Except StoreError (Option Record) :=
  s.whenAvailable (s.record? key)

/-- The records whose keys start with `start`, in key order. -/
def list (s : Store) (start : String) : Except StoreError (List (String × Record)) :=
  s.whenAvailable (s.records.scan start)

/-- Writes a record. -/
def put (s : Store) (key : String) (bytes : List UInt8) : Except StoreError Store :=
  s.whenAvailable (s.write key bytes)

/-- Removes the record at a key, if there is one. -/
def delete (s : Store) (key : String) : Except StoreError Store :=
  s.whenAvailable (s.retain (· != key))

/-- Removes the records whose keys start with `start`. -/
def deletePrefix (s : Store) (start : String) : Except StoreError Store :=
  s.whenAvailable (s.retain fun key => !Text.startsWith start key)

/-- Whether a compare-and-set would write. -/
def admits (s : Store) (key : String) (version : Int) (guards : List Guard) : Bool :=
  (s.versionAt key : Int) == version && guards.all s.holds

/-- Writes a record iff the key is at `version` and all guards hold. -/
def compareAndSet (s : Store) (key : String) (version : Int) (bytes : List UInt8)
    (guards : List Guard) : Except StoreError (Bool × Store) :=
  s.whenAvailable <|
    if s.admits key version guards then (true, s.write key bytes) else (false, s)

/-- Puts the store out of reach, or back. -/
def setAvailable (s : Store) (available : Bool) : Store :=
  { s with available }

/-- The value at a key as text, whatever its bytes and the availability. -/
def peek (s : Store) (key : String) : Option String :=
  (s.record? key).map fun record => Utf8.decodeLossy record.bytes

end Store

/-- An operation that may change a store. -/
inductive StoreOp where
  | put (key : String) (bytes : List UInt8)
  | delete (key : String)
  | deletePrefix (start : String)
  | compareAndSet (key : String) (version : Int) (bytes : List UInt8) (guards : List Guard)
  | setAvailable (available : Bool)
deriving DecidableEq, Repr

namespace Store

/-- The store after an operation; one that fails leaves it as it was. -/
def after (s : Store) : StoreOp → Store
  | .put key bytes => ((s.put key bytes).toOption).getD s
  | .delete key => ((s.delete key).toOption).getD s
  | .deletePrefix start => ((s.deletePrefix start).toOption).getD s
  | .compareAndSet key version bytes guards =>
    ((s.compareAndSet key version bytes guards).toOption.map Prod.snd).getD s
  | .setAvailable available => s.setAvailable available

/-- The store after operations, one after the other. -/
def afterAll (s : Store) (ops : List StoreOp) : Store :=
  ops.foldl after s

/-- A store that operations lead to from an empty one. -/
def Reachable (s : Store) : Prop :=
  ∃ ops, s = empty.afterAll ops

/-! ## What the operations do to the records -/

theorem record?_write (s : Store) (key k : String) (bytes : List UInt8) :
    (s.write key bytes).record? k =
      if k = key then some ⟨bytes, s.versionAt key + 1, s.revision + 1⟩ else s.record? k :=
  s.records.find?_insert key k _

theorem record?_retain (s : Store) (keep : String → Bool) (k : String) :
    (s.retain keep).record? k = if keep k then s.record? k else none :=
  s.records.find?_filter keep k

/-- An available store is written to, or made smaller, as the operation
    says. -/
theorem after_of_available {s : Store} (h : s.available = true) (op : StoreOp) :
    s.after op = match op with
      | .put key bytes => s.write key bytes
      | .delete key => s.retain (· != key)
      | .deletePrefix start => s.retain fun key => !Text.startsWith start key
      | .compareAndSet key version bytes guards =>
        if s.admits key version guards then s.write key bytes else s
      | .setAvailable available => s.setAvailable available := by
  cases op with
  | compareAndSet key version bytes guards =>
    simp only [after, compareAndSet, whenAvailable, h, if_true]
    split <;> rfl
  | _ => simp [after, put, delete, deletePrefix, whenAvailable, h, Except.toOption]

/-- A store out of reach changes only by coming back. -/
theorem after_of_unavailable {s : Store} (h : s.available = false) (op : StoreOp) :
    s.after op = match op with
      | .setAvailable available => s.setAvailable available
      | _ => s := by
  cases op <;>
    simp [after, put, delete, deletePrefix, compareAndSet, whenAvailable, h, Except.toOption]

@[simp] theorem afterAll_nil (s : Store) : s.afterAll [] = s := rfl

@[simp] theorem afterAll_cons (s : Store) (op : StoreOp) (ops : List StoreOp) :
    s.afterAll (op :: ops) = (s.after op).afterAll ops := rfl

theorem afterAll_append (s : Store) (ops ops' : List StoreOp) :
    s.afterAll (ops ++ ops') = (s.afterAll ops).afterAll ops' :=
  List.foldl_append

theorem Reachable.empty : Store.empty.Reachable := ⟨[], rfl⟩

theorem Reachable.afterAll {s : Store} (h : s.Reachable) (ops : List StoreOp) :
    (s.afterAll ops).Reachable := by
  obtain ⟨ops', rfl⟩ := h
  exact ⟨ops' ++ ops, (afterAll_append ..).symm⟩

end Store

end CursorCommit
