/-
  Committed offsets in the store, per subscription and partition.

  An offset is read together with its version, which a later write must
  still find.  The offsets of a topic are listed in the order of their keys;
  other keys below the topic are passed over.
-/
import CursorCommit.Coordinator
import CursorCommit.Key
import CursorCommit.Program

namespace CursorCommit

/-- An offset as it was read. -/
structure StoredOffset where
  offset : String
  version : Nat
deriving DecidableEq, Repr

/-- The offset that a record holds; bytes that are no text are a fault of the
    store. -/
def StoredOffset.ofRecord (record : Record) : Except Error StoredOffset :=
  match record.text with
  | .ok offset => .ok ⟨offset, record.version⟩
  | .error fault => .error (.invalidState (.stored fault))

namespace Coordinator

/-- The key of a partition's offset. -/
def offsetKey (c : Coordinator) (subscription : String) (tp : TopicPartition) : String :=
  (Key.offset subscription tp.topic tp.partition).resolve c.root

/-- The start of all keys of a topic. -/
def topicStart (c : Coordinator) (subscription topic : String) : String :=
  (Key.topic subscription topic).resolve c.root

/-- Reads a partition's offset, if it has one. -/
def offset? (c : Coordinator) (subscription : String) (tp : TopicPartition) :
    Action (Option StoredOffset) := do
  match ← Action.store (.get (c.offsetKey subscription tp)) with
  | none => return none
  | some record => some <$> Action.of (StoredOffset.ofRecord record)

/-- Writes a partition's offset, if it is still at `version` and the guards
    hold; tells whether it was written. -/
def setOffset (c : Coordinator) (subscription : String) (tp : TopicPartition) (version : Int)
    (offset : String) (guards : List Guard) : Action Bool :=
  Action.store (.compareAndSet (c.offsetKey subscription tp) version (Utf8.encode offset) guards)

/-- The partitions and offsets among the entries whose keys start with
    `start`. -/
def offsetsAmong (start : String) : List (String × Record) → Except Error (List (String × String))
  | [] => .ok []
  | (key, record) :: rest =>
    match Key.partitionOfOffset? (Text.afterStart start key) with
    | none => offsetsAmong start rest
    | some partition => do
      let stored ← StoredOffset.ofRecord record
      return (partition, stored.offset) :: (← offsetsAmong start rest)

/-- The partitions of a topic that have an offset, with the offset, in the
    order of their keys. -/
def offsets (c : Coordinator) (subscription topic : String) : Action (List (String × String)) := do
  let entries ← Action.store (.list (c.topicStart subscription topic))
  Action.of (offsetsAmong (c.topicStart subscription topic) entries)

end Coordinator

end CursorCommit
