/-
  Ownership: whether a stream may commit to a partition.

  A stream owns a partition iff the partition's assignment names it with the
  status assigned.  An assignment that is missing or unreadable gives the
  partition to nobody.  `Coordinator.guard` makes a later write conditional
  on the assignment that was seen.
-/
import CursorCommit.Assignment
import CursorCommit.Coordinator
import CursorCommit.Key
import CursorCommit.Program

namespace CursorCommit

/-- An assignment as it was seen in the store. -/
structure Sighting where
  /-- None if the record is missing or unreadable. -/
  assignment : Option Assignment
  /-- The revision of the record, `0` if it is missing. -/
  revision : Nat
deriving DecidableEq, Repr

namespace Sighting

/-- What a record, or its absence, shows. -/
def ofRecord? : Option Record → Sighting
  | none => ⟨none, 0⟩
  | some record =>
    let assignment := match record.text with
      | .ok text => (Assignment.parse text).toOption
      | .error _ => none
    ⟨assignment, record.revision⟩

/-- Whether the stream was seen to own the partition. -/
def isOwnedBy (seen : Sighting) (stream : String) : Bool :=
  seen.assignment.any (·.isOwnedBy stream)

end Sighting

namespace Coordinator

/-- The key of a partition's assignment. -/
def assignmentKey (c : Coordinator) (subscription : String) (tp : TopicPartition) : String :=
  (Key.assignment subscription tp.topic tp.partition).resolve c.root

/-- The key of a stream's session marker. -/
def sessionKey (c : Coordinator) (subscription stream : String) : String :=
  (Key.session subscription stream).resolve c.root

/-- Looks at a partition's assignment. -/
def sight (c : Coordinator) (subscription : String) (tp : TopicPartition) : Action Sighting :=
  return Sighting.ofRecord? (← Action.store (.get (c.assignmentKey subscription tp)))

/-- Whether the stream owns the partition. -/
def owns (c : Coordinator) (stream subscription : String) (tp : TopicPartition) : Action Bool :=
  return (← c.sight subscription tp).isOwnedBy stream

/-- Whether the stream has a session. -/
def hasSession (c : Coordinator) (subscription stream : String) : Action Bool :=
  return (← Action.store (.get (c.sessionKey subscription stream))).isSome

/-- The condition that the assignment is still the one that was seen. -/
def guard (c : Coordinator) (subscription : String) (tp : TopicPartition) (seen : Sighting) :
    Guard :=
  ⟨c.assignmentKey subscription tp, seen.revision⟩

end Coordinator

end CursorCommit
