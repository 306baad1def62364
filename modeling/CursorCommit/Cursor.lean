/-
  Cursors, as clients report them and as they are stored.

  A `Cursor` names an event type and carries a token; a `Position` names the
  topic that backs the event type.  Positions live for one request only.
-/
import CursorCommit.Offset.Fold
import CursorCommit.TopicPartition

namespace CursorCommit

/-- A place in one partition of an event type, with the token that was handed
    out with it. -/
structure Cursor where
  partition : String
  offset : String
  eventType : String
  token : String
deriving DecidableEq, Repr

/-- A place in one partition of a topic. -/
structure Position where
  topic : String
  partition : String
  offset : String
deriving DecidableEq, Repr

/-- The partition of a position. -/
def Position.tp (p : Position) : TopicPartition :=
  ⟨p.topic, p.partition⟩

/-- What became of a reported cursor. -/
structure CommitResult where
  cursor : Cursor
  outcome : Outcome
deriving DecidableEq, Repr

/-- Whether the cursor was committed. -/
def CommitResult.isCommitted (r : CommitResult) : Bool :=
  r.outcome == .committed

/-- The cursors of a list, each once. -/
def Cursor.distinct (cursors : List Cursor) : List Cursor :=
  cursors.eraseDups

end CursorCommit
