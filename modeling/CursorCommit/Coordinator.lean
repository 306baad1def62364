/-
  The coordinator of a store's cursors, by what it was set up with.
-/
import CursorCommit.Offset.Padding
import CursorCommit.Offset.Comparator

namespace CursorCommit

/-- What a coordinator was set up with. -/
structure Coordinator where
  /-- The start of all its keys. -/
  root : String
  order : OffsetOrder
  /-- How often a partition's write is attempted before the commit fails. -/
  attempts : Nat
  /-- The width of the offsets that are handed out. -/
  offsetWidth : Nat
deriving DecidableEq, Repr

/-- The usual number of attempts. -/
def defaultAttempts : Nat := 3

end CursorCommit
