/-
  Folding reported offsets against a stored one.

  The offsets reported for a partition are taken in the order of the request.
  One that is strictly greater than the offset reached so far is committed
  and becomes the offset reached; any other one is outdated.
-/
import CursorCommit.Offset.Comparator

namespace CursorCommit

/-- What became of a reported offset. -/
inductive Outcome where
  | committed
  | outdated
deriving DecidableEq, Repr

/-- The word for an outcome. -/
def Outcome.word : Outcome → String
  | committed => "committed"
  | outdated => "outdated"

/-- The result of folding offsets. -/
structure Fold where
  /-- The offset reached. -/
  highWater : String
  /-- What became of each offset, in order. -/
  outcomes : List Outcome
deriving DecidableEq, Repr

namespace Fold

/-- Whether an offset was committed. -/
def advanced (fold : Fold) : Bool :=
  fold.outcomes.contains .committed

/-- Folds offsets against the offset reached so far. -/
def ofOffsets (c : Comparator) (reached : String) : List String → Except OffsetFault Fold
  | [] => .ok ⟨reached, []⟩
  | offset :: rest => do
    if (← c.compare offset reached) = .gt then
      let fold ← ofOffsets c offset rest
      return { fold with outcomes := .committed :: fold.outcomes }
    else
      let fold ← ofOffsets c reached rest
      return { fold with outcomes := .outdated :: fold.outcomes }

end Fold

end CursorCommit
