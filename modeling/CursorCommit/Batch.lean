/-
  Batches: the positions of a request by partition.

  `Batch.group` splits a request into one batch per partition, in the order
  in which the partitions first appear; a batch keeps the places of its
  positions in the request, in order, so that what becomes of them can be put
  back there (`Batch.record`).
-/
import CursorCommit.Cursor

namespace CursorCommit

/-- The places, in a request, of the positions of one partition. -/
structure Batch where
  tp : TopicPartition
  indexes : List Nat
deriving DecidableEq, Repr

namespace Batch

/-- Adds the place of a position of `tp` to its batch, or to a new one. -/
def add (tp : TopicPartition) (index : Nat) : List Batch → List Batch
  | [] => [⟨tp, [index]⟩]
  | b :: rest =>
    if b.tp = tp then { b with indexes := b.indexes ++ [index] } :: rest
    else b :: add tp index rest

/-- The batches of a request. -/
def group (positions : List Position) : List Batch :=
  positions.zipIdx.foldl (fun batches (p, i) => add p.tp i batches) []

/-- The offsets of a batch, in the order of the request. -/
def offsets (b : Batch) (positions : List Position) : List String :=
  b.indexes.filterMap fun i => positions[i]?.map Position.offset

/-- Puts what became of a batch's positions in their places. -/
def record (b : Batch) (outcomes : List Outcome) (all : List Outcome) : List Outcome :=
  (b.indexes.zip outcomes).foldl (fun all (i, o) => all.set i o) all

end Batch

end CursorCommit
