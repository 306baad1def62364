/-
  Topic partitions: the unit of ownership and of offset storage.

  Partitions are ordered by topic, then by name, both by code points.
-/

namespace CursorCommit

/-- A partition of a topic. -/
structure TopicPartition where
  topic : String
  partition : String
deriving DecidableEq, Repr

namespace TopicPartition

/-- The partition as a path, `topic/partition`. -/
def path (tp : TopicPartition) : String :=
  tp.topic ++ "/" ++ tp.partition

/-- Topics first, then partitions. -/
instance : Ord TopicPartition :=
  ⟨compareLex (compareOn topic) (compareOn partition)⟩

/-- Partitions in ascending order. -/
def sort (tps : List TopicPartition) : List TopicPartition :=
  tps.mergeSort fun a b => (compare a b).isLE

end TopicPartition

end CursorCommit
