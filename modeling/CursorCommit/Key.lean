/-
  Keys of the coordination store.

  Below a common start, a subscription keeps per partition the assignment at
  `subscriptions/S/topics/T/P` and the committed offset at its child
  `offset`; a live stream has a marker at `subscriptions/S/sessions/N`.

  `Key.resolve` spells a key; `Key.partitionOfOffset?` reads the partition
  back from the part of an offset key that follows its topic.
-/
import CursorCommit.TopicPartition
import CursorCommit.Text.Parting

namespace CursorCommit

/-- A place in the store, by what it stands for. -/
inductive Key where
  | offset (subscription topic partition : String)
  | assignment (subscription topic partition : String)
  /-- The start of all keys of a topic. -/
  | topic (subscription topic : String)
  | session (subscription stream : String)
deriving DecidableEq, Repr

namespace Key

/-- What an offset key has after its partition. -/
def offsetEnding : String := "/offset"

/-- The key as it is spelled in a store whose keys start with `root`. -/
def resolve (root : String) : Key → String
  | offset s t p => root ++ "subscriptions/" ++ s ++ "/topics/" ++ t ++ "/" ++ p ++ offsetEnding
  | assignment s t p => root ++ "subscriptions/" ++ s ++ "/topics/" ++ t ++ "/" ++ p
  | topic s t => root ++ "subscriptions/" ++ s ++ "/topics/" ++ t ++ "/"
  | session s n => root ++ "subscriptions/" ++ s ++ "/sessions/" ++ n

/-- The partition of an offset key, given what follows its topic: one level
    that is not empty, and the ending. -/
def partitionOfOffset? (relative : String) : Option String :=
  (Text.beforeEnd? offsetEnding relative).filter fun p => p != "" && !p.toList.contains '/'

end Key

end CursorCommit
