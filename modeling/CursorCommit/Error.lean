/-
  Failures of a commit or a read of cursors.

  Each failure that can arise after some partitions were written carries the
  partitions that were (`Error.committed`), so that a caller can resume: to
  repeat the whole batch is safe.
-/
import CursorCommit.Directory
import CursorCommit.Offset.Comparator
import CursorCommit.TopicPartition
import CursorCommit.Store.Error

namespace CursorCommit

/-- Why a cursor is refused. -/
inductive CursorFault where
  | partition (name : String) (fault : NameFault)
  | emptyOffset (partition : String)
  | offset (fault : OffsetFault)
deriving DecidableEq, Repr

/-- Why a request is refused before anything is looked up. -/
inductive RequestFault where
  | subscription (fault : NameFault)
  | stream (fault : NameFault)
deriving DecidableEq, Repr

/-- What is unusable in the store or in a directory. -/
inductive StateFault where
  | stored (fault : StoreFault)
  | badTopic (eventType : String) (fault : NameFault)
  | noOffset (tp : TopicPartition) (subscription : String)
  | unreadableOffset (offset : String) (tp : TopicPartition) (fault : OffsetFault)
deriving DecidableEq, Repr

/-- A failure of a commit or a read of cursors. -/
inductive Error where
  /-- The stream does not own these partitions, or lost them. -/
  | ownership (stream : String) (partitions committed : List TopicPartition)
  | resolution (cause : ResolutionError)
  /-- Other writers won the race for these partitions at every attempt. -/
  | conflict (conflicted committed : List TopicPartition)
  | storeUnavailable (source : StoreError) (committed : List TopicPartition)
  /-- Any other failure once partitions may have been written. -/
  | writeFailed (source : Error) (committed : List TopicPartition)
  | invalidCursor (fault : CursorFault)
  | invalidRequest (fault : RequestFault)
  | invalidState (fault : StateFault)
deriving DecidableEq, Repr

/-- What is wrong with the cursor, in words. -/
def CursorFault.message : CursorFault → String
  | partition name fault =>
    "partition " ++ Text.quoted name ++ ": " ++ (StoreError.invalidState (.badName fault)).message
  | emptyOffset name => "empty offset for partition " ++ name
  | offset fault => fault.message

/-- What is wrong with the request, in words. -/
def RequestFault.message : RequestFault → String
  | subscription fault => "subscription id: " ++ (StoreError.invalidState (.badName fault)).message
  | stream fault => "stream id: " ++ (StoreError.invalidState (.badName fault)).message

/-- What is unusable, in words. -/
def StateFault.message : StateFault → String
  | stored fault => fault.message
  | badTopic eventType fault =>
    "event type " ++ eventType ++ " maps to bad topic: " ++
      (StoreError.invalidState (.badName fault)).message
  | noOffset tp subscription =>
    "no committed offset for " ++ tp.path ++ " in subscription " ++ subscription
  | unreadableOffset offset tp fault =>
    "stored offset " ++ Text.quoted offset ++ " for " ++ tp.path ++ " is unreadable: " ++
      "invalid cursor: " ++ fault.message

/-- A partition as messages show it. -/
def TopicPartition.show (tp : TopicPartition) : String :=
  "TopicPartition \x7b topic: " ++ Text.quoted tp.topic ++ ", partition: " ++
    Text.quoted tp.partition ++ " \x7d"

/-- Partitions as messages show them. -/
def TopicPartition.showAll (tps : List TopicPartition) : String :=
  "[" ++ String.intercalate ", " (tps.map TopicPartition.show) ++ "]"

namespace Error

/-- The failure in words. -/
def message : Error → String
  | ownership stream partitions _ =>
    "stream " ++ stream ++ " does not own partitions " ++ TopicPartition.showAll partitions
  | resolution cause => cause.message
  | conflict conflicted _ =>
    "offset writes kept conflicting for " ++ TopicPartition.showAll conflicted
  | storeUnavailable source _ => "coordination store unavailable: " ++ source.message
  | writeFailed source _ => "offset write failed: " ++ source.message
  | invalidCursor fault => "invalid cursor: " ++ fault.message
  | invalidRequest fault => "invalid request: " ++ fault.message
  | invalidState fault => "invalid state: " ++ fault.message

/-- The partitions that were written before the failure. -/
def committed : Error → List TopicPartition
  | ownership _ _ tps | conflict _ tps | storeUnavailable _ tps | writeFailed _ tps => tps
  | resolution _ | invalidCursor _ | invalidRequest _ | invalidState _ => []

/-- A failure of the store, before anything was written. -/
def ofStore : StoreError → Error
  | .invalidState fault => invalidState (.stored fault)
  | source => storeUnavailable source []

end Error

end CursorCommit
