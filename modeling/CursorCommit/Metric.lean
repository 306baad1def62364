/-
  What is counted: requests by status, cursors by outcome, refused writes and
  reads.

  A commit ticks its request and its duration once, and on success each of
  its outcomes; a write that is refused ticks a conflict.
-/
import CursorCommit.Error
import CursorCommit.Offset.Fold

namespace CursorCommit

/-- How a commit ended, as it is counted. -/
inductive Status where
  | ok
  | ownership
  | resolution
  | conflict
  | storeUnavailable
  | writeFailed
  | invalid
deriving DecidableEq, Repr

namespace Status

/-- The label of a status. -/
def label : Status → String
  | ok => "ok"
  | ownership => "ownership"
  | resolution => "resolution"
  | conflict => "conflict"
  | storeUnavailable => "store_unavailable"
  | writeFailed => "write_failed"
  | invalid => "invalid"

/-- The status of a failure. -/
def ofError : Error → Status
  | .ownership .. => ownership
  | .resolution _ => resolution
  | .conflict .. => conflict
  | .storeUnavailable .. => storeUnavailable
  | .writeFailed .. => writeFailed
  | .invalidCursor _ | .invalidRequest _ | .invalidState _ => invalid

/-- The status of a result. -/
def ofResult {α : Type} : Except Error α → Status
  | .ok _ => ok
  | .error e => ofError e

end Status

/-- A thing that is counted. -/
inductive Metric where
  | request (status : Status)
  /-- The recording of how long a commit took. -/
  | duration
  | outcome (outcome : Outcome)
  | casConflict
  | read
deriving DecidableEq, Repr

/-- The name of a counter, with its label. -/
def Metric.name : Metric → String
  | request status => "cursor_commit_requests_total\x7bstatus=" ++ status.label ++ "\x7d"
  | duration => "cursor_commit_duration_seconds"
  | outcome o => "cursor_commits_total\x7boutcome=" ++ o.word ++ "\x7d"
  | casConflict => "cursor_commit_cas_conflicts_total"
  | read => "cursor_reads_total"

/-- How often each thing was counted, in the order of the first count. -/
def Metric.tally (metrics : List Metric) : List (Metric × Nat) :=
  metrics.eraseDups.map fun m => (m, metrics.count m)

end CursorCommit
