/-
  Committing a batch of cursors.

  A commit has three phases.  It validates: every cursor must have a
  position, and the stream a session and all partitions of the batch
  (`owned`).  It plans: each partition's offsets are folded against the
  stored one (`plan`).  It writes: each partition that advanced is written
  under the condition that neither its offset nor its assignment changed,
  and a refused write is planned again from fresh reads (`write`).

  Nothing is written before all partitions are planned.  In the last phase a
  partition that fails does not stop the others, and the failures become one
  error that still names the partitions that were written (`failure`).
-/
import CursorCommit.Batch
import CursorCommit.Cursor.Position
import CursorCommit.Offset.Stored
import CursorCommit.Ownership
import CursorCommit.Requested

namespace CursorCommit

/-- A partition that is ready to be written. -/
structure Plan where
  batch : Batch
  current : StoredOffset
  fold : Fold
  seen : Sighting
deriving DecidableEq, Repr

/-- Why a partition was not written. -/
inductive WriteFailure where
  /-- The attempts were used up. -/
  | conflict
  | failed (error : Error)
deriving DecidableEq, Repr

/-- What became of a partition's write. -/
abbrev Written := Except WriteFailure (List Outcome)

/-- Folds a partition's offsets against the stored one.  If it is the stored
    one that the comparator cannot read, the fault is the store's. -/
def foldPartition (c : Comparator) (tp : TopicPartition) (current : StoredOffset)
    (offsets : List String) : Except Error Fold :=
  match c.validate current.offset with
  | .error fault => .error (.invalidState (.unreadableOffset current.offset tp fault))
  | .ok () =>
    (Fold.ofOffsets c current.offset offsets).mapError fun fault => .invalidCursor (.offset fault)

namespace Coordinator

/-! ## Validation -/

/-- The partitions of the batches whose sighting does not give them to the
    stream. -/
def unowned (stream : String) (batches : List Batch) (seen : List Sighting) :
    List TopicPartition :=
  ((batches.zip seen).filter fun (_, s) => !s.isOwnedBy stream).map fun (b, _) => b.tp

/-- Looks at the assignments of the batches' partitions; the stream must have
    a session and own all of them.  The looks are started together, but a call
    on this store is answered without waiting: each look is done before the
    next begins, and none begins after one that failed. -/
def owned (c : Coordinator) (stream subscription : String) (batches : List Batch) :
    Action (List Sighting) := do
  if ← c.hasSession subscription stream then
    let seen ← batches.mapM fun b => c.sight subscription b.tp
    if unowned stream batches seen = [] then return seen
    else Action.fail (.ownership stream (unowned stream batches seen) [])
  else Action.fail (.ownership stream (batches.map Batch.tp) [])

/-! ## Planning -/

/-- Reads a partition's offset, which must be there. -/
def currentOffset (c : Coordinator) (subscription : String) (tp : TopicPartition) :
    Action StoredOffset := do
  match ← c.offset? subscription tp with
  | some current => return current
  | none => Action.fail (.invalidState (.noOffset tp subscription))

/-- Reads a partition's offset and folds the batch's offsets against it. -/
def plan (c : Coordinator) (subscription : String) (positions : List Position) (b : Batch)
    (seen : Sighting) : Action Plan := do
  let current ← c.currentOffset subscription b.tp
  let fold ← Action.of <|
    foldPartition (c.order.comparator b.tp.topic) b.tp current (b.offsets positions)
  return ⟨b, current, fold, seen⟩

/-- Plans all batches, with the assignments that were seen.  The plans are
    started together too, and for the same reason each is done before the next
    begins. -/
def planAll (c : Coordinator) (subscription : String) (positions : List Position)
    (batches : List Batch) (seen : List Sighting) : Action (List Plan) :=
  (batches.zip seen).mapM fun (b, s) => c.plan subscription positions b s

/-! ## Writing -/

/-- After a refused write: looks at the assignment again and plans from a
    fresh read. -/
def replan (c : Coordinator) (stream subscription : String) (positions : List Position)
    (b : Batch) : Action Plan := do
  let seen ← c.sight subscription b.tp
  if seen.isOwnedBy stream then c.plan subscription positions b seen
  else Action.fail (.ownership stream [b.tp] [])

/-- Tries to write a planned partition, and tells whether it was written. -/
def tryWrite (c : Coordinator) (subscription : String) (p : Plan) : Action Bool :=
  c.setOffset subscription p.batch.tp p.current.version p.fold.highWater
    [c.guard subscription p.batch.tp p.seen]

/-- Writes a planned partition, with a number of attempts left. -/
def write (c : Coordinator) (stream subscription : String) (positions : List Position) :
    (attempts : Nat) → Plan → Program Written
  | 0, _ => return .error .conflict
  | attempts + 1, p => do
    match ← (c.tryWrite subscription p).run with
    | .error e => return .error (.failed e)
    | .ok true => return .ok p.fold.outcomes
    | .ok false =>
      Program.tick .casConflict
      match ← (c.replan stream subscription positions p.batch).run with
      | .error e => return .error (.failed e)
      | .ok p' =>
        if p'.fold.advanced then c.write stream subscription positions attempts p'
        else return .ok p'.fold.outcomes

/-- Writes the plans that advanced, whatever becomes of each.  The writes are
    started together, but as no call on this store waits, each goes through all
    its attempts before the next begins. -/
def writeAll (c : Coordinator) (stream subscription : String) (positions : List Position)
    (plans : List Plan) : Program (List (Batch × Written)) :=
  (plans.filter (·.fold.advanced)).mapM fun p => do
    return (p.batch, ← c.write stream subscription positions c.attempts p)

/-! ## Results -/

/-- The outcomes of the plans that did not advance, in their places. -/
def planned (count : Nat) (plans : List Plan) : List Outcome :=
  (plans.filter fun p => !p.fold.advanced).foldl (fun all p => p.batch.record p.fold.outcomes all)
    (List.replicate count .outdated)

/-- The outcomes of the writes that succeeded, in their places. -/
def settled (written : List (Batch × Written)) (all : List Outcome) : List Outcome :=
  written.foldl
    (fun all (b, w) => match w with
      | .ok outcomes => b.record outcomes all
      | .error _ => all)
    all

/-- The partitions that were written. -/
def committed (written : List (Batch × Written)) : List TopicPartition :=
  written.filterMap fun (b, w) => match w with
    | .ok outcomes => if outcomes.contains .committed then some b.tp else none
    | .error _ => none

/-- The partitions whose write failed, and why. -/
def failures (written : List (Batch × Written)) : List (TopicPartition × WriteFailure) :=
  written.filterMap fun (b, w) => match w with
    | .ok _ => none
    | .error failure => some (b.tp, failure)

/-- The first failure that is neither a conflict nor a loss of ownership. -/
def firstError? (failed : List (TopicPartition × WriteFailure)) : Option Error :=
  failed.findSome? fun
    | (_, .conflict) | (_, .failed (.ownership ..)) => none
    | (_, .failed e) => some e

/-- The partitions that the stream lost. -/
def lost (failed : List (TopicPartition × WriteFailure)) : List TopicPartition :=
  failed.filterMap fun
    | (tp, .failed (.ownership ..)) => some tp
    | _ => none

/-- The partitions whose attempts were used up. -/
def conflicted (failed : List (TopicPartition × WriteFailure)) : List TopicPartition :=
  failed.filterMap fun
    | (tp, .conflict) => some tp
    | _ => none

/-- The error of a commit whose writes failed for some partitions: other
    errors come before losses of ownership, and these before conflicts. -/
def failure (stream : String) (committed : List TopicPartition)
    (failed : List (TopicPartition × WriteFailure)) : Error :=
  match firstError? failed with
  | some (.storeUnavailable source _) => .storeUnavailable source committed
  | some e => .writeFailed e committed
  | none =>
    if lost failed ≠ [] then .ownership stream (lost failed) committed
    else .conflict (conflicted failed) committed

/-- What became of a batch of cursors, given the plans and the writes. -/
def results (stream : String) (cursors : List Cursor) (plans : List Plan)
    (written : List (Batch × Written)) : Except Error (List CommitResult) :=
  if failures written ≠ [] then .error (failure stream (committed written) (failures written))
  else .ok (cursors.zipWith CommitResult.mk (settled written (planned cursors.length plans)))

/-! ## The commit -/

/-- Commits the cursors of a batch that is not empty, given the subscription
    as it was found. -/
def commitBatch (c : Coordinator) (stream subscription : String) (found : Subscription)
    (cursors : List Cursor) : Action (List CommitResult) := do
  let positions ← Cursor.positions found cursors
  let batches := Batch.group positions
  let seen ← c.owned stream subscription batches
  let plans ← c.planAll subscription positions batches seen
  let written ← Action.ofProgram (c.writeAll stream subscription positions plans)
  Action.of (results stream cursors plans written)

/-- Commits a batch of cursors, uncounted. -/
def commitUncounted (c : Coordinator) (stream subscription : String) (cursors : List Cursor) :
    Action (List CommitResult) := do
  Action.of (Requested.checkCommit stream subscription)
  let found ← Action.subscription subscription
  if cursors = [] then return [] else c.commitBatch stream subscription found cursors

/-- What a commit with this result counts: its request, its duration, and on
    success its outcomes. -/
def counted (result : Except Error (List CommitResult)) : List Metric :=
  [.request (.ofResult result), .duration] ++
    match result with
    | .ok results => results.map fun r => .outcome r.outcome
    | .error _ => []

/-- Commits a batch of cursors that a stream reports for a subscription: one
    result per cursor, in order, or an error that tells which partitions were
    written. -/
def commit (c : Coordinator) (stream subscription : String) (cursors : List Cursor) :
    Action (List CommitResult) :=
  ExceptT.mk do
    let result ← (c.commitUncounted stream subscription cursors).run
    (counted result).forM Program.tick
    return result

end Coordinator

end CursorCommit
