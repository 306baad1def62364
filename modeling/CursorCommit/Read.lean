/-
  Reading the committed cursors of a subscription.

  The cursors come by event type, in ascending order, and for each event type
  in the order of the offset keys of its topic; each has a fresh token.
-/
import CursorCommit.Cursor.Position
import CursorCommit.Offset.Stored
import CursorCommit.Requested

namespace CursorCommit.Coordinator

/-- Hands out a cursor with a fresh token for a committed offset. -/
def handOut (c : Coordinator) (eventType : EventType) (committed : String × String) :
    Program Cursor := do
  let token ← Program.request .token
  return c.cursor eventType ⟨eventType.topic, committed.1, committed.2⟩ token

/-- The committed cursors of an event type. -/
def cursorsOf (c : Coordinator) (subscription name : String) : Action (List Cursor) := do
  let eventType ← EventType.resolve name
  let offsets ← c.offsets subscription eventType.topic
  Action.ofProgram (offsets.mapM (c.handOut eventType))

/-- The committed cursors of a subscription. -/
def cursors (c : Coordinator) (subscription : String) : Action (List Cursor) := do
  Action.of (Requested.checkSubscription subscription)
  let found ← Action.subscription subscription
  let lists ← found.eventTypes.names.mapM (c.cursorsOf subscription)
  Action.ofProgram (Program.tick .read)
  return lists.flatten

end CursorCommit.Coordinator
