/-
  Positions of cursors, and cursors for positions.

  A cursor has a position when its event type resolves to a topic that may
  stand in a key, its partition may stand in a key, and its offset is not
  empty.  In a batch every event type must be part of the subscription, and
  each is looked up once, for the first cursor that names it.
-/
import CursorCommit.Coordinator
import CursorCommit.Cursor
import CursorCommit.Program

namespace CursorCommit

/-- The event type `found` under a name, if its topic may stand in a key. -/
def EventType.checked (name : String) (found : EventType) : Except Error EventType :=
  match Name.checkSegment found.topic with
  | .ok () => .ok found
  | .error fault => .error (.invalidState (.badTopic name fault))

/-- Resolves an event type to one whose topic may stand in a key. -/
def EventType.resolve (name : String) : Action EventType := do
  Action.of ((← Action.eventType name).checked name)

namespace Cursor

/-- The position of a cursor whose event type is backed by `topic`. -/
def inTopic (topic : String) (cursor : Cursor) : Except Error Position :=
  match Name.checkSegment cursor.partition with
  | .error fault => .error (.invalidCursor (.partition cursor.partition fault))
  | .ok () =>
    if cursor.offset = "" then .error (.invalidCursor (.emptyOffset cursor.partition))
    else .ok ⟨topic, cursor.partition, cursor.offset⟩

/-- The position of a cursor. -/
def position (cursor : Cursor) : Action Position := do
  Action.of (cursor.inTopic (← EventType.resolve cursor.eventType).topic)

/-- The topic of an event type, from those that are known already or by
    looking it up, and all that are known then. -/
def topicOf (known : List (String × String)) (eventType : String) :
    Action (String × List (String × String)) :=
  match known.lookup eventType with
  | some topic => return (topic, known)
  | none => do
    let found ← EventType.resolve eventType
    return (found.topic, (eventType, found.topic) :: known)

/-- The positions of the cursors of a batch, given the topics of the event
    types that are known already. -/
def positionsFrom (subscription : Subscription) (known : List (String × String)) :
    List Cursor → Action (List Position)
  | [] => return []
  | cursor :: rest =>
    if subscription.includes cursor.eventType then do
      let (topic, known) ← topicOf known cursor.eventType
      let position ← Action.of (cursor.inTopic topic)
      return position :: (← positionsFrom subscription known rest)
    else
      Action.fail (.resolution (.notInSubscription subscription.id cursor.eventType))

/-- The positions of the cursors of a batch. -/
def positions (subscription : Subscription) (cursors : List Cursor) : Action (List Position) :=
  positionsFrom subscription [] cursors

end Cursor

/-- The cursor that is handed out for a position. -/
def Coordinator.cursor (c : Coordinator) (eventType : EventType) (position : Position)
    (token : String) : Cursor :=
  ⟨position.partition, padOffset c.offsetWidth position.offset, eventType.name, token⟩

end CursorCommit
