/-
  The names that a request carries: its subscription, and for a commit its
  stream.  Both must be identifiers, the subscription is checked first.
-/
import CursorCommit.Error

namespace CursorCommit.Requested

/-- Whether the name of a subscription may stand in a key. -/
def checkSubscription (subscription : String) : Except Error Unit :=
  (Name.checkIdentifier subscription).mapError fun fault => .invalidRequest (.subscription fault)

/-- Whether the name of a stream may stand in a key. -/
def checkStream (stream : String) : Except Error Unit :=
  (Name.checkIdentifier stream).mapError fun fault => .invalidRequest (.stream fault)

/-- Whether the names of a commit may stand in a key. -/
def checkCommit (stream subscription : String) : Except Error Unit := do
  checkSubscription subscription
  checkStream stream

end CursorCommit.Requested
