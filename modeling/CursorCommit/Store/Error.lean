/-
  Failures of the coordination store.

  The store may be out of reach, the connection to it may fail, or what it
  holds may be unusable.  `isUnavailable` tells the first two from the last.
-/
import CursorCommit.Name
import CursorCommit.Text.Utf8

namespace CursorCommit

/-- What is unusable in the store or in a name for its keys. -/
inductive StoreFault where
  | badName (fault : NameFault)
  | notUtf8 (fault : Utf8Fault)
  /-- A fault that the store itself reports, in its words. -/
  | reported (text : String)
deriving DecidableEq, Repr

/-- What is unusable, in words. -/
def StoreFault.message : StoreFault → String
  | badName fault => fault.message
  | notUtf8 fault => "value is not utf-8: " ++ fault.message
  | reported text => text

/-- A failure of the store. -/
inductive StoreError where
  | unavailable (text : String)
  | connection (text : String)
  | invalidState (fault : StoreFault)
deriving DecidableEq, Repr

namespace StoreError

/-- Whether the failure came from talking to the store, and not from what it
    answered. -/
def isUnavailable : StoreError → Bool
  | unavailable _ | connection _ => true
  | invalidState _ => false

/-- The failure in words. -/
def message : StoreError → String
  | unavailable text => "store unavailable: " ++ text
  | connection text => "etcd error: " ++ text
  | invalidState fault => "invalid state: " ++ fault.message

/-- The failure that a store answers with while it is out of reach. -/
def outOfReach : StoreError :=
  unavailable "memory store marked unavailable"

end StoreError

end CursorCommit
