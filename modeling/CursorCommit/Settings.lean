/-
  Settings from environment variables.

  `Settings.load` reads them in a fixed order and stops at the first one that
  has no value of its type; one that is not set has a default.  The endpoint
  list is separated by commas; blanks around an endpoint do not count, and an
  empty endpoint is dropped.
-/
import CursorCommit.Coordinator
import CursorCommit.Error
import CursorCommit.Text.Unsigned

namespace CursorCommit

/-- What environment variables set. -/
structure Settings where
  /-- The endpoints as they were written. -/
  endpointText : String
  root : String
  attempts : Nat
  offsetWidth : Nat
deriving DecidableEq, Repr

/-- A variable whose value is not of its type. -/
structure SettingFault where
  name : String
deriving DecidableEq, Repr

/-- What is wrong with the settings, in words. -/
def SettingFault.message (fault : SettingFault) : String :=
  "Failed to parse environment variable " ++ fault.name

namespace Settings

/-- The value of a text variable. -/
def text (env : String → Option String) (name fallback : String) : String :=
  (env name).getD fallback

/-- The value of a number variable below a limit. -/
def number (env : String → Option String) (limit : Nat) (name : String) (fallback : Nat) :
    Except SettingFault Nat :=
  match env name with
  | none => .ok fallback
  | some value =>
    match Text.readUnsigned limit value.toList with
    | some n => .ok n
    | none => .error ⟨name⟩

/-- The settings in an environment. -/
def load (env : String → Option String) : Except SettingFault Settings := do
  let endpointText := text env "ETCD_ENDPOINTS" "http://localhost:2379"
  let root := text env "ETCD_PREFIX" "/nakadi/"
  let attempts ← number env Text.limit32 "MAX_CAS_ATTEMPTS" defaultAttempts
  let offsetWidth ← number env Text.limit64 "CURSOR_OFFSET_WIDTH" defaultOffsetWidth
  return { endpointText, root, attempts, offsetWidth }

/-- The endpoints of the store. -/
def endpoints (s : Settings) : List String :=
  ((s.endpointText.toList.splitOn ',').map fun e => Text.trim (String.ofList e)).filter (· ≠ "")

/-- The number of attempts of a commit, at least one. -/
def commitAttempts (s : Settings) : Nat :=
  max s.attempts 1

/-- The coordinator that the settings describe. -/
def coordinator (s : Settings) (order : OffsetOrder) : Coordinator :=
  ⟨s.root, order, s.commitAttempts, s.offsetWidth⟩

/-- The coordinator that the settings describe, once its store has an
    endpoint to connect to. -/
def connect (s : Settings) (order : OffsetOrder) : Except Error Coordinator :=
  if s.endpoints = [] then
    .error (Error.ofStore (.connection "invalid arguments: empty endpoints"))
  else .ok (s.coordinator order)

end Settings

end CursorCommit
