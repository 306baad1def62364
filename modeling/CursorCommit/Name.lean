/-
  Names that may stand in a key.

  Subscriptions and streams have identifiers (`checkIdentifier`): at most 128
  bytes, all ASCII letters, digits, dashes and underscores.  Topics and
  partitions have segments (`checkSegment`): at most 249 bytes without a
  slash, a blank or a control character, and not one of the relative paths
  `.` and `..`; a segment is exactly one level of a key.
-/
import CursorCommit.Text.Blank
import CursorCommit.Text.Quoted

namespace CursorCommit

/-- Why a name may not stand in a key. -/
inductive NameFault where
  | identifierLength
  | identifierCharacter (name : String)
  | segmentLength
  | relativePath (name : String)
  | segmentCharacter (name : String)
deriving DecidableEq, Repr

/-- What is wrong with the name, in words. -/
def NameFault.message : NameFault → String
  | identifierLength => "identifier must be 1-128 characters"
  | identifierCharacter name =>
    "identifier " ++ Text.quoted name ++
      " contains invalid characters (only alphanumeric, dash, underscore allowed)"
  | segmentLength => "key segment must be 1-249 characters"
  | relativePath name => "key segment " ++ Text.quoted name ++ " is a relative path"
  | segmentCharacter name =>
    "key segment " ++ Text.quoted name ++ " contains '/', whitespace or control characters"

namespace Name

/-- A character of an identifier. -/
def isIdentifierChar (c : Char) : Bool :=
  c.isAlphanum || c == '-' || c == '_'

/-- A character that no segment contains. -/
def isBarred (c : Char) : Bool :=
  c == '/' || Text.isControl c || Text.isBlank c

/-- Identifiers of subscriptions and streams. -/
def checkIdentifier (name : String) : Except NameFault Unit :=
  if name.utf8ByteSize = 0 ∨ 128 < name.utf8ByteSize then .error .identifierLength
  else if name.toList.all isIdentifierChar then .ok ()
  else .error (.identifierCharacter name)

/-- Names of topics and partitions. -/
def checkSegment (name : String) : Except NameFault Unit :=
  if name.utf8ByteSize = 0 ∨ 249 < name.utf8ByteSize then .error .segmentLength
  else if name = "." ∨ name = ".." then .error (.relativePath name)
  else if name.toList.any isBarred then .error (.segmentCharacter name)
  else .ok ()

end Name

end CursorCommit
