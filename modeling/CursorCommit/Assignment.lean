/-
  Assignments: which stream reads a partition.

  An assignment is stored as the stream, the separator `: :` and a status
  word.  Reading takes the first separator, so a stream that holds one is not
  read back.
-/
import CursorCommit.Text.Parting
import CursorCommit.Text.Quoted

namespace CursorCommit

/-- The status of an assignment. -/
inductive AssignmentStatus where
  | assigned
  | reassigning
  | unassigned
deriving DecidableEq, Repr

/-- The stream that a partition is assigned to, and how firmly. -/
structure Assignment where
  stream : String
  status : AssignmentStatus
deriving DecidableEq, Repr

/-- Why a text is no assignment. -/
inductive AssignmentFault where
  | noSeparator (text : String)
  | unknownStatus (word : String)
deriving DecidableEq, Repr

/-- What is wrong with the text, in words. -/
def AssignmentFault.message : AssignmentFault → String
  | noSeparator text => "assignment record " ++ Text.quoted text ++ " has no separator"
  | unknownStatus word => "unknown session status " ++ Text.quoted word

/-- The word for a status. -/
def AssignmentStatus.word : AssignmentStatus → String
  | assigned => "ASSIGNED"
  | reassigning => "REASSIGNING"
  | unassigned => "UNASSIGNED"

/-- The status that a word stands for. -/
def AssignmentStatus.ofWord (word : String) : Except AssignmentFault AssignmentStatus :=
  if word = assigned.word then .ok assigned
  else if word = reassigning.word then .ok reassigning
  else if word = unassigned.word then .ok unassigned
  else .error (.unknownStatus word)

namespace Assignment

/-- What stands between stream and status. -/
def separator : String := ": :"

/-- The assignment as it is stored. -/
def encode (a : Assignment) : String :=
  a.stream ++ separator ++ a.status.word

/-- Reads a stored assignment. -/
def parse (text : String) : Except AssignmentFault Assignment :=
  match Text.partAtFirst separator.toList text.toList with
  | none => .error (.noSeparator text)
  | some (stream, word) =>
    (AssignmentStatus.ofWord (String.ofList word)).map fun status => ⟨String.ofList stream, status⟩

/-- Whether the partition is firmly assigned to the stream. -/
def isOwnedBy (a : Assignment) (stream : String) : Bool :=
  a.stream == stream && a.status == .assigned

end Assignment

end CursorCommit
