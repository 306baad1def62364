/-
  Cursors, partitions and outcomes as JSON.

  Records are objects, read in any order of their members or as arrays and
  written in a fixed order; an outcome is its word, or an object with the
  word as its only member, of value null.
-/
import CursorCommit.Cursor
import CursorCommit.Text.Json

namespace CursorCommit

/-- Reads a cursor. -/
def Cursor.ofJson? (json : Json) : Option Cursor := do
  match ← json.fields ["partition", "offset", "event_type", "cursor_token"] with
  | [partition, offset, eventType, token] =>
    return ⟨← partition.text?, ← offset.text?, ← eventType.text?, ← token.text?⟩
  | _ => none

/-- Writes a cursor. -/
def Cursor.toJson (cursor : Cursor) : String :=
  Json.writeObject
    [("partition", Json.writeString cursor.partition), ("offset", Json.writeString cursor.offset),
      ("event_type", Json.writeString cursor.eventType),
      ("cursor_token", Json.writeString cursor.token)]

/-- Reads a partition. -/
def TopicPartition.ofJson? (json : Json) : Option TopicPartition := do
  match ← json.fields ["topic", "partition"] with
  | [topic, partition] => return ⟨← topic.text?, ← partition.text?⟩
  | _ => none

/-- Writes a partition. -/
def TopicPartition.toJson (tp : TopicPartition) : String :=
  Json.writeObject
    [("topic", Json.writeString tp.topic), ("partition", Json.writeString tp.partition)]

/-- The outcome that a word stands for. -/
def Outcome.ofWord? (word : String) : Option Outcome :=
  if word = committed.word then some committed
  else if word = outdated.word then some outdated
  else none

/-- Reads an outcome. -/
def Outcome.ofJson? : Json → Option Outcome
  | .string units => do Outcome.ofWord? (← Json.unitsText? units)
  | .object [(name, .null)] => do Outcome.ofWord? (← Json.unitsText? name)
  | _ => none

/-- Writes an outcome. -/
def Outcome.toJson (o : Outcome) : String :=
  Json.writeString o.word

/-- Reads a commit result. -/
def CommitResult.ofJson? (json : Json) : Option CommitResult := do
  match ← json.fields ["cursor", "outcome"] with
  | [cursor, outcome] => return ⟨← Cursor.ofJson? cursor, ← Outcome.ofJson? outcome⟩
  | _ => none

/-- Writes a commit result. -/
def CommitResult.toJson (r : CommitResult) : String :=
  Json.writeObject [("cursor", r.cursor.toJson), ("outcome", r.outcome.toJson)]

end CursorCommit
