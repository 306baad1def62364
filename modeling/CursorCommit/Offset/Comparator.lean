/-
  Comparators: how two offsets of a topic are ordered.

  * `lexical` compares as text, by code points;
  * `numeric` compares as unsigned 64-bit numbers;
  * `segmented sep` compares fields between separators, as numbers, from the
    first on; both offsets must have equally many.

  A comparison fails on an offset that is not of the comparator's form, and
  `validate` tells whether an offset is.  An `OffsetOrder` chooses the
  comparator by topic.
-/
import CursorCommit.Text.Quoted
import CursorCommit.Text.Unsigned

namespace CursorCommit

/-- Why offsets cannot be compared. -/
inductive OffsetFault where
  | notUnsigned (text : String)
  | fieldCount (a b : String)
deriving DecidableEq, Repr

/-- What is wrong with the offsets, in words. -/
def OffsetFault.message : OffsetFault → String
  | notUnsigned text => "offset " ++ Text.quoted text ++ " is not an unsigned integer"
  | fieldCount a b =>
    "offsets " ++ Text.quoted a ++ " and " ++ Text.quoted b ++
      " have a different number of fields"

/-- An order on the offsets of a topic. -/
inductive Comparator where
  | lexical
  | numeric
  | segmented (separator : Char)
deriving DecidableEq, Repr

namespace Comparator

/-- An offset, or a field of one, as a number. -/
def number (cs : List Char) : Except OffsetFault Nat :=
  match Text.readUnsigned Text.limit64 cs with
  | some n => .ok n
  | none => .error (.notUnsigned (String.ofList cs))

/-- The fields of an offset as numbers. -/
def fields (separator : Char) (offset : String) : Except OffsetFault (List Nat) :=
  (offset.toList.splitOn separator).mapM number

/-- The order of two offsets. -/
def compare : Comparator → String → String → Except OffsetFault Ordering
  | lexical, a, b => .ok (Ord.compare a b)
  | numeric, a, b => do
    let m ← number a.toList
    let n ← number b.toList
    return Ord.compare m n
  | segmented separator, a, b => do
    let ms ← fields separator a
    let ns ← fields separator b
    if ms.length = ns.length then return Ord.compare ms ns else throw (.fieldCount a b)

/-- Whether an offset is of the comparator's form. -/
def validate (c : Comparator) (offset : String) : Except OffsetFault Unit :=
  (c.compare offset offset).map fun _ => ()

end Comparator

/-- A comparator per topic, and one for all other topics. -/
structure OffsetOrder where
  fallback : Comparator
  /-- The latest choice for a topic comes first. -/
  chosen : List (String × Comparator)
deriving DecidableEq, Repr

namespace OffsetOrder

/-- The same comparator for all topics. -/
def always (c : Comparator) : OffsetOrder := ⟨c, []⟩

/-- The order with the comparator of one topic set. -/
def withTopic (o : OffsetOrder) (topic : String) (c : Comparator) : OffsetOrder :=
  { o with chosen := (topic, c) :: o.chosen }

/-- The comparator of a topic. -/
def comparator (o : OffsetOrder) (topic : String) : Comparator :=
  (o.chosen.lookup topic).getD o.fallback

/-- The order of two offsets of a topic. -/
def compare (o : OffsetOrder) (topic a b : String) : Except OffsetFault Ordering :=
  (o.comparator topic).compare a b

end OffsetOrder

end CursorCommit
