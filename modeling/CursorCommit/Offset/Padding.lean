/-
  The form in which offsets are handed out: padded with zeros on the left to
  a fixed width.  A longer offset is left as it is.
-/

namespace CursorCommit

/-- The offset, padded to the width in characters. -/
def padOffset (width : Nat) (offset : String) : String :=
  String.ofList (offset.toList.leftpad width '0')

/-- The usual width of an offset that is handed out. -/
def defaultOffsetWidth : Nat := 18

theorem length_padOffset (width : Nat) (offset : String) :
    (padOffset width offset).length = max width offset.length := by
  have := offset.length_toList
  simp only [padOffset, String.length_ofList, List.leftpad, List.length_append,
    List.length_replicate]
  omega

theorem padOffset_of_le {width : Nat} {offset : String} (h : width ≤ offset.length) :
    padOffset width offset = offset := by
  have : width - offset.toList.length = 0 := by rw [offset.length_toList]; omega
  simp [padOffset, List.leftpad, this]

end CursorCommit
