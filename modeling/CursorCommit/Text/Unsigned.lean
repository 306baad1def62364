/-
  Unsigned decimal numbers of a bounded size.

  A numeral is an optional `+` followed by at least one ASCII digit; leading
  zeros are allowed, blanks and other signs are not.  `readUnsigned` refuses
  a value that does not lie below its limit.
-/

namespace CursorCommit.Text

/-- The value of a non-empty list of ASCII digits. -/
def readDigits (cs : List Char) : Option Nat :=
  if cs ≠ [] ∧ cs.all Char.isDigit = true then some (Nat.ofDigitChars 10 cs 0) else none

/-- The digits of a numeral: all of it but one leading `+`. -/
def unsigned : List Char → List Char
  | '+' :: cs => cs
  | cs => cs

/-- The value of a numeral, if it is below `limit`. -/
def readUnsigned (limit : Nat) (cs : List Char) : Option Nat :=
  (readDigits (unsigned cs)).filter (· < limit)

/-- One more than the largest 32-bit number. -/
def limit32 : Nat := UInt32.size

/-- One more than the largest 64-bit number. -/
def limit64 : Nat := UInt64.size

end CursorCommit.Text
