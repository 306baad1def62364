/-
  Text in double quotes, for messages.

  The quote, the backslash and the usual control characters have an escape of
  one letter; every other character that would not show (`isUnseen`) is
  written by its code point as `\u`, braces and lower-case hexadecimal
  digits; all else, the single quote included, stands for itself.
-/
import CursorCommit.Text.Unseen

namespace CursorCommit.Text

/-- The escape of a character by its code point. -/
def codePointEscape (c : Char) : List Char :=
  ['\\', 'u', '\x7b'] ++ Nat.toDigits 16 c.toNat ++ ['\x7d']

/-- A character as it is written between the quotes. -/
def quoteChar (c : Char) : List Char :=
  if c = '"' then ['\\', '"']
  else if c = '\\' then ['\\', '\\']
  else if c = '\n' then ['\\', 'n']
  else if c = '\r' then ['\\', 'r']
  else if c = '\t' then ['\\', 't']
  else if c.toNat = 0 then ['\\', '0']
  else if isUnseen c then codePointEscape c
  else [c]

/-- The text in quotes. -/
def quoted (s : String) : String :=
  String.ofList ('"' :: s.toList.flatMap quoteChar ++ ['"'])

/-- A combining mark would be drawn over the letter before it. -/
example : quoted "a\te\u0301" = "\"a\\te\\u\x7b301\x7d\"" := by
  decide +kernel

end CursorCommit.Text
