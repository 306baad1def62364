/-
  JSON texts: a reader, and the pieces of a compact writer.

  `Json.parse` reads one value with blanks around it.  Strings are kept as
  code units, since an escape may name half of a surrogate pair; such a
  string is well formed as JSON but has no text (`Json.text?`).  What a
  number is worth is not kept.

  `Json.fields` reads a record with given field names, either an object that
  has each of them once, and perhaps others, or an array of their values in
  order.
-/

namespace CursorCommit

/-- A JSON value. -/
inductive Json where
  | null
  | bool (b : Bool)
  | number
  /-- A string by its code points, with surrogates as they were written. -/
  | string (units : List Nat)
  | array (values : List Json)
  | object (members : List (List Nat × Json))

namespace Json

/-! ## Reading -/

/-- The blanks between JSON tokens. -/
def isGap (c : Char) : Bool :=
  c == ' ' || c == '\n' || c == '\t' || c == '\r'

/-- The text from the next token on. -/
def skipGap (cs : List Char) : List Char :=
  cs.dropWhile isGap

/-- The value of a hexadecimal digit. -/
def hexDigit? (c : Char) : Option Nat :=
  if c.isDigit then some (c.toNat - '0'.toNat)
  else if 'a' ≤ c ∧ c ≤ 'f' then some (c.toNat - 'a'.toNat + 10)
  else if 'A' ≤ c ∧ c ≤ 'F' then some (c.toNat - 'A'.toNat + 10)
  else none

/-- The character that an escape of one letter stands for. -/
def shortEscape? : Char → Option Char
  | '"' => some '"'
  | '\\' => some '\\'
  | '/' => some '/'
  | 'b' => some '\x08'
  | 'f' => some '\x0c'
  | 'n' => some '\n'
  | 'r' => some '\r'
  | 't' => some '\t'
  | _ => none

/-- Reads a string after its opening quote, and gives what follows it. -/
def readString : List Char → Option (List Nat × List Char)
  | [] => none
  | '"' :: rest => some ([], rest)
  | '\\' :: 'u' :: a :: b :: c :: d :: rest => do
    let unit := (← hexDigit? a) * 4096 + (← hexDigit? b) * 256 + (← hexDigit? c) * 16 +
      (← hexDigit? d)
    let (units, rest) ← readString rest
    return (unit :: units, rest)
  | '\\' :: c :: rest => do
    let c ← shortEscape? c
    let (units, rest) ← readString rest
    return (c.toNat :: units, rest)
  | c :: rest => do
    if c.toNat < 0x20 ∨ c = '\\' then none
    let (units, rest) ← readString rest
    return (c.toNat :: units, rest)

/-- What follows at least one digit. -/
def skipDigits : List Char → Option (List Char)
  | c :: rest => if c.isDigit then some (rest.dropWhile Char.isDigit) else none
  | [] => none

/-- What follows the whole part of a number, which has no leading zero. -/
def skipWhole : List Char → Option (List Char)
  | '0' :: rest => if (rest.head?.all fun c => !c.isDigit) then some rest else none
  | cs => skipDigits cs

/-- What follows a fraction, if there is one. -/
def skipFraction : List Char → Option (List Char)
  | '.' :: rest => skipDigits rest
  | cs => some cs

/-- What follows an exponent, if there is one. -/
def skipExponent : List Char → Option (List Char)
  | c :: rest =>
    if c = 'e' ∨ c = 'E' then
      match rest with
      | '+' :: rest | '-' :: rest => skipDigits rest
      | rest => skipDigits rest
    else some (c :: rest)
  | [] => some []

/-- What follows a number. -/
def skipNumber (cs : List Char) : Option (List Char) := do
  let whole ← skipWhole (if cs.head? = some '-' then cs.tail else cs)
  skipExponent (← skipFraction whole)

mutual

/-- Reads a value, nested at most as deep as the fuel allows, and gives what
    follows it. -/
def readValue : Nat → List Char → Option (Json × List Char)
  | 0, _ => none
  | fuel + 1, cs =>
    match skipGap cs with
    | 'n' :: 'u' :: 'l' :: 'l' :: rest => some (null, rest)
    | 't' :: 'r' :: 'u' :: 'e' :: rest => some (bool true, rest)
    | 'f' :: 'a' :: 'l' :: 's' :: 'e' :: rest => some (bool false, rest)
    | '"' :: rest => (readString rest).map fun (units, rest) => (string units, rest)
    | '[' :: rest =>
      match skipGap rest with
      | ']' :: rest => some (array [], rest)
      | rest => (readElements fuel rest).map fun (values, rest) => (array values, rest)
    | '\x7b' :: rest =>
      match skipGap rest with
      | '\x7d' :: rest => some (object [], rest)
      | rest => (readMembers fuel rest).map fun (members, rest) => (object members, rest)
    | cs => (skipNumber cs).map fun rest => (number, rest)

/-- Reads the elements of an array from the first one to the closing
    bracket. -/
def readElements : Nat → List Char → Option (List Json × List Char)
  | 0, _ => none
  | fuel + 1, cs => do
    let (value, rest) ← readValue fuel cs
    match skipGap rest with
    | ',' :: rest =>
      let (values, rest) ← readElements fuel rest
      return (value :: values, rest)
    | ']' :: rest => return ([value], rest)
    | _ => none

/-- Reads the members of an object from the first one to the closing
    brace. -/
def readMembers : Nat → List Char → Option (List (List Nat × Json) × List Char)
  | 0, _ => none
  | fuel + 1, cs => do
    let '"' :: rest := skipGap cs | none
    let (name, rest) ← readString rest
    let ':' :: rest := skipGap rest | none
    let (value, rest) ← readValue fuel rest
    match skipGap rest with
    | ',' :: rest =>
      let (members, rest) ← readMembers fuel rest
      return ((name, value) :: members, rest)
    | '\x7d' :: rest => return ([(name, value)], rest)
    | _ => none

end

/-- The value that a text is, with blanks around it.  Each level of nesting
    takes two units of fuel and at least one character. -/
def parse (text : String) : Option Json := do
  let (value, rest) ← readValue (2 * text.length + 2) text.toList
  if skipGap rest = [] then some value else none

/-! ## Strings and records -/

/-- The characters of a string, with each surrogate pair joined, if there are
    no surrogates beside. -/
def joinSurrogates : List Nat → Option (List Char)
  | [] => some []
  | high :: low :: rest =>
    if 0xD800 ≤ high ∧ high < 0xDC00 then
      if 0xDC00 ≤ low ∧ low < 0xE000 then
        (joinSurrogates rest).map
          (Char.ofNat (0x10000 + (high - 0xD800) * 0x400 + (low - 0xDC00)) :: ·)
      else none
    else if 0xDC00 ≤ high ∧ high < 0xE000 then none
    else (joinSurrogates (low :: rest)).map (Char.ofNat high :: ·)
  | [unit] => if 0xD800 ≤ unit ∧ unit < 0xE000 then none else some [Char.ofNat unit]

/-- The text of code units. -/
def unitsText? (units : List Nat) : Option String :=
  (joinSurrogates units).map String.ofList

/-- The text of a string value. -/
def text? : Json → Option String
  | string units => unitsText? units
  | _ => none

/-- The values of a record's fields, in the order of their names. -/
def fields (names : List String) : Json → Option (List Json)
  | array values => if values.length = names.length then some values else none
  | object members => do
    let named ← members.mapM fun (name, value) => (unitsText? name).map (·, value)
    names.mapM fun name =>
      match named.filter (·.1 = name) with
      | [(_, value)] => some value
      | _ => none
  | _ => none

/-! ## Writing -/

/-- A character as it is written in a string. -/
def writeChar (c : Char) : List Char :=
  if c = '"' then ['\\', '"']
  else if c = '\\' then ['\\', '\\']
  else if c = '\x08' then ['\\', 'b']
  else if c = '\x0c' then ['\\', 'f']
  else if c = '\n' then ['\\', 'n']
  else if c = '\r' then ['\\', 'r']
  else if c = '\t' then ['\\', 't']
  else if c.toNat < 0x20 then
    ['\\', 'u', '0', '0', Nat.digitChar (c.toNat / 16), Nat.digitChar (c.toNat % 16)]
  else [c]

/-- A text as a JSON string. -/
def writeString (s : String) : String :=
  String.ofList ('"' :: s.toList.flatMap writeChar ++ ['"'])

/-- An object with its members' values as JSON texts. -/
def writeObject (members : List (String × String)) : String :=
  "\x7b" ++ String.intercalate "," (members.map fun (name, value) => writeString name ++ ":" ++ value)
    ++ "\x7d"

end Json

end CursorCommit
