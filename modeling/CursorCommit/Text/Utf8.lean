/-
  UTF-8: the bytes of a text, and what a list of bytes says.

  * `encode` writes a text, `decode` reads bytes that are UTF-8 from end to
    end, and `decodeLossy` reads any bytes;
  * `pieces` cuts bytes into characters and stretches of junk; a stretch is
    the longest start of a well-formed sequence that the bytes allow there,
    and at least one byte;
  * a `Utf8Fault` tells where the first stretch begins, how long it is, and
    whether the input ended inside it.
-/

namespace CursorCommit

/-- A part of a list of bytes read as UTF-8. -/
inductive Utf8Piece where
  | char (c : Char)
  /-- A stretch that is no character; `cutShort` if the input ended where the
      sequence could still have gone on. -/
  | junk (length : Nat) (cutShort : Bool)
deriving DecidableEq, Repr

/-- The first place where bytes are not UTF-8. -/
structure Utf8Fault where
  /-- The number of bytes before it, all well formed. -/
  index : Nat
  length : Nat
  cutShort : Bool
deriving DecidableEq, Repr

/-- The number of bytes that a piece takes. -/
def Utf8Piece.width : Utf8Piece → Nat
  | char c => c.utf8Size
  | junk length _ => length

namespace Utf8

/-- The UTF-8 bytes of a text. -/
def encode (s : String) : List UInt8 :=
  s.toList.flatMap String.utf8EncodeChar

/-- The length of the sequence that a byte from `0x80` on starts, and `1` for
    a byte that starts none. -/
def sequenceLength (a : Nat) : Nat :=
  if 0xC2 ≤ a ∧ a ≤ 0xDF then 2
  else if 0xE0 ≤ a ∧ a ≤ 0xEF then 3
  else if 0xF0 ≤ a ∧ a ≤ 0xF4 then 4
  else 1

/-- A byte that may go on a sequence. -/
def isContinuation (b : Nat) : Bool :=
  0x80 ≤ b && b ≤ 0xBF

/-- Whether `b` may follow the first byte `a`: the shortest form, the
    surrogates and the last code point restrict it after some first bytes. -/
def isSecond (a b : Nat) : Bool :=
  isContinuation b &&
    (if a = 0xE0 then 0xA0 ≤ b
     else if a = 0xED then b ≤ 0x9F
     else if a = 0xF0 then 0x90 ≤ b
     else if a = 0xF4 then b ≤ 0x8F
     else true)

/-- The piece that bytes start with, given the first of them and the rest. -/
def firstPiece (a : UInt8) (rest : List UInt8) : Utf8Piece :=
  if a.toNat < 0x80 then .char (Char.ofNat a.toNat)
  else if sequenceLength a.toNat = 1 then .junk 1 false
  else match rest with
    | [] => .junk 1 true
    | b :: rest =>
      if isSecond a.toNat b.toNat = false then .junk 1 false
      else if sequenceLength a.toNat = 2 then
        .char (Char.ofNat (a.toNat % 32 * 64 + b.toNat % 64))
      else match rest with
        | [] => .junk 2 true
        | c :: rest =>
          if isContinuation c.toNat = false then .junk 2 false
          else if sequenceLength a.toNat = 3 then
            .char (Char.ofNat (a.toNat % 16 * 4096 + b.toNat % 64 * 64 + c.toNat % 64))
          else match rest with
            | [] => .junk 3 true
            | d :: _ =>
              if isContinuation d.toNat = false then .junk 3 false
              else .char (Char.ofNat (a.toNat % 8 * 262144 + b.toNat % 64 * 4096 +
                c.toNat % 64 * 64 + d.toNat % 64))

/-- The pieces of bytes, of which the first `skip` belong to a piece before
    them. -/
def piecesFrom : (skip : Nat) → List UInt8 → List Utf8Piece
  | _, [] => []
  | skip + 1, _ :: rest => piecesFrom skip rest
  | 0, a :: rest => firstPiece a rest :: piecesFrom ((firstPiece a rest).width - 1) rest

/-- The characters and the stretches of junk of a list of bytes. -/
def pieces (bytes : List UInt8) : List Utf8Piece :=
  piecesFrom 0 bytes

/-- The characters of pieces without junk; the pieces start at byte
    `index`. -/
def assemble (index : Nat) : List Utf8Piece → Except Utf8Fault (List Char)
  | [] => .ok []
  | .char c :: ps => (assemble (index + c.utf8Size) ps).map (c :: ·)
  | .junk length cutShort :: _ => .error ⟨index, length, cutShort⟩

/-- The text that the bytes are the UTF-8 of. -/
def decode (bytes : List UInt8) : Except Utf8Fault String :=
  (assemble 0 (pieces bytes)).map String.ofList

/-- The bytes as text, with U+FFFD for each stretch of junk. -/
def decodeLossy (bytes : List UInt8) : String :=
  String.ofList ((pieces bytes).map fun
    | .char c => c
    | .junk .. => '\uFFFD')

end Utf8

/-- What is wrong with the bytes, in words. -/
def Utf8Fault.message (fault : Utf8Fault) : String :=
  if fault.cutShort then
    "incomplete utf-8 byte sequence from index " ++ toString fault.index
  else
    "invalid utf-8 sequence of " ++ toString fault.length ++ " bytes from index " ++
      toString fault.index

end CursorCommit
