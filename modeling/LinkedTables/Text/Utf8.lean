import LinkedTables.Text.Digit

set_option autoImplicit false

/-! # Bytes as text

Stored text is UTF-8. Bytes that are not are refused with the place and the kind of the
first fault: a byte that starts no character, a byte that does not continue the character
begun before it, or an end inside a character. The fault covers the bytes of the character
that were in order, so that its extent tells where reading would resume.

Text files are read line by line in mind: each of the three line ends becomes a line feed.
-/

namespace LinkedTables.Text

/-- What is wrong with a sequence of bytes that is not UTF-8. -/
inductive Utf8Fault where
  /-- A byte that cannot start a character. -/
  | start
  /-- A character begun and not continued. -/
  | continuation
  /-- The bytes end inside a character. -/
  | ending
deriving DecidableEq, Repr

/-- A fault in a sequence of bytes, with the bytes that it covers. -/
structure Utf8Error where
  /-- The kind of the fault. -/
  fault : Utf8Fault
  /-- The position of the first byte at fault. -/
  position : Nat
  /-- The first byte at fault. -/
  byte : UInt8
  /-- The number of bytes covered. -/
  extent : Nat
deriving DecidableEq, Repr

/-- Whether a byte continues a character. -/
def isContinuation (b : UInt8) : Bool := 0x80 ≤ b && b < 0xC0

/-- The number of bytes that a first byte announces after it, and the range in which the
second byte must lie; `none` for a byte that starts no character. The narrowed ranges rule
out overlong forms, surrogates and what lies beyond the last code point. -/
def announced (b : UInt8) : Option (Nat × UInt8 × UInt8) :=
  if b < 0x80 then some (0, 0x80, 0xBF)
  else if b < 0xC2 then none
  else if b < 0xE0 then some (1, 0x80, 0xBF)
  else if b == 0xE0 then some (2, 0xA0, 0xBF)
  else if b == 0xED then some (2, 0x80, 0x9F)
  else if b < 0xF0 then some (2, 0x80, 0xBF)
  else if b == 0xF0 then some (3, 0x90, 0xBF)
  else if b < 0xF4 then some (3, 0x80, 0xBF)
  else if b == 0xF4 then some (3, 0x80, 0x8F)
  else none

/-- Checks the bytes after a first byte: `wanted` of them, the next one between `low` and
`high` and all later ones continuing. The bytes seen so far number `seen`. -/
def checkRest : Nat → UInt8 → UInt8 → Nat → List UInt8 → Except (Utf8Fault × Nat) Nat
  | 0, _, _, seen, _ => .ok seen
  | _ + 1, _, _, seen, [] => .error (.ending, seen)
  | wanted + 1, low, high, seen, b :: bs =>
    if low ≤ b ∧ b ≤ high then checkRest wanted 0x80 0xBF (seen + 1) bs
    else .error (.continuation, seen)

/-- Checks one character at the front of the bytes and gives the number of its bytes. -/
def checkChar : List UInt8 → Except (Utf8Fault × Nat) Nat
  | [] => .ok 0
  | b :: bs =>
    match announced b with
    | none => .error (.start, 1)
    | some (wanted, low, high) => checkRest wanted low high 1 bs

/-- The first fault in a sequence of bytes that starts at `position`; the first argument
is a bound on its length. -/
def findFault : Nat → Nat → List UInt8 → Option Utf8Error
  | 0, _, _ => none
  | _ + 1, _, [] => none
  | bound + 1, position, b :: bs =>
    match checkChar (b :: bs) with
    | .error (fault, extent) => some { fault, position, byte := b, extent }
    | .ok n => findFault bound (position + n) ((b :: bs).drop n)

/-- The text that the bytes spell, or the first fault. -/
def decodeUtf8 (bytes : ByteArray) : Except (Option Utf8Error) String :=
  match String.fromUTF8? bytes with
  | some s => .ok s
  | none => .error (findFault bytes.size 0 bytes.toList)

/-- What a fault is called. -/
def Utf8Fault.reason : Utf8Fault → String
  | .start => "invalid start byte"
  | .continuation => "invalid continuation byte"
  | .ending => "unexpected end of data"

/-- The message for a fault: one byte is named, several are given by their positions. -/
def Utf8Error.message (e : Utf8Error) : String :=
  let place :=
    if e.extent = 1 then
      "byte 0x" ++ String.ofList (hexDigits 2 e.byte.toNat) ++ " in position " ++ e.position.repr
    else
      "bytes in position " ++ e.position.repr ++ "-" ++ (e.position + e.extent - 1).repr
  "'utf-8' codec can't decode " ++ place ++ ": " ++ e.fault.reason

example : (findFault 9 0 [0x61, 0xFF]).map Utf8Error.extent = some 1 := by decide

example : findFault 9 0 [0xE2, 0x82] = some ⟨.ending, 0, 0xE2, 2⟩ := by decide

example : findFault 9 0 [0xE2, 0x28, 0xA1] = some ⟨.continuation, 0, 0xE2, 1⟩ := by decide

/-! ## Line ends -/

/-- A text with each carriage return, alone or before a line feed, made a line feed. -/
def unifyLineEnds : List Char → List Char
  | '\r' :: '\n' :: cs => '\n' :: unifyLineEnds cs
  | c :: cs => (if c = '\r' then '\n' else c) :: unifyLineEnds cs
  | [] => []

example : unifyLineEnds ['a', '\r', '\n', '\r', 'b'] = ['a', '\n', '\n', 'b'] := by decide

end LinkedTables.Text
