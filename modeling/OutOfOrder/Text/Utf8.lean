import OutOfOrder.Text.Quoted

/-!
# Bytes as text

Text files hold UTF-8.  Bytes that are no UTF-8 are reported with the first span that cannot be
read: one byte that starts no character, the bytes of a character up to one that does not continue
it, or a character that the end of the file cuts off.
-/

namespace OutOfOrder.Text

/-- The first span of bytes that cannot be read. -/
inductive Utf8Failure where
  /-- The byte at this offset starts no character. -/
  | badStart (offset : Nat) (byte : UInt8)
  /-- A character of which `length` bytes were read is not continued. -/
  | badContinuation (offset : Nat) (byte : UInt8) (length : Nat)
  /-- The end cuts off a character of which `length` bytes are there. -/
  | cutOff (offset : Nat) (byte : UInt8) (length : Nat)

/-- The wording of a failure that spans `length` bytes, the first of which is `byte`. -/
def spanMessage (offset : Nat) (byte : UInt8) (length : Nat) (reason : String) : String :=
  let digits := String.ofList (hex 2 byte.toNat)
  let last := offset + length - 1
  let span :=
    if length == 1 then s!"byte 0x{digits} in position {offset}"
    else s!"bytes in position {offset}-{last}"
  "'utf-8' codec can't decode " ++ span ++ ": " ++ reason

def Utf8Failure.message : Utf8Failure → String
  | .badStart offset byte => spanMessage offset byte 1 "invalid start byte"
  | .badContinuation offset byte length =>
    spanMessage offset byte length "invalid continuation byte"
  | .cutOff offset byte length => spanMessage offset byte length "unexpected end of data"

/-- How a character goes on behind its first byte: the bits that the first byte contributes, the
number of bytes to follow, and the least and greatest second byte.  The bounds rule out spellings
that are too long, surrogates and code points beyond the last one. -/
structure Continuation where
  bits : Nat
  count : Nat
  low : Nat
  high : Nat

/-- The continuation after a first byte that is not ASCII, or nothing if no character starts so. -/
def continuation? (byte : Nat) : Option Continuation :=
  if byte < 0xc2 then none
  else if byte < 0xe0 then some ⟨byte - 0xc0, 1, 0x80, 0xbf⟩
  else if byte < 0xf0 then
    some ⟨byte - 0xe0, 2, if byte == 0xe0 then 0xa0 else 0x80, if byte == 0xed then 0x9f else 0xbf⟩
  else if byte < 0xf5 then
    some ⟨byte - 0xf0, 3, if byte == 0xf0 then 0x90 else 0x80, if byte == 0xf4 then 0x8f else 0xbf⟩
  else none

/-- Where reading stands: between characters, or inside one that began with the byte `first` at
offset `start`, of which `seen` bytes are read, `due` bytes are to come, and the next of them lies
between `low` and `high`. -/
inductive Utf8State where
  | between
  | inside (start : Nat) (first : UInt8) (seen due low high code : Nat)

/-- Reads the byte at an offset where a character may start. -/
def startByte (offset : Nat) (byte : UInt8) (text : List Char) :
    Except Utf8Failure (Utf8State × List Char) :=
  if byte.toNat < 0x80 then .ok (.between, Char.ofNat byte.toNat :: text)
  else match continuation? byte.toNat with
    | none => .error (.badStart offset byte)
    | some c => .ok (.inside offset byte 1 c.count c.low c.high c.bits, text)

/-- Reads one byte.  The text read so far is kept with its last character first. -/
def utf8Step (offset : Nat) (byte : UInt8) :
    Utf8State × List Char → Except Utf8Failure (Utf8State × List Char)
  | (.between, text) => startByte offset byte text
  | (.inside start first seen due low high code, text) =>
    if inRange byte.toNat low high then
      let code := code * 64 + (byte.toNat - 0x80)
      if due ≤ 1 then .ok (.between, Char.ofNat code :: text)
      else .ok (.inside start first (seen + 1) (due - 1) 0x80 0xbf code, text)
    else .error (.badContinuation start first seen)

def utf8From (offset : Nat) (state : Utf8State × List Char) :
    List UInt8 → Except Utf8Failure (List Char)
  | [] =>
    match state with
    | (.between, text) => .ok text.reverse
    | (.inside start first seen _ _ _ _, _) => .error (.cutOff start first seen)
  | byte :: rest =>
    match utf8Step offset byte state with
    | .ok next => utf8From (offset + 1) next rest
    | .error failure => .error failure

def ofUtf8 (bytes : List UInt8) : Except Utf8Failure (List Char) :=
  utf8From 0 (.between, []) bytes

end OutOfOrder.Text
