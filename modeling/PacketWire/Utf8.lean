import PacketWire.Bytes

/-!
# UTF-8 text

Text is written as UTF-8. Reading it back is a machine that takes one byte at a time and
remembers the character it is in: where that began, how many bytes of it were taken, how many
are still owed, and which values the next one may have. The ranges after a first byte shut out
overlong forms, surrogates and values past the last code point.

Where a byte string is no text, the error names the first byte of the offending character and
how many of its bytes could have begun one; a character that the end of the string cuts short
has no such length.
-/

namespace PacketWire

/-- Why a byte string is not UTF-8: the index of the first byte of the offending character, and
the number of bytes that already rule it out, or `none` if it is merely cut short. -/
structure Utf8Error where
  index : Nat
  length : Option Nat
  deriving DecidableEq, Repr

namespace Utf8Error

def message : Utf8Error → String
  | ⟨index, some length⟩ => s!"invalid utf-8 sequence of {length} bytes from index {index}"
  | ⟨index, none⟩ => s!"incomplete utf-8 byte sequence from index {index}"

end Utf8Error

namespace Utf8

/-- The UTF-8 bytes of a text. -/
def encode (text : String) : Bytes :=
  text.toList.flatMap String.utf8EncodeChar

/-- A character of which some bytes are still owed: the index it began at, the bytes taken, the
bytes owed, the range of the next byte, and the value read so far. -/
structure Unfinished where
  start : Nat
  taken : Nat
  owed : Nat
  low : UInt8
  high : UInt8
  value : Nat
  deriving DecidableEq, Repr

/-- What a first byte from `0x80` on begins at `index`, if it begins anything. -/
def begin? (index : Nat) (byte : UInt8) : Option Unfinished :=
  let value := byte.toNat
  if byte < 0xC2 then none
  else if byte < 0xE0 then some ⟨index, 1, 1, 0x80, 0xBF, value % 32⟩
  else if byte = 0xE0 then some ⟨index, 1, 2, 0xA0, 0xBF, 0⟩
  else if byte = 0xED then some ⟨index, 1, 2, 0x80, 0x9F, 13⟩
  else if byte < 0xF0 then some ⟨index, 1, 2, 0x80, 0xBF, value % 16⟩
  else if byte = 0xF0 then some ⟨index, 1, 3, 0x90, 0xBF, 0⟩
  else if byte < 0xF4 then some ⟨index, 1, 3, 0x80, 0xBF, value % 8⟩
  else if byte = 0xF4 then some ⟨index, 1, 3, 0x80, 0x8F, 4⟩
  else none

/-- The machine: `index` counts the bytes taken, `before` holds the characters read, latest
first. -/
def scan (index : Nat) (within : Option Unfinished) (before : List Char) :
    Bytes → Except Utf8Error (List Char)
  | [] =>
    match within with
    | none => .ok before.reverse
    | some u => .error ⟨u.start, none⟩
  | byte :: rest =>
    match within with
    | none =>
      if byte < 0x80 then scan (index + 1) none (Char.ofNat byte.toNat :: before) rest
      else
        match begin? index byte with
        | none => .error ⟨index, some 1⟩
        | some u => scan (index + 1) (some u) before rest
    | some u =>
      if byte < u.low || u.high < byte then .error ⟨u.start, some u.taken⟩
      else
        let value := u.value * 64 + byte.toNat % 64
        if u.owed = 1 then scan (index + 1) none (Char.ofNat value :: before) rest
        else
          scan (index + 1) (some ⟨u.start, u.taken + 1, u.owed - 1, 0x80, 0xBF, value⟩) before rest

/-- The characters that a byte string writes. -/
def decodeChars (bytes : Bytes) : Except Utf8Error (List Char) :=
  scan 0 none [] bytes

/-- The text that a byte string writes. -/
def decode (bytes : Bytes) : Except Utf8Error String :=
  (decodeChars bytes).map String.ofList

/-- The number of bytes that a text takes. -/
def size (text : String) : Nat :=
  text.utf8ByteSize

end Utf8

end PacketWire
