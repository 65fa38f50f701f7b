import PacketWire.Utf8

/-!
# Field types and their values

A packet's payload is a row of fields. Numbers are big-endian and of fixed width, a truth value
is one byte, a text is preceded by its length in two bytes, a block has a length known to both
sides, and `rest` is whatever the frame still holds. Floating-point numbers are carried as the
bits of their IEEE form: nothing here computes with them.

`Item` is a field type together with a value of it, the unit in which payloads are written.
-/

namespace PacketWire

/-- Why a payload could not be read. -/
inductive DecodeError where
  | unexpectedEnd (needed remaining : Nat)
  | invalidUtf8 (cause : Utf8Error)
  | invalidValue (what : String)
  deriving DecidableEq, Repr

/-- Why a packet could not be written. -/
inductive EncodeError where
  | stringTooLong (size : Nat)
  | frameTooLarge (size : Nat)
  deriving DecidableEq, Repr

def DecodeError.message : DecodeError → String
  | unexpectedEnd needed remaining => s!"needed {needed} bytes but only {remaining} remain"
  | invalidUtf8 cause => s!"string is not valid UTF-8: {cause.message}"
  | invalidValue what => s!"invalid value: {what}"

def EncodeError.message : EncodeError → String
  | stringTooLong size => s!"string of {size} bytes exceeds the 65535 byte limit"
  | frameTooLarge size => s!"frame of {size} bytes does not fit a 32-bit length prefix"

/-- The kinds of field that a payload is made of. -/
inductive FieldType where
  | bool
  | u8
  | i8
  | u16
  | i16
  | i32
  | i64
  | f32
  | f64
  | str
  | block (size : Nat)
  | rest
  deriving DecidableEq, Repr

namespace FieldType

/-- The values of a field. -/
abbrev Value : FieldType → Type
  | bool => Bool
  | u8 => UInt8
  | i8 => Int8
  | u16 => UInt16
  | i16 => Int16
  | i32 => Int32
  | i64 => Int64
  | f32 => UInt32
  | f64 => UInt64
  | str => String
  | block size => { bytes : Bytes // bytes.length = size }
  | rest => Bytes

/-- The value that a field has before anything is read. -/
def initial : (t : FieldType) → t.Value
  | bool => false
  | u8 => 0
  | i8 => 0
  | u16 => 0
  | i16 => 0
  | i32 => 0
  | i64 => 0
  | f32 => 0
  | f64 => 0
  | str => ""
  | block size => ⟨List.replicate size 0, List.length_replicate⟩
  | rest => []

/-- The longest text, in bytes, that a field can hold. -/
def maxText : Nat := 65535

/-- The bytes that a value is written as. -/
def encode : (t : FieldType) → t.Value → Except EncodeError Bytes
  | bool, v => .ok [if v then 1 else 0]
  | u8, v => .ok [v]
  | i8, v => .ok [v.toUInt8]
  | u16, v => .ok (BigEndian.encode 2 v.toNat)
  | i16, v => .ok (BigEndian.encode 2 v.toUInt16.toNat)
  | i32, v => .ok (BigEndian.encode 4 v.toUInt32.toNat)
  | i64, v => .ok (BigEndian.encode 8 v.toUInt64.toNat)
  | f32, v => .ok (BigEndian.encode 4 v.toNat)
  | f64, v => .ok (BigEndian.encode 8 v.toNat)
  | str, v =>
    let bytes := Utf8.encode v
    if bytes.length ≤ maxText then .ok (BigEndian.encode 2 bytes.length ++ bytes)
    else .error (.stringTooLong bytes.length)
  | block _, v => .ok v.val
  | rest, v => .ok v

end FieldType

/-- A value with the type it is written at. -/
structure Item where
  type : FieldType
  value : type.Value

def Item.encode (item : Item) : Except EncodeError Bytes :=
  item.type.encode item.value

end PacketWire
