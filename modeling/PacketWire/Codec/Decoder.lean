import PacketWire.Codec.Basic

/-!
# Reading a payload

A decoder holds the bytes that are still unread. Every read answers with a result and with the
decoder it leaves behind, since reading may go on after a failure: a number or a block that is
cut short takes nothing, while a text may fail after its length, or even its body, was taken.
-/

namespace PacketWire

structure Decoder where
  unread : Bytes
  deriving DecidableEq, Repr

namespace Decoder

/-- What a read gives: its result, and what is unread after it. -/
abbrev Reading (α : Type) := Except DecodeError α × Decoder

def remaining (d : Decoder) : Nat := d.unread.length

/-- Takes the next `n` bytes, or nothing if there are fewer. -/
def take (n : Nat) (d : Decoder) : Reading { bytes : Bytes // bytes.length = n } :=
  if h : (d.unread.take n).length = n then (.ok ⟨d.unread.take n, h⟩, ⟨d.unread.drop n⟩)
  else (.error (.unexpectedEnd n d.remaining), d)

/-- Takes a big-endian number of `width` bytes. -/
def number {α : Type} (width : Nat) (f : Nat → α) (d : Decoder) : Reading α :=
  match d.take width with
  | (.ok bytes, d) => (.ok (f (BigEndian.decode bytes.val)), d)
  | (.error e, d) => (.error e, d)

/-- Takes a text: its length, then its body, which has to be UTF-8. -/
def text (d : Decoder) : Reading String :=
  match d.number 2 id with
  | (.error e, d) => (.error e, d)
  | (.ok size, d) =>
    match d.take size with
    | (.error e, d) => (.error e, d)
    | (.ok body, d) =>
      match Utf8.decode body.val with
      | .ok text => (.ok text, d)
      | .error cause => (.error (.invalidUtf8 cause), d)

/-- Takes all that is unread. -/
def all (d : Decoder) : Bytes × Decoder :=
  (d.unread, ⟨[]⟩)

/-- Takes a value of the given type. -/
def read : (t : FieldType) → Decoder → Reading t.Value
  | .bool, d => d.number 1 (· != 0)
  | .u8, d => d.number 1 UInt8.ofNat
  | .i8, d => d.number 1 fun n => (UInt8.ofNat n).toInt8
  | .u16, d => d.number 2 UInt16.ofNat
  | .i16, d => d.number 2 fun n => (UInt16.ofNat n).toInt16
  | .i32, d => d.number 4 fun n => (UInt32.ofNat n).toInt32
  | .i64, d => d.number 8 fun n => (UInt64.ofNat n).toInt64
  | .f32, d => d.number 4 UInt32.ofNat
  | .f64, d => d.number 8 UInt64.ofNat
  | .str, d => d.text
  | .block size, d => d.take size
  | .rest, d => (.ok d.all.1, d.all.2)

end Decoder

end PacketWire
