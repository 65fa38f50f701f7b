import PacketWire.Codec.Basic

/-!
# Writing a packet

An encoder holds the bytes of a packet so far, the id first. A write that fails leaves it as it
was, and writing may go on.
-/

namespace PacketWire

/-- Packet ids. The negative ones belong to the control packets. -/
abbrev PacketId := Int16

structure Encoder where
  held : Bytes
  deriving DecidableEq, Repr

namespace Encoder

/-- A new encoder holds the id of its packet. -/
def new (id : PacketId) : Encoder :=
  ⟨BigEndian.encode 2 id.toUInt16.toNat⟩

def size (e : Encoder) : Nat := e.held.length

def isEmpty (e : Encoder) : Bool := e.held.isEmpty

def append (bytes : Bytes) (e : Encoder) : Encoder :=
  ⟨e.held ++ bytes⟩

/-- Writes one item behind what is held. -/
def write (item : Item) (e : Encoder) : Except EncodeError Encoder :=
  item.encode.map e.append

@[simp] theorem held_append (bytes : Bytes) (e : Encoder) :
    (e.append bytes).held = e.held ++ bytes := rfl

@[simp] theorem size_new (id : PacketId) : (new id).size = 2 := by
  simp [new, size]

end Encoder

end PacketWire
