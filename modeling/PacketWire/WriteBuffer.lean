import PacketWire.Transport

/-!
# The write buffer

In front of the sink stands a buffer of `capacity` bytes. A slice that still fits is kept; if it
does not, the buffer is emptied into the sink first, to its last byte, and a slice as large as
the buffer then goes past it. Bytes leave the buffer only in order.
-/

namespace PacketWire

/-- The buffered bytes, and whether the buffer is being emptied to make room. -/
structure WriteBuffer where
  held : Bytes
  emptying : Bool
  deriving DecidableEq, Repr

namespace WriteBuffer

def capacity : Nat := 8192

def empty : WriteBuffer := ⟨[], false⟩

/-- One act of writing: what is left to do after it, with the buffer and the sink it leaves. -/
inductive Progress (α : Type) where
  | moved (left : α) (buffer : WriteBuffer) (sink : Sink)
  | blocked
  | failed (cause : TransportError)

/-- Whether a slice waits until the buffer is empty. -/
def mustEmpty (slice : Bytes) (b : WriteBuffer) : Bool :=
  b.emptying || capacity < b.held.length + slice.length

/-- Moves buffered bytes into the sink. -/
def drain (b : WriteBuffer) (sink : Sink) : Progress Unit :=
  match sink.offer b.held with
  | .taken count sink => .moved () ⟨b.held.drop count, true⟩ sink
  | .blocked => .blocked
  | .failed cause => .failed cause

/-- Places a slice for which there is room: in the buffer, or past it if it is as large. What is
left is the part that was not placed. -/
def place (slice : Bytes) (b : WriteBuffer) (sink : Sink) : Progress Bytes :=
  if capacity ≤ slice.length then
    match sink.offer slice with
    | .taken count sink => .moved (slice.drop count) ⟨b.held, false⟩ sink
    | .blocked => .blocked
    | .failed cause => .failed cause
  else .moved [] ⟨b.held ++ slice, false⟩ sink

/-- One act of writing a slice. -/
def write (slice : Bytes) (b : WriteBuffer) (sink : Sink) : Progress Bytes :=
  if b.mustEmpty slice && !b.held.isEmpty then
    match b.drain sink with
    | .moved _ b sink => .moved slice b sink
    | .blocked => .blocked
    | .failed cause => .failed cause
  else b.place slice sink

end WriteBuffer

end PacketWire
