import PacketWire.World

/-!
# The far end of a connection

What somebody at the other end of a connection's transport can see and do: read what the
connection has handed on, send more, and stop sending.
-/

namespace PacketWire

namespace World

/-- All bytes that a connection has handed to its transport. -/
def received (w : World) (i : Nat) : Bytes :=
  (w.conns[i]?.map (·.sink.taken)).getD []

/-- The complete frames among them. -/
def framesReceived (w : World) (i : Nat) : Nat :=
  (Frame.bodies Frame.maxBody (w.received i)).length

/-- Gives a connection more input. -/
def feed (i : Nat) (bytes : Bytes) (w : World) : World :=
  if bytes.isEmpty then w
  else w.modifyConn i fun c => { c with source := c.source.feed bytes }

/-- Ends the input of a connection. -/
def hangUp (i : Nat) (w : World) : World :=
  w.modifyConn i fun c => { c with source := c.source.finish .endOfStream }

/-- Whether a connection has let go of its transport. -/
def isReleased (w : World) (i : Nat) : Bool :=
  (w.conns[i]?.map (·.sink.released.isSome)).getD false

end World

end PacketWire
