/-!
# Settings of a connection

Points in time and spans of it are natural numbers of milliseconds, here and in all that follows.
Two settings are not used as they are: the idle period is never
shorter than `minIdle`, and whether each packet is flushed by itself follows the transport
unless it is set.
-/

namespace PacketWire

/-- What carries the bytes: a stream, or datagrams, one for each flush. -/
inductive TransportKind where
  | stream
  | datagram
  deriving DecidableEq, Repr

structure ConnectionConfig where
  protocolVersion : Int32 := 1
  idleTimeout : Nat := 20000
  autoKeepAlive : Bool := false
  transport : TransportKind := .stream
  immediateFlush : Option Bool := none
  notifyControl : Bool := false
  maxFrameLength : Nat := 16 * 1024 * 1024
  deriving DecidableEq, Repr

namespace ConnectionConfig

/-- The shortest idle period that is honoured. -/
def minIdle : Nat := 10

/-- The longest span that can be set, 2 ^ 64 seconds less a fraction of the last one. -/
def maxSpan : Nat := UInt64.size * 1000 - 1

/-- Time without received packets after which a keep-alive is due. -/
def idlePeriod (c : ConnectionConfig) : Nat :=
  max c.idleTimeout minIdle

/-- Whether every packet is flushed by itself. A datagram has to hold one packet, so there it is
the default. -/
def flushEach (c : ConnectionConfig) : Bool :=
  c.immediateFlush.getD (c.transport = .datagram)

theorem minIdle_le_idlePeriod (c : ConnectionConfig) : minIdle ≤ c.idlePeriod :=
  Nat.le_max_right ..

end ConnectionConfig

end PacketWire
