import PacketWire.Frame
import PacketWire.Packet.Registry

/-!
# What can go wrong with a connection

An error is its cause; `Error.message` is the wording. A transport error is a failure to read or
write below the connection; when it says that the stream is over, the peer has merely gone, and
the connection closes instead of failing.
-/

namespace PacketWire

/-- A failed read or write. -/
structure TransportError where
  endOfStream : Bool
  text : String
  deriving DecidableEq, Repr

inductive Error where
  | protocolViolation (why : Violation)
  | decode (id : PacketId) (cause : DecodeError)
  | encode (id : PacketId) (cause : EncodeError)
  | transport (cause : TransportError)
  | closed
  | alreadyClaimed
  | registration (cause : RegistrationError)
  | noRuntime
  deriving DecidableEq, Repr

namespace Error

def message : Error → String
  | protocolViolation why => s!"protocol violation: {why.message}"
  | decode id cause => s!"parsing packet with id {id.toInt} failed: {cause.message}"
  | encode id cause => s!"encoding packet with id {id.toInt} failed: {cause.message}"
  | transport cause => cause.text
  | closed => "connection is closed"
  | alreadyClaimed => "external packet processing is already claimed"
  | registration cause => cause.message
  | noRuntime => "no tokio runtime available to drive the connection"

/-- The wording of the error behind this one, where there is one. -/
def sourceMessage? : Error → Option String
  | decode _ cause => some cause.message
  | encode _ cause => some cause.message
  | _ => none

/-- Whether the peer has simply gone. -/
def isEndOfStream : Error → Bool
  | transport cause => cause.endOfStream
  | _ => false

end Error

end PacketWire
