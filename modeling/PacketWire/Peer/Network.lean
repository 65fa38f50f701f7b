import PacketWire.Error
import PacketWire.Peer.Address

/-!
# What a peer depends on

Peers meet on a network, on which they can or cannot reach each other. A peer that cannot do its
work ends with the reason.
-/

namespace PacketWire

/-- Whether peers can reach each other. -/
inductive Network where
  | connected
  | unreachable
  deriving DecidableEq, Repr

/-- Why a peer ended without having done its work. -/
inductive PeerError where
  /-- There is no such address to listen on. -/
  | listenAddress
  | target (cause : TargetError)
  | unreachable
  /-- A line of the input is no text. -/
  | line (cause : Utf8Error)
  /-- The input cannot be read. -/
  | input (cause : TransportError)
  deriving DecidableEq, Repr

namespace PeerError

def message : PeerError → String
  | listenAddress => "invalid socket address syntax"
  | target .noService => "invalid socket address"
  | target .badService => "invalid port value"
  | unreachable => "Network is unreachable (os error 101)"
  | line cause => cause.message
  | input cause => cause.text

end PeerError

end PacketWire
