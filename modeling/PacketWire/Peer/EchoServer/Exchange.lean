import PacketWire.FarEnd
import PacketWire.Schedule
import PacketWire.Peer.EchoServer
import PacketWire.Peer.Network

/-!
# Exchanges with an echo server

An exchange is a server with clients that follow cues, one after the other. After each cue
everything runs until it waits; a cue that asks for more than has come by then is never met, and
the exchange has stalled. It stalls likewise where no client reaches the server.
-/

namespace PacketWire

namespace EchoServer

/-- What a client does: it sends, it waits for so many frames, and it may interrupt the server. -/
structure Cue where
  client : Nat
  bytes : Bytes
  frames : Nat
  interrupt : Bool

/-- What came of an exchange: what each client received and, after an interrupt, that the server
returned. -/
structure Outcome where
  received : List Bytes
  returned : Bool

/-- A server in an exchange, with the frames that each client has waited for. -/
structure Exchange where
  server : EchoServer
  schedule : Schedule
  awaited : Nat → Nat

namespace Exchange

/-- Lets the server or its world change, and everything run. -/
def change (f : EchoServer → World → EchoServer × World) (e : Exchange) : Exchange :=
  let (server, w) := f e.server e.schedule.world
  { e with server, schedule := ((e.schedule.change w).restThrough server.kept.length) }

def start (config : ConnectionConfig) (deferred : Bool) (clients : Nat) : Exchange :=
  let (server, w) := EchoServer.start config deferred
  (List.range clients).foldl (fun e i => e.change (accept s!"client {i}"))
    ⟨server, ((Schedule.empty 0).change w).settle, fun _ => 0⟩

/-- Follows a cue, if it can be met. -/
def follow (cue : Cue) (e : Exchange) : Option Exchange :=
  let i := cue.client
  let e := e.change fun server w => (server, w.feed i cue.bytes)
  let awaited := e.awaited i + cue.frames
  if e.schedule.world.framesReceived i < awaited then none
  else
    let e := { e with awaited := fun j => if j = i then awaited else e.awaited j }
    some (if cue.interrupt then e.change interrupt else e)

/-- Every client that is still connected stops sending, one after the other. -/
def hangUp (clients : Nat) (e : Exchange) : Exchange :=
  (List.range clients).foldl (fun e i => e.change fun server w => (server, w.hangUp i)) e

/-- The end of an exchange: an interrupted server has returned, and every client has read to the
end of what it is sent. -/
def finish (clients : Nat) (e : Exchange) : Option Outcome := do
  let interrupted := e.server.leaving.isSome
  let e := if interrupted then e else e.hangUp clients
  let w := e.schedule.world
  guard ((List.range clients).all w.isReleased)
  guard (e.server.hasReturned w = interrupted)
  return ⟨(List.range clients).map w.received, interrupted⟩

/-- Follows cues to the end. -/
def followAll (clients : Nat) (cues : List Cue) (e : Exchange) : Option Outcome := do
  (← cues.foldlM (fun e cue => follow cue e) e).finish clients

end Exchange

/-- The exchange of clients with a server at an address; nothing where it stalls. -/
def converse (network : Network) (address : String) (config : ConnectionConfig) (deferred : Bool)
    (clients : Nat) (cues : List Cue) : Except PeerError (Option Outcome) :=
  match SocketAddress.parse? address, network with
  | none, _ => .error .listenAddress
  | some _, .unreachable => .ok none
  | some _, .connected =>
    .ok ((Exchange.start config deferred clients).followAll clients cues)

/-- What a single client receives that sends some bytes and then stops sending. -/
def answer (config : ConnectionConfig) (deferred : Bool) (bytes : Bytes) : Bytes :=
  (((Exchange.start config deferred 1).change
    fun server w => (server, w.feed 0 bytes)).hangUp 1).schedule.world.received 0

end EchoServer

end PacketWire
