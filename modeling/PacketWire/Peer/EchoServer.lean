import PacketWire.Peer.Text
import PacketWire.World

/-!
# The echo server

An echo server sends every line of text back to the peer it came from. It keeps a list of the
connections that it accepted; with each new one it forgets those that are no longer active. When
it is interrupted it closes the connections on its list one after the other, then waits for each
of them, and then it has returned. With deferred delivery all its connections share one work
queue, and a processor drains that for as long as there are connections.

The server changes a world in two ways, `accept` and `interrupt`; what happens in between is the
world's own doing.
-/

namespace PacketWire

structure EchoServer where
  config : ConnectionConfig
  delivery : Delivery
  /-- The accepted connections, less those that had been forgotten at the last acceptance. -/
  kept : List Nat
  /-- The task that closes and awaits them, once the server is interrupted. -/
  leaving : Option Nat

namespace EchoServer

/-- Answers a line of text with the same line. -/
def echo : Listener where
  react _ call :=
    match call with
    | .packet packet =>
      match packet.text? with
      | some line => [.send (.text line)]
      | none => []
    | _ => []

/-- A server that has accepted nobody, and its world. -/
def start (config : ConnectionConfig) (deferred : Bool) : EchoServer × World :=
  if deferred then (⟨config, .deferred 0, [], none⟩, (World.empty 1).spawn (.processor 0))
  else (⟨config, .inline, [], none⟩, .empty 0)

/-- How a connection with a peer of this name is set up. -/
def setup (name : String) (s : EchoServer) : Connection.Setup :=
  { name, config := s.config, listener := some echo, delivery := s.delivery, registry := .peer }

/-- Whether a connection can still be used. -/
def isActive (w : World) (i : Nat) : Bool :=
  (w.conns[i]?.map (·.isActive)).getD false

/-- Tells the processor, if there is one, that a connection was accepted. -/
def announce (s : EchoServer) (w : World) : World :=
  match s.delivery with
  | .inline => w
  | .deferred queue => w.modifyQueue queue .announce

/-- Accepts a peer, unless the server is leaving. -/
def accept (name : String) (s : EchoServer) (w : World) : EchoServer × World :=
  match s.leaving with
  | some _ => (s, w)
  | none =>
    ({ s with kept := s.kept.filter (isActive w) ++ [w.conns.length] },
      s.announce (w.start (s.setup name)))

/-- What the server does before it returns: it closes every connection on its list, and then
awaits every one. -/
def leave (s : EchoServer) : Task :=
  .running (.errands (s.kept.map .close ++ s.kept.map .join) none)

/-- Interrupts the server; a second interrupt changes nothing. -/
def interrupt (s : EchoServer) (w : World) : EchoServer × World :=
  match s.leaving with
  | some _ => (s, w)
  | none => ({ s with leaving := some w.tasks.length }, w.spawn s.leave)

/-- Whether the server has returned. -/
def hasReturned (s : EchoServer) (w : World) : Bool :=
  ((s.leaving.bind (w.tasks[·]?)).bind (·.outcome?)).isSome

@[simp] theorem react_echo_text (n : Nat) (line : String) :
    echo.react n (.packet (.text line)) = [.send (.text line)] := rfl

end EchoServer

end PacketWire
