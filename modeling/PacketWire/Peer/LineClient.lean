import PacketWire.Peer.Lines
import PacketWire.Peer.Network
import PacketWire.Peer.Text
import PacketWire.World

/-!
# The line client

A line client asks for the version of the other side, sends each line of its input as a text
packet and prints the lines that it receives. When the input ends, when it is interrupted or when
the connection takes no more packets, it closes the connection and waits for it. A line that is
no text ends it at once.

The client's world has one connection. `step` is one stretch of the client itself; everything
else is the world's own doing.
-/

namespace PacketWire

/-- How far a line client is. -/
inductive LineClient.Stage where
  | reading
  /-- A task closes the connection and awaits it. -/
  | leaving (task : Nat)
  | failed (cause : PeerError)

structure LineClient where
  /-- The input that has not been read. -/
  input : Source
  /-- What was read and has not been sent. -/
  held : Bytes
  stage : LineClient.Stage

namespace LineClient

/-- How the connection to a server of this name is set up. -/
def setup (name : String) (config : ConnectionConfig) : Connection.Setup :=
  { name, config, listener := some .silent, registry := .peer }

/-- A client that has just connected, and its world. -/
def start (name : String) (config : ConnectionConfig) : LineClient × World :=
  (⟨.empty, [], .reading⟩,
    ((World.empty 0).start (setup name config)).onConn 0
      fun c => Connection.tryTo (c.sendHandshake .request) c)

/-- Begins to close the connection, if the client is still reading. -/
def leave (client : LineClient) (w : World) : LineClient × World :=
  match client.stage with
  | .reading =>
    ({ client with stage := .leaving w.tasks.length },
      w.spawn (.running (.errands [.close 0, .join 0] none)))
  | _ => (client, w)

/-- Sends a line; a connection that takes no more packets ends the client. -/
def sendLine (line : Bytes) (client : LineClient) (w : World) : LineClient × World :=
  match Line.text line with
  | .error cause => ({ client with stage := .failed (.line cause) }, w)
  | .ok text =>
    match w.conns[0]? with
    | none => client.leave w
    | some c =>
      match c.send (.text text) with
      | .ok after => (client, w.put 0 c after)
      | .error _ => client.leave w

/-- One stretch of the client, if it need not wait: it sends a line that it holds, or else reads
on. -/
def step (client : LineClient) (w : World) : Option (LineClient × World) :=
  match client.stage with
  | .reading =>
    match Line.takeFirst client.held with
    | some (line, held) => some ({ client with held }.sendLine line w)
    | none =>
      match client.input.chunks, client.input.ending with
      | chunk :: chunks, _ =>
        some ({ client with
          held := client.held ++ chunk
          input := { client.input with chunks } }, w)
      | [], none => none
      | [], some (.failure cause) => some ({ client with stage := .failed (.input cause) }, w)
      | [], some .endOfStream =>
        if client.held.isEmpty then some (client.leave w)
        else some ({ client with held := [] }.sendLine client.held w)
  | _ => none

/-- How the client ended, if it has. -/
def result? (client : LineClient) (w : World) : Option (Except PeerError Unit) :=
  match client.stage with
  | .reading => none
  | .leaving task => (w.tasks[task]?.bind (·.outcome?)).map fun _ => .ok ()
  | .failed cause => some (.error cause)

/-- What the client printed: the lines it received, each with a line feed. -/
def printed (w : World) : String :=
  String.join (w.trace.reverse.map fun record =>
    match record.call with
    | .packet packet => (packet.text?.map (· ++ "\n")).getD ""
    | _ => "")

/-- More stretches than the client can take with the input it has: each takes a byte or a chunk
off it, or is the last. -/
def patience (client : LineClient) : Nat :=
  client.held.length + client.input.chunks.foldr (·.length + 1 + ·) 2

end LineClient

end PacketWire
