import PacketWire.FarEnd
import PacketWire.Schedule
import PacketWire.Peer.LineClient

/-!
# Exchanges with a line client

An exchange is a client with a user and a server that follow cues, one after the other. After
each cue everything runs until it waits; a cue that asks for more than has come by then is never
met, and the exchange has stalled.
-/

namespace PacketWire

namespace LineClient

/-- What happens to a client: more of its input, then bytes from the server, which may wait for so
many frames, or for the end of what the client sends, and may stop sending; and an interrupt. -/
structure Cue where
  input : Bytes
  bytes : Bytes
  frames : Nat
  untilEnd : Bool
  hangUp : Bool
  interrupt : Bool

/-- What came of an exchange: what the server received, what the client printed, and how it
ended. -/
structure Outcome where
  received : Bytes
  printed : String
  result : Except PeerError Unit

/-- A client in an exchange, with the frames that the server has waited for. -/
structure Exchange where
  client : LineClient
  schedule : Schedule
  awaited : Nat
  interrupted : Bool

namespace Exchange

/-- Lets the client and its world run in turn, for at most `fuel` stretches of the client. -/
def runFor : (fuel : Nat) → LineClient → Schedule → LineClient × Schedule
  | 0, client, s => (client, s.settle)
  | fuel + 1, client, s =>
    let s := s.settle
    match client.step s.world with
    | none => (client, s)
    | some (client, w) => runFor fuel client (s.change w)

/-- Lets the client or its world change, and everything run. -/
def change (f : LineClient → World → LineClient × World) (e : Exchange) : Exchange :=
  let (client, w) := f e.client e.schedule.world
  let (client, s) := runFor client.patience client (e.schedule.change w)
  { e with client, schedule := s.restThrough 1 }

def start (name : String) (config : ConnectionConfig) : Exchange :=
  let (client, w) := LineClient.start name config
  Exchange.change (fun client w => (client, w))
    ⟨client, (Schedule.empty 0).change w, 0, false⟩

/-- More of the client's input. -/
def type (bytes : Bytes) (e : Exchange) : Exchange :=
  if bytes.isEmpty then e
  else e.change fun client w => ({ client with input := client.input.feed bytes }, w)

/-- The end of the client's input. -/
def endInput (e : Exchange) : Exchange :=
  e.change fun client w => ({ client with input := client.input.finish .endOfStream }, w)

/-- Whether the server has read to the end of what the client sends. -/
def isOver (e : Exchange) : Bool :=
  e.schedule.world.isReleased 0 || (match e.client.stage with | .failed _ => true | _ => false)

/-- Follows a cue, if it can be met. -/
def follow (cue : Cue) (e : Exchange) : Option Exchange := do
  let e := (e.type cue.input).change fun client w => (client, w.feed 0 cue.bytes)
  let awaited := e.awaited + cue.frames
  guard (awaited ≤ e.schedule.world.framesReceived 0)
  guard (!cue.untilEnd || e.isOver)
  let e := { e with awaited }
  let e := if cue.hangUp then e.change fun client w => (client, w.hangUp 0) else e
  return if cue.interrupt then { e.change leave with interrupted := true } else e

def finish (e : Exchange) : Option Outcome := do
  let e := if e.interrupted then e else e.endInput
  guard e.isOver
  let w := e.schedule.world
  return ⟨w.received 0, printed w, ← e.client.result? w⟩

/-- Follows cues to the end. -/
def followAll (cues : List Cue) (e : Exchange) : Option Outcome := do
  (← cues.foldlM (fun e cue => follow cue e) e).finish

end Exchange

/-- The exchange of a server with a client that connects to an address; nothing where it
stalls. -/
def converse (network : Network) (address : String) (config : ConnectionConfig)
    (cues : List Cue) : Option Outcome :=
  match Target.parse address, network with
  | .error cause, _ => some ⟨[], "", .error (.target cause)⟩
  | .ok _, .unreachable => some ⟨[], "", .error .unreachable⟩
  | .ok _, .connected =>
    (Exchange.start address config).followAll cues

/-- The exchange with a server that sends nothing, of a client with this input. -/
def transmission (address : String) (config : ConnectionConfig) (input : Bytes) : Option Outcome :=
  converse .connected address config [⟨input, [], 0, false, false, false⟩]

end LineClient

end PacketWire
