import PacketWire.FarEnd
import PacketWire.Session

/-!
# Runs

A run starts from a world without connections. From there anything may happen, one thing after
the other: an actor takes a stretch, time passes, a connection is started, a caller begins or gives
up a task or calls a connection, and transports do what transports do. `Reachable` is about every
order of such happenings.
-/

namespace PacketWire

/-- What an application asks of a connection and gets at once. -/
inductive Call where
  | send (packet : Packet)
  | handshake (kind : HandshakeKind)
  | register (type : Announcement)

/-- What the transport of a connection does from outside: bytes arrive, the input ends, or the
conditions change under which bytes are taken. -/
inductive Transit where
  | feed (chunk : Bytes)
  | finish (ending : Ending)
  | weather (room : Option Nat) (writeFailure flushFailure : Option TransportError)
      (flushStalls shutdownStalls : Bool)

/-- A connection as plain as it can be. -/
def Session.Opening.plain : Session.Opening :=
  { name := "", config := {}, listener := none, delivery := .inline, registrations := [] }

inductive Happening where
  | run (actor : Actor)
  | pass (span : Nat)
  | start (opening : Session.Opening)
  | errands (todo : List Errand)
  | collect (conn : Nat)
  | process (queue : Nat) (resident : Bool)
  | abort (task : Nat)
  | announce (queue : Nat)
  | call (conn : Nat) (call : Call)
  | transit (conn : Nat) (transit : Transit)
  /-- The next bytes that the first connection handed on reach the second. -/
  | carry (source target count : Nat)

/-- So many stretches of an actor, one after the other. -/
def Actor.times (count : Nat) (actor : Actor) : List Happening :=
  List.replicate count (.run actor)

namespace Call

/-- The connection after a call; what the call reports does not matter here. -/
def act (c : Connection) : Call → Connection
  | send packet => c.tryTo (c.send packet)
  | handshake kind => c.tryTo (c.sendHandshake kind)
  | register type => c.tryTo (c.register type)

end Call

namespace Transit

def act (c : Connection) : Transit → Connection
  | feed chunk => { c with source := c.source.feed chunk }
  | finish ending => { c with source := c.source.finish ending }
  | weather room writeFailure flushFailure flushStalls shutdownStalls =>
    { c with sink := { c.sink with room, writeFailure, flushFailure, flushStalls, shutdownStalls } }

end Transit

namespace World

/-- All bytes that a connection was ever fed. -/
def fed (i : Nat) (w : World) : Bytes :=
  (w.conns[i]?.map (·.source.fed)).getD []

/-- The bytes that one connection handed on and another was not fed yet. -/
def underway (source target : Nat) (w : World) : Bytes :=
  (w.received source).drop (w.fed target).length

def perform (w : World) : Happening → World
  | .run actor => (w.step actor).getD w
  | .pass span => { w with now := w.now + span }
  | .start opening =>
    match Session.setup opening with
    | .ok setup => w.start setup
    | .error _ => w
  | .errands todo => w.spawn (.running (.errands todo none))
  | .collect i => w.spawn (.collect i)
  | .process queue resident => w.spawn (.running (.process queue resident .claiming))
  | .abort task => w.abort task
  | .announce queue => w.modifyQueue queue .announce
  | .call i call => w.onConn i call.act
  | .transit i transit => w.modifyConn i transit.act
  | .carry source target count =>
    w.modifyConn target fun c =>
      { c with source := c.source.feed ((w.underway source target).take count) }

/-- What can come of an empty world, with any number of work queues and any wires. -/
inductive Reachable : World → Prop
  | empty (queues : Nat) (wires : List (Nat × Nat)) : Reachable { empty queues with wires }
  | perform {w : World} (h : Reachable w) (happening : Happening) : Reachable (w.perform happening)

/-- One happening after the other. -/
def performAll (happenings : List Happening) (w : World) : World :=
  happenings.foldl perform w

theorem Reachable.performAll {w : World} (h : Reachable w) (happenings : List Happening) :
    Reachable (w.performAll happenings) := by
  induction happenings generalizing w with
  | nil => exact h
  | cons happening happenings ih => exact ih (h.perform happening)

end World

end PacketWire
