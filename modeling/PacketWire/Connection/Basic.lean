import PacketWire.Connection.Config
import PacketWire.SendQueue
import PacketWire.WriteBuffer

/-!
# The state of a connection

A connection is run by two loops. The inbound loop reads frames and hands their packets on, the
outbound loop writes what is queued. Each is a control point: where it stands between two of its
waits, and what it keeps there. Everything else that the two share, and that callers can ask
for, are the fields of `Connection`.

A connection also keeps a journal of what it did, latest entry first. Nothing it does depends on
the journal; it is how its surroundings learn of hooks that ran and of work to be done elsewhere,
and what statements about its history are made of.
-/

namespace PacketWire

/-- The life of a connection. In `closing` the final close message is on its way out. -/
inductive Lifecycle where
  | active
  | closing
  | closed
  deriving DecidableEq, Repr

inductive Loop where
  | inbound
  | outbound
  deriving DecidableEq, Repr

/-- A call of the application's listener. -/
inductive HookCall where
  | packet (packet : Packet)
  | unknown (id : PacketId)
  | failed (cause : Error)
  | closed (message : String) (expected : Bool)

/-- What a listener may do from inside a hook. Hooks do not wait, and a close does: the one that a
listener wants is carried out by a task of its own. -/
inductive Reaction where
  | send (packet : Packet)
  | handshake
  | close

/-- The application's listener: what it does in a call, given how many calls came before. -/
structure Listener where
  react : Nat → HookCall → List Reaction

namespace Listener

/-- A listener that does nothing in its hooks. -/
def silent : Listener := ⟨fun _ _ => []⟩

end Listener

/-- Something received, to be handed to the listeners. -/
inductive Event where
  | packet (packet : Packet)
  | unknown (id : PacketId)

/-- Where received events are handed on: by the inbound loop, or by whoever drains the work
queue of this number. -/
inductive Delivery where
  | inline
  | deferred (queue : Nat)
  deriving DecidableEq, Repr

/-- What a close in progress waits for: the send queue, looked at again at `wake` and given up
at `deadline`, or loops that have still to finish. -/
inductive CloseWait where
  | draining (deadline wake : Nat)
  | joining (loops : List Loop)
  deriving DecidableEq, Repr

inductive Inbound where
  /-- About to look at the state for the first time. -/
  | starting
  /-- Waiting for the rest of a frame. -/
  | reading
  /-- Carrying out a close; then `shown`, if any, is still to be shown to the application. -/
  | closing (wait : CloseWait) (shown : Option Packet)
  | finished

inductive Outbound where
  /-- About to take a packet for the first time. -/
  | starting
  /-- Writing a frame, of which these slices are not yet placed. -/
  | writing (slices : List Bytes)
  /-- Flushing after a whole frame. -/
  | flushing
  /-- Waiting for a packet, or for `wake`. -/
  | idle (wake : Nat)
  /-- The loop is over; the sink has until `deadline` to be shut down. -/
  | shutting (deadline : Nat)
  | finished
  deriving DecidableEq, Repr

/-- When packets arrived and keep-alives were due. -/
structure Activity where
  /-- The start of the connection until a frame arrives. -/
  lastReceived : Nat
  lastKeepAlive : Option Nat
  hasReceived : Bool
  hasSent : Bool
  deriving DecidableEq, Repr

/-- What a connection did. -/
inductive Entry where
  /-- A packet was accepted for sending. -/
  | accepted (packet : Packet)
  /-- A packet was put on the send queue. -/
  | enqueued (packet : Packet)
  /-- The inbound loop began to handle the body of a frame. -/
  | handled (body : Bytes)
  /-- The listener was called; `results` are those of what it did. -/
  | hook (call : HookCall) (state : Lifecycle) (results : List (Except Error Unit))
  /-- An event was put on the work queue. -/
  | deferred (event : Event)
  /-- An event is handed to the listeners. -/
  | dispatched (event : Event)
  /-- The listener wants the connection closed. -/
  | closeRequested
  /-- A keep-alive fell due. -/
  | keepAliveDue (time : Nat)
  /-- The connection is closed and its work queue need not wait for it. -/
  | detached

namespace HookCall

/-- Whether a hook tells of a failure or of the closing. -/
def isNotification : HookCall → Bool
  | failed _ => true
  | closed .. => true
  | _ => false

end HookCall

namespace Entry

def accepted? : Entry → Option Packet
  | accepted packet => some packet
  | _ => none

def enqueued? : Entry → Option Packet
  | enqueued packet => some packet
  | _ => none

def handled? : Entry → Option Bytes
  | handled body => some body
  | _ => none

def hook? : Entry → Option HookCall
  | hook call _ _ => some call
  | _ => none

def notification? : Entry → Option HookCall
  | hook call _ _ => if call.isNotification then some call else none
  | _ => none

def detached? : Entry → Option Unit
  | detached => some ()
  | _ => none

end Entry

structure Connection where
  name : String
  config : ConnectionConfig
  listener : Option Listener
  delivery : Delivery
  registry : Registry
  state : Lifecycle
  failureNotified : Bool
  closeNotified : Bool
  handshakeSent : Bool
  versionApproved : Bool
  remoteVersion : Option Int32
  activity : Activity
  queue : SendQueue
  /-- Both loops are told to end. -/
  cancelled : Bool
  /-- The outbound loop takes no more packets. -/
  outboundStopped : Bool
  /-- The loops that nobody waits for yet. -/
  unjoined : List Loop
  hookCalls : Nat
  inbound : Inbound
  outbound : Outbound
  source : Source
  /-- Bytes read and not yet handled. -/
  readAhead : Bytes
  buffer : WriteBuffer
  sink : Sink
  journal : List Entry

namespace Connection

/-- How long a close waits for the send queue to drain. -/
def closeTimeout : Nat := 5000

/-- How often a close looks at the send queue. -/
def closePoll : Nat := 10

/-- How long the sink may take to shut down. -/
def shutdownTimeout : Nat := 1000

/-- The idle period that stands for one too long to be added to a point in time. -/
def farFuture : Nat := 86400 * 365 * 1000

/-- Points in time from here on cannot be told. -/
def horizon : Nat := 1 <<< 63 * 1000

def closedLocally : String := "Connection closed locally"

def endOfStream : String := "End of stream"

/-- Settings with which a connection is started. -/
structure Setup where
  name : String := ""
  config : ConnectionConfig := {}
  listener : Option Listener := none
  delivery : Delivery := .inline
  registry : Registry := .control

/-- A connection that is started at `now`. -/
def start (setup : Setup) (now : Nat) : Connection :=
  { name := setup.name
    config := setup.config
    listener := setup.listener
    delivery := setup.delivery
    registry := setup.registry
    state := .active
    failureNotified := false
    closeNotified := false
    handshakeSent := false
    versionApproved := false
    remoteVersion := none
    activity := ⟨now, none, false, false⟩
    queue := .empty
    cancelled := false
    outboundStopped := false
    unjoined := [.inbound, .outbound]
    hookCalls := 0
    inbound := .starting
    outbound := .starting
    source := .empty
    readAhead := []
    buffer := .empty
    sink := .unlimited
    journal := [] }

/-- Whether packets can still be sent. -/
def isActive (c : Connection) : Bool := c.state = .active

def isDeferred (c : Connection) : Bool :=
  match c.delivery with
  | .inline => false
  | .deferred _ => true

/-- The packets that wait on the send queue. -/
def pendingPackets (c : Connection) : Nat := c.queue.size

/-- Whether a loop has finished. -/
def hasFinished (c : Connection) : Loop → Bool
  | .inbound => match c.inbound with | .finished => true | _ => false
  | .outbound => match c.outbound with | .finished => true | _ => false

def log (entry : Entry) (c : Connection) : Connection :=
  { c with journal := entry :: c.journal }

/-- What the journal has of one kind, first one first. -/
def recount {α : Type} (kind : Entry → Option α) (c : Connection) : List α :=
  c.journal.reverse.filterMap kind

/-- The hooks that ran. -/
def hooks (c : Connection) : List HookCall := c.recount Entry.hook?

/-- The hooks that ran because of a failure or of the closing. -/
def notifications (c : Connection) : List HookCall := c.recount Entry.notification?

/-- The packets ever accepted for sending. -/
def acceptedPackets (c : Connection) : List Packet := c.recount Entry.accepted?

/-- The packets ever put on the send queue. -/
def enqueuedPackets (c : Connection) : List Packet := c.recount Entry.enqueued?

/-- The bodies of the frames that the inbound loop began to handle. -/
def handledBodies (c : Connection) : List Bytes := c.recount Entry.handled?

/-- How often the work queue was told that it need not wait for the connection. -/
def detachments (c : Connection) : Nat := (c.recount Entry.detached?).length

@[simp] theorem journal_log (entry : Entry) (c : Connection) :
    (c.log entry).journal = entry :: c.journal := rfl

/-- What was recounted stays, and what is added to the journal comes behind it. -/
theorem recount_eq_append {α : Type} (kind : Entry → Option α) {c c' : Connection}
    {entries : List Entry} (h : c'.journal = entries ++ c.journal) :
    c'.recount kind = c.recount kind ++ entries.reverse.filterMap kind := by
  simp [recount, h]

end Connection

end PacketWire
