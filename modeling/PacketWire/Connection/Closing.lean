import PacketWire.Connection.Basic

/-!
# Sending, hooks and closing

What callers, listeners and both loops do to a connection between two waits. The one activity
with waits of its own is closing, which is carried out in parts: it starts, then looks at the
send queue again and again, and, unless one of the loops is the one closing, waits for both loops
at the end. `CloseWait` says where it stands.
-/

namespace PacketWire

namespace Connection

/-- Puts a packet on the send queue. -/
def enqueue (packet : Packet) (c : Connection) : Connection :=
  { c with queue := c.queue.push packet }.log (.enqueued packet)

/-- Sends a packet, as long as the connection is active. -/
def send (packet : Packet) (c : Connection) : Except Error Connection :=
  if c.isActive then .ok ((c.log (.accepted packet)).enqueue packet) else .error .closed

/-- Sends a handshake with the version of this side. -/
def sendHandshake (kind : HandshakeKind) (c : Connection) : Except Error Connection :=
  (c.send (.handshake kind c.config.protocolVersion)).map ({ · with handshakeSent := true })

/-- The connection after an attempt, and whether it succeeded. -/
def attempt (result : Except Error Connection) (c : Connection) :
    Except Error Unit × Connection :=
  match result with
  | .ok c => (.ok (), c)
  | .error e => (.error e, c)

/-- The connection after an attempt whose failure nobody is told of. -/
def tryTo (result : Except Error Connection) (c : Connection) : Connection :=
  (attempt result c).2

/-- Registers an application's packet type. -/
def register (a : Announcement) (c : Connection) : Except Error Connection :=
  match c.registry.registerType a with
  | .ok registry => .ok { c with registry }
  | .error cause => .error (.registration cause)

/-- Does one thing that a listener wants. A close is only asked for: it begins in a later stretch,
of a task of its own. -/
def react (c : Connection) : Reaction → Except Error Unit × Connection
  | .send packet => attempt (c.send packet) c
  | .handshake => attempt (c.sendHandshake .request) c
  | .close => (.ok (), c.log .closeRequested)

/-- Does what a listener wants, in order. -/
def reactAll : List Reaction → Connection → List (Except Error Unit) × Connection
  | [], c => ([], c)
  | reaction :: reactions, c =>
    let (result, c) := c.react reaction
    let (results, c) := reactAll reactions c
    (result :: results, c)

/-- Calls the application's listener; without one nothing is done in the call. -/
def callHook (call : HookCall) (c : Connection) : Connection :=
  let state := c.state
  let (results, c) := reactAll ((c.listener.getD .silent).react c.hookCalls call) c
  { c with hookCalls := c.hookCalls + 1 }.log (.hook call state results)

/-- Tells the listener of the closing, once. -/
def notifyClosed (message : String) (expected : Bool) (c : Connection) : Connection :=
  if c.closeNotified then c
  else { c with closeNotified := true }.callHook (.closed message expected)

/-- Leaves `active`: the listener is told, then the close message is queued. -/
def startClosing (message : String) (expected : Bool) (c : Connection) : Connection :=
  ({ c with state := .closing }.notifyClosed message expected).enqueue .farewell

/-- Ends in `closed`. -/
def markClosed (c : Connection) : Connection :=
  { c with state := .closed }.log .detached

/-- Whether a close need not wait for the send queue any longer. -/
def isDrainOver (deadline now : Nat) (c : Connection) : Bool :=
  c.queue.isDrained || c.outboundStopped || deadline ≤ now

/-- Takes the loops that nobody waits for yet. -/
def takeLoops (c : Connection) : List Loop × Connection :=
  (c.unjoined, { c with unjoined := [] })

/-- The loops that have still to be waited for, in the order in which they are. -/
def stillRunning (loops : List Loop) (c : Connection) : List Loop :=
  loops.dropWhile c.hasFinished

/-- Goes on with a close that waits for loops. -/
def closeAfter (loops : List Loop) (c : Connection) : Connection × Option CloseWait :=
  match c.stillRunning loops with
  | [] => (c.markClosed, none)
  | loops => (c, some (.joining loops))

/-- Goes on with a close as far as it goes without waiting. A loop cannot wait for itself, so a
close that runs `onLoop` only tells the loops to end. -/
def proceedClose (onLoop : Bool) (now : Nat) (c : Connection) :
    CloseWait → Connection × Option CloseWait
  | .draining deadline _ =>
    if c.isDrainOver deadline now then
      let c := { c with cancelled := true }
      if onLoop then (c.markClosed, none)
      else
        let (loops, c) := c.takeLoops
        c.closeAfter loops
    else (c, some (.draining deadline (now + closePoll)))
  | .joining loops => c.closeAfter loops

/-- Closes an active connection, as far as that goes without waiting. -/
def close (onLoop : Bool) (now : Nat) (message : String) (expected : Bool) (c : Connection) :
    Connection × Option CloseWait :=
  if c.isActive then
    (c.startClosing message expected).proceedClose onLoop now (.draining (now + closeTimeout) now)
  else (c, none)

/-- Whether there is something to go on with. -/
def canProceed (now : Nat) (c : Connection) : CloseWait → Bool
  | .draining _ wake => wake ≤ now
  | .joining [] => true
  | .joining (loop :: _) => c.hasFinished loop

/-- Reports a failure, once, and closes. -/
def fail (onLoop : Bool) (now : Nat) (cause : Error) (c : Connection) :
    Connection × Option CloseWait :=
  if !c.isActive || c.failureNotified then (c, none)
  else
    let c := { c with failureNotified := true }.callHook (.failed cause)
    c.close onLoop now cause.message false

theorem send_eq_ok {c : Connection} (h : c.isActive = true) (packet : Packet) :
    c.send packet = .ok ((c.log (.accepted packet)).enqueue packet) := by
  simp [send, h]

theorem send_eq_error {c : Connection} (h : c.isActive = false) (packet : Packet) :
    c.send packet = .error .closed := by
  simp [send, h]

end Connection

end PacketWire
