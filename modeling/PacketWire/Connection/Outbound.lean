import PacketWire.Connection.Closing

/-!
# The outbound loop

The outbound loop takes the oldest packet off the send queue, writes its frame and flushes,
either after every frame or only when no packet is left behind it. With nothing to send it waits
for a packet or for the time at which a keep-alive falls due. It ends when it is told to or when
a frame cannot be written; then it drops what is still queued and shuts the sink down, for which
it has limited time.

`outboundStep` is one stretch of the loop; it gives nothing where the loop has to wait.
-/

namespace PacketWire

namespace Connection

/-- One idle period after `since`; where that cannot be told, one far-future period, and where
that cannot be told either, `since` itself. -/
def idleDeadline (since : Nat) (c : Connection) : Nat :=
  if since + c.config.idlePeriod < horizon then since + c.config.idlePeriod
  else if since + farFuture < horizon then since + farFuture
  else since

/-- The point in time that the idle period counts from: the last frame, or the last keep-alive
after it. -/
def idleSince (c : Connection) : Nat :=
  match c.activity.lastKeepAlive with
  | some sent => if c.activity.lastReceived < sent then sent else c.activity.lastReceived
  | none => c.activity.lastReceived

/-- When the next keep-alive is due if nothing arrives. -/
def keepAliveDeadline (c : Connection) : Nat :=
  c.idleDeadline c.idleSince

/-- When the outbound loop looks again although nothing was queued. -/
def idleWake (now : Nat) (c : Connection) : Nat :=
  if c.config.autoKeepAlive then c.keepAliveDeadline else c.idleDeadline now

/-- Ends the loop, reporting the cause unless closing has begun. The closing that this starts
need not wait, since the loop takes no more packets. -/
def stopWriting (now : Nat) (cause : Option Error) (c : Connection) : Connection :=
  let c := { c with outboundStopped := true }
  let c := match cause with
    | none => c
    | some cause =>
      if c.cancelled || !c.isActive then c
      else if cause.isEndOfStream then (c.close true now endOfStream true).1
      else (c.fail true now cause).1
  { c with queue := c.queue.clear, outbound := .shutting (now + shutdownTimeout) }

/-- Gives up the packet being written. -/
def failWriting (now : Nat) (cause : Error) (c : Connection) : Connection :=
  { c with queue := c.queue.written }.stopWriting now (some cause)

/-- Whether a keep-alive is due. -/
def keepAliveIsDue (now : Nat) (c : Connection) : Bool :=
  c.config.autoKeepAlive && c.keepAliveDeadline ≤ now

/-- Notes that a keep-alive is due, so that the next one counts from now. -/
def noteKeepAlive (now : Nat) (c : Connection) : Connection :=
  { c with activity := { c.activity with lastKeepAlive := some now } }.log (.keepAliveDue now)

/-- Queues a keep-alive that is due, if it can still be sent. -/
def originate (now : Nat) (c : Connection) : Connection :=
  tryTo ((c.noteKeepAlive now).send (.keepAlive false)) (c.noteKeepAlive now)

/-- Takes the oldest packet and begins to write its frame, or waits. -/
def takePacket (now : Nat) (c : Connection) : Connection :=
  match c.queue.pop? with
  | none => { c with outbound := .idle (c.idleWake now) }
  | some (packet, queue) =>
    let c := { c with queue }
    match Frame.body packet with
    | .error cause => c.failWriting now (.encode packet.id cause)
    | .ok body => { c with outbound := .writing [Frame.header body, body] }

/-- The top of the loop. -/
def writeOn (now : Nat) (c : Connection) : Connection :=
  if c.cancelled then c.stopWriting now none
  else if c.queue.isEmpty && c.keepAliveIsDue now then (c.originate now).takePacket now
  else c.takePacket now

/-- Accounts for a frame that was written, and goes on. -/
def finishPacket (now : Nat) (c : Connection) : Connection :=
  { c with
    queue := c.queue.written
    activity := { c.activity with hasSent := true } }.writeOn now

/-- After the last slice of a frame: flushes if the frame stands by itself or is the last one. -/
def afterFrame (now : Nat) (c : Connection) : Connection :=
  if c.config.flushEach || c.queue.isEmpty then { c with outbound := .flushing }
  else c.finishPacket now

/-- One act of writing the slices of a frame. -/
def writeSlices (now : Nat) (c : Connection) : List Bytes → Option Connection
  | [] => some (c.afterFrame now)
  | slice :: slices =>
    match c.buffer.write slice c.sink with
    | .blocked => none
    | .failed cause => some (c.failWriting now (.transport cause))
    | .moved left buffer sink =>
      let c := { c with buffer, sink }
      match left, slices with
      | [], [] => some (c.afterFrame now)
      | [], slices => some { c with outbound := .writing slices }
      | left, slices => some { c with outbound := .writing (left :: slices) }

/-- One act of flushing: the buffer into the sink, then the sink. -/
def flushOn (now : Nat) (c : Connection) : Option Connection :=
  if c.buffer.held.isEmpty then
    match c.sink.flush with
    | .blocked => none
    | .failed cause => some (c.failWriting now (.transport cause))
    | .done sink => some ({ c with buffer := .empty, sink }.finishPacket now)
  else
    match c.buffer.drain c.sink with
    | .blocked => none
    | .failed cause => some (c.failWriting now (.transport cause))
    | .moved _ buffer sink => some { c with buffer, sink }

/-- Lets go of the sink. -/
def releaseSink (how : Release) (c : Connection) : Connection :=
  { c with sink := c.sink.release how, outbound := .finished }

/-- Lets go of the sink: after its shutdown, if nothing is left to write and it does not stall. -/
def closeSink (c : Connection) : Connection :=
  c.releaseSink (if c.buffer.held.isEmpty && !c.sink.shutdownStalls then .shutdown else .dropped)

/-- One act of shutting the sink down: the buffer into it, then the shutdown itself. An act at or
after the deadline is the last one: it does what the sink lets it do, and goes no further. -/
def shutOn (now deadline : Nat) (c : Connection) : Option Connection :=
  let giveUp := if deadline ≤ now then some (c.releaseSink .dropped) else none
  if c.buffer.held.isEmpty then
    if c.sink.shutdownStalls then giveUp else some (c.releaseSink .shutdown)
  else
    match c.buffer.drain c.sink with
    | .blocked => giveUp
    | .failed _ => some (c.releaseSink .dropped)
    | .moved _ buffer sink =>
      let c := { c with buffer, sink }
      if deadline ≤ now then some c.closeSink else some c

/-- How an act of shutting the sink down goes: it lets go of the sink, perhaps after moving
something into it, or it moves something and there is time left. -/
inductive Shuts (now deadline : Nat) (c : Connection) : Connection → Prop where
  | letsGo (how : Release) : Shuts now deadline c (c.releaseSink how)
  | last {buffer : WriteBuffer} {sink : Sink}
      (moved : c.buffer.drain c.sink = .moved () buffer sink) (late : deadline ≤ now)
      (how : Release) :
      Shuts now deadline c ({ c with buffer, sink }.releaseSink how)
  | moves {buffer : WriteBuffer} {sink : Sink} (more : c.buffer.held ≠ [])
      (moved : c.buffer.drain c.sink = .moved () buffer sink) (early : now < deadline) :
      Shuts now deadline c { c with buffer, sink }

theorem shuts_of_shutOn {c d : Connection} {now deadline : Nat}
    (step : c.shutOn now deadline = some d) : Shuts now deadline c d := by
  have gaveUp (given : (if deadline ≤ now then some (c.releaseSink .dropped) else none) = some d) :
      Shuts now deadline c d := by
    split at given <;> cases given
    exact .letsGo .dropped
  unfold shutOn at step
  dsimp only at step
  split at step
  · split at step
    · exact gaveUp step
    · cases step
      exact .letsGo .shutdown
  · rename_i more
    split at step
    · exact gaveUp step
    · cases step
      exact .letsGo .dropped
    · rename_i moved
      split at step <;> cases step
      · rename_i late
        exact .last moved late _
      · rename_i early
        exact .moves (by simpa using more) moved (Nat.not_le.mp early)

/-- One stretch of the outbound loop, if it need not wait. -/
def outboundStep (now : Nat) (c : Connection) : Option Connection :=
  match c.outbound with
  | .starting => some (c.writeOn now)
  | .writing slices =>
    if c.cancelled then some ({ c with queue := c.queue.written }.stopWriting now none)
    else c.writeSlices now slices
  | .flushing =>
    if c.cancelled then some ({ c with queue := c.queue.written }.stopWriting now none)
    else c.flushOn now
  | .idle wake =>
    if c.cancelled then some (c.stopWriting now none)
    else if c.queue.signalled then some ({ c with queue := c.queue.hear }.writeOn now)
    else if wake ≤ now then some (c.writeOn now)
    else none
  | .shutting deadline => c.shutOn now deadline
  | .finished => none

/-- When the outbound loop goes on by itself. -/
def outboundWake? (c : Connection) : Option Nat :=
  match c.outbound with
  | .idle wake => some wake
  | .shutting deadline => some deadline
  | _ => none

end Connection

end PacketWire
