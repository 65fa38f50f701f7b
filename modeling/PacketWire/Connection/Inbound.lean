import PacketWire.Connection.Dispatch

/-!
# The inbound loop

The inbound loop reads ahead whatever the source has, takes one frame after the other off what
was read, and hands each on before it looks at the next. It ends when the connection leaves
`active`, when it is told to, or when the input ends or cannot be understood; in the last case it
closes the connection itself, unless that is already under way.

`inboundStep` is one stretch of the loop: what it does between two points at which others may
run. It gives nothing where the loop has to wait.
-/

namespace PacketWire

namespace Connection

/-- Goes on with the next frame, if there is still reason to. -/
def readOn (c : Connection) : Connection :=
  { c with inbound := if c.isActive then .reading else .finished }

/-- Waits for a close that the loop carries out, or goes on. -/
def afterDispatch : Connection × Option (CloseWait × Packet) → Connection
  | (c, none) => c.readOn
  | (c, some (wait, packet)) => { c with inbound := .closing wait (some packet) }

/-- Ends the loop because of an error, which is reported unless closing has begun. -/
def stopReading (now : Nat) (cause : Error) (c : Connection) : Connection :=
  if c.cancelled || !c.isActive then { c with inbound := .finished }
  else
    let (c, wait) :=
      if cause.isEndOfStream then c.close true now endOfStream true else c.fail true now cause
    match wait with
    | none => { c with inbound := .finished }
    | some wait => { c with inbound := .closing wait none }

/-- Hands an event on, or queues it for whoever drains the work queue. -/
def deliver (now : Nat) (event : Event) (c : Connection) : Connection :=
  match c.delivery with
  | .inline => afterDispatch (c.dispatch true now event)
  | .deferred _ =>
    if c.state = .closed then afterDispatch (c.dispatch true now event)
    else (c.log (.deferred event)).readOn

/-- Notes that a frame arrived. -/
def touchReceived (now : Nat) (c : Connection) : Connection :=
  { c with activity := { c.activity with lastReceived := now, hasReceived := true } }

/-- Handles the body of a frame. -/
def handleBody (now : Nat) (body : Bytes) (c : Connection) : Connection :=
  match Decoder.read .i16 ⟨body⟩ with
  | (.error e, _) => c.stopReading now (.protocolViolation (.other e.message))
  | (.ok id, payload) =>
    let c := (c.log (.handled body)).touchReceived now
    match c.registry.create id with
    | none => c.deliver now (.unknown id)
    | some prototype =>
      let reading := prototype.decode payload
      match reading.error with
      | none => c.deliver now (.packet reading.packet)
      | some cause =>
        if prototype.isCritical then c.stopReading now (.decode id cause) else c.readOn

/-- Reads ahead, or ends with the input. -/
def readAhead? (now : Nat) (c : Connection) : Option Connection :=
  match c.source.chunks with
  | chunk :: chunks =>
    some { c with source := { c.source with chunks }, readAhead := c.readAhead ++ chunk }
  | [] =>
    match c.source.ending with
    | none => none
    | some .endOfStream => some (c.stopReading now (.transport ⟨true, "early eof"⟩))
    | some (.failure cause) => some (c.stopReading now (.transport cause))

/-- One stretch of the inbound loop, if it need not wait. -/
def inboundStep (now : Nat) (c : Connection) : Option Connection :=
  match c.inbound with
  | .starting => some c.readOn
  | .reading =>
    if c.cancelled then some { c with inbound := .finished }
    else
      match Frame.next c.config.maxFrameLength c.readAhead with
      | .complete body rest => some ({ c with readAhead := rest }.handleBody now body)
      | .illegal why => some (c.stopReading now (.protocolViolation why))
      | .incomplete => c.readAhead? now
  | .closing wait shown =>
    if c.canProceed now wait then
      match c.proceedClose true now wait with
      | (c, some wait) => some { c with inbound := .closing wait shown }
      | (c, none) =>
        let c := match shown with
          | some packet => c.showControl packet
          | none => c
        some { c with inbound := .finished }
    else none
  | .finished => none

/-- When the inbound loop goes on by itself. -/
def inboundWake? (c : Connection) : Option Nat :=
  match c.inbound with
  | .closing (.draining _ wake) _ => some wake
  | _ => none

end Connection

end PacketWire
