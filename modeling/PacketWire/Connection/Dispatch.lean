import PacketWire.Connection.Closing

/-!
# Handing events to the listeners

Control packets go to the connection itself first and to the application's listener only where
it asked for them; everything else goes to the application's listener. A close message starts
the closing of the connection, so handing it on may have to wait; what was handed on is then
shown to the application after that wait.
-/

namespace PacketWire

namespace Connection

/-- Notes the version of the other side. -/
def setRemoteVersion (version : Int32) (c : Connection) : Connection :=
  { c with remoteVersion := some version, versionApproved := version = c.config.protocolVersion }

/-- What the connection itself does with a control packet. -/
def control (onLoop : Bool) (now : Nat) (packet : Packet) (c : Connection) :
    Connection × Option CloseWait :=
  match packet with
  | .handshake kind version =>
    let c := if kind = .request then tryTo (c.sendHandshake .response) c else c
    (c.setRemoteVersion version, none)
  | .close message => c.close onLoop now message true
  | .keepAlive response =>
    (if response then c else tryTo (c.send (.keepAlive true)) c, none)
  | .app .. => (c, none)

/-- Shows a control packet to the application, if it asked for that. -/
def showControl (packet : Packet) (c : Connection) : Connection :=
  if c.config.notifyControl then c.callHook (.packet packet) else c

/-- Hands a packet to the listeners, as far as that goes without waiting. -/
def dispatchPacket (onLoop : Bool) (now : Nat) (packet : Packet) (c : Connection) :
    Connection × Option CloseWait :=
  if Packet.isControl packet.id then
    match c.control onLoop now packet with
    | (c, none) => (c.showControl packet, none)
    | (c, some wait) => (c, some wait)
  else (c.callHook (.packet packet), none)

/-- Hands an event to the listeners. Where that has to wait, the wait comes with the packet that
is to be shown after it. -/
def dispatch (onLoop : Bool) (now : Nat) (event : Event) (c : Connection) :
    Connection × Option (CloseWait × Packet) :=
  let c := c.log (.dispatched event)
  match event with
  | .packet packet =>
    let (c, wait) := c.dispatchPacket onLoop now packet
    (c, wait.map (·, packet))
  | .unknown id => (c.callHook (.unknown id), none)

end Connection

end PacketWire
