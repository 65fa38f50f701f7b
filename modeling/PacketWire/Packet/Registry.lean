import PacketWire.Packet

/-!
# The packets that can be received

A registry says which packet a received id stands for. Every entry has a prototype, the packet
that reading starts from, and the name that its type was registered under. Entries are kept by
ascending id; registering an id again replaces what was there.

The registry itself takes any id. `registerType` is what an application goes through: it keeps
the control packets' ids out of its reach.
-/

namespace PacketWire

/-- Why a packet type was not registered. -/
inductive RegistrationError where
  | idMismatch (name : String) (declared actual : PacketId)
  | reserved (id : PacketId)
  deriving DecidableEq, Repr

def RegistrationError.message : RegistrationError → String
  | idMismatch name declared actual =>
    s!"factory for {name} declared id {declared.toInt} but produced id {actual.toInt}"
  | reserved id => s!"packet id {id.toInt} is reserved for control packets"

structure Registry.Entry where
  id : PacketId
  name : String
  prototype : Packet

structure Registry where
  entries : List Registry.Entry

namespace Registry

def empty : Registry := ⟨[]⟩

/-- Puts an entry in its place, instead of the one that has its id. -/
def insertEntry (entry : Entry) : List Entry → List Entry
  | [] => [entry]
  | first :: rest =>
    if entry.id < first.id then entry :: first :: rest
    else if entry.id = first.id then entry :: rest
    else first :: insertEntry entry rest

def insert (r : Registry) (id : PacketId) (name : String) (prototype : Packet) : Registry :=
  ⟨insertEntry ⟨id, name, prototype⟩ r.entries⟩

/-- The registry of a new connection: it knows the three control packets. -/
def control : Registry :=
  empty
    |>.insert Packet.handshakeId "HandshakePacket" (.handshake .request 0)
    |>.insert Packet.closeId "ClosePacket" .farewell
    |>.insert Packet.keepAliveId "KeepAlivePacket" (.keepAlive false)

def find? (r : Registry) (id : PacketId) : Option Entry :=
  r.entries.find? (·.id = id)

/-- The packet that reading a frame of this id starts from. -/
def create (r : Registry) (id : PacketId) : Option Packet :=
  (r.find? id).map (·.prototype)

def name? (r : Registry) (id : PacketId) : Option String :=
  (r.find? id).map (·.name)

def contains (r : Registry) (id : PacketId) : Bool :=
  (r.find? id).isSome

def size (r : Registry) : Nat := r.entries.length

def isEmpty (r : Registry) : Bool := r.entries.isEmpty

/-- Registers a prototype under the id it is declared to have, which has to be its own. -/
def register (r : Registry) (id : PacketId) (name : String) (prototype : Packet) :
    Except RegistrationError Registry :=
  if prototype.id = id then .ok (r.insert id name prototype)
  else .error (.idMismatch name id prototype.id)

end Registry

/-- A packet type as an application announces it: the name and the id it declares, and the
packet that reading starts from. -/
structure Announcement where
  name : String
  id : PacketId
  prototype : Packet

namespace Announcement

/-- A type announces itself with its own name and id. -/
def ofType (type : PacketType) : Announcement :=
  ⟨type.name, type.id, .blank type⟩

end Announcement

namespace Registry

/-- Registers an application's packet type; reserved ids are refused. -/
def registerType (r : Registry) (a : Announcement) : Except RegistrationError Registry :=
  if Packet.isReserved a.id then .error (.reserved a.id)
  else r.register a.id a.name a.prototype

end Registry

end PacketWire
