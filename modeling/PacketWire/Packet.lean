import PacketWire.Codec.Encoder
import PacketWire.Codec.Decoder

/-!
# Packets

A packet is one typed message. Three kinds are the connection's own: the handshake, the final
close message and the keep-alive. All others belong to the application, which describes each by
a `PacketType`: a name, an id, whether a connection can go on without it, the layout of its values,
and the `Codec` by which these are read and written. The values of an application packet are a
`Record` of its layout. The codec is the application's own: it may refuse values, leave fields out
or write how many there are. The simplest one, `Codec.fields`, reads and writes one field after the
other.

Reading starts from a packet that already has values. Field by field it replaces them one after the
other; where it fails, the fields before the failure are new and the others are as they were.
-/

namespace PacketWire

/-- A named field of a packet. -/
structure Field where
  name : String
  type : FieldType
  deriving DecidableEq, Repr

/-- The fields of a payload, in the order in which they are written. -/
abbrev Layout := List Field

/-- Values for the fields of a layout. -/
def Record : Layout → Type
  | [] => Unit
  | field :: fields => field.type.Value × Record fields

namespace Record

/-- The values that fields have before anything is read. -/
def initial : (layout : Layout) → Record layout
  | [] => ()
  | field :: fields => (field.type.initial, initial fields)

/-- The values with their types, in the order in which they are written. -/
def items : {layout : Layout} → Record layout → List Item
  | [], _ => []
  | field :: _, (value, values) => ⟨field.type, value⟩ :: items values

/-- Reads the fields in order, as far as that goes. -/
def decode : {layout : Layout} → Record layout → Decoder →
    Record layout × Decoder × Option DecodeError
  | [], values, d => (values, d, none)
  | field :: _, (value, values), d =>
    match d.read field.type with
    | (.error e, d) => ((value, values), d, some e)
    | (.ok value, d) =>
      let (values, d, e) := decode values d
      ((value, values), d, e)

@[simp] theorem items_cons {field : Field} {fields : Layout} (value : field.type.Value)
    (values : Record fields) :
    @items (field :: fields) (value, values) = ⟨field.type, value⟩ :: items values := rfl

end Record

/-- How the values of a packet are read and written. -/
class Codec (layout : Layout) where
  /-- Reads a payload into values: these as the reading left them, the unread rest, and the failure,
  if there was one. -/
  decode : Record layout → Decoder → Record layout × Decoder × Option DecodeError
  /-- The payload as far as it can be written, and the failure, if there was one. -/
  encode : Record layout → Bytes × Option EncodeError

/-- An application's packet type. -/
structure PacketType where
  name : String
  id : PacketId
  critical : Bool
  layout : Layout
  [codec : Codec layout]

/-- A handshake either asks for the other side's version or answers. -/
inductive HandshakeKind where
  | request
  | response
  deriving DecidableEq, Repr

namespace HandshakeKind

/-- The number that stands for a kind on the wire. -/
def code : HandshakeKind → Int32
  | request => 0
  | response => 1

def ofCode? (code : Int32) : Option HandshakeKind :=
  if code = 0 then some request
  else if code = 1 then some response
  else none

@[simp] theorem ofCode?_code (kind : HandshakeKind) : ofCode? kind.code = some kind := by
  cases kind <;> rfl

end HandshakeKind

inductive Packet where
  | handshake (kind : HandshakeKind) (version : Int32)
  | close (message : String)
  | keepAlive (response : Bool)
  | app (type : PacketType) (values : Record type.layout)

namespace Packet

def handshakeId : PacketId := -1
def closeId : PacketId := -2
def keepAliveId : PacketId := -3

/-- What the final close message says. -/
def closeText : String := "Connection closed by remote partner"

/-- The close message that a closing connection sends. -/
def farewell : Packet := .close closeText

def id : Packet → PacketId
  | handshake .. => handshakeId
  | close _ => closeId
  | keepAlive _ => keepAliveId
  | app type _ => type.id

/-- A connection cannot go on after a critical packet that it failed to read. -/
def isCritical : Packet → Bool
  | handshake .. => true
  | close _ => false
  | keepAlive _ => false
  | app type _ => type.critical

/-- The application packet of a type whose fields have their initial values. -/
def blank (type : PacketType) : Packet :=
  .app type (Record.initial type.layout)

/-- The result of reading a payload: the packet as the reading left it, the unread rest, and
the failure, if there was one. -/
structure Reading where
  packet : Packet
  left : Decoder
  error : Option DecodeError

/-- Reads a payload into a packet. -/
def decode : Packet → Decoder → Reading
  | handshake kind version, d =>
    match d.read .i32 with
    | (.error e, d) => ⟨handshake kind version, d, some e⟩
    | (.ok code, d) =>
      match HandshakeKind.ofCode? code with
      | none => ⟨handshake kind version, d, some (.invalidValue s!"handshake id {code.toInt}")⟩
      | some kind =>
        match d.read .i32 with
        | (.error e, d) => ⟨handshake kind version, d, some e⟩
        | (.ok version, d) => ⟨handshake kind version, d, none⟩
  | close message, d =>
    match d.read .str with
    | (.error e, d) => ⟨close message, d, some e⟩
    | (.ok message, d) => ⟨close message, d, none⟩
  | keepAlive response, d =>
    match d.read .bool with
    | (.error e, d) => ⟨keepAlive response, d, some e⟩
    | (.ok response, d) => ⟨keepAlive response, d, none⟩
  | app type values, d =>
    let (values, d, e) := type.codec.decode values d
    ⟨app type values, d, e⟩

/-- Writes items in order, up to the first that cannot be written. -/
def writeItems : List Item → Encoder → Encoder × Option EncodeError
  | [], e => (e, none)
  | item :: items, e =>
    match e.write item with
    | .ok e => writeItems items e
    | .error failure => (e, some failure)

/-- The bytes that are written for some items, up to the first that cannot be written. -/
def written (items : List Item) : Bytes × Option EncodeError :=
  let (e, failure) := writeItems items ⟨[]⟩
  (e.held, failure)

end Packet

/-- Reads and writes one field after the other. -/
instance Codec.fields (layout : Layout) : Codec layout where
  decode := Record.decode
  encode values := Packet.written values.items

namespace Packet

/-- The payload as far as it can be written, and the failure, if there was one. -/
def payload : Packet → Bytes × Option EncodeError
  | handshake kind version => written [⟨.i32, kind.code⟩, ⟨.i32, version⟩]
  | close message => written [⟨.str, message⟩]
  | keepAlive response => written [⟨.bool, response⟩]
  | app type values => type.codec.encode values

/-- The id and the payload as far as they can be written, and the failure, if there was one. -/
def encode (packet : Packet) : Encoder × Option EncodeError :=
  let (bytes, failure) := packet.payload
  ((Encoder.new packet.id).append bytes, failure)

/-- The id and the payload. -/
def body (packet : Packet) : Except EncodeError Bytes :=
  match packet.encode with
  | (e, none) => .ok e.held
  | (_, some failure) => .error failure

@[simp] theorem payload_handshake (kind : HandshakeKind) (version : Int32) :
    (handshake kind version).payload = written [⟨.i32, kind.code⟩, ⟨.i32, version⟩] := rfl

@[simp] theorem payload_close (message : String) :
    (close message).payload = written [⟨.str, message⟩] := rfl

@[simp] theorem payload_keepAlive (response : Bool) :
    (keepAlive response).payload = written [⟨.bool, response⟩] := rfl

/-- Whether an id is one of the three control ids. -/
def isControl (id : PacketId) : Bool :=
  id = handshakeId || id = closeId || id = keepAliveId

/-- Negative ids are not the application's to use. -/
def isReserved (id : PacketId) : Bool :=
  id < 0

@[simp] theorem id_handshake (kind : HandshakeKind) (version : Int32) :
    (handshake kind version).id = handshakeId := rfl

@[simp] theorem id_close (message : String) : (close message).id = closeId := rfl

@[simp] theorem id_keepAlive (response : Bool) : (keepAlive response).id = keepAliveId := rfl

end Packet

end PacketWire
