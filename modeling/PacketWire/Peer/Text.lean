import PacketWire.Packet.Registry

/-!
# Lines of text as packets

Peers exchange lines of text. Each is an application packet with the id 0 and the text as its
only field, and the packets that a peer knows are this one and the control packets.
-/

namespace PacketWire

namespace PacketType

def text : PacketType := ⟨"TextPacket", 0, false, [⟨"text", .str⟩]⟩

end PacketType

namespace Packet

/-- The packet of a line of text. -/
def text (line : String) : Packet :=
  .app .text (line, ())

/-- The line of text that a packet carries. Its name tells a type from others. -/
def text? : Packet → Option String
  | .app type values =>
    if h : type.name = PacketType.text.name ∧ type.layout = PacketType.text.layout then
      let fields : String × Unit := (h.2 ▸ values : Record PacketType.text.layout)
      some fields.1
    else none
  | _ => none

@[simp] theorem id_text (line : String) : (text line).id = 0 := rfl

@[simp] theorem payload_text (line : String) :
    (text line).payload = written [⟨.str, line⟩] := rfl

@[simp] theorem text?_text (line : String) : (text line).text? = some line := rfl

end Packet

namespace Registry

/-- What a peer can receive. -/
def peer : Registry :=
  control.insert 0 PacketType.text.name (.blank .text)

theorem registerType_text : control.registerType (.ofType .text) = .ok peer := rfl

end Registry

end PacketWire
