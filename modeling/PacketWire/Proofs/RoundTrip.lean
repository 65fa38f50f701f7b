import PacketWire.Peer.Text
import PacketWire.Proofs.Fields

/-!
# Payloads are read as they were written

A payload is a row of fields, so the two inverses of a field compose: `Item.bytes` is what one item
contributes, what is written is the concatenation of these, and what is read is cut into such
pieces again. Items that cannot be written contribute nothing, and writing goes on behind them.
The packets of the protocol are read back from any packet of their kind.
-/

namespace PacketWire

namespace Item

/-- Only a text of more bytes than its length can say is not writable. -/
def isWritable (item : Item) : Bool :=
  item.encode.isOk

/-- What an item adds to a payload. -/
def bytes (item : Item) : Bytes :=
  match item.encode with
  | .ok bytes => bytes
  | .error _ => []

theorem encode_of_isWritable {item : Item} (h : item.isWritable = true) :
    item.encode = .ok item.bytes := by
  rw [isWritable] at h
  cases encoded : item.encode with
  | ok written => simp only [bytes, encoded]
  | error failure =>
      rw [encoded] at h
      cases h

theorem not_isWritable {item : Item} :
    item.isWritable = false ↔ ∃ failure, item.encode = .error failure := by
  rw [isWritable]
  cases item.encode <;> simp [Except.isOk, Except.toBool]

end Item

namespace Encoder

/-- Writes one item after the other. One that cannot be written leaves what is held. -/
def writeEach (items : List Item) (e : Encoder) : Encoder :=
  items.foldl (fun e item => (Packet.writeItems [item] e).1) e

end Encoder

namespace Decoder

/-- Reads values of the given types in order. -/
def readAll : List FieldType → Decoder → Reading (List Item)
  | [], d => (.ok [], d)
  | t :: types, d =>
    match d.read t with
    | (.error e, d) => (.error e, d)
    | (.ok value, d) =>
      match d.readAll types with
      | (.error e, d) => (.error e, d)
      | (.ok items, d) => (.ok (⟨t, value⟩ :: items), d)

end Decoder

/-! ### What is written -/

namespace Packet

theorem writeItems_singleton (item : Item) (e : Encoder) :
    writeItems [item] e = match item.encode with
      | .ok bytes => (e.append bytes, none)
      | .error failure => (e, some failure) := by
  rw [writeItems, Encoder.write]
  cases item.encode <;> rfl

/-- A failure is that of a text that is too long, and nothing is written then. -/
theorem writeItems_eq_some {item : Item} {e e' : Encoder} {failure : EncodeError} :
    writeItems [item] e = (e', some failure) ↔
      e' = e ∧ ∃ text, item = ⟨.str, text⟩ ∧ FieldType.maxText < text.utf8ByteSize ∧
        failure = .stringTooLong text.utf8ByteSize := by
  rw [writeItems_singleton, ← FieldType.encode_eq_error]
  change _ ↔ e' = e ∧ item.encode = .error failure
  cases item.encode with
  | ok bytes => simp
  | error cause => simp [eq_comm]

/-- Where every item is writable, all are written. -/
theorem writeItems_of_forall {items : List Item} (h : ∀ item ∈ items, item.isWritable = true)
    (e : Encoder) : writeItems items e = (e.append (items.flatMap Item.bytes), none) := by
  induction items generalizing e with
  | nil => simp [writeItems, Encoder.append]
  | cons item items ih =>
      rw [List.forall_mem_cons] at h
      rw [writeItems, Encoder.write, Item.encode_of_isWritable h.1]
      simp only [Except.map, ih h.2, Encoder.append, List.flatMap_cons, List.append_assoc]

end Packet

/-- What cannot be written adds nothing. -/
theorem Encoder.held_writeEach (items : List Item) (e : Encoder) :
    (e.writeEach items).held = e.held ++ (items.filter Item.isWritable).flatMap Item.bytes := by
  induction items generalizing e with
  | nil => simp [writeEach]
  | cons item items ih =>
      have step : (e.writeEach (item :: items)) =
        ((Packet.writeItems [item] e).1).writeEach items := rfl
      rw [step, ih, Packet.writeItems_singleton]
      cases writable : item.isWritable with
      | true =>
          rw [Item.encode_of_isWritable writable, List.filter_cons_of_pos writable,
            List.flatMap_cons, ← List.append_assoc]
          rfl
      | false =>
          obtain ⟨failure, refused⟩ := Item.not_isWritable.mp writable
          rw [refused, List.filter_cons_of_neg (by simp [writable])]

/-! ### What was written is read -/

/-- A field that takes the rest of a payload stands at its end. -/
theorem forall_dropLast_cons {α : Type} {t : α → FieldType} {a : α} {l : List α} :
    (∀ x ∈ (a :: l).dropLast, t x ≠ .rest) ↔
      (t a = .rest → l = []) ∧ ∀ x ∈ l.dropLast, t x ≠ .rest := by
  cases l with
  | nil => simp
  | cons b l => simp

namespace Decoder

/-- Written items are read back up to the last byte. -/
theorem readAll_bytes {items : List Item} (writable : ∀ item ∈ items, item.isWritable = true)
    (tail : ∀ item ∈ items.dropLast, item.type ≠ .rest) :
    readAll (items.map Item.type) ⟨items.flatMap Item.bytes⟩ = (.ok items, ⟨[]⟩) := by
  induction items with
  | nil => rfl
  | cons item items ih =>
      rw [List.forall_mem_cons] at writable
      obtain ⟨last, later⟩ := forall_dropLast_cons.mp tail
      rw [List.map_cons, List.flatMap_cons, readAll,
        read_encode (Item.encode_of_isWritable writable.1) fun rest => by simp [last rest]]
      simp only [ih writable.2 later]

/-- What is read is cut into the pieces that the values are written as. -/
theorem exists_of_readAll {types : List FieldType} {d left : Decoder} {items : List Item}
    (h : d.readAll types = (.ok items, left)) :
    ∃ pieces : List Bytes, pieces.length = types.length ∧
      d.unread = pieces.flatten ++ left.unread ∧
      ∀ e, Packet.writeItems items e =
        (e.append (List.zipWith FieldType.canonical types pieces).flatten, none) := by
  induction types generalizing d items with
  | nil =>
      cases h
      exact ⟨[], rfl, rfl, fun e => by simp [Packet.writeItems, Encoder.append]⟩
  | cons t types ih =>
      rw [readAll] at h
      split at h
      · cases h
      · rename_i value d₁ first
        split at h
        · cases h
        · rename_i items d₂ others
          cases h
          obtain ⟨piece, front, written⟩ := encode_of_read first
          obtain ⟨pieces, counted, behind, all⟩ := ih others
          refine ⟨piece :: pieces, by simp [counted], ?_, fun e => ?_⟩
          · rw [front, behind, List.flatten_cons, List.append_assoc]
          · simp only [Packet.writeItems, Encoder.write, Item.encode, written, Except.map, all,
              Encoder.append, List.zipWith_cons_cons, List.flatten_cons, List.append_assoc]

end Decoder

theorem FieldType.zipWith_canonical {types : List FieldType} (h : .bool ∉ types)
    {pieces : List Bytes} (counted : pieces.length = types.length) :
    List.zipWith canonical types pieces = pieces := by
  induction types generalizing pieces with
  | nil => simp [List.length_eq_zero_iff.mp counted]
  | cons t types ih =>
      rw [List.mem_cons, not_or] at h
      cases pieces with
      | nil => cases counted
      | cons piece pieces =>
          rw [List.zipWith_cons_cons, canonical_of_ne_bool (Ne.symm h.1),
            ih h.2 (Nat.succ.inj counted)]

/-! ### Packets -/

theorem Record.decode_bytes {layout : Layout} (values old : Record layout)
    (writable : ∀ item ∈ values.items, item.isWritable = true)
    (tail : ∀ field ∈ layout.dropLast, field.type ≠ .rest) :
    old.decode ⟨values.items.flatMap Item.bytes⟩ = (values, ⟨[]⟩, none) := by
  induction layout with
  | nil => rfl
  | cons field fields ih =>
      obtain ⟨value, values⟩ := values
      obtain ⟨_, old⟩ := old
      rw [items_cons, List.forall_mem_cons] at writable
      obtain ⟨last, later⟩ := forall_dropLast_cons.mp tail
      have behind : field.type = .rest → values.items.flatMap Item.bytes = [] := by
        intro rest
        obtain rfl := last rest
        rfl
      rw [items_cons, List.flatMap_cons, decode,
        Decoder.read_encode (Item.encode_of_isWritable writable.1) behind]
      simp only [ih values old writable.2 later]

namespace Packet

/-- A packet can be written, and reading the id and then the payload into another packet gives
it again, with nothing left. -/
def ReadsBackInto (packet old : Packet) : Prop :=
  ∃ bytes payload, packet.body = .ok bytes ∧
    Decoder.read .i16 ⟨bytes⟩ = (.ok packet.id, payload) ∧
    old.decode payload = ⟨packet, ⟨[]⟩, none⟩

theorem ReadsBackInto.of_decode {packet old : Packet} {items : List Item}
    (payload : packet.payload = written items)
    (writable : ∀ item ∈ items, item.isWritable = true)
    (decoded : old.decode ⟨items.flatMap Item.bytes⟩ = ⟨packet, ⟨[]⟩, none⟩) :
    packet.ReadsBackInto old := by
  refine ⟨_, _, ?_, Decoder.read_id packet.id _, decoded⟩
  simp only [body, encode, payload, written, writeItems_of_forall writable]
  rfl

/-- A packet that is written field by field is read back. -/
theorem readsBackInto_app {type : PacketType} (byFields : type.codec = .fields type.layout)
    (values old : Record type.layout) (writable : ∀ item ∈ values.items, item.isWritable = true)
    (tail : ∀ field ∈ type.layout.dropLast, field.type ≠ .rest) :
    (app type values).ReadsBackInto (app type old) := by
  refine .of_decode (by rw [payload, byFields]; rfl) writable ?_
  rw [decode, byFields]
  simp only [Codec.decode, Record.decode_bytes values old writable tail]

theorem readsBackInto_handshake (kind old : HandshakeKind) (version oldVersion : Int32) :
    (handshake kind version).ReadsBackInto (handshake old oldVersion) := by
  refine .of_decode (payload_handshake kind version) (by simp [Item.isWritable, Item.encode,
    FieldType.encode, Except.isOk, Except.toBool]) ?_
  have laidOut : [⟨.i32, kind.code⟩, ⟨.i32, version⟩].flatMap Item.bytes =
      BigEndian.encode 4 kind.code.toUInt32.toNat ++
        (BigEndian.encode 4 version.toUInt32.toNat ++ []) := rfl
  simp only [laidOut, decode, Decoder.read_i32, HandshakeKind.ofCode?_code]

theorem readsBackInto_keepAlive (response old : Bool) :
    (keepAlive response).ReadsBackInto (keepAlive old) := by
  refine .of_decode (payload_keepAlive response) (by simp [Item.isWritable, Item.encode,
    FieldType.encode, Except.isOk, Except.toBool]) ?_
  cases response <;> rfl

theorem isWritable_str {text : String} (short : text.utf8ByteSize ≤ FieldType.maxText) :
    (⟨.str, text⟩ : Item).isWritable = true := by
  rw [Item.isWritable, Item.encode, FieldType.encode]
  simp only [Utf8.length_encode, if_pos short]
  rfl

theorem readsBackInto_close {message : String}
    (short : message.utf8ByteSize ≤ FieldType.maxText) (old : String) :
    (close message).ReadsBackInto (close old) := by
  have writable := isWritable_str short
  refine .of_decode (payload_close message) (by simpa using writable) ?_
  have read : Decoder.read .str ⟨Item.bytes ⟨.str, message⟩ ++ []⟩ = (.ok message, ⟨[]⟩) :=
    Decoder.read_encode (Item.encode_of_isWritable writable) fun _ => rfl
  rw [List.append_nil] at read
  simp only [List.flatMap_cons, List.flatMap_nil, List.append_nil, decode, read]

theorem readsBackInto_text {line : String} (short : line.utf8ByteSize ≤ FieldType.maxText)
    (old : String) : (text line).ReadsBackInto (text old) := by
  refine readsBackInto_app rfl _ _ ?_ (by simp [PacketType.text])
  intro item mem
  obtain rfl := List.mem_singleton.mp (show item ∈ [(⟨.str, line⟩ : Item)] from mem)
  exact isWritable_str short

end Packet

/-! ### Both directions -/

/-- Writing and reading undo each other. A write fails only for a text of more than 65535 bytes and
leaves the encoder as it was; the id and the types of what could be written read exactly that back
and leave nothing, if nothing stands behind the rest of a payload; whatever bytes a row of types
reads, the values are written as the bytes that were taken, but for a truth value, which is
written as zero or one; and the protocol's packets come back from any packet of their kind. -/
theorem payloads_roundTrip (id : PacketId) (items : List Item)
    (tail : ∀ item ∈ items.dropLast, item.type ≠ .rest) :
    (∀ (item : Item) (e e' : Encoder) (failure : EncodeError),
      Packet.writeItems [item] e = (e', some failure) ↔
        e' = e ∧ ∃ text, item = ⟨.str, text⟩ ∧ 65535 < text.utf8ByteSize ∧
          failure = .stringTooLong text.utf8ByteSize) ∧
    (∃ payload,
      Decoder.read .i16 ⟨((Encoder.new id).writeEach items).held⟩ = (.ok id, payload) ∧
      payload.readAll ((items.filter Item.isWritable).map Item.type) =
        (.ok (items.filter Item.isWritable), ⟨[]⟩)) ∧
    (∀ (types : List FieldType) (d left : Decoder) (values : List Item),
      d.readAll types = (.ok values, left) →
        ∃ pieces : List Bytes, pieces.length = types.length ∧
          d.unread = pieces.flatten ++ left.unread ∧
          (∀ e, Packet.writeItems values e =
            (e.append (List.zipWith FieldType.canonical types pieces).flatten, none)) ∧
          (.bool ∉ types → ∀ e, Packet.writeItems values e = (e.append pieces.flatten, none))) ∧
    (∀ kind old version oldVersion,
      (Packet.handshake kind version).ReadsBackInto (.handshake old oldVersion)) ∧
    (∀ message old, message.utf8ByteSize ≤ 65535 →
      (Packet.close message).ReadsBackInto (.close old)) ∧
    (∀ response old, (Packet.keepAlive response).ReadsBackInto (.keepAlive old)) ∧
    (∀ line old, line.utf8ByteSize ≤ 65535 →
      (Packet.text line).ReadsBackInto (.text old)) := by
  refine ⟨fun item e e' failure => Packet.writeItems_eq_some, ?_, ?_,
    Packet.readsBackInto_handshake, fun message old short => Packet.readsBackInto_close short old,
    Packet.readsBackInto_keepAlive, fun line old short => Packet.readsBackInto_text short old⟩
  · refine ⟨_, ?_, Decoder.readAll_bytes (fun item mem => (List.mem_filter.mp mem).2) ?_⟩
    · rw [Encoder.held_writeEach]
      exact Decoder.read_id id _
    · have kept := (items.filter_sublist (p := Item.isWritable)).reverse.tail
      rw [List.tail_reverse, List.tail_reverse, List.reverse_sublist] at kept
      exact fun item mem => tail item (kept.subset mem)
  · intro types d left values read
    obtain ⟨pieces, counted, cut, written⟩ := Decoder.exists_of_readAll read
    refine ⟨pieces, counted, cut, written, fun noBool e => ?_⟩
    rw [written, FieldType.zipWith_canonical noBool counted]

/-- A payload with a text and a tail, and bytes in which a truth value is 9. -/
theorem payloads_roundTrip_tail :
    (∀ item ∈ ([⟨.i32, -5⟩, ⟨.str, "ü"⟩, ⟨.rest, [7, 8]⟩] : List Item).dropLast,
      item.type ≠ .rest) ∧
    (∃ payload,
      Decoder.read .i16 ⟨((Encoder.new 3).writeEach
        [⟨.i32, -5⟩, ⟨.str, "ü"⟩, ⟨.rest, [7, 8]⟩]).held⟩ = (.ok 3, payload) ∧
      payload.readAll [.i32, .str, .rest] =
        (.ok [⟨.i32, -5⟩, ⟨.str, "ü"⟩, ⟨.rest, [7, 8]⟩], ⟨[]⟩)) ∧
    ∃ pieces : List Bytes, [9, 255, 4] = pieces.flatten ++ [4] ∧
      ∀ e, Packet.writeItems [⟨.bool, true⟩, ⟨.i8, -1⟩] e =
        (e.append (List.zipWith FieldType.canonical [.bool, .i8] pieces).flatten, none) := by
  have tail : ∀ item ∈ ([⟨.i32, -5⟩, ⟨.str, "ü"⟩, ⟨.rest, [7, 8]⟩] : List Item).dropLast,
      item.type ≠ .rest := by simp
  obtain ⟨-, readBack, writtenBack, -⟩ := payloads_roundTrip 3 _ tail
  obtain ⟨pieces, -, cut, written, -⟩ :=
    writtenBack [.bool, .i8] ⟨[9, 255, 4]⟩ ⟨[4]⟩ [⟨.bool, true⟩, ⟨.i8, -1⟩] rfl
  exact ⟨tail, readBack, pieces, cut, written⟩

end PacketWire
