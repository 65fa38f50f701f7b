import PacketWire.Proofs.ConnectionStep

/-!
# Control packets are understood

An application cannot take the id of a control packet for a type of its own. So whoever receives the
frame of a handshake or a keep-alive makes of it the packet that was sent, whatever else it has
registered.
-/

namespace PacketWire

/-! ### Reading what was written -/

namespace Decoder

theorem number_encode {α : Type} (width n : Nat) (f : Nat → α) (rest : Bytes) :
    number width f ⟨BigEndian.encode width n ++ rest⟩ = (.ok (f (n % 256 ^ width)), ⟨rest⟩) := by
  have front : (BigEndian.encode width n ++ rest).take width = BigEndian.encode width n :=
    List.take_left' (BigEndian.length_encode width n)
  have behind : (BigEndian.encode width n ++ rest).drop width = rest :=
    List.drop_left' (BigEndian.length_encode width n)
  simp only [number, take, front, behind, BigEndian.length_encode, dite_true,
    BigEndian.decode_encode]

theorem read_id (id : PacketId) (rest : Bytes) :
    read .i16 ⟨BigEndian.encode 2 id.toUInt16.toNat ++ rest⟩ = (.ok id, ⟨rest⟩) := by
  rw [read, number_encode]
  simp

theorem read_i32 (value : Int32) (rest : Bytes) :
    read .i32 ⟨BigEndian.encode 4 value.toUInt32.toNat ++ rest⟩ = (.ok value, ⟨rest⟩) := by
  rw [read, number_encode]
  simp

theorem read_bool (value : Bool) (rest : Bytes) :
    read .bool ⟨(if value then 1 else 0) :: rest⟩ = (.ok value, ⟨rest⟩) := by
  cases value <;> rfl

end Decoder

/-! ### What stands for a control id -/

namespace Registry

/-- Reserved ids stand for what they stand for in the registry of a new connection. -/
def Guards (r : Registry) : Prop :=
  ∀ id, Packet.isReserved id = true → r.create id = control.create id

theorem guards_control : control.Guards := fun _ _ => rfl

theorem find?_insert_of_ne {r : Registry} {id other : PacketId} (apart : other ≠ id)
    (name : String) (prototype : Packet) :
    (r.insert id name prototype).find? other = r.find? other := by
  obtain ⟨entries⟩ := r
  simp only [insert, find?]
  induction entries with
  | nil => simp [insertEntry, apart.symm]
  | cons first rest ih =>
      simp only [insertEntry]
      split
      · simp [apart.symm]
      · split
        · rename_i same
          have later : first.id ≠ other := fun eq => apart (eq.symm.trans same.symm)
          simp [apart.symm, later]
        · simp only [List.find?_cons, ih]

theorem create_insert_of_ne {r : Registry} {id other : PacketId} (apart : other ≠ id)
    (name : String) (prototype : Packet) :
    (r.insert id name prototype).create other = r.create other := by
  rw [create, find?_insert_of_ne apart, create]

theorem Guards.registerType {r r' : Registry} (h : r.Guards) {a : Announcement}
    (registered : r.registerType a = .ok r') : r'.Guards := by
  rw [Registry.registerType, Registry.register] at registered
  split at registered
  · cases registered
  · rename_i allowed
    split at registered
    · cases registered
      intro id reserved
      have apart : id ≠ a.id := fun same => allowed (same ▸ reserved)
      rw [create_insert_of_ne apart, h id reserved]
    · cases registered

end Registry

namespace Connection

/-- A connection knows the packet types it knew, or was told of one more. -/
theorem registry_of_change {c d : Connection} (change : Change c d) :
    d.registry = c.registry ∨ ∃ a, c.registry.registerType a = .ok d.registry := by
  have same (machinery : d.machinery = c.machinery) : d.registry = c.registry :=
    congrArg Machinery.registry machinery
  cases change with
  | feed | finish | write | place | due => exact .inl rfl
  | move move =>
      cases move with
      | chat chat => exact .inl (same chat.machinery_eq)
      | hook call => exact .inl (same (machinery_callHook call c))
      | register registered => exact .inr ⟨_, registered⟩
      | leave message => exact .inl (same (machinery_startClosing message true c))
      | fail cause =>
          refine .inl (same ?_)
          rw [machinery_startClosing, machinery_callHook]
          rfl
      | _ => exact .inl rfl

end Connection

theorem World.Reachable.guards {w : World} (h : w.Reachable) {i : Nat} {c : Connection}
    (here : w.conns[i]? = some c) : c.registry.Guards := by
  refine h.conns (P := fun c => c.registry.Guards) ?_ ?_ i c here
  · exact fun _ given =>
      Session.registry_setup Registry.guards_control (fun _ _ _ guards => guards.registerType) given
  · intro now c d e closers valid guards share tended
    have changes := (share.changes valid).trans tended.changes
    clear share tended
    induction changes with
    | refl => exact guards
    | tail _ change ih =>
        rcases Connection.registry_of_change change with same | ⟨a, registered⟩
        · exact same ▸ ih
        · exact ih.registerType registered

/-! ### What the frame of a control packet means -/

theorem Frame.packet_body_of_body {packet : Packet} {bytes : Bytes}
    (h : body packet = .ok bytes) : packet.body = .ok bytes := by
  rw [body] at h
  split at h
  · cases h
  · rename_i written
    split at h <;> cases h
    exact written

namespace Reader

variable {r : Reader} {body : Bytes}

/-- The id of an event is that of the frame. -/
theorem id?_of_judge (sound : r.registry.Sound) {event : Event}
    (judged : r.judge body = .event event) : Frame.id? body = some event.id := by
  rw [judge] at judged
  rw [Frame.id?]
  split at judged
  · cases judged
  · rename_i id payload read
    rw [read]
    split at judged
    · cases judged
      rfl
    · rename_i prototype created
      dsimp only at judged
      split at judged
      · cases judged
        rw [Event.id, Packet.id_decode, sound.id_of_create created]
      · split at judged <;> cases judged

theorem judge_handshake (guards : r.registry.Guards) {kind : HandshakeKind} {version : Int32}
    (written : Frame.body (.handshake kind version) = .ok body) :
    r.judge body = .event (.packet (.handshake kind version)) := by
  have made : (Packet.handshake kind version).body = .ok
      (BigEndian.encode 2 Packet.handshakeId.toUInt16.toNat ++
        BigEndian.encode 4 kind.code.toUInt32.toNat ++
        BigEndian.encode 4 version.toUInt32.toNat) := rfl
  obtain rfl := Except.ok.inj (made.symm.trans (Frame.packet_body_of_body written))
  have known : r.registry.create Packet.handshakeId = some (.handshake .request 0) :=
    guards _ rfl
  rw [judge, List.append_assoc, Decoder.read_id]
  simp only [known, Packet.decode, Decoder.read_i32, HandshakeKind.ofCode?_code]
  rw [← List.append_nil (BigEndian.encode 4 version.toUInt32.toNat), Decoder.read_i32]

theorem judge_keepAlive (guards : r.registry.Guards) {response : Bool}
    (written : Frame.body (.keepAlive response) = .ok body) :
    r.judge body = .event (.packet (.keepAlive response)) := by
  have made : (Packet.keepAlive response).body = .ok
      (BigEndian.encode 2 Packet.keepAliveId.toUInt16.toNat ++ [if response then 1 else 0]) := rfl
  obtain rfl := Except.ok.inj (made.symm.trans (Frame.packet_body_of_body written))
  have known : r.registry.create Packet.keepAliveId = some (.keepAlive false) := guards _ rfl
  rw [judge, Decoder.read_id]
  simp only [known, Packet.decode, Decoder.read_bool]

end Reader

end PacketWire
