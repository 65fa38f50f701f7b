import PacketWire.Proofs.Outgoing
import PacketWire.Proofs.Pulling

/-!
# What the writer sends is what the reader gets

The outbound loop begins a frame exactly if the packet can be written and its body is not longer
than a length can say; otherwise neither the sink nor the buffer in front of it gets a byte. While
the slices of a frame are being placed, `IsPlacing` says how far that has come: the sink, the
buffer and the slices that are left hold what was there before and then the frame. On the other
side the inbound loop cuts the bytes into the same bodies again, in any chunks.
-/

namespace PacketWire

namespace Frame

theorem body_eq_ok {packet : Packet} {bytes : Bytes} :
    body packet = .ok bytes ↔ packet.body = .ok bytes ∧ bytes.length ≤ maxBody := by
  rw [body]
  cases packet.body with
  | error cause => simp
  | ok bytes' =>
      dsimp only
      split
      · rename_i short
        simp only [Except.ok.injEq]
        exact ⟨fun same => ⟨same, same ▸ short⟩, fun h => h.1⟩
      · rename_i long
        simp only [reduceCtorEq, Except.ok.injEq, false_iff, not_and]
        exact fun same => same ▸ long

/-- A body holds at least the id of its packet. -/
theorem idSize_le_of_body {packet : Packet} {bytes : Bytes} (h : body packet = .ok bytes) :
    idSize ≤ bytes.length := by
  have framed : ofPacket packet = .ok (ofBody bytes) := by
    rw [ofPacket, h]
    rfl
  obtain ⟨payload, made, -⟩ := ofPacket_eq_ok framed
  obtain rfl : bytes = _ := Except.ok.inj (h.symm.trans made)
  rw [List.length_append, BigEndian.length_encode]
  exact Nat.le_add_right _ _

/-- Bodies of packets can be read back where none is over the limit. -/
theorem admissible_of_map {limit : Nat} {packets : List Packet} {bodies : List Bytes}
    (made : packets.map body = bodies.map .ok) (within : ∀ body ∈ bodies, body.length ≤ limit) :
    ∀ body ∈ bodies, idSize ≤ body.length ∧ body.length ≤ limit ∧ body.length ≤ maxBody := by
  intro bytes member
  have among : Except.ok bytes ∈ packets.map body := made ▸ List.mem_map.mpr ⟨bytes, member, rfl⟩
  obtain ⟨packet, -, written⟩ := List.mem_map.mp among
  exact ⟨idSize_le_of_body written, within bytes member, length_le_maxBody written⟩

end Frame

/-! ### Room and failure -/

namespace Sink

theorem offer_ne_failed {s : Sink} (h : s.writeFailure = none) (bytes : Bytes)
    (cause : TransportError) : s.offer bytes ≠ .failed cause := by
  rw [offer, h]
  dsimp only
  split <;> simp

theorem writeFailure_of_offer {bytes : Bytes} {count : Nat} {s s' : Sink}
    (h : s.offer bytes = .taken count s') : s'.writeFailure = s.writeFailure := by
  rw [offer] at h
  split at h
  · cases h
  · split at h
    · cases h; rfl
    · cases h
    · cases h; rfl

/-- A sink without a limit takes all that it is offered. -/
theorem offer_of_room {s : Sink} (h : s.writeFailure = none) (unlimited : s.room = none)
    (bytes : Bytes) : s.offer bytes =
      .taken bytes.length { s with unflushed := s.unflushed ++ bytes } := by
  have accepted : s.accept bytes.length bytes = { s with unflushed := s.unflushed ++ bytes } := by
    rw [accept, List.take_length, unlimited, Option.map_none, ← unlimited]
  rw [← accepted, offer, h, unlimited]

end Sink

namespace WriteBuffer

variable {b b' : WriteBuffer} {sink sink' : Sink} {slice left : Bytes}

theorem write_ne_failed_of_works (h : sink.writeFailure = none) (cause : TransportError) :
    b.write slice sink ≠ .failed cause := by
  have offered (bytes : Bytes) := sink.offer_ne_failed h bytes
  rw [write, place, drain]
  split
  · cases offer : sink.offer b.held with
    | taken | blocked => simp
    | failed cause' => exact absurd offer (offered _ _)
  · split
    · cases offer : sink.offer slice with
      | taken | blocked => simp
      | failed cause' => exact absurd offer (offered _ _)
    · simp

theorem writeFailure_of_write (h : b.write slice sink = .moved left b' sink') :
    sink'.writeFailure = sink.writeFailure := by
  rw [write, place, drain] at h
  split at h
  · cases offer : sink.offer b.held with
    | taken count s =>
        rw [offer] at h
        cases h
        exact Sink.writeFailure_of_offer offer
    | blocked | failed => rw [offer] at h; cases h
  · split at h
    · cases offer : sink.offer slice with
      | taken count s =>
          rw [offer] at h
          cases h
          exact Sink.writeFailure_of_offer offer
      | blocked | failed => rw [offer] at h; cases h
    · cases h
      rfl

/-- Into a sink without a limit the buffer is emptied at once. -/
theorem drain_of_room (h : sink.writeFailure = none) (unlimited : sink.room = none)
    (b : WriteBuffer) :
    b.drain sink = .moved () ⟨[], true⟩ { sink with unflushed := sink.unflushed ++ b.held } := by
  rw [drain, Sink.offer_of_room h unlimited]
  dsimp only
  rw [List.drop_length]

/-- A slice is placed whole, if the buffer need not be emptied. -/
theorem place_of_room (h : sink.writeFailure = none) (unlimited : sink.room = none)
    (slice : Bytes) (b : WriteBuffer) :
    ∃ b' unflushed, b.place slice sink = .moved [] b' { sink with unflushed } := by
  rw [place]
  split
  · rw [Sink.offer_of_room h unlimited]
    dsimp only
    rw [List.drop_length]
    exact ⟨_, _, rfl⟩
  · exact ⟨_, sink.unflushed, rfl⟩

/-- Otherwise the buffer is emptied first. -/
theorem write_of_room (h : sink.writeFailure = none) (unlimited : sink.room = none)
    (slice : Bytes) (b : WriteBuffer) :
    ∃ left b' unflushed, b.write slice sink = .moved left b' { sink with unflushed } ∧
      (left = [] ∨ left = slice ∧ b.held ≠ [] ∧ b'.held = []) := by
  rw [write]
  split
  · rename_i full
    have held : b.held ≠ [] := by
      intro none
      simp [none] at full
    rw [drain_of_room h unlimited]
    exact ⟨_, _, _, rfl, .inr ⟨rfl, held, rfl⟩⟩
  · obtain ⟨b', unflushed, placed⟩ := place_of_room h unlimited slice b
    exact ⟨_, _, _, placed, .inl rfl⟩

end WriteBuffer

/-! ### A frame is placed -/

namespace Connection

open PacketWire.Frame

/-- `d` is `c` while it writes a frame: what was handed to the sink and the buffer since, and the
slices that are left, are the frame. -/
def IsPlacing (c : Connection) (frame : Bytes) (d : Connection) : Prop :=
  ∃ slice slices buffer sink,
    d = { c with outbound := .writing (slice :: slices), buffer, sink } ∧
    sink.writeFailure = none ∧
    sink.taken ++ buffer.held ++ (slice :: slices).flatten =
      c.sink.taken ++ c.buffer.held ++ frame

/-- `d` is `c` after it wrote a frame. -/
def HasPlaced (c : Connection) (frame : Bytes) (now : Nat) (d : Connection) : Prop :=
  ∃ outbound buffer sink, d = { c with outbound, buffer, sink }.afterFrame now ∧
    sink.taken ++ buffer.held = c.sink.taken ++ c.buffer.held ++ frame

/-- Stretches of the outbound loop. -/
abbrev WritesOn (now : Nat) : Connection → Connection → Prop :=
  Relation.ReflTransGen fun c d => c.outboundStep now = some d

variable {c d e : Connection} {frame : Bytes}

theorem isPlacing_takePacket {packet : Packet} {queue : SendQueue} {body : Bytes}
    (popped : c.queue.pop? = some (packet, queue)) (written : Frame.body packet = .ok body)
    (works : c.sink.writeFailure = none) (now : Nat) :
    IsPlacing { c with queue } (ofBody body) (c.takePacket now) := by
  refine ⟨header body, [body], c.buffer, c.sink, ?_, works, by simp [ofBody]⟩
  simp only [takePacket, popped, written]

/-- The sink may be given any room meanwhile. -/
theorem IsPlacing.giveRoom (h : c.IsPlacing frame d) (room : Option Nat) :
    c.IsPlacing frame { d with sink := { d.sink with room } } := by
  obtain ⟨slice, slices, buffer, sink, rfl, works, same⟩ := h
  exact ⟨slice, slices, buffer, { sink with room }, rfl, works, same⟩

theorem outboundStep_writing {slices : List Bytes} (writing : d.outbound = .writing slices)
    (goesOn : d.cancelled = false) (now : Nat) :
    d.outboundStep now = d.writeSlices now slices := by
  rw [Connection.outboundStep, writing]
  dsimp only
  rw [goesOn, if_neg Bool.false_ne_true]

/-- A stretch of the loop places a part of the frame, or the last. It does not fail. -/
theorem IsPlacing.outboundStep (h : c.IsPlacing frame d) (goesOn : c.cancelled = false) {now : Nat}
    (step : d.outboundStep now = some e) : c.IsPlacing frame e ∨ c.HasPlaced frame now e := by
  obtain ⟨slice, slices, buffer, sink, rfl, works, same⟩ := h
  rw [outboundStep_writing rfl (by exact goesOn), writeSlices] at step
  cases written : buffer.write slice sink with
  | blocked => rw [written] at step; cases step
  | failed cause => exact absurd written (WriteBuffer.write_ne_failed_of_works works cause)
  | moved left buffer' sink' =>
      have exact' := (WriteBuffer.taken_of_write written).2
      have works' := (WriteBuffer.writeFailure_of_write written).trans works
      simp only [written] at step
      rw [List.flatten_cons, ← List.append_assoc, ← exact'] at same
      split at step
      · cases step
        exact .inr ⟨_, _, _, rfl, by simpa using same⟩
      · rename_i slices' more
        cases step
        obtain ⟨next, others, rfl⟩ := List.exists_cons_of_ne_nil more
        exact .inl ⟨next, others, _, _, rfl, works', by simpa using same⟩
      · cases step
        exact .inl ⟨_, _, _, _, rfl, works', by simpa using same⟩

/-- The connection with this much of a frame before it. -/
def withSlices (slices : List Bytes) (buffer : WriteBuffer) (sink : Sink) (c : Connection) :
    Connection :=
  { c with outbound := .writing slices, buffer, sink }

/-- With a sink that takes everything the next slice is placed whole, if need be after the buffer
was emptied. -/
theorem exists_write_whole (goesOn : c.cancelled = false) {sink : Sink}
    (works : sink.writeFailure = none) (unlimited : sink.room = none) (slice : Bytes)
    (slices : List Bytes) (buffer : WriteBuffer) (now : Nat) :
    ∃ buffer₁ sink₁ buffer₂ sink₂,
      WritesOn now (c.withSlices (slice :: slices) buffer sink)
        (c.withSlices (slice :: slices) buffer₁ sink₁) ∧
      buffer₁.write slice sink₁ = .moved [] buffer₂ sink₂ ∧
      sink₂.writeFailure = none ∧ sink₂.room = none ∧
      sink₂.taken ++ buffer₂.held = sink.taken ++ buffer.held ++ slice := by
  have whole {buffer : WriteBuffer} {sink : Sink} {buffer' : WriteBuffer} {sink' : Sink}
      (written : buffer.write slice sink = .moved [] buffer' sink') :
      sink'.taken ++ buffer'.held = sink.taken ++ buffer.held ++ slice := by
    simpa using (WriteBuffer.taken_of_write written).2
  obtain ⟨left, buffer', unflushed, written, placed⟩ :=
    WriteBuffer.write_of_room works unlimited slice buffer
  by_cases done : left = []
  · rw [done] at written
    exact ⟨buffer, sink, buffer', _, .refl, written, works, unlimited, whole written⟩
  · obtain ⟨same, held, empty⟩ := placed.resolve_left done
    rw [same] at written done
    obtain ⟨byte, bytes, rfl⟩ := List.exists_cons_of_ne_nil done
    have works' : ({ sink with unflushed } : Sink).writeFailure = none := works
    obtain ⟨buffer'', unflushed', placed⟩ :=
      WriteBuffer.place_of_room works' unlimited (byte :: bytes) buffer'
    have written' : buffer'.write (byte :: bytes) { sink with unflushed } =
        .moved [] buffer'' { sink with unflushed := unflushed' } := by
      rw [WriteBuffer.write, empty]
      simpa using placed
    have emptied := (WriteBuffer.taken_of_write written).2
    rw [List.append_left_inj] at emptied
    refine ⟨buffer', _, buffer'', _, .single ?_, written', works, unlimited, ?_⟩
    · rw [outboundStep_writing rfl (by exact goesOn), withSlices, writeSlices]
      simp only [written]
      rfl
    · rw [whole written', emptied]

/-- With a sink that takes everything the frame is placed after a few stretches. -/
theorem IsPlacing.exists_hasPlaced (h : c.IsPlacing frame d) (goesOn : c.cancelled = false)
    (unlimited : d.sink.room = none) (now : Nat) :
    ∃ e, WritesOn now d e ∧ c.HasPlaced frame now e := by
  obtain ⟨slice, slices, buffer, sink, rfl, works, same⟩ := h
  change sink.room = none at unlimited
  change ∃ e, WritesOn now (c.withSlices (slice :: slices) buffer sink) e ∧ _
  induction slices generalizing slice buffer sink with
  | nil =>
      obtain ⟨buffer₁, sink₁, buffer₂, sink₂, empties, written, -, -, placed⟩ :=
        exists_write_whole goesOn works unlimited slice [] buffer now
      refine ⟨_, empties.tail (b := c.withSlices [slice] buffer₁ sink₁) ?_,
        .writing [slice], buffer₂, sink₂, rfl, ?_⟩
      · rw [outboundStep_writing rfl (by exact goesOn), withSlices, writeSlices]
        simp only [written]
      · rw [placed, ← same]
        simp
  | cons next slices ih =>
      obtain ⟨buffer₁, sink₁, buffer₂, sink₂, empties, written, works', still, placed⟩ :=
        exists_write_whole goesOn works unlimited slice (next :: slices) buffer now
      have step : (c.withSlices (slice :: next :: slices) buffer₁ sink₁).outboundStep now =
          some (c.withSlices (next :: slices) buffer₂ sink₂) := by
        rw [outboundStep_writing rfl (by exact goesOn), withSlices, writeSlices]
        simp only [written]
        rfl
      have rest : sink₂.taken ++ buffer₂.held ++ (next :: slices).flatten =
          c.sink.taken ++ c.buffer.held ++ frame := by
        rw [placed, ← same]
        simp only [List.flatten_cons, List.append_assoc]
      obtain ⟨e, share, done⟩ := ih next buffer₂ sink₂ works' rest still
      exact ⟨e, (empties.tail step).trans share, done⟩

/-- A packet that cannot be written is given up. -/
theorem takePacket_of_error {packet : Packet} {queue : SendQueue} {cause : EncodeError}
    (popped : c.queue.pop? = some (packet, queue)) (refused : Frame.body packet = .error cause)
    (now : Nat) : c.takePacket now =
      ({ c with queue } : Connection).failWriting now (.encode packet.id cause) := by
  simp only [takePacket, popped, refused]

/-- Giving up a packet places nothing, and no frame is begun any more. -/
theorem failWriting_places_nothing (now : Nat) (cause : Error) (c : Connection) :
    (c.failWriting now cause).sink = c.sink ∧ (c.failWriting now cause).buffer = c.buffer ∧
      (c.failWriting now cause).outbound = .shutting (now + shutdownTimeout) := by
  have closed := machinery_close true now endOfStream true
    { c with queue := c.queue.written, outboundStopped := true }
  have failed := machinery_fail true now cause
    { c with queue := c.queue.written, outboundStopped := true }
  rw [failWriting, stopWriting]
  dsimp only
  split
  · exact ⟨rfl, rfl, rfl⟩
  · split
    · exact ⟨congrArg Machinery.sink closed, congrArg Machinery.buffer closed, rfl⟩
    · exact ⟨congrArg Machinery.sink failed, congrArg Machinery.buffer failed, rfl⟩

end Connection

/-! ### Both sides -/

open Connection in
/-- The reader inverts the writer. A packet is written exactly if it can be encoded into a body
whose length can be said: then its frame is placed, in as many stretches as the sink takes, and
otherwise nothing is. The frames of admissible bodies are read back one after the other, wherever
the chunks are cut, up to the first body over the limit, and what follows is left. What is read at
all was the frame of the body that is returned. -/
theorem frames_roundTrip :
    -- Writing.
    (∀ (c : Connection) (packet : Packet) (queue : SendQueue) (now : Nat),
      c.queue.pop? = some (packet, queue) → c.sink.writeFailure = none → c.cancelled = false →
      (∀ body, packet.body = .ok body → body.length ≤ 2 ^ 31 - 1 →
        IsPlacing { c with queue } (Frame.ofBody body) (c.takePacket now) ∧
        ∀ d, IsPlacing { c with queue } (Frame.ofBody body) d →
          (∀ later e, d.outboundStep later = some e →
            IsPlacing { c with queue } (Frame.ofBody body) e ∨
              HasPlaced { c with queue } (Frame.ofBody body) later e) ∧
          (∀ room, IsPlacing { c with queue } (Frame.ofBody body)
            { d with sink := { d.sink with room } }) ∧
          (d.sink.room = none → ∀ later, ∃ e, WritesOn later d e ∧
            HasPlaced { c with queue } (Frame.ofBody body) later e)) ∧
      ((¬ ∃ body, packet.body = .ok body ∧ body.length ≤ 2 ^ 31 - 1) →
        (∃ cause, c.takePacket now =
          ({ c with queue } : Connection).failWriting now (.encode packet.id cause)) ∧
        (c.takePacket now).sink = c.sink ∧ (c.takePacket now).buffer = c.buffer ∧
        (c.takePacket now).outbound = .shutting (now + shutdownTimeout))) ∧
    -- Reading back.
    (∀ (limit : Nat) (packets : List Packet) (bodies : List Bytes),
      packets.map Frame.body = bodies.map .ok →
      (∀ body ∈ bodies, body.length ≤ limit) →
      ∀ (following ahead : Bytes) (chunks : List Bytes),
        ahead ++ chunks.flatten = bodies.flatMap Frame.ofBody ++ following →
        ∃ ahead' chunks',
          Frame.pullMany limit bodies.length ahead chunks = some (bodies, ahead', chunks') ∧
          ahead' ++ chunks'.flatten = following ∧
          ∀ packet body rest, Frame.body packet = .ok body → limit < body.length →
            following = Frame.ofBody body ++ rest →
            ∃ ahead'' chunks'', Frame.pull limit ahead' chunks' =
              .refused (.overLimit body.length limit) ahead'' chunks'') ∧
    -- What is accepted.
    (∀ (limit : Nat) (ahead ahead' body : Bytes) (chunks chunks' : List Bytes),
      Frame.pull limit ahead chunks = .frame body ahead' chunks' →
        ahead ++ chunks.flatten =
          BigEndian.encode 4 body.length ++ body ++ (ahead' ++ chunks'.flatten) ∧
        2 ≤ body.length ∧ body.length ≤ limit ∧
        (ahead' ++ chunks'.flatten).length + 6 ≤ (ahead ++ chunks.flatten).length) ∧
    -- The inbound loop reads so.
    (∀ (c : Connection) (now : Nat), c.inbound = .reading → c.cancelled = false →
      match Frame.pull c.config.maxFrameLength c.readAhead c.source.chunks with
      | .frame body ahead chunks =>
        ReadsOn now c ((c.withInput ahead chunks).handleBody now body)
      | .refused why ahead chunks =>
        ReadsOn now c ((c.withInput ahead chunks).stopReading now (.protocolViolation why))
      | .waiting ahead => ReadsOn now c (c.withInput ahead []) ∧
        ∀ more, Frame.pull c.config.maxFrameLength c.readAhead (c.source.chunks ++ more) =
          Frame.pull c.config.maxFrameLength ahead more) := by
  refine ⟨fun c packet queue now popped works goesOn => ⟨?_, ?_⟩, ?_, ?_, ?_⟩
  · -- a packet that can be written
    intro body made short
    have written : Frame.body packet = .ok body := Frame.body_eq_ok.mpr ⟨made, short⟩
    exact ⟨isPlacing_takePacket popped written works now, fun d placing =>
      ⟨fun later e step => placing.outboundStep goesOn step, placing.giveRoom,
        fun unlimited later => placing.exists_hasPlaced goesOn unlimited later⟩⟩
  · -- a packet that cannot
    intro none
    cases refused : Frame.body packet with
    | ok body => exact absurd ⟨body, Frame.body_eq_ok.mp refused⟩ none
    | error cause =>
        rw [takePacket_of_error popped refused now]
        exact ⟨⟨cause, rfl⟩, failWriting_places_nothing now _ _⟩
  · intro limit packets bodies made within following ahead chunks input
    obtain ⟨ahead', chunks', read, left⟩ :=
      Frame.pullMany_ofBody (Frame.admissible_of_map made within) input
    refine ⟨ahead', chunks', read, left, ?_⟩
    rintro packet body rest written long rfl
    exact Frame.pull_of_illegal (left ▸ Frame.next_of_long rest
      (Frame.idSize_le_of_body written) long (Frame.length_le_maxBody written))
  · intro limit ahead ahead' body chunks chunks' pulled
    obtain ⟨same, low, high, -⟩ := Frame.eq_of_next (Frame.next_of_pull pulled)
    refine ⟨same, low, high, ?_⟩
    have front : (Frame.ofBody body).length = 4 + body.length := by
      rw [Frame.ofBody, Frame.header, List.length_append, BigEndian.length_encode]
    simp only [Frame.idSize] at low
    rw [same]
    simp only [List.length_append, front]
    omega
  · intro c now reading goesOn
    have read := readsOn_pull reading goesOn now
    cases pulled : Frame.pull c.config.maxFrameLength c.readAhead c.source.chunks with
    | frame body ahead chunks => rwa [pulled] at read
    | refused why ahead chunks => rwa [pulled] at read
    | waiting ahead =>
        rw [pulled] at read
        exact ⟨read, fun more => Frame.pull_append_of_waiting pulled more⟩

open Connection in
/-- Two keep-alives in three chunks with one byte behind them, under a limit that is just their
length, and the first of them on its way out of a new connection. -/
theorem frames_roundTrip_keepAlives :
    (∃ ahead chunks, Frame.pullMany 3 2 []
        [[0, 0, 0], [3, 255, 253, 0, 0, 0], [0, 3, 255, 253, 1, 9]] =
          some ([[255, 253, 0], [255, 253, 1]], ahead, chunks) ∧
      ahead ++ chunks.flatten = [9]) ∧
    ∃ e, WritesOn 0 (((start {} 0).enqueue (.keepAlive false)).takePacket 0) e ∧
      HasPlaced { (start {} 0).enqueue (.keepAlive false) with
        queue := ⟨[], 1, true⟩ } [0, 0, 0, 3, 255, 253, 0] 0 e := by
  obtain ⟨writing, reading, -⟩ := frames_roundTrip
  constructor
  · obtain ⟨ahead, chunks, pulled, left, -⟩ :=
      reading 3 [.keepAlive false, .keepAlive true] [[255, 253, 0], [255, 253, 1]] rfl (by decide)
        [9] [] [[0, 0, 0], [3, 255, 253, 0, 0, 0], [0, 3, 255, 253, 1, 9]] rfl
    exact ⟨ahead, chunks, pulled, left⟩
  · obtain ⟨begins, goesOn⟩ := (writing ((start {} 0).enqueue (.keepAlive false)) (.keepAlive false)
      _ 0 rfl rfl rfl).1 [255, 253, 0] rfl (by decide)
    exact (goesOn _ begins).2.2 rfl 0

end PacketWire
