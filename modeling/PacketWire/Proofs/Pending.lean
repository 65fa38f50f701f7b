import PacketWire.Proofs.Bundling

/-!
# What the number of pending packets leaves out

A packet that was put on the send queue waits there, then it is written, then its frame is with the
transport as a whole. `Ledger` divides the packets of a connection up in this way, as long as its
outbound loop takes any. The number that a connection gives as pending is that of the packets that
wait; the one that is being written is not among them, for as long as the transport makes it last.
-/

namespace PacketWire

namespace Connection

/-- Whether the outbound loop is at a frame: it writes one, or flushes behind one. -/
def isWriting (c : Connection) : Bool :=
  match c.outbound with
  | .writing _ => true
  | .flushing => true
  | _ => false

/-- What is placed of the frame of a packet that is being written: a part of it, while the rest is
being written, or all of it, while the loop flushes. -/
inductive Underway (c : Connection) (packet : Packet) (placed : Bytes) : Prop
  | writing {slices : List Bytes} : c.outbound = .writing slices → slices.flatten ≠ [] →
      Frame.ofPacket packet = .ok (placed ++ slices.flatten) → Underway c packet placed
  | flushing : c.outbound = .flushing → Frame.ofPacket packet = .ok placed →
      Underway c packet placed

/-- All packets ever put on the send queue: those with whole frames in the sink and the buffer, the
one that is being written, if there is one, and those that wait. -/
structure Ledger (c : Connection) (done : List Packet) (current : Option Packet) : Prop where
  split : c.enqueuedPackets = done ++ current.toList ++ c.queue.packets
  written : ∃ (frames : List Bytes) (placed : Bytes),
    done.map Frame.ofPacket = frames.map .ok ∧
    c.sink.taken ++ c.buffer.held = frames.flatten ++ placed ∧
    (current = none → placed = []) ∧ ∀ packet ∈ current, Underway c packet placed

variable {c d e : Connection} {now : Nat} {closers : List CloseWait} {each : Bool}
  {ends : List Bool} {done : List Packet} {p : Parcels} {placed : Bytes}

/-- Groups and what is behind them are what the frames in them are. -/
theorem Holds.taken_eq (packed : IsPacked each ends done p) (holds : c.Holds p placed) :
    ∃ frames : List Bytes, done.map Frame.ofPacket = frames.map .ok ∧
      c.sink.taken ++ c.buffer.held = frames.flatten ++ placed := by
  obtain ⟨frames, made, length, rfl⟩ := packed
  refine ⟨frames, made, ?_⟩
  have same : (frames.zip (ends.map (each || ·))).map Prod.fst = frames :=
    List.map_fst_zip (by rw [List.length_map, length])
  rw [Sink.taken, ← holds.1, List.append_assoc, holds.2, ← List.append_assoc]
  conv_rhs => rw [← same, ← Parcels.flatten_pack, List.flatten_append, List.flatten_flatten]

/-- Where a group is about to be closed, the last frame of it is the one being written. -/
theorem Closing.exists_ledger (h : c.Closing each ends) (place : c.outbound = .flushing) :
    ∃ done packet, c.Ledger done (some packet) := by
  obtain ⟨all, p, split, packed, before, last, rfl, groups, held⟩ := h
  obtain ⟨frames, made, length, eq⟩ := packed
  have members : before.flatten ++ last = frames := by
    have flat := Parcels.flatten_pack (frames.zip (ends.map (each || ·)))
    rw [← eq, List.map_fst_zip (by rw [List.length_map, length])] at flat
    simpa using flat
  have packed : last ∈ (Parcels.pack (frames.zip (ends.map (each || ·)))).groups := by
    rw [← eq]
    exact List.mem_append_right _ List.mem_cons_self
  have some : last ≠ [] := Parcels.ne_nil_of_mem_pack packed
  obtain ⟨front, frame, rfl⟩ := List.eq_nil_or_concat last |>.resolve_left some
  rw [List.concat_eq_append] at *
  have taken : c.sink.taken ++ c.buffer.held = (before.flatten ++ front).flatten ++ frame := by
    rw [Sink.taken, ← groups, List.append_assoc, held]
    simp [List.flatten_flatten]
  rw [← members, ← List.append_assoc, List.map_append] at made
  obtain ⟨done, ending, rfl, first, rest⟩ := List.map_eq_append_iff.mp made
  obtain ⟨packet, rfl, whole⟩ := List.map_eq_singleton_iff.mp rest
  refine ⟨done, packet, split, before.flatten ++ front, frame, first, taken, (by simp), ?_⟩
  rintro _ ⟨⟩
  exact .flushing place whole

/-- As long as the outbound loop takes packets, it is known of each where it is. -/
theorem Bundled.exists_ledger (h : c.Bundled each ends) (tallied : c.Tallied) :
    c.IsOver ∨ ∃ done current, c.Ledger done current ∧ current.isSome = c.isWriting ∧
      c.queue.unaccounted = (current.toList ++ c.queue.packets).length := by
  have between (h : c.Between each ends) : ∃ done, c.Ledger done none := by
    obtain ⟨done, p, split, packed, holds⟩ := h
    obtain ⟨frames, made, taken⟩ := holds.taken_eq packed
    exact ⟨done, by simpa using split, frames, [], made, taken, fun _ => rfl, by simp⟩
  -- the count of the queue while a frame is under way
  have busy (level : c.queue.written.IsLevel) (undrained : c.queue.isDrained = false)
      (packet : Packet) :
      c.queue.unaccounted = ((some packet).toList ++ c.queue.packets).length := by
    simp only [SendQueue.IsLevel, SendQueue.written, SendQueue.isDrained, beq_eq_false_iff_ne,
      Option.toList_some, List.singleton_append, List.length_cons] at *
    omega
  rw [Bundled] at h
  rw [Tallied] at tallied
  split at h <;> rename_i place <;> simp only [place] at tallied
  · obtain ⟨done, ledger⟩ := between h
    exact .inr ⟨done, none, ledger, by rw [isWriting, place]; rfl, tallied.1⟩
  · obtain ⟨done, packet, p, placed, split, packed, holds, made, some, full⟩ := h
    obtain ⟨frames, all, taken⟩ := holds.taken_eq packed
    refine .inr ⟨done, packet, ⟨by simpa using split, frames, placed, all, taken, (by simp), ?_⟩,
      by rw [isWriting, place]; rfl, busy tallied.1 tallied.2 packet⟩
    rintro _ ⟨⟩
    exact .writing place (flatten_ne_nil some full) made
  · obtain ⟨done, packet, ledger⟩ := h.exists_ledger place
    exact .inr ⟨done, packet, ledger, by rw [isWriting, place]; rfl,
      busy tallied.1 tallied.2 packet⟩
  · obtain ⟨done, ledger⟩ := between h
    exact .inr ⟨done, none, ledger, by rw [isWriting, place]; rfl, tallied.1⟩
  · exact .inl tallied
  · exact .inl tallied.1

theorem StepsTo.bundles (share : StepsTo now c d) (valid : c.Valid closers)
    (h : c.Bundled each ends) (settings : c.config.flushEach = each) : Bundles each ends c d := by
  cases share with
  | rests => exact .of_sends h (.refl c)
  | acted moves => exact .of_sends h (.of_moves moves)
  | alone alone =>
      cases alone with
      | inbound step => exact .of_sends h (.of_moves (valid.moves_inboundStep step))
      | outbound step => exact bundles_outboundStep h settings step
      | call call =>
          have unheld : c.Valid (closers ++ (none : Option CloseWait).toList ++ []) := by
            simpa using valid
          exact .of_sends h (.of_moves (unheld.moves_of_acts (World.acts_call c call)))

end Connection

namespace World

open Connection

variable {w : World} {i : Nat} {c : Connection}

theorem Reachable.bundled (reached : w.Reachable) (here : w.conns[i]? = some c) :
    ∃ ends, c.Bundled c.config.flushEach ends := by
  refine reached.conns (P := fun c => ∃ ends, c.Bundled c.config.flushEach ends) ?_ ?_ i c here
  · intro setup opening now given
    exact ⟨[], [], .empty, rfl, ⟨[], rfl, rfl, rfl⟩, rfl, rfl⟩
  · rintro now c d e closers valid ⟨ends, bundled⟩ share tended
    have later := Connection.Later.of_changes ((share.changes valid).trans tended.changes)
    have bundles := (share.bundles valid bundled rfl).tended tended
    exact ⟨_, later.settings.1 ▸ bundles.bundled⟩

end World

open Connection

variable {w : World} {i : Nat} {c : Connection}

/-- What the number of pending packets is, in every state of every run. Once the outbound loop is
over nothing is pending. Until then the packets ever put on the send queue are those whose frames
are with the transport as a whole, one that is being written while the loop is at a frame, and those
that wait. Only the latter are pending: the number tells how many are queued or being written
exactly while the loop is not at a frame, and is one less while it is. A drained queue, which is
what a close waits for, is told by the count that has them all. -/
theorem pendingPackets_of_reachable (reached : w.Reachable) (here : w.conns[i]? = some c) :
    (c.IsOver ∧ c.pendingPackets = 0) ∨
    ∃ done current, c.Ledger done current ∧ current.isSome = c.isWriting ∧
      c.queue.unaccounted = (current.toList ++ c.queue.packets).length ∧
      c.queue.unaccounted = c.pendingPackets + (if c.isWriting then 1 else 0) ∧
      (c.isActive = true →
        c.acceptedPackets = done ++ current.toList ++ c.queue.packets ∧
        (c.pendingPackets = 0 → (c.acceptedPackets = done ↔ c.isWriting = false))) := by
  have valid := reached.valid.conns i c here
  obtain ⟨ends, bundled⟩ := reached.bundled here
  rcases bundled.exists_ledger valid.tallied with ended | ⟨done, current, ledger, writing, count⟩
  · exact .inl ⟨ended, by rw [pendingPackets, SendQueue.size, ended.packets, List.length_nil]⟩
  · refine .inr ⟨done, current, ledger, writing, count, ?_, fun active => ?_⟩
    · rw [count, pendingPackets, SendQueue.size, List.length_append, ← writing, Nat.add_comm]
      cases current <;> rfl
    · have accepted : c.acceptedPackets = done ++ current.toList ++ c.queue.packets := by
        have sent := valid.orderly.enqueued
        rw [active, if_pos rfl, List.append_nil] at sent
        exact sent.symm.trans ledger.split
      refine ⟨accepted, fun none => ?_⟩
      rw [accepted, List.eq_nil_of_length_eq_zero (show c.queue.packets.length = 0 from none),
        List.append_nil, ← writing]
      cases current <;> simp

/-- A connection whose transport takes nothing, with a packet that its outbound loop writes. -/
def inHand : World :=
  (World.empty 0).performAll [.start .plain, .transit 0 (.weather (some 0) none none false false),
    .call 0 (.send (.keepAlive false)), .run (.outbound 0)]

/-- Nothing is pending on an active connection, and no byte of what was accepted was written. -/
theorem pendingPackets_eq_zero_inHand : inHand.Reachable ∧
    ∃ c, inHand.conns[0]? = some c ∧ c.isActive = true ∧ c.pendingPackets = 0 ∧
      c.acceptedPackets.length = 1 ∧ c.sink.taken ++ c.buffer.held = [] :=
  ⟨(World.Reachable.empty 0 []).performAll _, _, rfl, rfl, rfl, rfl, rfl⟩

/-- With a second packet behind it one is pending, and two are queued or being written. -/
theorem pendingPackets_oneBehind :
    ∃ c, (inHand.perform (.call 0 (.send (.keepAlive true)))).conns[0]? = some c ∧
      c.pendingPackets = 1 ∧ ∃ done current, c.Ledger done (some current) ∧
      (current :: c.queue.packets).length = 2 := by
  have reached : (inHand.perform (.call 0 (.send (.keepAlive true)))).Reachable :=
    ((World.Reachable.empty 0 []).performAll _).perform _
  obtain ⟨c, here⟩ : ∃ c,
      (inHand.perform (.call 0 (.send (.keepAlive true)))).conns[0]? = some c := ⟨_, rfl⟩
  have facts : (inHand.perform (.call 0 (.send (.keepAlive true)))).conns[0]?.map
      (fun c => (c.isActive, c.isWriting, c.pendingPackets)) = some (true, true, 1) := rfl
  rw [here, Option.map_some, Option.some.injEq] at facts
  simp only [Prod.mk.injEq] at facts
  obtain ⟨active, writing, one⟩ := facts
  refine ⟨c, here, one, ?_⟩
  rcases pendingPackets_of_reachable reached here with
    ⟨ended, -⟩ | ⟨done, current, ledger, busy, all, -⟩
  · cases ended.inactive.symm.trans active
  · rw [writing] at busy
    obtain ⟨packet, rfl⟩ := Option.isSome_iff_exists.mp busy
    refine ⟨done, packet, ledger, ?_⟩
    rw [List.length_cons, show c.queue.packets.length = 1 from one]

end PacketWire
