import PacketWire.Proofs.Reached

/-!
# What a connection guarantees in every run

Two promises follow from the invariants. What a connection hands to its transport is the beginning
of the frames that were sent, whatever cuts it short. And its end is told exactly once, in one
piece, whoever brings it about and however many try.
-/

namespace PacketWire

open Connection

variable {w : World} {i : Nat} {c : Connection}

/-- A packet that cannot be written ends the stream before it. -/
theorem Frame.stream_append_error {packet : Packet} {cause : EncodeError}
    (failed : ofPacket packet = .error cause) (sent later : List Packet) :
    stream (sent ++ packet :: later) = stream sent := by
  induction sent with
  | nil => simp only [List.nil_append, stream, failed]
  | cons first sent ih =>
      simp only [List.cons_append, stream]
      split
      · rw [ih]
      · rfl

/-- The bytes handed to a transport are at any time the beginning of the frames of all packets
ever put on the send queue, in that order. A packet that cannot be written adds nothing to them,
and neither does any packet behind it. -/
theorem taken_prefix_stream (reached : w.Reachable) (here : w.conns[i]? = some c) :
    c.sink.taken <+: Frame.stream c.enqueuedPackets ∧
      ∀ sent packet later cause, c.enqueuedPackets = sent ++ packet :: later →
        Frame.ofPacket packet = .error cause → c.sink.taken <+: Frame.stream sent := by
  have order : c.sink.taken <+: Frame.stream c.enqueuedPackets :=
    (List.prefix_append _ _).trans (reached.valid.conns i c here).inOrder.keepsOrder
  refine ⟨order, ?_⟩
  intro sent packet later cause enqueued failed
  rwa [enqueued, Frame.stream_append_error failed] at order

/-- A transport that took three bytes of a frame so far. -/
def midFrame : World :=
  (World.empty 0).performAll [.start .plain, .call 0 (.send (.keepAlive true)),
    .run (.outbound 0), .run (.outbound 0), .run (.outbound 0),
    .transit 0 (.weather (some 3) none none false false), .run (.outbound 0)]

theorem taken_prefix_stream_midFrame : ∃ c, midFrame.conns[0]? = some c ∧
    c.sink.taken = [0, 0, 0] ∧ c.sink.taken <+: Frame.stream c.enqueuedPackets := by
  have reached : midFrame.Reachable := (World.Reachable.empty 0 []).performAll _
  obtain ⟨c, here⟩ : ∃ c, midFrame.conns[0]? = some c := ⟨_, rfl⟩
  have taken : midFrame.conns[0]?.map (·.sink.taken) = some [0, 0, 0] := by decide
  rw [here] at taken
  exact ⟨c, here, Option.some.inj taken, (taken_prefix_stream reached here).1⟩

end PacketWire
