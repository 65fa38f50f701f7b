import PacketWire.Proofs.Conveyance
import PacketWire.Proofs.Draining
import PacketWire.Proofs.Healthy

/-!
# An outbound loop that nothing hinders

Where neither writing nor flushing fails, every queued packet can be written and no keep-alive is
originated, the outbound loop only moves what is queued towards the sink: `Flows` says that all else
stays as it is, and nothing but the end of both loops ends it then.
-/

namespace PacketWire

namespace Connection

open PacketWire.Frame PacketWire.Sink

/-- Nothing hinders the outbound loop, which originates no keep-alives, and nothing but the end of
both loops has ended it. -/
structure Unhindered (c : Connection) : Prop extends c.Healthy where
  quiet : c.config.autoKeepAlive = false
  running : c.cancelled = false → c.outboundStopped = false ∧ c.sink.released = none

/-- The outbound loop moved on what was queued, and did nothing else. -/
structure Flows (c d : Connection) : Prop where
  eq : d = { c with
    queue := d.queue
    outbound := d.outbound
    outboundStopped := d.outboundStopped
    activity := d.activity
    buffer := d.buffer
    sink := d.sink }
  unhindered : d.Unhindered
  unaccounted : d.queue.unaccounted ≤ c.queue.unaccounted

variable {c d e : Connection} {slices : List Bytes} {now : Nat}

theorem unhindered_start {setup : Setup} (quiet : setup.config.autoKeepAlive = false) (now : Nat) :
    (start setup now).Unhindered :=
  ⟨⟨⟨rfl, rfl⟩, List.forall_mem_nil _⟩, quiet, fun _ => ⟨rfl, rfl⟩⟩

theorem Flows.trans (first : Flows c d) (second : Flows d e) : Flows c e := by
  refine ⟨?_, second.unhindered, Nat.le_trans second.unaccounted first.unaccounted⟩
  rw [second.eq, first.eq]

/-- Neither the place of the loop nor what it keeps there hinders it. -/
theorem flows_go (h : c.Unhindered) (outbound : Outbound) (activity : Activity)
    (buffer : WriteBuffer) {sink : Sink} (stays : c.sink.Stays sink) :
    Flows c { c with outbound, activity, buffer, sink } where
  eq := rfl
  unhindered := ⟨⟨stays.healthy, h.writable⟩, h.quiet, fun running =>
    ⟨(h.running running).1, stays.released.trans (h.running running).2⟩⟩
  unaccounted := Nat.le_refl _

/-- Neither does less on the send queue. -/
theorem flows_queue (h : c.Unhindered) {queue : SendQueue}
    (packets : queue.packets ⊆ c.queue.packets)
    (unaccounted : queue.unaccounted ≤ c.queue.unaccounted) : Flows c { c with queue } :=
  ⟨rfl, ⟨⟨h.sink, fun packet member => h.writable packet (packets member)⟩, h.quiet, h.running⟩,
    unaccounted⟩

theorem flows_stopWriting (h : c.Unhindered) (cancelled : c.cancelled = true) (now : Nat) :
    Flows c (c.stopWriting now none) := by
  have running {p : Prop} (goesOn : c.cancelled = false) : p := by
    rw [cancelled] at goesOn
    cases goesOn
  exact ⟨rfl, ⟨⟨h.sink, List.forall_mem_nil _⟩, h.quiet, running⟩, Nat.sub_le _ _⟩

theorem flows_takePacket (h : c.Unhindered) (now : Nat) : Flows c (c.takePacket now) := by
  rw [takePacket, SendQueue.pop?]
  split
  · exact flows_go h _ _ _ ⟨h.sink, rfl⟩
  · rename_i packet queue popped
    split at popped
    · cases popped
    · rename_i packet' packets queued
      cases popped
      obtain ⟨body, written⟩ := h.writable packet (queued ▸ List.mem_cons_self)
      rw [written]
      have popped : Flows c { c with queue := { c.queue with packets } } :=
        flows_queue h (queued ▸ List.subset_cons_self packet packets) (Nat.le_refl _)
      exact popped.trans (flows_go popped.unhindered _ _ _ ⟨h.sink, rfl⟩)

theorem flows_writeOn (h : c.Unhindered) (now : Nat) : Flows c (c.writeOn now) := by
  have noKeepAlive : (c.queue.isEmpty && c.keepAliveIsDue now) = false := by
    simp [keepAliveIsDue, h.quiet]
  rw [writeOn, noKeepAlive]
  split
  · rename_i cancelled
    exact flows_stopWriting h cancelled now
  · exact flows_takePacket h now

theorem flows_written (h : c.Unhindered) : Flows c { c with queue := c.queue.written } :=
  flows_queue h (List.Subset.refl _) (Nat.sub_le _ _)

theorem flows_finishPacket (h : c.Unhindered) (now : Nat) : Flows c (c.finishPacket now) := by
  have written := flows_written h
  have done := flows_go written.unhindered c.outbound { c.activity with hasSent := true } c.buffer
    ⟨h.sink, rfl⟩
  exact (written.trans done).trans (flows_writeOn done.unhindered now)

theorem flows_afterFrame (h : c.Unhindered) (now : Nat) : Flows c (c.afterFrame now) := by
  rw [afterFrame]
  split
  · exact flows_go h .flushing c.activity c.buffer ⟨h.sink, rfl⟩
  · exact flows_finishPacket h now

theorem flows_writeSlices (h : c.Unhindered) (step : c.writeSlices now slices = some d) :
    Flows c d := by
  cases slices with
  | nil =>
      cases step
      exact flows_afterFrame h now
  | cons slice slices =>
      simp only [writeSlices] at step
      split at step
      · cases step
      · rename_i failed
        exact absurd failed (WriteBuffer.write_ne_failed h.sink slice)
      · rename_i left buffer sink moved
        have stays := WriteBuffer.stays_of_write h.sink moved
        split at step <;> cases step
        · have placed := flows_go h c.outbound c.activity buffer stays
          exact placed.trans (flows_afterFrame placed.unhindered now)
        · exact flows_go h (.writing _) c.activity buffer stays
        · exact flows_go h (.writing _) c.activity buffer stays

theorem flows_flushOn (h : c.Unhindered) (step : c.flushOn now = some d) : Flows c d := by
  rw [flushOn] at step
  split at step
  · split at step
    · cases step
    · rename_i failed
      exact absurd failed h.sink.flush_ne_failed
    · rename_i flushed
      cases step
      have done := flows_go h c.outbound c.activity .empty (stays_of_flush h.sink flushed)
      exact done.trans (flows_finishPacket done.unhindered now)
  · split at step
    · cases step
    · rename_i failed
      exact absurd failed (WriteBuffer.drain_ne_failed h.sink)
    · rename_i moved
      cases step
      exact flows_go h c.outbound c.activity _ (WriteBuffer.stays_of_drain h.sink moved)

/-- The sink is let go of only once both loops are told to end. -/
theorem flows_releaseSink (h : c.Unhindered) (stopped : c.outboundStopped = true)
    (how : Release) : Flows c (c.releaseSink how) := by
  refine ⟨rfl, ⟨⟨h.sink, h.writable⟩, h.quiet, fun goesOn => ?_⟩, Nat.le_refl _⟩
  rw [(h.running goesOn).1] at stopped
  cases stopped

theorem flows_shutOn (h : c.Unhindered) (stopped : c.outboundStopped = true) {deadline : Nat}
    (step : c.shutOn now deadline = some d) : Flows c d := by
  have moves {buffer : WriteBuffer} {sink : Sink}
      (moved : c.buffer.drain c.sink = .moved () buffer sink) : Flows c { c with buffer, sink } :=
    flows_go h c.outbound c.activity buffer (WriteBuffer.stays_of_drain h.sink moved)
  cases shuts_of_shutOn step with
  | letsGo how => exact flows_releaseSink h stopped how
  | last moved _ how =>
      exact (moves moved).trans (flows_releaseSink (moves moved).unhindered stopped how)
  | moves _ moved => exact moves moved

/-- One stretch of an unhindered outbound loop. -/
theorem flows_outboundStep (h : c.Unhindered) (tallied : c.Tallied)
    (step : c.outboundStep now = some d) : Flows c d := by
  have gaveUp (cancelled : c.cancelled = true) :
      Flows c ({ c with queue := c.queue.written }.stopWriting now none) :=
    (flows_written h).trans (flows_stopWriting (flows_written h).unhindered cancelled now)
  rw [outboundStep] at step
  split at step
  · cases step
    exact flows_writeOn h now
  · split at step
    · rename_i cancelled
      cases step
      exact gaveUp cancelled
    · exact flows_writeSlices h step
  · split at step
    · rename_i cancelled
      cases step
      exact gaveUp cancelled
    · exact flows_flushOn h step
  · split at step
    · rename_i cancelled
      cases step
      exact flows_stopWriting h cancelled now
    · split at step
      · cases step
        have heard : Flows c { c with queue := c.queue.hear } :=
          flows_queue h (List.Subset.refl _) (Nat.le_refl _)
        exact heard.trans (flows_writeOn heard.unhindered now)
      · split at step <;> cases step
        exact flows_writeOn h now
  · rename_i deadline place
    have isOver : c.IsOver := by simpa only [Tallied, place] using tallied
    exact flows_shutOn h isOver.stopped step
  · cases step

theorem Flows.isDrained (h : Flows c d) (drained : c.queue.isDrained = true) :
    d.queue.isDrained = true := by
  have fewer := h.unaccounted
  simp only [SendQueue.isDrained, beq_iff_eq] at drained ⊢
  omega

/-- A sink that has taken all that was queued has done so afterwards. -/
theorem Flows.taken_eq (h : Flows c d) (order : d.InOrder)
    (further : c.sink.taken <+: d.sink.taken) (whole : c.sink.taken = stream c.enqueuedPackets) :
    d.sink.taken = stream d.enqueuedPackets := by
  have within : d.sink.taken <+: stream d.enqueuedPackets :=
    (List.prefix_append _ _).trans order.keepsOrder
  have same : d.enqueuedPackets = c.enqueuedPackets := by rw [h.eq]; rfl
  rw [same, ← whole] at within ⊢
  exact within.eq_of_length_le further.length_le

end Connection

end PacketWire
