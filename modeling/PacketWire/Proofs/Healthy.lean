import PacketWire.Connection.Outbound
import PacketWire.Proofs.Hooks
import PacketWire.Proofs.Reading

/-!
# An outbound side without trouble

As long as the sink neither fails nor flushes with a failure and every queued packet can be written,
the outbound loop has nothing to report, so it does not touch what the inbound loop works with.
`Quiet` says that a connection went on in this way: what was received, what was done for the
listeners and the state are as before.
-/

namespace PacketWire

namespace Entry

def sight? : Entry → Option Sight
  | dispatched event => some (.handed event)
  | hook call _ _ => some (.called call)
  | _ => none

theorem isBlind_sight : IsBlind sight? := by
  intro entry chat
  cases entry <;> first | rfl | exact chat.elim

end Entry

namespace Frame

/-- Whether a packet has a frame. -/
def Writable (packet : Packet) : Prop :=
  ∃ bytes, body packet = .ok bytes

theorem writable_of_body {packet : Packet} {bytes : Bytes} (h : packet.body = .ok bytes)
    (short : bytes.length ≤ maxBody) : Writable packet := by
  refine ⟨bytes, ?_⟩
  rw [body, h]
  exact if_pos short

theorem writable_handshake (kind : HandshakeKind) (version : Int32) :
    Writable (.handshake kind version) := by
  apply writable_of_body rfl
  simp [Encoder.append, Encoder.new, maxBody]

theorem writable_keepAlive (response : Bool) : Writable (.keepAlive response) := by
  apply writable_of_body rfl
  simp [Encoder.append, Encoder.new, maxBody]

theorem writable_farewell : Writable .farewell :=
  ⟨_, rfl⟩

end Frame

namespace Sink

/-- Neither writing nor flushing fails. -/
def Healthy (s : Sink) : Prop :=
  s.writeFailure = none ∧ s.flushFailure = none

variable {s s' : Sink} {bytes : Bytes} {cause : TransportError}

theorem Healthy.offer_ne_failed (h : s.Healthy) : s.offer bytes ≠ .failed cause := by
  intro failed
  rw [offer, h.1] at failed
  dsimp only at failed
  split at failed <;> cases failed

/-- What a sink without failures was before, it is: without failures, and released or not. -/
structure Stays (s s' : Sink) : Prop where
  healthy : s'.Healthy
  released : s'.released = s.released

theorem stays_of_offer (h : s.Healthy) {count : Nat} (taken : s.offer bytes = .taken count s') :
    s.Stays s' := by
  rw [offer, h.1] at taken
  dsimp only at taken
  split at taken <;> cases taken <;> exact ⟨h, rfl⟩

theorem stays_of_flush (h : s.Healthy) (flushed : s.flush = .done s') : s.Stays s' := by
  rw [flush, h.2] at flushed
  dsimp only at flushed
  split at flushed <;> cases flushed
  exact ⟨⟨h.1, rfl⟩, rfl⟩

theorem Healthy.flush_ne_failed (h : s.Healthy) : s.flush ≠ .failed cause := by
  intro failed
  rw [flush, h.2] at failed
  dsimp only at failed
  split at failed <;> cases failed

end Sink

namespace WriteBuffer

variable {b b' : WriteBuffer} {sink sink' : Sink} {cause : TransportError}

theorem drain_ne_failed (h : sink.Healthy) : b.drain sink ≠ .failed cause := by
  intro failed
  rw [drain] at failed
  split at failed <;> cases failed
  rename_i refused
  exact h.offer_ne_failed refused

theorem stays_of_drain (h : sink.Healthy) (moved : b.drain sink = .moved () b' sink') :
    sink.Stays sink' := by
  rw [drain] at moved
  split at moved <;> cases moved
  rename_i taken
  exact Sink.stays_of_offer h taken

theorem place_ne_failed (h : sink.Healthy) (slice : Bytes) :
    b.place slice sink ≠ .failed cause := by
  intro failed
  rw [place] at failed
  split at failed
  · split at failed <;> cases failed
    rename_i refused
    exact h.offer_ne_failed refused
  · cases failed

theorem stays_of_place (h : sink.Healthy) {slice left : Bytes}
    (moved : b.place slice sink = .moved left b' sink') : sink.Stays sink' := by
  rw [place] at moved
  split at moved
  · split at moved <;> cases moved
    rename_i taken
    exact Sink.stays_of_offer h taken
  · cases moved
    exact ⟨h, rfl⟩

theorem write_ne_failed (h : sink.Healthy) (slice : Bytes) :
    b.write slice sink ≠ .failed cause := by
  intro failed
  rw [write] at failed
  split at failed
  · split at failed <;> cases failed
    rename_i refused
    exact drain_ne_failed h refused
  · exact place_ne_failed h slice failed

theorem stays_of_write (h : sink.Healthy) {slice left : Bytes}
    (moved : b.write slice sink = .moved left b' sink') : sink.Stays sink' := by
  rw [write] at moved
  split at moved
  · split at moved <;> cases moved
    rename_i drained
    exact stays_of_drain h drained
  · exact stays_of_place h moved

end WriteBuffer

namespace Connection

open PacketWire.Frame Entry

/-- What the inbound loop works with, the state included. -/
structure Intake where
  config : ConnectionConfig
  listener : Option Listener
  delivery : Delivery
  registry : Registry
  state : Lifecycle
  failureNotified : Bool
  closeNotified : Bool
  cancelled : Bool
  inbound : Inbound
  source : Source
  readAhead : Bytes

def intake (c : Connection) : Intake :=
  ⟨c.config, c.listener, c.delivery, c.registry, c.state, c.failureNotified, c.closeNotified,
    c.cancelled, c.inbound, c.source, c.readAhead⟩

/-- What was done for the listeners, first thing first. -/
def sights (c : Connection) : List Sight := c.recount sight?

/-- Nothing hinders the outbound loop. -/
structure Healthy (c : Connection) : Prop where
  sink : c.sink.Healthy
  writable : ∀ packet ∈ c.queue.packets, Writable packet

/-- A connection that went on without regard to what it receives. -/
structure Quiet (c d : Connection) : Prop where
  intake : d.intake = c.intake
  sights : d.sights = c.sights
  healthy : d.Healthy

variable {c d e : Connection}

theorem Quiet.trans (first : Quiet c d) (second : Quiet d e) : Quiet c e :=
  ⟨second.intake.trans first.intake, second.sights.trans first.sights, second.healthy⟩

theorem Quiet.of_eq (h : c.Healthy) (intake : d.intake = c.intake) (journal : d.journal = c.journal)
    (sink : d.sink.Healthy) (packets : d.queue.packets ⊆ c.queue.packets) : Quiet c d := by
  refine ⟨intake, ?_, sink, fun packet member => h.writable packet (packets member)⟩
  simp only [Connection.sights, recount]
  rw [journal]

/-- A packet is sent that can be written. -/
theorem quiet_send (h : c.Healthy) {packet : Packet} (writable : Writable packet) :
    Quiet c (tryTo (c.send packet) c) := by
  cases active : c.isActive with
  | false =>
      rw [send_eq_error active]
      exact ⟨rfl, rfl, h⟩
  | true =>
      rw [send_eq_ok active]
      refine ⟨rfl, ?_, h.sink, ?_⟩
      · exact (Chat.accept active packet).recount_of_isBlind isBlind_sight
      · intro other member
        rcases List.mem_append.mp member with old | new
        · exact h.writable other old
        · exact List.mem_singleton.mp new ▸ writable

theorem quiet_sendHandshake (h : c.Healthy) (kind : HandshakeKind) :
    Quiet c (tryTo (c.sendHandshake kind) c) := by
  have sent := quiet_send h (writable_handshake kind c.config.protocolVersion)
  rw [sendHandshake]
  cases active : c.isActive with
  | false =>
      rw [send_eq_error active]
      exact ⟨rfl, rfl, h⟩
  | true =>
      rw [send_eq_ok active] at sent ⊢
      exact ⟨sent.intake, sent.sights, ⟨sent.healthy.sink, sent.healthy.writable⟩⟩

theorem quiet_stopWriting (h : c.Healthy) (now : Nat) : Quiet c (c.stopWriting now none) :=
  .of_eq h rfl rfl h.sink (List.nil_subset _)

theorem quiet_takePacket (h : c.Healthy) (now : Nat) : Quiet c (c.takePacket now) := by
  rw [takePacket, SendQueue.pop?]
  split
  · exact .of_eq h rfl rfl h.sink (List.Subset.refl _)
  · rename_i packet queue popped
    split at popped
    · cases popped
    · rename_i packet' packets queued
      cases popped
      obtain ⟨bytes, written⟩ := h.writable packet (queued ▸ List.mem_cons_self)
      rw [written]
      exact .of_eq h rfl rfl h.sink (queued ▸ List.subset_cons_self packet packets)

theorem quiet_writeOn (h : c.Healthy) (now : Nat) : Quiet c (c.writeOn now) := by
  rw [writeOn]
  split
  · exact quiet_stopWriting h now
  · split
    · have due : Quiet c ({ c with
          activity := { c.activity with lastKeepAlive := some now } }.log (.keepAliveDue now)) :=
        ⟨rfl, (recount_log sight? _ _).trans (List.append_nil _), h.sink, h.writable⟩
      have sent := due.trans (quiet_send due.healthy (writable_keepAlive false))
      exact sent.trans (quiet_takePacket sent.healthy now)
    · exact quiet_takePacket h now

theorem quiet_finishPacket (h : c.Healthy) (now : Nat) : Quiet c (c.finishPacket now) := by
  have done : Quiet c { c with
      queue := c.queue.written, activity := { c.activity with hasSent := true } } :=
    .of_eq h rfl rfl h.sink (List.Subset.refl _)
  exact done.trans (quiet_writeOn done.healthy now)

theorem quiet_afterFrame (h : c.Healthy) (now : Nat) : Quiet c (c.afterFrame now) := by
  rw [afterFrame]
  split
  · exact .of_eq h rfl rfl h.sink (List.Subset.refl _)
  · exact quiet_finishPacket h now

theorem quiet_moved (h : c.Healthy) (buffer : WriteBuffer) {sink : Sink} (well : sink.Healthy)
    (outbound : Outbound) : Quiet c { c with buffer, sink, outbound } :=
  .of_eq h rfl rfl well (List.Subset.refl _)

theorem quiet_writeSlices (h : c.Healthy) {now : Nat} {slices : List Bytes}
    (step : c.writeSlices now slices = some d) : Quiet c d := by
  cases slices with
  | nil =>
      cases step
      exact quiet_afterFrame h now
  | cons slice slices =>
      simp only [writeSlices] at step
      split at step
      · cases step
      · rename_i failed
        exact absurd failed (WriteBuffer.write_ne_failed h.sink slice)
      · rename_i left buffer sink moved
        have well := (WriteBuffer.stays_of_write h.sink moved).healthy
        split at step <;> cases step
        · have taken := quiet_moved h buffer well c.outbound
          exact taken.trans (quiet_afterFrame taken.healthy now)
        · exact quiet_moved h buffer well _
        · exact quiet_moved h buffer well _

theorem quiet_flushOn (h : c.Healthy) {now : Nat} (step : c.flushOn now = some d) : Quiet c d := by
  rw [flushOn] at step
  split at step
  · split at step
    · cases step
    · rename_i failed
      exact absurd failed h.sink.flush_ne_failed
    · rename_i sink flushed
      cases step
      have done := quiet_moved h .empty (Sink.stays_of_flush h.sink flushed).healthy c.outbound
      exact done.trans (quiet_finishPacket done.healthy now)
  · split at step
    · cases step
    · rename_i failed
      exact absurd failed (WriteBuffer.drain_ne_failed h.sink)
    · rename_i moved
      cases step
      exact quiet_moved h _ (WriteBuffer.stays_of_drain h.sink moved).healthy _

theorem quiet_releaseSink (h : c.Healthy) (how : Release) : Quiet c (c.releaseSink how) :=
  .of_eq h rfl rfl h.sink (List.Subset.refl _)

theorem quiet_shutOn (h : c.Healthy) {now deadline : Nat}
    (step : c.shutOn now deadline = some d) : Quiet c d := by
  have moves {buffer : WriteBuffer} {sink : Sink}
      (moved : c.buffer.drain c.sink = .moved () buffer sink) : Quiet c { c with buffer, sink } :=
    quiet_moved h buffer (WriteBuffer.stays_of_drain h.sink moved).healthy c.outbound
  cases shuts_of_shutOn step with
  | letsGo how => exact quiet_releaseSink h how
  | last moved _ how => exact (moves moved).trans (quiet_releaseSink (moves moved).healthy how)
  | moves _ moved => exact moves moved

/-- The outbound loop of a healthy connection is quiet. -/
theorem quiet_outboundStep (h : c.Healthy) {now : Nat} (step : c.outboundStep now = some d) :
    Quiet c d := by
  have gaveUp : Quiet c ({ c with queue := c.queue.written }.stopWriting now none) :=
    .of_eq h rfl rfl h.sink (List.nil_subset _)
  rw [outboundStep] at step
  split at step
  · cases step
    exact quiet_writeOn h now
  · split at step
    · cases step
      exact gaveUp
    · exact quiet_writeSlices h step
  · split at step
    · cases step
      exact gaveUp
    · exact quiet_flushOn h step
  · split at step
    · cases step
      exact quiet_stopWriting h now
    · split at step
      · cases step
        have heard : Quiet c { c with queue := c.queue.hear } :=
          .of_eq h rfl rfl h.sink (List.Subset.refl _)
        exact heard.trans (quiet_writeOn heard.healthy now)
      · split at step <;> cases step
        exact quiet_writeOn h now
  · exact quiet_shutOn h step
  · cases step

end Connection

end PacketWire
