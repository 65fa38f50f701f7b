import PacketWire.Proofs.Orderly
import PacketWire.Proofs.Outgoing

/-!
# What a drained send queue means

The send queue only counts. `Tallied` says what its count stands for at each place of the outbound
loop: the packets that are queued, and one more while a frame is under way. Between two frames the
loop leaves bytes unflushed only if another packet is queued, so where the count is zero and the
loop still runs, the buffer is empty and the sink has nothing behind its last flush. A loop that is
over has dropped what was queued, on a connection to which nothing can be added any more.
-/

namespace PacketWire

namespace SendQueue

@[simp] theorem signalled_pushAll (packets : List Packet) (q : SendQueue) :
    (q.pushAll packets).signalled = (q.signalled || !packets.isEmpty) := by
  induction packets generalizing q with
  | nil => simp
  | cons packet packets ih =>
      rw [pushAll_cons, ih]
      simp [push]

/-- Every packet that is counted is queued. -/
def IsLevel (q : SendQueue) : Prop :=
  q.unaccounted = q.packets.length

theorem IsLevel.pushAll {q : SendQueue} (h : q.IsLevel) (packets : List Packet) :
    (q.pushAll packets).IsLevel := by
  rw [IsLevel] at h
  simp [IsLevel, h]

theorem IsLevel.clear {q : SendQueue} (h : q.IsLevel) : q.clear.unaccounted = 0 := by
  rw [IsLevel] at h
  simp [SendQueue.clear, h]

end SendQueue

namespace Frame

/-- Packets that have all been written have their frames, one behind the other. -/
theorem Writes.frames {packets : List Packet} {bytes : Bytes} (h : Writes packets bytes) :
    ∃ frames : List Bytes, packets.map ofPacket = frames.map .ok ∧ bytes = frames.flatten := by
  induction packets generalizing bytes with
  | nil =>
      have none : [] = bytes ++ [] := h []
      exact ⟨[], rfl, by simpa using none.symm⟩
  | cons packet packets ih =>
      cases made : ofPacket packet with
      | error cause =>
          -- nothing would come behind such a packet, not even a keep-alive
          have stuck := h [.keepAlive false]
          rw [List.cons_append, stream, made] at stuck
          obtain ⟨-, silent⟩ := List.append_eq_nil_iff.mp stuck.symm
          cases silent
      | ok frame =>
          have all : frame ++ stream packets = bytes := by
            have whole := h []
            rwa [List.append_nil, stream_cons_ok made, stream, List.append_nil] at whole
          have rest : Writes packets (stream packets) := by
            intro later
            have more := h later
            rw [List.cons_append, stream_cons_ok made, ← all, List.append_assoc] at more
            exact List.append_cancel_left more
          obtain ⟨frames, written, flat⟩ := ih rest
          refine ⟨frame :: frames, ?_, ?_⟩
          · rw [List.map_cons, List.map_cons, made, written]
          · rw [List.flatten_cons, ← flat, all]

/-- Packets that all have frames have a stream of these. -/
theorem stream_of_frames {packets : List Packet} {frames : List Bytes}
    (h : packets.map ofPacket = frames.map .ok) : stream packets = frames.flatten := by
  induction packets generalizing frames with
  | nil =>
      rw [List.map_eq_nil_iff.mp h.symm]
      rfl
  | cons packet packets ih =>
      cases frames with
      | nil => cases h
      | cons frame frames =>
          rw [List.map_cons, List.map_cons, List.cons.injEq] at h
          rw [stream_cons_ok h.1, ih h.2, List.flatten_cons]

end Frame

namespace Connection

/-- Nothing that was written is still on this side of a flush. -/
structure IsFlushed (c : Connection) : Prop where
  held : c.buffer.held = []
  unflushed : c.sink.unflushed = []

/-- Every packet ever put on the send queue has been written whole, and every byte of it is on the
far side of a flush. -/
def HasDelivered (c : Connection) : Prop :=
  c.IsFlushed ∧ ∃ frames : List Bytes, c.enqueuedPackets.map Frame.ofPacket = frames.map .ok ∧
    c.sink.groups.flatten = frames.flatten

/-- What is true at the top of the outbound loop. -/
structure Ready (c : Connection) : Prop where
  level : c.queue.IsLevel
  flushed : c.queue.packets = [] → c.IsFlushed

/-- The outbound loop is over, and nothing is queued or can be. -/
structure IsOver (c : Connection) : Prop where
  stopped : c.outboundStopped = true
  inactive : c.isActive = false
  packets : c.queue.packets = []
  unaccounted : c.queue.unaccounted = 0

/-- What the count of the send queue stands for, by the place of the outbound loop. -/
def Tallied (c : Connection) : Prop :=
  match c.outbound with
  | .starting => c.queue.IsLevel ∧ c.IsFlushed
  | .writing _ => c.queue.written.IsLevel ∧ c.queue.isDrained = false
  | .flushing => c.queue.written.IsLevel ∧ c.queue.isDrained = false
  | .idle _ => c.queue.IsLevel ∧ c.IsFlushed ∧ (c.queue.packets ≠ [] → c.queue.signalled = true)
  | .shutting _ => c.IsOver
  | .finished => c.IsOver ∧ c.sink.released ≠ none

/-- An active connection was not told to end, and no failure of it was reported. -/
def Standing.Fresh (s : Standing) : Prop :=
  s.state = .active → s.cancelled = false ∧ s.failureNotified = false

variable {c d e : Connection} {slices : List Bytes}

theorem Orderly.fresh_standing (h : c.Orderly) : c.standing.Fresh := by
  intro active
  obtain ⟨-, unfailed, -, running⟩ := h.fresh (decide_eq_true active)
  exact ⟨running, unfailed⟩

theorem tallied_start (setup : Setup) (now : Nat) : (start setup now).Tallied :=
  ⟨rfl, rfl, rfl⟩

/-! ### More is sent -/

theorem IsFlushed.sends (h : c.IsFlushed) (sends : Sends c d) : d.IsFlushed :=
  ⟨by rw [sends.buffer, h.held], by rw [sends.sink, h.unflushed]⟩

theorem Ready.sends (h : c.Ready) (sends : Sends c d) : d.Ready := by
  obtain ⟨packets, queue, -⟩ := sends.enqueued
  refine ⟨queue ▸ h.level.pushAll packets, ?_⟩
  intro none
  rw [queue, SendQueue.packets_pushAll, List.append_eq_nil_iff] at none
  exact (h.flushed none.1).sends sends

/-- The count while a frame is under way, when more is sent. -/
theorem written_pushAll {q : SendQueue} (level : q.written.IsLevel) (busy : q.isDrained = false)
    (packets : List Packet) :
    (q.pushAll packets).written.IsLevel ∧ (q.pushAll packets).isDrained = false := by
  simp only [SendQueue.IsLevel, SendQueue.written, SendQueue.isDrained, beq_eq_false_iff_ne,
    SendQueue.packets_pushAll, SendQueue.unaccounted_pushAll, List.length_append] at *
  omega

/-- Sending keeps the tally. Once the loop is over nothing is sent. -/
theorem Tallied.sends (h : c.Tallied) (sends : Sends c d)
    (ends : c.isActive = false → d.isActive = false ∧ d.enqueuedPackets = c.enqueuedPackets) :
    d.Tallied := by
  obtain ⟨packets, queue, enqueued⟩ := sends.enqueued
  have ended (before : c.IsOver) : d.IsOver := by
    obtain ⟨inactive, same⟩ := ends before.inactive
    have none : packets = [] := by simpa [enqueued] using same
    rw [none, SendQueue.pushAll_nil] at queue
    exact ⟨sends.stopped.trans before.stopped, inactive, queue ▸ before.packets,
      queue ▸ before.unaccounted⟩
  rw [Tallied] at h ⊢
  rw [sends.outbound]
  split at h
  · exact ⟨queue ▸ h.1.pushAll packets, h.2.sends sends⟩
  · exact queue ▸ written_pushAll h.1 h.2 packets
  · exact queue ▸ written_pushAll h.1 h.2 packets
  · refine ⟨queue ▸ h.1.pushAll packets, h.2.1.sends sends, ?_⟩
    intro some
    rw [queue, SendQueue.packets_pushAll] at some
    rw [queue, SendQueue.signalled_pushAll]
    cases packets with
    | nil => simpa using h.2.2 (by simpa using some)
    | cons packet packets => simp
  · exact ended h
  · exact ⟨ended h.1, sends.sink ▸ h.2⟩

/-- Neither what arrives nor the conditions of the sink matter to the tally. -/
theorem Tallied.weather (h : c.Tallied) {source : Source} {sink : Sink}
    (unflushed : sink.unflushed = c.sink.unflushed)
    (released : sink.released = c.sink.released) : Tallied { c with source, sink } := by
  rw [Tallied] at h
  split at h <;> rename_i place <;> simp only [Tallied, place]
  · exact ⟨h.1, h.2.held, unflushed.trans h.2.unflushed⟩
  · exact h
  · exact h
  · exact ⟨h.1, ⟨h.2.1.held, unflushed.trans h.2.1.unflushed⟩, h.2.2⟩
  · exact ⟨h.stopped, h.inactive, h.packets, h.unaccounted⟩
  · obtain ⟨isOver, gone⟩ := h
    exact ⟨⟨isOver.stopped, isOver.inactive, isOver.packets, isOver.unaccounted⟩, released ▸ gone⟩

/-! ### The end of the loop -/

theorem Closes.isActive_eq_false {left : Option CloseWait} (h : Closes c (d, left)) :
    d.isActive = false := by
  apply Connection.isActive_eq_false
  cases h with
  | waits _ fits =>
      rw [fits.state_eq]
      decide
  | ends _ closed =>
      rw [closed]
      decide

theorem isActive_close (onLoop : Bool) (now : Nat) (message : String) (expected : Bool)
    (c : Connection) : (c.close onLoop now message expected).1.isActive = false := by
  rw [close]
  split
  · exact (Closes.of_startClosing onLoop now (now + closeTimeout) now .refl).isActive_eq_false
  · rename_i inactive
    exact Bool.eq_false_iff.mpr inactive

theorem isActive_fail (onLoop : Bool) (now : Nat) (cause : Error) (fresh : c.standing.Fresh) :
    (c.fail onLoop now cause).1.isActive = false := by
  rw [fail]
  split
  · rename_i refused
    cases active : c.isActive with
    | false => rfl
    | true =>
        have unfailed : c.failureNotified = false := (fresh (state_eq_active active)).2
        simp [active, unfailed] at refused
  · exact isActive_close onLoop now _ false _

/-- A loop that ends drops what is queued, and the connection is not active then. -/
theorem isOver_stopWriting (now : Nat) {cause : Option Error} (level : c.queue.IsLevel)
    (fresh : c.standing.Fresh) (told : cause = none → c.cancelled = true) :
    (c.stopWriting now cause).Tallied := by
  have ends {d : Connection} (moves : Moves { c with outboundStopped := true } d)
      (inactive : d.isActive = false) : IsOver { d with
        queue := d.queue.clear, outbound := .shutting (now + shutdownTimeout) } := by
    have sends := Sends.of_moves moves
    obtain ⟨packets, queue, -⟩ := sends.enqueued
    refine ⟨sends.stopped, inactive, rfl, ?_⟩
    exact SendQueue.IsLevel.clear (queue ▸ SendQueue.IsLevel.pushAll level packets)
  have halting (halted : (c.cancelled || !c.isActive) = true) : c.isActive = false := by
    cases active : c.isActive with
    | false => rfl
    | true =>
        have running : c.cancelled = false := (fresh (state_eq_active active)).1
        simp [running, active] at halted
  cases cause with
  | none => exact ends .refl (halting (by rw [told rfl]; rfl))
  | some cause =>
      simp only [stopWriting]
      split
      · rename_i halted
        exact ends .refl (halting halted)
      · split
        · exact ends (outcome_close true now endOfStream _).moves (isActive_close true now _ true _)
        · exact ends (outcome_fail true now cause _).moves (isActive_fail true now cause fresh)

theorem tallied_failWriting (now : Nat) (cause : Error) (level : c.queue.written.IsLevel)
    (fresh : c.standing.Fresh) : (c.failWriting now cause).Tallied :=
  isOver_stopWriting (c := { c with queue := c.queue.written }) now level fresh
    fun impossible => by cases impossible

/-! ### From one packet to the next -/

theorem tallied_takePacket (now : Nat) (ready : c.Ready) (fresh : c.standing.Fresh) :
    (c.takePacket now).Tallied := by
  rw [takePacket, SendQueue.pop?]
  split
  · rename_i popped
    split at popped
    · rename_i none
      have flushed := ready.flushed none
      exact ⟨ready.level, ⟨flushed.held, flushed.unflushed⟩, fun some => absurd none some⟩
    · cases popped
  · rename_i packet queue popped
    split at popped
    · cases popped
    · rename_i packet' packets queued
      cases popped
      have counted : c.queue.unaccounted = packets.length + 1 := by
        rw [show c.queue.unaccounted = c.queue.packets.length from ready.level, queued]
        rfl
      have level : SendQueue.IsLevel { c.queue with packets }.written := by
        simp [SendQueue.IsLevel, SendQueue.written, counted]
      split
      · exact tallied_failWriting (c := { c with queue := { c.queue with packets } }) now _ level
          fresh
      · exact ⟨level, by simp [SendQueue.isDrained, counted]⟩

theorem tallied_writeOn (now : Nat) (ready : c.Ready) (fresh : c.standing.Fresh) :
    (c.writeOn now).Tallied := by
  rw [writeOn]
  split
  · rename_i cancelled
    exact isOver_stopWriting now ready.level fresh fun _ => cancelled
  · split
    · obtain ⟨_, _, chat⟩ := originate_eq now c
      refine tallied_takePacket now (ready.sends (sends_originate now c)) ?_
      rw [chat.standing_eq]
      exact fresh
    · exact tallied_takePacket now ready fresh

theorem tallied_finishPacket (now : Nat) (level : c.queue.written.IsLevel)
    (flushed : c.queue.packets = [] → c.IsFlushed) (fresh : c.standing.Fresh) :
    (c.finishPacket now).Tallied :=
  tallied_writeOn (c := { c with
    queue := c.queue.written, activity := { c.activity with hasSent := true } }) now
    ⟨level, fun none => ⟨(flushed none).held, (flushed none).unflushed⟩⟩ fresh

/-- The flush is left out only if another packet is queued. -/
theorem tallied_afterFrame (now : Nat) (level : c.queue.written.IsLevel)
    (busy : c.queue.isDrained = false) (fresh : c.standing.Fresh) : (c.afterFrame now).Tallied := by
  rw [afterFrame]
  split
  · exact ⟨level, busy⟩
  · rename_i batched
    refine tallied_finishPacket now level ?_ fresh
    intro none
    simp [SendQueue.isEmpty, none] at batched

theorem tallied_writeSlices {now : Nat} (level : c.queue.written.IsLevel)
    (busy : c.queue.isDrained = false) (fresh : c.standing.Fresh)
    (step : c.writeSlices now slices = some d) : d.Tallied := by
  unfold writeSlices at step
  split at step
  · cases step
    exact tallied_afterFrame now level busy fresh
  · split at step
    · cases step
    · cases step
      exact tallied_failWriting now _ level fresh
    · rename_i left buffer sink _
      dsimp only at step
      split at step
      · cases step
        exact tallied_afterFrame (c := { c with buffer, sink }) now level busy fresh
      · cases step
        exact ⟨level, busy⟩
      · cases step
        exact ⟨level, busy⟩

theorem tallied_flushOn {now : Nat} (flushing : c.outbound = .flushing)
    (level : c.queue.written.IsLevel) (busy : c.queue.isDrained = false)
    (fresh : c.standing.Fresh) (step : c.flushOn now = some d) : d.Tallied := by
  rw [flushOn] at step
  split at step
  · split at step
    · cases step
    · cases step
      exact tallied_failWriting now _ level fresh
    · rename_i sink flushed
      cases step
      refine tallied_finishPacket (c := { c with buffer := .empty, sink }) now level
        (fun _ => ⟨rfl, ?_⟩) fresh
      rw [Sink.flush] at flushed
      split at flushed
      · cases flushed
      · split at flushed <;> cases flushed
        rfl
  · split at step
    · cases step
    · cases step
      exact tallied_failWriting now _ level fresh
    · cases step
      simp only [Tallied, flushing]
      exact ⟨level, busy⟩

theorem tallied_shutOn {now deadline : Nat} (shutting : c.outbound = .shutting deadline)
    (isOver : c.IsOver) (step : c.shutOn now deadline = some d) : d.Tallied := by
  obtain ⟨stopped, inactive, packets, unaccounted⟩ := isOver
  cases shuts_of_shutOn step with
  | letsGo | last =>
      exact ⟨⟨stopped, inactive, packets, unaccounted⟩, by simp [releaseSink, Sink.release]⟩
  | moves =>
      simp only [Tallied, shutting]
      exact ⟨stopped, inactive, packets, unaccounted⟩

/-- One stretch of the outbound loop keeps the tally. -/
theorem Tallied.outboundStep (h : c.Tallied) (fresh : c.standing.Fresh) {now : Nat}
    (step : c.outboundStep now = some d) : d.Tallied := by
  have gaveUp (level : c.queue.written.IsLevel) (cancelled : c.cancelled = true) :
      ({ c with queue := c.queue.written }.stopWriting now none).Tallied :=
    isOver_stopWriting (c := { c with queue := c.queue.written }) now level fresh
      fun _ => cancelled
  rw [Connection.outboundStep] at step
  split at step <;> rename_i place <;> simp only [Tallied, place] at h
  · cases step
    exact tallied_writeOn now ⟨h.1, fun _ => h.2⟩ fresh
  · split at step
    · rename_i cancelled
      cases step
      exact gaveUp h.1 cancelled
    · exact tallied_writeSlices h.1 h.2 fresh step
  · split at step
    · rename_i cancelled
      cases step
      exact gaveUp h.1 cancelled
    · exact tallied_flushOn place h.1 h.2 fresh step
  · obtain ⟨level, flushed, -⟩ := h
    split at step
    · rename_i cancelled
      cases step
      exact isOver_stopWriting now level fresh fun _ => cancelled
    · split at step
      · cases step
        refine tallied_writeOn (c := { c with queue := c.queue.hear }) now ?_ fresh
        exact ⟨level, fun _ => ⟨flushed.held, flushed.unflushed⟩⟩
      · split at step <;> cases step
        exact tallied_writeOn now ⟨level, fun _ => flushed⟩ fresh
  · exact tallied_shutOn place h step
  · cases step

/-- Between two frames, with nothing queued and nothing unflushed, all has been delivered. -/
theorem hasDelivered_of_isFlushed (flushed : c.IsFlushed) (none : c.queue.packets = [])
    (written : c.HasWritten []) : c.HasDelivered := by
  refine ⟨flushed, ?_⟩
  obtain ⟨done, split, writes⟩ := written
  rw [none, List.append_nil] at split
  rw [flushed.held, Sink.taken, flushed.unflushed] at writes
  simp only [List.flatten_nil, List.append_nil] at writes
  rw [split]
  exact writes.frames

/-- While the outbound loop runs, a drained queue means that everything has been delivered. -/
theorem hasDelivered_of_isDrained (h : c.Tallied) (order : c.InOrder)
    (drained : c.queue.isDrained = true) (running : c.outboundStopped = false) :
    c.HasDelivered := by
  have none (level : c.queue.IsLevel) : c.queue.packets = [] := by
    apply List.eq_nil_of_length_eq_zero
    rw [← show c.queue.unaccounted = c.queue.packets.length from level]
    simpa [SendQueue.isDrained] using drained
  rw [Tallied] at h
  rw [InOrder] at order
  split at h <;> rename_i place <;> simp only [place] at order
  · exact hasDelivered_of_isFlushed h.2 (none h.1) order
  · rw [h.2] at drained
    cases drained
  · rw [h.2] at drained
    cases drained
  · exact hasDelivered_of_isFlushed h.2.1 (none h.1) order
  · rw [h.stopped] at running
    cases running
  · rw [h.1.stopped] at running
    cases running

/-- Where everything was delivered, the sink has taken it. -/
theorem HasDelivered.taken_eq (h : c.HasDelivered) :
    c.sink.taken = Frame.stream c.enqueuedPackets := by
  obtain ⟨flushed, frames, made, flat⟩ := h
  rw [Frame.stream_of_frames made, ← flat, Sink.taken, flushed.unflushed, List.append_nil]

/-- A loop that has finished has let go of the sink. -/
theorem Tallied.released (h : c.Tallied) (finished : c.outbound = .finished) :
    c.sink.released ≠ none := by
  simp only [Tallied, finished] at h
  exact h.2

/-! ### Closing -/

/-- The close message has to be written first. -/
theorem isDrained_startClosing (message : String) (expected : Bool) (c : Connection) :
    (c.startClosing message expected).queue.isDrained = false := by
  simp [startClosing, enqueue, SendQueue.push, SendQueue.isDrained, log]

/-- A close that begins while the outbound loop runs has to wait. -/
theorem cancelled_close (running : c.outboundStopped = false) (onLoop : Bool) (now : Nat)
    (message : String) (expected : Bool) :
    (c.close onLoop now message expected).1.cancelled = c.cancelled := by
  have standing := standing_startClosing message expected c
  have still : (c.startClosing message expected).outboundStopped = false :=
    (congrArg Standing.outboundStopped standing).trans running
  have waits : (c.startClosing message expected).isDrainOver (now + closeTimeout) now = false := by
    have early : ¬now + closeTimeout ≤ now := by
      rw [closeTimeout]
      omega
    simp [isDrainOver, isDrained_startClosing, still, early]
  rw [close]
  split
  · simp only [proceedClose, waits, Bool.false_eq_true, if_false]
    exact congrArg Standing.cancelled standing
  · rfl

theorem cancelled_fail (running : c.outboundStopped = false) (onLoop : Bool) (now : Nat)
    (cause : Error) : (c.fail onLoop now cause).1.cancelled = c.cancelled := by
  have standing := standing_callHook (.failed cause) { c with failureNotified := true }
  rw [fail]
  split
  · rfl
  · rw [cancelled_close ((congrArg Standing.outboundStopped standing).trans running)]
    exact congrArg Standing.cancelled standing

end Connection

end PacketWire
