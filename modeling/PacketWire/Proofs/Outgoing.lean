import PacketWire.Proofs.Moves

/-!
# What the outbound loop has handed on

The bytes that the sink took are the beginning of one fixed byte string: the frames of all packets
ever put on the send queue, in that order, up to the first that cannot be written. While the
outbound loop runs, the packets that it took off the queue are exactly accounted for by the sink,
the buffer and the slices that are not placed yet; this is `HasWritten`. Once the loop is over only
the beginning is kept, which is `KeepsOrder`. `InOrder` picks one by where the loop stands.
-/

namespace PacketWire

namespace Frame

/-- The frames of packets one behind the other, up to the first that cannot be written. -/
def stream : List Packet → Bytes
  | [] => []
  | packet :: packets =>
    match ofPacket packet with
    | .ok frame => frame ++ stream packets
    | .error _ => []

/-- All of these packets can be written, and these are their frames. -/
def Writes (packets : List Packet) (bytes : Bytes) : Prop :=
  ∀ later, stream (packets ++ later) = bytes ++ stream later

variable {packets : List Packet} {bytes : Bytes}

theorem stream_cons_ok {packet : Packet} {frame : Bytes} (h : ofPacket packet = .ok frame)
    (packets : List Packet) : stream (packet :: packets) = frame ++ stream packets := by
  rw [stream, h]

/-- What is sent later comes behind. -/
theorem stream_prefix_append (packets later : List Packet) :
    stream packets <+: stream (packets ++ later) := by
  induction packets with
  | nil => exact List.nil_prefix
  | cons packet packets ih =>
      simp only [List.cons_append, stream]
      split
      · exact (List.prefix_append_right_inj _).mpr ih
      · exact List.prefix_rfl

theorem writes_nil : Writes [] [] :=
  fun _ => rfl

theorem Writes.concat (h : Writes packets bytes) {packet : Packet} {frame : Bytes}
    (written : ofPacket packet = .ok frame) : Writes (packets ++ [packet]) (bytes ++ frame) := by
  intro later
  rw [List.append_assoc, List.append_assoc, h, List.singleton_append, stream_cons_ok written]

theorem Writes.prefix_stream (h : Writes packets bytes) (later : List Packet) :
    bytes <+: stream (packets ++ later) := by
  rw [h]
  exact List.prefix_append _ _

end Frame

namespace Sink

/-- A sink takes bytes from the front. -/
theorem taken_of_offer {bytes : Bytes} {count : Nat} {s s' : Sink}
    (h : s.offer bytes = .taken count s') : s'.taken = s.taken ++ bytes.take count := by
  rw [offer] at h
  split at h
  · cases h
  · split at h
    · cases h
      exact taken_accept _ bytes s
    · cases h
    · cases h
      exact taken_accept _ bytes s

theorem taken_of_flush {s s' : Sink} (h : s.flush = .done s') : s'.taken = s.taken := by
  rw [flush] at h
  split at h
  · cases h
  · split at h
    · cases h
    · cases h
      simp [taken]

end Sink

namespace WriteBuffer

variable {b b' : WriteBuffer} {sink sink' : Sink}

theorem taken_of_drain {left : Unit} (h : b.drain sink = .moved left b' sink') :
    sink.taken <+: sink'.taken ∧ sink'.taken ++ b'.held = sink.taken ++ b.held := by
  rw [drain] at h
  split at h
  · rename_i count sink'' taken
    cases h
    rw [Sink.taken_of_offer taken, List.append_assoc, List.take_append_drop]
    exact ⟨List.prefix_append _ _, rfl⟩
  · cases h
  · cases h

/-- Bytes leave a buffer in order: a slice goes past it only while it is empty. -/
theorem taken_of_write {slice left : Bytes} (h : b.write slice sink = .moved left b' sink') :
    sink.taken <+: sink'.taken ∧
      sink'.taken ++ b'.held ++ left = sink.taken ++ b.held ++ slice := by
  rw [write] at h
  split at h
  · split at h
    · rename_i drained
      cases h
      obtain ⟨kept, same⟩ := taken_of_drain drained
      exact ⟨kept, by rw [same]⟩
    · cases h
    · cases h
  · rename_i room
    rw [place] at h
    split at h
    · rename_i large
      have empty : b.held = [] := by
        cases held : b.held with
        | nil => rfl
        | cons byte bytes =>
            refine absurd ?_ room
            simp only [mustEmpty, held, List.isEmpty_cons, Bool.not_false, Bool.and_true,
              Bool.or_eq_true, decide_eq_true_eq, List.length_cons]
            exact .inr (by omega)
      split at h
      · rename_i count sink'' taken
        cases h
        rw [Sink.taken_of_offer taken, empty]
        exact ⟨List.prefix_append _ _, by simp⟩
      · cases h
      · cases h
    · cases h
      exact ⟨List.prefix_rfl, by simp⟩

end WriteBuffer

namespace Connection

open PacketWire.Frame Entry

/-- The packets that were taken off the send queue fill the sink, the buffer and these slices. -/
def HasWritten (c : Connection) (slices : List Bytes) : Prop :=
  ∃ done, c.enqueuedPackets = done ++ c.queue.packets ∧
    Writes done (c.sink.taken ++ c.buffer.held ++ slices.flatten)

/-- What the sink and the buffer hold is the beginning of what was sent. -/
def KeepsOrder (c : Connection) : Prop :=
  c.sink.taken ++ c.buffer.held <+: stream c.enqueuedPackets

/-- What is true at the place where the outbound loop stands. -/
def InOrder (c : Connection) : Prop :=
  match c.outbound with
  | .starting => c.HasWritten []
  | .writing slices => c.HasWritten slices
  | .flushing => c.HasWritten []
  | .idle _ => c.HasWritten []
  | .shutting _ => c.KeepsOrder
  | .finished => c.KeepsOrder

/-- Packets are sent, and nothing else happens to what goes out. -/
structure Sends (c d : Connection) : Prop where
  enqueued : ∃ packets, d.queue = c.queue.pushAll packets ∧
    d.enqueuedPackets = c.enqueuedPackets ++ packets
  outbound : d.outbound = c.outbound
  buffer : d.buffer = c.buffer
  sink : d.sink = c.sink
  stopped : d.outboundStopped = c.outboundStopped

variable {c d e : Connection} {slices : List Bytes}

namespace Sends

theorem of_eq (queue : d.queue = c.queue) (enqueued : d.enqueuedPackets = c.enqueuedPackets)
    (outbound : d.outbound = c.outbound) (buffer : d.buffer = c.buffer) (sink : d.sink = c.sink)
    (stopped : d.outboundStopped = c.outboundStopped) : Sends c d :=
  ⟨⟨[], queue, by rw [enqueued, List.append_nil]⟩, outbound, buffer, sink, stopped⟩

theorem refl (c : Connection) : Sends c c := of_eq rfl rfl rfl rfl rfl rfl

theorem trans (first : Sends c d) (second : Sends d e) : Sends c e where
  enqueued := by
    obtain ⟨packets, queue, enqueued⟩ := first.enqueued
    obtain ⟨more, queue', enqueued'⟩ := second.enqueued
    refine ⟨packets ++ more, ?_, ?_⟩
    · rw [queue', queue, SendQueue.pushAll_append]
    · rw [enqueued', enqueued, List.append_assoc]
  outbound := second.outbound.trans first.outbound
  buffer := second.buffer.trans first.buffer
  sink := second.sink.trans first.sink
  stopped := second.stopped.trans first.stopped

theorem of_log {entry : Entry} (other : enqueued? entry = none) (c : Connection) :
    Sends c (c.log entry) := by
  refine of_eq rfl ?_ rfl rfl rfl rfl
  rw [enqueuedPackets, recount_log, other, Option.toList_none, List.append_nil, enqueuedPackets]

theorem of_enqueue (packet : Packet) (c : Connection) : Sends c (c.enqueue packet) :=
  ⟨⟨[packet], rfl, recount_enqueue enqueued? packet c⟩, rfl, rfl, rfl, rfl⟩

theorem of_chat {packets : List Packet} {entries : List Entry} (chat : Chat c d packets entries) :
    Sends c d where
  enqueued := by
    refine ⟨packets, ?_, ?_⟩
    · exact chat.queue_eq
    · rw [enqueuedPackets, chat.recount_eq, chat.enqueued, enqueuedPackets]
  outbound := congrArg Machinery.outbound chat.machinery_eq
  buffer := congrArg Machinery.buffer chat.machinery_eq
  sink := congrArg Machinery.sink chat.machinery_eq
  stopped := congrArg Standing.outboundStopped chat.standing_eq

theorem of_callHook (call : HookCall) (c : Connection) : Sends c (c.callHook call) where
  enqueued := by
    obtain ⟨packets, -, enqueued, queue, -⟩ := sends_callHook call c
    exact ⟨packets, queue, enqueued⟩
  outbound := congrArg Machinery.outbound (machinery_callHook call c)
  buffer := congrArg Machinery.buffer (machinery_callHook call c)
  sink := congrArg Machinery.sink (machinery_callHook call c)
  stopped := congrArg Standing.outboundStopped (standing_callHook call c)

theorem of_startClosing (message : String) (expected : Bool) (c : Connection) :
    Sends c (c.startClosing message expected) := by
  have told : Sends c ({ c with state := .closing }.notifyClosed message expected) := by
    rw [notifyClosed]
    split
    · exact of_eq rfl rfl rfl rfl rfl rfl
    · exact trans (d := { c with state := .closing, closeNotified := true })
        (of_eq rfl rfl rfl rfl rfl rfl) (of_callHook (.closed message expected) _)
  exact told.trans (of_enqueue .farewell _)

theorem of_move (move : Move c d) : Sends c d := by
  cases move with
  | chat chat => exact of_chat chat
  | hook call => exact of_callHook call c
  | hear | touch | register | readAhead | go | takeLoops | cancel =>
      exact of_eq rfl rfl rfl rfl rfl rfl
  | @frame body rest =>
      exact trans (d := { c with readAhead := rest }) (of_eq rfl rfl rfl rfl rfl rfl) (of_log rfl _)
  | defer => exact of_log rfl c
  | dispatch => exact of_log rfl c
  | leave message => exact of_startClosing message true c
  | fail cause =>
      exact trans (d := { c with failureNotified := true }) (of_eq rfl rfl rfl rfl rfl rfl)
        ((of_callHook (.failed cause) _).trans (of_startClosing cause.message false _))
  | markClosed =>
      exact trans (d := { c with state := .closed }) (of_eq rfl rfl rfl rfl rfl rfl) (of_log rfl _)

theorem of_moves (moves : Moves c d) : Sends c d := by
  induction moves with
  | refl => exact .refl c
  | tail _ move ih => exact ih.trans (of_move move)

/-- Sending more disturbs nothing that was written. -/
theorem hasWritten (h : Sends c d) (before : c.HasWritten slices) : d.HasWritten slices := by
  obtain ⟨packets, queue, enqueued⟩ := h.enqueued
  obtain ⟨done, split, writes⟩ := before
  refine ⟨done, ?_, ?_⟩
  · rw [enqueued, queue, split, SendQueue.packets_pushAll, List.append_assoc]
  · rw [h.sink, h.buffer]
    exact writes

theorem keepsOrder (h : Sends c d) (before : c.KeepsOrder) : d.KeepsOrder := by
  obtain ⟨packets, -, enqueued⟩ := h.enqueued
  rw [KeepsOrder, h.sink, h.buffer, enqueued]
  exact before.trans (stream_prefix_append _ _)

theorem inOrder (h : Sends c d) (before : c.InOrder) : d.InOrder := by
  rw [InOrder] at *
  rw [h.outbound]
  split at before <;> first | exact h.hasWritten before | exact h.keepsOrder before

end Sends

theorem HasWritten.keepsOrder (h : c.HasWritten slices) : c.KeepsOrder := by
  obtain ⟨done, split, writes⟩ := h
  rw [KeepsOrder, split]
  exact (List.prefix_append _ _).trans (writes.prefix_stream c.queue.packets)

theorem InOrder.keepsOrder (h : c.InOrder) : c.KeepsOrder := by
  rw [InOrder] at h
  split at h <;> first | exact h.keepsOrder | exact h

/-- What going on with the outbound loop of `c` leaves, if `before` is true of it. -/
structure Onward (before : Prop) (c d : Connection) : Prop where
  changes : Changes c d
  /-- A close that begins here is over at once. -/
  standing : (d.state = c.state ∧ d.cancelled = c.cancelled) ∨
    (c.isActive = true ∧ d.state = .closed)
  inbound : d.inbound = c.inbound
  source : d.source = c.source
  registry : d.registry = c.registry
  inOrder : before → d.InOrder

/-- First something that leaves the state alone. -/
theorem Onward.after {before between : Prop} (first : Changes c d)
    (same : (d.state, d.cancelled, d.inbound, d.source, d.registry) =
      (c.state, c.cancelled, c.inbound, c.source, c.registry))
    (keeps : before → between) (h : Onward between d e) : Onward before c e where
  changes := first.trans h.changes
  standing := by
    simp only [Prod.mk.injEq] at same
    rcases h.standing with ⟨state, cancelled⟩ | ⟨active, closed⟩
    · exact .inl ⟨state.trans same.1, cancelled.trans same.2.1⟩
    · refine .inr ⟨?_, closed⟩
      rwa [isActive, ← same.1]
  inbound := by
    simp only [Prod.mk.injEq] at same
    exact h.inbound.trans same.2.2.1
  source := by
    simp only [Prod.mk.injEq] at same
    exact h.source.trans same.2.2.2.1
  registry := by
    simp only [Prod.mk.injEq] at same
    exact h.registry.trans same.2.2.2.2
  inOrder := fun fact => h.inOrder (keeps fact)

/-- The outbound loop changes only what is its own. -/
theorem onward_write {before : Prop} (queue : SendQueue) (outbound : Outbound) (stopped : Bool)
    (activity : Activity)
    (keeps : before → InOrder { c with queue, outbound, outboundStopped := stopped, activity }) :
    Onward before c { c with queue, outbound, outboundStopped := stopped, activity } :=
  ⟨.single (.write c queue outbound stopped activity), .inl ⟨rfl, rfl⟩, rfl, rfl, rfl, keeps⟩

theorem onward_place {before : Prop} (buffer : WriteBuffer) {sink : Sink}
    (taken : c.sink.taken <+: sink.taken) (keeps : before → InOrder { c with buffer, sink }) :
    Onward before c { c with buffer, sink } :=
  ⟨.single (.place c buffer taken), .inl ⟨rfl, rfl⟩, rfl, rfl, rfl, keeps⟩

theorem isDrainOver_of_stopped (stopped : c.outboundStopped = true) (deadline now : Nat) :
    c.isDrainOver deadline now = true := by
  simp [isDrainOver, stopped]

/-- A loop that has stopped taking packets closes at once. -/
theorem close_of_stopped (stopped : c.outboundStopped = true) (now : Nat) (message : String)
    (expected : Bool) : (c.close true now message expected).2 = none := by
  have still : (c.startClosing message expected).outboundStopped = true :=
    (congrArg Standing.outboundStopped (standing_startClosing message expected c)).trans stopped
  rw [close]
  split
  · simp only [proceedClose, isDrainOver_of_stopped still, if_true]
  · rfl

theorem fail_of_stopped (stopped : c.outboundStopped = true) (now : Nat) (cause : Error) :
    (c.fail true now cause).2 = none := by
  rw [fail]
  split
  · rfl
  · refine close_of_stopped ?_ now _ false
    exact (congrArg Standing.outboundStopped (standing_callHook _ _)).trans stopped

/-- Once a close that the end of the loop may have begun is over, what is left is to let go. -/
theorem onward_shutting {before : Prop} (deadline : Nat) (keeps : before → c.KeepsOrder)
    (outcome : Outcome { c with outboundStopped := true } (d, none))
    (machinery : d.machinery = c.machinery) :
    Onward before c { d with queue := d.queue.clear, outbound := .shutting deadline } where
  changes := by
    have stop : Change c { c with outboundStopped := true } :=
      .write c c.queue c.outbound true c.activity
    exact (Moves.changes outcome.moves).head stop |>.tail
      (.write d d.queue.clear (.shutting deadline) d.outboundStopped d.activity)
  standing := by
    cases outcome with
    | calm _ same => exact .inl ⟨congrArg Standing.state same, congrArg Standing.cancelled same⟩
    | closes active closes =>
        cases closes with
        | ends _ closed => exact .inr ⟨active, closed⟩
  inbound := congrArg Machinery.inbound machinery
  source := congrArg Machinery.source machinery
  registry := congrArg Machinery.registry machinery
  inOrder := by
    intro fact
    have order : KeepsOrder { c with outboundStopped := true } := keeps fact
    exact (Sends.of_moves outcome.moves).keepsOrder order

theorem onward_stopWriting (now : Nat) (cause : Option Error) (c : Connection) :
    Onward c.KeepsOrder c (c.stopWriting now cause) := by
  have shuts {result : Connection × Option CloseWait}
      (outcome : Outcome { c with outboundStopped := true } result) (done : result.2 = none)
      (machinery : result.1.machinery = c.machinery) : Onward c.KeepsOrder c { result.1 with
        queue := result.1.queue.clear, outbound := .shutting (now + shutdownTimeout) } := by
    obtain ⟨d, wait⟩ := result
    obtain rfl : wait = none := done
    exact onward_shutting _ id outcome machinery
  cases cause with
  | none => exact shuts (.calm .refl rfl) rfl rfl
  | some cause =>
      simp only [stopWriting]
      split
      · exact shuts (.calm .refl rfl) rfl rfl
      · split
        · exact shuts (outcome_close true now endOfStream _) (close_of_stopped rfl now _ true)
            (machinery_close _ _ _ _ _)
        · exact shuts (outcome_fail true now cause _) (fail_of_stopped rfl now cause)
            (machinery_fail _ _ _ _)

theorem onward_failWriting (now : Nat) (cause : Error) (c : Connection) :
    Onward c.KeepsOrder c (c.failWriting now cause) :=
  (onward_stopWriting now (some cause) { c with queue := c.queue.written }).after
    (.single (.write c c.queue.written c.outbound c.outboundStopped c.activity))
    rfl id

theorem onward_takePacket (now : Nat) (c : Connection) :
    Onward (c.HasWritten []) c (c.takePacket now) := by
  rw [takePacket, SendQueue.pop?]
  split
  · exact onward_write c.queue _ c.outboundStopped c.activity id
  · rename_i packet queue popped
    split at popped
    · cases popped
    · rename_i packet' packets queued
      cases popped
      split
      · rename_i cause failed
        refine (onward_failWriting now (.encode packet.id cause) _).after
          (.single (.write c { c.queue with packets } c.outbound c.outboundStopped
            c.activity)) rfl ?_
        exact fun written => written.keepsOrder
      · rename_i body made
        apply onward_write { c.queue with packets } _ c.outboundStopped c.activity
        rintro ⟨done, split, writes⟩
        refine ⟨done ++ [packet], ?_, ?_⟩
        · change c.enqueuedPackets = _
          rw [split, queued, List.append_assoc, List.singleton_append]
        · have frame : ofPacket packet = .ok (header body ++ body) := by
            rw [ofPacket, made]
            rfl
          simpa using writes.concat frame

/-- A keep-alive that falls due is sent like any other packet. -/
theorem originate_eq (now : Nat) (c : Connection) :
    ∃ packets entries, Chat (c.noteKeepAlive now) (c.originate now) packets entries :=
  chat_send (.keepAlive false) _

theorem sends_originate (now : Nat) (c : Connection) : Sends c (c.originate now) := by
  obtain ⟨packets, entries, chat⟩ := originate_eq now c
  exact Sends.trans (d := { c with activity := { c.activity with lastKeepAlive := some now } })
    (.of_eq rfl rfl rfl rfl rfl rfl) ((Sends.of_log rfl _).trans (.of_chat chat))

theorem onward_writeOn (now : Nat) (c : Connection) :
    Onward (c.HasWritten []) c (c.writeOn now) := by
  rw [writeOn]
  split
  · exact (onward_stopWriting now none c).after .refl rfl HasWritten.keepsOrder
  · split
    · obtain ⟨packets, entries, chat⟩ := originate_eq now c
      have same : ((c.originate now).state, (c.originate now).cancelled,
          (c.originate now).inbound, (c.originate now).source, (c.originate now).registry) =
          (c.state, c.cancelled, c.inbound, c.source, c.registry) := by rw [chat.eq]; rfl
      refine (onward_takePacket now (c.originate now)).after ?_
        same (sends_originate now c).hasWritten
      exact .tail (.tail (.single (.write c c.queue c.outbound c.outboundStopped
        { c.activity with lastKeepAlive := some now })) (.due _ now))
        (.move (.chat chat (requested_of_send (.keepAlive false) _)))
    · exact onward_takePacket now c

theorem onward_finishPacket (now : Nat) (c : Connection) :
    Onward (c.HasWritten []) c (c.finishPacket now) :=
  (onward_writeOn now { c with
    queue := c.queue.written, activity := { c.activity with hasSent := true } }).after
    (.single (.write c c.queue.written c.outbound c.outboundStopped
      { c.activity with hasSent := true })) rfl id

theorem onward_afterFrame (now : Nat) (c : Connection) :
    Onward (c.HasWritten []) c (c.afterFrame now) := by
  rw [afterFrame]
  split
  · exact onward_write c.queue .flushing c.outboundStopped c.activity id
  · exact onward_finishPacket now c

/-- Bytes that go on their way in order are accounted for as before. -/
theorem HasWritten.moved {buffer : WriteBuffer} {sink : Sink} {left : List Bytes}
    (h : c.HasWritten slices)
    (same : sink.taken ++ buffer.held ++ left.flatten =
      c.sink.taken ++ c.buffer.held ++ slices.flatten) :
    HasWritten { c with buffer, sink } left := by
  obtain ⟨done, split, writes⟩ := h
  exact ⟨done, split, same ▸ writes⟩

theorem KeepsOrder.moved {buffer : WriteBuffer} {sink : Sink} (h : c.KeepsOrder)
    (same : sink.taken ++ buffer.held = c.sink.taken ++ c.buffer.held) :
    KeepsOrder { c with buffer, sink } := by
  rw [KeepsOrder] at h ⊢
  rwa [← same] at h

theorem onward_writing (slices : List Bytes) (c : Connection) :
    Onward (c.HasWritten slices) c { c with outbound := .writing slices } :=
  onward_write c.queue (.writing slices) c.outboundStopped c.activity id

theorem onward_writeSlices {now : Nat} (step : c.writeSlices now slices = some d) :
    Onward (c.HasWritten slices) c d := by
  unfold writeSlices at step
  split at step
  · cases step
    exact onward_afterFrame now c
  · rename_i slice slices
    split at step
    · cases step
    · cases step
      exact (onward_failWriting now _ c).after .refl rfl HasWritten.keepsOrder
    · rename_i left buffer sink moved
      obtain ⟨kept, same⟩ := WriteBuffer.taken_of_write moved
      have carry : Changes c { c with buffer, sink } := .single (.place c buffer kept)
      dsimp only at step
      split at step
      · cases step
        refine (onward_afterFrame now _).after carry rfl fun written => written.moved ?_
        simpa using same
      · cases step
        refine (onward_writing slices { c with buffer, sink }).after carry rfl
          fun written => written.moved ?_
        simp only [List.flatten_cons, ← List.append_assoc, ← same]
        simp
      · cases step
        refine (onward_writing (left :: slices) { c with buffer, sink }).after carry rfl
          fun written => written.moved ?_
        simp only [List.flatten_cons, ← List.append_assoc, ← same]

theorem onward_flushOn {now : Nat} (flushing : c.outbound = .flushing)
    (step : c.flushOn now = some d) : Onward (c.HasWritten []) c d := by
  rw [flushOn] at step
  split at step
  · rename_i empty
    split at step
    · cases step
    · cases step
      exact (onward_failWriting now _ c).after .refl rfl HasWritten.keepsOrder
    · rename_i sink flushed
      cases step
      refine (onward_finishPacket now _).after
        (.single (.place c .empty (Sink.taken_of_flush flushed ▸ List.prefix_rfl))) rfl
        fun written => written.moved ?_
      rw [Sink.taken_of_flush flushed, List.isEmpty_iff.mp empty]
      rfl
  · split at step
    · cases step
    · cases step
      exact (onward_failWriting now _ c).after .refl rfl HasWritten.keepsOrder
    · rename_i buffer sink moved
      cases step
      obtain ⟨kept, same⟩ := WriteBuffer.taken_of_drain moved
      apply onward_place buffer kept
      intro written
      simp only [InOrder, flushing]
      apply HasWritten.moved written
      rw [same]

theorem onward_shutOn {now deadline : Nat} (shutting : c.outbound = .shutting deadline)
    (step : c.shutOn now deadline = some d) : Onward c.KeepsOrder c d := by
  have letGo (b : Connection) (how : Release) : Onward b.KeepsOrder b (b.releaseSink how) := by
    have change : Change b { b with sink := b.sink.release how } :=
      .place b b.buffer List.prefix_rfl
    exact Onward.after (.single change) rfl id
      (onward_write b.queue .finished b.outboundStopped b.activity id)
  cases shuts_of_shutOn step with
  | letsGo how => exact letGo c how
  | @last buffer sink moved _ how =>
      obtain ⟨kept, same⟩ := WriteBuffer.taken_of_drain moved
      exact Onward.after (.single (.place c buffer kept)) rfl
        (fun order => KeepsOrder.moved order same) (letGo { c with buffer, sink } how)
  | @moves buffer sink _ moved =>
      obtain ⟨kept, same⟩ := WriteBuffer.taken_of_drain moved
      apply onward_place buffer kept
      intro order
      simp only [InOrder, shutting]
      exact order.moved same

/-- One stretch of the outbound loop. -/
theorem onward_outboundStep {now : Nat} (step : c.outboundStep now = some d) :
    Onward c.InOrder c d := by
  have account : Changes c { c with queue := c.queue.written } :=
    .single (.write c c.queue.written c.outbound c.outboundStopped c.activity)
  rw [outboundStep] at step
  split at step
  · rename_i place
    cases step
    exact (onward_writeOn now c).after .refl rfl fun order => by simpa [InOrder, place] using order
  · rename_i slices place
    split at step
    · cases step
      exact (onward_stopWriting now none { c with queue := c.queue.written }).after account rfl
        InOrder.keepsOrder
    · exact (onward_writeSlices step).after .refl rfl
        fun order => by simpa [InOrder, place] using order
  · rename_i place
    split at step
    · cases step
      exact (onward_stopWriting now none { c with queue := c.queue.written }).after account rfl
        InOrder.keepsOrder
    · exact (onward_flushOn place step).after .refl rfl
        fun order => by simpa [InOrder, place] using order
  · rename_i wake place
    have written (order : c.InOrder) : c.HasWritten [] := by simpa [InOrder, place] using order
    split at step
    · cases step
      exact (onward_stopWriting now none c).after .refl rfl fun order => order.keepsOrder
    · split at step
      · cases step
        exact (onward_writeOn now { c with queue := c.queue.hear }).after
          (.single (.write c c.queue.hear c.outbound c.outboundStopped c.activity))
          rfl written
      · split at step
        · cases step
          exact (onward_writeOn now c).after .refl rfl written
        · cases step
  · rename_i deadline place
    exact (onward_shutOn place step).after .refl rfl
      fun order => by simpa [InOrder, place] using order
  · cases step

end Connection

end PacketWire
