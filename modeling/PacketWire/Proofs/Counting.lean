import PacketWire.Proofs.Halting
import PacketWire.Proofs.Pending

/-!
# The count of the send queue is exact

The count of a send queue is a natural number, and to take more off it than there is leaves zero.
What was cut off then is never made up for: on a larger count the same steps would have taken off
more. So no more is taken off than there is exactly if the same is taken off any larger count.
`credit` raises the count, and every stretch of the outbound loop commutes with it. Nobody else
takes anything off.
-/

namespace PacketWire

namespace SendQueue

/-- The same queue with more on its count. -/
def credit (k : Nat) (q : SendQueue) : SendQueue :=
  { q with unaccounted := q.unaccounted + k }

variable {k : Nat} {q : SendQueue}

theorem credit_push (packet : Packet) : (q.credit k).push packet = (q.push packet).credit k := by
  simp [credit, push, Nat.add_right_comm]

theorem credit_pop? :
    (q.credit k).pop? = q.pop?.map fun (packet, queue) => (packet, queue.credit k) := by
  rw [pop?, pop?, credit]
  cases q.packets <;> rfl

/-- A packet is accounted for the same way on any larger count if it is on the count at all. -/
theorem credit_written_iff :
    (∀ k, (q.credit k).written = q.written.credit k) ↔ 0 < q.unaccounted := by
  simp only [credit, written, SendQueue.mk.injEq, true_and, and_true]
  constructor
  · intro same
    have := same 1
    omega
  · intro some k
    omega

/-- So is the rest of a queue if all of it is. -/
theorem credit_clear_iff :
    (∀ k, (q.credit k).clear = q.clear.credit k) ↔ q.packets.length ≤ q.unaccounted := by
  simp only [credit, clear, SendQueue.mk.injEq, true_and, and_true]
  constructor
  · intro same
    have := same q.packets.length
    omega
  · intro enough k
    omega

theorem credit_written (busy : q.isDrained = false) :
    (q.credit k).written = q.written.credit k := by
  rw [isDrained, beq_eq_false_iff_ne] at busy
  exact credit_written_iff.mpr (Nat.pos_of_ne_zero busy) k

theorem IsLevel.credit_clear (level : q.IsLevel) : (q.credit k).clear = q.clear.credit k :=
  credit_clear_iff.mpr (Nat.le_of_eq level.symm) k

end SendQueue

namespace Connection

/-- The same connection with more on the count of its send queue. -/
def credit (k : Nat) (c : Connection) : Connection :=
  { c with queue := c.queue.credit k }

variable {c d : Connection} {k now : Nat}

/-! ### Sending, hooks and closing -/

theorem credit_enqueue (packet : Packet) (c : Connection) :
    (c.credit k).enqueue packet = (c.enqueue packet).credit k := by
  rw [enqueue, credit, SendQueue.credit_push]
  rfl

theorem credit_send (packet : Packet) (c : Connection) :
    (c.credit k).send packet = (c.send packet).map (credit k) := by
  rw [send, send, show (c.credit k).isActive = c.isActive from rfl]
  split
  · exact congrArg Except.ok (credit_enqueue packet (c.log (.accepted packet)))
  · rfl

theorem credit_attempt (result : Except Error Connection) (c : Connection) :
    attempt (result.map (credit k)) (c.credit k) =
      ((attempt result c).1, (attempt result c).2.credit k) := by
  cases result <;> rfl

theorem credit_react (reaction : Reaction) (c : Connection) :
    (c.credit k).react reaction = ((c.react reaction).1, (c.react reaction).2.credit k) := by
  cases reaction with
  | send packet =>
      rw [react, credit_send]
      exact credit_attempt _ c
  | handshake =>
      have shaken : (c.credit k).sendHandshake .request =
          (c.sendHandshake .request).map (credit k) := by
        rw [sendHandshake, sendHandshake, show (c.credit k).config = c.config from rfl, credit_send]
        cases c.send (.handshake .request c.config.protocolVersion) <;> rfl
      rw [react, shaken]
      exact credit_attempt _ c
  | close => rfl

theorem credit_reactAll (reactions : List Reaction) (c : Connection) :
    reactAll reactions (c.credit k) =
      ((reactAll reactions c).1, (reactAll reactions c).2.credit k) := by
  induction reactions generalizing c with
  | nil => rfl
  | cons reaction reactions ih => simp [reactAll, credit_react, ih]

theorem credit_callHook (call : HookCall) (c : Connection) :
    (c.credit k).callHook call = (c.callHook call).credit k := by
  simp only [callHook]
  rw [show (c.credit k).listener = c.listener from rfl,
    show (c.credit k).hookCalls = c.hookCalls from rfl, credit_reactAll]
  rfl

theorem credit_startClosing (message : String) (expected : Bool) (c : Connection) :
    (c.credit k).startClosing message expected = (c.startClosing message expected).credit k := by
  have told : ({ c.credit k with state := .closing }.notifyClosed message expected) =
      ({ c with state := .closing }.notifyClosed message expected).credit k := by
    rw [notifyClosed, notifyClosed, apply_ite (credit k),
      show (c.credit k).closeNotified = c.closeNotified from rfl]
    exact ite_congr rfl (fun _ => rfl) fun _ => credit_callHook (.closed message expected)
      { c with state := .closing, closeNotified := true }
  rw [startClosing, told, credit_enqueue]
  rfl

/-- A loop that takes no more packets closes without a look at the count. -/
theorem credit_close (stopped : c.outboundStopped = true) (message : String) (expected : Bool) :
    ((c.credit k).close true now message expected).1 =
      (c.close true now message expected).1.credit k := by
  have still : (c.startClosing message expected).outboundStopped = true :=
    (Sends.of_startClosing message expected c).stopped.trans stopped
  rw [close, close, show (c.credit k).isActive = c.isActive from rfl]
  split
  · rw [credit_startClosing]
    simp only [proceedClose]
    rw [if_pos (isDrainOver_of_stopped still _ now),
      if_pos (isDrainOver_of_stopped (c := (c.startClosing message expected).credit k) still _ now)]
    rfl
  · rfl

theorem credit_fail (stopped : c.outboundStopped = true) (cause : Error) :
    ((c.credit k).fail true now cause).1 = (c.fail true now cause).1.credit k := by
  rw [fail, fail, show (c.credit k).isActive = c.isActive from rfl,
    show (c.credit k).failureNotified = c.failureNotified from rfl]
  split
  · rfl
  · have told := credit_callHook (k := k) (.failed cause) { c with failureNotified := true }
    have still : ({ c with failureNotified := true }.callHook (.failed cause)).outboundStopped =
        true := (Sends.of_callHook (.failed cause) _).stopped.trans stopped
    exact (congrArg (fun d => (d.close true now cause.message false).1) told).trans
      (credit_close still cause.message false)

/-! ### The outbound loop -/

/-- What a loop that has stopped reports before it drops what is queued. -/
def conclude (now : Nat) (cause : Option Error) (c : Connection) : Connection :=
  match cause with
  | none => c
  | some cause =>
    if c.cancelled || !c.isActive then c
    else if cause.isEndOfStream then (c.close true now endOfStream true).1
    else (c.fail true now cause).1

theorem stopWriting_eq (now : Nat) (cause : Option Error) (c : Connection) :
    c.stopWriting now cause =
      { { c with outboundStopped := true }.conclude now cause with
        queue := ({ c with outboundStopped := true }.conclude now cause).queue.clear
        outbound := .shutting (now + shutdownTimeout) } := by
  cases cause <;> rfl

theorem moves_conclude (now : Nat) (cause : Option Error) (c : Connection) :
    Moves c (c.conclude now cause) := by
  cases cause with
  | none => exact .refl
  | some cause =>
      rw [conclude]
      split
      · exact .refl
      · split
        · exact (outcome_close true now endOfStream c).moves
        · exact (outcome_fail true now cause c).moves

theorem credit_conclude (stopped : c.outboundStopped = true) (cause : Option Error) :
    (c.credit k).conclude now cause = (c.conclude now cause).credit k := by
  cases cause with
  | none => rfl
  | some cause =>
      rw [conclude, conclude, credit_close stopped, credit_fail stopped, apply_ite (credit k),
        apply_ite (credit k)]
      rfl

/-- A loop that ends takes off what is queued, after all that its closing has queued. -/
theorem credit_stopWriting (cause : Option Error) (level : c.queue.IsLevel) :
    (c.credit k).stopWriting now cause = (c.stopWriting now cause).credit k := by
  have concluded : conclude now cause (credit k { c with outboundStopped := true }) =
      credit k (conclude now cause { c with outboundStopped := true }) :=
    credit_conclude rfl cause
  obtain ⟨packets, queue, -⟩ :=
    (Sends.of_moves (moves_conclude now cause { c with outboundStopped := true })).enqueued
  rw [stopWriting_eq, stopWriting_eq]
  change { conclude now cause (credit k { c with outboundStopped := true }) with
    queue := (conclude now cause (credit k { c with outboundStopped := true })).queue.clear
    outbound := .shutting (now + shutdownTimeout) } = _
  rw [concluded]
  generalize conclude now cause { c with outboundStopped := true } = d at queue
  have level : d.queue.IsLevel := queue ▸ SendQueue.IsLevel.pushAll level packets
  rw [show (d.credit k).queue.clear = d.queue.clear.credit k from level.credit_clear]
  rfl

theorem credit_failWriting (cause : Error) (level : c.queue.written.IsLevel)
    (busy : c.queue.isDrained = false) :
    (c.credit k).failWriting now cause = (c.failWriting now cause).credit k := by
  have written : { c.credit k with queue := (c.credit k).queue.written } =
      credit k { c with queue := c.queue.written } := by
    rw [show (c.credit k).queue.written = c.queue.written.credit k from
      SendQueue.credit_written busy]
    rfl
  rw [failWriting, written]
  exact credit_stopWriting (c := { c with queue := c.queue.written }) (some cause) level

/-- What is popped is still on the count, so there is something to take off. -/
theorem credit_takePacket (level : c.queue.IsLevel) :
    (c.credit k).takePacket now = (c.takePacket now).credit k := by
  rw [takePacket, takePacket, show (c.credit k).queue.pop? = (c.queue.credit k).pop? from rfl,
    SendQueue.credit_pop?]
  cases popped : c.queue.pop? with
  | none => rfl
  | some front =>
      obtain ⟨packet, queue⟩ := front
      have taken : queue.written.IsLevel ∧ queue.isDrained = false := by
        rw [SendQueue.pop?] at popped
        split at popped
        · cases popped
        · rename_i queued
          cases popped
          rw [SendQueue.IsLevel, queued, List.length_cons] at level
          simp [SendQueue.IsLevel, SendQueue.written, SendQueue.isDrained, level]
      dsimp only [Option.map_some]
      cases Frame.body packet with
      | error cause =>
          exact credit_failWriting (c := { c with queue }) (.encode packet.id cause) taken.1 taken.2
      | ok body => rfl

theorem credit_writeOn (level : c.queue.IsLevel) :
    (c.credit k).writeOn now = (c.writeOn now).credit k := by
  have originated : (c.credit k).originate now = (c.originate now).credit k := by
    let due := log (.keepAliveDue now)
      { c with activity := { c.activity with lastKeepAlive := some now } }
    change tryTo ((due.credit k).send (.keepAlive false)) (due.credit k) =
      (tryTo (due.send (.keepAlive false)) due).credit k
    rw [credit_send, tryTo, credit_attempt, tryTo]
  have more : (c.originate now).queue.IsLevel := by
    obtain ⟨packets, queue, -⟩ := (sends_originate now c).enqueued
    exact queue ▸ level.pushAll packets
  rw [writeOn, writeOn, originated, credit_stopWriting none level, credit_takePacket level,
    credit_takePacket more, apply_ite (credit k), apply_ite (credit k)]
  rfl

theorem credit_finishPacket (level : c.queue.written.IsLevel) (busy : c.queue.isDrained = false) :
    (c.credit k).finishPacket now = (c.finishPacket now).credit k := by
  have written : (c.credit k).queue.written = c.queue.written.credit k :=
    SendQueue.credit_written busy
  rw [finishPacket, written]
  exact credit_writeOn (c := { c with
    queue := c.queue.written, activity := { c.activity with hasSent := true } }) level

theorem credit_afterFrame (level : c.queue.written.IsLevel) (busy : c.queue.isDrained = false) :
    (c.credit k).afterFrame now = (c.afterFrame now).credit k := by
  rw [afterFrame, afterFrame, credit_finishPacket level busy, apply_ite (credit k)]
  rfl

theorem credit_writeSlices (level : c.queue.written.IsLevel) (busy : c.queue.isDrained = false)
    (slices : List Bytes) :
    (c.credit k).writeSlices now slices = (c.writeSlices now slices).map (credit k) := by
  cases slices with
  | nil => exact congrArg some (credit_afterFrame level busy)
  | cons slice slices =>
      rw [writeSlices, writeSlices, show (c.credit k).buffer = c.buffer from rfl,
        show (c.credit k).sink = c.sink from rfl]
      cases c.buffer.write slice c.sink with
      | blocked => rfl
      | failed cause => exact congrArg some (credit_failWriting (.transport cause) level busy)
      | moved left buffer sink =>
          dsimp only
          split
          · exact congrArg some (credit_afterFrame (c := { c with buffer, sink }) level busy)
          · rfl
          · rfl

theorem credit_flushOn (level : c.queue.written.IsLevel) (busy : c.queue.isDrained = false) :
    (c.credit k).flushOn now = (c.flushOn now).map (credit k) := by
  rw [flushOn, flushOn, show (c.credit k).buffer = c.buffer from rfl,
    show (c.credit k).sink = c.sink from rfl]
  split
  · cases c.sink.flush with
    | blocked => rfl
    | failed cause => exact congrArg some (credit_failWriting (.transport cause) level busy)
    | done sink =>
        exact congrArg some
          (credit_finishPacket (c := { c with buffer := .empty, sink }) level busy)
  · cases c.buffer.drain c.sink with
    | blocked => rfl
    | failed cause => exact congrArg some (credit_failWriting (.transport cause) level busy)
    | moved left buffer sink => rfl

/-- The queue is not looked at any more where the sink is shut down. -/
theorem credit_shutOn (deadline : Nat) (c : Connection) :
    (c.credit k).shutOn now deadline = (c.shutOn now deadline).map (credit k) := by
  simp only [shutOn]
  rw [show (c.credit k).buffer = c.buffer from rfl, show (c.credit k).sink = c.sink from rfl]
  have giveUp : (if deadline ≤ now then some ((c.credit k).releaseSink .dropped) else none) =
      (if deadline ≤ now then some (c.releaseSink .dropped) else none).map (credit k) := by
    split <;> rfl
  rw [giveUp]
  split
  · split <;> rfl
  · cases c.buffer.drain c.sink with
    | blocked | failed => rfl
    | moved =>
        dsimp only
        split <;> rfl

theorem outboundStep_of_writing {slices : List Bytes} (place : c.outbound = .writing slices) :
    c.outboundStep now =
      if c.cancelled then some ({ c with queue := c.queue.written }.stopWriting now none)
      else c.writeSlices now slices := by
  simp only [outboundStep, place]

theorem outboundStep_of_flushing (place : c.outbound = .flushing) :
    c.outboundStep now =
      if c.cancelled then some ({ c with queue := c.queue.written }.stopWriting now none)
      else c.flushOn now := by
  simp only [outboundStep, place]

theorem outboundStep_of_idle {wake : Nat} (place : c.outbound = .idle wake) :
    c.outboundStep now =
      if c.cancelled then some (c.stopWriting now none)
      else if c.queue.signalled then some ({ c with queue := c.queue.hear }.writeOn now)
      else if wake ≤ now then some (c.writeOn now)
      else none := by
  simp only [outboundStep, place]

/-- No stretch of the outbound loop takes more off the count than there is. -/
theorem Tallied.credit_outboundStep (h : c.Tallied) (k now : Nat) :
    (c.credit k).outboundStep now = (c.outboundStep now).map (credit k) := by
  have gaveUp (level : c.queue.written.IsLevel) (busy : c.queue.isDrained = false) :
      ({ c.credit k with queue := (c.credit k).queue.written } : Connection).stopWriting now none =
        ({ c with queue := c.queue.written }.stopWriting now none).credit k := by
    rw [show (c.credit k).queue.written = c.queue.written.credit k from
      SendQueue.credit_written busy]
    exact credit_stopWriting (c := { c with queue := c.queue.written }) none level
  rw [Tallied] at h
  split at h <;> rename_i place
  · rw [Connection.outboundStep, Connection.outboundStep]
    simp only [place, show (c.credit k).outbound = c.outbound from rfl]
    exact congrArg some (credit_writeOn h.1)
  · rw [outboundStep_of_writing place, outboundStep_of_writing (c := c.credit k) place,
      gaveUp h.1 h.2, credit_writeSlices h.1 h.2, apply_ite (Option.map (credit k))]
    rfl
  · rw [outboundStep_of_flushing place, outboundStep_of_flushing (c := c.credit k) place,
      gaveUp h.1 h.2, credit_flushOn h.1 h.2, apply_ite (Option.map (credit k))]
    rfl
  · have heard : ({ c.credit k with queue := (c.credit k).queue.hear } : Connection).writeOn now =
        ({ c with queue := c.queue.hear }.writeOn now).credit k :=
      credit_writeOn (c := { c with queue := c.queue.hear }) h.1
    rw [outboundStep_of_idle place, outboundStep_of_idle (c := c.credit k) place,
      credit_stopWriting none h.1, heard, credit_writeOn h.1, apply_ite (Option.map (credit k)),
      apply_ite (Option.map (credit k)), apply_ite (Option.map (credit k))]
    rfl
  · rename_i deadline
    rw [Connection.outboundStep, Connection.outboundStep]
    simp only [place, show (c.credit k).outbound = c.outbound from rfl]
    exact credit_shutOn deadline c
  · rw [Connection.outboundStep, Connection.outboundStep]
    simp only [place, show (c.credit k).outbound = c.outbound from rfl]
    rfl

/-! ### Everybody else -/

/-- Whether the outbound loop has dropped what was queued at its end. -/
def hasCleared (c : Connection) : Bool :=
  match c.outbound with
  | .shutting _ => true
  | .finished => true
  | _ => false

theorem Tallied.isOver (h : c.Tallied) (cleared : c.hasCleared = true) : c.IsOver := by
  rw [Tallied] at h
  rw [hasCleared] at cleared
  split at h <;> rename_i place <;> simp only [place] at cleared
  · cases cleared
  · cases cleared
  · cases cleared
  · cases cleared
  · exact h
  · exact h.1

/-- The count is that of the packets that wait, and of the one that is being written. -/
theorem Tallied.unaccounted (h : c.Tallied) :
    c.queue.unaccounted = c.queue.packets.length + (if c.isWriting then 1 else 0) := by
  have busy (level : c.queue.written.IsLevel) (undrained : c.queue.isDrained = false) :
      c.queue.unaccounted = c.queue.packets.length + 1 := by
    simp only [SendQueue.IsLevel, SendQueue.written, SendQueue.isDrained,
      beq_eq_false_iff_ne] at level undrained
    omega
  rw [Tallied] at h
  rw [isWriting]
  split at h <;> rename_i place <;> simp only [place]
  · exact h.1
  · exact busy h.1 h.2
  · exact busy h.1 h.2
  · exact h.1
  · rw [h.unaccounted, h.packets]
    rfl
  · rw [h.1.unaccounted, h.1.packets]
    rfl

/-- Nobody but the outbound loop takes anything off the queue or its count. -/
theorem StepsBy.pushes {i : Nat} {happening : Happening} {closers : List CloseWait}
    (share : StepsBy now i happening c d) (valid : c.Valid closers)
    (rests : happening ≠ .run (.outbound i)) : ∃ packets, d.queue = c.queue.pushAll packets := by
  have sent (moves : Moves c d) : ∃ packets, d.queue = c.queue.pushAll packets := by
    obtain ⟨packets, queue, -⟩ := (Sends.of_moves moves).enqueued
    exact ⟨packets, queue⟩
  cases share with
  | rests => exact ⟨[], rfl⟩
  | inbound _ step => exact sent (valid.moves_inboundStep step)
  | outbound runs => exact absurd runs rests
  | @called call =>
      cases World.acts_call c call with
      | begins outcome => exact sent outcome.moves
  | acted _ moves => exact sent moves

/-- A loop that has dropped what was queued does not take packets again. -/
theorem hasCleared_outboundStep (cleared : c.hasCleared = true)
    (step : c.outboundStep now = some d) : d.hasCleared = true := by
  cases place : c.outbound with
  | shutting deadline =>
      obtain ⟨_, _, _, rfl, finished | ⟨same, -⟩⟩ := outboundStep_of_shutting place step
      · simp [hasCleared, finished]
      · simp [hasCleared, same, place]
  | finished => simp [outboundStep, place] at step
  | starting | writing | flushing | idle => simp [hasCleared, place] at cleared

theorem StepsBy.hasCleared {i : Nat} {happening : Happening} {closers : List CloseWait}
    (share : StepsBy now i happening c d) (valid : c.Valid closers)
    (cleared : c.hasCleared = true) : d.hasCleared = true := by
  by_cases runs : happening = .run (.outbound i)
  · cases share with
    | outbound _ step => exact hasCleared_outboundStep cleared step
    | rests => exact cleared
    | inbound runs' => cases runs.symm.trans runs'
    | called runs' => cases runs.symm.trans runs'
    | acted runs' => cases runs.symm.trans runs'
  · rw [Connection.hasCleared, (share.sends valid runs).1]
    exact cleared

end Connection

open Connection

variable {w : World} {i : Nat} {c : Connection}

/-- What the count of a send queue is worth, in every state of every run. It is the number of the
packets that wait, and one more while the loop has one in hand. In no stretch of the loop is more
taken off it than there is, for the same is taken off any larger count, and whatever else happens,
nothing is taken off. Once the loop has dropped what was queued, the queue is empty and its count
zero for good. -/
theorem unaccounted_of_reachable (reached : w.Reachable) (here : w.conns[i]? = some c) :
    (c.queue.unaccounted = c.queue.packets.length + (if c.isWriting then 1 else 0) ∧
      (c.isWriting = true → ∃ done packet, c.Ledger done (some packet))) ∧
    (∀ k now, (c.credit k).outboundStep now = (c.outboundStep now).map (credit k)) ∧
    (∀ happening e, (w.perform happening).conns[i]? = some e →
      (∃ packets, e.queue = c.queue.pushAll packets) ∨
      happening = .run (.outbound i) ∧
        ∃ d, c.outboundStep w.now = some d ∧ e.queue = d.queue) ∧
    (c.hasCleared = true → ∀ happenings e, (w.performAll happenings).conns[i]? = some e →
      e.hasCleared = true ∧ e.queue.packets = [] ∧ e.queue.unaccounted = 0) := by
  have valid := reached.valid.conns i c here
  obtain ⟨ends, bundled⟩ := reached.bundled here
  refine ⟨?_, valid.tallied.credit_outboundStep, ?_, ?_⟩
  · have count := valid.tallied.unaccounted
    refine ⟨count, fun writing => ?_⟩
    rcases bundled.exists_ledger valid.tallied with ended | ⟨done, current, ledger, busy, -⟩
    · rw [ended.unaccounted, writing] at count
      cases count
    · rw [writing] at busy
      obtain ⟨packet, rfl⟩ := Option.isSome_iff_exists.mp busy
      exact ⟨done, packet, ledger⟩
  · intro happening e there
    by_cases runs : happening = .run (.outbound i)
    · subst runs
      rcases World.exists_of_outbound here there with ⟨-, rfl⟩ | ⟨d, step, tended⟩
      · exact .inl ⟨[], rfl⟩
      · obtain ⟨source, sink, rfl⟩ := tended.eq
        exact .inr ⟨rfl, d, step, rfl⟩
    · obtain ⟨d, share, tended⟩ := World.stepsBy_perform reached here there
      obtain ⟨source, sink, rfl⟩ := tended.eq
      exact .inl (share.pushes valid runs)
  · intro cleared happenings e there
    obtain ⟨d, there', cleared⟩ := reached.stays (P := fun c => c.hasCleared = true) here cleared
      (fun reached here share tended before => by
        obtain ⟨source, sink, rfl⟩ := tended.eq
        exact share.hasCleared (reached.valid.conns _ _ here) before) happenings
    obtain rfl : d = e := Option.some.inj (there'.symm.trans there)
    have isOver := ((reached.performAll happenings).valid.conns i d there).tallied.isOver cleared
    exact ⟨cleared, isOver.packets, isOver.unaccounted⟩

/-- A packet is being written and another one waits. -/
def World.twoCounted : World :=
  (World.empty 0).performAll [
    .start { Session.Opening.plain with config.immediateFlush := some true },
    .call 0 (.send (.keepAlive false)), .run (.outbound 0), .call 0 (.send (.keepAlive true))]

/-- Then the write fails. -/
def World.torn : World :=
  World.twoCounted.performAll
    (.transit 0 (.weather none (some ⟨false, "connection reset"⟩) none false false) ::
      (Actor.outbound 0).times 3)

/-- Two packets are on the count at first. The loop takes the first one off when the write fails,
and drops the other one, with the close message behind it. -/
theorem unaccounted_torn :
    (∃ c, World.twoCounted.conns[0]? = some c ∧ c.isWriting = true ∧ c.queue.packets.length = 1 ∧
      c.queue.unaccounted = 2) ∧
    ∃ c, World.torn.conns[0]? = some c ∧ c.hasCleared = true ∧ c.enqueuedPackets.length = 3 ∧
      c.queue.unaccounted = 0 := by
  have reached : World.twoCounted.Reachable := (World.Reachable.empty 0 []).performAll _
  constructor
  · obtain ⟨c, here⟩ : ∃ c, World.twoCounted.conns[0]? = some c := ⟨_, rfl⟩
    have facts : World.twoCounted.conns[0]?.map (fun c => (c.isWriting, c.queue.packets.length)) =
        some (true, 1) := rfl
    rw [here, Option.map_some, Option.some.injEq, Prod.mk.injEq] at facts
    obtain ⟨⟨count, -⟩, -⟩ := unaccounted_of_reachable reached here
    rw [facts.1, facts.2] at count
    exact ⟨c, here, facts.1, facts.2, count⟩
  · obtain ⟨c, here⟩ : ∃ c, World.torn.conns[0]? = some c := ⟨_, rfl⟩
    have facts : World.torn.conns[0]?.map (fun c => (c.hasCleared, c.enqueuedPackets.length)) =
        some (true, 3) := rfl
    rw [here, Option.map_some, Option.some.injEq, Prod.mk.injEq] at facts
    obtain ⟨-, -, -, forGood⟩ := unaccounted_of_reachable (reached.performAll _) here
    exact ⟨c, here, facts.1, facts.2, (forGood facts.1 [] c here).2.2⟩

end PacketWire
