import PacketWire.Proofs.ConnectionStep

/-!
# How a close begins, and how it goes on

Whoever begins a close of a connection has to wait, since the close message is to be written first.
`Begins` says so, of everything that may begin one but the outbound loop: it leaves a wait for the
send queue until five seconds later, with the first look ten milliseconds from then, and the loops
are as free as they were. The outbound loop begins none that has to wait, and takes up its shutdown
at once with the time that is allowed for that (`Halts`).
-/

namespace PacketWire

/-- A sink that takes any bytes takes one at least. -/
theorem Sink.pos_of_offer {bytes : Bytes} {count : Nat} {s s' : Sink} (any : bytes ≠ [])
    (h : s.offer bytes = .taken count s') : 0 < count := by
  have length : 0 < bytes.length := List.length_pos_iff.mpr any
  rw [offer] at h
  split at h
  · cases h
  · split at h
    · cases h
      exact length
    · cases h
    · rename_i room other _
      cases h
      have positive : room ≠ 0 := fun none => other none
      omega

/-- What is moved out of a buffer is gone. -/
theorem WriteBuffer.length_lt_of_drain {left : Unit} {b b' : WriteBuffer} {sink sink' : Sink}
    (any : b.held ≠ []) (h : b.drain sink = .moved left b' sink') :
    b'.held.length < b.held.length := by
  have length : 0 < b.held.length := List.length_pos_iff.mpr any
  rw [drain] at h
  split at h
  · rename_i count _ taken
    cases h
    have moved := Sink.pos_of_offer any taken
    rw [List.length_drop]
    omega
  · cases h
  · cases h

/-- An inbound loop that carries out a close is in the one place where it does. -/
theorem Inbound.exists_of_closer? {inbound : Inbound} {wait : CloseWait}
    (h : inbound.closer? = some wait) : ∃ shown, inbound = .closing wait shown := by
  unfold closer? at h
  split at h <;> cases h
  exact ⟨_, rfl⟩

namespace Connection

/-- What an operation leaves that may begin a close. -/
inductive Begins (now : Nat) (c : Connection) : Connection × Option CloseWait → Prop
  | calm {d : Connection} : d.standing = c.standing → d.unjoined = c.unjoined →
      Begins now c (d, none)
  | close {d : Connection} : c.isActive = true → d.state = .closing → d.unjoined = c.unjoined →
      Begins now c (d, some (.draining (now + closeTimeout) (now + closePoll)))

variable {c d e : Connection} {now : Nat} {wait : Option CloseWait} {onLoop : Bool}

/-- The outbound loop of an active connection takes packets. -/
def TakesPackets (c : Connection) : Prop :=
  c.isActive = true → c.outboundStopped = false

/-! ### Showing a packet to the application -/

theorem standing_showControl (packet : Packet) (c : Connection) :
    (c.showControl packet).standing = c.standing := by
  rw [showControl]
  split
  · exact standing_callHook _ _
  · rfl

theorem unjoined_showControl (packet : Packet) (c : Connection) :
    (c.showControl packet).unjoined = c.unjoined := by
  rw [showControl]
  split
  · exact unjoined_callHook _ _
  · rfl

theorem suffix_showControl (packet : Packet) (c : Connection) :
    c.journal <:+ (c.showControl packet).journal := by
  rw [showControl]
  split
  · exact suffix_callHook _ _
  · exact List.suffix_rfl

namespace Begins

theorem refl (c : Connection) : Begins now c (c, none) :=
  .calm rfl rfl

/-- First something that leaves all that matters here as it is. -/
theorem after {result : Connection × Option CloseWait} (h : Begins now d result)
    (standing : d.standing = c.standing) (unjoined : d.unjoined = c.unjoined) :
    Begins now c result := by
  cases h with
  | calm standing' unjoined' => exact .calm (standing'.trans standing) (unjoined'.trans unjoined)
  | close active closing unjoined' =>
      have state : d.state = c.state := congrArg Standing.state standing
      exact .close (by rwa [isActive, ← state]) closing (unjoined'.trans unjoined)

/-- Something that leaves all that matters here as it is may follow. -/
theorem tail (h : Begins now c (d, wait)) (standing : e.standing = d.standing)
    (unjoined : e.unjoined = d.unjoined) : Begins now c (e, wait) := by
  cases h with
  | calm standing' unjoined' => exact .calm (standing.trans standing') (unjoined.trans unjoined')
  | close active closing unjoined' =>
      exact .close active ((congrArg Standing.state standing).trans closing)
        (unjoined.trans unjoined')

theorem callHook (h : Begins now c (d, wait)) (call : HookCall) :
    Begins now c (d.callHook call, wait) :=
  h.tail (standing_callHook call d) (unjoined_callHook call d)

theorem showControl (h : Begins now c (d, wait)) (packet : Packet) :
    Begins now c (d.showControl packet, wait) :=
  h.tail (standing_showControl packet d) (unjoined_showControl packet d)

end Begins

/-- A close that has just begun has the close message to wait for. -/
theorem isDrainOver_startClosing (running : c.outboundStopped = false) (message : String)
    (expected : Bool) (now : Nat) :
    (c.startClosing message expected).isDrainOver (now + closeTimeout) now = false := by
  have still : (c.startClosing message expected).outboundStopped = false :=
    (congrArg Standing.outboundStopped (standing_startClosing message expected c)).trans running
  have early : ¬now + closeTimeout ≤ now := by
    rw [closeTimeout]
    omega
  simp [isDrainOver, isDrained_startClosing, still, early]

theorem close_of_active (active : c.isActive = true) (takes : c.TakesPackets) (onLoop : Bool)
    (now : Nat) (message : String) (expected : Bool) :
    c.close onLoop now message expected = (c.startClosing message expected,
      some (.draining (now + closeTimeout) (now + closePoll))) := by
  simp only [close, if_pos active, proceedClose, isDrainOver_startClosing (takes active),
    Bool.false_eq_true, if_false]

theorem begins_close (takes : c.TakesPackets) (onLoop : Bool) (now : Nat) (message : String)
    (expected : Bool) : Begins now c (c.close onLoop now message expected) := by
  cases active : c.isActive with
  | true =>
      rw [close_of_active active takes]
      exact .close active (state_startClosing message expected c)
        (unjoined_startClosing message expected c)
  | false =>
      simp only [close, active, Bool.false_eq_true, if_false]
      exact .refl c

theorem begins_fail (takes : c.TakesPackets) (onLoop : Bool) (now : Nat) (cause : Error) :
    Begins now c (c.fail onLoop now cause) := by
  rw [fail]
  split
  · exact .refl c
  · rename_i reported
    have active : c.isActive = true := by simp at reported; exact reported.1
    have standing := standing_callHook (.failed cause) { c with failureNotified := true }
    have state := congrArg Standing.state standing
    have stopped := congrArg Standing.outboundStopped standing
    rw [close_of_active]
    · refine .close active (state_startClosing ..) ((unjoined_startClosing ..).trans ?_)
      exact unjoined_callHook _ _
    · simpa [isActive, Connection.standing] using state.trans (state_eq_active active)
    · intro _
      exact stopped.trans (takes active)

/-! ### Handing on -/

theorem begins_control (takes : c.TakesPackets) (onLoop : Bool) (now : Nat) (packet : Packet) :
    Begins now c (c.control onLoop now packet) := by
  have sent {c d : Connection} {packets : List Packet} {entries : List Entry}
      (chat : Chat c d packets entries) : Begins now c (d, none) :=
    .calm chat.standing_eq (by rw [chat.eq])
  cases packet with
  | handshake kind version =>
      simp only [control]
      split
      · obtain ⟨_, _, chat⟩ := chat_sendHandshake .response c
        exact (sent chat).tail rfl rfl
      · exact (Begins.refl c).tail rfl rfl
  | close message => exact begins_close takes onLoop now message true
  | keepAlive response =>
      simp only [control]
      split
      · exact .refl c
      · obtain ⟨_, _, chat⟩ := chat_send (.keepAlive true) c
        exact sent chat
  | app type values => exact .refl c

theorem begins_dispatch (takes : c.TakesPackets) (onLoop : Bool) (now : Nat) (event : Event) :
    Begins now c (unshown (c.dispatch onLoop now event)) := by
  refine .after (d := c.log (.dispatched event)) ?_ rfl rfl
  have takes' : (c.log (.dispatched event)).TakesPackets := takes
  cases event with
  | unknown id => exact (Begins.refl _).callHook _
  | packet packet =>
      simp only [unshown, dispatch, dispatchPacket]
      split
      · have controlled := begins_control takes' onLoop now packet
        split
        · rename_i d eq
          rw [eq] at controlled
          exact controlled.showControl packet
        · rename_i d wait eq
          rw [eq] at controlled
          exact controlled
      · exact (Begins.refl _).callHook _

/-! ### The inbound loop -/

theorem Begins.go (h : Begins now c (d, wait)) {inbound : Inbound}
    (holds : inbound.closer? = wait) : Begins now c ({ d with inbound }, inbound.closer?) :=
  holds ▸ h.tail rfl rfl

theorem begins_readOn (h : Begins now c (d, none)) :
    Begins now c (d.readOn, d.readOn.inbound.closer?) := by
  rw [readOn]
  apply h.go
  split <;> rfl

theorem begins_afterDispatch {result : Connection × Option (CloseWait × Packet)}
    (h : Begins now c (unshown result)) :
    Begins now c (afterDispatch result, (afterDispatch result).inbound.closer?) := by
  obtain ⟨d, _ | ⟨wait, packet⟩⟩ := result
  · exact begins_readOn h
  · exact h.go rfl

theorem begins_stopReading (takes : c.TakesPackets) (now : Nat) (cause : Error) :
    Begins now c (c.stopReading now cause, (c.stopReading now cause).inbound.closer?) := by
  have begun : Begins now c (if cause.isEndOfStream then c.close true now endOfStream true
      else c.fail true now cause) := by
    split
    · exact begins_close takes true now endOfStream true
    · exact begins_fail takes true now cause
  rw [stopReading]
  split
  · exact (Begins.refl c).go rfl
  · generalize (if cause.isEndOfStream then c.close true now endOfStream true
      else c.fail true now cause) = result at begun
    obtain ⟨d, _ | wait⟩ := result
    · exact begun.go rfl
    · exact begun.go rfl

theorem begins_deliver (takes : c.TakesPackets) (now : Nat) (event : Event) :
    Begins now c (c.deliver now event, (c.deliver now event).inbound.closer?) := by
  have dispatched := begins_afterDispatch (begins_dispatch takes true now event)
  rw [deliver]
  split
  · exact dispatched
  · split
    · exact dispatched
    · exact begins_readOn ((Begins.refl c).tail rfl rfl)

theorem begins_handleBody (takes : c.TakesPackets) (now : Nat) (body : Bytes) :
    Begins now c (c.handleBody now body, (c.handleBody now body).inbound.closer?) := by
  have noted : ((c.log (.handled body)).touchReceived now).TakesPackets := takes
  rw [handleBody]
  split
  · exact begins_stopReading takes now _
  · dsimp only
    split
    · exact (begins_deliver noted now _).after rfl rfl
    · split
      · exact (begins_deliver noted now _).after rfl rfl
      · split
        · exact (begins_stopReading noted now _).after rfl rfl
        · exact begins_readOn ((Begins.refl c).tail rfl rfl)

/-- One stretch of the inbound loop, where it does not carry out a close already. -/
theorem begins_inboundStep (takes : c.TakesPackets) (step : c.inboundStep now = some d)
    (free : c.inbound.closer? = none) : Begins now c (d, d.inbound.closer?) := by
  rw [inboundStep] at step
  split at step
  · cases step
    exact begins_readOn (.refl c)
  · split at step
    · cases step
      exact (Begins.refl c).go rfl
    · split at step
      · rename_i body rest _
        cases step
        have takes' : TakesPackets { c with readAhead := rest } := takes
        exact (begins_handleBody takes' now body).after rfl rfl
      · cases step
        exact begins_stopReading takes now _
      · rw [readAhead?] at step
        split at step
        · cases step
          change Begins now c (_, c.inbound.closer?)
          rw [free]
          exact (Begins.refl c).tail rfl rfl
        · split at step <;> cases step <;> exact begins_stopReading takes now _
  · rename_i holds
    simp [holds, Inbound.closer?] at free
  · cases step

/-- A close that the inbound loop carries out never waits for loops. While it is not over, the loop
only looks again ten milliseconds later; when it is, the loop is told to end and does so at once. -/
theorem inboundStep_of_closing {deadline wake : Nat} {shown : Option Packet}
    (place : c.inbound = .closing (.draining deadline wake) shown)
    (step : c.inboundStep now = some d) : wake ≤ now ∧ d.unjoined = c.unjoined ∧
      if c.isDrainOver deadline now then d.state = .closed ∧ d.inbound = .finished
      else d = { c with inbound := .closing (.draining deadline (now + closePoll)) shown } := by
  rw [inboundStep, place] at step
  dsimp only at step
  split at step
  · rename_i awake
    refine ⟨of_decide_eq_true awake, ?_⟩
    cases ended : c.isDrainOver deadline now with
    | true =>
        simp only [proceedClose, ended, if_true] at step
        cases step
        cases shown with
        | none => exact ⟨rfl, rfl, rfl⟩
        | some packet =>
            dsimp only
            exact ⟨unjoined_showControl packet _,
              congrArg Standing.state (standing_showControl packet _), rfl⟩
    | false =>
        simp only [proceedClose, ended, Bool.false_eq_true, if_false] at step
        cases step
        exact ⟨rfl, rfl⟩
  · cases step

/-! ### The outbound loop -/

/-- What becomes of an outbound loop that takes packets: it goes on taking them, or it takes up its
shutdown, for which it has one second. -/
inductive Halts (now : Nat) (c d : Connection) : Prop
  | goesOn : d.outboundStopped = c.outboundStopped → (∀ deadline, d.outbound ≠ .shutting deadline) →
      d.unjoined = c.unjoined → Halts now c d
  | halts : d.outbound = .shutting (now + shutdownTimeout) → d.unjoined = c.unjoined → Halts now c d

theorem Halts.after (h : Halts now d e) (stopped : d.outboundStopped = c.outboundStopped)
    (unjoined : d.unjoined = c.unjoined) : Halts now c e := by
  cases h with
  | goesOn stopped' running unjoined' =>
      exact .goesOn (stopped'.trans stopped) running (unjoined'.trans unjoined)
  | halts place unjoined' => exact .halts place (unjoined'.trans unjoined)

theorem unjoined_close_of_stopped (stopped : c.outboundStopped = true) (now : Nat)
    (message : String) (expected : Bool) :
    (c.close true now message expected).1.unjoined = c.unjoined := by
  rw [close]
  split
  · have still : (c.startClosing message expected).outboundStopped = true :=
      (congrArg Standing.outboundStopped (standing_startClosing message expected c)).trans stopped
    simp only [proceedClose, isDrainOver_of_stopped still, if_true]
    exact unjoined_startClosing message expected c
  · rfl

theorem unjoined_fail_of_stopped (stopped : c.outboundStopped = true) (now : Nat) (cause : Error) :
    (c.fail true now cause).1.unjoined = c.unjoined := by
  rw [fail]
  split
  · rfl
  · have still := congrArg Standing.outboundStopped
      (standing_callHook (.failed cause) { c with failureNotified := true })
    exact (unjoined_close_of_stopped (still.trans stopped) now _ false).trans
      (unjoined_callHook _ _)

theorem halts_stopWriting (now : Nat) (cause : Option Error) (c : Connection) :
    Halts now c (c.stopWriting now cause) := by
  refine .halts rfl ?_
  cases cause with
  | none => rfl
  | some cause =>
      simp only [stopWriting]
      split
      · rfl
      · split
        · exact unjoined_close_of_stopped (c := { c with outboundStopped := true }) rfl now _ true
        · exact unjoined_fail_of_stopped (c := { c with outboundStopped := true }) rfl now cause

theorem halts_failWriting (now : Nat) (cause : Error) (c : Connection) :
    Halts now c (c.failWriting now cause) :=
  (halts_stopWriting now (some cause) { c with queue := c.queue.written }).after rfl rfl

theorem halts_takePacket (now : Nat) (c : Connection) : Halts now c (c.takePacket now) := by
  rw [takePacket]
  split
  · exact .goesOn rfl (by simp) rfl
  · dsimp only
    split
    · exact (halts_failWriting now _ _).after rfl rfl
    · exact .goesOn rfl (by simp) rfl

theorem halts_writeOn (now : Nat) (c : Connection) : Halts now c (c.writeOn now) := by
  rw [writeOn]
  split
  · exact halts_stopWriting now none c
  · split
    · obtain ⟨_, _, chat⟩ := originate_eq now c
      exact (halts_takePacket now _).after (congrArg Standing.outboundStopped chat.standing_eq)
        (by rw [chat.eq]; rfl)
    · exact halts_takePacket now c

theorem halts_finishPacket (now : Nat) (c : Connection) : Halts now c (c.finishPacket now) :=
  (halts_writeOn now _).after rfl rfl

theorem halts_afterFrame (now : Nat) (c : Connection) : Halts now c (c.afterFrame now) := by
  rw [afterFrame]
  split
  · exact .goesOn rfl (by simp) rfl
  · exact halts_finishPacket now c

theorem halts_writeSlices {slices : List Bytes} (step : c.writeSlices now slices = some d) :
    Halts now c d := by
  unfold writeSlices at step
  split at step
  · cases step
    exact halts_afterFrame now c
  · split at step
    · cases step
    · cases step
      exact halts_failWriting now _ c
    · dsimp only at step
      split at step <;> cases step
      · exact (halts_afterFrame now _).after rfl rfl
      · exact .goesOn rfl (by simp) rfl
      · exact .goesOn rfl (by simp) rfl

theorem halts_flushOn (flushing : c.outbound = .flushing) (step : c.flushOn now = some d) :
    Halts now c d := by
  rw [flushOn] at step
  split at step
  · split at step
    · cases step
    · cases step
      exact halts_failWriting now _ c
    · cases step
      exact (halts_finishPacket now _).after rfl rfl
  · split at step
    · cases step
    · cases step
      exact halts_failWriting now _ c
    · cases step
      exact .goesOn rfl (by simp [flushing]) rfl

theorem halts_outboundStep (running : ∀ deadline, c.outbound ≠ .shutting deadline)
    (step : c.outboundStep now = some d) : Halts now c d := by
  rw [outboundStep] at step
  split at step
  · cases step
    exact halts_writeOn now c
  · split at step
    · cases step
      exact (halts_stopWriting now none _).after rfl rfl
    · exact halts_writeSlices step
  · rename_i place
    split at step
    · cases step
      exact (halts_stopWriting now none _).after rfl rfl
    · exact halts_flushOn place step
  · split at step
    · cases step
      exact halts_stopWriting now none c
    · split at step
      · cases step
        exact (halts_writeOn now _).after rfl rfl
      · split at step <;> cases step
        exact halts_writeOn now c
  · rename_i deadline place
    exact absurd place (running deadline)
  · cases step

/-- What a loop does that shuts its sink down: it is done, or there is less to write before that,
and time left for it. -/
theorem outboundStep_of_shutting {deadline : Nat} (place : c.outbound = .shutting deadline)
    (step : c.outboundStep now = some d) : ∃ buffer sink outbound,
      d = { c with buffer, sink, outbound } ∧ (outbound = .finished ∨ outbound = c.outbound ∧
        now < deadline ∧ buffer.held.length < c.buffer.held.length) := by
  rw [outboundStep, place] at step
  cases shuts_of_shutOn step with
  | letsGo | last => exact ⟨_, _, _, rfl, .inl rfl⟩
  | moves more moved early =>
      exact ⟨_, _, _, rfl, .inr ⟨rfl, early, WriteBuffer.length_lt_of_drain more moved⟩⟩

/-- Only a connection that is not active has an outbound loop that takes no packets. -/
theorem StepsTo.takesPackets {closers : List CloseWait} (share : StepsTo now c d)
    (valid : c.Valid closers) (h : c.TakesPackets) : d.TakesPackets := by
  intro active
  have before : c.isActive = true := by
    by_contra inactive
    have ended := (Later.of_changes (share.changes valid)).isActive_eq_false
      (Bool.eq_false_iff.mpr inactive)
    cases active.symm.trans ended
  have sent (moves : Moves c d) : d.outboundStopped = false :=
    (Sends.of_moves moves).stopped.trans (h before)
  cases share with
  | rests => exact h before
  | acted moves => exact sent moves
  | alone alone =>
      cases alone with
      | inbound step => exact sent (valid.moves_inboundStep step)
      | call call =>
          have unheld : c.Valid (closers ++ (none : Option CloseWait).toList ++ []) := by
            simpa using valid
          exact sent (unheld.moves_of_acts (World.acts_call c call))
      | outbound step =>
          have tallied := (valid.outboundStep step).tallied
          by_cases shutting : ∃ deadline, c.outbound = .shutting deadline
          · obtain ⟨deadline, place⟩ := shutting
            obtain ⟨_, _, _, rfl, -⟩ := outboundStep_of_shutting place step
            exact h before
          · cases halts_outboundStep (fun deadline place => shutting ⟨deadline, place⟩) step with
            | goesOn stopped => exact stopped.trans (h before)
            | halts place =>
                rw [Tallied, place] at tallied
                cases tallied.inactive.symm.trans active

end Connection

namespace World

open Connection

variable {w : World} {i : Nat} {c : Connection}

theorem Reachable.takesPackets (reached : w.Reachable) (here : w.conns[i]? = some c) :
    c.TakesPackets := by
  refine reached.conns (P := Connection.TakesPackets) (fun _ _ _ => rfl) ?_ i c here
  intro now c d e closers valid takes share tended
  obtain ⟨source, sink, rfl⟩ := tended.eq
  exact share.takesPackets valid takes

end World

end PacketWire
