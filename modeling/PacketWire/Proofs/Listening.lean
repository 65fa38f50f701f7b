import PacketWire.Connection.Inbound
import PacketWire.Proofs.Healthy

/-!
# A listener that only listens

With a listener that does nothing in its hooks, whatever the inbound loop does with an event has
two outcomes. Either the connection is as before and something was done for the listeners
(`Shows`), or it left `active` as well (`Parts`), and then nothing but a close of its own is left
for the loop to carry out.
-/

namespace PacketWire

/-- A listener that does nothing in its hooks, or none. -/
def Listener.Idle (listener : Option Listener) : Prop :=
  ∀ count call, (listener.getD .silent).react count call = []

/-- Whether a close waits for the send queue, and not for loops. -/
def CloseWait.IsDraining : CloseWait → Prop
  | draining .. => True
  | joining _ => False

namespace Connection

open PacketWire.Frame Entry

/-- What the bytes mean that a connection receives. -/
def Intake.reader (i : Intake) : Reader :=
  ⟨i.config.maxFrameLength, i.registry, i.config.notifyControl⟩

/-- `d` is `c` after these things were done for its listeners. -/
structure Shows (c d : Connection) (seen : List Sight) : Prop where
  intake : d.intake = c.intake
  sights : d.sights = c.sights ++ seen
  healthy : d.Healthy

/-- `d` is `c` after these things were done for its listeners and it left `active`. -/
structure Parts (c d : Connection) (seen : List Sight) : Prop where
  intake : d.intake = { c.intake with
    state := d.state
    failureNotified := d.failureNotified
    closeNotified := d.closeNotified
    cancelled := d.cancelled }
  inactive : d.isActive = false
  sights : d.sights = c.sights ++ seen
  healthy : d.Healthy

variable {c d e : Connection} {seen more : List Sight}

theorem Quiet.shows (h : Quiet c d) : Shows c d [] :=
  ⟨h.intake, h.sights.trans (List.append_nil _).symm, h.healthy⟩

theorem Shows.trans (first : Shows c d seen) (second : Shows d e more) :
    Shows c e (seen ++ more) := by
  refine ⟨second.intake.trans first.intake, ?_, second.healthy⟩
  rw [second.sights, first.sights, List.append_assoc]

theorem Shows.isActive_eq (h : Shows c d seen) : d.isActive = c.isActive :=
  congrArg (fun i : Intake => decide (i.state = .active)) h.intake

theorem Shows.idle (h : Shows c d seen) (idle : Listener.Idle c.listener) :
    Listener.Idle d.listener := by
  rwa [show d.listener = c.listener from congrArg Intake.listener h.intake]

theorem Shows.parts (h : Shows c d seen) (inactive : c.isActive = false) : Parts c d seen := by
  refine ⟨?_, h.isActive_eq.trans inactive, h.sights, h.healthy⟩
  have same := h.intake
  injection same with _ _ _ _ state failure close cancelled
  rw [h.intake, state, failure, close, cancelled]
  rfl

theorem Parts.trans (first : Parts c d seen) (second : Parts d e more) :
    Parts c e (seen ++ more) := by
  refine ⟨?_, second.inactive, ?_, second.healthy⟩
  · rw [second.intake, first.intake]
  · rw [second.sights, first.sights, List.append_assoc]

theorem Parts.after (first : Shows c d seen) (second : Parts d e more) :
    Parts c e (seen ++ more) := by
  refine ⟨?_, second.inactive, ?_, second.healthy⟩
  · rw [second.intake, first.intake]
  · rw [second.sights, first.sights, List.append_assoc]

theorem Parts.idle (h : Parts c d seen) (idle : Listener.Idle c.listener) :
    Listener.Idle d.listener := by
  rwa [show d.listener = c.listener from congrArg Intake.listener h.intake]

theorem Parts.reader_eq (h : Parts c d seen) : d.intake.reader = c.intake.reader := by
  rw [h.intake]
  rfl

/-! ### Hooks -/

/-- An entry in the journal that tells of no sending. -/
theorem shows_log (h : c.Healthy) (entry : Entry) : Shows c (c.log entry) (sight? entry).toList :=
  ⟨rfl, recount_log sight? entry c, h.sink, h.writable⟩

/-- A call in which the listener does nothing. -/
theorem callHook_of_nil {call : HookCall}
    (nothing : (c.listener.getD .silent).react c.hookCalls call = []) :
    c.callHook call = { c with hookCalls := c.hookCalls + 1 }.log (.hook call c.state []) := by
  rw [callHook, nothing]
  rfl

theorem shows_callHook (h : c.Healthy) (idle : Listener.Idle c.listener) (call : HookCall) :
    Shows c (c.callHook call) [.called call] := by
  rw [callHook_of_nil (idle _ _)]
  exact ⟨rfl, recount_log sight? _ { c with hookCalls := c.hookCalls + 1 }, h.sink, h.writable⟩

theorem shows_showControl (h : c.Healthy) (idle : Listener.Idle c.listener) (packet : Packet) :
    Shows c (c.showControl packet) (c.intake.reader.shown packet) := by
  rw [showControl, Reader.shown]
  change Shows c _ (if c.config.notifyControl = true then _ else _)
  split
  · exact shows_callHook h idle _
  · exact ⟨rfl, (List.append_nil _).symm, h⟩

/-! ### Closing -/

theorem parts_startClosing (h : c.Healthy) (idle : Listener.Idle c.listener)
    (untold : c.closeNotified = false) (message : String) (expected : Bool) :
    Parts c (c.startClosing message expected) [.called (.closed message expected)] := by
  have called := shows_callHook (c := { c with state := .closing, closeNotified := true })
    ⟨h.sink, h.writable⟩ idle (.closed message expected)
  have queue := (sends_startClosing message expected untold).2.2
  rw [startClosing_eq message expected untold] at queue ⊢
  refine ⟨?_, ?_, ?_, called.healthy.sink, ?_⟩
  · exact ((called.parts rfl).intake)
  · exact called.isActive_eq
  · exact (recount_enqueue sight? .farewell _).trans ((List.append_nil _).trans called.sights)
  · intro packet member
    rw [queue] at member
    rcases List.mem_append.mp member with old | new
    · exact h.writable packet old
    · exact List.mem_singleton.mp new ▸ writable_farewell

theorem parts_proceedClose (h : c.Healthy) (inactive : c.isActive = false) (now : Nat)
    {wait : CloseWait} (draining : wait.IsDraining) :
    Parts c (c.proceedClose true now wait).1 [] ∧
      ∀ left ∈ (c.proceedClose true now wait).2, left.IsDraining := by
  cases wait with
  | joining loops => exact draining.elim
  | draining deadline wake =>
      simp only [proceedClose, if_true]
      split
      · refine ⟨⟨rfl, rfl, ?_, h.sink, h.writable⟩, fun left member => by cases member⟩
        exact recount_markClosed sight? { c with cancelled := true }
      · refine ⟨⟨rfl, inactive, (List.append_nil _).symm, h⟩, ?_⟩
        rintro left ⟨⟩
        trivial

/-- The listener is told, and only the send queue is left to wait for. -/
theorem parts_close (h : c.Healthy) (idle : Listener.Idle c.listener) (active : c.isActive = true)
    (untold : c.closeNotified = false) (now : Nat) (message : String) (expected : Bool) :
    Parts c (c.close true now message expected).1 [.called (.closed message expected)] ∧
      ∀ wait ∈ (c.close true now message expected).2, wait.IsDraining := by
  have started := parts_startClosing h idle untold message expected
  obtain ⟨went, draining⟩ := parts_proceedClose started.healthy started.inactive now
    (show (CloseWait.draining (now + closeTimeout) now).IsDraining from trivial)
  rw [close, if_pos active]
  exact ⟨started.trans went, draining⟩

/-- A failure is told of first, with the connection still active. -/
theorem parts_fail (h : c.Healthy) (idle : Listener.Idle c.listener) (active : c.isActive = true)
    (unfailed : c.failureNotified = false) (untold : c.closeNotified = false) (now : Nat)
    (cause : Error) :
    Parts c (c.fail true now cause).1
        [.called (.failed cause), .called (.closed cause.message false)] ∧
      ∀ wait ∈ (c.fail true now cause).2, wait.IsDraining := by
  have called := shows_callHook (c := { c with failureNotified := true }) ⟨h.sink, h.writable⟩ idle
    (.failed cause)
  have untold : ({ c with failureNotified := true }.callHook (.failed cause)).closeNotified =
      false :=
    (congrArg Intake.closeNotified called.intake).trans untold
  obtain ⟨closed, draining⟩ := parts_close called.healthy (called.idle idle)
    (called.isActive_eq.trans active) untold now cause.message false
  rw [fail, if_neg (by simp [active, unfailed])]
  refine ⟨?_, draining⟩
  obtain ⟨intake, inactive, sights, healthy⟩ := Parts.after called closed
  exact ⟨intake, inactive, sights, healthy⟩

/-! ### Events -/

/-- What the connection itself does with a packet that is not the last. -/
theorem quiet_control (h : c.Healthy) (now : Nat) {packet : Packet}
    (goesOn : Reader.isLast (.packet packet) = false) :
    (c.control true now packet).2 = none ∧ Quiet c (c.control true now packet).1 := by
  cases packet with
  | close message => cases goesOn
  | handshake kind version =>
      refine ⟨rfl, ?_⟩
      simp only [control]
      split
      · obtain ⟨intake, sights, healthy⟩ := quiet_sendHandshake h .response
        exact ⟨intake, sights, healthy.sink, healthy.writable⟩
      · exact .of_eq h rfl rfl h.sink (List.Subset.refl _)
  | keepAlive response =>
      refine ⟨rfl, ?_⟩
      simp only [control]
      split
      · exact ⟨rfl, rfl, h⟩
      · exact quiet_send h (writable_keepAlive true)
  | app => exact ⟨rfl, rfl, rfl, h⟩

theorem shows_dispatchPacket (h : c.Healthy) (idle : Listener.Idle c.listener) (now : Nat)
    {packet : Packet} (goesOn : Reader.isLast (.packet packet) = false) :
    (c.dispatchPacket true now packet).2 = none ∧ Shows c (c.dispatchPacket true now packet).1
      (if Packet.isControl packet.id then c.intake.reader.shown packet
        else [.called (.packet packet)]) := by
  obtain ⟨share, controlled⟩ := quiet_control h now goesOn
  rw [dispatchPacket]
  split
  · split
    · rename_i d eq
      rw [eq] at controlled
      have shown := shows_showControl controlled.healthy (controlled.shows.idle idle) packet
      rw [controlled.intake] at shown
      exact ⟨rfl, controlled.shows.trans shown⟩
    · rename_i d wait eq
      rw [eq] at share
      cases share
  · exact ⟨rfl, shows_callHook h idle (.packet packet)⟩

/-- An event that is not the last is handed on without waiting. -/
theorem shows_dispatch (h : c.Healthy) (idle : Listener.Idle c.listener) (now : Nat)
    {event : Event} (goesOn : Reader.isLast event = false) :
    (c.dispatch true now event).2 = none ∧
      Shows c (c.dispatch true now event).1 (c.intake.reader.sights event) := by
  have logged := shows_log h (.dispatched event)
  cases event with
  | unknown id => exact ⟨rfl, logged.trans (shows_callHook logged.healthy idle (.unknown id))⟩
  | packet packet =>
      obtain ⟨share, shown⟩ := shows_dispatchPacket logged.healthy idle now goesOn
      rw [Reader.sights_packet _ goesOn]
      exact ⟨congrArg (Option.map (·, packet)) share, logged.trans shown⟩

/-- What is done at once for a close message. -/
def closingSights (message : String) : List Sight :=
  [.handed (.packet (.close message)), .called (.closed message true)]

/-- A close message makes the connection leave `active`. It is shown to the application now, or
when the wait for the send queue is over. -/
theorem parts_dispatch (h : c.Healthy) (idle : Listener.Idle c.listener)
    (active : c.isActive = true) (untold : c.closeNotified = false) (now : Nat)
    (message : String) :
    ∃ d, (c.dispatch true now (.packet (.close message)) = (d, none) ∧
        Parts c d (c.intake.reader.sights (.packet (.close message)))) ∨
      ∃ wait, wait.IsDraining ∧
        c.dispatch true now (.packet (.close message)) = (d, some (wait, .close message)) ∧
        Parts c d (closingSights message) := by
  have logged := shows_log h (.dispatched (.packet (.close message)))
  obtain ⟨closed, draining⟩ := parts_close logged.healthy idle active untold now message true
  have parts := Parts.after logged closed
  simp only [dispatch, dispatchPacket, control, Packet.id_close,
    show Packet.isControl Packet.closeId = true from rfl, if_true]
  generalize close true now message true _ = result at parts draining
  obtain ⟨d, _ | wait⟩ := result
  · have shown := shows_showControl parts.healthy (parts.idle idle) (.close message)
    rw [parts.reader_eq] at shown
    exact ⟨_, .inl ⟨rfl, parts.trans (shown.parts parts.inactive)⟩⟩
  · exact ⟨d, .inr ⟨wait, draining wait rfl, rfl, parts⟩⟩

end Connection

end PacketWire
