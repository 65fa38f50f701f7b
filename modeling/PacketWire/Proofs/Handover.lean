import PacketWire.Proofs.Orderly
import PacketWire.Proofs.UnpromptedSends

/-!
# Handing on to the listeners

Two kinds of entries in a journal tell of events that reach the listeners: one when an event is
handed on, and one for each call of the application's listener about it. Of all that can happen to
a connection whose events are deferred, only `dispatch` and the end of a close that it began leave
such entries; everything else is `Mute`. So what reaches the listeners of such a connection is
decided by those who drain its work queue.
-/

namespace PacketWire

namespace Entry

/-- Entries that tell of no event reaching the listeners. -/
def IsAside : Entry → Prop
  | dispatched _ => False
  | hook call _ _ => call.isNotification = true
  | _ => True

def dispatched? : Entry → Option Event
  | dispatched event => some event
  | _ => none

def deferred? : Entry → Option Event
  | deferred event => some event
  | _ => none

/-- Calls of the application's listener about something received. -/
def shown? : Entry → Option HookCall
  | hook call _ _ => if call.isNotification then none else some call
  | _ => none

theorem dispatched?_of_isAside {entry : Entry} (aside : entry.IsAside) :
    dispatched? entry = none := by
  cases entry <;> first | rfl | exact aside.elim

theorem shown?_of_isAside {entry : Entry} (aside : entry.IsAside) : shown? entry = none := by
  cases entry with
  | hook call => exact if_pos aside
  | _ => rfl

theorem isAside_of_isChat {entry : Entry} (chat : entry.IsChat) : entry.IsAside := by
  cases entry <;> first | exact trivial | exact chat.elim

theorem isBlind_shown : IsBlind shown? := by
  intro entry chat
  exact shown?_of_isAside (isAside_of_isChat chat)

theorem isAside_of_isIdle {v : Voice} {entry : Entry} (idle : entry.IsIdle v) :
    entry.IsAside := by
  obtain ⟨talk, told⟩ := idle
  cases entry with
  | dispatched => exact talk
  | hook call state results => exact told call state results rfl
  | _ => trivial

theorem isAloof_dispatched : IsAloof dispatched? where
  isBlind := by
    intro entry chat
    exact dispatched?_of_isAside (isAside_of_isChat chat)
  hook := fun _ _ _ => rfl

end Entry

/-- The calls of the application's listener that a control packet comes to. -/
def Packet.controlCalls (notifyControl : Bool) (packet : Packet) : List HookCall :=
  if notifyControl then [.packet packet] else []

/-- The calls of the application's listener that an event comes to. -/
def Event.calls (notifyControl : Bool) : Event → List HookCall
  | .packet p => if Packet.isControl p.id then p.controlCalls notifyControl else [.packet p]
  | .unknown id => [.unknown id]

namespace Connection

open Entry

/-- What was handed to the listeners. -/
def dispatchedEvents (c : Connection) : List Event := c.recount dispatched?

/-- What was put on the work queue. -/
def deferredEvents (c : Connection) : List Event := c.recount deferred?

/-- What the application's listener was called with because of something received. -/
def shownCalls (c : Connection) : List HookCall := c.recount shown?

/-- `d` is `c` after something by which no event reached the listeners. -/
def Mute (c d : Connection) : Prop :=
  ∃ entries, d.journal = entries ++ c.journal ∧ ∀ entry ∈ entries, entry.IsAside

variable {c d e : Connection} {now : Nat}

namespace Mute

theorem of_journal (same : d.journal = c.journal) : Mute c d :=
  ⟨[], same, fun _ member => by cases member⟩

theorem trans (first : Mute c d) (second : Mute d e) : Mute c e := by
  obtain ⟨earlier, journal, aside⟩ := first
  obtain ⟨later, journal', aside'⟩ := second
  refine ⟨later ++ earlier, by rw [journal', journal, List.append_assoc], ?_⟩
  intro entry member
  rcases List.mem_append.mp member with new | old
  · exact aside' entry new
  · exact aside entry old

theorem log {entry : Entry} (aside : entry.IsAside) (c : Connection) : Mute c (c.log entry) :=
  ⟨[entry], rfl, fun _ member => List.mem_singleton.mp member ▸ aside⟩

theorem chat {packets : List Packet} {entries : List Entry} (h : Chat c d packets entries) :
    Mute c d :=
  ⟨entries, h.journal_eq, fun entry member => isAside_of_isChat (h.isChat entry member)⟩

theorem suffix (h : Mute c d) : c.journal <:+ d.journal := by
  obtain ⟨entries, journal, -⟩ := h
  exact ⟨entries, journal.symm⟩

theorem recount_eq {α : Type} (h : Mute c d) {kind : Entry → Option α}
    (other : ∀ entry, entry.IsAside → kind entry = none) : d.recount kind = c.recount kind := by
  obtain ⟨entries, journal, aside⟩ := h
  rw [recount_eq_append kind journal]
  have nothing := told_eq_nil fun entry member => other entry (aside entry member)
  rw [told] at nothing
  rw [nothing, List.append_nil]

theorem dispatched_eq (h : Mute c d) : d.dispatchedEvents = c.dispatchedEvents :=
  h.recount_eq fun _ => dispatched?_of_isAside

theorem shown_eq (h : Mute c d) : d.shownCalls = c.shownCalls :=
  h.recount_eq fun _ => shown?_of_isAside

end Mute

theorem Idles.mute (h : Idles c d) : Mute c d := by
  obtain ⟨entries, eq, own⟩ := h
  exact ⟨entries, congrArg Trail.journal eq, fun entry member =>
    isAside_of_isIdle (own entry member)⟩

/-! ### Sending -/

theorem mute_tryTo_send (packet : Packet) (c : Connection) : Mute c (tryTo (c.send packet) c) := by
  obtain ⟨_, _, chat⟩ := chat_send packet c
  exact .chat chat

theorem mute_tryTo_sendHandshake (kind : HandshakeKind) (c : Connection) :
    Mute c (tryTo (c.sendHandshake kind) c) := by
  obtain ⟨_, _, chat⟩ := chat_sendHandshake kind c
  exact .chat chat

theorem mute_control (onLoop : Bool) (now : Nat) (packet : Packet) (c : Connection) :
    Mute c (c.control onLoop now packet).1 := by
  cases packet with
  | handshake kind version =>
      simp only [control]
      split
      · exact (mute_tryTo_sendHandshake .response c).trans (.of_journal rfl)
      · exact .of_journal rfl
  | close message => exact (passive_close onLoop now message true c).idles.mute
  | keepAlive response =>
      simp only [control]
      split
      · exact .of_journal rfl
      · exact mute_tryTo_send (.keepAlive true) c
  | app type values => exact .of_journal rfl

/-! ### The inbound loop -/

/-- No packet is to be shown after a close that the inbound loop carries out. -/
def HoldsNothing (c : Connection) : Prop :=
  ∀ wait packet, c.inbound ≠ .closing wait (some packet)

theorem mute_stopReading (now : Nat) (cause : Error) (c : Connection) :
    Mute c (c.stopReading now cause) ∧ (c.stopReading now cause).HoldsNothing := by
  refine ⟨(passive_stopReading now cause c).idles.mute, fun wait packet => ?_⟩
  rw [stopReading]
  split
  · simp
  · dsimp only
    split <;> simp

theorem mute_readOn (c : Connection) : Mute c c.readOn ∧ c.readOn.HoldsNothing := by
  refine ⟨.of_journal rfl, fun wait packet => ?_⟩
  rw [readOn]
  split <;> simp

/-- A deferred event goes to the work queue. -/
theorem mute_deliver {k : Nat} (deferred : c.delivery = .deferred k) (opened : c.state ≠ .closed)
    (now : Nat) (event : Event) :
    Mute c (c.deliver now event) ∧ (c.deliver now event).HoldsNothing := by
  rw [deliver, deferred]
  simp only [if_neg opened]
  obtain ⟨mute, free⟩ := mute_readOn (c.log (.deferred event))
  exact ⟨(Mute.log (show IsAside (.deferred event) from trivial) c).trans mute, free⟩

theorem mute_handleBody {k : Nat} (deferred : c.delivery = .deferred k)
    (opened : c.state ≠ .closed) (now : Nat) (body : Bytes) :
    Mute c (c.handleBody now body) ∧ (c.handleBody now body).HoldsNothing := by
  have noted : Mute c ((c.log (.handled body)).touchReceived now) :=
    (Mute.log (show IsAside (.handled body) from trivial) c).trans (.of_journal rfl)
  rw [handleBody]
  split
  · exact mute_stopReading now _ c
  · dsimp only
    split
    · obtain ⟨mute, free⟩ := mute_deliver
        (c := (c.log (.handled body)).touchReceived now) deferred opened now (.unknown _)
      exact ⟨noted.trans mute, free⟩
    · split
      · obtain ⟨mute, free⟩ := mute_deliver
          (c := (c.log (.handled body)).touchReceived now) deferred opened now (.packet _)
        exact ⟨noted.trans mute, free⟩
      · split
        · obtain ⟨mute, free⟩ := mute_stopReading now _ ((c.log (.handled body)).touchReceived now)
          exact ⟨noted.trans mute, free⟩
        · obtain ⟨mute, free⟩ := mute_readOn ((c.log (.handled body)).touchReceived now)
          exact ⟨noted.trans mute, free⟩

/-- The inbound loop of a deferred connection hands nothing on. -/
theorem mute_inboundStep {k : Nat} (deferred : c.delivery = .deferred k) (orderly : c.Orderly)
    (free : c.HoldsNothing) (step : c.inboundStep now = some d) : Mute c d ∧ d.HoldsNothing := by
  rw [inboundStep] at step
  split at step
  · cases step
    exact mute_readOn c
  · rename_i place
    split at step
    · cases step
      exact ⟨.of_journal rfl, fun _ _ => by simp⟩
    · rename_i going
      have opened : c.state ≠ .closed := fun closed => going (orderly.cancelled closed)
      split at step
      · rename_i body rest _
        cases step
        obtain ⟨mute, free⟩ := mute_handleBody (c := { c with readAhead := rest }) deferred opened
          now body
        exact ⟨Mute.trans (.of_journal rfl) mute, free⟩
      · cases step
        exact mute_stopReading now _ c
      · rw [readAhead?] at step
        split at step
        · cases step
          exact ⟨.of_journal rfl, fun _ _ => by simp [place]⟩
        · split at step <;> cases step
          · exact mute_stopReading now _ c
          · exact mute_stopReading now _ c
  · rename_i wait shown place
    have nothing : shown = none := by
      cases shown with
      | none => rfl
      | some packet => exact absurd place (free wait packet)
    subst nothing
    split at step
    · have mute := (passive_proceedClose true now wait c).idles.mute
      split at step <;> rename_i eq <;> rw [eq] at mute <;> cases step
      · exact ⟨mute.trans (.of_journal rfl), fun _ _ => by simp⟩
      · exact ⟨mute.trans (.of_journal rfl), fun _ _ => by simp⟩
    · cases step
  · cases step

/-! ### Callers and tasks -/

theorem machinery_errandStep {errand : Errand} {wait left : Option CloseWait}
    (step : World.errandStep now c errand wait = some (d, left)) : d.machinery = c.machinery := by
  cases errand with
  | close i =>
      cases wait with
      | none =>
          have same := machinery_close false now closedLocally true c
          rwa [show c.close false now closedLocally true = (d, left) from Option.some.inj step]
            at same
      | some wait =>
          have same := machinery_proceedClose false now wait c
          simp only [World.errandStep] at step
          split at step
          · rwa [Option.some.inj step] at same
          · cases step
  | join i =>
      cases wait with
      | none =>
          simp only [World.errandStep] at step
          split at step <;> cases step <;> rfl
      | some wait =>
          simp only [World.errandStep] at step
          split at step
          · split at step
            · cases step
              rfl
            · split at step <;> cases step <;> rfl
          · cases step

theorem mute_call (call : Call) (c : Connection) : Mute c (call.act c) := by
  cases call with
  | send packet => exact mute_tryTo_send packet c
  | handshake kind => exact mute_tryTo_sendHandshake kind c
  | register type =>
      simp only [Call.act, register]
      split <;> exact .of_journal rfl

/-! ### Events that are handed on -/

/-- `d` is `c` after these events were handed on, and the application's listener was called. -/
structure Hands (c d : Connection) (events : List Event) (calls : List HookCall) : Prop where
  dispatched : d.dispatchedEvents = c.dispatchedEvents ++ events
  shown : d.shownCalls = c.shownCalls ++ calls

theorem Mute.hands (h : Mute c d) : Hands c d [] [] :=
  ⟨by rw [h.dispatched_eq, List.append_nil], by rw [h.shown_eq, List.append_nil]⟩

/-- Whatever was added to the journal, it tells of some events and calls. -/
theorem exists_hands (suffix : c.journal <:+ d.journal) :
    ∃ events calls, Hands c d events calls := by
  obtain ⟨entries, journal⟩ := suffix
  exact ⟨_, _, recount_eq_append dispatched? journal.symm, recount_eq_append shown? journal.symm⟩

theorem Hands.trans {events more : List Event} {calls further : List HookCall}
    (first : Hands c d events calls) (second : Hands d e more further) :
    Hands c e (events ++ more) (calls ++ further) :=
  ⟨by rw [second.dispatched, first.dispatched, List.append_assoc],
    by rw [second.shown, first.shown, List.append_assoc]⟩

theorem hands_callHook {call : HookCall} (plain : call.isNotification = false) (c : Connection) :
    Hands c (c.callHook call) [] [call] where
  dispatched := by
    rw [dispatchedEvents, recount_callHook_of_isAloof isAloof_dispatched, List.append_nil,
      dispatchedEvents]
  shown := by
    obtain ⟨results, eq⟩ := recount_callHook_of_isBlind isBlind_shown call c
    rw [shownCalls, eq]
    simp [shown?, plain, shownCalls]

theorem hands_showControl (packet : Packet) (c : Connection) :
    Hands c (c.showControl packet) [] (packet.controlCalls c.config.notifyControl) := by
  rw [showControl, Packet.controlCalls]
  split
  · exact hands_callHook rfl c
  · exact (Mute.of_journal rfl).hands

theorem hands_log_dispatched (event : Event) (c : Connection) :
    Hands c (c.log (.dispatched event)) [event] [] :=
  ⟨recount_log dispatched? (.dispatched event) c, recount_log shown? (.dispatched event) c⟩

/-- Handing on an event: the listener is called about it, or there is a close to wait for first. -/
theorem hands_dispatch {onLoop : Bool} {event : Event}
    {left : Option (CloseWait × Packet)} (eq : c.dispatch onLoop now event = (d, left)) :
    (left = none → Hands c d [event] (event.calls c.config.notifyControl)) ∧
      ∀ wait packet, left = some (wait, packet) → Hands c d [event] [] ∧
        event.calls c.config.notifyControl = packet.controlCalls c.config.notifyControl := by
  have logged := hands_log_dispatched event c
  cases event with
  | unknown id =>
      cases eq
      exact ⟨fun _ => logged.trans (hands_callHook rfl _), fun _ _ waits => by cases waits⟩
  | packet p =>
      simp only [dispatch, dispatchPacket] at eq
      have mute := mute_control onLoop now p (c.log (.dispatched (.packet p)))
      have machinery := machinery_control onLoop now p (c.log (.dispatched (.packet p)))
      generalize (c.log (.dispatched (.packet p))).control onLoop now p = result
        at eq mute machinery
      obtain ⟨e, wait⟩ := result
      by_cases control : Packet.isControl p.id = true
      · have calls : (Event.packet p).calls c.config.notifyControl =
            p.controlCalls c.config.notifyControl := if_pos control
        have settings : e.config = c.config := congrArg Machinery.config machinery
        simp only [if_pos control] at eq
        cases wait with
        | none =>
            cases eq
            refine ⟨fun _ => ?_, fun _ _ waits => by cases waits⟩
            rw [calls, ← settings]
            exact logged.trans (mute.hands.trans (hands_showControl p e))
        | some wait =>
            cases eq
            refine ⟨fun done => (by cases done), ?_⟩
            rintro _ _ ⟨⟩
            exact ⟨logged.trans mute.hands, calls⟩
      · have calls : (Event.packet p).calls c.config.notifyControl = [.packet p] := if_neg control
        simp only [if_neg control] at eq
        cases eq
        rw [calls]
        exact ⟨fun _ => logged.trans (hands_callHook rfl _), fun _ _ waits => by cases waits⟩

end Connection

end PacketWire
