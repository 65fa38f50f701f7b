import Mathlib.Data.List.Forall2
import PacketWire.Proofs.ConnectionStep
import PacketWire.Proofs.Handover

/-!
# What goes to the work queue

The inbound loop of a connection with deferred delivery puts every event on the work queue right
after it began to handle the frame, and it does nothing else with it. So the events are in the
order of their frames, and a closed connection adds none.
-/

namespace PacketWire

namespace Entry

theorem isAloof_deferred : IsAloof deferred? where
  isBlind := by
    intro entry chat
    cases entry <;> first | rfl | exact chat.elim
  hook := fun _ _ _ => rfl

/-- The body of a frame means this event, for one set of packet types at least. -/
def Means (body : Bytes) (event : Event) : Prop :=
  ∃ r : Reader, r.judge body = .event event

/-- In a journal, latest entry first, events are deferred right behind their frames. -/
inductive InStep : List Entry → Prop
  | nil : InStep []
  | other {entry : Entry} {before : List Entry} : deferred? entry = none → InStep before →
      InStep (entry :: before)
  | defer {event : Event} {body : Bytes} {before : List Entry} : Means body event →
      InStep before → InStep (.deferred event :: .handled body :: before)

theorem InStep.append {entries before : List Entry} (h : InStep before)
    (silent : told deferred? entries = []) : InStep (entries ++ before) := by
  induction entries with
  | nil => exact h
  | cons entry entries ih =>
      rw [told_cons, List.append_eq_nil_iff] at silent
      refine .other ?_ (ih silent.1)
      simpa using silent.2

theorem InStep.of_handled {body : Bytes} {before : List Entry}
    (h : InStep (.handled body :: before)) : InStep before := by
  cases h
  assumption

/-- Then the deferred events are those of some of the frames, in the order of these. -/
theorem InStep.bodies {entries : List Entry} (h : InStep entries) :
    ∃ bodies, bodies.Sublist (told handled? entries) ∧
      List.Forall₂ Means bodies (told deferred? entries) := by
  induction h with
  | nil => exact ⟨[], .slnil, .nil⟩
  | @other entry before silent _ ih =>
      obtain ⟨bodies, sublist, means⟩ := ih
      refine ⟨bodies, ?_, ?_⟩
      · rw [told_cons]
        exact sublist.trans (List.sublist_append_left _ _)
      · rwa [told_cons, silent, Option.toList_none, List.append_nil]
  | @defer event body before means _ ih =>
      obtain ⟨bodies, sublist, earlier⟩ := ih
      refine ⟨bodies ++ [body], ?_, ?_⟩
      · rw [told_cons, told_cons, show handled? (.deferred event) = none from rfl,
          Option.toList_none, List.append_nil]
        exact sublist.append (List.Sublist.refl [body])
      · rw [told_cons, told_cons, show deferred? (.handled body) = none from rfl,
          Option.toList_none, List.append_nil]
        exact List.rel_append earlier (.cons means .nil)

end Entry

namespace Connection

open Entry

variable {c d : Connection}

/-- One piece of what happens to a connection defers nothing, or it is this. -/
theorem Change.deferred (change : Change c d) : d.deferredEvents = c.deferredEvents ∨
    ∃ event body before, c.state ≠ .closed ∧ c.journal = .handled body :: before ∧
      c.Understands body event ∧ d = c.log (.deferred event) := by
  have logged {c : Connection} {entry : Entry} (silent : deferred? entry = none) :
      (c.log entry).deferredEvents = c.deferredEvents := by
    rw [deferredEvents, recount_log, silent, Option.toList_none, List.append_nil, deferredEvents]
  cases change with
  | feed | finish | write | place => exact .inl rfl
  | due => exact .inl (logged rfl)
  | move move =>
      cases move with
      | chat chat => exact .inl (chat.recount_of_isBlind isAloof_deferred.isBlind)
      | hook call => exact .inl (recount_callHook_of_isAloof isAloof_deferred call c)
      | hear | touch | register | readAhead | go | cancel | takeLoops => exact .inl rfl
      | @frame _ rest => exact .inl (logged (c := { c with readAhead := rest }) rfl)
      | defer _ opened handled understands =>
          exact .inr ⟨_, _, _, opened, handled, understands, rfl⟩
      | dispatch => exact .inl (logged rfl)
      | leave message =>
          exact .inl (recount_startClosing_of_isAloof isAloof_deferred message true c)
      | fail cause =>
          refine .inl ((recount_startClosing_of_isAloof isAloof_deferred _ _ _).trans ?_)
          exact recount_callHook_of_isAloof isAloof_deferred (.failed cause) _
      | markClosed =>
          exact .inl ((recount_markClosed deferred? c).trans (List.append_nil _))

/-- A closed connection defers nothing. -/
theorem deferred_of_closed (changes : Changes c d) (closed : c.state = .closed) :
    d.state = .closed ∧ d.deferredEvents = c.deferredEvents := by
  induction changes with
  | refl => exact ⟨closed, rfl⟩
  | tail _ change ih =>
      obtain ⟨still, same⟩ := ih
      refine ⟨(Later.of_changes (.single change)).state_of_closed still, ?_⟩
      rcases change.deferred with silent | ⟨_, _, _, opened, -⟩
      · exact silent.trans same
      · exact absurd still opened

theorem inStep_changes (changes : Changes c d) (h : InStep c.journal) : InStep d.journal := by
  induction changes with
  | refl => exact h
  | tail _ change ih =>
      rcases change.deferred with silent | ⟨event, body, before, -, handled, ⟨r, -, means⟩, rfl⟩
      · obtain ⟨entries, journal⟩ := (Later.of_changes (.single change)).journal
        rw [← journal]
        refine ih.append ?_
        rw [deferredEvents, recount_eq_append deferred? journal.symm] at silent
        exact List.append_right_eq_self.mp silent
      · rw [journal_log, handled]
        rw [handled] at ih
        exact .defer ⟨r, means⟩ ih.of_handled

end Connection

/-- The units that one connection adds to its work queue. -/
theorem WorkQueue.units_settleAll (i : Nat) (entries : List Entry) (q : WorkQueue) :
    (entries.foldl (settle i) q).units =
      q.units ++ (entries.filterMap Entry.deferred?).map (⟨i, ·⟩) := by
  induction entries generalizing q with
  | nil => simp
  | cons entry entries ih =>
      rw [List.foldl_cons, ih]
      cases entry with
      | deferred event => simp [settle, Entry.deferred?]
      | _ => rfl

namespace World

open Connection

variable {w : World}

/-- The events that a connection deferred are those of some of its frames, in their order. -/
theorem Reachable.inStep (h : w.Reachable) {i : Nat} {c : Connection}
    (here : w.conns[i]? = some c) : Entry.InStep c.journal := by
  refine h.conns (P := fun c => Entry.InStep c.journal) (fun _ _ => .nil) ?_ i c here
  intro now c d e closers valid inStep share tended
  exact inStep_changes ((share.changes valid).trans tended.changes) inStep

/-- The inbound loop of a deferred connection shows nothing after a close. -/
theorem Reachable.holdsNothing (h : w.Reachable) {i k : Nat} {c : Connection}
    (here : w.conns[i]? = some c) (deferred : c.delivery = .deferred k) : c.HoldsNothing := by
  refine h.conns (P := fun c => ∀ k, c.delivery = .deferred k → c.HoldsNothing)
    (fun _ _ _ _ _ _ place => by cases place) ?_ i c here k deferred
  intro now c d e closers valid free share tended k deferred
  have changes := share.changes valid
  obtain ⟨source, sink, rfl⟩ := tended.eq
  have uses : c.delivery = .deferred k :=
    (Connection.Later.of_changes changes).settings.2.2.symm.trans deferred
  have same (place : d.inbound = c.inbound) : d.HoldsNothing := by
    rw [HoldsNothing, place]
    exact free k uses
  change d.HoldsNothing
  cases share with
  | rests => exact free k uses
  | acted _ place => exact same place
  | alone alone =>
      cases alone with
      | inbound step => exact (mute_inboundStep uses valid.orderly (free k uses) step).2
      | outbound step => exact same (onward_outboundStep step).inbound
      | call call => exact same (acts_call c call).inbound_eq

end World

end PacketWire
