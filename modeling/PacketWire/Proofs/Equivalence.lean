import PacketWire.Proofs.Deferring
import PacketWire.Proofs.Reception
import PacketWire.Proofs.Respecting

/-!
# Deferred delivery agrees with inline delivery

A connection with deferred delivery reads, decodes and fails in its inbound loop, while somebody
else shows its listener what it received, perhaps long after it was closed. All the same, its
listener is told what it would be told with inline delivery. Both are compared with what the bytes
mean: the inbound loop notes what of it is deferred and how it ends (`Defers`), and the books of the
work queue say that all that is deferred is shown in order (`ordered_of_run`).
-/

namespace PacketWire

/-- The call that tells of something received. -/
def Sight.shown? : Sight → Option HookCall
  | handed _ => none
  | called call => if call.isNotification then none else some call

namespace Reader

variable (r : Reader)

theorem filterMap_shown (packet : Packet) :
    (r.shown packet).filterMap Sight.shown? = packet.controlCalls r.notifyControl ∧
      (r.shown packet).filterMap Sight.event? = [] := by
  rw [Reader.shown, Packet.controlCalls]
  split <;> exact ⟨rfl, rfl⟩

/-- For an event its calls are made, and no others that tell of something received. -/
theorem filterMap_sights (event : Event) :
    (r.sights event).filterMap Sight.shown? = event.calls r.notifyControl ∧
      (r.sights event).filterMap Sight.event? = [event] := by
  cases last : isLast event with
  | true =>
      cases event with
      | unknown => cases last
      | packet packet =>
          cases packet with
          | close message =>
              obtain ⟨calls, nothing⟩ := r.filterMap_shown (.close message)
              constructor
              · rw [sights, List.filterMap_append, calls]
                rfl
              · rw [sights, List.filterMap_append, nothing]
                rfl
          | _ => cases last
  | false =>
      cases event with
      | unknown id => exact ⟨rfl, rfl⟩
      | packet packet =>
          obtain ⟨calls, nothing⟩ := r.filterMap_shown packet
          rw [r.sights_packet last, Event.calls]
          split
          · exact ⟨calls, congrArg (Event.packet packet :: ·) nothing⟩
          · exact ⟨rfl, rfl⟩

theorem filterMap_finale (cause : Error) : (finale cause).filterMap Sight.shown? = [] ∧
    (finale cause).filterMap Sight.event? = [] := by
  rw [finale]
  split <;> exact ⟨rfl, rfl⟩

/-- What the listener is shown of the bytes are the calls of the events that they mean. -/
theorem shown_read (ending : Option Ending) (bytes : Bytes) :
    (r.read ending bytes).filterMap Sight.shown? =
      ((r.read ending bytes).filterMap Sight.event?).flatMap (Event.calls r.notifyControl) := by
  have ends (cause : Error) : (finale cause).filterMap Sight.shown? =
      ((finale cause).filterMap Sight.event?).flatMap (Event.calls r.notifyControl) := by
    rw [(filterMap_finale cause).1, (filterMap_finale cause).2]
    rfl
  fun_induction Reader.read r ending bytes with
  | case1 bytes body rest complete event judged ih =>
      obtain ⟨calls, events⟩ := r.filterMap_sights event
      rw [List.filterMap_append, List.filterMap_append, List.flatMap_append, calls, events,
        List.flatMap_singleton]
      split
      · rfl
      · rw [ih]
  | case2 bytes body rest complete judged ih => exact ih
  | case3 => exact ends _
  | case4 => exact ends _
  | case5 => rfl
  | case6 => exact ends _

end Reader

namespace Connection

variable {r : Reader} {c : Connection}

theorem shownCalls_eq (c : Connection) : c.shownCalls = c.sights.filterMap Sight.shown? := by
  simp only [shownCalls, sights, recount, List.filterMap_filterMap]
  congr 1
  funext entry
  cases entry <;> rfl

theorem notifications_eq_sights (c : Connection) :
    c.notifications = c.sights.filterMap Sight.notification? := by
  simp only [notifications, sights, recount, List.filterMap_filterMap]
  congr 1
  funext entry
  cases entry <;> rfl

/-- What a connection with inline delivery did is what the bytes mean. -/
theorem Hears.eq_read {chunks : List Bytes} {ending : Option Ending} (h : Hears r chunks ending c)
    (spent : c.Spent) : c.sights = r.read ending chunks.flatten := by
  rw [h.relays.eq_read spent, h.fed, h.ending]

/-- What a connection with deferred delivery put on the work queue, and what its listener was told
of a failure and of the closing, is what the bytes mean. -/
theorem Defers.eq_read (h : Defers r c) :
    (c.deferredEvents <+: (r.read c.source.ending c.source.fed).filterMap Sight.event? ∧
      c.notifications <+: (r.read c.source.ending c.source.fed).filterMap Sight.notification?) ∧
    (c.Spent →
      c.deferredEvents = (r.read c.source.ending c.source.fed).filterMap Sight.event? ∧
      c.notifications = (r.read c.source.ending c.source.fed).filterMap Sight.notification?) := by
  have silent (sight : Sight) (unnoted : ¬ sight.isNoted = true) :
      sight.event? = none ∧ sight.notification? = none := by
    cases sight with
    | handed => exact absurd rfl unnoted
    | called call => exact ⟨rfl, if_neg unnoted⟩
  have noted (sights : List Sight) :
      (sights.filter Sight.isNoted).filterMap Sight.event? = sights.filterMap Sight.event? ∧
      (sights.filter Sight.isNoted).filterMap Sight.notification? =
        sights.filterMap Sight.notification? := by
    simp only [List.filterMap_filter]
    constructor <;>
    · refine congrArg (List.filterMap · sights) (funext fun sight => ?_)
      split
      · rfl
      · rename_i unnoted
        simp only [silent sight unnoted]
  obtain ⟨front, whole⟩ := h.notes_of_read
  rw [deferredEvents_eq, notifications_eq, ← (noted (r.read _ _)).1, ← (noted (r.read _ _)).2]
  refine ⟨⟨front.filterMap _, front.filterMap _⟩, fun spent => ?_⟩
  rw [whole spent]
  exact ⟨rfl, rfl⟩

end Connection

namespace World

open Connection

variable {w : World} {r : Reader} {i : Nat}

/-- The account of a connection with deferred delivery and an idle listener stays right, while no
close message comes. -/
theorem lasting_defers {bytes : Bytes} (free : r.FreeOfClose bytes) :
    Lasting Intervention.IsPlain bytes fun _ => Defers r where
  calm := by
    intro w i c reached here fed defers
    have mild := defers.patient.idle.mild
    exact ⟨mild, reached.unasked here mild, defers.isLast_eq_false (free.of_prefix fed)⟩
  undergoes := by
    intro w i c later d reached here fed defers undergoes
    exact defers.undergoes (free.of_prefix fed) undergoes

end World

open Connection World

/-- Deferred delivery agrees with inline delivery. The connection is started with deferred delivery
and an idle listener in a run that respects it: nobody closes it, its transport does not fail, and
what is sent to the other side can be written. Claimants serve its work queue, together with any
other connections, whatever these receive. Another connection has the same settings but inline
delivery; it was fed the same bytes, cut in any way, with the same end, and has done all that it
does about them. No close message is among what the bytes mean.

Then the calls of the first listener, both those about what was received and those about a failure
and the closing, are the first calls of the second. They are all of them where the inbound loop has
nothing left to do and the work queue holds nothing of the connection. -/
theorem deliveries_agree {queues : Nat} {wires : List (Nat × Nat)} {before after : List Happening}
    {opening : Session.Opening} {setup : Setup} {w : World} {i k since now : Nat} {q : WorkQueue}
    {c d : Connection} {chunks : List Bytes}
    (given : Session.setup opening = .ok setup) (uses : setup.delivery = .deferred k)
    (idle : Listener.Idle setup.listener)
    (run : performAll (before ++ .start opening :: after) { empty queues with wires } = w)
    (place : (performAll before { empty queues with wires }).conns.length = i)
    (goesOn : ∀ t, .abort t ∉ before ++ .start opening :: after)
    (others : ∀ j, .collect j ∉ before ++ .start opening :: after)
    (dry : ∀ wire ∈ wires, wire.2 ≠ i)
    (respects : Respects Intervention.IsPlain i { empty queues with wires }
      (before ++ .start opening :: after))
    (here : w.conns[i]? = some c) (queue : w.queues[k]? = some q)
    (free : setup.reader.FreeOfClose c.source.fed)
    (inline : Undisturbed { setup with delivery := .inline } since chunks c.source.ending now d)
    (same : chunks.flatten = c.source.fed) (spent : d.Spent) :
    (c.shownCalls <+: d.shownCalls ∧ c.notifications <+: d.notifications) ∧
    (c.Spent → WorkUnit.eventsOf i q.units = [] →
      c.shownCalls = d.shownCalls ∧ c.notifications = d.notifications) := by
  have deferred : setup.delivery ≠ .inline := by simp [uses]
  have fed : w.fed i = c.source.fed := by
    rw [World.fed, here]
    rfl
  obtain ⟨keeps, since', c', there, later⟩ :=
    keeps_run (lasting_defers free) given (defers_start deferred idle) run place dry respects
      (fed ▸ List.prefix_rfl)
  obtain rfl : c' = c := Option.some.inj (there.symm.trans here)
  obtain ⟨settings, -, delivery⟩ := later.settings
  have config : c'.config = setup.config := settings
  obtain ⟨inOrder, shown⟩ :=
    shownCalls_of_respects run goesOn others here queue (delivery.trans uses) keeps.tasks
  obtain ⟨⟨frontEvents, frontNotifications⟩, whole⟩ := (keeps.conn c' here).eq_read
  -- what the inline connection does
  have passive : Setup.IsPassive { setup with delivery := .inline } := ⟨rfl, idle⟩
  have sights : d.sights = setup.reader.read c'.source.ending c'.source.fed :=
    same ▸ (inline.hears passive).eq_read spent
  have calls : d.shownCalls =
      ((setup.reader.read c'.source.ending c'.source.fed).filterMap Sight.event?).flatMap
        (Event.calls setup.config.notifyControl) := by
    rw [d.shownCalls_eq, sights]
    exact setup.reader.shown_read _ _
  rw [calls, d.notifications_eq_sights, sights, shown, config]
  refine ⟨⟨?_, frontNotifications⟩, fun done emptied => ?_⟩
  · have front : c'.dispatchedEvents <+: c'.deferredEvents := inOrder ▸ List.prefix_append _ _
    obtain ⟨rest, eq⟩ := front.trans frontEvents
    rw [← eq, List.flatMap_append]
    exact List.prefix_append _ _
  · obtain ⟨events, notifications⟩ := whole done
    rw [emptied, List.append_nil] at inOrder
    exact ⟨by rw [← inOrder, events], notifications⟩

/-- A connection of the first work queue. -/
def sharing : Session.Opening := { Session.Opening.plain with delivery := .deferred 0 }

/-- Two connections of one work queue receive frames with ids that nobody knows. Those of the second
come in two pieces, and then its input ends; it is closed before the claimant begins. -/
def interleaved : List Happening :=
  [.transit 0 (.feed [0, 0, 0, 2, 0, 7]), .transit 1 (.feed [0, 0, 0]), .process 0 false] ++
  List.replicate 2 (.run (.inbound 1)) ++ List.replicate 3 (.run (.inbound 0)) ++
  [.transit 1 (.feed [2, 0, 5, 0, 0, 0, 2, 0, 6]), .transit 1 (.finish .endOfStream)] ++
  List.replicate 6 (.run (.inbound 1)) ++ [.pass closeTimeout, .run (.inbound 1)] ++
  List.replicate 7 (.run (.task 0))

/-- What the second of them receives, cut in another way. -/
def twoFrames : List Bytes := [[0, 0, 0, 2, 0, 5, 0, 0, 0], [2, 0, 6]]

theorem deliveries_agree_interleaved :
    ∃ w c d, performAll ([.start sharing] ++ .start sharing :: interleaved) (empty 1) = w ∧
      w.conns[1]? = some c ∧ c.state = .closed ∧ c.dispatchedEvents.length = 2 ∧
      Undisturbed {} 0 twoFrames (some .endOfStream) closeTimeout d ∧
      d.shownCalls = [.unknown 5, .unknown 6] ∧ d.notifications = [.closed endOfStream true] ∧
      c.shownCalls = d.shownCalls ∧ c.notifications = d.notifications := by
  obtain ⟨w, run⟩ : ∃ w, performAll ([.start sharing] ++ .start sharing :: interleaved)
      { empty 1 with wires := [] } = w := ⟨_, rfl⟩
  obtain ⟨q, c, queue, here, bytes, ending, closed, done, finished, emptied⟩ :
      ∃ q c, w.queues[0]? = some q ∧ w.conns[1]? = some c ∧
        twoFrames.flatten = c.source.fed ∧
        c.source.ending = some .endOfStream ∧ c.state = .closed ∧ c.dispatchedEvents.length = 2 ∧
        c.inbound = .finished ∧ q.units = [] := by
    subst run
    exact ⟨_, _, rfl, rfl, rfl, rfl, rfl, rfl, rfl, rfl⟩
  have spent : c.Spent := fun now => by rw [inboundStep, finished]
  obtain ⟨d, inline, sights, ceased⟩ :
      ∃ d, Undisturbed {} 0 twoFrames (some .endOfStream) closeTimeout d ∧
        d.sights = [.handed (.unknown 5), .called (.unknown 5), .handed (.unknown 6),
          .called (.unknown 6), .called (.closed endOfStream true)] ∧ d.Spent := by
    have fed : Undisturbed {} 0 twoFrames (some .endOfStream) 0 _ :=
      .finish .endOfStream (.feed [2, 0, 6] (.feed [0, 0, 0, 2, 0, 5, 0, 0, 0] .start))
    have read := fed.inbound.inbound.inbound.inbound.inbound.inbound
    exact ⟨_, (read.pass closeTimeout).inbound, rfl, fun _ => rfl⟩
  have passive : Setup.IsPassive {} := ⟨rfl, fun _ _ => rfl⟩
  have free : (Setup.reader { delivery := .deferred 0 }).FreeOfClose c.source.fed := by
    intro message handed
    have among := Reader.handed_read_append handed (some .endOfStream) []
    rw [List.append_nil, ← bytes] at among
    have read := (inline.hears passive).eq_read ceased
    rw [sights] at read
    have member := read ▸ among
    simp at member
  have alike : Undisturbed {} 0 twoFrames c.source.ending closeTimeout d := ending ▸ inline
  have given : Session.setup sharing = .ok { delivery := .deferred 0 } := rfl
  obtain ⟨-, agree⟩ := deliveries_agree given rfl (fun _ _ => rfl) run rfl (by simp [interleaved])
    (by simp [interleaved]) (by simp) (by decide) here queue free alike bytes ceased
  obtain ⟨shown, notified⟩ := agree spent (by rw [emptied]; rfl)
  refine ⟨w, c, d, run, here, closed, done, inline, ?_, ?_, shown, notified⟩
  · rw [d.shownCalls_eq, sights]
    rfl
  · rw [d.notifications_eq_sights, sights]
    rfl

end PacketWire
