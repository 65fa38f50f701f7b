import PacketWire.Proofs.Drainers
import PacketWire.Proofs.HeldEvents
import PacketWire.Proofs.Receipts
import PacketWire.Proofs.Understanding

/-!
# What connections receive in a run

In whatever happens, a connection handles at most one frame, or it gets one event that was held for
it, or the application calls it. `Meets` says which, and what is held for the connection then. So
what is kept in all cases of `Receives` is kept in every run, up to what the application asks for.
-/

namespace PacketWire

open Connection Entry

variable {kind : Voice → Entry → Prop}

namespace Connection

variable {c d : Connection}

theorem Tended.trail_eq (tended : Tended c d) : d.trail = c.trail := by
  obtain ⟨source, sink, rfl⟩ := tended.eq
  rfl

/-- A connection keeps its voice. -/
theorem Later.voice_eq (later : c.Later d) : d.voice = c.voice := by
  rw [voice, later.settings.1, later.settings.2.1, voice]

theorem deferredEvents_eq_of_trail (same : d.trail = c.trail) :
    d.deferredEvents = c.deferredEvents :=
  congrArg (fun trail => trail.journal.reverse.filterMap deferred?) same

/-- Talk defers nothing. -/
theorem deferred_of_talks (talks : Talks c d) : d.deferredEvents = c.deferredEvents := by
  have gains := gains_of_leaves (fun _ _ => not_isReceipt_of_isTalk) talks
  rw [gains.deferred, List.append_nil]

/-- What is handed on is not deferred again. -/
theorem deferred_of_redeems {event : Event}
    (leaves : Leaves IsTalk (c.trail.heed c.isActive event) d.trail) :
    d.deferredEvents = c.deferredEvents := by
  have gains := gains_of_redeems (fun _ _ => not_isReceipt_of_isTalk) leaves
  rw [gains.deferred, List.append_nil]

end Connection

/-- The packet that a call asks a connection of this version to send. -/
def Call.packet? (version : Int32) : Call → Option Packet
  | .send packet => some packet
  | .handshake kind => some (.handshake kind version)
  | .register _ => none

/-- Whether the application calls a connection. -/
def Happening.calls (i : Nat) : Happening → Bool
  | .call j _ => j = i
  | _ => false

/-- A call leaves the packet that it asks for, if it leaves anything. -/
theorem leaves_call {call : Call} (c : Connection)
    (asked : ∀ packet, call.packet? c.voice.version = some packet →
      kind c.voice (.accepted packet) ∧ kind c.voice (.enqueued packet)) :
    Leaves kind c.trail (call.act c).trail := by
  cases call with
  | send packet => exact leaves_tryTo_send (asked _ rfl).1 (asked _ rfl).2
  | handshake => exact leaves_tryTo_sendHandshake (asked _ rfl).1 (asked _ rfl).2
  | register type =>
      simp only [Call.act, register]
      split <;> exact .of_eq rfl

/-- A call makes a connection receive nothing. -/
theorem gains_call (call : Call) (c : Connection) :
    Gains (fun _ entry => ¬ entry.IsReceipt) c (call.act c) [] [] [] :=
  gains_of_leaves (fun _ _ => id) (leaves_call c fun _ _ => ⟨id, id⟩)

namespace World

/-- What a connection meets with in a happening. -/
inductive Meets (w w' : World) (i : Nat) (happening : Happening) (c e : Connection) : Prop
  /-- It handles a frame or nothing. At most what it defers is held for it then. -/
  | handles : happening.calls i = false → Handles IsTalk c e →
      (∀ events, e.deferredEvents = c.deferredEvents ++ events →
        held i w' ≤ held i w + burden events) → Meets w w' i happening c e
  /-- It gets an event that was held for it. -/
  | redeems {event : Event} : happening.calls i = false → .deferred event ∈ c.journal →
      Leaves IsTalk (c.trail.heed c.isActive event) e.trail →
      held i w' + event.weight ≤ held i w → Meets w w' i happening c e
  | called {call : Call} : happening = .call i call → e.trail = (call.act c).trail →
      held i w' ≤ held i w → Meets w w' i happening c e

variable {w w' : World} {i j : Nat} {b c d e : Connection} {happening : Happening}

/-- Where a connection is after one of them, it or another, went on. -/
theorem exists_put (place : w.conns[j]? = some b) (suffix : b.journal <:+ d.journal)
    (here : w.conns[i]? = some c) : ∃ e, (w.put j b d).conns[i]? = some e ∧
      e.trail = (if i = j then d else c).trail := by
  obtain ⟨e, there, tended⟩ := exists_of_put place suffix here
  exact ⟨e, there, tended.trail_eq⟩

namespace Meets

theorem aside (unasked : happening.calls i = false) (same : e.trail = c.trail)
    (less : held i w' ≤ held i w) : Meets w w' i happening c e :=
  .handles unasked (.nothing (.of_eq same)) fun _ _ => Nat.le_add_right_of_le less

/-- One connection, this or another, talks. -/
theorem talks (unasked : happening.calls i = false) (place : w.conns[j]? = some b)
    (here : w.conns[i]? = some c) (same : e.trail = (if i = j then d else c).trail)
    (talks : Talks b d) (less : held i w' ≤ held i w) : Meets w w' i happening c e := by
  split at same
  · rename_i mine
    subst mine
    obtain rfl : b = c := Option.some.inj (place.symm.trans here)
    exact .handles unasked (.nothing (same ▸ talks)) fun _ _ => Nat.le_add_right_of_le less
  · exact aside unasked same less

/-- One connection, this or another, gets an event that was held for it. -/
theorem hands (unasked : happening.calls i = false) (place : w.conns[j]? = some b)
    (here : w.conns[i]? = some c) (same : e.trail = (if i = j then d else c).trail) {event : Event}
    (owed : .deferred event ∈ b.journal)
    (leaves : Leaves IsTalk (b.trail.heed b.isActive event) d.trail)
    (less : held i w' + (if i = j then event.weight else 0) ≤ held i w) :
    Meets w w' i happening c e := by
  split at same
  · rename_i mine
    subst mine
    obtain rfl : b = c := Option.some.inj (place.symm.trans here)
    rw [if_pos rfl] at less
    exact .redeems unasked owed (same ▸ leaves) less
  · exact aside unasked same (Nat.le_of_add_right_le less)

/-- What a connection meets with is that it receives something, if calls are no more than talk. -/
theorem receives (h : Meets w w' i happening c e)
    (talk : ∀ entry, entry.IsTalk c.voice → kind c.voice entry)
    (calls : ∀ call, happening = .call i call → Leaves kind c.trail (call.act c).trail) :
    Receives kind c e := by
  cases h with
  | handles _ handles => exact .handles (handles.imp talk)
  | redeems _ owed leaves =>
      refine .redeems owed (leaves.imp ?_)
      rw [Trail.voice_heed]
      exact talk
  | called eq same => exact .nothing (same ▸ calls _ eq)

end Meets

/-- What a connection meets with in a stretch of one connection by itself. -/
theorem meets_handles (unasked : happening.calls i = false) (valid : w.Valid)
    (place : w.conns[j]? = some b) (alone : Alone w.now b d) (handles : Handles IsTalk b d)
    (here : w.conns[i]? = some c) : ∃ e, (w.put j b d).conns[i]? = some e ∧
      Meets w (w.put j b d) i happening c e := by
  have suffix := (Later.of_changes (alone.changes (valid.conns j b place))).journal
  obtain ⟨e, there, same⟩ := exists_put place suffix here
  refine ⟨e, there, ?_⟩
  obtain ⟨_, defers, _, -, gains⟩ := handles.gains fun _ _ => not_isReceipt_of_isTalk
  have put := held_put (w := w) suffix gains.deferred i j
  split at same
  · rename_i mine
    subst mine
    obtain rfl : b = c := Option.some.inj (place.symm.trans here)
    rw [if_pos rfl] at put
    refine .handles unasked (handles.of_trail_eq same) fun events deferred => ?_
    rw [deferredEvents_eq_of_trail same, gains.deferred] at deferred
    rwa [← List.append_cancel_left deferred]
  · rename_i other
    rw [if_neg other] at put
    exact .aside unasked same put

/-- What a connection meets with in a stretch of a task. -/
theorem meets_drains (unasked : happening.calls i = false) (valid : w.Valid) {t : Nat} {job : Job}
    {task : Task} (place : w.tasks[t]? = some (.running job)) (drains : Drains w job w' task)
    (here : w.conns[i]? = some c) : ∃ e, w'.conns[i]? = some e ∧
      Meets w { w' with tasks := w'.tasks.set t task } i happening c e := by
  cases drains with
  | @waits k f _ same before after =>
      have queues := held_modifyQueue_of_eq same i
      have turned := held_set (w := w.modifyQueue k f) place task i
      rw [heldBy_eq_zero before.units, heldBy_eq_zero after.units] at turned
      exact ⟨c, here, .aside unasked rfl (by omega)⟩
  | @takes j k b q _ there uses queue starts taken _ =>
      subst starts
      -- the units go from the work queue into the hands of the task
      obtain ⟨mine, rest⟩ := units_takeFor j q
      have queues := held_modifyQueue queue (fun _ => (q.takeFor j).2) i
      have turned := held_set (w := w.modifyQueue k fun _ => (q.takeFor j).2) place task i
      have sorted := WorkUnit.burden_filter i (·.conn = j) q.units
      have free : heldBy i (.running (.collect j .starting)) = 0 := heldBy_eq_zero rfl i
      rw [free, heldBy, taken, mine] at turned
      rw [heldIn, heldIn, rest] at queues
      simp only [decide_not] at queues
      exact ⟨c, here, .aside unasked rfl (by omega)⟩
  | @errand errand _ _ _ b d _ starts there stepped after =>
      subst starts
      have idles := (passive_errandStep stepped).idles
      have suffix := idles.mute.suffix
      have put := held_put_le (w := w) suffix (deferred_of_talks idles.talks) i errand.conn
      have turned := held_set (getElem?_tasks_put (j := errand.conn) suffix place) task i
      rw [heldBy_eq_zero (isEmptyHanded_errands _ _).units, heldBy_eq_zero after.units] at turned
      obtain ⟨e, place', same⟩ := exists_put there suffix here
      exact ⟨e, place', .talks unasked there here same idles.talks (by omega)⟩
  | @hands unit _ s _ todo busy dispatched =>
      obtain ⟨b, there, member⟩ := valid.booked.taken _ (List.mem_of_getElem? place) unit
        (by rw [todo]; exact List.mem_cons_self)
      obtain ⟨d, calls, rfl, later, leaves, -⟩ := put_of_dispatchUnit dispatched there member
      have put := held_put_le (w := w) later.journal (deferred_of_redeems leaves) i unit.conn
      have turned := held_set (getElem?_tasks_put (j := unit.conn) later.journal place) task i
      rw [heldBy, todo, WorkUnit.burden_eventsOf_cons, ← heldBy] at turned
      obtain ⟨e, place', same⟩ := exists_put there later.journal here
      exact ⟨e, place', .hands unasked there here same member leaves (by omega)⟩
  | @pops k f q unit _ s _ queue front draws before dispatched free =>
      obtain ⟨b, there, deferred, member⟩ := valid.booked.queued k q queue unit
        (by rw [front]; exact List.mem_cons_self)
      obtain ⟨d, calls, rfl, later, leaves, -⟩ :=
        put_of_dispatchUnit (w := w.modifyQueue k f) dispatched there member
      have queues := held_modifyQueue queue f i
      have put := held_put_le (w := w.modifyQueue k f) later.journal (deferred_of_redeems leaves) i
        unit.conn
      have turned := held_set
        (getElem?_tasks_put (w := w.modifyQueue k f) (j := unit.conn) later.journal place) task i
      rw [heldBy_eq_zero before.units, heldBy_eq_zero free] at turned
      rw [heldIn, front, WorkUnit.burden_eventsOf_cons, ← heldIn] at queues
      obtain ⟨e, place', same⟩ := exists_put (w := w.modifyQueue k f) there later.journal here
      exact ⟨e, place', .hands unasked there here same member leaves (by omega)⟩
  | @resumes s _ _ _ busy resumed units =>
      obtain ⟨b, there, fits⟩ := valid.suspended place busy
      obtain ⟨d, calls, rfl, later, talks, -⟩ := put_of_resume resumed there fits
      have put := held_put_le (w := w) later.journal (deferred_of_talks talks) i s.conn
      have turned := held_set (getElem?_tasks_put (j := s.conn) later.journal place) task i
      rw [heldBy, heldBy, units] at turned
      obtain ⟨e, place', same⟩ := exists_put there later.journal here
      exact ⟨e, place', .talks unasked there here same talks (by omega)⟩

/-- In whatever happens, a connection meets with one thing. -/
theorem meets_perform (reached : w.Reachable) (happening : Happening)
    (here : w.conns[i]? = some c) :
    ∃ e, (w.perform happening).conns[i]? = some e ∧
      Meets w (w.perform happening) i happening c e := by
  have valid := reached.valid
  have still {happening : Happening} {w' : World} (unasked : happening.calls i = false)
      (tended : TendedAll w.conns w'.conns) (less : held i w' ≤ held i w) :
      ∃ e, w'.conns[i]? = some e ∧ Meets w w' i happening c e := by
    obtain ⟨e, there, tended⟩ := tended.getElem? here
    exact ⟨e, there, .aside unasked tended.trail_eq less⟩
  cases happening with
  | pass => exact still rfl (.refl _) (Nat.le_refl _)
  | errands | collect | process => exact still rfl (.refl _) (Nat.le_of_eq (held_spawn rfl i w))
  | announce k =>
      have same := held_modifyQueue_of_eq (w := w) (k := k) (f := .announce) (fun _ _ => rfl) i
      exact still rfl (.refl _) (Nat.le_of_eq same)
  | transit j transit => exact still rfl (.modify (tended_transit transit) j _) (Nat.le_refl _)
  | carry source target count => exact still rfl (.modify (.feed _) target _) (Nat.le_refl _)
  | abort t =>
      obtain ⟨queues, tasks, eq, -⟩ := abort_eq t w
      refine still rfl ?_ (held_abort_le t i w)
      rw [World.perform, eq]
      exact .refl _
  | start opening =>
      simp only [World.perform]
      split
      · refine ⟨c, ?_, .aside rfl rfl (Nat.le_of_eq (held_start _ i w))⟩
        rw [conns_start, List.getElem?_append_left (List.getElem?_eq_some_iff.mp here).1, here]
      · exact still rfl (.refl _) (Nat.le_refl _)
  | call j call =>
      simp only [World.perform, onConn]
      split
      · rename_i absent
        refine still (decide_eq_false ?_) (.refl _) (Nat.le_refl _)
        rintro rfl
        cases absent.symm.trans here
      · rename_i b place
        have suffix := (mute_call call b).suffix
        have put := held_put_le (w := w) suffix
          ((gains_call call b).deferred.trans (List.append_nil _)) i j
        obtain ⟨e, there, same⟩ := exists_put place suffix here
        refine ⟨e, there, ?_⟩
        split at same
        · rename_i mine
          subst mine
          obtain rfl : b = c := Option.some.inj (place.symm.trans here)
          exact .called rfl same put
        · rename_i other
          exact .aside (decide_eq_false (Ne.symm other)) same put
  | run actor =>
      simp only [World.perform]
      cases stepped : w.step actor with
      | none => exact still rfl (.refl _) (Nat.le_refl _)
      | some w' =>
          rw [Option.getD_some]
          cases actor with
          | inbound j =>
              simp only [World.step] at stepped
              split at stepped
              · cases stepped
              · rename_i b place
                obtain ⟨d, step, rfl⟩ := Option.map_eq_some_iff.mp stepped
                exact meets_handles rfl valid place (.inbound step) (handles_inboundStep step) here
          | outbound j =>
              simp only [World.step] at stepped
              split at stepped
              · cases stepped
              · rename_i b place
                obtain ⟨d, step, rfl⟩ := Option.map_eq_some_iff.mp stepped
                exact meets_handles rfl valid place (.outbound step)
                  (.nothing (idles_outboundStep step).talks) here
          | task t =>
              simp only [World.step] at stepped
              split at stepped
              · rename_i job place
                obtain ⟨⟨w'', task⟩, step, rfl⟩ := Option.map_eq_some_iff.mp stepped
                exact meets_drains rfl valid place
                  (drains_jobStep step fun k => reached.manned.isClaimed place) here
              · cases stepped

/-- What is true of a fresh connection and is kept in all that it receives is true of it in every
run, for whatever the application asks of it. -/
theorem Reachable.kept (reached : w.Reachable) (kind : Voice → Entry → Prop)
    {P : Connection → Prop} {happenings : List Happening}
    (fresh : ∀ {setup opening} now, Session.setup opening = .ok setup → P (.start setup now))
    (talk : ∀ c, P c → ∀ entry, entry.IsTalk c.voice → kind c.voice entry)
    (calls : ∀ call, .call i call ∈ happenings → ∀ c, P c → Leaves kind c.trail (call.act c).trail)
    (goesOn : ∀ {c d}, c.registry.Sound → c.registry.Guards → c.Later d → P c →
      Receives kind c d → P d)
    (before : ∀ c, w.conns[i]? = some c → P c) :
    ∀ c, (w.performAll happenings).conns[i]? = some c → P c := by
  induction happenings generalizing w with
  | nil => exact before
  | cons happening happenings ih =>
      refine ih (reached.perform happening)
        (fun call member => calls call (List.mem_cons_of_mem _ member)) fun e there => ?_
      cases old : w.conns[i]? with
      | none =>
          obtain ⟨setup, opening, given, rfl⟩ := reached.valid.born there old
          exact fresh w.now given
      | some c =>
          have still := before c old
          obtain ⟨d, place, meets⟩ := meets_perform reached happening old
          obtain ⟨d', place', later⟩ := (reached.valid.perform happening).2 i c old
          obtain rfl : d = e := Option.some.inj (place.symm.trans there)
          obtain rfl : d' = d := Option.some.inj (place'.symm.trans place)
          refine goesOn (reached.valid.conns i c old).coherent.sound (reached.guards old) later
            still (meets.receives (talk c still) fun call eq => ?_)
          exact calls call (eq ▸ List.mem_cons_self) c still

end World

end PacketWire
