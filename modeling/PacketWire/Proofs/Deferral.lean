import PacketWire.Proofs.Accounts
import PacketWire.Proofs.Departed
import PacketWire.Proofs.Scripted

/-!
# What deferred delivery promises

The work queue with its claimants, those who collect for one connection, and the connections that
put something on it or close: in every run in which tasks run on, nothing that was deferred gets
lost or is handed on twice, at most one claimant is at work, and one that is through leaves a work
queue on which nothing will be put.
-/

namespace PacketWire

open World Connection Entry

variable {queues : Nat} {wires : List (Nat × Nat)} {happenings : List Happening} {w w' : World}
  {k t : Nat} {q : WorkQueue} {task : Task} {resident : Bool}

namespace World

/-- Whoever comes second is told so, and nothing else comes of it. -/
theorem Reachable.perform_claiming (reached : w.Reachable) {u : Nat}
    (place : w.tasks[t]? = some (.running (.process k resident .claiming)))
    (first : w.tasks[u]? = some task) (claims : task.claims k = true) :
    w.perform (.run (.task t)) =
      { w with tasks := w.tasks.set t (.ended (.processed (.error .alreadyClaimed))) } := by
  have claimed := reached.manned.isClaimed first claims
  obtain ⟨q, queue, held⟩ := (Option.any_eq_true ..).mp claimed
  have step : w.step (.task t) =
      some { w with tasks := w.tasks.set t (.ended (.processed (.error .alreadyClaimed))) } := by
    simp only [World.step, place, jobStep, queue, processStep, if_pos held, Option.map_some]
  rw [World.perform, step, Option.getD_some]

end World

/-- Deferred delivery, at every moment of every run in which tasks run on, for any number of
connections on a work queue. What was put on it for a connection is where it should be, once: handed
on, in the hands of one task, or still queued; and each call that is due for something handed on was
made once, or will be after a close that some task waits for. What is taken out for one connection
is all it has, in order, and the order of the rest is kept. Where nobody does so, everything is
handed on and shown in the order in which it was put there, across connections. There is one
claimant while the work queue is claimed and none otherwise, and a second comes away with an error.
A claimant that is through leaves nothing queued and no connection open, and from then on nothing
is put there until another connection is started on it. The count of open connections is right. -/
theorem deferral_of_run (goesOn : ∀ t, .abort t ∉ happenings)
    (run : performAll happenings { empty queues with wires } = w)
    (queue : w.queues[k]? = some q) :
    (∀ (i : Nat) (c : Connection), w.conns[i]? = some c → c.delivery = .deferred k →
      c.deferredEvents.Perm
        (c.dispatchedEvents ++ w.inHand i ++ WorkUnit.eventsOf i q.units) ∧
      (c.shownCalls ++ w.stillDue i c.config.notifyControl).Perm
        (c.dispatchedEvents.flatMap (Event.calls c.config.notifyControl))) ∧
    (∀ i, (q.takeFor i).1 = q.units.filter (·.conn = i) ∧
      (q.takeFor i).2.units = q.units.filter (·.conn ≠ i)) ∧
    ((∀ i, .collect i ∉ happenings) →
      w.onQueue k (chronicle deferred? { empty queues with wires } happenings) =
        w.onQueue k (chronicle dispatched? { empty queues with wires } happenings) ++
          q.units.map (fun unit => (unit.conn, unit.event)) ∧
      w.onQueue k (chronicle shown? { empty queues with wires } happenings) <+:
        (w.onQueue k (chronicle dispatched? { empty queues with wires } happenings)).flatMap
          (Group.all k w).calls) ∧
    w.tasks.countP (Task.claims k) = q.claimed.toNat ∧
    (∀ (t u : Nat) (resident : Bool) (task : Task),
      w.tasks[t]? = some (.running (.process k resident .claiming)) →
      w.tasks[u]? = some task → task.claims k = true →
      w.perform (.run (.task t)) =
        { w with tasks := w.tasks.set t (.ended (.processed (.error .alreadyClaimed))) }) ∧
    (∀ (t : Nat) (resident : Bool) (progress : Processing) (w' : World) (task : Task),
      w.tasks[t]? = some (.running (.process k resident progress)) →
      w.step (.task t) = some w' → w'.tasks[t]? = some task → task.isThrough k = true →
      w'.IsDone k ∧ ∀ more, (∀ t, .abort t ∉ more) → StartsNone k w' (w'.performAll more) →
        (w'.performAll more).IsDone k ∧
        ∀ (i : Nat) (d : Connection), (w'.performAll more).conns[i]? = some d →
          d.delivery = .deferred k →
          ∃ c, w'.conns[i]? = some c ∧ d.deferredEvents = c.deferredEvents) ∧
    q.attached = openOn k w.conns := by
  have reached : w.Reachable := run ▸ (Reachable.empty queues wires).performAll happenings
  refine ⟨?_, fun i => units_takeFor i q, Group.pushOrder_of_run goesOn run queue, ?_, ?_, ?_, ?_⟩
  · exact fun i c here uses => Group.placed_of_run goesOn run queue here uses
  · have single := reached.manned.single k
    rwa [World.isClaimed, queue, Option.any_some] at single
  · exact fun t u resident task place first claims => reached.perform_claiming place first claims
  · intro t resident progress w' task place step there through
    have done := isDone_of_isThrough reached.valid queue place step there through
    exact ⟨done, fun more onward none => done.run (reached.step step).valid onward none⟩
  · exact reached.valid.booked.attached k q queue

/-- A connection with deferred delivery received a close message and two unknown packets. Somebody
took the first two and waits, with one of them in hand, for the connection to close; a claimant has
handed on the third, and another has come. -/
def twoDrainers : List Happening :=
  [.start { Session.Opening.plain with delivery := .deferred 0, config.notifyControl := true },
    .transit 0 (.feed [0, 0, 0, 4, 255, 254, 0, 0, 0, 0, 0, 2, 0, 101, 0, 0, 0, 2, 0, 102])] ++
  List.replicate 4 (.run (.inbound 0)) ++ [.collect 0, .run (.task 0), .run (.task 0),
    .run (.inbound 0), .process 0 false, .run (.task 1), .run (.task 1), .process 0 false]

/-- A connection with deferred delivery broke off after an unknown packet, and a claimant has just
handed that on. -/
def lastUnit : List Happening :=
  [.start { Session.Opening.plain with delivery := .deferred 0 },
    .transit 0 (.feed [0, 0, 0, 2, 0, 101, 0, 0, 0, 0])] ++ List.replicate 4 (.run (.inbound 0)) ++
  [.pass closeTimeout, .run (.inbound 0), .process 0 false, .run (.task 0), .run (.task 0)]

theorem deferral_twoDrainers :
    (∃ w c, performAll twoDrainers (World.empty 1) = w ∧ w.conns[0]? = some c ∧
      c.deferredEvents = [.packet (.close ""), .unknown 101, .unknown 102] ∧
      c.deferredEvents.Perm ([.packet (.close ""), .unknown 102] ++ [.unknown 101] ++ []) ∧
      (c.shownCalls ++ [.packet (.close "")]).Perm [.packet (.close ""), .unknown 102] ∧
      w.tasks.countP (Task.claims 0) = 1 ∧
      w.perform (.run (.task 2)) =
        { w with tasks := w.tasks.set 2 (.ended (.processed (.error .alreadyClaimed))) }) ∧
    ∃ w, (performAll lastUnit (World.empty 1)).step (.task 0) = some w ∧ w.IsDone 0 ∧
      (w.performAll [.pass 5]).IsDone 0 := by
  constructor
  · obtain ⟨w, run⟩ : ∃ w, performAll twoDrainers { World.empty 1 with wires := [] } = w := ⟨_, rfl⟩
    have goesOn : ∀ t, .abort t ∉ twoDrainers := by simp [twoDrainers]
    obtain ⟨q, c, queue, here, claimed, empty, uses, notify, deferred, dispatched, inHand, due⟩ :
        ∃ q c, w.queues[0]? = some q ∧ w.conns[0]? = some c ∧ q.claimed = true ∧ q.units = [] ∧
          c.delivery = .deferred 0 ∧ c.config.notifyControl = true ∧
          c.deferredEvents = [.packet (.close ""), .unknown 101, .unknown 102] ∧
          c.dispatchedEvents = [.packet (.close ""), .unknown 102] ∧
          w.inHand 0 = [.unknown 101] ∧ w.stillDue 0 true = [.packet (.close "")] := by
      subst run
      exact ⟨_, _, rfl, rfl, rfl, rfl, rfl, rfl, rfl, rfl, rfl, rfl⟩
    obtain ⟨placed, -, -, single, second, -, -⟩ := deferral_of_run goesOn run queue
    obtain ⟨placed, shown⟩ := placed 0 c here uses
    rw [dispatched, inHand, empty] at placed
    rw [dispatched, notify, due] at shown
    rw [claimed] at single
    refine ⟨w, c, run, here, deferred, placed, shown, single, ?_⟩
    obtain ⟨claiming, task, first, claims⟩ :
        w.tasks[2]? = some (.running (.process 0 false .claiming)) ∧
          ∃ task, w.tasks[1]? = some task ∧ task.claims 0 = true := by
      subst run
      exact ⟨rfl, _, rfl, rfl⟩
    exact second 2 1 false task claiming first claims
  · obtain ⟨w, run⟩ : ∃ w, performAll lastUnit { World.empty 1 with wires := [] } = w := ⟨_, rfl⟩
    have goesOn : ∀ t, .abort t ∉ lastUnit := by simp [lastUnit]
    obtain ⟨q, queue, looking, w', step, there⟩ : ∃ q, w.queues[0]? = some q ∧
        w.tasks[0]? = some (.running (.process 0 false .looking)) ∧
        ∃ w', w.step (.task 0) = some w' ∧
          w'.tasks[0]? = some (.ended (.processed (.ok ()))) := by
      subst run
      exact ⟨_, rfl, rfl, _, rfl, rfl⟩
    obtain ⟨-, -, -, -, -, through, -⟩ := deferral_of_run goesOn run queue
    obtain ⟨done, stays⟩ := through 0 false .looking w' _ looking step there rfl
    refine ⟨w', run ▸ step, done, (stays [.pass 5] (by simp) ?_).1⟩
    exact fun i c here _ => (List.getElem?_eq_some_iff.mp here).1

end PacketWire
