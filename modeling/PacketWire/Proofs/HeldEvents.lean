import PacketWire.Proofs.Accounts
import PacketWire.Proofs.EventHandling

/-!
# What is held for a connection

Events that are not handed on yet are in a work queue or in the hands of a task. Each has a weight,
which is two for a request and one for everything else, so that an answer always weighs less than
what it answers. `held` is the weight of all that is held for a connection, wherever it is.
-/

namespace PacketWire

namespace Event

/-- A request outweighs its answer. -/
def weight : Event → Nat
  | .packet (.handshake .request _) => 2
  | .packet (.keepAlive false) => 2
  | _ => 1

theorem one_le_weight (event : Event) : 1 ≤ event.weight := by
  unfold weight
  split <;> omega

theorem weight_of_answer {event : Event} {version : Int32} {packet : Packet}
    (answer : event.answer? version = some packet) : event.weight = 2 := by
  unfold answer? at answer
  split at answer <;> cases answer <;> rfl

end Event

/-- The weight of events together. -/
def burden (events : List Event) : Nat :=
  (events.map Event.weight).sum

@[simp] theorem burden_nil : burden [] = 0 := rfl

@[simp] theorem burden_cons (event : Event) (events : List Event) :
    burden (event :: events) = event.weight + burden events := rfl

@[simp] theorem burden_append (events more : List Event) :
    burden (events ++ more) = burden events + burden more := by
  simp [burden]

namespace WorkUnit

@[simp] theorem eventsOf_nil (i : Nat) : eventsOf i [] = [] := rfl

theorem eventsOf_cons (i : Nat) (unit : WorkUnit) (units : List WorkUnit) :
    eventsOf i (unit :: units) =
      if unit.conn = i then unit.event :: eventsOf i units else eventsOf i units := by
  rw [eventsOf, List.filter_cons]
  by_cases mine : unit.conn = i <;> simp [mine, eventsOf]

@[simp] theorem eventsOf_append (i : Nat) (units more : List WorkUnit) :
    eventsOf i (units ++ more) = eventsOf i units ++ eventsOf i more := by
  simp [eventsOf]

theorem eventsOf_map (i j : Nat) (events : List Event) :
    eventsOf i (events.map (⟨j, ·⟩)) = if i = j then events else [] := by
  induction events with
  | nil => simp
  | cons event events ih =>
      rw [List.map_cons, eventsOf_cons, ih]
      by_cases same : i = j <;> simp [same, eq_comm]

/-- The first unit weighs for the connection that it belongs to. -/
theorem burden_eventsOf_cons (i : Nat) (unit : WorkUnit) (units : List WorkUnit) :
    burden (eventsOf i (unit :: units)) =
      (if i = unit.conn then unit.event.weight else 0) + burden (eventsOf i units) := by
  rw [eventsOf_cons]
  by_cases mine : i = unit.conn
  · rw [if_pos mine.symm, if_pos mine, burden_cons]
  · rw [if_neg (Ne.symm mine), if_neg mine, Nat.zero_add]

/-- Units that are sorted weigh what they weighed together. -/
theorem burden_filter (i : Nat) (p : WorkUnit → Bool) (units : List WorkUnit) :
    burden (eventsOf i (units.filter p)) + burden (eventsOf i (units.filter (!p ·))) =
      burden (eventsOf i units) := by
  rw [← burden_append, ← eventsOf_append]
  have sorted := ((List.filter_append_perm p units).filter (·.conn = i)).map (·.event)
  exact (sorted.map Event.weight).sum_nat

end WorkUnit

namespace World

open Connection Entry

/-- The weight of what a task holds for a connection. -/
def heldBy (i : Nat) (task : Task) : Nat :=
  burden (WorkUnit.eventsOf i task.units)

/-- The weight of what a work queue holds for a connection. -/
def heldIn (i : Nat) (q : WorkQueue) : Nat :=
  burden (WorkUnit.eventsOf i q.units)

/-- The weight of all that is held for a connection. -/
def held (i : Nat) (w : World) : Nat :=
  (w.queues.map (heldIn i)).sum + (w.tasks.map (heldBy i)).sum

variable {w w' : World} {i j k t : Nat} {c d : Connection}

theorem heldBy_eq_zero {task : Task} (free : task.units = []) (i : Nat) : heldBy i task = 0 := by
  rw [heldBy, free]
  rfl

/-- A work queue is changed. -/
theorem sum_modify {q : WorkQueue} {queues : List WorkQueue} (here : queues[k]? = some q)
    (f : WorkQueue → WorkQueue) (i : Nat) :
    ((queues.modify k f).map (heldIn i)).sum + heldIn i q =
      (queues.map (heldIn i)).sum + heldIn i (f q) := by
  rw [List.modify_eq_set_getElem?, here]
  exact sum_map_set here (f q) (heldIn i)

theorem held_modifyQueue {q : WorkQueue} (here : w.queues[k]? = some q)
    (f : WorkQueue → WorkQueue) (i : Nat) :
    held i (w.modifyQueue k f) + heldIn i q = held i w + heldIn i (f q) := by
  have queues := sum_modify here f i
  simp only [held, modifyQueue]
  omega

theorem held_modifyQueue_of_eq {f : WorkQueue → WorkQueue}
    (same : ∀ q, w.queues[k]? = some q → (f q).units = q.units) (i : Nat) :
    held i (w.modifyQueue k f) = held i w := by
  cases here : w.queues[k]? with
  | none =>
      rw [modifyQueue, List.modify_eq_self (List.getElem?_eq_none_iff.mp here)]
  | some q =>
      have changed := held_modifyQueue here f i
      rw [heldIn, heldIn, same q here] at changed
      omega

/-- A task goes on with something else in hand. -/
theorem held_set {task : Task} (here : w.tasks[t]? = some task) (after : Task) (i : Nat) :
    held i { w with tasks := w.tasks.set t after } + heldBy i task =
      held i w + heldBy i after := by
  have tasks := sum_map_set here after (heldBy i)
  simp only [held]
  omega

theorem held_spawn {task : Task} (free : task.units = []) (i : Nat) (w : World) :
    held i (w.spawn task) = held i w := by
  simp [held, spawn, heldBy_eq_zero free]

/-- What a task had in hand is lost with it. -/
theorem held_abort_le (t i : Nat) (w : World) : held i (w.abort t) ≤ held i w := by
  rw [abort]
  split
  · rename_i job here
    have given : held i { w with tasks := w.tasks.set t (.ended .aborted) } ≤ held i w := by
      have turned := held_set here (.ended .aborted) i
      have nothing : heldBy i (.ended .aborted) = 0 := heldBy_eq_zero rfl i
      omega
    have released (k : Nat) := held_modifyQueue_of_eq (k := k) (f := .release)
      (w := { w with tasks := w.tasks.set t (.ended .aborted) }) (fun _ _ => rfl) i
    cases job with
    | errands | collect => exact given
    | process k resident progress =>
        cases progress with
        | claiming | awaitingPeer => exact given
        | looking | waiting | suspended => exact Nat.le_trans (Nat.le_of_eq (released k)) given
  · exact Nat.le_refl _

theorem held_start (setup : Setup) (i : Nat) (w : World) : held i (w.start setup) = held i w := by
  rw [start, modifyQueueOf]
  split
  · rfl
  · exact held_modifyQueue_of_eq (f := .attach) (w := { w with conns := _ }) (fun _ _ => rfl) i

/-- What a connection defers is held for it, if it has a work queue, and for nobody else. -/
theorem held_put (suffix : c.journal <:+ d.journal) {events : List Event}
    (defers : d.deferredEvents = c.deferredEvents ++ events) (i j : Nat) :
    held i (w.put j c d) ≤ held i w + if i = j then burden events else 0 := by
  have put := put_spec (w := w) (i := j) suffix
  obtain ⟨count, tasks⟩ := put.tasks
  obtain ⟨entries, journal, queues⟩ := put.queues
  have deferred : entries.filterMap deferred? = events := by
    rw [deferredEvents, recount_eq_append deferred? journal, List.reverse_reverse] at defers
    exact List.append_cancel_left defers
  have spawned : ((w.put j c d).tasks.map (heldBy i)).sum = (w.tasks.map (heldBy i)).sum := by
    have free : heldBy i (.close j) = 0 := heldBy_eq_zero rfl i
    simp [tasks, free]
  have settled (q : WorkQueue) : heldIn i (entries.foldl (WorkQueue.settle j) q) =
      heldIn i q + if i = j then burden events else 0 := by
    rw [heldIn, WorkQueue.units_settleAll, deferred, WorkUnit.eventsOf_append,
      WorkUnit.eventsOf_map, burden_append, heldIn]
    split <;> rfl
  have queued : ((w.put j c d).queues.map (heldIn i)).sum ≤
      (w.queues.map (heldIn i)).sum + if i = j then burden events else 0 := by
    rw [queues, queuesOf]
    split
    · exact Nat.le_add_right ..
    · rename_i k uses
      cases here : w.queues[k]? with
      | none =>
          rw [List.modify_eq_self (List.getElem?_eq_none_iff.mp here)]
          exact Nat.le_add_right ..
      | some q =>
          have changed := sum_modify here (entries.foldl (WorkQueue.settle j)) i
          rw [settled] at changed
          omega
  rw [held, held, spawned]
  omega

/-- Where nothing is deferred, nothing more is held. -/
theorem held_put_le (suffix : c.journal <:+ d.journal)
    (same : d.deferredEvents = c.deferredEvents) (i j : Nat) :
    held i (w.put j c d) ≤ held i w := by
  have put := held_put (w := w) suffix (same.trans (List.append_nil _).symm) i j
  simpa using put

theorem getElem?_tasks_put (suffix : c.journal <:+ d.journal) {task : Task}
    (here : w.tasks[t]? = some task) : (w.put j c d).tasks[t]? = some task := by
  obtain ⟨count, tasks⟩ := (put_spec (w := w) (i := j) suffix).tasks
  rw [tasks, List.getElem?_append_left (List.getElem?_eq_some_iff.mp here).1, here]

end World

end PacketWire
