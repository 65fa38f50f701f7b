import PacketWire.Proofs.Solitary

/-!
# What the books say of a run

The books of a group are kept from the beginning of every run in which tasks run on. For one
connection they say where its events are (`placed_of_run`), and that these stay in order where its
drainers work in turn (`ordered_of_run`); for all connections of a work queue together they say
the same of the order across connections (`pushOrder_of_run`).
-/

namespace PacketWire

open Relation

/-- The books of deferred delivery stay balanced. -/
theorem Books.Balanced.turned {α β : Type} {b b' : Books α β} {inTurn : Prop} {calls : α → List β}
    (h : b.Balanced calls) (turned : ReflTransGen (Turns inTurn calls) b b') :
    b'.Balanced calls := by
  induction turned with
  | refl => exact h
  | tail _ turns ih => exact ih.turns turns

/-- Where drainers work in turn, everything stays in line. -/
theorem Books.InLine.turned {α β : Type} {b b' : Books α β} {calls : α → List β}
    (h : b.InLine calls) (turned : ReflTransGen (Turns True calls) b b') : b'.InLine calls := by
  induction turned with
  | refl => exact h
  | tail _ turns ih => exact ih.turns turns

namespace Past

/-- Before anything happened. -/
def none : Past := ⟨[], [], []⟩

end Past

namespace Group

open World Connection Entry

variable {g : Group} {queues : Nat} {wires : List (Nat × Nat)} {happenings : List Happening}
  {w : World} {q : WorkQueue}

theorem queued_empty (queues : Nat) (wires : List (Nat × Nat)) :
    g.queued { empty queues with wires } = [] := by
  rw [queued, empty]
  cases there : (List.replicate queues WorkQueue.empty)[g.queue]? with
  | none => rfl
  | some q =>
      rw [List.eq_of_mem_replicate (List.mem_of_getElem? there)]
      rfl

/-- The books of a group in a run, from the beginning. -/
theorem turned_of_run (goesOn : ∀ t, .abort t ∉ happenings)
    (run : performAll happenings { empty queues with wires } = w) (fits : g.Fits w)
    (queue : w.queues[g.queue]? = some q) {inTurn : Prop}
    (fair : inTurn → g.TakesTurns { empty queues with wires } happenings) :
    g.Turned inTurn .empty
      (g.books (Past.none.after { empty queues with wires } happenings) w) := by
  subst run
  have turned := turned_run (.empty queues wires) goesOn fits queue fair .none
  have fresh : g.books .none { empty queues with wires } = .empty := by
    rw [books, queued_empty]
    rfl
  rwa [fresh] at turned

theorem balanced_of_run (goesOn : ∀ t, .abort t ∉ happenings)
    (run : performAll happenings { empty queues with wires } = w) (fits : g.Fits w)
    (queue : w.queues[g.queue]? = some q) :
    (g.books (Past.none.after { empty queues with wires } happenings) w).Balanced g.calls :=
  (Books.balanced_empty g.calls).turned (turned_of_run goesOn run fits queue False.elim)

theorem inLine_of_run (goesOn : ∀ t, .abort t ∉ happenings)
    (run : performAll happenings { empty queues with wires } = w) (fits : g.Fits w)
    (queue : w.queues[g.queue]? = some q)
    (fair : g.TakesTurns { empty queues with wires } happenings) :
    (g.books (Past.none.after { empty queues with wires } happenings) w).InLine g.calls :=
  (Books.inLine_empty g.calls).turned (turned_of_run goesOn run fits queue fun _ => fair)

/-- One connection by itself. -/
def single (k i : Nat) (notifyControl : Bool) : Group := ⟨k, (· == i), fun _ => notifyControl⟩

/-- All connections of a work queue. -/
def all (k : Nat) (w : World) : Group where
  queue := k
  member := fun i => w.conns[i]?.any (·.delivery = .deferred k)
  notify := fun i => w.conns[i]?.any (·.config.notifyControl)

theorem fits_single {k i : Nat} {c : Connection} (here : w.conns[i]? = some c)
    (uses : c.delivery = .deferred k) : (single k i c.config.notifyControl).Fits w := by
  intro j d member there
  obtain rfl : j = i := by simpa [single] using member
  obtain rfl : d = c := Option.some.inj (there.symm.trans here)
  exact ⟨uses, rfl⟩

theorem fits_all (k : Nat) (w : World) : (all k w).Fits w := by
  intro i c member here
  change w.conns[i]?.any (·.delivery = .deferred k) = true at member
  rw [here] at member
  have uses : c.delivery = .deferred k := by simpa using member
  refine ⟨uses, ?_⟩
  change c.config.notifyControl = w.conns[i]?.any (·.config.notifyControl)
  rw [here]
  rfl

end Group

/-! ### What the books of one connection say -/

/-- The calls that are due to a connection after the close that a task waits for. -/
def Task.dueTo (i : Nat) (notifyControl : Bool) (task : Task) : List HookCall :=
  match task.suspension? with
  | some s => if s.conn = i then s.packet.controlCalls notifyControl else []
  | none => []

/-- The events of one connection among units. -/
def WorkUnit.eventsOf (i : Nat) (units : List WorkUnit) : List Event :=
  (units.filter (·.conn = i)).map (·.event)

namespace World

/-- The events of a connection that tasks have still to hand on. -/
def inHand (i : Nat) (w : World) : List Event :=
  w.tasks.flatMap fun task => WorkUnit.eventsOf i task.units

/-- The calls that are still due to a connection. -/
def stillDue (i : Nat) (notifyControl : Bool) (w : World) : List HookCall :=
  w.tasks.flatMap (Task.dueTo i notifyControl)

/-- What there is of the connections of a work queue. -/
def onQueue {α : Type} (k : Nat) (w : World) (items : List (Nat × α)) : List (Nat × α) :=
  items.filter fun item => w.conns[item.1]?.any (·.delivery = .deferred k)

end World

namespace Group

open World Connection Entry

variable {queues : Nat} {wires : List (Nat × Nat)} {happenings : List Happening}
  {w : World} {q : WorkQueue} {k i : Nat} {c : Connection} {notifyControl : Bool}

theorem map_snd_items (units : List WorkUnit) :
    ((single k i notifyControl).items units).map Prod.snd = WorkUnit.eventsOf i units := by
  rw [items, own, List.filter_map, List.map_map]
  rfl

theorem map_snd_owed (task : Task) :
    (Books.owed ((single k i notifyControl).hand task)).map Prod.snd =
      task.dueTo i notifyControl := by
  rw [Books.owed, hand, Task.dueTo]
  cases task.suspension? with
  | none => rfl
  | some s =>
      rw [Option.bind_some, due]
      by_cases about : s.conn = i
      · simp [single, about, Function.comp_def]
      · simp [single, about]

theorem map_snd_calls (items : List (Nat × Event)) :
    (items.flatMap (single k i notifyControl).calls).map Prod.snd =
      (items.map Prod.snd).flatMap (Event.calls notifyControl) := by
  rw [List.map_flatMap, List.flatMap_map]
  refine congrArg (items.flatMap ·) (funext fun item => ?_)
  rw [calls, List.map_map]
  exact List.map_id _

/-- For one connection, the chronicle is what it recounts. -/
theorem map_snd_own {α : Type} {kind : Entry → Option α}
    (run : performAll happenings { empty queues with wires } = w)
    (here : w.conns[i]? = some c) :
    ((single k i notifyControl).own (chronicle kind { empty queues with wires } happenings)).map
      Prod.snd = c.recount kind := by
  subst run
  exact (recount_eq_filter_chronicle here).symm

/-- The books of one connection, without its number everywhere. -/
structure Told (b : Books (Nat × Event) (Nat × HookCall)) (c : Connection) (todo : List Event)
    (owed : List HookCall) (queued : List Event) : Prop where
  deferred : b.deferred.map Prod.snd = c.deferredEvents
  dispatched : b.dispatched.map Prod.snd = c.dispatchedEvents
  shown : b.shown.map Prod.snd = c.shownCalls
  todo : (b.hands.flatMap Hand.todo).map Prod.snd = todo
  owed : (b.hands.flatMap Books.owed).map Prod.snd = owed
  queued : b.queued.map Prod.snd = queued

theorem told_single (run : performAll happenings { empty queues with wires } = w)
    (queue : w.queues[k]? = some q) (here : w.conns[i]? = some c) :
    Told ((single k i notifyControl).books
        (Past.none.after { empty queues with wires } happenings) w)
      c (w.inHand i) (w.stillDue i notifyControl) (WorkUnit.eventsOf i q.units) where
  deferred := map_snd_own run here
  dispatched := map_snd_own run here
  shown := map_snd_own run here
  todo := by
    rw [books, List.flatMap_map, List.map_flatMap, inHand]
    exact congrArg (w.tasks.flatMap ·) (funext fun task => map_snd_items task.units)
  owed := by
    rw [books, List.flatMap_map, List.map_flatMap, stillDue]
    exact congrArg (w.tasks.flatMap ·) (funext map_snd_owed)
  queued := by
    rw [books, queued_eq queue]
    exact map_snd_items q.units

/-- Where the events of a connection are, in any run. -/
theorem placed_of_run (goesOn : ∀ t, .abort t ∉ happenings)
    (run : performAll happenings { empty queues with wires } = w)
    (queue : w.queues[k]? = some q) (here : w.conns[i]? = some c)
    (uses : c.delivery = .deferred k) :
    c.deferredEvents.Perm
        (c.dispatchedEvents ++ w.inHand i ++ WorkUnit.eventsOf i q.units) ∧
      (c.shownCalls ++ w.stillDue i c.config.notifyControl).Perm
        (c.dispatchedEvents.flatMap (Event.calls c.config.notifyControl)) := by
  obtain ⟨placed, shown⟩ := balanced_of_run goesOn run (fits_single here uses) queue
  obtain ⟨deferred, dispatched, calls, todo, owed, queued⟩ := told_single run queue here
  have placed := placed.map Prod.snd
  have shown := shown.map Prod.snd
  rw [List.map_append, List.map_append, deferred, dispatched, todo, queued] at placed
  rw [List.map_append, map_snd_calls, calls, dispatched, owed] at shown
  exact ⟨placed, shown⟩

/-- Where nobody takes events of a connection out while somebody else has some in hand, they stay
in line, and so do the calls of the listener. -/
theorem ordered_of_run (goesOn : ∀ t, .abort t ∉ happenings)
    (run : performAll happenings { empty queues with wires } = w)
    (queue : w.queues[k]? = some q) (here : w.conns[i]? = some c)
    (uses : c.delivery = .deferred k)
    (fair : (single k i c.config.notifyControl).TakesTurns { empty queues with wires } happenings) :
    c.deferredEvents = c.dispatchedEvents ++ w.inHand i ++ WorkUnit.eventsOf i q.units ∧
      c.shownCalls ++ w.stillDue i c.config.notifyControl =
        c.dispatchedEvents.flatMap (Event.calls c.config.notifyControl) := by
  obtain ⟨-, inOrder, shown⟩ := inLine_of_run goesOn run (fits_single here uses) queue fair
  obtain ⟨deferred, dispatched, calls, todo, owed, queued⟩ := told_single run queue here
  have inOrder := congrArg (List.map Prod.snd) inOrder
  have shown := congrArg (List.map Prod.snd) shown
  rw [List.map_append, List.map_append, deferred, dispatched, todo, queued] at inOrder
  rw [List.map_append, map_snd_calls, calls, dispatched, owed] at shown
  exact ⟨inOrder, shown⟩

/-- Where nobody collects for a single connection, what was put on a work queue is in line across
all of its connections, and so are the calls of their listeners. -/
theorem pushOrder_of_run (goesOn : ∀ t, .abort t ∉ happenings)
    (run : performAll happenings { empty queues with wires } = w)
    (queue : w.queues[k]? = some q) (others : ∀ i, .collect i ∉ happenings) :
    w.onQueue k (chronicle deferred? { empty queues with wires } happenings) =
        w.onQueue k (chronicle dispatched? { empty queues with wires } happenings) ++
          q.units.map (fun unit => (unit.conn, unit.event)) ∧
      w.onQueue k (chronicle shown? { empty queues with wires } happenings) <+:
        (w.onQueue k (chronicle dispatched? { empty queues with wires } happenings)).flatMap
          (all k w).calls := by
  have start : Reachable { empty queues with wires } := .empty queues wires
  have free : CollectsNothing { empty queues with wires } := fun _ member => by cases member
  have reached : w.Reachable := run ▸ start.performAll happenings
  have collectsNothing : w.CollectsNothing := run ▸ free.performAll start.valid goesOn others
  obtain ⟨-, inOrder, shown⟩ := inLine_of_run goesOn run (fits_all k w) queue
    (free.takesTurns start goesOn others (run ▸ fits_all k w))
  refine ⟨?_, ⟨_, shown⟩⟩
  have inHand : (((all k w).books (Past.none.after { empty queues with wires } happenings)
      w).hands.flatMap Hand.todo) = [] := by
    rw [books, List.flatMap_map, List.flatMap_eq_nil_iff]
    intro task member
    rw [hand, units_of_not_collects (collectsNothing task member)]
    rfl
  have queued : ((all k w).books (Past.none.after { empty queues with wires } happenings)
      w).queued = q.units.map fun unit => (unit.conn, unit.event) := by
    rw [books, queued_eq queue]
    refine List.filter_eq_self.mpr fun item member => ?_
    obtain ⟨unit, there, rfl⟩ := List.mem_map.mp member
    obtain ⟨c, here, uses, -⟩ := reached.valid.booked.queued k q queue unit there
    change w.conns[unit.conn]?.any (·.delivery = .deferred k) = true
    rw [here]
    exact decide_eq_true uses
  rw [inHand, queued, List.append_nil] at inOrder
  exact inOrder

end Group

end PacketWire
