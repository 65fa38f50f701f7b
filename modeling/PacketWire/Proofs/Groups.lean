import PacketWire.Proofs.Arrivals
import PacketWire.Proofs.Books
import PacketWire.Proofs.Chronicle
import PacketWire.Proofs.Drainers

/-!
# The books of a group

A `Group` is some of the connections that share a work queue: one of them, or all. `books` are
those of a group in a world, with the chronicle of how the world came about. Where a connection
goes on, they change by what was handed on, then by what it deferred and by the tasks it starts.
-/

namespace PacketWire

open Relation

/-- Connections that share a work queue and are looked at together. -/
structure Group where
  queue : Nat
  member : Nat → Bool
  /-- Whether control packets are shown to the application of a connection. -/
  notify : Nat → Bool

/-- What was deferred, handed on and shown so far, each with the number of its connection. -/
structure Past where
  deferred : List (Nat × Event)
  dispatched : List (Nat × Event)
  shown : List (Nat × HookCall)

namespace Group

open World Connection Entry

variable {g : Group} {w w' : World} {i : Nat} {c d : Connection} {past : Past}

/-- The members use the work queue and have these settings. -/
def Fits (g : Group) (w : World) : Prop :=
  ∀ (i : Nat) (c : Connection), g.member i = true → w.conns[i]? = some c →
    c.delivery = .deferred g.queue ∧ c.config.notifyControl = g.notify i

/-- The calls that an event comes to. -/
def calls (g : Group) (item : Nat × Event) : List (Nat × HookCall) :=
  (item.2.calls (g.notify item.1)).map (item.1, ·)

/-- What there is of members. -/
def own {α : Type} (g : Group) (items : List (Nat × α)) : List (Nat × α) :=
  items.filter (g.member ·.1)

def items (g : Group) (units : List WorkUnit) : List (Nat × Event) :=
  g.own (units.map fun unit => (unit.conn, unit.event))

/-- The calls that are due after a close of a member. -/
def due (g : Group) (s : Suspension) : Option (List (Nat × HookCall)) :=
  if g.member s.conn then some ((s.packet.controlCalls (g.notify s.conn)).map (s.conn, ·)) else none

/-- What a task has in hand of members. -/
def hand (g : Group) (task : Task) : Hand (Nat × Event) (Nat × HookCall) where
  todo := g.items task.units
  due := task.suspension?.bind g.due

/-- What the work queue holds of members. -/
def queued (g : Group) (w : World) : List (Nat × Event) :=
  g.items ((w.queues[g.queue]?.map (·.units)).getD [])

def books (g : Group) (past : Past) (w : World) : Books (Nat × Event) (Nat × HookCall) where
  deferred := g.own past.deferred
  dispatched := g.own past.dispatched
  queued := g.queued w
  shown := g.own past.shown
  hands := w.tasks.map g.hand

/-! ### Lists of members -/

@[simp] theorem own_append {α : Type} (items more : List (Nat × α)) :
    g.own (items ++ more) = g.own items ++ g.own more :=
  List.filter_append ..

@[simp] theorem own_nil {α : Type} : g.own ([] : List (Nat × α)) = [] := rfl

theorem own_map {α : Type} (i : Nat) (items : List α) :
    g.own (items.map (i, ·)) = if g.member i then items.map (i, ·) else [] := by
  rw [own, List.filter_map]
  split
  · rename_i member
    simp [Function.comp_def, member]
  · rename_i other
    simp [Function.comp_def, other]

@[simp] theorem items_append (units more : List WorkUnit) :
    g.items (units ++ more) = g.items units ++ g.items more := by
  rw [items, List.map_append, own_append, items, items]

theorem items_cons (unit : WorkUnit) (units : List WorkUnit) : g.items (unit :: units) =
    if g.member unit.conn then (unit.conn, unit.event) :: g.items units else g.items units := by
  rw [items, List.map_cons, own, List.filter_cons]
  rfl

/-- Units that are not of members count for nothing. -/
theorem items_filter {p : WorkUnit → Bool} {units : List WorkUnit}
    (kept : ∀ unit ∈ units, g.member unit.conn = true → p unit = true) :
    g.items (units.filter p) = g.items units := by
  induction units with
  | nil => rfl
  | cons unit units ih =>
      have ih := ih fun other member => kept other (List.mem_cons_of_mem _ member)
      rw [List.filter_cons, items_cons]
      split
      · rw [items_cons, ih]
      · rename_i dropped
        rw [ih, if_neg fun member => dropped (kept unit List.mem_cons_self member)]

theorem items_filter_eq_nil {p : WorkUnit → Bool} {units : List WorkUnit}
    (dropped : ∀ unit ∈ units, g.member unit.conn = true → p unit = false) :
    g.items (units.filter p) = [] := by
  rw [items, own, List.filter_eq_nil_iff]
  intro item there belongs
  obtain ⟨unit, member, rfl⟩ := List.mem_map.mp there
  obtain ⟨member, kept⟩ := List.mem_filter.mp member
  rw [dropped unit member belongs] at kept
  cases kept

theorem items_perm {units more : List WorkUnit} (perm : units.Perm more) :
    (g.items units).Perm (g.items more) :=
  (perm.map _).filter _

theorem hand_of_isEmptyHanded {task : Task} (free : task.IsEmptyHanded) : g.hand task = .empty := by
  rw [hand, free.units, free.suspension]
  rfl

/-- A task that goes on has something else in hand then. -/
theorem map_hand_set (tasks : List Task) (t : Nat) (task : Task) :
    (tasks.set t task).map g.hand = (tasks.map g.hand).set t (g.hand task) :=
  List.map_set ..

theorem queued_eq {q : WorkQueue} (queue : w.queues[g.queue]? = some q) :
    g.queued w = g.items q.units := by
  rw [queued, queue]
  rfl

theorem queued_modifyQueue {k : Nat} {f : WorkQueue → WorkQueue}
    (same : ∀ q, w.queues[k]? = some q → g.items (f q).units = g.items q.units) :
    g.queued (w.modifyQueue k f) = g.queued w := by
  rw [queued, queued, modifyQueue, List.getElem?_modify]
  cases here : w.queues[g.queue]? with
  | none => rfl
  | some q =>
      simp only [Option.map_eq_map, Option.map_some, Option.getD_some]
      split
      · rename_i eq
        subst eq
        exact same q here
      · rfl

theorem queued_start (setup : Setup) (w : World) : g.queued (w.start setup) = g.queued w := by
  rw [queued, queued, World.start, queues_modifyQueueOf, getElem?_queuesOf]
  cases w.queues[g.queue]? with
  | none => rfl
  | some q =>
      simp only [Option.map_some, Option.getD_some]
      split <;> rfl

theorem queued_modifyQueue_self {q : WorkQueue} (queue : w.queues[g.queue]? = some q)
    (f : WorkQueue → WorkQueue) : g.queued (w.modifyQueue g.queue f) = g.items (f q).units := by
  refine queued_eq ?_
  rw [modifyQueue, List.getElem?_modify_eq, queue]
  rfl

end Group

namespace Past

open World Connection Entry

variable {w w' : World} {past : Past}

/-- What is added in one happening. -/
def grow (past : Past) (w w' : World) : Past where
  deferred := past.deferred ++ news deferred? w w'
  dispatched := past.dispatched ++ news dispatched? w w'
  shown := past.shown ++ news shown? w w'

/-- What is added in a run. -/
def after (past : Past) (w : World) (happenings : List Happening) : Past where
  deferred := past.deferred ++ chronicle deferred? w happenings
  dispatched := past.dispatched ++ chronicle dispatched? w happenings
  shown := past.shown ++ chronicle shown? w happenings

theorem after_nil (past : Past) (w : World) : past.after w [] = past := by
  simp only [after, chronicle, List.append_nil]

theorem after_cons (past : Past) (w : World) (happening : Happening)
    (happenings : List Happening) : past.after w (happening :: happenings) =
      (past.grow w (w.perform happening)).after (w.perform happening) happenings := by
  simp only [after, grow, chronicle, List.append_assoc]

theorem grow_eq (same : ∀ i, w'.journal i = w.journal i) : past.grow w w' = past := by
  simp only [grow, news_eq_nil same, List.append_nil]

end Past

namespace Group

open World Connection Entry

variable {g : Group} {w w' : World} {i : Nat} {c d : Connection} {past : Past} {inTurn : Prop}

/-- The turns of the books of a group. -/
abbrev Turned (g : Group) (inTurn : Prop) :
    Books (Nat × Event) (Nat × HookCall) → Books (Nat × Event) (Nat × HookCall) → Prop :=
  ReflTransGen (Books.Turns inTurn g.calls)

/-! ### One connection goes on -/

theorem journal_tended {conns : List Connection} (tended : TendedAll w.conns conns) (j : Nat) :
    World.journal j { w with conns } = w.journal j := by
  cases here : w.conns[j]? with
  | some b =>
      obtain ⟨e, place, after⟩ := tended.getElem? here
      obtain ⟨source, sink, rfl⟩ := after.eq
      rw [journal_of_getElem? here]
      exact (journal_of_getElem? (w := { w with conns }) place).trans rfl
  | none =>
      have beyond := List.getElem?_eq_none_iff.mp here
      rw [journal_of_le beyond, journal_of_le]
      exact tended.1.symm ▸ beyond

/-- A connection that is started has nothing in its journal. -/
theorem journal_start (setup : Setup) (w : World) (j : Nat) :
    (w.start setup).journal j = w.journal j := by
  rw [World.journal, conns_start]
  rcases Nat.lt_or_ge j w.conns.length with old | new
  · rw [List.getElem?_append_left old, World.journal]
  · rw [List.getElem?_append_right new, journal_of_le new]
    cases there : [start setup w.now][j - w.conns.length]? with
    | none => rfl
    | some c =>
        rw [List.mem_singleton.mp (List.mem_of_getElem? there)]
        rfl

theorem journal_put (put : Put w i c d w') (here : w.conns[i]? = some c) :
    w'.journal i = d.journal ∧ ∀ j, j ≠ i → w'.journal j = w.journal j := by
  have after (j : Nat) : w'.journal j = World.journal j { w with conns := w.conns.set i d } :=
    journal_tended (w := { w with conns := w.conns.set i d }) put.conns j
  have bound := (List.getElem?_eq_some_iff.mp here).1
  refine ⟨(after i).trans (journal_of_getElem? (List.getElem?_set_self bound)), ?_⟩
  intro j other
  rw [after, World.journal, World.journal, List.getElem?_set_ne (Ne.symm other)]

theorem news_put {α : Type} {kind : Entry → Option α} {entries : List Entry}
    (put : Put w i c d w') (here : w.conns[i]? = some c)
    (journal : d.journal = entries.reverse ++ c.journal) :
    news kind w w' = (entries.filterMap kind).map (i, ·) := by
  obtain ⟨own, others⟩ := journal_put put here
  rw [news_of_alone others, own, journal_of_getElem? here, journal, gained_append]

/-- A connection goes on, after what the books say of its drainer. Its work queue gets what it
deferred, and the closes that it asks for are new tasks. -/
theorem turned_put (fits : g.Fits w) (uses : d.delivery = c.delivery) (put : Put w i c d w')
    (here : w.conns[i]? = some c) {q : WorkQueue} (queue : w.queues[g.queue]? = some q)
    {events : List Event} {calls : List HookCall} (hands : Hands c d events calls)
    {b : Books (Nat × Event) (Nat × HookCall)}
    (turned : g.Turned inTurn b { g.books past w with
      dispatched := g.own past.dispatched ++ g.own (events.map (i, ·))
      shown := g.own past.shown ++ g.own (calls.map (i, ·)) }) :
    g.Turned inTurn b (g.books (past.grow w w') w') := by
  obtain ⟨count, tasks⟩ := put.tasks
  obtain ⟨entries, journal, queues⟩ := put.queues
  have newly {α : Type} (kind : Entry → Option α) :
      news kind w w' = (entries.filterMap kind).map (i, ·) := news_put put here journal
  have events_eq : entries.filterMap dispatched? = events := by
    have counted := hands.dispatched
    rw [dispatchedEvents, recount_eq_append dispatched? journal, List.reverse_reverse] at counted
    exact List.append_cancel_left counted
  have calls_eq : entries.filterMap shown? = calls := by
    have counted := hands.shown
    rw [shownCalls, recount_eq_append shown? journal, List.reverse_reverse] at counted
    exact List.append_cancel_left counted
  have queued : g.queued w' =
      g.queued w ++ g.own ((entries.filterMap deferred?).map (i, ·)) := by
    have there : w'.queues[g.queue]? = some
        (if d.delivery = .deferred g.queue then entries.foldl (WorkQueue.settle i) q else q) := by
      rw [queues, getElem?_queuesOf, queue]
      rfl
    rw [queued_eq there, queued_eq queue]
    split
    · rw [WorkQueue.units_settleAll, items_append, items, items, List.map_map]
      rfl
    · rename_i elsewhere
      have other : g.member i = false := by
        cases member : g.member i with
        | false => rfl
        | true => exact absurd (uses.trans (fits i c member here).1) elsewhere
      rw [own_map, other]
      simp
  have kept : g.books (past.grow w w') w' =
      { deferred := g.own past.deferred ++ g.own ((entries.filterMap deferred?).map (i, ·))
        dispatched := g.own past.dispatched ++ g.own (events.map (i, ·))
        queued := g.queued w ++ g.own ((entries.filterMap deferred?).map (i, ·))
        shown := g.own past.shown ++ g.own (calls.map (i, ·))
        hands := w.tasks.map g.hand ++ List.replicate count .empty } := by
    simp only [books, Past.grow, newly, events_eq, calls_eq, own_append, queued, tasks,
      List.map_append, List.map_replicate]
    rfl
  rw [kept]
  exact (turned.tail (.defers _)).tail (.spawns count)

end Group

end PacketWire
