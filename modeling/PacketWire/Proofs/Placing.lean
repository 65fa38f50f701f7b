import PacketWire.Proofs.Run
import PacketWire.Proofs.Valid

/-!
# What a stretch of one connection does to the world

`World.put` is the only way in which what a connection did becomes visible to others. `Put` says
what it may change elsewhere: other connections get input, tasks that close the connection are
started, and its work queue gets its events and learns that it is closed.
-/

namespace PacketWire

namespace Task

/-- The wait of a close of this connection that the task carries out. -/
def closing? (i : Nat) : Task → Option CloseWait
  | running (.errands (.close conn :: _) wait) => if conn = i then wait else none
  | running (.collect _ (.suspended s _ _)) => if s.conn = i then some s.wait else none
  | running (.process _ _ (.suspended s)) => if s.conn = i then some s.wait else none
  | _ => none

/-- The units that a task took out of a work queue and has still to hand on. -/
def units : Task → List WorkUnit
  | running (.collect _ (.dispatching todo _)) => todo
  | running (.collect _ (.suspended _ todo _)) => todo
  | _ => []

end Task

namespace WorkQueue

/-- What an entry in the journal of connection `i` means to its work queue. -/
def settle (i : Nat) (q : WorkQueue) : Entry → WorkQueue
  | .deferred event => q.push ⟨i, event⟩
  | .detached => q.detach
  | _ => q

theorem mem_units_settleAll {i : Nat} {entries : List Entry} {q : WorkQueue} {unit : WorkUnit}
    (h : unit ∈ (entries.foldl (settle i) q).units) :
    unit ∈ q.units ∨ unit.conn = i ∧ .deferred unit.event ∈ entries := by
  induction entries generalizing q with
  | nil => exact .inl h
  | cons entry entries ih =>
      rcases ih h with old | ⟨conn, later⟩
      · cases entry with
        | deferred event =>
            rcases List.mem_append.mp old with old | new
            · exact .inl old
            · obtain rfl : unit = ⟨i, event⟩ := List.mem_singleton.mp new
              exact .inr ⟨rfl, List.mem_cons_self⟩
        | _ => exact .inl old
      · exact .inr ⟨conn, List.mem_cons_of_mem _ later⟩

theorem attached_settleAll (i : Nat) (entries : List Entry) (q : WorkQueue) :
    (entries.foldl (settle i) q).attached =
      q.attached - (entries.filterMap Entry.detached?).length := by
  induction entries generalizing q with
  | nil => rfl
  | cons entry entries ih =>
      rw [List.foldl_cons, ih]
      cases entry with
      | detached =>
          simp only [settle, detach, Entry.detached?, List.filterMap_cons, List.length_cons]
          omega
      | _ => simp [settle, push, Entry.detached?, List.filterMap_cons]

end WorkQueue

namespace World

open Connection

/-- The waits of the closes of a connection that tasks carry out. -/
def closers (i : Nat) (tasks : List Task) : List CloseWait :=
  tasks.filterMap (Task.closing? i)

/-- Connections whose transports change. -/
def TendedAll (before after : List Connection) : Prop :=
  after.length = before.length ∧
    ∀ (j : Nat) (d : Connection), after[j]? = some d → ∃ c, before[j]? = some c ∧ Tended c d

/-- The work queues after a change of the one that a connection uses. -/
def queuesOf (c : Connection) (f : WorkQueue → WorkQueue) (queues : List WorkQueue) :
    List WorkQueue :=
  match c.delivery with
  | .inline => queues
  | .deferred k => queues.modify k f

theorem queues_modifyQueueOf (c : Connection) (f : WorkQueue → WorkQueue) (w : World) :
    w.modifyQueueOf c f = { w with queues := queuesOf c f w.queues } := by
  cases delivery : c.delivery <;> simp only [modifyQueueOf, queuesOf, delivery, modifyQueue]

theorem getElem?_queuesOf (c : Connection) (f : WorkQueue → WorkQueue) (queues : List WorkQueue)
    (k : Nat) : (queuesOf c f queues)[k]? =
      queues[k]?.map fun q => if c.delivery = .deferred k then f q else q := by
  rw [queuesOf]
  split
  · rename_i inline
    simp [inline]
  · rename_i j deferred
    rw [List.getElem?_modify, deferred]
    simp only [Delivery.deferred.injEq]
    rfl

theorem queuesOf_id (c : Connection) (queues : List WorkQueue) :
    queuesOf c (fun q => q) queues = queues := by
  rw [queuesOf]
  split
  · rfl
  · exact List.modify_id _ _

theorem queuesOf_queuesOf (c : Connection) (f g : WorkQueue → WorkQueue)
    (queues : List WorkQueue) :
    queuesOf c g (queuesOf c f queues) = queuesOf c (fun q => g (f q)) queues := by
  simp only [queuesOf]
  split
  · rfl
  · exact List.modify_modify_eq _ _ _ _

theorem settleEntry_eq (i : Nat) (c : Connection) (w : World) (entry : Entry) :
    ∃ count trace, settleEntry i c w entry = { w with
      queues := queuesOf c (WorkQueue.settle i · entry) w.queues
      tasks := w.tasks ++ List.replicate count (.close i)
      trace } := by
  cases entry with
  | deferred event => exact ⟨0, w.trace, by simp [settleEntry, queues_modifyQueueOf]; rfl⟩
  | detached => exact ⟨0, w.trace, by simp [settleEntry, queues_modifyQueueOf]; rfl⟩
  | closeRequested =>
      exact ⟨1, w.trace, by simp [settleEntry, spawn, WorkQueue.settle, queuesOf_id]⟩
  | hook call state results =>
      refine ⟨0, (settleEntry i c w (.hook call state results)).trace, ?_⟩
      simp only [WorkQueue.settle, queuesOf_id, List.replicate_zero, List.append_nil, settleEntry]
      split <;> rfl
  | _ => exact ⟨0, w.trace, by simp [settleEntry, WorkQueue.settle, queuesOf_id]⟩

theorem settleAll_eq (i : Nat) (c : Connection) (entries : List Entry) (w : World) :
    ∃ count trace, entries.foldl (settleEntry i c) w = { w with
      queues := queuesOf c (entries.foldl (WorkQueue.settle i)) w.queues
      tasks := w.tasks ++ List.replicate count (.close i)
      trace } := by
  induction entries generalizing w with
  | nil => exact ⟨0, w.trace, by simp [queuesOf_id]⟩
  | cons entry entries ih =>
      obtain ⟨first, trace, eq⟩ := settleEntry_eq i c w entry
      obtain ⟨rest, trace', eq'⟩ := ih (settleEntry i c w entry)
      refine ⟨first + rest, trace', ?_⟩
      rw [List.foldl_cons, eq', eq]
      simp [queuesOf_queuesOf]

namespace TendedAll

variable {before between after : List Connection}

theorem refl (conns : List Connection) : TendedAll conns conns :=
  ⟨rfl, fun _ d here => ⟨d, here, .refl d⟩⟩

theorem trans (first : TendedAll before between) (second : TendedAll between after) :
    TendedAll before after := by
  refine ⟨second.1.trans first.1, ?_⟩
  intro j e here
  obtain ⟨d, there, tended⟩ := second.2 j e here
  obtain ⟨c, origin, tended'⟩ := first.2 j d there
  exact ⟨c, origin, tended'.trans tended⟩

theorem modify {f : Connection → Connection} (tended : ∀ c, Tended c (f c)) (i : Nat)
    (conns : List Connection) : TendedAll conns (conns.modify i f) := by
  refine ⟨List.length_modify .., ?_⟩
  intro j d here
  rw [List.getElem?_modify] at here
  obtain ⟨c, origin, rfl⟩ := Option.map_eq_some_iff.mp here
  refine ⟨c, origin, ?_⟩
  split
  · exact tended c
  · exact .refl c

end TendedAll

/-- `w'` is `w` after connection `i` went from `before` to `after`. -/
structure Put (w : World) (i : Nat) (before after : Connection) (w' : World) : Prop where
  now : w'.now = w.now
  wires : w'.wires = w.wires
  conns : TendedAll (w.conns.set i after) w'.conns
  /-- Without a wire that leads to it a connection gets no input. -/
  dry : ∀ j, (∀ wire ∈ w.wires, wire.2 ≠ j) → w'.conns[j]? = (w.conns.set i after)[j]?
  tasks : ∃ count, w'.tasks = w.tasks ++ List.replicate count (.close i)
  queues : ∃ entries : List Entry, after.journal = entries.reverse ++ before.journal ∧
    w'.queues = queuesOf after (entries.foldl (WorkQueue.settle i)) w.queues

theorem gained_eq {before after : List Entry} (suffix : before <:+ after) :
    after = (gained before after).reverse ++ before := by
  obtain ⟨entries, rfl⟩ := suffix
  simp [gained]

/-- What flows along a wire is input at its other end. -/
theorem carry_eq (before after : Connection) (target : Nat) (w : World) :
    ∃ conns, w.carry before after target = { w with conns } ∧ TendedAll w.conns conns ∧
      ∀ j, target ≠ j → conns[j]? = w.conns[j]? := by
  unfold carry
  dsimp only
  split
  · refine ⟨_, rfl, (TendedAll.modify (.feedAll _) target _).trans (.modify (.finish _) target _),
      fun j other => ?_⟩
    exact (List.getElem?_modify_ne _ _ other).trans (List.getElem?_modify_ne _ _ other)
  · exact ⟨_, rfl, .modify (.feedAll _) target _, fun j other => List.getElem?_modify_ne _ _ other⟩

/-- What was flushed goes along every wire that begins at the connection. -/
theorem carryAll_eq (i : Nat) (before after : Connection) (wires : List (Nat × Nat)) (w : World) :
    ∃ conns, wires.foldl (carryAlong i before after) w = { w with conns } ∧
      TendedAll w.conns conns ∧
      ∀ j, (∀ wire ∈ wires, wire.2 ≠ j) → conns[j]? = w.conns[j]? := by
  induction wires generalizing w with
  | nil => exact ⟨w.conns, rfl, .refl _, fun _ _ => rfl⟩
  | cons wire wires ih =>
      rw [List.foldl_cons, carryAlong]
      split
      · obtain ⟨conns, eq, tended, dry⟩ := carry_eq before after wire.2 w
        obtain ⟨conns', eq', tended', dry'⟩ := ih (w.carry before after wire.2)
        rw [eq] at tended' dry'
        rw [eq', eq]
        refine ⟨conns', rfl, tended.trans tended', fun j free => ?_⟩
        exact (dry' j fun wire member => free wire (List.mem_cons_of_mem _ member)).trans
          (dry j (free _ List.mem_cons_self))
      · obtain ⟨conns, eq, tended, dry⟩ := ih w
        exact ⟨conns, eq, tended, fun j free =>
          dry j fun wire member => free wire (List.mem_cons_of_mem _ member)⟩

/-- All that a connection can change in a world. -/
theorem put_eq (i : Nat) (before after : Connection) (w : World) :
    ∃ conns count trace, w.put i before after = { w with
        conns
        queues := queuesOf after
          ((gained before.journal after.journal).foldl (WorkQueue.settle i)) w.queues
        tasks := w.tasks ++ List.replicate count (.close i)
        trace } ∧
      TendedAll (w.conns.set i after) conns ∧
      ∀ j, (∀ wire ∈ w.wires, wire.2 ≠ j) → conns[j]? = (w.conns.set i after)[j]? := by
  obtain ⟨count, trace, settled⟩ := settleAll_eq i after (gained before.journal after.journal)
    { w with conns := w.conns.set i after }
  unfold put
  dsimp only
  rw [settled]
  obtain ⟨conns, eq, tended, dry⟩ := carryAll_eq i before after _ _
  exact ⟨conns, count, trace, eq, tended, dry⟩

theorem put_spec {w : World} {i : Nat} {before after : Connection}
    (suffix : before.journal <:+ after.journal) : Put w i before after (w.put i before after) := by
  obtain ⟨conns, count, trace, eq, tended, dry⟩ := put_eq i before after w
  rw [eq]
  exact ⟨rfl, rfl, tended, dry, ⟨count, rfl⟩, _, gained_eq suffix, rfl⟩

end World

end PacketWire
