import PacketWire.Proofs.Placing

/-!
# Invariants of a world

Beside the invariants of every connection a world keeps books: a unit of work, in a work queue or
in the hands of a task, stands for an event that its connection deferred, and a work queue counts
those of its connections that are not closed. `Valid` is all of this. It is kept when a connection
goes on (`Valid.put`) and when a transport does something (`Valid.tended`).
-/

namespace PacketWire

namespace World

open Connection

/-- A unit of work stands for an event that its connection deferred. -/
def Traces (w : World) (unit : WorkUnit) : Prop :=
  ∃ c, w.conns[unit.conn]? = some c ∧ .deferred unit.event ∈ c.journal

/-- A work queue holds this unit for an event that a connection of it deferred. -/
def Owes (w : World) (k : Nat) (unit : WorkUnit) : Prop :=
  ∃ c, w.conns[unit.conn]? = some c ∧ c.delivery = .deferred k ∧ .deferred unit.event ∈ c.journal

theorem Owes.traces {w : World} {k : Nat} {unit : WorkUnit} (h : w.Owes k unit) :
    w.Traces unit := by
  obtain ⟨c, here, -, member⟩ := h
  exact ⟨c, here, member⟩

/-- Whether a connection uses a work queue and is not closed. -/
def keepsOpen (k : Nat) (c : Connection) : Bool :=
  c.delivery = .deferred k ∧ c.state ≠ .closed

/-- How many connections have still to be closed before a work queue is done. -/
def openOn (k : Nat) (conns : List Connection) : Nat :=
  conns.countP (keepsOpen k)

structure Booked (w : World) : Prop where
  absent : ∀ i, w.conns.length ≤ i → closers i w.tasks = []
  queued : ∀ (k : Nat) (q : WorkQueue), w.queues[k]? = some q → ∀ unit ∈ q.units, w.Owes k unit
  taken : ∀ task ∈ w.tasks, ∀ unit ∈ task.units, w.Traces unit
  attached : ∀ (k : Nat) (q : WorkQueue), w.queues[k]? = some q → q.attached = openOn k w.conns

structure Valid (w : World) : Prop where
  conns : ∀ (i : Nat) (c : Connection), w.conns[i]? = some c → c.Valid (closers i w.tasks)
  booked : w.Booked

/-- Every connection is still there, further on in its life. -/
def Later (w w' : World) : Prop :=
  ∀ (i : Nat) (c : Connection), w.conns[i]? = some c → ∃ d, w'.conns[i]? = some d ∧ c.Later d

theorem valid_empty (queues : Nat) (wires : List (Nat × Nat)) :
    Valid { empty queues with wires } where
  conns := by
    intro i c here
    cases here
  booked := by
    have fresh {q : WorkQueue} (member : q ∈ List.replicate queues .empty) : q = .empty :=
      List.eq_of_mem_replicate member
    constructor
    · intro i _
      rfl
    · intro k q here unit mine
      rw [fresh (List.mem_of_getElem? here)] at mine
      cases mine
    · intro task member
      cases member
    · intro k q here
      rw [fresh (List.mem_of_getElem? here)]
      rfl

/-- Every connection is still there, with another transport at most. -/
theorem TendedAll.getElem? {before after : List Connection} (tended : TendedAll before after)
    {i : Nat} {c : Connection} (here : before[i]? = some c) :
    ∃ d, after[i]? = some d ∧ Tended c d := by
  have bound : i < after.length := by
    rw [tended.1]
    exact (List.getElem?_eq_some_iff.mp here).1
  have there := List.getElem?_eq_getElem bound
  obtain ⟨c', origin, tended'⟩ := tended.2 i _ there
  obtain rfl : c' = c := Option.some.inj (origin.symm.trans here)
  exact ⟨_, there, tended'⟩

/-- A transport that changes leaves the connection at the same point of its life. -/
theorem TendedAll.later {before after : List Connection} (tended : TendedAll before after)
    {i : Nat} {c : Connection} (here : before[i]? = some c) :
    ∃ d, after[i]? = some d ∧ c.Later d := by
  obtain ⟨d, there, tended'⟩ := tended.getElem? here
  exact ⟨d, there, .of_changes tended'.changes⟩

namespace Later

theorem refl (w : World) : Later w w :=
  fun _ c here => ⟨c, here, .refl c⟩

theorem trans {w w' w'' : World} (first : Later w w') (second : Later w' w'') : Later w w'' := by
  intro i c here
  obtain ⟨d, there, further⟩ := first i c here
  obtain ⟨e, place, furthest⟩ := second i d there
  exact ⟨e, place, further.trans furthest⟩

theorem of_tended {w w' : World} (tended : TendedAll w.conns w'.conns) : Later w w' :=
  fun _ _ here => tended.later here

theorem traces {w w' : World} (later : Later w w') {unit : WorkUnit} (h : w.Traces unit) :
    w'.Traces unit := by
  obtain ⟨c, here, member⟩ := h
  obtain ⟨d, there, later⟩ := later _ c here
  exact ⟨d, there, later.journal.subset member⟩

theorem owes {w w' : World} (later : Later w w') {k : Nat} {unit : WorkUnit} (h : w.Owes k unit) :
    w'.Owes k unit := by
  obtain ⟨c, here, uses, member⟩ := h
  obtain ⟨d, there, later⟩ := later _ c here
  exact ⟨d, there, later.settings.2.2.trans uses, later.journal.subset member⟩

end Later

theorem TendedAll.openOn_eq {before after : List Connection} (tended : TendedAll before after)
    (k : Nat) : openOn k after = openOn k before := by
  have same : after.map (keepsOpen k) = before.map (keepsOpen k) := by
    apply List.ext_getElem?
    intro j
    rw [List.getElem?_map, List.getElem?_map]
    cases there : after[j]? with
    | none =>
        have short := List.getElem?_eq_none_iff.mp there
        rw [tended.1] at short
        rw [List.getElem?_eq_none_iff.mpr short]
    | some d =>
        obtain ⟨c, origin, tended'⟩ := tended.2 j d there
        obtain ⟨source, sink, rfl⟩ := tended'.eq
        rw [origin]
        rfl
  have count (conns : List Connection) : openOn k conns = (conns.map (keepsOpen k)).countP id := by
    rw [List.countP_map]
    rfl
  rw [count, count, same]

/-- A task of a caller that begins to close holds no close yet. -/
theorem closers_append_close (j i count : Nat) (tasks : List Task) :
    closers j (tasks ++ List.replicate count (.close i)) = closers j tasks := by
  have none : Task.closing? j (.close i) = none := by
    simp [Task.close, Task.closing?]
  simp [closers, none]

section Put

variable {w w' : World} {i : Nat} {c after : Connection}

theorem Later.put (put : Put w i c after w') (here : w.conns[i]? = some c)
    (later : c.Later after) : Later w w' := by
  have set : Later w { w with conns := w.conns.set i after } := by
    intro j d there
    by_cases same : j = i
    · subst same
      obtain rfl : d = c := Option.some.inj (there.symm.trans here)
      exact ⟨after, List.getElem?_set_self (List.getElem?_eq_some_iff.mp here).1, later⟩
    · exact ⟨d, (List.getElem?_set_ne (Ne.symm same)).trans there, .refl d⟩
  intro j d there
  obtain ⟨d', there', first⟩ := set j d there
  obtain ⟨d'', there'', second⟩ := put.conns.later there'
  exact ⟨d'', there'', first.trans second⟩

/-- The count of a work queue goes down by one when a connection that uses it is closed. -/
theorem openOn_set (here : w.conns[i]? = some c) (later : c.Later after) (before : c.Orderly)
    (orderly : after.Orderly) (k : Nat) :
    openOn k (w.conns.set i after) = openOn k w.conns -
      if after.delivery = .deferred k then after.detachments - c.detachments else 0 := by
  obtain ⟨bound, get⟩ := List.getElem?_eq_some_iff.mp here
  obtain ⟨-, -, delivery⟩ := later.settings
  have ahead := later.ahead
  have counted : keepsOpen k c = true → 0 < openOn k w.conns := fun opened =>
    List.countP_pos_iff.mpr ⟨c, List.mem_of_getElem? here, opened⟩
  rw [openOn, List.countP_set bound, get, before.detached, orderly.detached]
  change openOn k w.conns - _ + _ = _
  by_cases uses : c.delivery = .deferred k
  · cases first : c.state <;> cases last : after.state <;>
      simp [first, last, Lifecycle.rank] at ahead <;>
      simp [keepsOpen, delivery, uses, first, last] at counted ⊢ <;> omega
  · simp [keepsOpen, delivery, uses]

theorem Booked.put (h : w.Booked) (put : Put w i c after w') (here : w.conns[i]? = some c)
    (later : c.Later after) (before : c.Orderly) (orderly : after.Orderly) : w'.Booked := by
  have goesOn : Later w w' := .put put here later
  obtain ⟨count, tasks⟩ := put.tasks
  obtain ⟨entries, journal, queues⟩ := put.queues
  have origin {k : Nat} {q' : WorkQueue} (there : w'.queues[k]? = some q') : ∃ q,
      w.queues[k]? = some q ∧
      q' = if after.delivery = .deferred k then entries.foldl (WorkQueue.settle i) q else q := by
    rw [queues, getElem?_queuesOf] at there
    obtain ⟨q, old, eq⟩ := Option.map_eq_some_iff.mp there
    exact ⟨q, old, eq.symm⟩
  constructor
  · intro j absent
    rw [tasks, closers_append_close]
    exact h.absent j (by rwa [put.conns.1, List.length_set] at absent)
  · intro k q' there unit mine
    obtain ⟨q, old, rfl⟩ := origin there
    split at mine
    · rename_i uses
      rcases WorkQueue.mem_units_settleAll mine with before | ⟨rfl, fresh⟩
      · exact goesOn.owes (h.queued k q old unit before)
      · obtain ⟨d, placed, further⟩ := put.conns.later
          (List.getElem?_set_self (List.getElem?_eq_some_iff.mp here).1)
        refine ⟨d, placed, further.settings.2.2.trans uses, further.journal.subset ?_⟩
        rw [journal]
        exact List.mem_append_left _ (List.mem_reverse.mpr fresh)
    · exact goesOn.owes (h.queued k q old unit mine)
  · intro task member unit mine
    rw [tasks] at member
    rcases List.mem_append.mp member with old | new
    · exact goesOn.traces (h.taken task old unit mine)
    · rw [List.eq_of_mem_replicate new] at mine
      cases mine
  · intro k q' there
    obtain ⟨q, old, rfl⟩ := origin there
    have gained : after.detachments - c.detachments =
        (entries.filterMap Entry.detached?).length := by
      simp only [detachments]
      rw [recount_eq_append _ journal, List.reverse_reverse, List.length_append]
      omega
    rw [put.conns.openOn_eq, openOn_set here later before orderly, gained]
    split
    · rw [WorkQueue.attached_settleAll, h.attached k q old]
    · rw [h.attached k q old, Nat.sub_zero]

/-- A connection goes on, with every close of it accounted for. -/
theorem Valid.put (put : Put w i c after w') (here : w.conns[i]? = some c)
    (later : c.Later after) (before : c.Orderly) (booked : w.Booked)
    (others : ∀ (j : Nat) (d : Connection), j ≠ i → w.conns[j]? = some d →
      d.Valid (closers j w.tasks))
    (valid : after.Valid (closers i w.tasks)) : w'.Valid := by
  obtain ⟨count, tasks⟩ := put.tasks
  refine ⟨?_, booked.put put here later before valid.orderly⟩
  intro j e there
  rw [tasks, closers_append_close]
  obtain ⟨d, origin, tended⟩ := put.conns.2 j e there
  by_cases same : j = i
  · subst same
    rw [List.getElem?_set_self (List.getElem?_eq_some_iff.mp here).1] at origin
    cases origin
    exact valid.tended tended
  · rw [List.getElem?_set_ne (Ne.symm same)] at origin
    exact (others j d same origin).tended tended

end Put

end World

end PacketWire
