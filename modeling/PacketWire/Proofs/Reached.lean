import PacketWire.Proofs.OneOfMany
import PacketWire.Proofs.Passing

/-!
# The invariants hold in every run

Whatever happens to a valid world leaves a valid one, in which every connection is further on in
its life. So all that `World.Valid` says is true of every reachable world.
-/

namespace PacketWire

namespace Connection

variable {now : Nat} {c d : Connection} {closers : List CloseWait}

theorem Alone.changes (alone : Alone now c d) (valid : c.Valid closers) : Changes c d := by
  cases alone with
  | inbound step => exact (valid.moves_inboundStep step).changes
  | outbound step => exact (onward_outboundStep step).changes
  | call call =>
      have unheld : c.Valid (closers ++ (none : Option CloseWait).toList ++ []) := by
        simpa using valid
      exact (unheld.moves_of_acts (World.acts_call c call)).changes

theorem Valid.alone (valid : c.Valid closers) (alone : Alone now c d) : d.Valid closers := by
  cases alone with
  | inbound step => exact valid.inboundStep step
  | outbound step => exact valid.outboundStep step
  | call call =>
      have unheld : c.Valid (closers ++ (none : Option CloseWait).toList ++ []) := by
        simpa using valid
      simpa using unheld.acts (World.acts_call c call)

end Connection

namespace World

open Connection

variable {w w' : World}

/-- What one task holds of a connection among what all of them hold. -/
theorem closers_set {tasks : List Task} {k : Nat} {old : Task} (here : tasks[k]? = some old)
    (i : Nat) : ∃ pre post, closers i tasks = pre ++ (old.closing? i).toList ++ post ∧
      ∀ new, closers i (tasks.set k new) = pre ++ (Task.closing? i new).toList ++ post := by
  simp only [closers, List.filterMap_eq_flatMap_toList]
  exact flatMap_set here _

theorem Valid.of_eq (h : w.Valid) (conns : w'.conns = w.conns) (queues : w'.queues = w.queues)
    (tasks : w'.tasks = w.tasks) : w'.Valid := by
  obtain ⟨valid, absent, queued, taken, attached⟩ := h
  constructor
  · rwa [conns, tasks]
  · constructor
    · rwa [conns, tasks]
    · simpa only [queues, Owes, conns] using queued
    · simpa only [tasks, Traces, conns] using taken
    · rwa [queues, conns]

theorem Booked.modifyQueue (h : w.Booked) {k : Nat} {f : WorkQueue → WorkQueue}
    (tame : Tame w k f) : (w.modifyQueue k f).Booked where
  absent := h.absent
  queued := by
    intro j q' there unit mine
    change (w.queues.modify k f)[j]? = some q' at there
    rw [List.getElem?_modify] at there
    obtain ⟨q, here, rfl⟩ := Option.map_eq_some_iff.mp there
    have queued := h.queued j q here unit
    split at mine
    · rename_i same
      subst same
      exact queued ((tame q here).1 mine)
    · exact queued mine
  taken := h.taken
  attached := by
    intro j q' there
    change (w.queues.modify k f)[j]? = some q' at there
    rw [List.getElem?_modify] at there
    obtain ⟨q, here, rfl⟩ := Option.map_eq_some_iff.mp there
    have attached := h.attached j q here
    split
    · rename_i same
      subst same
      exact (tame q here).2.trans attached
    · exact attached

/-- A task that goes on. What it holds of connections that are not there stays nothing. -/
theorem Booked.setTask (h : w.Booked) {k : Nat} {old new : Task} (here : w.tasks[k]? = some old)
    (absent : ∀ i, w.conns.length ≤ i → new.closing? i = none)
    (units : ∀ unit ∈ new.units, w.Traces unit) :
    Booked { w with tasks := w.tasks.set k new } where
  absent := by
    intro i gone
    obtain ⟨pre, post, before, after⟩ := closers_set here i
    have nothing := h.absent i gone
    rw [before] at nothing
    simp only [List.append_eq_nil_iff] at nothing
    obtain ⟨⟨rfl, -⟩, rfl⟩ := nothing
    rw [after, absent i gone]
    rfl
  queued := h.queued
  taken := by
    intro task member
    rcases List.mem_or_eq_of_mem_set member with before | rfl
    · exact h.taken task before
    · exact units
  attached := h.attached

theorem Put.setTask {i k : Nat} {before after : Connection} (put : Put w i before after w')
    (bound : k < w.tasks.length) (task : Task) :
    Put { w with tasks := w.tasks.set k task } i before after
      { w' with tasks := w'.tasks.set k task } where
  now := put.now
  wires := put.wires
  conns := put.conns
  dry := put.dry
  tasks := by
    obtain ⟨count, tasks⟩ := put.tasks
    exact ⟨count, by rw [tasks]; exact List.set_append_left _ _ bound⟩
  queues := put.queues

/-- A task that gives up what it held. -/
theorem Valid.setTask (h : w.Valid) {k : Nat} {old new : Task} (here : w.tasks[k]? = some old)
    (free : ∀ i, new.closing? i = none) (units : ∀ unit ∈ new.units, w.Traces unit) :
    Valid { w with tasks := w.tasks.set k new } where
  conns := by
    intro i c there
    obtain ⟨pre, post, before, after⟩ := closers_set here i
    have valid := h.conns i c there
    rw [before] at valid
    rw [after, free i, Option.toList_none, List.append_nil]
    exact valid.abandon
  booked := h.booked.setTask here (fun i _ => free i) units

theorem Valid.modifyQueue (h : w.Valid) {k : Nat} {f : WorkQueue → WorkQueue}
    (tame : Tame w k f) : (w.modifyQueue k f).Valid :=
  ⟨h.conns, h.booked.modifyQueue tame⟩

/-- A stretch of a task keeps the invariants. -/
theorem Valid.stretch (h : w.Valid) {k : Nat} {job : Job} {task : Task}
    (here : w.tasks[k]? = some (.running job)) (stretch : Stretch w job w' task) :
    Valid { w' with tasks := w'.tasks.set k task } ∧ Later w w' := by
  cases stretch with
  | quiet tame free units =>
      exact ⟨(h.modifyQueue tame).setTask here free units, .refl w⟩
  | @acts q f i c d _ tame there others acts units =>
      obtain ⟨pre, post, before, after⟩ := closers_set here i
      have valid := h.conns i c there
      rw [before] at valid
      have later := Connection.Later.of_changes (valid.moves_of_acts acts).changes
      have put := put_spec (w := w.modifyQueue q f) (i := i) later.journal
      refine ⟨?_, Later.put (w := w.modifyQueue q f) put there later⟩
      refine Valid.put (put.setTask (List.getElem?_eq_some_iff.mp here).1 task) there later
        valid.orderly ?_ ?_ ?_
      · refine (h.booked.modifyQueue tame).setTask here ?_ units
        intro j gone
        refine (others j ?_).2
        rintro rfl
        exact absurd (List.getElem?_eq_some_iff.mp there).1 (Nat.not_lt.mpr gone)
      · intro j e other origin
        obtain ⟨pre', post', before', after'⟩ := closers_set here j
        have kept := h.conns j e origin
        obtain ⟨none, none'⟩ := others j other
        rw [before', none] at kept
        change e.Valid (closers j (w.tasks.set k task))
        rwa [after', none']
      · change d.Valid (closers i (w.tasks.set k task))
        rw [after]
        exact valid.acts acts

/-- A connection goes on without a task. -/
theorem Valid.putConn (h : w.Valid) {i : Nat} {c d : Connection} (here : w.conns[i]? = some c)
    (later : c.Later d) (valid : d.Valid (closers i w.tasks)) :
    (w.put i c d).Valid ∧ Later w (w.put i c d) := by
  have put := put_spec (w := w) (i := i) later.journal
  exact ⟨.put put here later (h.conns i c here).orderly h.booked
    (fun j e _ origin => h.conns j e origin) valid, .put put here later⟩

theorem Valid.tended (h : w.Valid) {conns : List Connection} (tended : TendedAll w.conns conns) :
    Valid { w with conns } ∧ Later w { w with conns } := by
  have later : Later w { w with conns } := .of_tended tended
  refine ⟨⟨?_, ?_⟩, later⟩
  · intro i d there
    obtain ⟨c, origin, tended'⟩ := tended.2 i d there
    exact (h.conns i c origin).tended tended'
  · constructor
    · intro i gone
      exact h.booked.absent i (tended.1 ▸ gone)
    · exact fun k q there unit mine => later.owes (h.booked.queued k q there unit mine)
    · exact fun task member unit mine => later.traces (h.booked.taken task member unit mine)
    · intro k q there
      rw [h.booked.attached k q there]
      exact (tended.openOn_eq k).symm

theorem Valid.spawn (h : w.Valid) {task : Task} (free : ∀ i, task.closing? i = none)
    (units : task.units = []) : (w.spawn task).Valid := by
  have same (i : Nat) : closers i (w.tasks ++ [task]) = closers i w.tasks := by
    simp [closers, free i]
  refine ⟨?_, ?_⟩
  · intro i c here
    change c.Valid (closers i (w.tasks ++ [task]))
    rw [same]
    exact h.conns i c here
  · constructor
    · intro i gone
      exact (same i).trans (h.booked.absent i gone)
    · exact h.booked.queued
    · intro task' member unit mine
      rcases List.mem_append.mp member with old | new
      · exact h.booked.taken task' old unit mine
      · rw [List.mem_singleton.mp new, units] at mine
        cases mine
    · exact h.booked.attached

theorem Valid.start (h : w.Valid) {setup : Connection.Setup} (sound : setup.registry.Sound) :
    (w.start setup).Valid ∧ Later w (w.start setup) := by
  obtain ⟨c, fresh⟩ : ∃ c, c = Connection.start setup w.now := ⟨_, rfl⟩
  have later : Later w (w.start setup) := by
    intro i d here
    refine ⟨d, ?_, .refl d⟩
    rw [World.start, queues_modifyQueueOf]
    exact (List.getElem?_append_left (List.getElem?_eq_some_iff.mp here).1).trans here
  refine ⟨?_, later⟩
  rw [World.start, queues_modifyQueueOf, ← fresh] at later ⊢
  have origin {k : Nat} {q' : WorkQueue} (there : (queuesOf c .attach w.queues)[k]? = some q') :
      ∃ q, w.queues[k]? = some q ∧ q' = if c.delivery = .deferred k then q.attach else q := by
    rw [getElem?_queuesOf] at there
    obtain ⟨q, old, eq⟩ := Option.map_eq_some_iff.mp there
    exact ⟨q, old, eq.symm⟩
  refine ⟨?_, ?_⟩
  · intro i d there
    rcases Nat.lt_or_ge i w.conns.length with old | new
    · exact h.conns i d ((List.getElem?_append_left old).symm.trans there)
    · change d.Valid (closers i w.tasks)
      rw [h.booked.absent i new]
      have only := (List.getElem?_append_right new).symm.trans there
      obtain rfl : d = c := List.mem_singleton.mp (List.mem_of_getElem? only)
      rw [fresh]
      exact .start sound w.now
  · constructor
    · intro i gone
      simp only [List.length_append] at gone
      exact h.booked.absent i (by omega)
    · intro k q' there unit mine
      obtain ⟨q, old, rfl⟩ := origin there
      refine later.owes (h.booked.queued k q old unit ?_)
      split at mine <;> exact mine
    · exact fun task member unit mine => later.traces (h.booked.taken task member unit mine)
    · intro k q' there
      obtain ⟨q, old, rfl⟩ := origin there
      have active : c.state = .active := by rw [fresh]; rfl
      change _ = openOn k (w.conns ++ [c])
      rw [openOn, List.countP_append, ← openOn, ← h.booked.attached k q old]
      by_cases uses : c.delivery = .deferred k <;>
        simp [uses, keepsOpen, active, WorkQueue.attach]

/-- What happens leaves a valid world, if no task is given up. -/
theorem Valid.passes (h : w.Valid) {ran : Option Nat} (passes : Passes w ran w') :
    w'.Valid ∧ Later w w' := by
  cases passes with
  | idle => exact ⟨h.of_eq rfl rfl rfl, .refl w⟩
  | announces k => exact ⟨h.modifyQueue fun q _ => ⟨List.Subset.refl _, rfl⟩, .refl w⟩
  | @alone i c d here alone =>
      have valid := h.conns i c here
      exact h.putConn here (.of_changes (alone.changes valid)) (valid.alone alone)
  | @works k job w'' task here step =>
      exact h.stretch here
        (stretch_jobStep h.booked (h.booked.taken _ (List.mem_of_getElem? here)) step)
  | tended tended => exact h.tended tended
  | starts given => exact h.start (Session.sound_setup given)
  | begins fresh =>
      cases fresh with
      | errands todo => exact ⟨h.spawn (fun i => closing?_errands_none i todo) rfl, .refl w⟩
      | collect | process => exact ⟨h.spawn (fun _ => rfl) rfl, .refl w⟩

theorem Valid.abort (h : w.Valid) (k : Nat) :
    (w.abort k).Valid ∧ Later w (w.abort k) := by
  rw [World.abort]
  split
  · rename_i job here
    have given : Valid { w with tasks := w.tasks.set k (.ended .aborted) } :=
      h.setTask here (fun _ => rfl) fun _ member => by cases member
    have released (queue : Nat) :
        Valid (World.modifyQueue queue .release
          { w with tasks := w.tasks.set k (.ended .aborted) }) :=
      given.modifyQueue fun q _ => ⟨List.Subset.refl _, rfl⟩
    have still : Later w { w with tasks := w.tasks.set k (.ended .aborted) } := .refl w
    cases job with
    | process queue _ progress =>
        cases progress with
        | claiming | awaitingPeer => exact ⟨given, still⟩
        | looking | waiting | suspended => exact ⟨released queue, still⟩
    | errands | collect => exact ⟨given, still⟩
  · exact ⟨h, .refl w⟩

theorem Valid.perform (h : w.Valid) (happening : Happening) :
    (w.perform happening).Valid ∧ Later w (w.perform happening) := by
  cases happening with
  | abort k => exact h.abort k
  | _ => exact h.passes (passes_perform fun k => by simp)

theorem Valid.performAll (h : w.Valid) (happenings : List Happening) :
    (w.performAll happenings).Valid ∧ Later w (w.performAll happenings) := by
  induction happenings generalizing w with
  | nil => exact ⟨h, .refl w⟩
  | cons happening happenings ih =>
      obtain ⟨valid, later⟩ := h.perform happening
      obtain ⟨valid', later'⟩ := ih valid
      exact ⟨valid', later.trans later'⟩

theorem Reachable.valid (h : w.Reachable) : w.Valid := by
  induction h with
  | empty queues wires => exact valid_empty queues wires
  | perform _ happening ih => exact (ih.perform happening).1

end World

end PacketWire
