import PacketWire.Proofs.Reached

/-!
# What a happening is for one connection

In one happening a connection rests, goes on by itself, or goes on with a task that acts on it; then
its transport may change. So what is true of a fresh connection and is kept in all of these is true
of every connection in every reachable world.
-/

namespace PacketWire

namespace Connection

/-- How a connection goes on in one happening, up to what its transport does. -/
inductive StepsTo (now : Nat) (c : Connection) : Connection → Prop
  | rests : StepsTo now c c
  | alone {d : Connection} : Alone now c d → StepsTo now c d
  | acted {d : Connection} : Moves c d → d.inbound = c.inbound → StepsTo now c d

theorem Acts.inbound_eq {c d : Connection} {held left : Option CloseWait}
    (acts : Acts c held d left) : d.inbound = c.inbound := by
  cases acts <;> assumption

theorem StepsTo.changes {now : Nat} {c d : Connection} {closers : List CloseWait}
    (share : StepsTo now c d) (valid : c.Valid closers) : Changes c d := by
  cases share with
  | rests => exact .refl
  | alone alone => exact alone.changes valid
  | acted moves => exact moves.changes

end Connection

namespace World

open Connection

variable {w w' : World} {ran : Option Nat}

/-- Where a connection is after one of them, it or another, went on. -/
theorem getElem?_of_tended_set {conns : List Connection} {i j : Nat} {b c d : Connection}
    (tended : TendedAll (w.conns.set j d) conns) (place : w.conns[j]? = some b)
    (here : w.conns[i]? = some c) :
    ∃ e, conns[i]? = some e ∧ Tended (if i = j then d else c) e := by
  apply tended.getElem?
  by_cases same : i = j
  · subst same
    rw [if_pos rfl, List.getElem?_set_self (List.getElem?_eq_some_iff.mp here).1]
  · rw [if_neg same, List.getElem?_set_ne (Ne.symm same), here]

/-- Where a connection is after something was put into the place of one, it or another. -/
theorem exists_of_put {i j : Nat} {b c d : Connection} (place : w.conns[j]? = some b)
    (suffix : b.journal <:+ d.journal) (here : w.conns[i]? = some c) :
    ∃ e, (w.put j b d).conns[i]? = some e ∧ Tended (if i = j then d else c) e :=
  getElem?_of_tended_set (put_spec suffix).conns place here

/-- What was put into the place of a connection is there, up to what its transport does. -/
theorem exists_tended {i : Nat} {c d : Connection} (here : w.conns[i]? = some c)
    (suffix : c.journal <:+ d.journal) : ∃ e, (w.put i c d).conns[i]? = some e ∧ Tended d e := by
  obtain ⟨e, there, tended⟩ := exists_of_put here suffix here
  rw [if_pos rfl] at tended
  exact ⟨e, there, tended⟩

/-- What a connection does in a stretch of a task is made of moves, whatever the task holds. -/
theorem moves_of_acts (valid : w.Valid) {k : Nat} {job : Job}
    (running : w.tasks[k]? = some (.running job)) {i : Nat} {c d : Connection}
    {left : Option CloseWait} (here : w.conns[i]? = some c)
    (acts : Acts c (Task.closing? i (.running job)) d left) : Moves c d := by
  obtain ⟨pre, post, before, -⟩ := closers_set running i
  have held := valid.conns i c here
  rw [before] at held
  exact held.moves_of_acts acts

/-- The only tasks that a stretch of a task starts are closes. -/
theorem tasks_of_jobStep (valid : w.Valid) {k : Nat} {job : Job} {task : Task}
    (running : w.tasks[k]? = some (.running job)) (step : w.jobStep job = some (w', task)) :
    ∃ count i, w'.tasks = w.tasks ++ List.replicate count (.close i) := by
  have stretch := stretch_jobStep valid.booked
    (valid.booked.taken _ (List.mem_of_getElem? running)) step
  cases stretch with
  | quiet => exact ⟨0, 0, (List.append_nil _).symm⟩
  | @acts q f i c d _ tame here others acts =>
      have later := Connection.Later.of_changes (moves_of_acts valid running here acts).changes
      obtain ⟨count, tasks⟩ := (put_spec (w := w.modifyQueue q f) (i := i) later.journal).tasks
      exact ⟨count, i, tasks⟩

/-- What one happening is for one connection. -/
theorem Passes.stepsTo (passes : Passes w ran w') (valid : w.Valid) {i : Nat} {c : Connection}
    (here : w.conns[i]? = some c) :
    ∃ d e, StepsTo w.now c d ∧ w'.conns[i]? = some e ∧ Tended d e := by
  have one {conns : List Connection} {j : Nat} {b d : Connection} (place : w.conns[j]? = some b)
      (tended : TendedAll (w.conns.set j d) conns) (share : StepsTo w.now b d) :
      ∃ d e, StepsTo w.now c d ∧ conns[i]? = some e ∧ Tended d e := by
    obtain ⟨e, there, tended⟩ := getElem?_of_tended_set tended place here
    refine ⟨_, e, ?_, there, tended⟩
    split
    · rename_i same
      subst same
      obtain rfl : b = c := Option.some.inj (place.symm.trans here)
      exact share
    · exact .rests
  cases passes with
  | idle | announces | begins => exact ⟨c, c, .rests, here, .refl c⟩
  | @alone j b d place alone =>
      have later := Connection.Later.of_changes (alone.changes (valid.conns j b place))
      exact one place (put_spec later.journal).conns (.alone alone)
  | @works k job w'' task place step =>
      have stretch := stretch_jobStep valid.booked
        (valid.booked.taken _ (List.mem_of_getElem? place)) step
      cases stretch with
      | quiet => exact ⟨c, c, .rests, here, .refl c⟩
      | @acts q f j b d _ tame there others acts =>
          have moves := moves_of_acts valid place there acts
          have put := put_spec (w := w.modifyQueue q f) (i := j)
            (Connection.Later.of_changes moves.changes).journal
          exact one there put.conns (.acted moves acts.inbound_eq)
  | tended tended =>
      obtain ⟨e, there, tended⟩ := tended.getElem? here
      exact ⟨c, e, .rests, there, tended⟩
  | @starts setup _ given =>
      refine ⟨c, c, .rests, ?_, .refl c⟩
      rw [World.start, queues_modifyQueueOf]
      exact (List.getElem?_append_left (List.getElem?_eq_some_iff.mp here).1).trans here

/-- No connection disappears, and only a start brings another. -/
theorem Passes.length (passes : Passes w ran w') (valid : w.Valid) :
    w'.conns.length = w.conns.length ∨
      ∃ setup opening, Session.setup opening = .ok setup ∧ w' = w.start setup := by
  cases passes with
  | idle | announces | begins => exact .inl rfl
  | @alone i c d here alone =>
      have put := put_spec (w := w) (i := i)
        (Connection.Later.of_changes (alone.changes (valid.conns i c here))).journal
      exact .inl (put.conns.1.trans (List.length_set ..))
  | @works k job w'' task place step =>
      have stretch := stretch_jobStep valid.booked
        (valid.booked.taken _ (List.mem_of_getElem? place)) step
      cases stretch with
      | quiet => exact .inl rfl
      | @acts q f i c d _ tame here others acts =>
          have put := put_spec (w := w.modifyQueue q f) (i := i)
            (Connection.Later.of_changes (moves_of_acts valid place here acts).changes).journal
          exact .inl (put.conns.1.trans (List.length_set ..))
  | tended tended => exact .inl tended.1
  | starts given => exact .inr ⟨_, _, given, rfl⟩

theorem length_queuesOf (c : Connection) (f : WorkQueue → WorkQueue) (queues : List WorkQueue) :
    (queuesOf c f queues).length = queues.length := by
  rw [queuesOf]
  split
  · rfl
  · exact List.length_modify ..

/-- There are as many work queues as there were. -/
theorem Passes.length_queues (passes : Passes w ran w') (valid : w.Valid) :
    w'.queues.length = w.queues.length := by
  have settled {w w' : World} {i : Nat} {c d : Connection} (put : Put w i c d w') :
      w'.queues.length = w.queues.length := by
    obtain ⟨entries, -, queues⟩ := put.queues
    rw [queues, length_queuesOf]
  cases passes with
  | idle | begins | tended => rfl
  | announces j => exact List.length_modify ..
  | @alone i c d here alone =>
      exact settled (put_spec (w := w) (i := i)
        (Connection.Later.of_changes (alone.changes (valid.conns i c here))).journal)
  | @works t job w'' task place step =>
      have stretch := stretch_jobStep valid.booked
        (valid.booked.taken _ (List.mem_of_getElem? place)) step
      cases stretch with
      | @quiet j f => exact List.length_modify ..
      | @acts j f i c d _ tame here others acts =>
          have kept := settled (put_spec (w := w.modifyQueue j f) (i := i)
            (Connection.Later.of_changes (moves_of_acts valid place here acts).changes).journal)
          exact kept.trans (List.length_modify ..)
  | @starts setup =>
      rw [World.start, queues_modifyQueueOf]
      exact length_queuesOf ..

theorem length_queues_performAll (valid : w.Valid) {happenings : List Happening}
    (goesOn : ∀ t, .abort t ∉ happenings) :
    (w.performAll happenings).queues.length = w.queues.length := by
  induction happenings generalizing w with
  | nil => rfl
  | cons happening happenings ih =>
      have passes := passes_perform (w := w) fun t eq => goesOn t (eq ▸ List.mem_cons_self)
      have rest := ih (valid.perform happening).1 fun t member =>
        goesOn t (List.mem_cons_of_mem _ member)
      exact rest.trans (passes.length_queues valid)

/-- A work queue that is there after a run was there before. -/
theorem exists_queue_before (valid : w.Valid) {happenings : List Happening}
    (goesOn : ∀ t, .abort t ∉ happenings) {k : Nat} {q : WorkQueue}
    (queue : (w.performAll happenings).queues[k]? = some q) : ∃ q', w.queues[k]? = some q' := by
  have bound := (List.getElem?_eq_some_iff.mp queue).1
  rw [length_queues_performAll valid goesOn] at bound
  exact ⟨_, List.getElem?_eq_getElem bound⟩

theorem conns_start (setup : Setup) (w : World) :
    (w.start setup).conns = w.conns ++ [.start setup w.now] := by
  rw [World.start, queues_modifyQueueOf]

/-- A task that is given up waits for nothing; connections are left as they are. -/
theorem abort_eq (k : Nat) (w : World) : ∃ queues tasks, w.abort k = { w with queues, tasks } ∧
    ∀ task ∈ tasks, task ∈ w.tasks ∨ task = .ended .aborted := by
  have given (task : Task) (member : task ∈ w.tasks.set k (.ended .aborted)) :
      task ∈ w.tasks ∨ task = .ended .aborted := List.mem_or_eq_of_mem_set member
  rw [abort]
  split
  · rename_i job _
    cases job with
    | errands | collect => exact ⟨w.queues, _, rfl, given⟩
    | process queue resident progress =>
        cases progress with
        | claiming | awaitingPeer => exact ⟨w.queues, _, rfl, given⟩
        | looking | waiting | suspended => exact ⟨_, _, rfl, given⟩
  · exact ⟨w.queues, w.tasks, rfl, fun _ => .inl⟩

/-- A connection that was not there before is fresh. -/
theorem Valid.born (valid : w.Valid) {happening : Happening} {i : Nat} {e : Connection}
    (there : (w.perform happening).conns[i]? = some e) (new : w.conns[i]? = none) :
    ∃ setup opening, Session.setup opening = .ok setup ∧ e = .start setup w.now := by
  have beyond := List.getElem?_eq_none_iff.mp new
  have onward {ran : Option Nat} {w' : World} (passes : Passes w ran w')
      (there : w'.conns[i]? = some e) :
      ∃ setup opening, Session.setup opening = .ok setup ∧ e = .start setup w.now := by
    rcases passes.length valid with same | ⟨setup, opening, given, rfl⟩
    · rw [List.getElem?_eq_none (same ▸ beyond)] at there
      cases there
    · rw [conns_start, List.getElem?_append_right beyond] at there
      exact ⟨setup, opening, given, List.mem_singleton.mp (List.mem_of_getElem? there)⟩
  cases happening with
  | abort k =>
      obtain ⟨queues, tasks, eq, -⟩ := abort_eq k w
      rw [World.perform, eq] at there
      rw [show w.conns[i]? = none from new] at there
      cases there
  | _ => exact onward (passes_perform fun k => by simp) there

/-- What is true of a fresh connection and is kept in every happening is true of all connections,
for as long as the rest of what is known of them. -/
theorem Reachable.conns {P : Connection → Prop} (h : w.Reachable)
    (fresh : ∀ {setup opening} now, Session.setup opening = .ok setup → P (.start setup now))
    (goesOn : ∀ {now : Nat} {c d e : Connection} {closers : List CloseWait}, c.Valid closers →
      P c → StepsTo now c d → Tended d e → P e) :
    ∀ (i : Nat) (c : Connection), w.conns[i]? = some c → P c := by
  induction h with
  | empty queues wires =>
      intro i c here
      cases here
  | @perform w h happening ih =>
      intro i e there
      cases old : w.conns[i]? with
      | none =>
          obtain ⟨setup, opening, given, rfl⟩ := h.valid.born there old
          exact fresh w.now given
      | some c =>
          have onward {ran : Option Nat} {w' : World} (passes : Passes w ran w')
              (there : w'.conns[i]? = some e) : P e := by
            obtain ⟨d, e', share, place, tended⟩ := passes.stepsTo h.valid old
            obtain rfl : e' = e := Option.some.inj (place.symm.trans there)
            exact goesOn (h.valid.conns i c old) (ih i c old) share tended
          cases happening with
          | abort k =>
              obtain ⟨queues, tasks, eq, -⟩ := abort_eq k w
              rw [World.perform, eq] at there
              exact ih i e there
          | _ => exact onward (passes_perform fun k => by simp) there

end World

end PacketWire
