import PacketWire.Proofs.Groups

/-!
# The books are kept in every happening

Whatever happens, but for tasks that are given up, is for the books of a group some turns of them.
A task that takes something out, hands something on or goes on with a hand-over makes one; so all
that `Books.Turns` keeps is true at every moment of a run.
-/

namespace PacketWire

namespace Group

open World Connection Entry

variable {g : Group} {w w' : World} {i : Nat} {c d : Connection} {past : Past} {inTurn : Prop}

/-! ### A task goes on -/

variable {v : World} {t k : Nat} {job : Job} {task : Task} {f : WorkQueue → WorkQueue}

/-- The books after a task went on. -/
theorem books_set (past : Past) (t : Nat) (task : Task) (v w : World) :
    g.books past { v with tasks := w.tasks.set t task } =
      { g.books past w with
        queued := g.queued v
        hands := (g.books past w).hands.set t (g.hand task) } := by
  simp only [books, map_hand_set]
  rfl

theorem hands_here (here : w.tasks[t]? = some (.running job)) (past : Past) :
    (g.books past w).hands[t]? = some (g.hand (.running job)) := by
  rw [books, List.getElem?_map, here]
  rfl

/-- A task that has the same in hand as before. -/
theorem books_set_of_eq (here : w.tasks[t]? = some (.running job)) (past : Past)
    (queued : g.queued v = g.queued w) (same : g.hand task = g.hand (.running job)) :
    g.books past { v with tasks := w.tasks.set t task } = g.books past w := by
  obtain ⟨bound, get⟩ := List.getElem?_eq_some_iff.mp (hands_here (g := g) here past)
  have still : (g.books past w).hands.set t (g.hand (.running job)) = (g.books past w).hands := by
    rw [← get, List.set_getElem_self]
  rw [books_set, queued, same, still]
  rfl

/-- If drainers work in turn, nobody else has anything of the group in hand when a task takes
something out, and who collects for a connection takes all there is of the group. -/
def IsFair (g : Group) (w : World) (t : Nat) (job : Job) : Prop :=
  (∃ i, g.member i = true ∧ w.Draws i job) →
    (∀ (u : Nat) (other : Task), w.tasks[u]? = some other → u ≠ t → g.hand other = .empty) ∧
    ∀ j, job = .collect j .starting → ∀ i, g.member i = true → i = j

theorem IsFair.idle (fair : g.IsFair w t job) (draws : ∃ i, g.member i = true ∧ w.Draws i job)
    (here : w.tasks[t]? = some (.running job)) (free : (Task.running job).IsEmptyHanded)
    (past : Past) : (g.books past w).Idle := by
  intro hand member
  obtain ⟨other, there, rfl⟩ := List.mem_map.mp member
  obtain ⟨u, place⟩ := List.getElem?_of_mem there
  by_cases same : u = t
  · subst same
    obtain rfl : other = .running job := Option.some.inj (place.symm.trans here)
    exact hand_of_isEmptyHanded free
  · exact (fair draws).1 u other place same

/-- A task goes on, and a connection with it. -/
theorem turned_stretch (frame : v = w.modifyQueue k f) (fits : g.Fits w) {q : WorkQueue}
    (queue : w.queues[g.queue]? = some q) (place : w.tasks[t]? = some (.running job))
    (here : w.conns[i]? = some c) (suffix : c.journal <:+ d.journal)
    (uses : d.delivery = c.delivery) {events : List Event} {calls : List HookCall}
    (hands : Hands c d events calls)
    (turned : g.Turned inTurn (g.books past w)
      { g.books past { v with tasks := w.tasks.set t task } with
        dispatched := g.own past.dispatched ++ g.own (events.map (i, ·))
        shown := g.own past.shown ++ g.own (calls.map (i, ·)) }) :
    g.Turned inTurn (g.books past w)
      (g.books (past.grow w (v.put i c d))
        { v.put i c d with tasks := (v.put i c d).tasks.set t task }) := by
  subst frame
  have there : ∃ q', (w.modifyQueue k f).queues[g.queue]? = some q' := by
    rw [modifyQueue, List.getElem?_modify, queue]
    exact ⟨_, rfl⟩
  obtain ⟨q', queue'⟩ := there
  have put := (put_spec (w := w.modifyQueue k f) (i := i) suffix).setTask
    (List.getElem?_eq_some_iff.mp place).1 task
  exact turned_put (w := { w.modifyQueue k f with tasks := w.tasks.set t task }) fits uses put here
    queue' hands turned

/-- The calls that are due after a close of this connection, if it is a member. -/
theorem getD_bind_due {s : Option Suspension} (about : ∀ other, s = some other → other.conn = i) :
    (s.bind g.due).getD [] = if g.member i then (dueCalls (g.notify i) s).map (i, ·) else [] := by
  cases s with
  | none => simp [dueCalls]
  | some s =>
      obtain rfl := about s rfl
      rw [Option.bind_some, due]
      split <;> rfl

theorem bind_due_of_not_member {s : Option Suspension}
    (about : ∀ other, s = some other → other.conn = i) (other : g.member i = false) :
    s.bind g.due = none := by
  cases s with
  | none => rfl
  | some s =>
      obtain rfl := about s rfl
      rw [Option.bind_some, due, other]
      rfl

/-- A task hands on a unit that it had in hand or takes out for it. -/
theorem turned_dispatchUnit (frame : v = w.modifyQueue k f) (fits : g.Fits w) {q : WorkQueue}
    (queue : w.queues[g.queue]? = some q) (place : w.tasks[t]? = some (.running job))
    {unit : WorkUnit} {s : Option Suspension} (traced : w.Traces unit)
    (dispatched : v.dispatchUnit unit = (w', s)) (left : task.suspension? = s)
    (mine : g.member unit.conn = true → ∀ now,
      now ++ (g.hand task).due.getD [] = g.calls (unit.conn, unit.event) →
      Books.Turns inTurn g.calls (g.books past w)
        { g.books past { v with tasks := w.tasks.set t task } with
          dispatched := g.own past.dispatched ++ [(unit.conn, unit.event)]
          shown := g.own past.shown ++ now })
    (others : g.member unit.conn = false → (g.hand task).due = none →
      g.books past { v with tasks := w.tasks.set t task } = g.books past w) :
    g.Turned inTurn (g.books past w)
      (g.books (past.grow w w') { w' with tasks := w'.tasks.set t task }) := by
  obtain ⟨c, here, member⟩ := traced
  have there : v.conns[unit.conn]? = some c := by rw [frame]; exact here
  obtain ⟨d, calls, rfl, later, -, hands, split⟩ := put_of_dispatchUnit dispatched there member
  have about (other : Suspension) (eq : s = some other) : other.conn = unit.conn :=
    conn_of_dispatchUnit (eq ▸ dispatched)
  refine turned_stretch frame fits queue place here later.journal later.settings.2.2 hands ?_
  rw [own_map, own_map]
  cases belongs : g.member unit.conn with
  | true =>
      have notify := (fits unit.conn c belongs here).2
      have due : (g.hand task).due.getD [] =
          (dueCalls (g.notify unit.conn) s).map (unit.conn, ·) := by
        rw [hand, left, getD_bind_due about, if_pos belongs]
      rw [if_pos rfl, if_pos rfl]
      refine .single (mine belongs _ ?_)
      rw [due, ← List.map_append, ← notify, split, notify]
      rfl
  | false =>
      have due : (g.hand task).due = none := by
        rw [hand, left]
        exact bind_due_of_not_member about belongs
      simp only [Bool.false_eq_true, if_false, List.append_nil]
      rw [others belongs due]
      exact .refl

/-- A task hands on the first of the units that it has in hand. -/
theorem turned_hands (fits : g.Fits w) (valid : w.Valid) {q : WorkQueue}
    (queue : w.queues[g.queue]? = some q) (place : w.tasks[t]? = some (.running job))
    {unit : WorkUnit} {s : Option Suspension}
    (todo : (Task.running job).units = unit :: task.units)
    (busy : (Task.running job).suspension? = none) (dispatched : w.dispatchUnit unit = (w', s))
    (left : task.suspension? = s) :
    g.Turned inTurn (g.books past w)
      (g.books (past.grow w w') { w' with tasks := w'.tasks.set t task }) := by
  have traced := valid.booked.taken _ (List.mem_of_getElem? place) unit
    (by rw [todo]; exact List.mem_cons_self)
  have holds : g.hand (.running job) = ⟨g.items (unit :: task.units), none⟩ := by
    rw [hand, todo, busy]
    rfl
  refine turned_dispatchUnit (modifyQueue_id 0 w).symm fits queue place traced dispatched left ?_ ?_
  · intro belongs now came
    rw [books_set]
    have front : (g.books past w).hands[t]? =
        some ⟨(unit.conn, unit.event) :: g.items task.units, none⟩ := by
      rw [hands_here place, holds, items_cons, if_pos belongs]
    exact .hands front came
  · intro other due
    refine books_set_of_eq place past rfl ?_
    rw [holds, items_cons, if_neg (by simp [other]), ← due]
    rfl

/-- A claimant takes the unit in front out of its work queue and hands it on. -/
theorem turned_pops (fits : g.Fits w) (valid : w.Valid) {q : WorkQueue}
    (queue : w.queues[g.queue]? = some q) (place : w.tasks[t]? = some (.running job))
    (fair : inTurn → g.IsFair w t job) {q' : WorkQueue} {unit : WorkUnit} {s : Option Suspension}
    (queue' : w.queues[k]? = some q') (front : q'.units = unit :: (f q').units)
    (draws : w.Draws unit.conn job) (before : (Task.running job).IsEmptyHanded)
    (dispatched : (w.modifyQueue k f).dispatchUnit unit = (w', s)) (units : task.units = [])
    (left : task.suspension? = s) :
    g.Turned inTurn (g.books past w)
      (g.books (past.grow w w') { w' with tasks := w'.tasks.set t task }) := by
  obtain ⟨c, here, deferred, member⟩ := valid.booked.queued k q' queue' unit
    (by rw [front]; exact List.mem_cons_self)
  have after : g.hand task = ⟨[], (g.hand task).due⟩ := by
    rw [hand, units]
    rfl
  refine turned_dispatchUnit rfl fits queue place ⟨c, here, member⟩ dispatched left ?_ ?_
  · intro belongs now came
    obtain rfl : k = g.queue := by
      simpa using deferred.symm.trans (fits unit.conn c belongs here).1
    have empty : (g.books past w).hands[t]? = some .empty := by
      rw [hands_here place, hand_of_isEmptyHanded before]
    rw [books_set, queued_modifyQueue_self queue', after]
    refine .pops empty ?_
      (fun turn => (fair turn).idle ⟨_, belongs, draws⟩ place before past) came
    rw [books, queued_eq queue', front, items_cons, if_pos belongs]
  · intro other due
    refine books_set_of_eq place past (queued_modifyQueue fun q there => ?_) ?_
    · obtain rfl : q = q' := Option.some.inj (there.symm.trans queue')
      rw [front, items_cons, if_neg (by simp [other])]
    · rw [after, due, hand_of_isEmptyHanded before]
      rfl

/-- A task goes on with a hand-over. -/
theorem turned_resume (fits : g.Fits w) (valid : w.Valid) {q : WorkQueue}
    (queue : w.queues[g.queue]? = some q) (place : w.tasks[t]? = some (.running job))
    {s : Suspension} {s' : Option Suspension} (busy : (Task.running job).suspension? = some s)
    (resumed : w.resume s = some (w', s')) (units : task.units = (Task.running job).units)
    (left : task.suspension? = s') :
    g.Turned inTurn (g.books past w)
      (g.books (past.grow w w') { w' with tasks := w'.tasks.set t task }) := by
  obtain ⟨c, here, fitsWait⟩ := valid.suspended place busy
  obtain ⟨d, calls, rfl, later, -, hands, split⟩ := put_of_resume resumed here fitsWait
  refine turned_stretch (modifyQueue_id 0 w).symm fits queue place here later.journal
    later.settings.2.2 hands ?_
  have about (other : Suspension) (eq : s' = some other) : other.conn = s.conn ∧
      other.packet = s.packet := conn_of_resume (eq ▸ resumed)
  have before : g.hand (.running job) = ⟨g.items task.units, g.due s⟩ := by
    rw [hand, busy, units]
    rfl
  have after : g.hand task = ⟨g.items task.units, s'.bind g.due⟩ := by
    rw [hand, left]
  rw [own_map, own_map]
  cases belongs : g.member s.conn with
  | false =>
      have due : s'.bind g.due = none := bind_due_of_not_member (fun _ eq => (about _ eq).1) belongs
      have same : g.hand task = g.hand (.running job) := by
        rw [after, before, due, Group.due, belongs]
        rfl
      simp only [Bool.false_eq_true, if_false, List.append_nil]
      rw [books_set_of_eq place past rfl same]
      exact .refl
  | true =>
      have notify := (fits s.conn c belongs here).2
      rw [if_pos rfl, if_pos rfl, List.map_nil, List.append_nil]
      cases s' with
      | none =>
          -- the calls that were due are made
          have late : g.due s = some (calls.map (s.conn, ·)) := by
            rw [Group.due, if_pos belongs, ← notify, ← split, dueCalls, Option.map_none,
              Option.getD_none, List.append_nil]
          refine .single ?_
          rw [books_set, after]
          refine .resumes ?_
          rw [hands_here place, before, late]
      | some s' =>
          -- the wait goes on, and so the calls are still due
          obtain ⟨conn, packet⟩ := about s' rfl
          have none : calls = [] := by
            simpa [dueCalls, packet] using split
          have same : g.hand task = g.hand (.running job) := by
            rw [after, before, Option.bind_some, Group.due, Group.due, conn, packet]
          rw [books_set_of_eq place past rfl same, none, List.map_nil, List.append_nil]
          exact .refl

/-- A task takes the units of a connection out of its work queue. -/
theorem turned_takes (fits : g.Fits w) (place : w.tasks[t]? = some (.running job))
    (fair : inTurn → g.IsFair w t job) (here : w.conns[i]? = some c)
    (deferred : c.delivery = .deferred k) {q : WorkQueue} (queue : w.queues[k]? = some q)
    (collects : job = .collect i .starting) (units : task.units = (q.takeFor i).1)
    (none : task.suspension? = none) (past : Past) :
    g.Turned inTurn (g.books past w)
      (g.books past
        { w.modifyQueue k fun _ => (q.takeFor i).2 with tasks := w.tasks.set t task }) := by
  obtain ⟨mine, others⟩ := units_takeFor i q
  have free : (Task.running job).IsEmptyHanded := by
    rw [collects]
    exact ⟨rfl, rfl⟩
  have empty : (g.books past w).hands[t]? = some .empty := by
    rw [hands_here place past, hand_of_isEmptyHanded free]
  have after : g.hand task = ⟨g.items (q.units.filter (·.conn = i)), Option.none⟩ := by
    rw [hand, none, units, mine]
    rfl
  by_cases some : ∃ unit ∈ q.units, g.member unit.conn = true ∧ unit.conn = i
  · obtain ⟨unit, queued, belongs, rfl⟩ := some
    obtain rfl : k = g.queue := by
      simpa using deferred.symm.trans (fits unit.conn c belongs here).1
    have draws : ∃ j, g.member j = true ∧ w.Draws j job := by
      refine ⟨unit.conn, belongs, ?_⟩
      rw [collects]
      exact ⟨rfl, q, List.mem_of_getElem? queue, unit, queued, rfl⟩
    rw [books_set, queued_modifyQueue_self queue, after, others]
    have queued : (g.books past w).queued = g.items q.units := queued_eq queue
    refine .single (.takes empty ?_ fun turn => ⟨?_, ?_⟩)
    · rw [queued, ← items_append]
      refine items_perm ?_
      have parts := List.filter_append_perm (fun other : WorkUnit => other.conn = unit.conn) q.units
      simpa using parts.symm
    · exact (fair turn).idle draws place free past
    · have only := (fair turn draws).2 unit.conn collects
      have taken : g.items (q.units.filter (·.conn = unit.conn)) = g.items q.units :=
        items_filter fun other _ member => decide_eq_true (only other.conn member)
      have rest : g.items (q.units.filter (·.conn ≠ unit.conn)) = [] :=
        items_filter_eq_nil fun other _ member => by simp [only other.conn member]
      rw [queued, taken, rest, List.append_nil]
  · -- where nothing of members is taken, the books stay as they are
    have apart (unit : WorkUnit) (member : unit ∈ q.units) (belongs : g.member unit.conn = true) :
        unit.conn ≠ i := fun same => some ⟨unit, member, belongs, same⟩
    have taken : g.items (q.units.filter (·.conn = i)) = [] :=
      items_filter_eq_nil fun unit member belongs => decide_eq_false (apart unit member belongs)
    have rest : g.items (q.units.filter (·.conn ≠ i)) = g.items q.units :=
      items_filter fun unit member belongs => decide_eq_true (apart unit member belongs)
    have same : g.hand task = g.hand (.running job) := by
      rw [after, taken, hand_of_isEmptyHanded free]
      rfl
    have queued : g.queued (w.modifyQueue k fun _ => (q.takeFor i).2) = g.queued w := by
      refine queued_modifyQueue fun q' there => ?_
      obtain rfl : q' = q := Option.some.inj (there.symm.trans queue)
      rw [others, rest]
    rw [books_set_of_eq place past queued same]

/-- What a stretch of a task is for the books of a group. -/
theorem turned_drains (fits : g.Fits w) (valid : w.Valid) {q : WorkQueue}
    (queue : w.queues[g.queue]? = some q) (place : w.tasks[t]? = some (.running job))
    (fair : inTurn → g.IsFair w t job) (drains : Drains w job w' task) (past : Past) :
    g.Turned inTurn (g.books past w)
      (g.books (past.grow w w') { w' with tasks := w'.tasks.set t task }) := by
  -- nothing is added where no connection goes on
  have alone {k : Nat} {f : WorkQueue → WorkQueue}
      (turned : g.Turned inTurn (g.books past w)
        (g.books past { w.modifyQueue k f with tasks := w.tasks.set t task })) :
      g.Turned inTurn (g.books past w) (g.books (past.grow w (w.modifyQueue k f))
        { w.modifyQueue k f with tasks := w.tasks.set t task }) := by
    have same : past.grow w (w.modifyQueue k f) = past := Past.grow_eq fun _ => rfl
    rwa [same]
  cases drains with
  | @waits k f _ same before after =>
      refine alone ?_
      have held : g.hand task = g.hand (.running job) := by
        rw [hand_of_isEmptyHanded before, hand_of_isEmptyHanded after]
      have queued := queued_modifyQueue (g := g) fun q here => congrArg g.items (same q here)
      rw [books_set_of_eq place past queued held]
  | @errand errand todo wait _ c d _ starts here stepped after =>
      subst starts
      have mute := (passive_errandStep stepped).idles.mute
      refine turned_stretch (modifyQueue_id 0 w).symm fits queue place here mute.suffix
        (congrArg Machinery.delivery (machinery_errandStep stepped)) mute.hands ?_
      have same : g.hand task = g.hand (.running (.errands (errand :: todo) wait)) := by
        rw [hand_of_isEmptyHanded (isEmptyHanded_errands _ _), hand_of_isEmptyHanded after]
      rw [books_set_of_eq place past rfl same, List.map_nil, List.map_nil, own_nil, own_nil,
        List.append_nil, List.append_nil]
      exact .refl
  | @takes i k c q' _ here deferred queue' collects units none =>
      exact alone (turned_takes fits place fair here deferred queue' collects units none past)
  | hands todo busy dispatched left =>
      exact turned_hands fits valid queue place todo busy dispatched left
  | pops queue' front draws before dispatched units left =>
      exact turned_pops fits valid queue place fair queue' front draws before dispatched units left
  | @resumes s s' _ _ busy resumed units left =>
      exact turned_resume fits valid queue place busy resumed units left

/-! ### Whatever happens -/

/-- What one happening is for the books of a group. -/
theorem turned_passes (fits : g.Fits w) (valid : w.Valid) (manned : w.Manned)
    (free : ∀ (i : Nat) (c : Connection), g.member i = true → w.conns[i]? = some c →
      c.HoldsNothing) {q : WorkQueue} (queue : w.queues[g.queue]? = some q) {ran : Option Nat}
    (fair : inTurn → ∀ t job, ran = some t → w.tasks[t]? = some (.running job) → g.IsFair w t job)
    (passes : Passes w ran w') (past : Past) :
    g.Turned inTurn (g.books past w) (g.books (past.grow w w') w') := by
  have quiet {v : World} {count : Nat} (same : ∀ i, v.journal i = w.journal i)
      (queued : g.queued v = g.queued w)
      (tasks : v.tasks.map g.hand = w.tasks.map g.hand ++ List.replicate count .empty) :
      g.Turned inTurn (g.books past w) (g.books (past.grow w v) v) := by
    rw [Past.grow_eq same]
    have spawned : g.books past v =
        { g.books past w with hands := (g.books past w).hands ++ List.replicate count .empty } := by
      simp only [books, queued, tasks]
    rw [spawned]
    exact .single (.spawns count)
  have unchanged : w.tasks.map g.hand = w.tasks.map g.hand ++ List.replicate 0 .empty :=
    (List.append_nil _).symm
  cases passes with
  | idle => exact quiet (fun _ => rfl) rfl unchanged
  | announces k => exact quiet (fun _ => rfl) (queued_modifyQueue fun _ _ => rfl) unchanged
  | @alone i c d here alone =>
      have later := Connection.Later.of_changes (alone.changes (valid.conns i c here))
      have put := put_spec (w := w) (i := i) later.journal
      cases belongs : g.member i with
      | true =>
          have mute : Mute c d := by
            cases alone with
            | inbound step =>
                exact (mute_inboundStep (fits i c belongs here).1 (valid.conns i c here).orderly
                  (free i c belongs here) step).1
            | outbound step => exact (idles_outboundStep step).mute
            | call call => exact mute_call call c
          refine turned_put fits later.settings.2.2 put here queue mute.hands ?_
          rw [List.map_nil, List.map_nil, own_nil, own_nil, List.append_nil, List.append_nil]
          exact .refl
      | false =>
          obtain ⟨events, calls, hands⟩ := exists_hands later.journal
          refine turned_put fits later.settings.2.2 put here queue hands ?_
          rw [own_map, own_map, belongs, if_neg Bool.false_ne_true, if_neg Bool.false_ne_true,
            List.append_nil, List.append_nil]
          exact .refl
  | @works t job w'' task place step =>
      exact turned_drains fits valid queue place (fun turn => fair turn t job rfl place)
        (drains_jobStep step fun k => manned.isClaimed place) past
  | @tended conns tended => exact quiet (fun i => journal_tended tended i) rfl unchanged
  | @starts setup =>
      refine quiet (journal_start setup w) (queued_start setup w) (?_ : _ = _ ++ List.replicate 0 _)
      rw [World.start, queues_modifyQueueOf]
      exact unchanged
  | @begins task fresh =>
      refine quiet (fun _ => rfl) rfl (?_ : _ = _ ++ List.replicate 1 _)
      rw [spawn, List.map_append, List.map_singleton,
        hand_of_isEmptyHanded (Task.isEmptyHanded_of_isFresh fresh)]
      rfl

/-! ### Runs -/

theorem Fits.of_later (fits : g.Fits w') (later : World.Later w w') : g.Fits w := by
  intro i c member here
  obtain ⟨d, there, later⟩ := later i c here
  obtain ⟨deferred, notify⟩ := fits i d member there
  obtain ⟨config, -, delivery⟩ := later.settings
  exact ⟨delivery.symm.trans deferred, by rw [← config, notify]⟩

/-- Whenever a task takes something out in a run, it does so in turn. -/
def TakesTurns (g : Group) : World → List Happening → Prop
  | _, [] => True
  | w, happening :: happenings =>
    (∀ t job, happening.task? = some t → w.tasks[t]? = some (.running job) → g.IsFair w t job) ∧
      TakesTurns g (w.perform happening) happenings

/-- What a run is for the books of a group. -/
theorem turned_run (reached : w.Reachable) {happenings : List Happening}
    (goesOn : ∀ t, .abort t ∉ happenings) (fits : g.Fits (w.performAll happenings))
    {q : WorkQueue} (queue : (w.performAll happenings).queues[g.queue]? = some q)
    (fair : inTurn → g.TakesTurns w happenings) (past : Past) :
    g.Turned inTurn (g.books past w)
      (g.books (past.after w happenings) (w.performAll happenings)) := by
  induction happenings generalizing w past with
  | nil =>
      rw [Past.after_nil]
      exact .refl
  | cons happening happenings ih =>
      have forward : ∀ t, happening ≠ .abort t := fun t eq => goesOn t (eq ▸ List.mem_cons_self)
      have passes := passes_perform (w := w) forward
      have next := reached.perform happening
      have fitsNext : g.Fits (w.perform happening) :=
        fits.of_later (next.valid.performAll happenings).2
      have fitsNow : g.Fits w := fitsNext.of_later ((reached.valid.passes passes).2)
      have free (i : Nat) (c : Connection) (member : g.member i = true)
          (here : w.conns[i]? = some c) : c.HoldsNothing :=
        reached.holdsNothing here (fitsNow i c member here).1
      obtain ⟨q', here⟩ := exists_queue_before reached.valid goesOn queue
      have first := turned_passes fitsNow reached.valid reached.manned free here
        (fun turn t job ran place => (fair turn).1 t job ran place) passes past
      rw [Past.after_cons]
      exact first.trans (ih next (fun t member => goesOn t (List.mem_cons_of_mem _ member)) fits
        queue (fun turn => (fair turn).2) _)

end Group

end PacketWire
