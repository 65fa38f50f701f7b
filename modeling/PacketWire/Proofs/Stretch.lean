import PacketWire.Proofs.Invariant

/-!
# What a stretch of a task is

Whatever a task does in one stretch, at most one connection goes on by it, and the task holds a
close of no other connection before or afterwards. Its work queue at most loses units. `Stretch`
says so, and `stretch_jobStep` finds it in each kind of task; the invariants of the world are kept
by every stretch for this reason alone.
-/

namespace PacketWire

namespace Connection

/-- Somebody who holds this wait of a close of `c`, if any, goes on, and holds another then. -/
inductive Acts (c : Connection) : Option CloseWait → Connection → Option CloseWait → Prop
  | begins {d : Connection} {left : Option CloseWait} : Outcome c (d, left) →
      d.inbound = c.inbound → Acts c none d left
  | goesOn {wait : CloseWait} {d : Connection} {left : Option CloseWait} :
      (wait.Fits c → Closes c (d, left)) → d.inbound = c.inbound → Acts c (some wait) d left

variable {c d : Connection} {held left : Option CloseWait} {pre post : List CloseWait}

theorem Valid.acts (h : c.Valid (pre ++ held.toList ++ post)) (acts : Acts c held d left) :
    d.Valid (pre ++ left.toList ++ post) := by
  cases acts with
  | begins outcome same => exact Valid.outcome (by simpa using h) outcome same
  | goesOn closes same => exact h.proceed closes same

theorem Valid.moves_of_acts (h : c.Valid (pre ++ held.toList ++ post)) (acts : Acts c held d left) :
    Moves c d := by
  cases acts with
  | begins outcome => exact outcome.moves
  | goesOn closes => exact (closes (h.fits _ (by simp [holders]))).moves

theorem acts_close (now : Nat) (message : String) (c : Connection) :
    Acts c none (c.close false now message true).1 (c.close false now message true).2 :=
  .begins (outcome_close false now message c)
    (congrArg Machinery.inbound (machinery_close false now message true c))

theorem acts_proceedClose (now : Nat) (wait : CloseWait) (c : Connection) :
    Acts c (some wait) (c.proceedClose false now wait).1 (c.proceedClose false now wait).2 :=
  .goesOn (closes_proceedClose false now)
    (congrArg Machinery.inbound (machinery_proceedClose false now wait c))

theorem acts_dispatch (now : Nat) {event : Event} (deferred : .deferred event ∈ c.journal) :
    Acts c none (c.dispatch false now event).1 ((c.dispatch false now event).2.map Prod.fst) :=
  .begins (outcome_dispatch false now (.inr deferred))
    (congrArg Machinery.inbound (machinery_dispatch false now event c))

theorem Acts.showControl (h : Acts c held d left) (packet : Packet) :
    Acts c held (d.showControl packet) left := by
  have same : (d.showControl packet).inbound = d.inbound :=
    congrArg Machinery.inbound (machinery_showControl packet d)
  cases h with
  | begins outcome inbound => exact .begins (outcome.showControl packet) (same.trans inbound)
  | goesOn closes inbound =>
      exact .goesOn (fun fits => (closes fits).showControl packet) (same.trans inbound)

end Connection

namespace World

open Connection

/-- A change of a work queue that adds no units and leaves its count alone. -/
def Tame (w : World) (k : Nat) (f : WorkQueue → WorkQueue) : Prop :=
  ∀ q, w.queues[k]? = some q → (f q).units ⊆ q.units ∧ (f q).attached = q.attached

inductive Stretch (w : World) (job : Job) : World → Task → Prop
  /-- No connection goes on; a close that the task held is given up. -/
  | quiet {k : Nat} {f : WorkQueue → WorkQueue} {task : Task} : Tame w k f →
      (∀ i, task.closing? i = none) → (∀ unit ∈ task.units, w.Traces unit) →
      Stretch w job (w.modifyQueue k f) task
  | acts {k : Nat} {f : WorkQueue → WorkQueue} {i : Nat} {c d : Connection} {task : Task} :
      Tame w k f → w.conns[i]? = some c →
      (∀ j, j ≠ i → Task.closing? j (.running job) = none ∧ task.closing? j = none) →
      Acts c (Task.closing? i (.running job)) d (task.closing? i) →
      (∀ unit ∈ task.units, w.Traces unit) →
      Stretch w job ((w.modifyQueue k f).put i c d) task

variable {w w' : World} {job : Job} {task : Task}

theorem tame_id (w : World) (k : Nat) : Tame w k (fun q => q) :=
  fun _ _ => ⟨List.Subset.refl _, rfl⟩

theorem modifyQueue_id (k : Nat) (w : World) : w.modifyQueue k (fun q => q) = w := by
  have same : w.queues.modify k (fun q => q) = w.queues := List.modify_id k w.queues
  rw [modifyQueue, same]

/-- Nothing happens but in the task. -/
theorem Stretch.still (done : ∀ i, task.closing? i = none)
    (units : ∀ unit ∈ task.units, w.Traces unit) : Stretch w job w task := by
  have stretch : Stretch w job (w.modifyQueue 0 fun q => q) task := .quiet (tame_id w 0) done units
  rwa [modifyQueue_id] at stretch

/-- Only a connection goes on. -/
theorem Stretch.act {i : Nat} {c d : Connection} (here : w.conns[i]? = some c)
    (others : ∀ j, j ≠ i → Task.closing? j (.running job) = none ∧ task.closing? j = none)
    (acts : Acts c (Task.closing? i (.running job)) d (task.closing? i))
    (units : ∀ unit ∈ task.units, w.Traces unit) : Stretch w job (w.put i c d) task := by
  have stretch : Stretch w job ((w.modifyQueue 0 fun q => q).put i c d) task :=
    .acts (tame_id w 0) here others acts units
  rwa [modifyQueue_id] at stretch

/-- The wait of a close that errands hold. -/
theorem closing?_errands (i : Nat) (errand : Errand) (todo : List Errand)
    (wait : Option CloseWait) : Task.closing? i (.running (.errands (errand :: todo) wait)) =
      if errand = .close i then wait else none := by
  cases errand with
  | close conn => simp [Task.closing?]
  | join conn => rfl

theorem closing?_errands_none (i : Nat) (todo : List Errand) :
    Task.closing? i (.running (.errands todo none)) = none := by
  cases todo with
  | nil => rfl
  | cons errand todo => rw [closing?_errands, ite_self]

theorem acts_takeLoops (c : Connection) : Acts c none c.takeLoops.2 none :=
  .begins (.calm (.single (Move.takeLoops c)) rfl) rfl

theorem acts_errandStep {now : Nat} {c d : Connection} {errand : Errand}
    {wait left : Option CloseWait} (step : errandStep now c errand wait = some (d, left)) :
    Acts c (if errand = .close errand.conn then wait else none) d
      (if errand = .close errand.conn then left else none) := by
  cases errand with
  | close conn =>
      simp only [Errand.conn, if_true]
      cases wait with
      | none =>
          have acts := acts_close now closedLocally c
          rwa [Option.some.inj step] at acts
      | some wait =>
          simp only [errandStep] at step
          split at step
          · have acts := acts_proceedClose now wait c
            rwa [Option.some.inj step] at acts
          · cases step
  | join conn =>
      simp only [reduceCtorEq, if_false]
      cases wait with
      | none =>
          simp only [errandStep] at step
          split at step <;>
            · cases step
              exact acts_takeLoops c
      | some wait =>
          simp only [errandStep] at step
          split at step
          · split at step
            · cases step
              exact .begins (.calm .refl rfl) rfl
            · split at step <;>
                · cases step
                  exact .begins (.calm .refl rfl) rfl
          · cases step

theorem stretch_errandsStep {todo : List Errand} {wait : Option CloseWait}
    (step : w.errandsStep wait todo = some (w', task)) :
    Stretch w (.errands todo wait) w' task := by
  have free {unit : WorkUnit} {P : Prop} (member : unit ∈ []) : P := by cases member
  cases todo with
  | nil =>
      simp only [errandsStep] at step
      cases step
      exact .still (fun _ => rfl) fun _ => free
  | cons errand todo =>
      simp only [errandsStep] at step
      split at step
      · cases step
        exact .still (fun i => closing?_errands_none i todo) fun _ => free
      · rename_i c here
        have elsewhere (j : Nat) (other : j ≠ errand.conn) (wait : Option CloseWait) :
            Task.closing? j (.running (.errands (errand :: todo) wait)) = none := by
          rw [closing?_errands, if_neg]
          rintro rfl
          exact other rfl
        split at step
        · cases step
        · rename_i d wait' stepped
          cases step
          refine .act here (fun j other => ⟨elsewhere j other _, elsewhere j other _⟩) ?_
            fun _ => free
          rw [closing?_errands, closing?_errands]
          exact acts_errandStep stepped
        · rename_i d stepped
          have acts := acts_errandStep stepped
          rw [ite_self, ← closing?_errands errand.conn errand todo] at acts
          split at step
          · cases step
            exact .act here (fun j other => ⟨elsewhere j other _, rfl⟩) acts fun _ => free
          · cases step
            refine .act here (fun j other => ⟨elsewhere j other _, closing?_errands_none j todo⟩) ?_
              fun _ => free
            rwa [closing?_errands_none]

/-- A unit that is handed on stands for an event of a connection that is there. -/
theorem dispatchUnit_eq {unit : WorkUnit} {suspension : Option Suspension} {c : Connection}
    (here : w.conns[unit.conn]? = some c) (dispatched : w.dispatchUnit unit = (w', suspension)) :
    ∃ d, w' = w.put unit.conn c d ∧ (∀ s ∈ suspension, s.conn = unit.conn) ∧
      (.deferred unit.event ∈ c.journal → Acts c none d (suspension.map (·.wait))) := by
  simp only [dispatchUnit, here] at dispatched
  obtain ⟨rfl, rfl⟩ := Prod.mk.inj dispatched
  refine ⟨_, rfl, ?_, ?_⟩
  · intro s member
    obtain ⟨_, _, rfl⟩ := Option.map_eq_some_iff.mp member
    rfl
  · intro deferred
    have acts := acts_dispatch w.now deferred
    rwa [Option.map_map]

/-- What goes on with a suspended hand-over. -/
theorem resume_eq {s : Suspension} {suspension : Option Suspension} {c : Connection}
    (here : w.conns[s.conn]? = some c) (resumed : w.resume s = some (w', suspension)) :
    ∃ d, w' = w.put s.conn c d ∧ (∀ s' ∈ suspension, s'.conn = s.conn) ∧
      Acts c (some s.wait) d (suspension.map (·.wait)) := by
  have acts := acts_proceedClose w.now s.wait c
  simp only [resume, here] at resumed
  split at resumed
  · split at resumed
    · rename_i d wait eq
      rw [eq] at acts
      cases resumed
      refine ⟨d, rfl, ?_, acts⟩
      rintro s' ⟨⟩
      rfl
    · rename_i d eq
      rw [eq] at acts
      cases resumed
      refine ⟨_, rfl, ?_, acts.showControl s.packet⟩
      rintro s' ⟨⟩
  · cases resumed

/-- A task that holds this wait of a hand-over to a connection, and no other. -/
def Holds (task : Task) (conn : Nat) (suspension : Option Suspension) : Prop :=
  ∀ j, task.closing? j = if j = conn then suspension.map (·.wait) else none

/-- A unit is handed on, and `task` is what its task is then. -/
theorem Stretch.dispatch {k : Nat} {f : WorkQueue → WorkQueue} {unit : WorkUnit}
    {suspension : Option Suspension} (tame : Tame w k f) (traced : w.Traces unit)
    (dispatched : (w.modifyQueue k f).dispatchUnit unit = (w', suspension))
    (free : ∀ j, Task.closing? j (.running job) = none)
    (holds : (∀ s ∈ suspension, s.conn = unit.conn) → Holds task unit.conn suspension)
    (units : ∀ unit ∈ task.units, w.Traces unit) : Stretch w job w' task := by
  obtain ⟨c, here, deferred⟩ := traced
  obtain ⟨d, rfl, same, acts⟩ := dispatchUnit_eq (w := w.modifyQueue k f) here dispatched
  have closing := holds same
  refine .acts tame here (fun j other => ⟨free j, ?_⟩) ?_ units
  · rw [closing, if_neg other]
  · rw [free, closing, if_pos rfl]
    exact acts deferred

/-- A suspended hand-over goes on, and `task` is what its task is then. -/
theorem Stretch.resume {s : Suspension} {suspension : Option Suspension}
    (resumed : w.resume s = some (w', suspension)) (held : Holds (.running job) s.conn (some s))
    (holds : (∀ s' ∈ suspension, s'.conn = s.conn) → Holds task s.conn suspension)
    (units : ∀ unit ∈ task.units, w.Traces unit) : Stretch w job w' task := by
  cases here : w.conns[s.conn]? with
  | none =>
      simp only [World.resume, here] at resumed
      cases resumed
      have closing := holds fun _ member => by cases member
      refine .still (fun j => ?_) units
      rw [closing, Option.map_none, ite_self]
  | some c =>
      obtain ⟨d, rfl, same, acts⟩ := resume_eq here resumed
      have closing := holds same
      refine .act here (fun j other => ⟨?_, ?_⟩) ?_ units
      · rw [held, if_neg other]
      · rw [closing, if_neg other]
      · rw [held, closing, if_pos rfl, if_pos rfl]
        exact acts

theorem holds_collect {s : Suspension} {conn : Nat} (same : s.conn = conn) (i : Nat)
    (todo : List WorkUnit) (got : List Packet) :
    Holds (.running (.collect i (.suspended s todo got))) conn (some s) := by
  intro j
  rw [← same]
  simp only [Task.closing?, Option.map_some, eq_comm]

/-- The units of one connection leave their work queue together. -/
theorem takeUnits_eq {i : Nat} {units : List WorkUnit} (taken : w.takeUnits i = some (units, w')) :
    ∃ k q f, w.queues[k]? = some q ∧ w' = w.modifyQueue k f ∧ Tame w k f ∧ units ⊆ q.units := by
  rw [takeUnits] at taken
  split at taken
  · cases taken
  · split at taken
    · cases taken
    · rename_i k _
      split at taken
      · cases taken
      · rename_i q queue
        cases taken
        have parts := List.partition_eq_filter_filter (p := fun unit : WorkUnit => unit.conn = i)
          (l := q.units)
        refine ⟨k, q, _, queue, rfl, ?_, ?_⟩
        · intro q' here
          obtain rfl : q' = q := Option.some.inj (here.symm.trans queue)
          simp only [WorkQueue.takeFor, parts]
          exact ⟨fun _ member => (List.mem_filter.mp member).1, trivial⟩
        · simp only [WorkQueue.takeFor, parts]
          exact fun _ member => (List.mem_filter.mp member).1

theorem stretch_collectStep {i : Nat} {progress : Collecting} (booked : w.Booked)
    (known : ∀ unit ∈ (Task.running (.collect i progress)).units, w.Traces unit)
    (step : w.collectStep i progress = some (w', task)) :
    Stretch w (.collect i progress) w' task := by
  cases progress with
  | starting =>
      simp only [collectStep] at step
      split at step
      · cases step
        exact .still (fun _ => rfl) fun _ member => by cases member
      · rename_i units w'' taken
        cases step
        obtain ⟨k, q, f, queue, rfl, tame, mine⟩ := takeUnits_eq taken
        exact .quiet tame (fun _ => rfl) fun unit member =>
          (booked.queued k q queue unit (mine member)).traces
  | dispatching todo got =>
      cases todo with
      | nil =>
          cases step
          exact .still (fun _ => rfl) fun _ member => by cases member
      | cons unit todo =>
          have traced : w.Traces unit := known unit List.mem_cons_self
          have rest (unit : WorkUnit) (member : unit ∈ todo) : w.Traces unit :=
            known unit (List.mem_cons_of_mem _ member)
          have dispatch (w' : World) (suspension : Option Suspension)
              (eq : w.dispatchUnit unit = (w', suspension)) :
              (w.modifyQueue 0 fun q => q).dispatchUnit unit = (w', suspension) := by
            rwa [modifyQueue_id]
          simp only [collectStep] at step
          split at step
          · rename_i w'' eq
            cases step
            refine .dispatch (tame_id w 0) traced (dispatch _ _ eq) (fun _ => rfl) ?_ rest
            exact fun _ j => (ite_self none).symm
          · rename_i w'' s eq
            cases step
            exact .dispatch (tame_id w 0) traced (dispatch _ _ eq) (fun _ => rfl)
              (fun same => holds_collect (same s rfl) i todo got) rest
  | suspended s todo got =>
      have held := holds_collect (s := s) rfl i todo got
      simp only [collectStep] at step
      split at step
      · cases step
      · rename_i w'' eq
        cases step
        exact .resume eq held (fun _ j => (ite_self none).symm) known
      · rename_i w'' s' eq
        cases step
        exact .resume eq held (fun same => holds_collect (same s' rfl) i todo got) known

/-- After a hand-over a claimant holds the wait that this left, and no other. -/
theorem holds_afterUnit {conn : Nat} {suspension : Option Suspension}
    (same : ∀ s ∈ suspension, s.conn = conn) (k : Nat) (resident : Bool) :
    Holds (.running (.process k resident (afterUnit suspension))) conn suspension := by
  intro j
  cases suspension with
  | none => rw [Option.map_none, ite_self]; rfl
  | some s =>
      simp only [afterUnit, Task.closing?, same s rfl, Option.map_some, eq_comm]

/-- A claimant that looks for work, after a change of its work queue. -/
theorem stretch_lookForWork {k : Nat} {f : WorkQueue → WorkQueue} {q : WorkQueue} (resident : Bool)
    (booked : w.Booked) (queue : w.queues[k]? = some q) (tame : Tame w k f)
    (free : ∀ i, Task.closing? i (.running job) = none) :
    Stretch w job ((w.modifyQueue k f).lookForWork k resident (f q)).1
      ((w.modifyQueue k f).lookForWork k resident (f q)).2 := by
  obtain ⟨fewer, attached⟩ := tame q queue
  have again (g : WorkQueue → WorkQueue) :
      (w.modifyQueue k f).modifyQueue k g = w.modifyQueue k (g ∘ f) := by
    simp only [modifyQueue, List.modify_modify_eq]
  rw [lookForWork]
  split
  · rename_i unit units eq
    have traced : w.Traces unit := by
      refine (booked.queued k q queue unit (fewer ?_)).traces
      rw [eq]
      exact List.mem_cons_self
    have tame' : Tame w k (({ · with units }) ∘ f) := by
      intro q' there
      obtain rfl : q' = q := Option.some.inj (there.symm.trans queue)
      refine ⟨List.Subset.trans ?_ fewer, attached⟩
      rw [eq]
      exact List.subset_cons_self unit units
    rw [again]
    exact .dispatch tame' traced rfl free (fun same => holds_afterUnit same k resident)
      fun _ member => by cases member
  · split
    · rw [again]
      have tame' : Tame w k (WorkQueue.release ∘ f) := fun q' there => tame q' there
      split
      · exact .quiet tame' (fun _ => rfl) fun _ member => by cases member
      · exact .quiet tame' (fun _ => rfl) fun _ member => by cases member
    · exact .quiet tame (fun _ => rfl) fun _ member => by cases member

theorem stretch_processStep {k : Nat} {q : WorkQueue} {resident : Bool} {progress : Processing}
    (booked : w.Booked) (queue : w.queues[k]? = some q)
    (step : w.processStep k resident q progress = some (w', task)) :
    Stretch w (.process k resident progress) w' task := by
  have none {unit : WorkUnit} {P : Prop} (member : unit ∈ []) : P := by cases member
  have plain (f : WorkQueue → WorkQueue) (units : (f q).units = q.units)
      (attached : (f q).attached = q.attached) : Tame w k f := by
    intro q' here
    obtain rfl : q' = q := Option.some.inj (here.symm.trans queue)
    exact ⟨units ▸ List.Subset.refl _, attached⟩
  cases progress with
  | claiming =>
      simp only [processStep] at step
      split at step
      · cases step
        exact .still (fun _ => rfl) fun _ => none
      · cases step
        exact .quiet (plain _ rfl rfl) (fun _ => rfl) fun _ => none
  | looking =>
      simp only [processStep, Option.some.injEq] at step
      have stretch : Stretch w (.process k resident .looking) _ _ :=
        stretch_lookForWork resident booked queue (tame_id w k) fun _ => rfl
      rwa [modifyQueue_id, step] at stretch
  | waiting =>
      simp only [processStep] at step
      split at step
      · simp only [Option.some.injEq] at step
        have stretch : Stretch w (.process k resident .waiting) _ _ :=
          stretch_lookForWork resident booked queue (plain ({ · with signalled := false }) rfl rfl)
            fun _ => rfl
        rwa [step] at stretch
      · cases step
  | suspended s =>
      simp only [processStep, Option.map_eq_some_iff, Prod.exists, Prod.mk.injEq] at step
      obtain ⟨w'', suspension, resumed, rfl, rfl⟩ := step
      have alone : ∀ s' ∈ some s, s'.conn = s.conn := by simp
      exact .resume resumed (holds_afterUnit alone k resident)
        (fun same => holds_afterUnit same k resident) fun _ => none
  | awaitingPeer =>
      simp only [processStep] at step
      split at step
      · cases step
        exact .quiet (plain _ rfl rfl) (fun _ => rfl) fun _ => none
      · cases step

theorem stretch_jobStep (booked : w.Booked)
    (known : ∀ unit ∈ (Task.running job).units, w.Traces unit)
    (step : w.jobStep job = some (w', task)) : Stretch w job w' task := by
  cases job with
  | errands todo wait => exact stretch_errandsStep step
  | collect i progress => exact stretch_collectStep booked known step
  | process k resident progress =>
      simp only [jobStep] at step
      split at step
      · cases step
        exact .still (fun _ => rfl) fun _ member => by cases member
      · rename_i q queue
        exact stretch_processStep booked queue step

end World

end PacketWire
