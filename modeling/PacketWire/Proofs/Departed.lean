import PacketWire.Proofs.Arrivals
import PacketWire.Proofs.Claiming

/-!
# A work queue whose connections are all closed

The claimant of a work queue is through with it only when it is empty and all connections that use
it are closed. Then it stays empty until another connection is started on it: what a closed
connection still receives is not deferred.
-/

namespace PacketWire

/-- A task that drained this work queue and is through with it, for now or for good. -/
def Task.isThrough (k : Nat) : Task → Bool
  | .ended (.processed (.ok ())) => true
  | .running (.process j _ .awaitingPeer) => j = k
  | _ => false

namespace World

open Connection Entry

variable {w w' : World} {k : Nat} {task : Task} {q : WorkQueue}

/-- Nothing is queued, and nobody is left who could add anything. -/
structure IsDone (k : Nat) (w : World) : Prop where
  closed : openOn k w.conns = 0
  empty : ∀ q, w.queues[k]? = some q → q.units = []

theorem isThrough_lookForWork {resident : Bool} (looked : w.lookForWork k resident q = (w', task))
    (through : task.isThrough k = true) :
    q.units = [] ∧ q.attached = 0 ∧ w' = w.modifyQueue k .release := by
  rw [lookForWork] at looked
  split at looked
  · generalize dispatched : dispatchUnit _ _ = result at looked
    obtain ⟨_, _ | _⟩ := result <;> cases looked <;> cases through
  · rename_i empty
    split at looked <;> cases looked
    · exact ⟨empty, by assumption, rfl⟩
    · cases through

/-- Only a claimant that finds nothing left is through. -/
theorem isThrough_processStep {resident : Bool} {progress : Processing}
    (step : w.processStep k resident q progress = some (w', task))
    (through : task.isThrough k = true) :
    q.units = [] ∧ q.attached = 0 ∧
      ∃ f : WorkQueue → WorkQueue, (∀ q, (f q).units = q.units) ∧ w' = w.modifyQueue k f := by
  cases progress with
  | claiming =>
      simp only [processStep] at step
      split at step <;> cases step <;> cases through
  | looking =>
      simp only [processStep, Option.some.injEq] at step
      obtain ⟨empty, none, eq⟩ := isThrough_lookForWork step through
      exact ⟨empty, none, .release, fun _ => rfl, eq⟩
  | waiting =>
      simp only [processStep] at step
      split at step
      · simp only [Option.some.injEq] at step
        obtain ⟨empty, none, eq⟩ := isThrough_lookForWork step through
        refine ⟨empty, none, fun q => WorkQueue.release { q with signalled := false },
          fun _ => rfl, ?_⟩
        refine Eq.trans eq ?_
        simp only [modifyQueue, List.modify_modify_eq]
        rfl
      · cases step
  | suspended s =>
      simp only [processStep, Option.map_eq_some_iff, Prod.exists, Prod.mk.injEq] at step
      obtain ⟨_, _ | _, _, rfl, rfl⟩ := step <;> cases through
  | awaitingPeer =>
      simp only [processStep] at step
      split at step <;> cases step
      cases through

/-- Whoever drained a work queue and is through with it leaves it done. -/
theorem isDone_of_isThrough (valid : w.Valid) (queue : w.queues[k]? = some q) {t : Nat}
    {resident : Bool} {progress : Processing}
    (place : w.tasks[t]? = some (.running (.process k resident progress)))
    (step : w.step (.task t) = some w') (there : w'.tasks[t]? = some task)
    (through : task.isThrough k = true) : w'.IsDone k := by
  simp only [World.step, place] at step
  obtain ⟨⟨w'', task'⟩, stepped, rfl⟩ := Option.map_eq_some_iff.mp step
  simp only [jobStep, queue] at stepped
  have same : task' = task ∨ w''.tasks.length ≤ t := by
    rcases Nat.lt_or_ge t w''.tasks.length with bound | beyond
    · exact .inl (Option.some.inj ((List.getElem?_set_self bound).symm.trans there))
    · exact .inr beyond
  rcases same with rfl | beyond
  · obtain ⟨empty, none, f, kept, rfl⟩ := isThrough_processStep stepped through
    refine ⟨?_, fun q' there => ?_⟩
    · exact (valid.booked.attached k q queue).symm.trans none
    · change (w.queues.modify k f)[k]? = some q' at there
      rw [List.getElem?_modify_eq, queue] at there
      cases there
      exact (kept q).trans empty
  · rw [List.getElem?_eq_none (by rwa [List.length_set])] at there
    cases there

/-! ### Nothing is added any more -/

theorem IsDone.state_eq (done : w.IsDone k) {i : Nat} {c : Connection} (here : w.conns[i]? = some c)
    (uses : c.delivery = .deferred k) : c.state = .closed := by
  have none := List.countP_eq_zero.mp done.closed c (List.mem_of_getElem? here)
  simpa [keepsOpen, uses] using none

/-- A connection adds nothing to a work queue that is done. -/
theorem units_put (done : w.IsDone k) {i : Nat} {c d : Connection} (here : w.conns[i]? = some c)
    (changes : Changes c d) (put : Put w i c d w') :
    ∀ q, w'.queues[k]? = some q → q.units = [] := by
  intro q' there
  obtain ⟨entries, journal, queues⟩ := put.queues
  rw [queues, getElem?_queuesOf] at there
  obtain ⟨q, old, rfl⟩ := Option.map_eq_some_iff.mp there
  have before := done.empty q old
  split
  · rename_i uses
    have closed := done.state_eq here ((Later.of_changes changes).settings.2.2.symm.trans uses)
    have silent := (deferred_of_closed changes closed).2
    rw [deferredEvents, recount_eq_append deferred? journal, List.reverse_reverse] at silent
    rw [WorkQueue.units_settleAll, before, List.append_right_eq_self.mp silent]
    rfl
  · exact before

theorem IsDone.modifyQueue (done : w.IsDone k) {j : Nat} {f : WorkQueue → WorkQueue}
    (fewer : ∀ q, w.queues[j]? = some q → (f q).units ⊆ q.units) :
    (w.modifyQueue j f).IsDone k where
  closed := done.closed
  empty := by
    intro q' there
    change (w.queues.modify j f)[k]? = some q' at there
    rw [List.getElem?_modify] at there
    obtain ⟨q, old, rfl⟩ := Option.map_eq_some_iff.mp there
    have before := done.empty q old
    split
    · rename_i same
      subst same
      exact List.subset_nil.mp (before ▸ fewer q old)
    · exact before

/-- No connection was started on this work queue. -/
def StartsNone (k : Nat) (w w' : World) : Prop :=
  ∀ (i : Nat) (c : Connection), w'.conns[i]? = some c → c.delivery = .deferred k →
    i < w.conns.length

/-- All connections of the work queue stay closed, and defer nothing. -/
theorem IsDone.conns (done : w.IsDone k) (valid : w.Valid) {ran : Option Nat}
    (passes : Passes w ran w') (none : StartsNone k w w') :
    openOn k w'.conns = 0 ∧ ∀ (i : Nat) (d : Connection), w'.conns[i]? = some d →
      d.delivery = .deferred k →
      ∃ c, w.conns[i]? = some c ∧ d.deferredEvents = c.deferredEvents := by
  have kept (i : Nat) (d : Connection) (there : w'.conns[i]? = some d)
      (uses : d.delivery = .deferred k) :
      ∃ c, w.conns[i]? = some c ∧ d.state = .closed ∧ d.deferredEvents = c.deferredEvents := by
    have here := List.getElem?_eq_getElem (none i d there uses)
    obtain ⟨b, e, share, place, tended⟩ := passes.stepsTo valid here
    obtain rfl : e = d := Option.some.inj (place.symm.trans there)
    have changes := (share.changes (valid.conns i _ here)).trans tended.changes
    have used := (Connection.Later.of_changes changes).settings.2.2.symm.trans uses
    obtain ⟨closed, silent⟩ := deferred_of_closed changes (done.state_eq here used)
    exact ⟨_, here, closed, silent⟩
  refine ⟨List.countP_eq_zero.mpr fun d member => ?_, fun i d there uses => ?_⟩
  · obtain ⟨i, there⟩ := List.getElem?_of_mem member
    intro opened
    simp only [keepsOpen, decide_eq_true_eq] at opened
    obtain ⟨c, -, closed, -⟩ := kept i d there opened.1
    exact opened.2 closed
  · obtain ⟨c, here, -, silent⟩ := kept i d there uses
    exact ⟨c, here, silent⟩

theorem IsDone.passes (done : w.IsDone k) (valid : w.Valid) {ran : Option Nat}
    (passes : Passes w ran w') (none : StartsNone k w w') : w'.IsDone k where
  closed := (done.conns valid passes none).1
  empty := by
    cases passes with
    | idle | begins | tended => exact done.empty
    | announces j =>
        exact (done.modifyQueue (j := j) (f := .announce) fun q _ => List.Subset.refl _).empty
    | @alone i c d here alone =>
        have changes := alone.changes (valid.conns i c here)
        exact units_put done here changes (put_spec (Connection.Later.of_changes changes).journal)
    | @works t job w'' task place step =>
        have stretch := stretch_jobStep valid.booked
          (valid.booked.taken _ (List.mem_of_getElem? place)) step
        cases stretch with
        | quiet tame => exact (done.modifyQueue fun q here => (tame q here).1).empty
        | @acts j f i c d _ tame here others acts =>
            have changes := (moves_of_acts valid place here acts).changes
            have put := put_spec (w := w.modifyQueue j f) (i := i)
              (Connection.Later.of_changes changes).journal
            have before := done.modifyQueue fun q here => (tame q here).1
            have emptied := units_put before here changes put
            exact emptied
    | @starts setup =>
        intro q' there
        rw [World.start, queues_modifyQueueOf, getElem?_queuesOf] at there
        obtain ⟨q, old, rfl⟩ := Option.map_eq_some_iff.mp there
        split <;> exact done.empty q old

/-- A work queue that is done stays empty, and nothing was put on it in between, for as long as no
other connection is started on it. -/
theorem IsDone.run (done : w.IsDone k) (valid : w.Valid) {happenings : List Happening}
    (goesOn : ∀ t, .abort t ∉ happenings) (none : StartsNone k w (w.performAll happenings)) :
    (w.performAll happenings).IsDone k ∧
      ∀ (i : Nat) (d : Connection), (w.performAll happenings).conns[i]? = some d →
        d.delivery = .deferred k →
        ∃ c, w.conns[i]? = some c ∧ d.deferredEvents = c.deferredEvents := by
  induction happenings generalizing w with
  | nil => exact ⟨done, fun i d there _ => ⟨d, there, rfl⟩⟩
  | cons happening happenings ih =>
      have forward : ∀ t, happening ≠ .abort t := fun t eq => goesOn t (eq ▸ List.mem_cons_self)
      have passes := passes_perform (w := w) forward
      obtain ⟨valid', later⟩ := valid.perform happening
      have later' := (valid'.performAll happenings).2
      have first : StartsNone k w (w.perform happening) := by
        intro i c here uses
        obtain ⟨d, there, later⟩ := later' i c here
        exact none i d there (later.settings.2.2.trans uses)
      have rest : StartsNone k (w.perform happening) (w.performAll (happening :: happenings)) := by
        intro i d there uses
        have here := List.getElem?_eq_getElem (none i d there uses)
        obtain ⟨e, place, -⟩ := later i _ here
        exact (List.getElem?_eq_some_iff.mp place).1
      obtain ⟨stays, silent⟩ := ih (done.passes valid passes first) valid'
        (fun t member => goesOn t (List.mem_cons_of_mem _ member)) rest
      refine ⟨stays, fun i d there uses => ?_⟩
      obtain ⟨e, place, same⟩ := silent i d there uses
      obtain ⟨d', there', later''⟩ := later' i e place
      obtain rfl : d' = d := Option.some.inj (there'.symm.trans there)
      obtain ⟨c, here, before⟩ := (done.conns valid passes first).2 i e place
        (later''.settings.2.2.symm.trans uses)
      exact ⟨c, here, same.trans before⟩

end World

end PacketWire
