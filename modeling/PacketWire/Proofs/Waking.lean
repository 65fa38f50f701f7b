import PacketWire.Proofs.Claiming

/-!
# A claimant that waits

The claimant of a work queue waits when it finds no unit and somebody who may bring one. From then
on each unit and each departure of a connection raises a wake-up, the same one, and only the
claimant takes it. So while none is there, the work queue is as the claimant left it, but for units
that were taken out and connections that were added.
-/

namespace PacketWire

namespace WorkQueue

/-- What a claimant that waits need not know of: a change that takes no wake-up of it and, unless
it raises one, adds no unit and lets no connection go. -/
structure Minds (q q' : WorkQueue) : Prop where
  signalled : q.signalled = true → q'.signalled = true
  units : q'.signalled = false → q'.units ⊆ q.units
  attached : q'.signalled = false → q.attached ≤ q'.attached

/-- Nor does the change take the wake-up of a processor that waits for a connection. -/
structure Spares (q q' : WorkQueue) : Prop extends Minds q q' where
  arrived : q.arrived = true → q'.arrived = true

variable {q q' q'' : WorkQueue}

theorem Minds.of_eq (signalled : q'.signalled = q.signalled) (units : q'.units = q.units)
    (attached : q'.attached = q.attached) : q.Minds q' :=
  ⟨fun raised => signalled.trans raised, fun _ => units ▸ List.Subset.refl _,
    fun _ => Nat.le_of_eq attached.symm⟩

namespace Spares

theorem refl (q : WorkQueue) : q.Spares q :=
  ⟨.of_eq rfl rfl rfl, id⟩

theorem trans (first : q.Spares q') (second : q'.Spares q'') : q.Spares q'' where
  signalled raised := second.signalled (first.signalled raised)
  units quiet := by
    have before : q'.signalled = false := by
      by_contra raised
      simp [second.signalled (by simpa using raised)] at quiet
    exact List.Subset.trans (second.units quiet) (first.units before)
  attached quiet := by
    have before : q'.signalled = false := by
      by_contra raised
      simp [second.signalled (by simpa using raised)] at quiet
    exact Nat.le_trans (first.attached before) (second.attached quiet)
  arrived raised := second.arrived (first.arrived raised)

theorem attach (q : WorkQueue) : q.Spares q.attach :=
  ⟨⟨id, fun _ => List.Subset.refl _, fun _ => Nat.le_succ _⟩, id⟩

theorem announce (q : WorkQueue) : q.Spares q.announce :=
  ⟨.of_eq rfl rfl rfl, fun _ => rfl⟩

theorem release (q : WorkQueue) : q.Spares q.release :=
  ⟨.of_eq rfl rfl rfl, id⟩

theorem takeFor (i : Nat) (q : WorkQueue) : q.Spares (q.takeFor i).2 := by
  refine ⟨⟨id, fun _ => ?_, fun _ => Nat.le_refl _⟩, id⟩
  intro unit member
  simp only [WorkQueue.takeFor, List.partition_eq_filter_filter] at member
  exact List.mem_of_mem_filter member

theorem settle (i : Nat) (entry : Entry) (q : WorkQueue) :
    q.Spares (WorkQueue.settle i q entry) := by
  have woken {q' : WorkQueue} (raised : q'.signalled = true) (arrived : q'.arrived = q.arrived) :
      q.Spares q' :=
    ⟨⟨fun _ => raised, fun quiet => by simp [raised] at quiet,
      fun quiet => by simp [raised] at quiet⟩, fun raised => arrived.trans raised⟩
  cases entry with
  | deferred | detached => exact woken rfl rfl
  | _ => exact .refl q

theorem settleAll (i : Nat) (entries : List Entry) (q : WorkQueue) :
    q.Spares (entries.foldl (WorkQueue.settle i) q) := by
  induction entries generalizing q with
  | nil => exact .refl q
  | cons entry entries ih => exact (settle i entry q).trans (ih _)

end Spares

end WorkQueue

namespace World

open Connection

variable {w w' w'' : World} {k : Nat} {job : Job} {task : Task}

/-- Nobody who waits on this work queue missed anything. -/
def Spares (k : Nat) (w w' : World) : Prop :=
  ∀ q', w'.queues[k]? = some q' → ∃ q, w.queues[k]? = some q ∧ q.Spares q'

namespace Spares

theorem of_eq (same : w'.queues = w.queues) : Spares k w w' :=
  fun q there => ⟨q, same ▸ there, .refl q⟩

theorem trans (first : Spares k w w') (second : Spares k w' w'') : Spares k w w'' := by
  intro q'' there
  obtain ⟨q', between, last⟩ := second q'' there
  obtain ⟨q, here, spares⟩ := first q' between
  exact ⟨q, here, spares.trans last⟩

theorem modifyQueue {j : Nat} {f : WorkQueue → WorkQueue}
    (spares : j = k → ∀ q, w.queues[k]? = some q → q.Spares (f q)) :
    Spares k w (w.modifyQueue j f) := by
  intro q' there
  change (w.queues.modify j f)[k]? = some q' at there
  rw [List.getElem?_modify] at there
  obtain ⟨q, here, rfl⟩ := Option.map_eq_some_iff.mp there
  refine ⟨q, here, ?_⟩
  split
  · rename_i same
    exact spares same q here
  · exact .refl q

theorem queuesOf {c : Connection} {f : WorkQueue → WorkQueue}
    (spares : ∀ q : WorkQueue, q.Spares (f q))
    (queues : w'.queues = World.queuesOf c f w.queues) : Spares k w w' := by
  intro q' there
  rw [queues, getElem?_queuesOf] at there
  obtain ⟨q, here, rfl⟩ := Option.map_eq_some_iff.mp there
  refine ⟨q, here, ?_⟩
  split
  · exact spares q
  · exact .refl q

end Spares

theorem spares_put {i : Nat} {before after : Connection} :
    Spares k w (w.put i before after) := by
  obtain ⟨conns, count, trace, eq, -⟩ := put_eq i before after w
  rw [eq]
  exact .queuesOf (.settleAll i _) rfl

theorem spares_dispatchUnit {unit : WorkUnit} {s : Option Suspension}
    (dispatched : w.dispatchUnit unit = (w', s)) : Spares k w w' := by
  rw [dispatchUnit] at dispatched
  split at dispatched <;> cases dispatched
  · exact .of_eq rfl
  · exact spares_put

theorem spares_resume {s : Suspension} {s' : Option Suspension}
    (resumed : w.resume s = some (w', s')) : Spares k w w' := by
  rw [resume] at resumed
  split at resumed
  · cases resumed
    exact .of_eq rfl
  · split at resumed
    · split at resumed <;> cases resumed <;> exact spares_put
    · cases resumed

theorem spares_errandsStep {todo : List Errand} {wait : Option CloseWait}
    (step : w.errandsStep wait todo = some (w', task)) : Spares k w w' := by
  cases todo with
  | nil =>
      cases step
      exact .of_eq rfl
  | cons errand todo =>
      simp only [errandsStep] at step
      split at step
      · cases step
        exact .of_eq rfl
      · split at step
        · cases step
        · cases step
          exact spares_put
        · split at step <;> cases step <;> exact spares_put

theorem spares_takeUnits {i : Nat} {units : List WorkUnit}
    (taken : w.takeUnits i = some (units, w')) : Spares k w w' := by
  rw [takeUnits] at taken
  split at taken
  · cases taken
  · split at taken
    · cases taken
    · split at taken <;> cases taken
      rename_i j _ q queue
      refine .modifyQueue fun same q' there => ?_
      subst same
      obtain rfl : q' = q := Option.some.inj (there.symm.trans queue)
      exact .takeFor i q'

theorem spares_collectStep {i : Nat} {progress : Collecting}
    (step : w.collectStep i progress = some (w', task)) : Spares k w w' := by
  cases progress with
  | starting =>
      simp only [collectStep] at step
      split at step <;> cases step
      · exact .of_eq rfl
      · exact spares_takeUnits (by assumption)
  | dispatching todo got =>
      cases todo with
      | nil =>
          cases step
          exact .of_eq rfl
      | cons unit todo =>
          simp only [collectStep] at step
          split at step <;> cases step <;> exact spares_dispatchUnit (by assumption)
  | suspended s todo got =>
      simp only [collectStep] at step
      split at step <;> cases step <;> exact spares_resume (by assumption)

/-- Who drains another work queue does nothing to this one but by what connections do. -/
theorem spares_lookForWork {j : Nat} (other : j ≠ k) {resident : Bool} {q : WorkQueue}
    (looked : w.lookForWork j resident q = (w', task)) : Spares k w w' := by
  have elsewhere (f : WorkQueue → WorkQueue) : Spares k w (w.modifyQueue j f) :=
    .modifyQueue fun same => absurd same other
  rw [lookForWork] at looked
  split at looked
  · cases looked
    exact (elsewhere _).trans (spares_dispatchUnit rfl)
  · split at looked <;> cases looked
    · exact elsewhere _
    · exact .of_eq rfl

theorem spares_processStep {j : Nat} (other : j ≠ k) {resident : Bool} {q : WorkQueue}
    {progress : Processing} (step : w.processStep j resident q progress = some (w', task)) :
    Spares k w w' := by
  have elsewhere (f : WorkQueue → WorkQueue) : Spares k w (w.modifyQueue j f) :=
    .modifyQueue fun same => absurd same other
  cases progress with
  | claiming =>
      simp only [processStep] at step
      split at step <;> cases step
      · exact .of_eq rfl
      · exact elsewhere _
  | looking =>
      simp only [processStep, Option.some.injEq] at step
      exact spares_lookForWork other step
  | waiting =>
      simp only [processStep] at step
      split at step
      · simp only [Option.some.injEq] at step
        exact (elsewhere _).trans (spares_lookForWork other step)
      · cases step
  | suspended s =>
      simp only [processStep, Option.map_eq_some_iff, Prod.exists, Prod.mk.injEq] at step
      obtain ⟨_, _, resumed, rfl, -⟩ := step
      exact spares_resume resumed
  | awaitingPeer =>
      simp only [processStep] at step
      split at step <;> cases step
      exact elsewhere _

/-- Only who drains this work queue takes a wake-up from it. -/
theorem spares_jobStep (step : w.jobStep job = some (w', task))
    (other : ∀ resident progress, job ≠ .process k resident progress) : Spares k w w' := by
  cases job with
  | errands todo wait => exact spares_errandsStep step
  | collect i progress => exact spares_collectStep step
  | process j resident progress =>
      have elsewhere : j ≠ k := by
        rintro rfl
        exact other resident progress rfl
      simp only [jobStep] at step
      split at step
      · cases step
        exact .of_eq rfl
      · exact spares_processStep elsewhere step

/-- What happens without a stretch of who drains this work queue. -/
theorem Passes.spares {ran : Option Nat} (passes : Passes w ran w')
    (other : ∀ t resident progress, ran = some t →
      w.tasks[t]? ≠ some (.running (.process k resident progress))) : Spares k w w' := by
  cases passes with
  | idle | begins | tended => exact .of_eq rfl
  | announces j => exact .modifyQueue fun _ q _ => .announce q
  | alone => exact spares_put
  | @works t job w'' task here step =>
      have spares : Spares k w w'' := by
        refine spares_jobStep step fun resident progress eq => ?_
        subst eq
        exact other t resident progress rfl here
      exact spares
  | starts =>
      rw [World.start, queues_modifyQueueOf]
      exact .queuesOf .attach rfl

/-! ### Whoever waits has found nothing -/

/-- Task `t` is a claimant of work queue `k` that waits. -/
def Waits (t k : Nat) (resident : Bool) (w : World) : Prop :=
  w.tasks[t]? = some (.running (.process k resident .waiting))

/-- No claimant that waits and was not woken has anything to do. -/
def Attentive (w : World) : Prop :=
  ∀ (t k : Nat) (resident : Bool) (q : WorkQueue), w.Waits t k resident →
    w.queues[k]? = some q → q.signalled = false → q.units = [] ∧ 0 < q.attached

/-- A claimant waits for the first time, or once more, only where it finds nothing but somebody
who may bring something. -/
theorem waits_lookForWork {j : Nat} {resident resident' : Bool} {q : WorkQueue}
    (looked : w.lookForWork j resident q = (w', .running (.process k resident' .waiting))) :
    j = k ∧ w' = w ∧ q.units = [] ∧ 0 < q.attached := by
  rw [lookForWork] at looked
  split at looked
  · generalize dispatched : dispatchUnit _ _ = result at looked
    obtain ⟨_, _ | _⟩ := result <;> cases looked
  · rename_i empty
    split at looked
    · cases resident <;> cases looked
    · cases looked
      exact ⟨rfl, rfl, empty, by omega⟩

theorem waits_processStep {j : Nat} {resident resident' : Bool} {q : WorkQueue}
    {progress : Processing} (queue : w.queues[j]? = some q)
    (step : w.processStep j resident q progress =
      some (w', .running (.process k resident' .waiting))) :
    ∀ q', w'.queues[k]? = some q' → q'.units = [] ∧ 0 < q'.attached := by
  cases progress with
  | claiming =>
      simp only [processStep] at step
      split at step <;> cases step
  | looking =>
      simp only [processStep, Option.some.injEq] at step
      obtain ⟨rfl, rfl, empty, some⟩ := waits_lookForWork step
      intro q' there
      obtain rfl : q' = q := Option.some.inj (there.symm.trans queue)
      exact ⟨empty, some⟩
  | waiting =>
      simp only [processStep] at step
      split at step
      · simp only [Option.some.injEq] at step
        obtain ⟨rfl, rfl, empty, some⟩ := waits_lookForWork step
        intro q' there
        change (w.queues.modify j _)[j]? = _ at there
        rw [List.getElem?_modify_eq, queue] at there
        cases there
        exact ⟨empty, some⟩
      · cases step
  | suspended s =>
      simp only [processStep, Option.map_eq_some_iff, Prod.exists, Prod.mk.injEq] at step
      obtain ⟨_, _ | _, _, rfl, eq⟩ := step <;> cases eq
  | awaitingPeer =>
      simp only [processStep] at step
      split at step <;> cases step

theorem waits_jobStep {resident : Bool}
    (step : w.jobStep job = some (w', .running (.process k resident .waiting))) :
    ∀ q, w'.queues[k]? = some q → q.units = [] ∧ 0 < q.attached := by
  obtain ⟨progress, rfl⟩ := Job.eq_process_of_kind (kind_jobStep step).symm
  simp only [jobStep] at step
  split at step
  · cases step
  · rename_i q queue
    exact waits_processStep queue step

/-- Whoever lost or never had a claim on this work queue does not look at it. -/
theorem minds_processStep {resident : Bool} {q : WorkQueue} {progress : Processing}
    (queue : w.queues[k]? = some q)
    (idle : (Task.running (.process k resident progress)).claims k = false)
    (step : w.processStep k resident q progress = some (w', task)) :
    ∀ q', w'.queues[k]? = some q' → q.Minds q' := by
  have changed {f : WorkQueue → WorkQueue} (minds : q.Minds (f q)) :
      ∀ q', (w.modifyQueue k f).queues[k]? = some q' → q.Minds q' := by
    intro q' there
    change (w.queues.modify k f)[k]? = some q' at there
    rw [List.getElem?_modify_eq, queue] at there
    cases there
    exact minds
  cases progress with
  | claiming =>
      simp only [processStep] at step
      split at step <;> cases step
      · intro q' there
        obtain rfl : q' = q := Option.some.inj (there.symm.trans queue)
        exact .of_eq rfl rfl rfl
      · exact changed (.of_eq rfl rfl rfl)
  | awaitingPeer =>
      simp only [processStep] at step
      split at step <;> cases step
      exact changed (.of_eq rfl rfl rfl)
  | looking | waiting | suspended => simp [Task.claims] at idle

/-- What whoever waits knows stays true while he waits and misses nothing. -/
theorem Attentive.step (h : w.Attentive)
    (each : ∀ t k resident, w'.Waits t k resident →
      (w.Waits t k resident ∧
        ∀ q', w'.queues[k]? = some q' → ∃ q, w.queues[k]? = some q ∧ q.Minds q') ∨
      ∀ q', w'.queues[k]? = some q' → q'.units = [] ∧ 0 < q'.attached) : w'.Attentive := by
  intro t k resident q' place there quiet
  rcases each t k resident place with ⟨waited, minds⟩ | found
  · obtain ⟨q, here, minds⟩ := minds q' there
    have before : q.signalled = false := by
      by_contra raised
      simp [minds.signalled (by simpa using raised)] at quiet
    obtain ⟨empty, some⟩ := h t k resident q waited here before
    refine ⟨List.subset_nil.mp (empty ▸ minds.units quiet), ?_⟩
    exact Nat.lt_of_lt_of_le some (minds.attached quiet)
  · exact found q' there

theorem Attentive.passes {ran : Option Nat} (h : w.Attentive) (manned : w.Manned) (valid : w.Valid)
    (passes : Passes w ran w') : w'.Attentive := by
  -- a task that waits was there, unless it is the one that took the stretch
  have waited {w' : World} {new : List Task} (grown : w'.tasks = w.tasks ++ new)
      (idle : ∀ task ∈ new, ∀ k, task.claims k = false) {t k : Nat} {resident : Bool}
      (waits : w'.Waits t k resident) : w.Waits t k resident := by
    rw [Waits, grown, List.getElem?_append] at waits
    split at waits
    · exact waits
    · have free := idle _ (List.mem_of_getElem? waits) k
      simp [Task.claims] at free
  have others {w' : World} {new : List Task} (grown : w'.tasks = w.tasks ++ new)
      (idle : ∀ task ∈ new, ∀ k, task.claims k = false) (spares : ∀ k, Spares k w w') :
      w'.Attentive := by
    refine h.step fun t k resident place => .inl ⟨waited grown idle place, fun q' there => ?_⟩
    obtain ⟨q, here, spares⟩ := spares k q' there
    exact ⟨q, here, spares.toMinds⟩
  have still {w' : World} (tasks : w'.tasks = w.tasks) (spares : ∀ k, Spares k w w') :
      w'.Attentive :=
    others (tasks.trans (List.append_nil _).symm) (fun _ member => by cases member) spares
  have closing {count i : Nat} : ∀ task ∈ List.replicate count (Task.close i), ∀ k,
      task.claims k = false := by
    intro task member k
    rw [List.eq_of_mem_replicate member]
    rfl
  cases passes with
  | idle | tended => exact still rfl fun k => .of_eq rfl
  | announces j => exact still rfl fun k => .modifyQueue fun _ q _ => .announce q
  | @alone i c d here alone =>
      obtain ⟨count, tasks⟩ := (put_spec (w := w) (i := i)
        (Connection.Later.of_changes (alone.changes (valid.conns i c here))).journal).tasks
      exact others tasks closing fun k => spares_put
  | @starts setup =>
      rw [World.start, queues_modifyQueueOf]
      exact still rfl fun k => .queuesOf .attach rfl
  | @begins task fresh =>
      have grown : (w.spawn task).tasks = w.tasks ++ [task] := rfl
      refine others grown (fun other member k => ?_) fun k => .of_eq rfl
      obtain rfl := List.mem_singleton.mp member
      cases fresh <;> rfl
  | @works u job w'' task here step =>
      obtain ⟨count, i, tasks⟩ := tasks_of_jobStep valid here step
      have bound : u < w''.tasks.length := by
        have old := (List.getElem?_eq_some_iff.mp here).1
        simp [tasks]
        omega
      refine h.step fun t k resident waits => ?_
      change (w''.tasks.set u task)[t]? = _ at waits
      by_cases same : u = t
      · subst same
        rw [List.getElem?_set_self bound] at waits
        cases waits
        have found := waits_jobStep step
        exact .inr found
      · rw [List.getElem?_set_ne same] at waits
        have waits := waited tasks closing waits
        refine .inl ⟨waits, fun q' there => ?_⟩
        -- the one that waits is the claimant, so nobody else takes its wake-up
        have idle : (Task.running job).claims k = false := by
          by_contra claims
          have single : w.tasks.countP (Task.claims k) ≤ 1 := by
            rw [manned.single k]
            exact Bool.toNat_le _
          exact same (eq_of_countP_le_one single here waits (by simpa using claims)
            (decide_eq_true rfl))
        by_cases drains : ∃ resident progress, job = .process k resident progress
        · obtain ⟨resident', progress, rfl⟩ := drains
          simp only [jobStep] at step
          split at step
          · rename_i absent
            cases step
            rw [absent] at there
            cases there
          · rename_i q queue
            exact ⟨q, queue, minds_processStep queue idle step q' there⟩
        · obtain ⟨q, queue, spares⟩ := spares_jobStep (k := k) step
            (fun resident progress eq => drains ⟨resident, progress, eq⟩) q' there
          exact ⟨q, queue, spares.toMinds⟩

/-- A claim that is given up with its task leaves the work queue as it is. -/
theorem Attentive.abort (h : w.Attentive) (u : Nat) : (w.abort u).Attentive := by
  have given {w' : World} (spares : ∀ k, Spares k w w')
      (tasks : w'.tasks = w.tasks.set u (.ended .aborted)) : w'.Attentive := by
    refine h.step fun t k resident waits => .inl ⟨?_, fun q' there => ?_⟩
    · rw [Waits, tasks, List.getElem?_set] at waits
      split at waits
      · split at waits <;> cases waits
      · exact waits
    · obtain ⟨q, here, spares⟩ := spares k q' there
      exact ⟨q, here, spares.toMinds⟩
  have released (j : Nat) : World.Attentive (modifyQueue j .release
      { w with tasks := w.tasks.set u (.ended .aborted) }) :=
    given (fun k => .modifyQueue fun _ q _ => .release q) rfl
  have dropped : World.Attentive { w with tasks := w.tasks.set u (.ended .aborted) } :=
    given (fun k => .of_eq rfl) rfl
  rw [World.abort]
  split
  · rename_i job _
    cases job with
    | errands | collect => exact dropped
    | process j resident progress =>
        cases progress with
        | claiming | awaitingPeer => exact dropped
        | looking | waiting | suspended => exact released j
  · exact h

theorem Reachable.attentive (h : w.Reachable) : w.Attentive := by
  induction h with
  | empty queues wires =>
      intro t k resident q place
      cases place
  | @perform w h happening ih =>
      cases happening with
      | abort u => exact ih.abort u
      | _ => exact ih.passes h.manned h.valid (passes_perform fun k => by simp)

end World

end PacketWire
