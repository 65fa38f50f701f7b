import PacketWire.Peer.EchoServer
import PacketWire.Proofs.Departed
import PacketWire.Proofs.Waking

/-!
# The processor of an echo server

With deferred delivery an echo server has one task that drains its work queue. Each time all
connections are closed that task is through, and it waits until the server tells it of another
connection. `Serves` is about every order in which peers may be accepted and everything else may
happen around that; `Staffed` says what is true all along. In particular nobody takes the wake-up
of the processor but the processor, and it never finds its work queue claimed.
-/

namespace PacketWire

/-- What the surroundings of a server may do: anything but start a connection, drain its work queue
or end a task, which are its own affairs. -/
def Happening.isAround : Happening → Bool
  | .start _ => false
  | .process .. => false
  | .abort _ => false
  | _ => true

/-- A task that drains some work queue. -/
def Task.drains : Task → Bool
  | .running (.process ..) => true
  | _ => false

namespace World

open Connection

variable {w w' : World} {job : Job} {task : Task} {progress : Processing}

theorem drains_of_kind (step : w.jobStep job = some (w', task))
    (before : (Task.running job).drains = false) : task.drains = false := by
  cases task with
  | ended outcome => rfl
  | running next =>
      cases next with
      | errands | collect => rfl
      | process k resident progress =>
          obtain ⟨progress, rfl⟩ := Job.eq_process_of_kind (kind_jobStep step).symm
          cases before

theorem length_put (i : Nat) (c d : Connection) (w : World) :
    (w.put i c d).conns.length = w.conns.length := by
  obtain ⟨conns, count, trace, eq, tended, -⟩ := put_eq i c d w
  rw [eq]
  exact tended.1.trans (List.length_set ..)

/-- Only a start brings a connection. -/
theorem length_perform (valid : w.Valid) {happening : Happening}
    (around : happening.isAround = true) :
    (w.perform happening).conns.length = w.conns.length := by
  cases happening with
  | pass | errands | collect | announce => rfl
  | start | process | abort => cases around
  | transit i transit => exact List.length_modify ..
  | carry source target count => exact List.length_modify ..
  | call i call =>
      simp only [World.perform, onConn]
      split
      · rfl
      · exact length_put ..
  | run actor =>
      simp only [World.perform]
      cases stepped : w.step actor with
      | none => rfl
      | some w' =>
          cases actor with
          | inbound i | outbound i =>
              simp only [World.step] at stepped
              split at stepped
              · cases stepped
              · obtain ⟨d, -, rfl⟩ := Option.map_eq_some_iff.mp stepped
                exact length_put ..
          | task t =>
              simp only [World.step] at stepped
              split at stepped
              · rename_i job here
                obtain ⟨⟨w'', task⟩, step, rfl⟩ := Option.map_eq_some_iff.mp stepped
                have stretch := stretch_jobStep valid.booked
                  (valid.booked.taken _ (List.mem_of_getElem? here)) step
                cases stretch with
                | quiet => rfl
                | acts => exact length_put ..
              · cases stepped

/-- A processor goes on for good, if it does not find its work queue claimed. -/
theorem goesOn_processStep {j : Nat} {q : WorkQueue}
    (free : progress = .claiming → q.claimed = false)
    (step : w.processStep j true q progress = some (w', task)) :
    ∃ next, task = .running (.process j true next) := by
  have looked {v : World} {q' : WorkQueue} (eq : v.lookForWork j true q' = (w', task)) :
      ∃ next, task = .running (.process j true next) := by
    rw [lookForWork] at eq
    split at eq
    · cases eq
      exact ⟨_, rfl⟩
    · split at eq <;> cases eq <;> exact ⟨_, rfl⟩
  cases progress with
  | claiming =>
      simp only [processStep, free rfl, Bool.false_eq_true, if_false] at step
      cases step
      exact ⟨_, rfl⟩
  | looking => exact looked (Option.some.inj step)
  | waiting =>
      simp only [processStep] at step
      split at step
      · exact looked (Option.some.inj step)
      · cases step
  | suspended s =>
      simp only [processStep, Option.map_eq_some_iff, Prod.mk.injEq] at step
      obtain ⟨_, _, _, rfl⟩ := step
      exact ⟨_, rfl⟩
  | awaitingPeer =>
      simp only [processStep] at step
      split at step <;> cases step
      exact ⟨_, rfl⟩

/-- A world in which the first task, and no other, drains the first work queue, which all
connections use. Where it waits for a connection and was not told of one, it is through. -/
structure Staffed (progress : Processing) (w : World) : Prop where
  reachable : w.Reachable
  queue : ∃ q, w.queues[0]? = some q
  uses : ∀ (i : Nat) (c : Connection), w.conns[i]? = some c → c.delivery = .deferred 0
  tasks : ∃ rest, w.tasks = .running (.process 0 true progress) :: rest ∧
    ∀ task ∈ rest, task.drains = false
  rests : progress = .awaitingPeer → ∀ q, w.queues[0]? = some q → q.arrived = false → w.IsDone 0

namespace Staffed

/-- The work queue is claimed only while the processor claims it. -/
theorem claimed_eq (h : w.Staffed progress) {q : WorkQueue} (queue : w.queues[0]? = some q) :
    q.claimed = (Task.running (.process 0 true progress)).claims 0 := by
  obtain ⟨rest, tasks, others⟩ := h.tasks
  have none : rest.countP (Task.claims 0) = 0 := by
    refine List.countP_eq_zero.mpr fun task member => ?_
    have free := others task member
    cases task with
    | ended outcome => simp [Task.claims]
    | running job =>
        cases job with
        | errands | collect => simp [Task.claims]
        | process => cases free
  have single := h.reachable.manned.single 0
  rw [tasks, List.countP_cons, none, World.isClaimed, queue, Option.any_some] at single
  cases claims : (Task.running (.process 0 true progress)).claims 0 <;>
    cases claimed : q.claimed <;> simp [claims, claimed] at single ⊢

/-- The work queue stays, and so do the settings of connections. -/
theorem settings (h : w.Staffed progress) {ran : Option Nat} (passes : Passes w ran w')
    (length : w'.conns.length = w.conns.length) :
    (∃ q, w'.queues[0]? = some q) ∧
      ∀ (i : Nat) (c : Connection), w'.conns[i]? = some c → c.delivery = .deferred 0 := by
  have valid := h.reachable.valid
  constructor
  · obtain ⟨q, queue⟩ := h.queue
    have bound := (List.getElem?_eq_some_iff.mp queue).1
    rw [← passes.length_queues valid] at bound
    exact ⟨_, List.getElem?_eq_getElem bound⟩
  · intro i d there
    have bound := (List.getElem?_eq_some_iff.mp there).1
    rw [length] at bound
    have here := List.getElem?_eq_getElem bound
    obtain ⟨e, place, later⟩ := (valid.passes passes).2 i _ here
    obtain rfl : e = d := Option.some.inj (place.symm.trans there)
    exact later.settings.2.2.trans (h.uses i _ here)

/-- All that happens but a stretch of the processor. -/
theorem beside (h : w.Staffed progress) (reachable : w'.Reachable) {ran : Option Nat}
    (passes : Passes w ran w') (length : w'.conns.length = w.conns.length) (other : ran ≠ some 0)
    (tasks : ∃ rest, w'.tasks = .running (.process 0 true progress) :: rest ∧
      ∀ task ∈ rest, task.drains = false) : w'.Staffed progress := by
  have spares : Spares 0 w w' := by
    refine passes.spares fun t resident progress' ran place => ?_
    obtain ⟨rest, eq, others⟩ := h.tasks
    rw [eq] at place
    cases t with
    | zero => exact other ran
    | succ t =>
        have free := others _ (List.mem_of_getElem? place)
        cases free
  obtain ⟨queue, uses⟩ := h.settings passes length
  refine ⟨reachable, queue, uses, tasks, ?_⟩
  intro waits q' there quiet
  obtain ⟨q, here, spares⟩ := spares q' there
  have before : q.arrived = false := by
    by_contra raised
    simp [spares.arrived (by simpa using raised)] at quiet
  refine (h.rests waits q here before).passes h.reachable.valid passes fun i c there _ => ?_
  exact length ▸ (List.getElem?_eq_some_iff.mp there).1

/-- More tasks of other kinds do not matter. -/
theorem more {new : List Task} (h : w.Staffed progress) (tasks : w'.tasks = w.tasks ++ new)
    (idle : ∀ task ∈ new, task.drains = false) :
    ∃ rest, w'.tasks = .running (.process 0 true progress) :: rest ∧
      ∀ task ∈ rest, task.drains = false := by
  obtain ⟨rest, eq, others⟩ := h.tasks
  refine ⟨rest ++ new, by rw [tasks, eq, List.cons_append], fun task member => ?_⟩
  rcases List.mem_append.mp member with old | fresh
  · exact others task old
  · exact idle task fresh

theorem put (h : w.Staffed progress) (i : Nat) (c d : Connection) :
    ∃ rest, (w.put i c d).tasks = .running (.process 0 true progress) :: rest ∧
      ∀ task ∈ rest, task.drains = false := by
  obtain ⟨conns, count, trace, eq, -⟩ := put_eq i c d w
  have tasks : (w.put i c d).tasks = w.tasks ++ List.replicate count (.close i) := by rw [eq]
  refine h.more tasks fun task member => ?_
  rw [List.eq_of_mem_replicate member]
  rfl

/-- A stretch of another task. -/
theorem works (h : w.Staffed progress) {t : Nat} (other : t ≠ 0)
    (here : w.tasks[t]? = some (.running job)) (step : w.jobStep job = some (w', task)) :
    ∃ rest, w'.tasks.set t task = .running (.process 0 true progress) :: rest ∧
      ∀ task ∈ rest, task.drains = false := by
  obtain ⟨count, i, grown⟩ := tasks_of_jobStep h.reachable.valid here step
  obtain ⟨rest, tasks, others⟩ := h.more grown fun task member => by
    rw [List.eq_of_mem_replicate member]
    rfl
  obtain ⟨t, rfl⟩ := Nat.exists_eq_succ_of_ne_zero other
  have idle : (Task.running job).drains = false := by
    have old : w'.tasks[t + 1]? = some (.running job) := by
      rw [grown, List.getElem?_append_left (List.getElem?_eq_some_iff.mp here).1, here]
    rw [tasks, List.getElem?_cons_succ] at old
    exact others _ (List.mem_of_getElem? old)
  refine ⟨rest.set t task, by rw [tasks, List.set_cons_succ], fun task' member => ?_⟩
  rcases List.mem_or_eq_of_mem_set member with old | rfl
  · exact others task' old
  · exact drains_of_kind step idle

/-- A stretch of the processor. It goes on for good, and it is through where it waits again for a
connection. -/
theorem turn (h : w.Staffed progress)
    (step : w.jobStep (.process 0 true progress) = some (w', task))
    (reachable : World.Reachable { w' with tasks := w'.tasks.set 0 task })
    (length : w'.conns.length = w.conns.length) :
    ∃ progress, World.Staffed progress { w' with tasks := w'.tasks.set 0 task } := by
  have valid := h.reachable.valid
  obtain ⟨q, queue⟩ := h.queue
  obtain ⟨rest, tasks, others⟩ := h.tasks
  have here : w.tasks[0]? = some (.running (.process 0 true progress)) := by
    rw [tasks, List.getElem?_cons_zero]
  obtain ⟨count, i, grown⟩ := tasks_of_jobStep valid here step
  have set : w'.tasks.set 0 task = task :: (rest ++ List.replicate count (.close i)) := by
    rw [grown, tasks]
    rfl
  obtain ⟨next, rfl⟩ : ∃ next, task = .running (.process 0 true next) := by
    simp only [jobStep, queue] at step
    refine goesOn_processStep (fun claiming => ?_) step
    rw [h.claimed_eq queue, claiming]
    rfl
  obtain ⟨queue', uses⟩ := h.settings (.works here step) length
  refine ⟨next, reachable, queue', uses, ⟨_, set, fun task member => ?_⟩, ?_⟩
  · rcases List.mem_append.mp member with old | fresh
    · exact others task old
    · rw [List.eq_of_mem_replicate fresh]
      rfl
  · rintro rfl - - -
    have taken : w.step (.task 0) = some { w' with
        tasks := w'.tasks.set 0 (.running (.process 0 true .awaitingPeer)) } := by
      simp only [World.step, here, step, Option.map_some]
    have there : (w'.tasks.set 0 (.running (.process 0 true .awaitingPeer)))[0]? =
        some (.running (.process 0 true .awaitingPeer)) := by
      rw [set, List.getElem?_cons_zero]
    exact isDone_of_isThrough valid queue here taken there rfl

/-- Whatever happens around the server. -/
theorem around (h : w.Staffed progress) {happening : Happening}
    (around : happening.isAround = true) : ∃ progress, (w.perform happening).Staffed progress := by
  have valid := h.reachable.valid
  have reachable := h.reachable.perform happening
  have length := length_perform valid around
  have passes : Passes w happening.task? (w.perform happening) :=
    passes_perform fun k eq => by
      subst eq
      cases around
  have same (tasks : (w.perform happening).tasks = w.tasks) (other : happening.task? ≠ some 0) :
      ∃ progress, (w.perform happening).Staffed progress :=
    ⟨progress, h.beside reachable passes length other (tasks ▸ h.tasks)⟩
  cases happening with
  | start | process | abort => cases around
  | pass | announce | transit | carry => exact same rfl (by simp [Happening.task?])
  | errands | collect =>
      refine ⟨progress, h.beside reachable passes length (by simp [Happening.task?])
        (h.more rfl fun task member => ?_)⟩
      rw [List.mem_singleton.mp member]
      rfl
  | call i call =>
      refine ⟨progress, h.beside reachable passes length (by simp [Happening.task?]) ?_⟩
      simp only [World.perform, onConn]
      split
      · exact h.tasks
      · exact h.put ..
  | run actor =>
      cases stepped : w.step actor with
      | none =>
          refine ⟨progress, ?_⟩
          rwa [World.perform, stepped, Option.getD_none]
      | some w' =>
          rw [World.perform, stepped, Option.getD_some] at reachable passes length ⊢
          cases actor with
          | inbound i | outbound i =>
              refine ⟨progress, h.beside reachable passes length (by simp [Happening.task?]) ?_⟩
              simp only [World.step] at stepped
              split at stepped
              · cases stepped
              · obtain ⟨d, -, rfl⟩ := Option.map_eq_some_iff.mp stepped
                exact h.put ..
          | task t =>
              simp only [World.step] at stepped
              split at stepped
              · rename_i job here
                obtain ⟨⟨w'', task⟩, step, rfl⟩ := Option.map_eq_some_iff.mp stepped
                by_cases first : t = 0
                · subst first
                  obtain ⟨rest, tasks, -⟩ := h.tasks
                  rw [tasks] at here
                  cases here
                  exact h.turn step reachable length
                · refine ⟨progress, h.beside reachable passes length ?_ (h.works first here step)⟩
                  simpa [Happening.task?] using first
              · cases stepped

/-- A connection is started, and the processor is told. -/
theorem accept (h : w.Staffed progress) {opening : Session.Opening}
    {setup : Setup} (given : Session.setup opening = .ok setup)
    (uses : setup.delivery = .deferred 0) :
    ((w.start setup).modifyQueue 0 .announce).Staffed progress := by
  obtain ⟨q, queue⟩ := h.queue
  have reachable : ((w.start setup).modifyQueue 0 .announce).Reachable := by
    have performed := (h.reachable.perform (.start opening)).perform (.announce 0)
    simp only [World.perform, given] at performed
    exact performed
  have told (q' : WorkQueue)
      (there : ((w.start setup).modifyQueue 0 .announce).queues[0]? = some q') :
      q'.arrived = true := by
    change ((w.start setup).queues.modify 0 .announce)[0]? = some q' at there
    rw [List.getElem?_modify_eq] at there
    obtain ⟨q, -, rfl⟩ := Option.map_eq_some_iff.mp there
    rfl
  refine ⟨reachable, ?_, ?_, ?_, ?_⟩
  · have bound := (List.getElem?_eq_some_iff.mp queue).1
    have length : ((w.start setup).modifyQueue 0 .announce).queues.length = w.queues.length := by
      rw [World.start, queues_modifyQueueOf]
      exact (List.length_modify ..).trans (length_queuesOf ..)
    rw [← length] at bound
    exact ⟨_, List.getElem?_eq_getElem bound⟩
  · intro i c there
    change (w.start setup).conns[i]? = some c at there
    rw [conns_start] at there
    rcases List.mem_append.mp (List.mem_of_getElem? there) with old | fresh
    · obtain ⟨j, here⟩ := List.getElem?_of_mem old
      exact h.uses j c here
    · rw [List.mem_singleton.mp fresh]
      exact uses
  · have tasks : ((w.start setup).modifyQueue 0 .announce).tasks = w.tasks := by
      rw [World.start, queues_modifyQueueOf]
      rfl
    rw [tasks]
    exact h.tasks
  · intro _ q' there quiet
    rw [told q' there] at quiet
    cases quiet

end Staffed

end World

end PacketWire
