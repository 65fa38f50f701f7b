import PacketWire.Proofs.Claiming
import PacketWire.Proofs.EventHandling
import PacketWire.Proofs.Handover

/-!
# What drainers do

A claimant of a work queue and a caller that collects the packets of one connection both take units
out of work queues and hand them on. `Drains` sorts the stretches of all tasks by what they do
with units: nothing, taking them, handing one on, out of the hand or straight out of the queue, or
going on with a hand-over that has to wait for a close.
-/

namespace PacketWire

namespace Task

/-- The hand-over that a task goes on with. -/
def suspension? : Task → Option Suspension
  | running (.collect _ (.suspended s _ _)) => some s
  | running (.process _ _ (.suspended s)) => some s
  | _ => none

/-- A task that has nothing to hand on. -/
structure IsEmptyHanded (task : Task) : Prop where
  units : task.units = []
  suspension : task.suspension? = none

theorem isEmptyHanded_of_isFresh {task : Task} (fresh : task.IsFresh) : task.IsEmptyHanded := by
  cases fresh <;> exact ⟨rfl, rfl⟩

end Task

namespace World

open Connection

/-- The next stretch of a job takes units of this connection out of a work queue. -/
def Draws (w : World) (i : Nat) : Job → Prop
  | .collect j .starting => j = i ∧ ∃ q ∈ w.queues, ∃ unit ∈ q.units, unit.conn = i
  | .process k _ .looking => ∃ q unit units, w.queues[k]? = some q ∧ q.units = unit :: units ∧
      unit.conn = i
  | .process k _ .waiting => ∃ q unit units, w.queues[k]? = some q ∧ q.signalled = true ∧
      q.units = unit :: units ∧ unit.conn = i
  | _ => False

inductive Drains (w : World) (job : Job) : World → Task → Prop
  | waits {k : Nat} {f : WorkQueue → WorkQueue} {task : Task} :
      (∀ q, w.queues[k]? = some q → (f q).units = q.units) →
      (Task.running job).IsEmptyHanded → task.IsEmptyHanded →
      Drains w job (w.modifyQueue k f) task
  | errand {errand : Errand} {todo : List Errand} {wait left : Option CloseWait}
      {c d : Connection} {task : Task} : job = .errands (errand :: todo) wait →
      w.conns[errand.conn]? = some c → errandStep w.now c errand wait = some (d, left) →
      task.IsEmptyHanded → Drains w job (w.put errand.conn c d) task
  | takes {i k : Nat} {c : Connection} {q : WorkQueue} {task : Task} : w.conns[i]? = some c →
      c.delivery = .deferred k → w.queues[k]? = some q → job = .collect i .starting →
      task.units = (q.takeFor i).1 → task.suspension? = none →
      Drains w job (w.modifyQueue k fun _ => (q.takeFor i).2) task
  | hands {unit : WorkUnit} {w' : World} {s : Option Suspension} {task : Task} :
      (Task.running job).units = unit :: task.units → (Task.running job).suspension? = none →
      w.dispatchUnit unit = (w', s) → task.suspension? = s → Drains w job w' task
  | pops {k : Nat} {f : WorkQueue → WorkQueue} {q : WorkQueue} {unit : WorkUnit} {w' : World}
      {s : Option Suspension} {task : Task} : w.queues[k]? = some q →
      q.units = unit :: (f q).units → w.Draws unit.conn job → (Task.running job).IsEmptyHanded →
      (w.modifyQueue k f).dispatchUnit unit = (w', s) → task.units = [] → task.suspension? = s →
      Drains w job w' task
  | resumes {s : Suspension} {s' : Option Suspension} {w' : World} {task : Task} :
      (Task.running job).suspension? = some s → w.resume s = some (w', s') →
      task.units = (Task.running job).units → task.suspension? = s' → Drains w job w' task

variable {w w' : World} {job : Job} {task : Task}

/-- Nothing happens but in the task. -/
theorem Drains.still (before : (Task.running job).IsEmptyHanded) (after : task.IsEmptyHanded) :
    Drains w job w task := by
  have drains : Drains w job (w.modifyQueue 0 fun q => q) task :=
    .waits (fun _ _ => rfl) before after
  rwa [modifyQueue_id] at drains

theorem isEmptyHanded_errands (todo : List Errand) (wait : Option CloseWait) :
    (Task.running (.errands todo wait)).IsEmptyHanded := ⟨rfl, rfl⟩

theorem drains_errandsStep {todo : List Errand} {wait : Option CloseWait}
    (step : w.errandsStep wait todo = some (w', task)) :
    Drains w (.errands todo wait) w' task := by
  have before := isEmptyHanded_errands todo wait
  cases todo with
  | nil =>
      cases step
      exact .still before ⟨rfl, rfl⟩
  | cons errand todo =>
      simp only [errandsStep] at step
      split at step
      · cases step
        exact .still before (isEmptyHanded_errands _ _)
      · rename_i c here
        split at step
        · cases step
        · rename_i d left stepped
          cases step
          exact .errand rfl here stepped (isEmptyHanded_errands _ _)
        · rename_i d stepped
          split at step <;> cases step
          · exact .errand rfl here stepped ⟨rfl, rfl⟩
          · exact .errand rfl here stepped (isEmptyHanded_errands _ _)

theorem units_takeFor (i : Nat) (q : WorkQueue) :
    (q.takeFor i).1 = q.units.filter (·.conn = i) ∧
      (q.takeFor i).2.units = q.units.filter (·.conn ≠ i) := by
  have parts := List.partition_eq_filter_filter (p := fun unit : WorkUnit => unit.conn = i)
    (l := q.units)
  simp only [WorkQueue.takeFor, parts]
  exact ⟨trivial, List.filter_congr fun unit _ => by simp⟩

theorem drains_takeUnits {i : Nat} {units : List WorkUnit}
    (taken : w.takeUnits i = some (units, w')) :
    Drains w (.collect i .starting) w' (.running (.collect i (.dispatching units []))) := by
  rw [takeUnits] at taken
  split at taken
  · cases taken
  · rename_i c here
    split at taken
    · cases taken
    · rename_i k deferred
      split at taken
      · cases taken
      · rename_i q queue
        cases taken
        exact .takes here deferred queue rfl rfl rfl

theorem drains_collectStep {i : Nat} {progress : Collecting}
    (step : w.collectStep i progress = some (w', task)) :
    Drains w (.collect i progress) w' task := by
  cases progress with
  | starting =>
      simp only [collectStep] at step
      split at step <;> cases step
      · exact .still ⟨rfl, rfl⟩ ⟨rfl, rfl⟩
      · rename_i taken
        exact drains_takeUnits taken
  | dispatching todo got =>
      cases todo with
      | nil =>
          cases step
          exact .still ⟨rfl, rfl⟩ ⟨rfl, rfl⟩
      | cons unit todo =>
          simp only [collectStep] at step
          split at step <;> cases step
          · rename_i dispatched
            exact .hands rfl rfl dispatched rfl
          · rename_i dispatched
            exact .hands rfl rfl dispatched rfl
  | suspended s todo got =>
      simp only [collectStep] at step
      split at step <;> cases step
      · rename_i resumed
        exact .resumes rfl resumed rfl rfl
      · rename_i resumed
        exact .resumes rfl resumed rfl rfl

theorem suspension?_afterUnit (k : Nat) (resident : Bool) (s : Option Suspension) :
    (Task.running (.process k resident (afterUnit s))).suspension? = s := by
  cases s <;> rfl

theorem units_process (k : Nat) (resident : Bool) (progress : Processing) :
    (Task.running (.process k resident progress)).units = [] := by
  cases progress <;> rfl

/-- A claimant that looks for work, after a change of the flags of its work queue. -/
theorem drains_lookForWork {k : Nat} {f : WorkQueue → WorkQueue} {q : WorkQueue} (resident : Bool)
    (queue : w.queues[k]? = some q) (same : (f q).units = q.units)
    (before : (Task.running job).IsEmptyHanded)
    (draws : ∀ unit units, q.units = unit :: units → w.Draws unit.conn job) :
    Drains w job ((w.modifyQueue k f).lookForWork k resident (f q)).1
      ((w.modifyQueue k f).lookForWork k resident (f q)).2 := by
  have again (g : WorkQueue → WorkQueue) :
      (w.modifyQueue k f).modifyQueue k g = w.modifyQueue k (g ∘ f) := by
    simp only [modifyQueue, List.modify_modify_eq]
  have keeps (g : WorkQueue → WorkQueue) (units : (g (f q)).units = (f q).units) (q' : WorkQueue)
      (there : w.queues[k]? = some q') : (g (f q')).units = q'.units := by
    obtain rfl : q' = q := Option.some.inj (there.symm.trans queue)
    exact units.trans same
  rw [lookForWork]
  split
  · rename_i unit units eq
    rw [again]
    have front := same ▸ eq
    exact .pops (f := ({ · with units }) ∘ f) queue front (draws unit units front) before
      rfl (units_process ..) (suspension?_afterUnit ..)
  · split
    · rw [again]
      refine .waits (keeps WorkQueue.release rfl) before ?_
      split <;> exact ⟨rfl, rfl⟩
    · exact .waits (keeps id rfl) before ⟨rfl, rfl⟩

theorem drains_processStep {k : Nat} {q : WorkQueue} {resident : Bool} {progress : Processing}
    (queue : w.queues[k]? = some q)
    (step : w.processStep k resident q progress = some (w', task)) :
    Drains w (.process k resident progress) w' task := by
  cases progress with
  | claiming =>
      simp only [processStep] at step
      split at step <;> cases step
      · exact .still ⟨rfl, rfl⟩ ⟨rfl, rfl⟩
      · exact .waits (fun _ _ => rfl) ⟨rfl, rfl⟩ ⟨rfl, rfl⟩
  | looking =>
      simp only [processStep, Option.some.injEq] at step
      have drains : Drains w (.process k resident .looking) _ _ :=
        drains_lookForWork (f := fun q => q) resident queue rfl ⟨rfl, rfl⟩
          fun unit units eq => ⟨q, unit, units, queue, eq, rfl⟩
      rwa [modifyQueue_id, step] at drains
  | waiting =>
      simp only [processStep] at step
      split at step
      · rename_i signalled
        simp only [Option.some.injEq] at step
        have drains : Drains w (.process k resident .waiting) _ _ :=
          drains_lookForWork (f := ({ · with signalled := false })) resident queue rfl ⟨rfl, rfl⟩
            fun unit units eq => ⟨q, unit, units, queue, signalled, eq, rfl⟩
        rwa [step] at drains
      · cases step
  | suspended s =>
      simp only [processStep, Option.map_eq_some_iff, Prod.exists, Prod.mk.injEq] at step
      obtain ⟨w'', suspension, resumed, rfl, rfl⟩ := step
      exact .resumes rfl resumed (units_process ..) (suspension?_afterUnit ..)
  | awaitingPeer =>
      simp only [processStep] at step
      split at step <;> cases step
      exact .waits (fun _ _ => rfl) ⟨rfl, rfl⟩ ⟨rfl, rfl⟩

/-- A stretch of a task whose claim, if it has one, the work queue knows of. -/
theorem drains_jobStep (step : w.jobStep job = some (w', task))
    (known : ∀ k, (Task.running job).claims k = true → w.isClaimed k = true) :
    Drains w job w' task := by
  cases job with
  | errands todo wait => exact drains_errandsStep step
  | collect i progress => exact drains_collectStep step
  | process k resident progress =>
      simp only [jobStep] at step
      split at step
      · rename_i absent
        cases step
        refine .still ⟨units_process .., ?_⟩ ⟨rfl, rfl⟩
        cases progress with
        | suspended s =>
            have claimed := known k (decide_eq_true rfl)
            simp [isClaimed, absent] at claimed
        | _ => rfl
      · rename_i q queue
        exact drains_processStep queue step

/-! ### What a hand-over does to the connection -/

theorem closing?_of_suspension? {s : Suspension} (busy : task.suspension? = some s) :
    task.closing? s.conn = some s.wait := by
  unfold Task.suspension? at busy
  split at busy <;> cases busy <;> exact if_pos rfl

/-- What a task waits for in a hand-over is a close of a connection that is closing. -/
theorem Valid.suspended (h : w.Valid) {t : Nat} (place : w.tasks[t]? = some task) {s : Suspension}
    (busy : task.suspension? = some s) :
    ∃ c, w.conns[s.conn]? = some c ∧ s.wait.Fits c := by
  have held : s.wait ∈ closers s.conn w.tasks :=
    List.mem_filterMap.mpr ⟨task, List.mem_of_getElem? place, closing?_of_suspension? busy⟩
  cases here : w.conns[s.conn]? with
  | some c => exact ⟨c, rfl, (h.conns s.conn c here).fits _ (List.mem_append_right _ held)⟩
  | none =>
      rw [h.booked.absent s.conn (List.getElem?_eq_none_iff.mp here)] at held
      cases held

/-- The calls that are due after a close. -/
def dueCalls (notifyControl : Bool) (s : Option Suspension) : List HookCall :=
  (s.map fun s => s.packet.controlCalls notifyControl).getD []

theorem put_of_dispatchUnit {unit : WorkUnit} {s : Option Suspension} {c : Connection}
    (dispatched : w.dispatchUnit unit = (w', s)) (here : w.conns[unit.conn]? = some c)
    (traced : .deferred unit.event ∈ c.journal) :
    ∃ d calls, w' = w.put unit.conn c d ∧ c.Later d ∧
      Leaves Entry.IsTalk (c.trail.heed c.isActive unit.event) d.trail ∧
      Hands c d [unit.event] calls ∧
      calls ++ dueCalls c.config.notifyControl s = unit.event.calls c.config.notifyControl := by
  have moves := (outcome_dispatch false w.now (.inr traced)).moves.changes
  have heeded := talks_dispatch false w.now unit.event c
  simp only [dispatchUnit, here] at dispatched
  generalize eq : c.dispatch false w.now unit.event = result at dispatched moves heeded
  obtain ⟨d, left⟩ := result
  cases dispatched
  obtain ⟨now, later⟩ := hands_dispatch eq
  cases left with
  | none => exact ⟨d, _, rfl, .of_changes moves, heeded, now rfl, List.append_nil _⟩
  | some left =>
      obtain ⟨hands, calls⟩ := later left.1 left.2 rfl
      exact ⟨d, [], rfl, .of_changes moves, heeded, hands, calls.symm⟩

theorem put_of_resume {s : Suspension} {s' : Option Suspension} {c : Connection}
    (resumed : w.resume s = some (w', s')) (here : w.conns[s.conn]? = some c)
    (fits : s.wait.Fits c) :
    ∃ d calls, w' = w.put s.conn c d ∧ c.Later d ∧ Talks c d ∧ Hands c d [] calls ∧
      calls ++ dueCalls c.config.notifyControl s' =
        s.packet.controlCalls c.config.notifyControl := by
  have closes := closes_proceedClose false w.now fits
  have idles := (passive_proceedClose false w.now s.wait c).idles
  have machinery := machinery_proceedClose false w.now s.wait c
  simp only [resume, here] at resumed
  generalize c.proceedClose false w.now s.wait = result at resumed closes idles machinery
  obtain ⟨d, left⟩ := result
  split at resumed
  · cases left with
    | some wait =>
        cases resumed
        exact ⟨d, [], rfl, .of_changes closes.moves.changes, idles.talks, idles.mute.hands, rfl⟩
    | none =>
        cases resumed
        have settings : d.config = c.config := congrArg Machinery.config machinery
        refine ⟨_, _, rfl, .of_changes (closes.showControl s.packet).moves.changes,
          idles.talks.trans (talks_showControl s.packet d), ?_, List.append_nil _⟩
        have hands := idles.mute.hands.trans (hands_showControl s.packet d)
        rwa [settings] at hands
  · cases resumed

end World

end PacketWire
