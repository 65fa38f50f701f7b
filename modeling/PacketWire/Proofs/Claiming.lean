import PacketWire.Proofs.ConnectionStep

/-!
# One claimant for each work queue

A task has claimed a work queue from when it found it free until it releases it. `Manned` says that
the mark on a work queue is set exactly as long as there is such a task, and then there is one.
-/

namespace PacketWire

/-- A task that has claimed this work queue. -/
def Task.claims (k : Nat) : Task → Bool
  | .running (.process j _ .looking) => j = k
  | .running (.process j _ .waiting) => j = k
  | .running (.process j _ (.suspended _)) => j = k
  | _ => false

/-- What a job is about, which stays the same until it is over. -/
inductive Job.Kind where
  | errands
  | collect (conn : Nat)
  | process (queue : Nat) (resident : Bool)

def Job.kind : Job → Job.Kind
  | .errands .. => .errands
  | .collect conn _ => .collect conn
  | .process queue resident _ => .process queue resident

theorem Job.eq_process_of_kind {job : Job} {k : Nat} {resident : Bool}
    (kind : job.kind = .process k resident) : ∃ progress, job = .process k resident progress := by
  cases job <;> cases kind
  exact ⟨_, rfl⟩

namespace WorkQueue

theorem claimed_settleAll (i : Nat) (entries : List Entry) (q : WorkQueue) :
    (entries.foldl (settle i) q).claimed = q.claimed := by
  induction entries generalizing q with
  | nil => rfl
  | cons entry entries ih =>
      rw [List.foldl_cons, ih]
      cases entry <;> rfl

end WorkQueue

namespace World

open Connection

/-- Whether a work queue is there and claimed. -/
def isClaimed (k : Nat) (w : World) : Bool :=
  w.queues[k]?.any (·.claimed)

structure Manned (w : World) : Prop where
  /-- There are as many claimants as the mark says. -/
  single : ∀ k, w.tasks.countP (Task.claims k) = (w.isClaimed k).toNat
  /-- The connection whose close a claimant waits for is one of its work queue. -/
  serves : ∀ k resident s, .running (.process k resident (.suspended s)) ∈ w.tasks →
    ∃ c, w.conns[s.conn]? = some c ∧ c.delivery = .deferred k

variable {w w' : World} {job : Job} {task : Task}

theorem kind_errandsStep {todo : List Errand} {wait : Option CloseWait} {next : Job}
    (step : w.errandsStep wait todo = some (w', .running next)) : next.kind = .errands := by
  cases todo with
  | nil => cases step
  | cons errand todo =>
      simp only [errandsStep] at step
      split at step
      · cases step
        rfl
      · split at step
        · cases step
        · cases step
          rfl
        · split at step <;> cases step
          rfl

theorem kind_collectStep {i : Nat} {progress : Collecting} {next : Job}
    (step : w.collectStep i progress = some (w', .running next)) : next.kind = .collect i := by
  cases progress with
  | starting =>
      simp only [collectStep] at step
      split at step <;> cases step
      rfl
  | dispatching todo got =>
      cases todo with
      | nil => cases step
      | cons unit todo =>
          simp only [collectStep] at step
          split at step <;> cases step <;> rfl
  | suspended s todo got =>
      simp only [collectStep] at step
      split at step <;> cases step <;> rfl

theorem kind_lookForWork {j : Nat} {resident : Bool} {q : WorkQueue} {next : Job}
    (looked : w.lookForWork j resident q = (w', .running next)) :
    next.kind = .process j resident := by
  rw [lookForWork] at looked
  split at looked
  · cases looked
    rfl
  · split at looked
    · cases resident <;> cases looked
      rfl
    · cases looked
      rfl

theorem kind_processStep {j : Nat} {resident : Bool} {q : WorkQueue} {progress : Processing}
    {next : Job} (step : w.processStep j resident q progress = some (w', .running next)) :
    next.kind = .process j resident := by
  cases progress with
  | claiming =>
      simp only [processStep] at step
      split at step <;> cases step
      rfl
  | looking => exact kind_lookForWork (Option.some.inj step)
  | waiting =>
      simp only [processStep] at step
      split at step
      · exact kind_lookForWork (Option.some.inj step)
      · cases step
  | suspended s =>
      simp only [processStep, Option.map_eq_some_iff, Prod.mk.injEq] at step
      obtain ⟨_, _, _, eq⟩ := step
      cases eq
      rfl
  | awaitingPeer =>
      simp only [processStep] at step
      split at step <;> cases step
      rfl

/-- A job stays what it is until it is over. -/
theorem kind_jobStep {next : Job} (step : w.jobStep job = some (w', .running next)) :
    next.kind = job.kind := by
  cases job with
  | errands todo wait => exact kind_errandsStep step
  | collect i progress => exact kind_collectStep step
  | process j resident progress =>
      simp only [jobStep] at step
      split at step
      · cases step
      · exact kind_processStep step

theorem isClaimed_modifyQueue (k j : Nat) (f : WorkQueue → WorkQueue) (w : World) :
    (w.modifyQueue k f).isClaimed j =
      w.queues[j]?.any fun q => if k = j then (f q).claimed else q.claimed := by
  simp only [isClaimed, modifyQueue, List.getElem?_modify]
  cases w.queues[j]? with
  | none => rfl
  | some q =>
      simp only [Option.map_eq_map, Option.map_some, Option.any_some]
      split <;> rfl

theorem isClaimed_modifyQueue_of_eq {k : Nat} {f : WorkQueue → WorkQueue}
    (same : ∀ q, w.queues[k]? = some q → (f q).claimed = q.claimed) (j : Nat) :
    (w.modifyQueue k f).isClaimed j = w.isClaimed j := by
  rw [isClaimed_modifyQueue, isClaimed]
  cases there : w.queues[j]? with
  | none => rfl
  | some q =>
      simp only [Option.any_some]
      split
      · rename_i eq
        subst eq
        exact same q there
      · rfl

/-- What a connection did is of no consequence to a claim. -/
theorem isClaimed_put (i k : Nat) (before after : Connection) (w : World) :
    (w.put i before after).isClaimed k = w.isClaimed k := by
  obtain ⟨conns, count, trace, eq, -⟩ := put_eq i before after w
  rw [eq]
  simp only [isClaimed, getElem?_queuesOf]
  cases w.queues[k]? with
  | none => rfl
  | some q =>
      simp only [Option.map_some, Option.any_some]
      split
      · exact WorkQueue.claimed_settleAll i _ q
      · rfl

theorem isClaimed_dispatchUnit {unit : WorkUnit} {s : Option Suspension}
    (dispatched : w.dispatchUnit unit = (w', s)) (k : Nat) : w'.isClaimed k = w.isClaimed k := by
  rw [dispatchUnit] at dispatched
  split at dispatched <;> cases dispatched
  · rfl
  · exact isClaimed_put ..

theorem isClaimed_resume {s : Suspension} {s' : Option Suspension}
    (resumed : w.resume s = some (w', s')) (k : Nat) : w'.isClaimed k = w.isClaimed k := by
  rw [resume] at resumed
  split at resumed
  · cases resumed
    rfl
  · split at resumed
    · split at resumed <;> cases resumed <;> exact isClaimed_put ..
    · cases resumed

/-- What a stretch of a task does about the claim on a work queue. -/
inductive Marks (k : Nat) (w w' : World) (before after : Task) : Prop
  | keeps : w'.isClaimed k = w.isClaimed k → after.claims k = before.claims k →
      Marks k w w' before after
  | claims : w.isClaimed k = false → w'.isClaimed k = true → before.claims k = false →
      after.claims k = true → Marks k w w' before after
  | releases : w'.isClaimed k = false → before.claims k = true → after.claims k = false →
      Marks k w w' before after

/-- The mark on a work queue changes with what the task claims. -/
theorem Marks.level {k : Nat} {before after : Task} (marks : Marks k w w' before after)
    (known : before.claims k = true → w.isClaimed k = true) :
    (w'.isClaimed k).toNat + (before.claims k).toNat =
      (w.isClaimed k).toNat + (after.claims k).toNat := by
  cases marks with
  | keeps same claims => rw [same, claims]
  | claims was is idle claims => simp [was, is, idle, claims]
  | releases isnt claims gone => simp [known claims, isnt, claims, gone]

theorem marks_errandsStep {todo : List Errand} {wait : Option CloseWait}
    (step : w.errandsStep wait todo = some (w', task)) (k : Nat) :
    Marks k w w' (.running (.errands todo wait)) task := by
  cases todo with
  | nil =>
      cases step
      exact .keeps rfl rfl
  | cons errand todo =>
      simp only [errandsStep] at step
      split at step
      · cases step
        exact .keeps rfl rfl
      · split at step
        · cases step
        · cases step
          exact .keeps (isClaimed_put ..) rfl
        · split at step <;> cases step <;> exact .keeps (isClaimed_put ..) rfl

theorem marks_collectStep {i : Nat} {progress : Collecting}
    (step : w.collectStep i progress = some (w', task)) (k : Nat) :
    Marks k w w' (.running (.collect i progress)) task := by
  cases progress with
  | starting =>
      simp only [collectStep] at step
      split at step <;> cases step
      · exact .keeps rfl rfl
      · rename_i taken
        rw [takeUnits] at taken
        split at taken
        · cases taken
        · split at taken
          · cases taken
          · split at taken <;> cases taken
            rename_i j _ q queue
            refine .keeps (isClaimed_modifyQueue_of_eq (fun q' there => ?_) k) rfl
            obtain rfl : q' = q := Option.some.inj (there.symm.trans queue)
            rfl
  | dispatching todo got =>
      cases todo with
      | nil =>
          cases step
          exact .keeps rfl rfl
      | cons unit todo =>
          simp only [collectStep] at step
          split at step <;> cases step <;>
            exact .keeps (isClaimed_dispatchUnit (by assumption) k) rfl
  | suspended s todo got =>
      simp only [collectStep] at step
      split at step <;> cases step <;> exact .keeps (isClaimed_resume (by assumption) k) rfl

theorem claims_afterUnit (j k : Nat) (resident : Bool) (s : Option Suspension) :
    (Task.running (.process j resident (afterUnit s))).claims k = decide (j = k) := by
  cases s <;> rfl

/-- A claimant that looks for work, after a change of the flags of its work queue. -/
theorem marks_lookForWork {v : World} {j : Nat} {f : WorkQueue → WorkQueue} {q : WorkQueue}
    {resident : Bool} {before : Task} (frame : v = w.modifyQueue j f)
    (queue : w.queues[j]? = some q) (same : (f q).claimed = q.claimed) {k : Nat}
    (claims : before.claims k = decide (j = k))
    (looked : v.lookForWork j resident (f q) = (w', task)) : Marks k w w' before task := by
  subst frame
  have still : (w.modifyQueue j f).isClaimed k = w.isClaimed k := by
    refine isClaimed_modifyQueue_of_eq (fun q' there => ?_) k
    obtain rfl : q' = q := Option.some.inj (there.symm.trans queue)
    exact same
  rw [lookForWork] at looked
  split at looked
  · rename_i unit units eq
    cases looked
    refine .keeps ?_ ((claims_afterUnit ..).trans claims.symm)
    refine (isClaimed_dispatchUnit rfl k).trans (Eq.trans ?_ still)
    refine isClaimed_modifyQueue_of_eq (fun _ _ => ?_) k
    rfl
  · split at looked <;> cases looked
    · have freed : (((w.modifyQueue j f).modifyQueue j .release).isClaimed k) =
          if j = k then false else w.isClaimed k := by
        rw [isClaimed_modifyQueue]
        split
        · cases (w.modifyQueue j f).queues[k]? <;> rfl
        · exact still
      have gone (task : Task) (none : task.claims k = false) :
          Marks k w ((w.modifyQueue j f).modifyQueue j .release) before task := by
        by_cases eq : j = k
        · subst eq
          rw [if_pos rfl] at freed
          exact .releases freed (claims.trans (decide_eq_true rfl)) none
        · rw [if_neg eq] at freed
          exact .keeps freed (none.trans (claims.trans (decide_eq_false eq)).symm)
      cases resident <;> exact gone _ rfl
    · exact .keeps still claims.symm

theorem marks_processStep {j : Nat} {q : WorkQueue} {resident : Bool} {progress : Processing}
    (queue : w.queues[j]? = some q)
    (step : w.processStep j resident q progress = some (w', task)) (k : Nat) :
    Marks k w w' (.running (.process j resident progress)) task := by
  cases progress with
  | claiming =>
      simp only [processStep] at step
      split at step <;> cases step
      · exact .keeps rfl rfl
      · rename_i free
        by_cases eq : j = k
        · subst eq
          refine .claims ?_ ?_ rfl (decide_eq_true rfl)
          · rw [isClaimed, queue]
            simpa using free
          · rw [isClaimed_modifyQueue, queue]
            simp
        · refine .keeps ?_ (decide_eq_false eq)
          rw [isClaimed_modifyQueue]
          simp only [if_neg eq]
          rfl
  | looking =>
      simp only [processStep, Option.some.injEq] at step
      exact marks_lookForWork (modifyQueue_id j w).symm queue rfl rfl step
  | waiting =>
      simp only [processStep] at step
      split at step
      · simp only [Option.some.injEq] at step
        exact marks_lookForWork rfl queue rfl rfl step
      · cases step
  | suspended s =>
      simp only [processStep, Option.map_eq_some_iff, Prod.exists, Prod.mk.injEq] at step
      obtain ⟨w'', suspension, resumed, rfl, rfl⟩ := step
      exact .keeps (isClaimed_resume resumed k) (claims_afterUnit ..)
  | awaitingPeer =>
      simp only [processStep] at step
      split at step <;> cases step
      refine .keeps (isClaimed_modifyQueue_of_eq (fun _ _ => ?_) k) rfl
      rfl

theorem claims_process (j k : Nat) (resident : Bool) (progress : Processing)
    (claims : (Task.running (.process j resident progress)).claims k = true) : j = k := by
  cases progress with
  | looking | waiting | suspended => exact of_decide_eq_true claims
  | claiming | awaitingPeer => cases claims

/-- A stretch of a task whose claim, if it has one, the work queue knows of. -/
theorem marks_jobStep {k : Nat} (step : w.jobStep job = some (w', task))
    (known : (Task.running job).claims k = true → w.isClaimed k = true) :
    Marks k w w' (.running job) task := by
  cases job with
  | errands todo wait => exact marks_errandsStep step k
  | collect i progress => exact marks_collectStep step k
  | process j resident progress =>
      simp only [jobStep] at step
      split at step
      · rename_i absent
        cases step
        refine .keeps rfl ?_
        cases claims : (Task.running (.process j resident progress)).claims k with
        | false => rfl
        | true =>
            obtain rfl := claims_process j k resident progress claims
            have claimed := known claims
            simp [isClaimed, absent] at claimed
      · rename_i q queue
        exact marks_processStep queue step k

/-! ### Who a claimant waits for -/

theorem conn_of_dispatchUnit {unit : WorkUnit} {s : Suspension}
    (dispatched : w.dispatchUnit unit = (w', some s)) : s.conn = unit.conn := by
  rw [dispatchUnit] at dispatched
  split at dispatched
  · cases dispatched
  · simp only [Prod.mk.injEq, Option.map_eq_some_iff] at dispatched
    obtain ⟨-, _, -, rfl⟩ := dispatched
    rfl

/-- A hand-over that has to wait again waits for the same connection, to show the same packet. -/
theorem conn_of_resume {s s' : Suspension} (resumed : w.resume s = some (w', some s')) :
    s'.conn = s.conn ∧ s'.packet = s.packet := by
  rw [resume] at resumed
  split at resumed
  · cases resumed
  · split at resumed
    · split at resumed <;> cases resumed
      exact ⟨rfl, rfl⟩
    · cases resumed

/-- Whom a claimant serves that looked for work. -/
theorem conn_of_lookForWork {j : Nat} {resident : Bool} {q : WorkQueue} {k : Nat} {r : Bool}
    {s : Suspension}
    (looked : w.lookForWork j resident q = (w', .running (.process k r (.suspended s)))) :
    j = k ∧ ∃ unit ∈ q.units, s.conn = unit.conn := by
  rw [lookForWork] at looked
  split at looked
  · rename_i unit units eq
    generalize dispatched :
      (w.modifyQueue j ({ · with units })).dispatchUnit unit = result at looked
    obtain ⟨w'', _ | suspension⟩ := result <;> cases looked
    exact ⟨rfl, unit, eq ▸ List.mem_cons_self, conn_of_dispatchUnit dispatched⟩
  · split at looked
    · cases resident <;> cases looked
    · cases looked

theorem conn_of_processStep {j : Nat} {resident : Bool} {q : WorkQueue} {progress : Processing}
    {k : Nat} {r : Bool} {s : Suspension}
    (step : w.processStep j resident q progress =
      some (w', .running (.process k r (.suspended s)))) :
    j = k ∧ ((∃ unit ∈ q.units, s.conn = unit.conn) ∨
      ∃ s', progress = .suspended s' ∧ s.conn = s'.conn) := by
  cases progress with
  | claiming =>
      simp only [processStep] at step
      split at step <;> cases step
  | looking =>
      simp only [processStep, Option.some.injEq] at step
      obtain ⟨same, served⟩ := conn_of_lookForWork step
      exact ⟨same, .inl served⟩
  | waiting =>
      simp only [processStep] at step
      split at step
      · simp only [Option.some.injEq] at step
        obtain ⟨same, served⟩ := conn_of_lookForWork step
        exact ⟨same, .inl served⟩
      · cases step
  | suspended s' =>
      simp only [processStep, Option.map_eq_some_iff, Prod.exists, Prod.mk.injEq] at step
      obtain ⟨w'', _ | suspension, resumed, rfl, eq⟩ := step <;> cases eq
      exact ⟨rfl, .inr ⟨s', rfl, (conn_of_resume resumed).1⟩⟩
  | awaitingPeer =>
      simp only [processStep] at step
      split at step <;> cases step

namespace Manned

/-- Whoever claims a work queue is known to it, and so the queue is there. -/
theorem isClaimed (h : w.Manned) {t k : Nat} (here : w.tasks[t]? = some task)
    (claims : task.claims k = true) : w.isClaimed k = true := by
  have single := h.single k
  have some : 0 < w.tasks.countP (Task.claims k) :=
    List.countP_pos_iff.mpr ⟨task, List.mem_of_getElem? here, claims⟩
  cases claimed : w.isClaimed k with
  | true => rfl
  | false =>
      rw [claimed, Bool.toNat_false] at single
      omega

/-- Nothing happens to claims, and the tasks that are new have none. -/
theorem more (h : w.Manned) (queues : ∀ k, w'.isClaimed k = w.isClaimed k) {new : List Task}
    (tasks : w'.tasks = w.tasks ++ new) (free : ∀ task ∈ new, ∀ k, task.claims k = false)
    (later : Later w w') : w'.Manned where
  single := by
    intro k
    have none : new.countP (Task.claims k) = 0 :=
      List.countP_eq_zero.mpr fun task member => by simp [free task member k]
    rw [tasks, queues, List.countP_append, none, Nat.add_zero]
    exact h.single k
  serves := by
    intro k resident s member
    rw [tasks] at member
    rcases List.mem_append.mp member with old | fresh
    · obtain ⟨c, here, deferred⟩ := h.serves k resident s old
      obtain ⟨d, there, later⟩ := later _ c here
      exact ⟨d, there, later.settings.2.2.trans deferred⟩
    · have free := free _ fresh k
      simp [Task.claims] at free

theorem of_eq (h : w.Manned) (queues : ∀ k, w'.isClaimed k = w.isClaimed k)
    (tasks : w'.tasks = w.tasks) (later : Later w w') : w'.Manned :=
  h.more queues (tasks.trans (List.append_nil _).symm) (fun _ member => by cases member) later

/-- One task goes on, and others may be new. The mark changes with what the task claims. -/
theorem set (h : w.Manned) {t : Nat} (here : w.tasks[t]? = some (.running job)) {new : List Task}
    (tasks : w'.tasks = w.tasks ++ new) (free : ∀ task ∈ new, ∀ k, task.claims k = false)
    (level : ∀ k, (w'.isClaimed k).toNat + ((Task.running job).claims k).toNat =
      (w.isClaimed k).toNat + (task.claims k).toNat) (later : Later w w')
    (serves : ∀ k resident s, task = .running (.process k resident (.suspended s)) →
      ∃ c, w.conns[s.conn]? = some c ∧ c.delivery = .deferred k) :
    Manned { w' with tasks := w'.tasks.set t task } where
  single := by
    intro k
    obtain ⟨bound, get⟩ := List.getElem?_eq_some_iff.mp here
    have none : new.countP (Task.claims k) = 0 :=
      List.countP_eq_zero.mpr fun task member => by simp [free task member k]
    have single := h.single k
    have level := level k
    have mine : (w.tasks.set t task).countP (Task.claims k) = w.tasks.countP (Task.claims k) -
        ((Task.running job).claims k).toNat + (task.claims k).toNat := by
      rw [List.countP_set bound, get]
      cases (Task.running job).claims k <;> cases task.claims k <;> rfl
    have counted : ((Task.running job).claims k).toNat ≤ w.tasks.countP (Task.claims k) := by
      cases claims : (Task.running job).claims k with
      | false => exact Nat.zero_le _
      | true => exact List.countP_pos_iff.mpr ⟨_, List.mem_of_getElem? here, claims⟩
    change (w'.tasks.set t task).countP _ = (w'.isClaimed k).toNat
    rw [tasks, List.set_append_left _ _ bound, List.countP_append, none, mine]
    omega
  serves := by
    have kept {k : Nat} {s : Suspension}
        (before : ∃ c, w.conns[s.conn]? = some c ∧ c.delivery = .deferred k) :
        ∃ c, w'.conns[s.conn]? = some c ∧ c.delivery = .deferred k := by
      obtain ⟨c, here, deferred⟩ := before
      obtain ⟨d, there, later⟩ := later _ c here
      exact ⟨d, there, later.settings.2.2.trans deferred⟩
    intro k resident s member
    rcases List.mem_or_eq_of_mem_set member with old | rfl
    · rw [tasks] at old
      rcases List.mem_append.mp old with old | fresh
      · exact kept (h.serves k resident s old)
      · have free := free _ fresh k
        simp [Task.claims] at free
    · exact kept (serves k resident s rfl)

/-- A claimant serves connections of its work queue. -/
theorem serves_jobStep (h : w.Manned) (booked : w.Booked) {t : Nat}
    (here : w.tasks[t]? = some (.running job)) {k : Nat} {resident : Bool} {s : Suspension}
    (step : w.jobStep job = some (w', .running (.process k resident (.suspended s)))) :
    ∃ c, w.conns[s.conn]? = some c ∧ c.delivery = .deferred k := by
  obtain ⟨progress, rfl⟩ := Job.eq_process_of_kind (kind_jobStep step).symm
  simp only [jobStep] at step
  split at step
  · cases step
  · rename_i q queue
    obtain ⟨-, ⟨unit, queued, conn⟩ | ⟨s', rfl, conn⟩⟩ := conn_of_processStep step
    · obtain ⟨c, there, deferred, -⟩ := booked.queued k q queue unit queued
      exact ⟨c, conn ▸ there, deferred⟩
    · rw [conn]
      exact h.serves k _ s' (List.mem_of_getElem? here)

theorem passes {ran : Option Nat} (h : w.Manned) (valid : w.Valid) (passes : Passes w ran w') :
    w'.Manned := by
  have later := (valid.passes passes).2
  cases passes with
  | idle => exact h.of_eq (fun _ => rfl) rfl later
  | announces queue =>
      refine h.of_eq (fun k => isClaimed_modifyQueue_of_eq (fun _ _ => ?_) k) rfl later
      rfl
  | @alone i c d here alone =>
      obtain ⟨count, tasks⟩ := (put_spec (w := w) (i := i)
        (Connection.Later.of_changes (alone.changes (valid.conns i c here))).journal).tasks
      refine h.more (isClaimed_put i · c d w) tasks (fun task member k => ?_) later
      rw [List.eq_of_mem_replicate member]
      rfl
  | @works t job w'' task here step =>
      obtain ⟨count, i, tasks⟩ := tasks_of_jobStep valid here step
      refine h.set here tasks (fun task member k => ?_) (fun k => ?_) later
        fun k resident s eq => ?_
      · rw [List.eq_of_mem_replicate member]
        rfl
      · exact (marks_jobStep step (h.isClaimed here)).level (h.isClaimed here)
      · subst eq
        exact h.serves_jobStep valid.booked here step
  | tended => exact h.of_eq (fun _ => rfl) rfl later
  | @starts setup =>
      refine h.of_eq (fun k => ?_) ?_ later
      · rw [World.start, queues_modifyQueueOf, World.isClaimed, getElem?_queuesOf, World.isClaimed]
        cases w.queues[k]? with
        | none => rfl
        | some q =>
            simp only [Option.map_some, Option.any_some]
            split <;> rfl
      · rw [World.start, queues_modifyQueueOf]
  | @begins task fresh =>
      refine h.more (fun _ => rfl) rfl (fun other member k => ?_) later
      obtain rfl := List.mem_singleton.mp member
      cases fresh <;> rfl

/-- A claim is released with the task that is given up. -/
theorem abort (h : w.Manned) (t : Nat) : (w.abort t).Manned := by
  rw [World.abort]
  split
  · rename_i job here
    have dropped (kept : ∀ k, (Task.running job).claims k = false) :
        Manned { w with tasks := w.tasks.set t (.ended .aborted) } :=
      h.set here (List.append_nil _).symm (fun _ member => by cases member)
        (fun k => by rw [kept k]; rfl) (.refl w) fun _ _ _ eq => by cases eq
    have released {j : Nat} (mine : ∀ k, (Task.running job).claims k = decide (j = k)) :
        Manned { w.modifyQueue j .release with tasks := w.tasks.set t (.ended .aborted) } := by
      have tasks : (w.modifyQueue j .release).tasks = w.tasks ++ [] := (List.append_nil _).symm
      refine h.set here tasks (fun _ member => by cases member) (fun k => ?_) (.refl w)
        fun _ _ _ eq => by cases eq
      rw [isClaimed_modifyQueue, mine k]
      by_cases same : j = k
      · subst same
        have claimed := h.isClaimed here ((mine j).trans (decide_eq_true rfl))
        rw [claimed]
        cases w.queues[j]? <;> simp [WorkQueue.release, Task.claims]
      · simp [same, Task.claims, World.isClaimed]
    cases job with
    | errands | collect => exact dropped fun _ => rfl
    | process j resident progress =>
        cases progress with
        | claiming | awaitingPeer => exact dropped fun _ => rfl
        | looking | waiting | suspended => exact released fun _ => rfl
  · exact h

end Manned

theorem manned_empty (queues : Nat) (wires : List (Nat × Nat)) :
    Manned { empty queues with wires } where
  single := by
    intro k
    have free : isClaimed k { empty queues with wires } = false := by
      cases there : (List.replicate queues WorkQueue.empty)[k]? with
      | none => simp [isClaimed, empty, there]
      | some q =>
          rw [isClaimed, empty, there, List.eq_of_mem_replicate (List.mem_of_getElem? there)]
          rfl
    rw [free]
    rfl
  serves := by
    intro k resident s member
    cases member

theorem Reachable.manned (h : w.Reachable) : w.Manned := by
  induction h with
  | empty queues wires => exact manned_empty queues wires
  | @perform w h happening ih =>
      cases happening with
      | abort k => exact ih.abort k
      | _ => exact ih.passes h.valid (passes_perform fun k => by simp)

end World

end PacketWire
