import PacketWire.Proofs.Turns

/-!
# Nobody but claimants

Where nobody collects packets for a single connection, units leave a work queue through its
claimant alone. While a claimant waits for a close it takes nothing, and nobody else does; so it
takes its turns for all connections of the work queue together.
-/

namespace PacketWire

/-- A task that takes the queued packets of one connection. -/
def Task.collects : Task → Bool
  | .running (.collect ..) => true
  | _ => false

namespace World

open Connection

variable {w w' : World} {job : Job} {task : Task}

def CollectsNothing (w : World) : Prop :=
  ∀ task ∈ w.tasks, task.collects = false

theorem collects_jobStep (step : w.jobStep job = some (w', task))
    (before : (Task.running job).collects = false) : task.collects = false := by
  cases task with
  | ended outcome => rfl
  | running next =>
      cases next with
      | errands | process => rfl
      | collect i progress =>
          have kind := kind_jobStep step
          cases job with
          | collect => cases before
          | errands | process => cases kind

namespace CollectsNothing

theorem more (h : w.CollectsNothing) {new : List Task} (tasks : w'.tasks = w.tasks ++ new)
    (free : ∀ task ∈ new, task.collects = false) : w'.CollectsNothing := by
  intro task member
  rw [tasks] at member
  rcases List.mem_append.mp member with old | fresh
  · exact h task old
  · exact free task fresh

theorem put (h : w.CollectsNothing) (i : Nat) (c d : Connection) :
    (w.put i c d).CollectsNothing := by
  obtain ⟨conns, count, trace, eq, -⟩ := put_eq i c d w
  have tasks : (w.put i c d).tasks = w.tasks ++ List.replicate count (.close i) := by rw [eq]
  refine h.more tasks fun task member => ?_
  rw [List.eq_of_mem_replicate member]
  rfl

theorem step (h : w.CollectsNothing) (valid : w.Valid) {actor : Actor}
    (step : w.step actor = some w') : w'.CollectsNothing := by
  cases actor with
  | inbound i =>
      simp only [World.step] at step
      split at step
      · cases step
      · obtain ⟨d, -, rfl⟩ := Option.map_eq_some_iff.mp step
        exact h.put i _ d
  | outbound i =>
      simp only [World.step] at step
      split at step
      · cases step
      · obtain ⟨d, -, rfl⟩ := Option.map_eq_some_iff.mp step
        exact h.put i _ d
  | task t =>
      simp only [World.step] at step
      split at step
      · rename_i job here
        obtain ⟨⟨w'', task⟩, stepped, rfl⟩ := Option.map_eq_some_iff.mp step
        obtain ⟨count, i, tasks⟩ := tasks_of_jobStep valid here stepped
        intro other member
        rcases List.mem_or_eq_of_mem_set member with old | rfl
        · rw [tasks] at old
          rcases List.mem_append.mp old with old | fresh
          · exact h other old
          · rw [List.eq_of_mem_replicate fresh]
            rfl
        · exact collects_jobStep stepped (h _ (List.mem_of_getElem? here))
      · cases step

theorem perform (h : w.CollectsNothing) (valid : w.Valid) {happening : Happening}
    (goesOn : ∀ t, happening ≠ .abort t) (others : ∀ i, happening ≠ .collect i) :
    (w.perform happening).CollectsNothing := by
  have spawned (task : Task) (free : task.collects = false) : (w.spawn task).CollectsNothing :=
    h.more rfl fun other member => List.mem_singleton.mp member ▸ free
  cases happening with
  | run actor =>
      simp only [World.perform]
      cases stepped : w.step actor with
      | none => exact h
      | some w' => exact h.step valid stepped
  | start opening =>
      simp only [World.perform]
      split
      · rw [World.start, queues_modifyQueueOf]
        exact h
      · exact h
  | call i call =>
      simp only [World.perform, onConn]
      split
      · exact h
      · exact h.put i _ _
  | errands todo => exact spawned _ rfl
  | process k resident => exact spawned _ rfl
  | collect i => exact absurd rfl (others i)
  | abort t => exact absurd rfl (goesOn t)
  | pass | announce | transit | carry => exact h

theorem performAll (h : w.CollectsNothing) (valid : w.Valid) {happenings : List Happening}
    (goesOn : ∀ t, .abort t ∉ happenings) (others : ∀ i, .collect i ∉ happenings) :
    (w.performAll happenings).CollectsNothing := by
  induction happenings generalizing w with
  | nil => exact h
  | cons happening happenings ih =>
      have next := h.perform valid (fun t eq => goesOn t (eq ▸ List.mem_cons_self))
        fun i eq => others i (eq ▸ List.mem_cons_self)
      exact ih next (valid.perform happening).1
        (fun t member => goesOn t (List.mem_cons_of_mem _ member))
        fun i member => others i (List.mem_cons_of_mem _ member)

end CollectsNothing

theorem units_of_not_collects (free : task.collects = false) : task.units = [] := by
  unfold Task.units
  split <;> first | rfl | cases free

theorem suspension_of_not_collects {s : Suspension} (free : task.collects = false)
    (busy : task.suspension? = some s) :
    ∃ k resident, task = .running (.process k resident (.suspended s)) := by
  unfold Task.suspension? at busy
  split at busy <;> cases busy
  · cases free
  · exact ⟨_, _, rfl⟩

/-- A claimant that takes a unit of a group takes its turn. -/
theorem CollectsNothing.isFair (h : w.CollectsNothing) (valid : w.Valid) (manned : w.Manned)
    {g : Group} (fits : g.Fits w) {t : Nat} (place : w.tasks[t]? = some (.running job)) :
    g.IsFair w t job := by
  rintro ⟨i, belongs, draws⟩
  have never := h _ (List.mem_of_getElem? place)
  have mine {k : Nat} {c : Connection} (here : w.conns[i]? = some c)
      (uses : c.delivery = .deferred k) : k = g.queue := by
    simpa using uses.symm.trans (fits i c belongs here).1
  have served {k : Nat} {q : WorkQueue} {unit : WorkUnit} {units : List WorkUnit}
      (queue : w.queues[k]? = some q) (front : q.units = unit :: units) (conn : unit.conn = i) :
      k = g.queue := by
    obtain ⟨c, here, uses, -⟩ := valid.booked.queued k q queue unit
      (by rw [front]; exact List.mem_cons_self)
    exact mine (conn ▸ here) uses
  have claims : (Task.running job).claims g.queue = true := by
    cases job with
    | errands => cases draws
    | collect => cases never
    | process k resident progress =>
        cases progress with
        | looking =>
            obtain ⟨q, unit, units, queue, front, conn⟩ := draws
            exact decide_eq_true (served queue front conn)
        | waiting =>
            obtain ⟨q, unit, units, queue, -, front, conn⟩ := draws
            exact decide_eq_true (served queue front conn)
        | claiming | suspended | awaitingPeer => cases draws
  have single : w.tasks.countP (Task.claims g.queue) ≤ 1 := by
    rw [manned.single]
    exact Bool.toNat_le _
  refine ⟨fun u other there apart => ?_, fun j collects => ?_⟩
  · have idle := h other (List.mem_of_getElem? there)
    have due : other.suspension?.bind g.due = none := by
      cases busy : other.suspension? with
      | none => rfl
      | some s =>
          obtain ⟨k, resident, rfl⟩ := suspension_of_not_collects idle busy
          obtain ⟨c, here, uses⟩ := manned.serves k resident s (List.mem_of_getElem? there)
          rw [Option.bind_some, Group.due, if_neg]
          -- a second claimant of the same work queue there is not
          intro member
          have same : k = g.queue := by simpa using uses.symm.trans (fits s.conn c member here).1
          exact apart (eq_of_countP_le_one single there place (decide_eq_true same) claims)
    rw [Group.hand, units_of_not_collects idle, due]
    rfl
  · subst collects
    cases never

/-- Where nobody collects anything in a run, everything is taken in turn. -/
theorem CollectsNothing.takesTurns (h : w.CollectsNothing) (reached : w.Reachable)
    {happenings : List Happening} (goesOn : ∀ t, .abort t ∉ happenings)
    (others : ∀ i, .collect i ∉ happenings) {g : Group}
    (fits : g.Fits (w.performAll happenings)) : g.TakesTurns w happenings := by
  induction happenings generalizing w with
  | nil => trivial
  | cons happening happenings ih =>
      have next := reached.perform happening
      have rest := fun t member => goesOn t (List.mem_cons_of_mem _ member)
      refine ⟨fun t job _ place => ?_, ih ?_ next rest ?_ fits⟩
      · exact h.isFair reached.valid reached.manned
          (fits.of_later (reached.valid.performAll (happening :: happenings)).2) place
      · exact h.perform reached.valid (fun t eq => goesOn t (eq ▸ List.mem_cons_self))
          fun i eq => others i (eq ▸ List.mem_cons_self)
      · exact fun i member => others i (List.mem_cons_of_mem _ member)

end World

end PacketWire
