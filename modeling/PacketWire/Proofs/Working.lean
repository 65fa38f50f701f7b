import PacketWire.Proofs.Commencing
import PacketWire.Proofs.Drainers
import PacketWire.Proofs.Joining

/-!
# One stretch of a task, and the close that it is about

A task acts on at most one connection in a stretch. It begins a close there, by itself or by handing
on a close message, or it begins to wait for the loops, or it goes on with what it waits for. A
hand-over that has to wait is a close like any other, but for the packet that is shown behind it;
`Task.held?` takes the two together, and `Works` says what a stretch makes of it.
-/

namespace PacketWire

/-- The errand that a task is at, and what it waits for there; a hand-over that waits is a close. -/
def Task.held? (task : Task) : Option (Errand × CloseWait) :=
  task.errand?.or (task.suspension?.map fun s => (.close s.conn, s.wait))

namespace World

open Connection

/-- Somebody goes on with an errand of this connection that waits. -/
def Proceeds (now : Nat) (c : Connection) (errand : Errand) (wait : CloseWait) (d : Connection)
    (left : Option CloseWait) : Prop :=
  ∃ d', errandStep now c errand (some wait) = some (d', left) ∧
    (d = d' ∨ left = none ∧ ∃ packet, d = d'.showControl packet)

/-- What a stretch of a task is that holds this errand, and what it holds then. -/
inductive Works (w : World) (before : Option (Errand × CloseWait)) :
    World → Option (Errand × CloseWait) → Prop
  | idle {k : Nat} {f : WorkQueue → WorkQueue} : before = none →
      Works w before (w.modifyQueue k f) none
  | begins {k i : Nat} {f : WorkQueue → WorkQueue} {c d : Connection} {left : Option CloseWait} :
      before = none → w.conns[i]? = some c → Moves c d → d.inbound = c.inbound →
      Begins w.now c (d, left) →
      Works w before ((w.modifyQueue k f).put i c d) (left.map (.close i, ·))
  | joins {i : Nat} {c d : Connection} {left : Option CloseWait} :
      before = none → w.conns[i]? = some c →
      errandStep w.now c (.join i) none = some (d, left) →
      Works w before (w.put i c d) (left.map (.join i, ·))
  | goesOn {errand : Errand} {wait : CloseWait} {c d : Connection} {left : Option CloseWait} :
      before = some (errand, wait) → w.conns[errand.conn]? = some c →
      Proceeds w.now c errand wait d left →
      Works w before (w.put errand.conn c d) (left.map (errand, ·))

variable {w w' : World} {t : Nat} {job : Job} {task : Task}

theorem held?_of_errand?_eq_none (none : task.errand? = none) :
    task.held? = task.suspension?.map fun s => (.close s.conn, s.wait) := by
  rw [Task.held?, none, Option.none_or]

theorem held?_errands (errand : Errand) (todo : List Errand) (wait : Option CloseWait) :
    (Task.running (.errands (errand :: todo) wait)).held? = wait.map (errand, ·) := by
  cases wait <;> rfl

theorem held?_errands_none (todo : List Errand) :
    (Task.running (.errands todo none)).held? = none := by
  cases todo <;> rfl

theorem Works.still {before : Option (Errand × CloseWait)} (free : before = none) :
    Works w before w none := by
  have works : Works w before (w.modifyQueue 0 fun q => q) none := .idle free
  rwa [modifyQueue_id] at works

/-- What a task holds is an errand of a connection that is there. -/
theorem Reachable.exists_of_held? (reached : w.Reachable) (place : w.tasks[t]? = some task)
    {errand : Errand} {wait : CloseWait} (held : task.held? = some (errand, wait)) :
    ∃ c, w.conns[errand.conn]? = some c := by
  cases errand? : task.errand? with
  | some own =>
      rw [Task.held?, errand?, Option.some_or] at held
      cases held
      obtain ⟨c, here, -⟩ := reached.joined _ (List.mem_of_getElem? place) errand wait errand?
      exact ⟨c, here⟩
  | none =>
      rw [held?_of_errand?_eq_none errand?] at held
      obtain ⟨s, suspended, same⟩ := Option.map_eq_some_iff.mp held
      cases same
      obtain ⟨c, here, -⟩ := reached.valid.suspended place suspended
      exact ⟨c, here⟩

theorem works_errandsStep (reached : w.Reachable) {todo : List Errand} {wait : Option CloseWait}
    (place : w.tasks[t]? = some (.running (.errands todo wait)))
    (step : w.errandsStep wait todo = some (w', task)) :
    Works w (Task.running (.errands todo wait)).held? w' task.held? := by
  cases todo with
  | nil =>
      cases step
      exact .still rfl
  | cons errand todo =>
      have before := held?_errands errand todo wait
      simp only [errandsStep] at step
      split at step
      · rename_i absent
        cases step
        rw [held?_errands_none]
        refine .still ?_
        cases wait with
        | none => exact before
        | some wait =>
            obtain ⟨c, here⟩ := reached.exists_of_held? place before
            cases absent.symm.trans here
      · rename_i c here
        have works {d : Connection} {left : Option CloseWait}
            (stepped : errandStep w.now c errand wait = some (d, left)) :
            Works w (Task.running (.errands (errand :: todo) wait)).held?
              (w.put errand.conn c d) (left.map (errand, ·)) := by
          rw [before]
          cases wait with
          | some wait => exact .goesOn rfl here ⟨d, stepped, .inl rfl⟩
          | none =>
              cases errand with
              | join i => exact .joins rfl here stepped
              | close i =>
                  have begins := begins_close (reached.takesPackets here) false w.now
                    closedLocally true
                  have acts := acts_close w.now closedLocally c
                  rw [Option.some.inj stepped] at begins acts
                  have works := Works.begins (k := 0) (f := fun q => q) rfl here ?_ acts.inbound_eq
                    begins
                  · rwa [modifyQueue_id] at works
                  · cases acts with
                    | begins outcome => exact outcome.moves
        split at step
        · cases step
        · rename_i d left stepped
          cases step
          exact works stepped
        · rename_i d stepped
          have done := works stepped
          split at step <;> cases step
          · exact done
          · rwa [held?_errands_none]

/-- A unit is handed on by a task that held nothing. -/
theorem works_dispatchUnit (reached : w.Reachable) {k : Nat} {f : WorkQueue → WorkQueue}
    {unit : WorkUnit} {s : Option Suspension} {before : Option (Errand × CloseWait)}
    (free : before = none) (traced : w.Traces unit)
    (dispatched : (w.modifyQueue k f).dispatchUnit unit = (w', s)) :
    Works w before w' (s.map fun s => (.close s.conn, s.wait)) := by
  obtain ⟨c, here, deferred⟩ := traced
  have begins := begins_dispatch (reached.takesPackets here) false w.now unit.event
  have outcome := outcome_dispatch false w.now (.inr deferred)
  have machinery := machinery_dispatch false w.now unit.event c
  have place : (w.modifyQueue k f).conns[unit.conn]? = some c := here
  simp only [dispatchUnit, place] at dispatched
  cases dispatched
  have works : Works w before _ _ :=
    .begins (k := k) (f := f) free here outcome.moves (congrArg Machinery.inbound machinery) begins
  rw [Option.map_map] at works ⊢
  exact works

/-- A hand-over goes on. -/
theorem works_resume (reached : w.Reachable) (place : w.tasks[t]? = some (.running job))
    {s : Suspension} {s' : Option Suspension} (busy : (Task.running job).suspension? = some s)
    (held : (Task.running job).held? = some (.close s.conn, s.wait))
    (resumed : w.resume s = some (w', s')) :
    Works w (Task.running job).held? w' (s'.map fun s => (.close s.conn, s.wait)) := by
  obtain ⟨c, here, -⟩ := reached.valid.suspended place busy
  simp only [World.resume, here] at resumed
  split at resumed
  · rename_i awake
    have stepped : errandStep w.now c (.close s.conn) (some s.wait) =
        some (c.proceedClose false w.now s.wait) := if_pos awake
    split at resumed <;> rename_i eq <;> cases resumed
    · exact .goesOn held here ⟨_, stepped.trans (congrArg some eq), .inl rfl⟩
    · exact .goesOn held here ⟨_, stepped.trans (congrArg some eq), .inr ⟨rfl, _, rfl⟩⟩
  · cases resumed

/-- One stretch of any task. -/
theorem works_jobStep (reached : w.Reachable) (place : w.tasks[t]? = some (.running job))
    (step : w.jobStep job = some (w', task)) : Works w (Task.running job).held? w' task.held? := by
  have drained (other : ∀ todo wait, job ≠ .errands todo wait)
      (before : (Task.running job).errand? = none) (after : task.errand? = none) :
      Works w (Task.running job).held? w' task.held? := by
    have held := held?_of_errand?_eq_none before
    rw [held?_of_errand?_eq_none after]
    cases drains_jobStep step fun k => reached.manned.isClaimed place with
    | waits _ idle empty =>
        rw [empty.suspension]
        exact .idle (by rw [held, idle.suspension]; rfl)
    | errand eq => exact absurd eq (other _ _)
    | takes _ _ _ eq _ none =>
        subst eq
        rw [none]
        exact .idle rfl
    | @hands unit _ s _ units idle dispatched suspended =>
        have traced := reached.valid.booked.taken _ (List.mem_of_getElem? place) unit
          (by rw [units]; exact List.mem_cons_self)
        rw [suspended]
        refine works_dispatchUnit (k := 0) (f := fun q => q) reached (by rw [held, idle]; rfl)
          traced ?_
        rwa [modifyQueue_id]
    | @pops k f q unit _ s _ queue front _ idle dispatched _ suspended =>
        have owed := reached.valid.booked.queued k q queue unit
          (by rw [front]; exact List.mem_cons_self)
        rw [suspended]
        exact works_dispatchUnit reached (by rw [held, idle.suspension]; rfl) owed.traces dispatched
    | @resumes s s' _ _ busy resumed _ suspended =>
        rw [suspended]
        exact works_resume reached place busy (by rw [held, busy]; rfl) resumed
  cases job with
  | errands todo wait => exact works_errandsStep reached place step
  | collect i progress => exact drained (by simp) rfl (errand?_collectStep step)
  | process k resident progress =>
      refine drained (by simp) rfl ?_
      simp only [jobStep] at step
      split at step
      · cases step
        rfl
      · exact errand?_processStep step

end World

end PacketWire
