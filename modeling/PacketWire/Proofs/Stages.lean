import PacketWire.Proofs.ConnectionActors
import PacketWire.Proofs.Working

/-!
# The stages of a close

A connection is active, then somebody carries out its close, then it is closed. The close is carried
out by the inbound loop or by a task, which waits for the send queue and looks at it from time to
time; a task may wait for the loops after that. `Next` lists what one happening makes of it, and is
all that is needed to follow a close through a run.
-/

namespace PacketWire

/-- How far the closing of a connection is. -/
inductive Stage where
  | active
  /-- A close is carried out by this actor, which waits. -/
  | held (holder : Actor) (wait : CloseWait)
  | closed

namespace World

open Connection

variable {w w' : World} {i t : Nat} {c d e : Connection} {wait : CloseWait} {job : Job}
  {task : Task} {happening : Happening} {actor : Actor} {stage : Stage}

/-- Somebody carries out the close of a connection. -/
inductive Carries (w : World) (i : Nat) (c : Connection) : Actor → CloseWait → Prop
  | inbound {wait : CloseWait} : c.inbound.closer? = some wait → Carries w i c (.inbound i) wait
  | task {t : Nat} {task : Task} {wait : CloseWait} : w.tasks[t]? = some task →
      task.held? = some (.close i, wait) → Carries w i c (.task t) wait

/-- The stage of a connection. -/
inductive IsAt (w : World) (i : Nat) (c : Connection) : Stage → Prop
  | active : c.isActive = true → IsAt w i c .active
  | held {holder : Actor} {wait : CloseWait} : w.Carries i c holder wait →
      IsAt w i c (.held holder wait)
  | closed : c.state = .closed → IsAt w i c .closed

/-- What one happening makes of the closing of a connection that is `c` before and `e` after it. -/
inductive Next (w : World) (i : Nat) (happening : Happening) (c e : Connection) :
    Stage → Stage → Prop
  /-- Nothing; whoever carries out a close did not take a stretch or had to wait. -/
  | stays {stage : Stage} : (∀ holder wait, stage = .held holder wait →
      happening = .run holder → c.canProceed w.now wait = false) →
      Next w i happening c e stage stage
  /-- A close begins, and the send queue has five seconds. -/
  | begins {holder : Actor} : happening = .run holder → Next w i happening c e .active
      (.held holder (.draining (w.now + closeTimeout) (w.now + closePoll)))
  /-- The outbound loop cannot write: there is nothing to wait for. -/
  | breaks : happening = .run (.outbound i) → e.cancelled = true →
      Next w i happening c e .active .closed
  /-- The send queue is looked at, and there is still reason to wait for it. -/
  | looks {holder : Actor} {deadline wake : Nat} : happening = .run holder → wake ≤ w.now →
      c.isDrainOver deadline w.now = false →
      Next w i happening c e (.held holder (.draining deadline wake))
        (.held holder (.draining deadline (w.now + closePoll)))
  /-- There is no reason to wait for the send queue any longer, and both loops are told to end. -/
  | ends {holder : Actor} {deadline wake : Nat} : happening = .run holder → wake ≤ w.now →
      c.isDrainOver deadline w.now = true → e.cancelled = true →
      Next w i happening c e (.held holder (.draining deadline wake)) .closed
  /-- The same, and a task goes on to wait for the loops. -/
  | joins {t deadline wake : Nat} {loops : List Loop} : happening = .run (.task t) →
      wake ≤ w.now → c.isDrainOver deadline w.now = true → e.cancelled = true →
      Next w i happening c e (.held (.task t) (.draining deadline wake))
        (.held (.task t) (.joining loops))
  /-- One of the loops has finished. -/
  | awaits {t : Nat} {loops : List Loop} : happening = .run (.task t) →
      c.canProceed w.now (.joining loops) = true → c.stillRunning loops ≠ [] →
      Next w i happening c e (.held (.task t) (.joining loops))
        (.held (.task t) (.joining (c.stillRunning loops)))
  /-- Both loops have finished. -/
  | returns {t : Nat} {loops : List Loop} : happening = .run (.task t) →
      c.canProceed w.now (.joining loops) = true → c.stillRunning loops = [] →
      Next w i happening c e (.held (.task t) (.joining loops)) .closed

/-! ### Who carries it out -/

theorem held?_eq_close_iff : task.held? = some (.close i, wait) ↔ task.closing? i = some wait := by
  cases task with
  | ended outcome => simp [Task.held?, Task.errand?, Task.suspension?, Task.closing?]
  | running job =>
      cases job with
      | errands todo wait' =>
          cases todo with
          | nil => simp [Task.held?, Task.errand?, Task.suspension?, Task.closing?]
          | cons errand todo =>
              rw [held?_errands, closing?_errands]
              cases wait' <;> simp
      | collect j progress =>
          cases progress <;> simp [Task.held?, Task.errand?, Task.suspension?, Task.closing?]
      | process k resident progress =>
          cases progress <;> simp [Task.held?, Task.errand?, Task.suspension?, Task.closing?]

/-- A close that is carried out is among those that the invariants speak of. -/
theorem Carries.mem_holders (carries : w.Carries i c actor wait) :
    wait ∈ c.holders (closers i w.tasks) := by
  cases carries with
  | inbound closer =>
      rw [holders, closer]
      exact List.mem_append_left _ List.mem_cons_self
  | @task t task _ place held =>
      refine List.mem_append_right _ (List.mem_filterMap.mpr ⟨task, List.mem_of_getElem? place, ?_⟩)
      exact held?_eq_close_iff.mp held

theorem Carries.exists_closing? {t : Nat} (carries : w.Carries i c (.task t) wait) :
    ∃ task, w.tasks[t]? = some task ∧ task.closing? i = some wait := by
  cases carries with
  | task place held => exact ⟨_, place, held?_eq_close_iff.mp held⟩

theorem Carries.fits (carries : w.Carries i c actor wait) (valid : w.Valid)
    (here : w.conns[i]? = some c) : wait.Fits c :=
  (valid.conns i c here).fits wait carries.mem_holders

/-- At most one close of a connection is carried out, and by one at a time. -/
theorem Carries.unique {actor' : Actor} {wait' : CloseWait} (first : w.Carries i c actor wait)
    (second : w.Carries i c actor' wait') (valid : w.Valid) (here : w.conns[i]? = some c) :
    actor = actor' ∧ wait = wait' := by
  have valid := valid.conns i c here
  have single := valid.single
  have alone {t : Nat} {one other : CloseWait} (task : w.Carries i c (.task t) one)
      (closer : c.inbound.closer? = some other) : False := by
    obtain ⟨task, place, closing⟩ := task.exists_closing?
    have member : one ∈ closers i w.tasks :=
      List.mem_filterMap.mpr ⟨task, List.mem_of_getElem? place, closing⟩
    rw [valid.closers_of_closer closer] at member
    cases member
  constructor
  · cases first with
    | inbound closer =>
        cases second with
        | inbound => rfl
        | task place held => exact (alone (.task place held) closer).elim
    | task place held =>
        cases second with
        | inbound closer => exact (alone (.task place held) closer).elim
        | task place' held' =>
            rw [holders, List.length_append, closers, List.length_filterMap_eq_countP] at single
            have few := Nat.le_trans (Nat.le_add_left _ _) single
            exact congrArg Actor.task (eq_of_countP_le_one few place place'
              (by rw [held?_eq_close_iff.mp held]; rfl) (by rw [held?_eq_close_iff.mp held']; rfl))
  · have some := List.length_pos_of_mem first.mem_holders
    obtain ⟨only, eq⟩ := List.length_eq_one_iff.mp (Nat.le_antisymm single some)
    have one := first.mem_holders
    have other := second.mem_holders
    rw [eq, List.mem_singleton] at one other
    exact one.trans other.symm

/-- While a close is carried out, that is the stage of the connection. -/
theorem IsAt.eq_held (stands : w.IsAt i c stage) (carries : w.Carries i c actor wait)
    (valid : w.Valid) (here : w.conns[i]? = some c) : stage = .held actor wait := by
  have closing : c.state = .closing := (carries.fits valid here).state_eq
  cases stands with
  | active active =>
      rw [isActive, closing] at active
      cases active
  | closed closed => cases closing.symm.trans closed
  | held holds =>
      obtain ⟨rfl, rfl⟩ := holds.unique carries valid here
      rfl

/-- Where a task could go on with its close, it does. -/
theorem isSome_jobStep (held : (Task.running job).held? = some (.close i, wait))
    (here : w.conns[i]? = some c) (awake : c.canProceed w.now wait = true) :
    (w.jobStep job).isSome = true := by
  have resumes {s : Suspension} (conn : s.conn = i) (same : s.wait = wait) :
      (w.resume s).isSome = true := by
    subst conn same
    simp only [resume, here, awake, if_true]
    split <;> rfl
  cases job with
  | errands todo wait' =>
      cases todo with
      | nil => cases held
      | cons errand todo =>
          rw [held?_errands] at held
          obtain ⟨wait', rfl, same⟩ := Option.map_eq_some_iff.mp held
          cases same
          simp only [jobStep, errandsStep, Errand.conn, here, errandStep, awake, if_true]
          split
          · rename_i none
            cases none
          · rfl
          · split <;> rfl
  | collect j progress =>
      cases progress with
      | suspended s todo got =>
          obtain ⟨rfl, rfl⟩ : s.conn = i ∧ s.wait = wait := by
            simpa [Task.held?, Task.errand?, Task.suspension?] using held
          simp only [jobStep, collectStep]
          have some := resumes rfl rfl
          split
          · rename_i none
            rw [none] at some
            cases some
          · rfl
          · rfl
      | _ => cases held
  | process k resident progress =>
      cases progress with
      | suspended s =>
          obtain ⟨rfl, rfl⟩ : s.conn = i ∧ s.wait = wait := by
            simpa [Task.held?, Task.errand?, Task.suspension?] using held
          simp only [jobStep]
          split
          · rfl
          · rw [processStep, Option.isSome_map]
            exact resumes rfl rfl
      | _ => cases held

/-- A task that takes no stretch and is not given up stays what it is. -/
theorem getElem?_tasks_perform (reached : w.Reachable) (place : w.tasks[t]? = some task)
    (rests : happening ≠ .run (.task t)) (kept : happening ≠ .abort t) :
    (w.perform happening).tasks[t]? = some task := by
  have bound := (List.getElem?_eq_some_iff.mp place).1
  have grown {tasks new : List Task} (eq : tasks = w.tasks ++ new) : tasks[t]? = some task := by
    rw [eq, List.getElem?_append_left bound, place]
  have passed {ran : Option Nat} {w' : World} (passes : Passes w ran w') (other : ran ≠ some t) :
      w'.tasks[t]? = some task := by
    have valid := reached.valid
    cases passes with
    | idle | announces | tended => exact place
    | begins => exact grown rfl
    | starts =>
        rw [World.start, queues_modifyQueueOf]
        exact place
    | @alone j b d here alone =>
        obtain ⟨count, tasks⟩ := (put_spec (w := w) (i := j)
          (Connection.Later.of_changes (alone.changes (valid.conns j b here))).journal).tasks
        exact grown tasks
    | @works k job w'' next running step =>
        obtain ⟨count, j, tasks⟩ := tasks_of_jobStep valid running step
        have ne : k ≠ t := fun same => other (congrArg some same)
        exact (List.getElem?_set_ne ne).trans (grown tasks)
  cases happening with
  | abort k =>
      have ne : k ≠ t := by
        rintro rfl
        exact kept rfl
      have given : (w.tasks.set k (.ended .aborted))[t]? = some task :=
        (List.getElem?_set_ne ne).trans place
      simp only [World.perform, abort]
      split
      · rename_i job _
        cases job with
        | process queue resident progress => cases progress <;> exact given
        | errands | collect => exact given
      · exact place
  | run actor =>
      refine passed (passes_perform fun k => by simp) ?_
      cases actor with
      | task k =>
          intro same
          obtain rfl : k = t := Option.some.inj same
          exact rests rfl
      | inbound | outbound => simp [Happening.task?]
  | _ => exact passed (passes_perform fun k => by simp) (by simp [Happening.task?])

/-- A close that the inbound loop carries out never waits for loops. -/
theorem Reachable.closer_ne_joining (reached : w.Reachable) (here : w.conns[i]? = some c)
    (loops : List Loop) : c.inbound.closer? ≠ some (.joining loops) := by
  refine (reached.conns (P := fun c => c.TakesPackets ∧
    ∀ loops, c.inbound.closer? ≠ some (.joining loops)) ?_ ?_ i c here).2 loops
  · intro setup opening now given
    exact ⟨fun _ => rfl, fun loops => by simp [Connection.start, Inbound.closer?]⟩
  · rintro now c d e closers valid ⟨takes, alone⟩ share tended
    obtain ⟨source, sink, rfl⟩ := tended.eq
    refine ⟨share.takesPackets valid takes, ?_⟩
    have same (eq : d.inbound = c.inbound) (loops : List Loop) :
        d.inbound.closer? ≠ some (.joining loops) := by
      rw [eq]
      exact alone loops
    cases share with
    | rests => exact alone
    | acted moves inbound => exact same inbound
    | alone goesOn =>
        cases goesOn with
        | outbound step => exact same (onward_outboundStep step).inbound
        | call call => exact same (acts_call c call).inbound_eq
        | inbound step =>
            cases closer : c.inbound.closer? with
            | none =>
                have begins := begins_inboundStep takes step closer
                intro loops joins
                rw [show Inbound.closer? _ = _ from joins] at begins
                cases begins
            | some wait =>
                cases wait with
                | joining loops => exact absurd closer (alone loops)
                | draining deadline wake =>
                    obtain ⟨shown, place⟩ := Inbound.exists_of_closer? closer
                    obtain ⟨-, -, outcome⟩ := inboundStep_of_closing place step
                    intro loops
                    split at outcome
                    · simp [outcome.2, Inbound.closer?]
                    · simp [outcome, Inbound.closer?]

/-! ### From one stage to the next -/

theorem standing_call (call : Call) (c : Connection) : (call.act c).standing = c.standing := by
  cases call with
  | send packet =>
      obtain ⟨_, _, chat⟩ := chat_send packet c
      exact chat.standing_eq
  | handshake kind =>
      obtain ⟨_, _, chat⟩ := chat_sendHandshake kind c
      exact chat.standing_eq
  | register type =>
      simp only [Call.act, register]
      split <;> rfl

/-- What was put into the place of a connection is there, up to its transport. -/
theorem tended_put (here : w.conns[i]? = some c) (suffix : c.journal <:+ d.journal)
    (there : (w.put i c d).conns[i]? = some e) : Tended d e := by
  obtain ⟨e', there', tended⟩ := exists_tended here suffix
  rwa [Option.some.inj (there.symm.trans there')]

/-- Where a connection is after its inbound loop took a stretch. -/
theorem tended_of_inbound (reached : w.Reachable) (here : w.conns[i]? = some c)
    (step : c.inboundStep w.now = some d)
    (there : (w.perform (.run (.inbound i))).conns[i]? = some e) : Tended d e := by
  refine tended_put here (Connection.Later.of_changes
    ((reached.valid.conns i c here).moves_inboundStep step).changes).journal ?_
  simpa only [World.perform, World.step, here, step, Option.map_some, Option.getD_some] using there

/-- Where a connection is after its outbound loop took a stretch. -/
theorem tended_of_outbound (here : w.conns[i]? = some c) (step : c.outboundStep w.now = some d)
    (there : (w.perform (.run (.outbound i))).conns[i]? = some e) : Tended d e := by
  refine tended_put here (Connection.Later.of_changes (onward_outboundStep step).changes).journal ?_
  simpa only [World.perform, World.step, here, step, Option.map_some, Option.getD_some] using there

/-- What a stretch of a task leaves, and the task in its place. -/
theorem perform_task (reached : w.Reachable) (running : w.tasks[t]? = some (.running job))
    (step : w.jobStep job = some (w', task)) :
    (w.perform (.run (.task t))).conns = w'.conns ∧
      (w.perform (.run (.task t))).tasks[t]? = some task := by
  have performed : w.perform (.run (.task t)) = { w' with tasks := w'.tasks.set t task } := by
    simp only [World.perform, World.step, running, step, Option.map_some, Option.getD_some]
  rw [performed]
  refine ⟨rfl, List.getElem?_set_self ?_⟩
  obtain ⟨count, j, tasks⟩ := tasks_of_jobStep reached.valid running step
  rw [tasks, List.length_append]
  exact Nat.lt_add_right _ (List.getElem?_eq_some_iff.mp running).1

theorem Proceeds.suffix {now : Nat} {errand : Errand} {left : Option CloseWait}
    (proceeds : Proceeds now c errand wait d left) : c.journal <:+ d.journal := by
  obtain ⟨d', stepped, shown⟩ := proceeds
  have suffix := (passive_errandStep stepped).idles.mute.suffix
  rcases shown with rfl | ⟨-, packet, rfl⟩
  · exact suffix
  · exact suffix.trans (suffix_showControl packet d')

/-- Where a connection is after a task went on with a close of it. -/
theorem exists_of_works (running : w.tasks[t]? = some (.running job))
    (held : (Task.running job).held? = some (.close i, wait)) (reached : w.Reachable)
    (here : w.conns[i]? = some c) (step : w.jobStep job = some (w', task))
    (there : (w.perform (.run (.task t))).conns[i]? = some e) :
    c.canProceed w.now wait = true ∧ ∃ d left, c.proceedClose false w.now wait = (d, left) ∧
      e.standing = d.standing ∧ ∀ wait', left = some wait' →
        (w.perform (.run (.task t))).Carries i e (.task t) wait' := by
  have works := works_jobStep reached running step
  obtain ⟨conns, placed⟩ := perform_task reached running step
  rw [conns] at there
  rw [held] at works
  generalize after : task.held? = left at works
  cases works with
  | idle free | begins free | joins free => cases free
  | @goesOn errand waits c' d left same place proceeds =>
      cases same
      obtain rfl : c' = c := Option.some.inj (place.symm.trans here)
      have suffix := proceeds.suffix
      obtain ⟨d', stepped, shown⟩ := proceeds
      have ended : c'.canProceed w.now wait = true ∧
          c'.proceedClose false w.now wait = (d', left) := by
        simp only [errandStep] at stepped
        split at stepped
        · exact ⟨‹_›, Option.some.inj stepped⟩
        · cases stepped
      have standing : d.standing = d'.standing := by
        rcases shown with rfl | ⟨-, packet, rfl⟩
        · rfl
        · exact standing_showControl packet d'
      obtain ⟨source, sink, rfl⟩ := (tended_put here suffix there).eq
      refine ⟨ended.1, d', left, ended.2, standing, ?_⟩
      rintro wait' rfl
      exact .task placed after

theorem exists_next_of_closed (reached : w.Reachable) (here : w.conns[i]? = some c)
    (there : (w.perform happening).conns[i]? = some e) (closed : c.state = .closed) :
    ∃ stage, (w.perform happening).IsAt i e stage ∧ Next w i happening c e .closed stage := by
  obtain ⟨e', there', later⟩ := (reached.valid.perform happening).2 i c here
  obtain rfl : e' = e := Option.some.inj (there'.symm.trans there)
  have ahead := later.ahead
  rw [closed] at ahead
  have ended : e'.state = .closed := by
    cases state : e'.state with
    | closed => rfl
    | active | closing => simp [state, Lifecycle.rank] at ahead
  exact ⟨.closed, .closed ended, .stays fun _ _ impossible => by cases impossible⟩

theorem proceedClose_joining (now : Nat) (loops : List Loop) (c : Connection) :
    (c.stillRunning loops = [] ∧ c.proceedClose false now (.joining loops) = (c.markClosed, none)) ∨
    (c.stillRunning loops ≠ [] ∧ c.proceedClose false now (.joining loops) =
      (c, some (.joining (c.stillRunning loops)))) := by
  simp only [proceedClose, closeAfter]
  split
  · rename_i none
    exact .inl ⟨none, rfl⟩
  · rename_i some
    exact .inr ⟨fun none => some none, rfl⟩

/-- A look at the send queue: it is waited for again, or both loops are told to end. -/
theorem proceedClose_draining (now deadline wake : Nat) (c : Connection) :
    (c.isDrainOver deadline now = false ∧ c.proceedClose false now (.draining deadline wake) =
      (c, some (.draining deadline (now + closePoll)))) ∨
    (c.isDrainOver deadline now = true ∧ ∃ d left,
      c.proceedClose false now (.draining deadline wake) = (d, left) ∧ d.cancelled = true ∧
      ((left = none ∧ d.state = .closed) ∨ ∃ loops, left = some (.joining loops))) := by
  cases drained : c.isDrainOver deadline now with
  | false =>
      refine .inl ⟨rfl, ?_⟩
      simp only [proceedClose, drained, Bool.false_eq_true, if_false]
  | true =>
      refine .inr ⟨rfl, ?_⟩
      simp only [proceedClose, drained, if_true, Bool.false_eq_true, if_false, takeLoops,
        closeAfter]
      split
      · exact ⟨_, _, rfl, rfl, .inl ⟨rfl, rfl⟩⟩
      · exact ⟨_, _, rfl, rfl, .inr ⟨_, rfl⟩⟩

/-- A task that carries out a close takes a stretch. -/
theorem exists_next_of_stretch (reached : w.Reachable) (here : w.conns[i]? = some c)
    (there : (w.perform (.run (.task t))).conns[i]? = some e)
    (carries : w.Carries i c (.task t) wait) :
    ∃ stage, (w.perform (.run (.task t))).IsAt i e stage ∧
      Next w i (.run (.task t)) c e (.held (.task t) wait) stage := by
  cases carries with
  | @task t task wait place held =>
  cases task with
  | ended outcome => cases held
  | running job =>
  cases stepped : w.jobStep job with
  | none =>
      have same : w.perform (.run (.task t)) = w := by
        simp only [World.perform, World.step, place, stepped, Option.map_none, Option.getD_none]
      rw [same] at there ⊢
      obtain rfl : c = e := Option.some.inj (here.symm.trans there)
      refine ⟨_, .held (.task place held), .stays ?_⟩
      rintro _ _ ⟨⟩ -
      by_contra awake
      have some := isSome_jobStep held here (by simpa using awake)
      simp [stepped] at some
  | some result =>
      obtain ⟨awake, d, left, proceeds, standing, goesOn⟩ :=
        exists_of_works place held reached here stepped there
      have state : e.state = d.state := congrArg Standing.state standing
      have cancelled : e.cancelled = d.cancelled := congrArg Standing.cancelled standing
      cases wait with
      | joining loops =>
          rcases proceedClose_joining w.now loops c with ⟨none, eq⟩ | ⟨some, eq⟩
          · cases eq.symm.trans proceeds
            exact ⟨.closed, .closed state, .returns rfl awake none⟩
          · cases eq.symm.trans proceeds
            exact ⟨_, .held (goesOn _ rfl), .awaits rfl awake some⟩
      | draining deadline wake =>
          have due : wake ≤ w.now := of_decide_eq_true awake
          rcases proceedClose_draining w.now deadline wake c with
            ⟨waits, eq⟩ | ⟨drained, d', left', eq, told, ⟨rfl, closed⟩ | ⟨loops, rfl⟩⟩
          · cases eq.symm.trans proceeds
            exact ⟨_, .held (goesOn _ rfl), .looks rfl due waits⟩
          · cases eq.symm.trans proceeds
            exact ⟨.closed, .closed (state.trans closed),
              .ends rfl due drained (cancelled.trans told)⟩
          · cases eq.symm.trans proceeds
            exact ⟨_, .held (goesOn _ rfl), .joins rfl due drained (cancelled.trans told)⟩

/-- The inbound loop takes a stretch, and carries out a close. -/
theorem exists_next_of_inbound (reached : w.Reachable) (here : w.conns[i]? = some c)
    (there : (w.perform (.run (.inbound i))).conns[i]? = some e)
    (closer : c.inbound.closer? = some wait) :
    ∃ stage, (w.perform (.run (.inbound i))).IsAt i e stage ∧
      Next w i (.run (.inbound i)) c e (.held (.inbound i) wait) stage := by
  obtain ⟨deadline, wake, rfl⟩ : ∃ deadline wake, wait = .draining deadline wake := by
    cases wait with
    | draining deadline wake => exact ⟨deadline, wake, rfl⟩
    | joining loops => exact absurd closer (reached.closer_ne_joining here loops)
  obtain ⟨shown, place⟩ := Inbound.exists_of_closer? closer
  cases stepped : c.inboundStep w.now with
  | none =>
      have same : w.perform (.run (.inbound i)) = w := by
        simp only [World.perform, World.step, here, stepped, Option.map_none, Option.getD_none]
      rw [same] at there ⊢
      obtain rfl : c = e := Option.some.inj (here.symm.trans there)
      refine ⟨_, .held (.inbound closer), .stays ?_⟩
      rintro _ _ ⟨⟩ -
      simp only [inboundStep, place] at stepped
      split at stepped
      · split at stepped <;> cases stepped
      · rename_i asleep
        simpa using asleep
  | some d =>
      have tended := tended_of_inbound reached here stepped there
      have reached' := reached.perform (.run (.inbound i))
      have cancelled := (reached'.valid.conns i e there).orderly.cancelled
      obtain ⟨source, sink, rfl⟩ := tended.eq
      obtain ⟨due, -, outcome⟩ := inboundStep_of_closing place stepped
      split at outcome
      · rename_i drained
        exact ⟨.closed, .closed outcome.1, .ends rfl due drained (cancelled outcome.1)⟩
      · rename_i drained
        subst outcome
        exact ⟨_, .held (.inbound rfl), .looks rfl due (by simpa using drained)⟩

/-- Nobody but who carries out the close of a connection changes that. -/
theorem Carries.perform (carries : w.Carries i c actor wait) (reached : w.Reachable)
    (here : w.conns[i]? = some c) (there : (w.perform happening).conns[i]? = some e)
    (rests : happening ≠ .run actor) (kept : ∀ t, actor = .task t → happening ≠ .abort t) :
    (w.perform happening).Carries i e actor wait := by
  cases carries with
  | @task t task wait place held =>
      exact .task (getElem?_tasks_perform reached place rests (kept t rfl)) held
  | inbound closer =>
      obtain ⟨d, share, tended⟩ := stepsBy_perform reached here there
      obtain ⟨source, sink, rfl⟩ := tended.eq
      have same : d.inbound = c.inbound := share.inbound_eq rests
      exact .inbound (by rw [← closer, ← same])

/-- A connection that was active before and is not any more. -/
theorem state_ne_of_left (active : c.isActive = true) (left : e.isActive = false) :
    e.state ≠ c.state := by
  intro same
  rw [isActive, same] at left
  cases left.symm.trans active

/-- To go on waiting for the loops changes nothing about a connection. -/
theorem eq_of_join {now j : Nat} {left : Option CloseWait}
    (step : errandStep now c (.join j) (some wait) = some (d, left)) : d = c := by
  simp only [errandStep] at step
  split at step
  · split at step
    · cases step
      rfl
    · split at step <;>
      · cases step
        rfl
  · cases step

/-- The state of a connection after something was put into the place of one, it or another. -/
theorem state_put {j : Nat} {b : Connection} (place : w.conns[j]? = some b)
    (suffix : b.journal <:+ d.journal) (here : w.conns[i]? = some c)
    (there : (w.put j b d).conns[i]? = some e) :
    (j = i ∧ b = c ∧ e.state = d.state) ∨ e.state = c.state := by
  obtain ⟨e', there', tended⟩ := exists_of_put place suffix here
  obtain rfl : e' = e := Option.some.inj (there'.symm.trans there)
  obtain ⟨source, sink, same⟩ := tended.eq
  rw [same]
  split
  · rename_i mine
    subst mine
    exact .inl ⟨rfl, Option.some.inj (place.symm.trans here), rfl⟩
  · exact .inr rfl

/-- An active connection is left as it is by a stretch of a task, or a close of it begins. -/
theorem Works.begun {before after : Option (Errand × CloseWait)} (works : Works w before w' after)
    (fits : ∀ wait, before = some (.close i, wait) → wait.Fits c) (here : w.conns[i]? = some c)
    (there : w'.conns[i]? = some e) (active : c.isActive = true) : e.state = c.state ∨
      after = some (.close i, .draining (w.now + closeTimeout) (w.now + closePoll)) := by
  cases works with
  | idle =>
      obtain rfl : c = e := Option.some.inj (here.symm.trans there)
      exact .inl rfl
  | @begins k j f b d left free place moves inbound begins =>
      rcases state_put (w := w.modifyQueue k f) place
        (Connection.Later.of_changes moves.changes).journal here there with
        ⟨rfl, rfl, state⟩ | same
      · cases begins with
        | calm standing => exact .inl (state.trans (congrArg Standing.state standing))
        | close => exact .inr rfl
      · exact .inl same
  | joins free place step =>
      have suffix := (passive_errandStep step).idles.mute.suffix
      rcases state_put place suffix here there with ⟨rfl, rfl, state⟩ | same
      · refine .inl (state.trans ?_)
        simp only [errandStep, takeLoops] at step
        split at step <;>
        · cases step
          rfl
      · exact .inl same
  | @goesOn errand wait b d left same place proceeds =>
      rcases state_put place proceeds.suffix here there with ⟨mine, rfl, state⟩ | kept
      · cases errand with
        | close j =>
            obtain rfl : j = i := mine
            rw [isActive, (fits wait same).state_eq] at active
            cases active
        | join j =>
            refine .inl (state.trans ?_)
            obtain ⟨d', stepped, shown⟩ := proceeds
            have stays : d' = b := eq_of_join stepped
            rcases shown with rfl | ⟨-, packet, rfl⟩
            · rw [stays]
            · rw [← stays]
              exact congrArg Standing.state (standing_showControl packet d')
      · exact .inl kept

/-- A task that takes a stretch has begun the close of an active connection if that is not active
any more. -/
theorem carries_of_task (reached : w.Reachable) (here : w.conns[i]? = some c)
    (there : (w.perform (.run (.task t))).conns[i]? = some e) (active : c.isActive = true)
    (left : e.isActive = false) : (w.perform (.run (.task t))).Carries i e (.task t)
      (.draining (w.now + closeTimeout) (w.now + closePoll)) := by
  cases stepped : w.step (.task t) with
  | none =>
      simp only [World.perform, stepped, Option.getD_none] at there
      obtain rfl : c = e := Option.some.inj (here.symm.trans there)
      cases left.symm.trans active
  | some v =>
      simp only [World.step] at stepped
      split at stepped
      · rename_i job running
        obtain ⟨⟨w', task⟩, step, -⟩ := Option.map_eq_some_iff.mp stepped
        obtain ⟨conns, placed⟩ := perform_task reached running step
        rw [conns] at there
        have fits (wait : CloseWait) (held : (Task.running job).held? = some (.close i, wait)) :
            wait.Fits c := Carries.fits (.task running held) reached.valid here
        rcases (works_jobStep reached running step).begun fits here there active with same | begun
        · exact absurd same (state_ne_of_left active left)
        · exact .task placed begun
      · cases stepped

/-- An active connection goes on, or a close of it begins. -/
theorem exists_next_of_active (reached : w.Reachable) (here : w.conns[i]? = some c)
    (there : (w.perform happening).conns[i]? = some e) (active : c.isActive = true) :
    ∃ stage, (w.perform happening).IsAt i e stage ∧ Next w i happening c e .active stage := by
  cases left : e.isActive with
  | true => exact ⟨.active, .active left, .stays fun _ _ impossible => by cases impossible⟩
  | false =>
      obtain ⟨d, share, tended⟩ := stepsBy_perform reached here there
      have valid := reached.valid.conns i c here
      have cancelled := ((reached.perform happening).valid.conns i e there).orderly.cancelled
      obtain ⟨source, sink, rfl⟩ := tended.eq
      have kept (same : d.state = c.state) : False := state_ne_of_left active left same
      cases share with
      | rests => exact (kept rfl).elim
      | @called call => exact (kept (congrArg Standing.state (standing_call call c))).elim
      | outbound runs step =>
          subst runs
          rcases (onward_outboundStep step).standing with ⟨same, -⟩ | ⟨-, closed⟩
          · exact (kept same).elim
          · exact ⟨.closed, .closed closed, .breaks rfl (cancelled closed)⟩
      | inbound runs step =>
          subst runs
          have free : c.inbound.closer? = none := by
            have none := valid.holders_of_isActive active
            rw [holders, List.append_eq_nil_iff] at none
            exact Option.toList_eq_nil_iff.mp none.1
          have begins := begins_inboundStep (reached.takesPackets here) step free
          generalize closer : d.inbound.closer? = wait at begins
          cases begins with
          | calm standing => exact (kept (congrArg Standing.state standing)).elim
          | close => exact ⟨_, .held (.inbound closer), .begins rfl⟩
      | acted runs =>
          subst runs
          exact ⟨_, .held (carries_of_task reached here there active left), .begins rfl⟩

/-- From one stage to the next, whatever happens, unless somebody gives up a close that it carries
out. -/
theorem exists_next (reached : w.Reachable) (here : w.conns[i]? = some c)
    (there : (w.perform happening).conns[i]? = some e) (stands : w.IsAt i c stage)
    (kept : ∀ t wait, w.Carries i c (.task t) wait → happening ≠ .abort t) :
    ∃ stage', (w.perform happening).IsAt i e stage' ∧ Next w i happening c e stage stage' := by
  cases stands with
  | active active => exact exists_next_of_active reached here there active
  | closed closed => exact exists_next_of_closed reached here there closed
  | @held holder wait carries =>
      by_cases runs : happening = .run holder
      · subst runs
        cases carries with
        | inbound closer => exact exists_next_of_inbound reached here there closer
        | task place held => exact exists_next_of_stretch reached here there (.task place held)
      · refine ⟨_, .held (carries.perform reached here there runs ?_), .stays ?_⟩
        · rintro t rfl
          exact kept t wait carries
        · rintro _ _ ⟨⟩ now'
          exact absurd now' runs

end World

end PacketWire
