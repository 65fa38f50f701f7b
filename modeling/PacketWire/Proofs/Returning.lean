import PacketWire.Proofs.Attendance
import PacketWire.Proofs.Awaiting
import PacketWire.Proofs.Echoing

/-!
# What an echo server leaves behind

An interrupted echo server closes the connections on its list, awaits each, and has returned. Its
list has all connections that it accepted but those that were not active when another was accepted
later, which it forgets; so one that still drains then is not awaited. `Runs` has every order in
which peers come and go, the server is interrupted and all else happens; `Hosts` is what is true all
along.
-/

namespace PacketWire

/-- What happens outside of a server: tasks and loops take their stretches, time passes, and the
transports do what peers make them do. -/
def Happening.isOutside : Happening → Bool
  | .run _ => true
  | .pass _ => true
  | .transit .. => true
  | _ => false

theorem Happening.isAround_of_isOutside {happening : Happening}
    (outside : happening.isOutside = true) : happening.isAround = true := by
  cases happening <;> first | rfl | cases outside

namespace World

open Connection

variable {w w' : World} {t i : Nat} {c d e : Connection} {job : Job} {task : Task}

/-- All listeners are mild. -/
def IsMild (w : World) : Prop :=
  ∀ (i : Nat) (c : Connection), w.conns[i]? = some c → Listener.Mild c.listener

/-- Where listeners ask for no close, nobody starts a task. -/
theorem tasks_put_of_isMild (mild : w.IsMild) (reached : w.Reachable) (here : w.conns[i]? = some c)
    (changes : Changes c d) {v : World} : (v.put i c d).tasks = v.tasks := by
  refine tasks_put fun asked => ?_
  exact reached.unasked here (mild i c here) (asked_of_changes changes (mild i c here) asked)

theorem tasks_jobStep_of_isMild (mild : w.IsMild) (reached : w.Reachable)
    (running : w.tasks[t]? = some (.running job)) (step : w.jobStep job = some (w', task)) :
    w'.tasks = w.tasks := by
  have valid := reached.valid
  cases stretch_jobStep valid.booked (valid.booked.taken _ (List.mem_of_getElem? running)) step with
  | quiet => rfl
  | @acts q f i c d _ tame here others acts =>
      exact tasks_put_of_isMild mild reached here (moves_of_acts valid running here acts).changes

/-- What becomes of the tasks: one of them takes a stretch, at most. -/
theorem tasks_of_isMild (mild : w.IsMild) (reached : w.Reachable) {happening : Happening}
    (outside : happening.isOutside = true) : (w.perform happening).tasks = w.tasks ∨
      ∃ t job w' task, w.tasks[t]? = some (.running job) ∧ w.jobStep job = some (w', task) ∧
        w.perform happening = { w' with tasks := w.tasks.set t task } := by
  cases happening with
  | pass | transit => exact .inl rfl
  | run actor =>
      simp only [World.perform]
      cases stepped : w.step actor with
      | none => exact .inl rfl
      | some w' =>
          rw [Option.getD_some]
          cases actor with
          | inbound j =>
              simp only [World.step] at stepped
              split at stepped
              · cases stepped
              · rename_i c here
                obtain ⟨d, step, rfl⟩ := Option.map_eq_some_iff.mp stepped
                have changes := ((reached.valid.conns j c here).moves_inboundStep step).changes
                exact .inl (tasks_put_of_isMild mild reached here changes)
          | outbound j =>
              simp only [World.step] at stepped
              split at stepped
              · cases stepped
              · rename_i c here
                obtain ⟨d, step, rfl⟩ := Option.map_eq_some_iff.mp stepped
                have changes := (onward_outboundStep step).changes
                exact .inl (tasks_put_of_isMild mild reached here changes)
          | task t =>
              simp only [World.step] at stepped
              split at stepped
              · rename_i job running
                obtain ⟨⟨w'', task⟩, step, rfl⟩ := Option.map_eq_some_iff.mp stepped
                refine .inr ⟨t, job, w'', task, running, step, ?_⟩
                rw [tasks_jobStep_of_isMild mild reached running step]
              · cases stepped
  | _ => cases outside

/-- The loops of a connection were taken. -/
def IsTaken (w : World) (i : Nat) : Prop :=
  ∃ c, w.conns[i]? = some c ∧ c.unjoined = []

/-- A caller has still to await a connection, or its loops were taken. -/
def Due (w : World) (i : Nat) (task : Task) : Prop :=
  (.join i ∈ task.todo ∧ ∀ wait, task.held? ≠ some (.join i, wait)) ∨ w.IsTaken i

theorem IsTaken.passes {ran : Option Nat} (taken : w.IsTaken i) (valid : w.Valid)
    (passes : Passes w ran w') : w'.IsTaken i := by
  obtain ⟨c, here, none⟩ := taken
  obtain ⟨d, e, share, there, tended⟩ := passes.stepsTo valid here
  obtain ⟨source, sink, rfl⟩ := tended.eq
  have still : d.unjoined = [] := unjoined_of_changes (share.changes (valid.conns i c here)) none
  exact ⟨_, there, still⟩

/-- To await a connection is to take its loops first, if nobody did. -/
theorem unjoined_of_join {now : Nat} {left : Option CloseWait}
    (step : errandStep now c (.join i) none = some (d, left)) : d.unjoined = [] := by
  simp only [errandStep, takeLoops] at step
  split at step <;>
  · cases step
    rfl

/-- A caller goes on with its errands: it comes to every connection that it has to await. -/
theorem due_errandsStep {todo : List Errand} {wait : Option CloseWait}
    (step : w.errandsStep wait todo = some (w', task))
    (due : .join i ∈ todo) (free : ∀ wait', (Task.running (.errands todo wait)).held? ≠
      some (.join i, wait')) (here : w.conns[i]? = some c) : w'.Due i task := by
  cases todo with
  | nil => cases due
  | cons errand todo =>
      rw [held?_errands] at free
      have later (other : errand ≠ .join i) : .join i ∈ todo :=
        (List.mem_cons.mp due).resolve_left (Ne.symm other)
      simp only [errandsStep] at step
      by_cases mine : errand = .join i
      · subst mine
        obtain rfl : wait = none := by
          cases wait with
          | none => rfl
          | some wait => exact absurd rfl (free wait)
        rw [show w.conns[(Errand.join i).conn]? = some c from here] at step
        have taken {d : Connection} {left : Option CloseWait}
            (stepped : errandStep w.now c (.join i) none = some (d, left)) :
            (w.put i c d).IsTaken i := by
          have suffix := (passive_errandStep stepped).idles.mute.suffix
          obtain ⟨e, there, tended⟩ := exists_tended here suffix
          obtain ⟨source, sink, rfl⟩ := tended.eq
          have none : d.unjoined = [] := unjoined_of_join stepped
          exact ⟨_, there, none⟩
        dsimp only at step
        split at step
        · cases step
        · rename_i stepped
          cases step
          exact .inr (taken stepped)
        · rename_i stepped
          split at step <;> cases step <;> exact .inr (taken stepped)
      · split at step
        · cases step
          exact .inl ⟨later mine, by simp [held?_errands_none]⟩
        · split at step
          · cases step
          · cases step
            refine .inl ⟨due, fun wait' held => mine ?_⟩
            rw [held?_errands] at held
            obtain ⟨_, -, same⟩ := Option.map_eq_some_iff.mp held
            exact (Prod.mk.inj same).1
          · split at step
            · rename_i none
              rw [List.isEmpty_iff.mp none] at later
              cases later mine
            · cases step
              exact .inl ⟨later mine, by simp [held?_errands_none]⟩

theorem Due.works (due : w.Due i (.running job)) (valid : w.Valid)
    (running : w.tasks[t]? = some (.running job)) (step : w.jobStep job = some (w', task))
    (here : w.conns[i]? = some c) : w'.Due i task := by
  rcases due with ⟨member, free⟩ | taken
  · cases job with
    | collect | process => cases member
    | errands todo wait => exact due_errandsStep step member free here
  · obtain ⟨d, there, none⟩ := taken.passes valid (.works running step)
    exact .inr ⟨d, there, none⟩

end World

namespace EchoServer

open Connection World

variable {config : ConnectionConfig} {deferred : Bool} {s : EchoServer} {w w' : World}

/-- What can come of a server in one of its delivery models, in every order in which peers come, it
is interrupted and all else happens. -/
inductive Runs (config : ConnectionConfig) (deferred : Bool) : EchoServer → World → Prop
  | start : Runs config deferred (EchoServer.start config deferred).1
      (EchoServer.start config deferred).2
  | outside {s : EchoServer} {w : World} {happening : Happening} : Runs config deferred s w →
      happening.isOutside = true → Runs config deferred s (w.perform happening)
  | accept {s : EchoServer} {w : World} (name : String) : Runs config deferred s w →
      Runs config deferred (s.accept name w).1 (s.accept name w).2
  | interrupt {s : EchoServer} {w : World} : Runs config deferred s w →
      Runs config deferred (s.interrupt w).1 (s.interrupt w).2

/-- With deferred delivery, everything that is known of the processor holds. -/
theorem Runs.serves (runs : s.Runs config true w) : s.Serves config w := by
  induction runs with
  | start => exact .start
  | outside _ outside ih => exact ih.around (Happening.isAround_of_isOutside outside)
  | accept name _ ih => exact ih.accept name
  | interrupt _ ih => exact ih.interrupt

theorem Runs.all {happenings : List Happening} (runs : s.Runs config deferred w)
    (outside : happenings.all (·.isOutside) = true) :
    s.Runs config deferred (w.performAll happenings) := by
  induction happenings generalizing w with
  | nil => exact runs
  | cons happening happenings ih =>
      obtain ⟨first, rest⟩ := Bool.and_eq_true_iff.mp outside
      exact ih (runs.outside first) rest

/-- How many tasks a server begins with: its processor, if it has one. -/
def staff (deferred : Bool) : Nat :=
  if deferred then 1 else 0

/-- A server, its connections and its tasks, at any time. -/
structure Hosts (deferred : Bool) (s : EchoServer) (w : World) : Prop where
  reached : w.Reachable
  minded : w.Minded
  delivery : s.delivery = if deferred then .deferred 0 else .inline
  echoes : ∀ (i : Nat) (c : Connection), w.conns[i]? = some c → c.listener = some echo
  stays : s.leaving = none → w.tasks.length = staff deferred
  leaves : ∀ t ∈ s.leaving, t = staff deferred ∧ w.tasks.length = t + 1 ∧
    ∃ task, w.tasks[t]? = some task ∧ ∀ i ∈ s.kept, w.Due i task
  kept : ∀ i ∈ s.kept, i < w.conns.length
  forgotten : ∀ (i : Nat) (c : Connection), w.conns[i]? = some c → i ∉ s.kept →
    c.isActive = false ∧ i + 1 < w.conns.length

namespace Hosts

theorem mild (h : Hosts deferred s w) : w.IsMild := by
  intro i c here
  rw [h.echoes i c here]
  exact mild_echo

/-- What the server has still to do is still due after anything that happens outside. -/
theorem outside (h : Hosts deferred s w) {happening : Happening}
    (outside : happening.isOutside = true) : Hosts deferred s (w.perform happening) := by
  have valid := h.reached.valid
  have length := length_perform valid (Happening.isAround_of_isOutside outside)
  have passes : Passes w happening.task? (w.perform happening) :=
    passes_perform fun k eq => by
      subst eq
      cases outside
  have later := (valid.perform happening).2
  have before {i : Nat} {d : Connection} (there : (w.perform happening).conns[i]? = some d) :
      ∃ c, w.conns[i]? = some c ∧ c.Later d := by
    have bound := (List.getElem?_eq_some_iff.mp there).1
    rw [length] at bound
    obtain ⟨e, place, later⟩ := later i _ (List.getElem?_eq_getElem bound)
    obtain rfl : e = d := Option.some.inj (place.symm.trans there)
    exact ⟨_, List.getElem?_eq_getElem bound, later⟩
  have tasks : (w.perform happening).tasks.length = w.tasks.length := by
    rcases tasks_of_isMild h.mild h.reached outside with same | ⟨t, job, w', task, -, -, eq⟩
    · rw [same]
    · rw [eq]
      exact List.length_set
  have due (t : Nat) (task : Task) (place : w.tasks[t]? = some task)
      (due : ∀ i ∈ s.kept, w.Due i task) : ∃ task, (w.perform happening).tasks[t]? = some task ∧
        ∀ i ∈ s.kept, (w.perform happening).Due i task := by
    have kept (i : Nat) (member : i ∈ s.kept) : (w.perform happening).Due i task := by
      rcases due i member with still | taken
      · exact .inl still
      · exact .inr (taken.passes valid passes)
    rcases tasks_of_isMild h.mild h.reached outside with
      same | ⟨k, job, w', next, running, step, eq⟩
    · exact ⟨task, by rw [same, place], kept⟩
    · by_cases mine : k = t
      · subst mine
        obtain rfl : Task.running job = task := Option.some.inj (running.symm.trans place)
        refine ⟨next, ?_, fun i member => ?_⟩
        · rw [eq]
          exact List.getElem?_set_self (List.getElem?_eq_some_iff.mp running).1
        · have goesOn := (due i member).works valid running step
            (List.getElem?_eq_getElem (h.kept i member))
          rw [eq]
          exact goesOn
      · refine ⟨task, ?_, kept⟩
        rw [eq]
        exact (List.getElem?_set_ne mine).trans place
  refine ⟨h.reached.perform happening, h.minded.passes h.reached passes, h.delivery, ?_, ?_, ?_, ?_,
    ?_⟩
  · intro i d there
    obtain ⟨c, here, later⟩ := before there
    exact later.settings.2.1.trans (h.echoes i c here)
  · intro stays
    rw [tasks]
    exact h.stays stays
  · intro t leaving
    obtain ⟨first, last, task, place, owed⟩ := h.leaves t leaving
    exact ⟨first, tasks.trans last, due t task place owed⟩
  · intro i member
    rw [length]
    exact h.kept i member
  · intro i d there member
    obtain ⟨c, here, later⟩ := before there
    obtain ⟨inactive, earlier⟩ := h.forgotten i c here member
    exact ⟨later.isActive_eq_false inactive, by rwa [length]⟩

theorem start (config : ConnectionConfig) (deferred : Bool) :
    Hosts deferred (EchoServer.start config deferred).1 (EchoServer.start config deferred).2 := by
  have minded (queues : Nat) : (World.empty queues).Minded := minded_empty queues []
  cases deferred with
  | false =>
      exact ⟨.empty 0 [], minded 0, rfl, fun i c here => (by cases here), fun _ => rfl,
        fun t leaving => (by cases leaving), fun i member => (by cases member),
        fun i c here => by cases here⟩
  | true =>
      have reached : (World.empty 1).Reachable := .empty 1 []
      exact ⟨reached.perform (.process 0 true),
        (minded 1).passes reached (.begins (.process 0 true)), rfl,
        fun i c here => (by cases here), fun _ => rfl, fun t leaving => (by cases leaving),
        fun i member => (by cases member), fun i c here => by cases here⟩

/-- Another peer is accepted, and connections that are not active are forgotten. -/
theorem accept (h : Hosts deferred s w) (name : String) :
    Hosts deferred (s.accept name w).1 (s.accept name w).2 := by
  rw [EchoServer.accept]
  split
  · exact h
  · rename_i stays
    have given := setup_eq_ok name s
    have starts : Passes w none (w.start (s.setup name)) := .starts given
    have reached : (w.start (s.setup name)).Reachable := by
      have performed := h.reached.perform
        (.start ⟨name, s.config, some echo, s.delivery, [.ofType .text]⟩)
      rwa [World.perform, given] at performed
    have minded := h.minded.passes h.reached starts
    obtain ⟨queues, eq, reached, minded⟩ : ∃ queues,
        s.announce (w.start (s.setup name)) = { w.start (s.setup name) with queues } ∧
        (s.announce (w.start (s.setup name))).Reachable ∧
        (s.announce (w.start (s.setup name))).Minded := by
      rw [announce]
      split
      · exact ⟨_, rfl, reached, minded⟩
      · exact ⟨_, rfl, reached.perform (.announce _), minded.passes reached (.announces _)⟩
    have conns : (s.announce (w.start (s.setup name))).conns =
        w.conns ++ [.start (s.setup name) w.now] := by
      rw [eq]
      exact conns_start (s.setup name) w
    have tasks : (s.announce (w.start (s.setup name))).tasks = w.tasks := by
      rw [eq, World.start, queues_modifyQueueOf]
    refine ⟨reached, minded, h.delivery, ?_, ?_, fun t leaving => ?_, ?_, ?_⟩
    · intro i c there
      rw [conns] at there
      rcases List.mem_append.mp (List.mem_of_getElem? there) with old | new
      · obtain ⟨j, here⟩ := List.getElem?_of_mem old
        exact h.echoes j c here
      · rw [List.mem_singleton.mp new]
        rfl
    · intro _
      rw [tasks]
      exact h.stays stays
    · rw [show s.leaving = none from stays] at leaving
      cases leaving
    · intro i member
      rw [conns, List.length_append, List.length_singleton]
      rcases List.mem_append.mp member with old | new
      · exact Nat.lt_succ_of_lt (h.kept i (List.mem_filter.mp old).1)
      · rw [List.mem_singleton.mp new]
        exact Nat.lt_succ_self _
    · intro i c there forgotten
      rw [List.mem_append, not_or, List.mem_singleton] at forgotten
      rw [conns] at there ⊢
      have bound := (List.getElem?_eq_some_iff.mp there).1
      rw [List.length_append, List.length_singleton] at bound ⊢
      have old : i < w.conns.length := by
        have other := forgotten.2
        omega
      rw [List.getElem?_append_left old] at there
      refine ⟨?_, by omega⟩
      by_cases member : i ∈ s.kept
      · by_contra active
        refine forgotten.1 (List.mem_filter.mpr ⟨member, ?_⟩)
        rw [isActive, there, Option.map_some, Option.getD_some]
        simpa using active
      · exact (h.forgotten i c there member).1

/-- The server is interrupted: from then on all connections on its list are to be awaited. -/
theorem interrupt (h : Hosts deferred s w) :
    Hosts deferred (s.interrupt w).1 (s.interrupt w).2 := by
  rw [EchoServer.interrupt]
  split
  · exact h
  · rename_i stays
    have length := h.stays stays
    have begins : Passes w none (w.spawn s.leave) := .begins (.errands _)
    refine ⟨h.reached.perform (.errands _), h.minded.passes h.reached begins, h.delivery, h.echoes,
      fun none => (by cases none), ?_, h.kept, h.forgotten⟩
    rintro _ ⟨⟩
    refine ⟨length, List.length_append, s.leave, List.getElem?_concat_length .., ?_⟩
    intro i member
    refine .inl ⟨List.mem_append_right _ (List.mem_map_of_mem member), fun wait held => ?_⟩
    rw [leave, held?_errands_none] at held
    cases held

end Hosts

theorem Runs.hosts (runs : s.Runs config deferred w) : Hosts deferred s w := by
  induction runs with
  | start => exact .start config deferred
  | outside _ outside ih => exact ih.outside outside
  | accept name _ ih => exact ih.accept name
  | interrupt _ ih => exact ih.interrupt

/-- Once a server has returned it has come to every connection on its list, and nobody waits for
loops but its processor. -/
theorem Hosts.of_returned (h : Hosts deferred s w) (returned : s.hasReturned w = true) :
    (∀ i ∈ s.kept, w.IsTaken i) ∧ ∀ i t, w.AwaitsLoops i t → deferred = true ∧ t = 0 := by
  obtain ⟨outcome, ended⟩ := Option.isSome_iff_exists.mp returned
  obtain ⟨task, there, gone⟩ := Option.bind_eq_some_iff.mp ended
  obtain ⟨t, leaving, place⟩ := Option.bind_eq_some_iff.mp there
  obtain ⟨first, last, task', place', due⟩ := h.leaves t leaving
  obtain rfl : task' = task := Option.some.inj (place'.symm.trans place)
  cases task' with
  | running job => cases gone
  | ended outcome =>
      refine ⟨fun i member => (due i member).resolve_left fun owed => ?_, fun i k awaits => ?_⟩
      · cases owed.1
      · obtain ⟨task, errand, loops, waits, held, -⟩ := awaits
        have bound := (List.getElem?_eq_some_iff.mp waits).1
        have other : k ≠ t := by
          rintro rfl
          obtain rfl : task = .ended outcome := Option.some.inj (waits.symm.trans place)
          cases held
        rw [staff] at first
        split at first
        · rename_i processed
          exact ⟨processed, by omega⟩
        · omega

end EchoServer

open Connection EchoServer

variable {config : ConnectionConfig} {deferred : Bool} {s : EchoServer} {w : World} {i : Nat}
  {c : Connection}

/-- What an echo server leaves behind when it has returned. A connection on its list has ended:
both loops have finished, and the transport was let go of. The one exception is a connection whose
loops the processor had taken, to wait for them at the end of a close that the peer asked for. A
connection that is not on the list is not awaited at all; it had begun to close when another was
accepted later. -/
theorem leftBehind_of_returned (runs : s.Runs config deferred w)
    (returned : s.hasReturned w = true) (here : w.conns[i]? = some c) :
    (i ∈ s.kept → ((∀ loop, c.hasFinished loop = true) ∧ c.sink.released ≠ none) ∨
      deferred = true ∧ ∃ suspension loops,
        w.tasks[0]? = some (.running (.process 0 true (.suspended suspension))) ∧
        suspension.conn = i ∧ suspension.wait = .joining loops) ∧
    (i ∉ s.kept → c.isActive = false ∧ i + 1 < w.conns.length) := by
  have hosts := runs.hosts
  obtain ⟨taken, processor⟩ := hosts.of_returned returned
  refine ⟨fun member => ?_, hosts.forgotten i c here⟩
  obtain ⟨c', here', none⟩ := taken i member
  obtain rfl : c' = c := Option.some.inj (here'.symm.trans here)
  rcases hosts.minded.taken i c' here none with finished | ⟨t, awaits⟩
  · have tallied := (hosts.reached.valid.conns i c' here).tallied
    exact .inl ⟨finished, tallied.released (eq_finished_of_outbound (finished .outbound))⟩
  · obtain ⟨rfl, rfl⟩ := processor i t awaits
    obtain ⟨-, progress, staffed⟩ := runs.serves.staffed
    obtain ⟨rest, tasks, -⟩ := staffed.tasks
    have place : w.tasks[0]? = some (.running (.process 0 true progress)) := by
      rw [tasks, List.getElem?_cons_zero]
    obtain ⟨task, errand, loops, waits, held, same⟩ := awaits
    obtain rfl := Option.some.inj (waits.symm.trans place)
    rw [World.held?_of_errand?_eq_none rfl] at held
    obtain ⟨suspension, busy, eq⟩ := Option.map_eq_some_iff.mp held
    cases progress with
    | suspended other =>
        obtain rfl : other = suspension := Option.some.inj busy
        obtain ⟨rfl, wait⟩ := Prod.mk.inj eq
        exact .inr ⟨rfl, other, loops, place, same, wait⟩
    | _ => cases busy

/-- A peer goes away whose transport takes nothing, so the close of its connection has to wait. -/
def firstGone : List Happening :=
  [[.transit 0 (.weather (some 0) none none false false), .transit 0 (.finish .endOfStream)],
    Actor.times 2 (.inbound 0), Actor.times 4 (.outbound 0)].flatten

/-- A server without a processor closes and awaits the second connection, which is all there is on
its list. -/
def secondClosed : List Happening :=
  [[.run (.task 0)], Actor.times 5 (.outbound 1), [.pass 10, .run (.task 0)],
    Actor.times 2 (.inbound 1), Actor.times 3 (.outbound 1), Actor.times 3 (.task 0)].flatten

/-- The server forgets the first peer when it accepts the second one. -/
def cutShort : EchoServer × World :=
  let empty := EchoServer.start {} false
  let one := empty.1.accept "first" empty.2
  let two := one.1.accept "second" (one.2.performAll firstGone)
  let left := two.1.interrupt two.2
  (left.1, left.2.performAll secondClosed)

/-- A peer asks for a close, and its transport takes nothing. The processor hands the close message
on, gives up waiting for the send queue and waits for the loops. -/
def closeAsked : List Happening :=
  [[.transit 0 (.weather (some 0) none none false false),
    .transit 0 (.feed [0, 0, 0, 4, 255, 254, 0, 0])], Actor.times 3 (.inbound 0),
    Actor.times 2 (.task 0), Actor.times 3 (.outbound 0), [.pass 5000, .run (.task 0)]].flatten

/-- The server finds nothing to wait for. -/
def heldUp : EchoServer × World :=
  let empty := EchoServer.start {} true
  let one := empty.1.accept "peer" empty.2
  let left := one.1.interrupt (one.2.performAll closeAsked)
  (left.1, left.2.performAll (Actor.times 2 (.task 1)))

/-- What is left of a connection when a server returns: whether its loops have finished, whether
nothing is buffered, and whether the transport was let go of. -/
def remains (server : EchoServer × World) (i : Nat) : Option (Bool × Bool × Bool × Bool) :=
  server.2.conns[i]?.map fun c =>
    (c.hasFinished .inbound, c.hasFinished .outbound, c.buffer.held.isEmpty, c.sink.released.isSome)

theorem runs_cutShort : cutShort.1.Runs {} false cutShort.2 := by
  simp only [cutShort]
  exact .all (.interrupt (.accept "second" (.all (.accept "first" .start) rfl))) rfl

theorem runs_heldUp : heldUp.1.Runs {} true heldUp.2 :=
  .all (.interrupt (.all (.accept "peer" .start) rfl)) rfl

/-- Both servers return while a close message is on its way, and no loop of that connection has
finished. One of the two connections was forgotten, the other is on the list. -/
theorem not_leftBehind_cutShort :
    cutShort.1.Runs {} false cutShort.2 ∧ cutShort.1.hasReturned cutShort.2 = true ∧
      cutShort.1.kept = [1] ∧ remains cutShort 0 = some (false, false, false, false) ∧
    heldUp.1.Runs {} true heldUp.2 ∧ heldUp.1.hasReturned heldUp.2 = true ∧
      heldUp.1.kept = [0] ∧ remains heldUp 0 = some (false, false, false, false) :=
  ⟨runs_cutShort, by decide +kernel, by decide +kernel, by decide +kernel, runs_heldUp,
    by decide +kernel, by decide +kernel, by decide +kernel⟩

/-- The second connection of the first server was on the list, and has ended. -/
theorem leftBehind_cutShort : ∃ c, cutShort.2.conns[1]? = some c ∧
    (∀ loop, c.hasFinished loop = true) ∧ c.sink.released ≠ none := by
  obtain ⟨c, here⟩ : ∃ c, cutShort.2.conns[1]? = some c :=
    Option.isSome_iff_exists.mp (by decide +kernel)
  obtain ⟨onList, -⟩ := leftBehind_of_returned runs_cutShort (by decide +kernel) here
  rcases onList (by decide +kernel) with ended | ⟨impossible, -⟩
  · exact ⟨c, here, ended⟩
  · cases impossible

end PacketWire
