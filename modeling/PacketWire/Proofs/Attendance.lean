import PacketWire.Proofs.Serving

/-!
# No claimant is stalled

A claimant that waits has nothing to do, and somebody may still bring it something. The processor
of an echo server is never without need at rest: where it waits for a connection and was not told
of one, all are closed and nothing is queued.
-/

namespace PacketWire

open Connection

namespace EchoServer

variable {config : ConnectionConfig} {s : EchoServer} {w : World}

/-- What can come of a server with deferred delivery, in every order of what peers, the clock and
the tasks do, and of whom it accepts and when it is interrupted. -/
inductive Serves (config : ConnectionConfig) : EchoServer → World → Prop
  | start : Serves config (EchoServer.start config true).1 (EchoServer.start config true).2
  | around {s : EchoServer} {w : World} {happening : Happening} : Serves config s w →
      happening.isAround = true → Serves config s (w.perform happening)
  | accept {s : EchoServer} {w : World} (name : String) : Serves config s w →
      Serves config (s.accept name w).1 (s.accept name w).2
  | interrupt {s : EchoServer} {w : World} : Serves config s w →
      Serves config (s.interrupt w).1 (s.interrupt w).2

/-- The settings that a server gives its connections are those of a session. -/
theorem setup_eq_ok (name : String) (s : EchoServer) :
    Session.setup ⟨name, s.config, some echo, s.delivery, [.ofType .text]⟩ =
      .ok (s.setup name) := by
  simp only [Session.setup, Session.registerAll, Registry.registerType_text]
  rfl

theorem Serves.all {happenings : List Happening} (h : Serves config s w)
    (around : happenings.all (·.isAround) = true) : Serves config s (w.performAll happenings) := by
  induction happenings generalizing w with
  | nil => exact h
  | cons happening happenings ih =>
      obtain ⟨first, rest⟩ := Bool.and_eq_true_iff.mp around
      exact ih (h.around first) rest

theorem Serves.staffed (h : Serves config s w) :
    s.delivery = .deferred 0 ∧ ∃ progress, w.Staffed progress := by
  induction h with
  | start =>
      refine ⟨rfl, .claiming, (World.Reachable.empty 1 []).perform (.process 0 true), ⟨_, rfl⟩, ?_,
        ⟨[], rfl, fun _ member => by cases member⟩, fun waits => by cases waits⟩
      intro i c here
      cases here
  | around _ around ih =>
      obtain ⟨uses, progress, staffed⟩ := ih
      exact ⟨uses, staffed.around around⟩
  | @accept s w name _ ih =>
      obtain ⟨uses, progress, staffed⟩ := ih
      rw [EchoServer.accept]
      split
      · exact ⟨uses, progress, staffed⟩
      · refine ⟨uses, progress, ?_⟩
        rw [announce, uses]
        exact staffed.accept (setup_eq_ok name s) uses
  | @interrupt s w _ ih =>
      obtain ⟨uses, progress, staffed⟩ := ih
      rw [EchoServer.interrupt]
      split
      · exact ⟨uses, progress, staffed⟩
      · have leaves : ∃ progress, World.Staffed progress
            (w.perform (.errands (s.kept.map .close ++ s.kept.map .join))) := staffed.around rfl
        exact ⟨uses, leaves⟩

end EchoServer

namespace World

variable {w : World} {progress : Processing}

/-- A connection that may still bring something to a work queue. -/
theorem Valid.exists_open (valid : w.Valid) {k : Nat} {q : WorkQueue}
    (queue : w.queues[k]? = some q) (attached : 0 < q.attached) :
    ∃ (i : Nat) (c : Connection), w.conns[i]? = some c ∧ c.delivery = .deferred k ∧
      c.state ≠ .closed := by
  rw [valid.booked.attached k q queue, openOn] at attached
  obtain ⟨c, member, opened⟩ := List.countP_pos_iff.mp attached
  obtain ⟨i, here⟩ := List.getElem?_of_mem member
  simp only [keepsOpen, decide_eq_true_eq] at opened
  exact ⟨i, c, here, opened⟩

/-- While anything is queued the processor can go on, or it is handing something over. -/
theorem Staffed.active (h : w.Staffed progress) {q : WorkQueue} (queue : w.queues[0]? = some q)
    (some : q.units ≠ []) :
    (w.step (.task 0)).isSome = true ∨ ∃ suspension, progress = .suspended suspension := by
  obtain ⟨rest, tasks, -⟩ := h.tasks
  have here : w.tasks[0]? = Option.some (.running (.process 0 true progress)) := by
    rw [tasks, List.getElem?_cons_zero]
  simp only [World.step, here, jobStep, queue, Option.isSome_map]
  cases progress with
  | claiming =>
      rw [processStep]
      split <;> exact .inl rfl
  | looking => exact .inl rfl
  | waiting =>
      have raised : q.signalled = true := by
        by_contra quiet
        exact some (h.reachable.attentive 0 0 true q here queue (by simpa using quiet)).1
      rw [processStep, if_pos raised]
      exact .inl rfl
  | suspended suspension => exact .inr ⟨suspension, rfl⟩
  | awaitingPeer =>
      have raised : q.arrived = true := by
        by_contra quiet
        exact some ((h.rests rfl q queue (by simpa using quiet)).empty q queue)
      rw [processStep, if_pos raised]
      exact .inl rfl

end World

/-- No claimant is stalled, in any run. One that waits and has no wake-up finds its work queue
empty, and a connection that uses it is open. The processor of an echo server runs for as long as
the server does; where it waits for a connection and has no wake-up, the work queue is empty and
every connection is closed, so while anything is queued it can go on or is handing something
over. -/
theorem nobodyStalled :
    (∀ {w : World}, w.Reachable → ∀ (t k : Nat) (resident : Bool) (q : WorkQueue),
      w.tasks[t]? = some (.running (.process k resident .waiting)) → w.queues[k]? = some q →
      q.signalled = false →
      q.units = [] ∧ ∃ (i : Nat) (c : Connection), w.conns[i]? = some c ∧
        c.delivery = .deferred k ∧ c.state ≠ .closed) ∧
    ∀ {config : ConnectionConfig} {s : EchoServer} {w : World}, s.Serves config w →
      ∃ q progress, w.queues[0]? = some q ∧
        w.tasks[0]? = some (.running (.process 0 true progress)) ∧
        (progress = .awaitingPeer → q.arrived = false →
          q.units = [] ∧ ∀ (i : Nat) (c : Connection), w.conns[i]? = some c → c.state = .closed) ∧
        (q.units ≠ [] →
          (w.step (.task 0)).isSome = true ∨ ∃ suspension, progress = .suspended suspension) := by
  constructor
  · intro w reached t k resident q waits queue quiet
    obtain ⟨empty, attached⟩ := reached.attentive t k resident q waits queue quiet
    exact ⟨empty, reached.valid.exists_open queue attached⟩
  · intro config s w serves
    obtain ⟨-, progress, staffed⟩ := serves.staffed
    obtain ⟨q, queue⟩ := staffed.queue
    obtain ⟨rest, tasks, -⟩ := staffed.tasks
    refine ⟨q, progress, queue, by rw [tasks, List.getElem?_cons_zero], ?_, staffed.active queue⟩
    intro waits quiet
    have done := staffed.rests waits q queue quiet
    exact ⟨done.empty q queue, fun i c here => done.state_eq here (staffed.uses i c here)⟩

/-- A claimant that has handed over what there was, took the wake-up of it in vain, and waits. -/
def openHouse : World :=
  (World.empty 1).performAll [[.start { Session.Opening.plain with delivery := .deferred 0 },
    .transit 0 (.feed [0, 0, 0, 3, 255, 253, 0])], Actor.times 3 (.inbound 0), [.process 0 false],
    Actor.times 4 (.task 0)].flatten

/-- What follows the acceptance of a peer that goes away at once. -/
def comeAndGone : List Happening :=
  [Actor.times 3 (.task 0), [.transit 0 (.finish .endOfStream)], Actor.times 2 (.inbound 0),
    Actor.times 5 (.outbound 0), [.pass 50, .run (.inbound 0)], Actor.times 2 (.task 0)].flatten

/-- A server whose processor rested before its only peer came and rests again. -/
def closingTime : EchoServer × World :=
  let (s, w) := EchoServer.start {} true
  let (s, w) := s.accept "peer" (w.performAll (Actor.times 2 (.task 0)))
  (s, w.performAll comeAndGone)

theorem nobodyStalled_closingTime :
    (∃ q, openHouse.queues[0]? = some q ∧ q.units = [] ∧
      ∃ (i : Nat) (c : Connection), openHouse.conns[i]? = some c ∧ c.delivery = .deferred 0 ∧
        c.state ≠ .closed) ∧
    ∃ q, closingTime.2.queues[0]? = some q ∧ closingTime.2.conns.length = 1 ∧ q.units = [] ∧
      ∀ (i : Nat) (c : Connection), closingTime.2.conns[i]? = some c → c.state = .closed := by
  obtain ⟨claimants, processors⟩ := nobodyStalled
  constructor
  · have reached : openHouse.Reachable := (World.Reachable.empty 1 []).performAll _
    obtain ⟨q, queue⟩ : ∃ q, openHouse.queues[0]? = some q := ⟨_, rfl⟩
    have quiet : openHouse.queues[0]?.map (·.signalled) = some false := by rfl
    rw [queue, Option.map_some, Option.some.injEq] at quiet
    exact ⟨q, queue, claimants reached 0 0 false q rfl queue quiet⟩
  · have serves : closingTime.1.Serves {} closingTime.2 :=
      .all (.accept "peer" (.all .start rfl)) rfl
    obtain ⟨q, progress, queue, place, rests, -⟩ := processors serves
    have waits : closingTime.2.tasks[0]? = some (.running (.process 0 true .awaitingPeer)) := by rfl
    rw [waits] at place
    cases place
    have quiet : closingTime.2.queues[0]?.map (·.arrived) = some false := by rfl
    rw [queue, Option.map_some, Option.some.injEq] at quiet
    exact ⟨q, queue, rfl, rests rfl quiet⟩

end PacketWire
