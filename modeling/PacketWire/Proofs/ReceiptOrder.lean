import PacketWire.Proofs.Accounts

/-!
# The order in which a deferred connection shows what it receives

Events go on the work queue in the order of their frames and leave it from the front. What becomes
of that order then depends on those who take them out: a task that has to wait for a close may have
some of them in hand while another takes those behind and shows them first, and `overtaken` is a
run in which this happens. Where tasks take events of a connection out in turn, that is, only while
no other has any in hand or waits for a close of it, they are shown in the order of the frames. This
is always so where nobody collects for a single connection.
-/

namespace PacketWire

open Connection Entry

/-- Whether a task has something of a connection in hand: units to hand on, or a close that it waits
for. -/
def Task.holds (i : Nat) (task : Task) : Bool :=
  task.units.any (·.conn = i) || task.suspension?.any (·.conn = i)

/-- The job that a task goes on with. -/
def Task.job? : Task → Option Job
  | .running job => some job
  | .ended _ => none

namespace World

variable {w : World} {i k : Nat} {notifyControl : Bool} {happenings : List Happening}

theorem draws_looking_iff {resident : Bool} : w.Draws i (.process k resident .looking) ↔
    ∃ q ∈ w.queues[k]?, ∃ unit ∈ q.units.head?, unit.conn = i := by
  simp only [Draws, Option.mem_def, List.head?_eq_some_iff]
  exact ⟨fun ⟨q, unit, units, queue, front, conn⟩ => ⟨q, queue, unit, ⟨units, front⟩, conn⟩,
    fun ⟨q, queue, unit, ⟨units, front⟩, conn⟩ => ⟨q, unit, units, queue, front, conn⟩⟩

theorem draws_waiting_iff {resident : Bool} : w.Draws i (.process k resident .waiting) ↔
    ∃ q ∈ w.queues[k]?, q.signalled = true ∧ ∃ unit ∈ q.units.head?, unit.conn = i := by
  simp only [Draws, Option.mem_def, List.head?_eq_some_iff]
  exact ⟨fun ⟨q, unit, units, queue, signal, front, conn⟩ =>
      ⟨q, queue, signal, unit, ⟨units, front⟩, conn⟩,
    fun ⟨q, queue, signal, unit, ⟨units, front⟩, conn⟩ =>
      ⟨q, unit, units, queue, signal, front, conn⟩⟩

instance (w : World) (i : Nat) : (job : Job) → Decidable (w.Draws i job)
  | .collect _ .starting => inferInstanceAs (Decidable (_ ∧ _))
  | .process _ _ .looking => decidable_of_iff _ draws_looking_iff.symm
  | .process _ _ .waiting => decidable_of_iff _ draws_waiting_iff.symm
  | .collect _ (.dispatching ..) | .collect _ (.suspended ..) | .errands .. | .process _ _ .claiming
  | .process _ _ (.suspended _) | .process _ _ .awaitingPeer => inferInstanceAs (Decidable False)

/-- Whenever a task takes something of the connection out of its work queue in a run, no other task
has anything of it in hand. -/
def InTurn (i : Nat) : World → List Happening → Prop
  | _, [] => True
  | w, happening :: happenings =>
    (∀ t ∈ happening.task?, ∀ job ∈ w.tasks[t]?.bind Task.job?, w.Draws i job →
      ∀ other ∈ w.tasks.eraseIdx t, other.holds i = false) ∧
      InTurn i (w.perform happening) happenings

instance (i : Nat) : (w : World) → (happenings : List Happening) → Decidable (w.InTurn i happenings)
  | _, [] => inferInstanceAs (Decidable True)
  | w, happening :: happenings =>
    have := instDecidableInTurn i (w.perform happening) happenings
    inferInstanceAs (Decidable (_ ∧ _))

theorem hand_eq_empty_iff {task : Task} :
    (Group.single k i notifyControl).hand task = .empty ↔ task.holds i = false := by
  have units : (Group.single k i notifyControl).items task.units = [] ↔
      task.units.any (·.conn = i) = false := by
    simp [Group.items, Group.own, Group.single, List.filter_map]
  have due : task.suspension?.bind (Group.single k i notifyControl).due = none ↔
      task.suspension?.any (·.conn = i) = false := by
    cases task.suspension? <;> simp [Group.due, Group.single]
  rw [Task.holds, Bool.or_eq_false_iff, ← units, ← due, Group.hand, Hand.empty, Hand.mk.injEq]

/-- For one connection, that is what it means to work in turn. -/
theorem isFair_single_iff {t : Nat} {job : Job} :
    (Group.single k i notifyControl).IsFair w t job ↔
      (w.Draws i job → ∀ other ∈ w.tasks.eraseIdx t, other.holds i = false) := by
  have member (j : Nat) : (Group.single k i notifyControl).member j = true ↔ j = i := beq_iff_eq
  simp only [Group.IsFair, member, exists_eq_left, hand_eq_empty_iff, forall_eq,
    List.mem_eraseIdx_iff_getElem?]
  constructor
  · rintro fair draws other ⟨u, apart, there⟩
    exact (fair draws).1 u other there apart
  · intro fair draws
    refine ⟨fun u other there apart => fair draws other ⟨u, apart, there⟩, ?_⟩
    rintro j rfl
    exact draws.1.symm

theorem mem_bind_job? {t : Nat} {job : Job} :
    job ∈ w.tasks[t]?.bind Task.job? ↔ w.tasks[t]? = some (.running job) := by
  cases w.tasks[t]? with
  | none => simp
  | some task => cases task <;> simp [Task.job?]

theorem takesTurns_single_iff :
    (Group.single k i notifyControl).TakesTurns w happenings ↔ w.InTurn i happenings := by
  induction happenings generalizing w with
  | nil => exact Iff.rfl
  | cons happening happenings ih =>
      simp only [Group.TakesTurns, InTurn, isFair_single_iff, mem_bind_job?]
      exact and_congr ⟨fun fair t ran job place => fair t job ran place,
        fun fair t job ran place => fair t ran job place⟩ ih

/-- Where nobody collects for a single connection, claimants take everything in turn. -/
theorem inTurn_of_claimants {queues : Nat} {wires : List (Nat × Nat)} {c : Connection}
    (goesOn : ∀ t, .abort t ∉ happenings) (others : ∀ i, .collect i ∉ happenings)
    (here : (performAll happenings { empty queues with wires }).conns[i]? = some c)
    (uses : c.delivery = .deferred k) : InTurn i { empty queues with wires } happenings := by
  have free : CollectsNothing { empty queues with wires } := fun _ member => by cases member
  exact takesTurns_single_iff.mp
    (free.takesTurns (.empty queues wires) goesOn others (Group.fits_single here uses))

end World

/-- Where tasks take events of a connection out in turn, it shows them in the order of their frames.
All that it was fed is the frames it handled, in order, and what is not handled yet. Some of these
frames, in their order, are its events; these were put on the work queue in the same order, and
handed on and shown in the same order, up to a last one whose calls have to wait for a close, those
that a task has in hand, and those still queued. -/
theorem receiptOrder_of_run {queues : Nat} {wires : List (Nat × Nat)} {happenings : List Happening}
    {w : World} {i k : Nat} {q : WorkQueue} {c : Connection}
    (goesOn : ∀ t, .abort t ∉ happenings)
    (run : World.performAll happenings { World.empty queues with wires } = w)
    (queue : w.queues[k]? = some q) (here : w.conns[i]? = some c)
    (uses : c.delivery = .deferred k)
    (inTurn : World.InTurn i { World.empty queues with wires } happenings) :
    c.source.fed = c.handledBodies.flatMap Frame.ofBody ++ c.readAhead ++ c.source.chunks.flatten ∧
    (∃ bodies, bodies.Sublist c.handledBodies ∧ List.Forall₂ Means bodies c.deferredEvents) ∧
    c.deferredEvents = c.dispatchedEvents ++ w.inHand i ++ WorkUnit.eventsOf i q.units ∧
    c.shownCalls ++ w.stillDue i c.config.notifyControl =
      c.dispatchedEvents.flatMap (Event.calls c.config.notifyControl) ∧
    c.shownCalls <+: c.deferredEvents.flatMap (Event.calls c.config.notifyControl) := by
  have reached : w.Reachable := run ▸ (World.Reachable.empty queues wires).performAll happenings
  obtain ⟨inOrder, shown⟩ := Group.ordered_of_run goesOn run queue here uses
    (World.takesTurns_single_iff.mpr inTurn)
  refine ⟨(reached.valid.conns i c here).coherent.fed, (reached.inStep here).bodies, inOrder, shown,
    ?_⟩
  rw [inOrder, List.append_assoc, List.flatMap_append, ← shown, List.append_assoc]
  exact List.prefix_append _ _

/-- Somebody collects one packet and shows it, a claimant takes the next, and somebody has collected
the third. -/
def takenInTurn : List Happening :=
  [.start { Session.Opening.plain with delivery := .deferred 0 },
    .transit 0 (.feed [0, 0, 0, 2, 0, 101, 0, 0, 0, 2, 0, 102, 0, 0, 0, 2, 0, 103])] ++
  List.replicate 3 (.run (.inbound 0)) ++ [.collect 0, .run (.task 0), .run (.task 0),
    .run (.task 0), .run (.inbound 0), .process 0 false, .run (.task 1), .run (.task 1),
    .run (.inbound 0), .collect 0, .run (.task 2)]

theorem receiptOrder_takenInTurn :
    ∃ c, (World.performAll takenInTurn (World.empty 1)).conns[0]? = some c ∧
      c.handledBodies = [[0, 101], [0, 102], [0, 103]] ∧
      c.deferredEvents = [.unknown 101, .unknown 102] ++ [.unknown 103] ++ [] ∧
      c.shownCalls = [.unknown 101, .unknown 102] ∧
      c.shownCalls <+: c.deferredEvents.flatMap (Event.calls c.config.notifyControl) := by
  obtain ⟨w, run⟩ : ∃ w, World.performAll takenInTurn { World.empty 1 with wires := [] } = w :=
    ⟨_, rfl⟩
  have goesOn : ∀ t, .abort t ∉ takenInTurn := by simp [takenInTurn]
  have inTurn : World.InTurn 0 { World.empty 1 with wires := [] } takenInTurn := by decide
  obtain ⟨q, c, queue, here, uses, handled, empty, dispatched, inHand, shown⟩ :
      ∃ q c, w.queues[0]? = some q ∧ w.conns[0]? = some c ∧ c.delivery = .deferred 0 ∧
        c.handledBodies = [[0, 101], [0, 102], [0, 103]] ∧ q.units = [] ∧
        c.dispatchedEvents = [.unknown 101, .unknown 102] ∧ w.inHand 0 = [.unknown 103] ∧
        c.shownCalls = [.unknown 101, .unknown 102] := by
    subst run
    exact ⟨_, _, rfl, rfl, rfl, rfl, rfl, rfl, rfl, rfl⟩
  obtain ⟨-, -, inOrder, -, first⟩ := receiptOrder_of_run goesOn run queue here uses inTurn
  rw [dispatched, inHand, empty] at inOrder
  exact ⟨c, run ▸ here, handled, inOrder, shown, first⟩

/-- Somebody collects a close message and the packet behind it, and waits for the connection to
close. Meanwhile a claimant takes the next packet and shows it at once. -/
def overtaken : List Happening :=
  [.start { Session.Opening.plain with delivery := .deferred 0 },
    .transit 0 (.feed [0, 0, 0, 4, 255, 254, 0, 0, 0, 0, 0, 2, 0, 101])] ++
  List.replicate 4 (.run (.inbound 0)) ++ [.collect 0, .run (.task 0), .run (.task 0),
    .transit 0 (.feed [0, 0, 0, 2, 0, 102]), .run (.inbound 0), .run (.inbound 0),
    .process 0 false, .run (.task 1), .run (.task 1), .pass closeTimeout, .run (.task 0),
    .run (.inbound 0), .run (.outbound 0), .run (.outbound 0), .run (.task 0), .run (.task 0)]

theorem not_receiptOrder_overtaken : (∀ t, .abort t ∉ overtaken) ∧
    ∃ c, (World.performAll overtaken (World.empty 1)).conns[0]? = some c ∧
      c.delivery = .deferred 0 ∧ c.handledBodies = [[255, 254, 0, 0], [0, 101], [0, 102]] ∧
      c.deferredEvents = [.packet (.close ""), .unknown 101, .unknown 102] ∧
      c.shownCalls = [.unknown 102, .unknown 101] ∧
      ¬ c.shownCalls <+: c.deferredEvents.flatMap (Event.calls c.config.notifyControl) := by
  refine ⟨by simp [overtaken], ?_⟩
  obtain ⟨c, here, uses, silent, handled, deferred, shown⟩ :
      ∃ c, (World.performAll overtaken (World.empty 1)).conns[0]? = some c ∧
        c.delivery = .deferred 0 ∧ c.config.notifyControl = false ∧
        c.handledBodies = [[255, 254, 0, 0], [0, 101], [0, 102]] ∧
        c.deferredEvents = [.packet (.close ""), .unknown 101, .unknown 102] ∧
        c.shownCalls = [.unknown 102, .unknown 101] :=
    ⟨_, rfl, rfl, rfl, rfl, rfl, rfl⟩
  refine ⟨c, here, uses, handled, deferred, shown, ?_⟩
  rw [shown, deferred, silent]
  intro ahead
  have first : HookCall.unknown 102 = .unknown 101 := (List.cons_prefix_cons.mp ahead).1
  exact absurd (HookCall.unknown.inj first) (by decide)

end PacketWire
