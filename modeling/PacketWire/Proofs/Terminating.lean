import Mathlib.Data.Nat.Count
import Mathlib.Data.Nat.Pairing
import PacketWire.Proofs.Forever
import PacketWire.Proofs.Halting

/-!
# Every close comes to an end

Whatever its transport does, a connection that leaves `active` is closed in the end, if everybody is
let run again and again and nobody gives up a close that it carries out. The wait for the send queue
has its deadline; after it both loops are told to end, and neither waits for the close any more.
-/

namespace PacketWire

open Connection

/-- The send queue is not waited for any longer. -/
def Stage.isOver : Stage → Bool
  | .held _ (.joining _) => true
  | .closed => true
  | _ => false

/-- The actor that a loop of a connection is. -/
def Loop.actor (i : Nat) : Loop → Actor
  | .inbound => .inbound i
  | .outbound => .outbound i

/-- Nothing of a connection goes on, and nothing is left of what it had to send. -/
structure Connection.HasEnded (c : Connection) : Prop where
  closed : c.state = .closed
  cancelled : c.cancelled = true
  finished : ∀ loop, c.hasFinished loop = true
  packets : c.queue.packets = []
  drained : c.queue.isDrained = true
  released : c.sink.released ≠ none

namespace World

variable {w : World} {i n : Nat} {c e : Connection} {happening : Happening}
  {course : Nat → Happening} {stage stage' : Stage}

/-- Whoever carries out a close wakes up and looks at the send queue. -/
def Polls (w : World) (i : Nat) (happening : Happening) : Prop :=
  ∃ c holder deadline wake, w.conns[i]? = some c ∧
    w.Carries i c holder (.draining deadline wake) ∧ happening = .run holder ∧ wake ≤ w.now

/-- A close that an actor carries out waits until another actor has finished. -/
inductive WaitsOn (w : World) : Actor → Actor → Prop
  | loop {i : Nat} {c : Connection} {holder : Actor} {loops : List Loop} {loop : Loop} :
      w.conns[i]? = some c → w.Carries i c holder (.joining loops) → loop ∈ loops →
      WaitsOn w holder (loop.actor i)

/-- Nobody gives up a close of a connection that it carries out. -/
def SeesThrough (w : World) (i : Nat) (course : Nat → Happening) : Prop :=
  ∀ n t c wait, (w.after course n).conns[i]? = some c →
    (w.after course n).Carries i c (.task t) wait → course n ≠ .abort t

/-- One happening, and what it has to do with the closing of a connection. -/
structure Turn (w : World) (i : Nat) (happening : Happening) (c e : Connection)
    (stage stage' : Stage) : Prop where
  here : w.conns[i]? = some c
  there : (w.perform happening).conns[i]? = some e
  before : w.IsAt i c stage
  after : (w.perform happening).IsAt i e stage'
  next : Next w i happening c e stage stage'
  halting : Halting w.now i happening c e
  /-- Once the send queue is not waited for, both loops are told to end. -/
  told : stage.isOver = true → c.cancelled = true ∧ c.inbound.closer? = none

/-- Who is waited for waits for nobody, so nobody waits for itself, nor does one wait for another
that waits for it. -/
theorem WaitsOn.ends {actor other another : Actor} (waits : w.WaitsOn actor other)
    (reached : w.Reachable) : ¬w.WaitsOn other another := by
  have task {holder another : Actor} (waits : w.WaitsOn holder another) :
      ∃ t, holder = .task t := by
    cases waits with
    | loop here carries =>
        cases carries with
        | inbound closer => exact absurd closer (reached.closer_ne_joining here _)
        | task => exact ⟨_, rfl⟩
  intro circle
  obtain ⟨t, same⟩ := task circle
  cases waits with
  | @loop i c holder loops loop => cases loop <;> cases same

/-- What is true of a connection whose send queue is not waited for any longer. -/
theorem IsAt.told (stands : w.IsAt i c stage) (beyond : stage.isOver = true) (reached : w.Reachable)
    (here : w.conns[i]? = some c) : c.cancelled = true ∧ c.inbound.closer? = none := by
  have free (busy : ∀ deadline wake, stage ≠ .held (.inbound i) (.draining deadline wake)) :
      c.inbound.closer? = none := by
    cases closer : c.inbound.closer? with
    | none => rfl
    | some wait =>
        have same := stands.eq_held (.inbound closer) reached.valid here
        cases wait with
        | draining deadline wake => exact absurd same (busy deadline wake)
        | joining loops => exact absurd closer (reached.closer_ne_joining here loops)
  cases stands with
  | active => cases beyond
  | closed closed =>
      exact ⟨(reached.valid.conns i c here).orderly.cancelled closed, free (by simp)⟩
  | @held holder wait carries =>
      cases wait with
      | draining => cases beyond
      | joining loops => exact ⟨(carries.fits reached.valid here).2, free (by simp)⟩

theorem exists_turn (reached : w.Reachable) (here : w.conns[i]? = some c)
    (stands : w.IsAt i c stage)
    (kept : ∀ t wait, w.Carries i c (.task t) wait → happening ≠ .abort t) :
    ∃ e stage', w.Turn i happening c e stage stage' := by
  obtain ⟨e, there, -⟩ := (reached.valid.perform happening).2 i c here
  obtain ⟨stage', after, next⟩ := exists_next reached here there stands kept
  exact ⟨e, stage', {
    here, there, before := stands, after, next
    halting := halting_perform reached here there
    told := fun beyond => stands.told beyond reached here }⟩

theorem SeesThrough.exists_turn (through : w.SeesThrough i course) (reached : w.Reachable)
    (here : (w.after course n).conns[i]? = some c) (stands : (w.after course n).IsAt i c stage) :
    ∃ e stage', (w.after course n).Turn i (course n) c e stage stage' :=
  World.exists_turn (reached.after course n) here stands fun t wait => through n t c wait here

/-- Where a connection is in a course. -/
def Stands (w : World) (course : Nat → Happening) (i n : Nat) (stage : Stage) : Prop :=
  ∃ c, (w.after course n).conns[i]? = some c ∧ (w.after course n).IsAt i c stage

theorem Stands.turn (stands : w.Stands course i n stage) (reached : w.Reachable)
    (through : w.SeesThrough i course) : ∃ c e stage',
      (w.after course n).Turn i (course n) c e stage stage' ∧
      w.Stands course i (n + 1) stage' := by
  obtain ⟨c, here, stands⟩ := stands
  obtain ⟨e, stage', turn⟩ := through.exists_turn reached here stands
  exact ⟨c, e, stage', turn, e, turn.there, turn.after⟩

theorem exists_stands (reached : w.Reachable) (through : w.SeesThrough i course)
    (before : w.Stands course i 0 stage) (n : Nat) : ∃ stage, w.Stands course i n stage := by
  induction n with
  | zero => exact ⟨stage, before⟩
  | succ n ih =>
      obtain ⟨stage, stands⟩ := ih
      obtain ⟨c, e, stage', -, next⟩ := stands.turn reached through
      exact ⟨stage', next⟩

/-! ### How often the send queue is looked at -/

/-- How often the send queue was looked at by now, for a wait that has still to end and for one that
has ended. Every look is ten milliseconds later than the one before. -/
def Polled : Stage → Nat → Prop
  | .active, count => count = 0
  | .held _ (.draining deadline wake), count =>
    deadline + closePoll * (count + 1) ≤ wake + closeTimeout ∧ wake < deadline + closePoll
  | .held _ (.joining _), count => count ≤ closeTimeout / closePoll
  | .closed, count => count ≤ closeTimeout / closePoll

theorem Polled.le {count : Nat} (polled : Polled stage count) :
    count ≤ closeTimeout / closePoll := by
  unfold Polled at polled
  split at polled
  · rw [polled]
    exact Nat.zero_le _
  · simp only [closePoll, closeTimeout] at polled ⊢
    omega
  · exact polled
  · exact polled

theorem not_le_of_isDrainOver {deadline now : Nat} (waits : c.isDrainOver deadline now = false) :
    ¬deadline ≤ now := by
  intro late
  simp [isDrainOver, late] at waits

theorem Turn.polled (turn : w.Turn i happening c e stage stage') (reached : w.Reachable)
    {count : Nat} (before : Polled stage count) :
    (¬w.Polls i happening → Polled stage' count) ∧
      (w.Polls i happening → Polled stage' (count + 1)) := by
  have held (polls : w.Polls i happening) : ∃ holder deadline wake,
      stage = .held holder (.draining deadline wake) ∧ happening = .run holder ∧ wake ≤ w.now := by
    obtain ⟨c', holder, deadline, wake, here, carries, runs, due⟩ := polls
    obtain rfl : c' = c := Option.some.inj (here.symm.trans turn.here)
    exact ⟨holder, deadline, wake, turn.before.eq_held carries reached.valid here, runs, due⟩
  have polls {holder : Actor} {deadline wake : Nat}
      (same : stage = .held holder (.draining deadline wake)) (runs : happening = .run holder)
      (due : wake ≤ w.now) : w.Polls i happening := by
    have stands := turn.before
    rw [same] at stands
    cases stands with
    | held carries => exact ⟨c, holder, deadline, wake, turn.here, carries, runs, due⟩
  cases turn.next with
  | stays rests =>
      refine ⟨fun _ => before, fun polls => ?_⟩
      obtain ⟨holder, deadline, wake, rfl, runs, due⟩ := held polls
      have asleep := rests holder _ rfl runs
      simp [canProceed, due] at asleep
  | begins =>
      obtain rfl : count = 0 := before
      refine ⟨fun _ => ?_, fun polls => ?_⟩
      · simp only [Polled, closePoll, closeTimeout]
        omega
      · obtain ⟨_, _, _, same, -⟩ := held polls
        cases same
  | breaks =>
      obtain rfl : count = 0 := before
      refine ⟨fun _ => Nat.zero_le _, fun polls => ?_⟩
      obtain ⟨_, _, _, same, -⟩ := held polls
      cases same
  | looks runs due waits =>
      refine ⟨fun none => absurd (polls rfl runs due) none, fun _ => ?_⟩
      have early := not_le_of_isDrainOver waits
      simp only [Polled, closePoll, closeTimeout] at before ⊢
      omega
  | ends runs due | joins runs due =>
      refine ⟨fun none => absurd (polls rfl runs due) none, fun _ => ?_⟩
      simp only [Polled, closePoll, closeTimeout] at before ⊢
      omega
  | awaits | returns =>
      refine ⟨fun _ => before, fun polls => ?_⟩
      obtain ⟨_, _, _, same, -⟩ := held polls
      cases same

open Classical in
/-- The send queue is looked at five hundred times at most. -/
theorem card_polls_le (reached : w.Reachable) (through : w.SeesThrough i course)
    (before : w.Stands course i 0 .active) (polls : Finset Nat)
    (all : ∀ n ∈ polls, (w.after course n).Polls i (course n)) :
    polls.card ≤ closeTimeout / closePoll := by
  have counted (n : Nat) : ∃ stage, w.Stands course i n stage ∧
      Polled stage (Nat.count (fun n => (w.after course n).Polls i (course n)) n) := by
    induction n with
    | zero => exact ⟨_, before, rfl⟩
    | succ n ih =>
        obtain ⟨stage, stands, polled⟩ := ih
        obtain ⟨c, e, stage', turn, next⟩ := stands.turn reached through
        refine ⟨stage', next, ?_⟩
        rw [Nat.count_succ]
        split
        · exact (turn.polled (reached.after course n) polled).2 ‹_›
        · exact (turn.polled (reached.after course n) polled).1 ‹_›
  obtain ⟨last, inside⟩ := polls.exists_nat_subset_range
  obtain ⟨stage, -, polled⟩ := counted last
  refine Nat.le_trans ?_ polled.le
  rw [Nat.count_eq_card_filter_range]
  exact Finset.card_le_card fun n member => Finset.mem_filter.mpr ⟨inside member, all n member⟩

/-! ### What it leads to -/

/-- The send queue of a connection is not waited for any longer, and this is true of it. -/
def Past (w : World) (course : Nat → Happening) (i : Nat) (P : Connection → Prop) (n : Nat) :
    Prop :=
  ∃ c stage, (w.after course n).conns[i]? = some c ∧ (w.after course n).IsAt i c stage ∧
    stage.isOver = true ∧ P c

variable {P Q : Connection → Prop}

theorem Turn.isOver (turn : w.Turn i happening c e stage stage') (beyond : stage.isOver = true) :
    stage'.isOver = true := by
  cases turn.next with
  | stays => exact beyond
  | begins | breaks | looks | ends => cases beyond
  | joins | awaits | returns => rfl

/-- One happening later the send queue is still not waited for. -/
theorem Past.next (past : w.Past course i P n) (reached : w.Reachable)
    (through : w.SeesThrough i course)
    (goesOn : ∀ {c e : Connection} {stage stage' : Stage},
      (w.after course n).Turn i (course n) c e stage stage' → c.cancelled = true →
      c.inbound.closer? = none → P c → Q e) : w.Past course i Q (n + 1) := by
  obtain ⟨c, stage, here, stands, beyond, now⟩ := past
  obtain ⟨e, stage', turn⟩ := through.exists_turn reached here stands
  obtain ⟨cancelled, free⟩ := turn.told beyond
  exact ⟨e, stage', turn.there, turn.after, turn.isOver beyond, goesOn turn cancelled free now⟩

/-- The wait for the send queue ends: nobody looks at it again after the first look that comes when
its time is up. -/
theorem leadsTo_past (fair : w.Fair course) (reached : w.Reachable)
    (through : w.SeesThrough i course) (holder : Actor) {deadline bound : Nat}
    (latest : deadline + closePoll ≤ bound) :
    LeadsTo (fun n => ∃ wake ≤ bound,
        w.Stands course i n (.held holder (.draining deadline wake)))
      (w.Past course i fun _ => True) := by
  refine fair.leadsTo_of_due reached holder bound ?_
  rintro n ⟨wake, soon, stands⟩
  obtain ⟨c, e, stage', turn, next⟩ := stands.turn reached through
  cases turn.next with
  | stays rests =>
      refine .inl ⟨⟨wake, soon, next⟩, fun runs => ?_⟩
      have asleep := rests holder _ rfl runs
      simp only [canProceed, decide_eq_false_iff_not] at asleep
      omega
  | looks _ _ waits =>
      have early := not_le_of_isDrainOver waits
      exact .inl ⟨⟨_, by omega, next⟩, fun _ => by omega⟩
  | ends | joins => exact .inr ⟨e, _, turn.there, turn.after, rfl, trivial⟩

/-- The inbound loop ends. -/
theorem leadsTo_inbound (fair : w.Fair course) (reached : w.Reachable)
    (through : w.SeesThrough i course) :
    LeadsTo (w.Past course i fun _ => True)
      (w.Past course i fun c => c.hasFinished .inbound = true) := by
  refine fair.leadsTo reached (.inbound i) (fun n past => .inl ?_) fun n past runs => ?_
  · exact past.next reached through fun _ _ _ _ => trivial
  · refine past.next reached through fun turn cancelled free _ => ?_
    rw [hasFinished, turn.halting.inbound cancelled free runs]

/-- The outbound loop stops, unless it has done so already. -/
theorem leadsTo_shutting (fair : w.Fair course) (reached : w.Reachable)
    (through : w.SeesThrough i course) :
    LeadsTo (w.Past course i fun c => c.hasFinished .inbound = true)
      (w.Past course i fun c => c.hasFinished .inbound = true ∧
        (c.outbound = .finished ∨ ∃ deadline, c.outbound = .shutting deadline)) := by
  refine fair.leadsTo reached (.outbound i) (fun n past => .inl ?_) fun n past runs => ?_
  · exact past.next reached through fun turn _ _ finished =>
      turn.halting.lasts .inbound finished
  · refine past.next reached through fun {c e _ _} turn cancelled _ finished => ?_
    refine ⟨turn.halting.lasts .inbound finished, ?_⟩
    by_cases done : c.outbound = .finished
    · refine .inl (eq_finished_of_outbound (turn.halting.lasts .outbound ?_))
      rw [hasFinished, done]
    · by_cases shutting : ∃ deadline, c.outbound = .shutting deadline
      · obtain ⟨deadline, place⟩ := shutting
        rcases turn.halting.shutting deadline place runs with finished | ⟨-, same, -⟩
        · exact .inl finished
        · exact .inr ⟨deadline, same.trans place⟩
      · exact .inr ⟨_, (turn.halting.outbound cancelled
          (fun deadline place => shutting ⟨deadline, place⟩) done runs).1⟩

/-- The sink is shut down: in the end there is nothing left to be written, or no time. -/
theorem leadsTo_finished (fair : w.Fair course) (reached : w.Reachable)
    (through : w.SeesThrough i course) (deadline : Nat) :
    LeadsTo (w.Past course i fun c => c.hasFinished .inbound = true ∧
        c.outbound = .shutting deadline)
      (w.Past course i fun c => ∀ loop, c.hasFinished loop = true) := by
  refine fair.leadsTo_of_due reached (.outbound i) deadline ?_
  rintro n ⟨c, stage, here, stands, beyond, finished, place⟩
  obtain ⟨e, stage', turn⟩ := through.exists_turn reached here stands
  have past {P : Connection → Prop} (now : P e) : w.Past course i P (n + 1) :=
    ⟨e, stage', turn.there, turn.after, turn.isOver beyond, now⟩
  have still : e.hasFinished .inbound = true := turn.halting.lasts .inbound finished
  by_cases runs : course n = .run (.outbound i)
  · rcases turn.halting.shutting deadline place runs with done | ⟨early, same, -⟩
    · refine .inr (past fun loop => ?_)
      cases loop with
      | inbound => exact still
      | outbound => rw [hasFinished, done]
    · exact .inl ⟨past ⟨still, same.trans place⟩, fun _ => early⟩
  · obtain ⟨same, -⟩ := outbound_perform (reached.after course n) turn.here turn.there runs
    exact .inl ⟨past ⟨still, same.trans place⟩, fun ran => absurd ran runs⟩

/-- What is true of a connection that is closed and whose loops have finished. -/
theorem hasEnded_of_finished (reached : w.Reachable) (here : w.conns[i]? = some c)
    (finished : ∀ loop, c.hasFinished loop = true) (closed : c.state = .closed) : c.HasEnded := by
  have valid := reached.valid.conns i c here
  have tallied := valid.tallied
  rw [Tallied, eq_finished_of_outbound (finished .outbound)] at tallied
  exact {
    closed, finished
    cancelled := valid.orderly.cancelled closed
    packets := tallied.1.packets
    drained := beq_iff_eq.mpr tallied.1.unaccounted
    released := tallied.2 }

/-- Whoever waits for loops that have finished goes on, and has nothing to wait for any more. -/
theorem canProceed_of_finished (finished : ∀ loop, c.hasFinished loop = true) (now : Nat)
    (loops : List Loop) : c.canProceed now (.joining loops) = true ∧ c.stillRunning loops = [] := by
  constructor
  · cases loops with
    | nil => rfl
    | cons loop loops => exact finished loop
  · exact List.dropWhile_eq_nil_iff.mpr fun loop _ => finished loop

/-- A task that waits for loops that have finished closes the connection. -/
theorem leadsTo_returned (fair : w.Fair course) (reached : w.Reachable)
    (through : w.SeesThrough i course) (holder : Actor) (loops : List Loop) :
    LeadsTo (fun n => ∃ c, (w.after course n).conns[i]? = some c ∧
        (w.after course n).IsAt i c (.held holder (.joining loops)) ∧
        ∀ loop, c.hasFinished loop = true)
      (w.Past course i Connection.HasEnded) := by
  refine fair.leadsTo_of_due reached holder 0 ?_
  rintro n ⟨c, here, stands, finished⟩
  obtain ⟨e, stage', turn⟩ := through.exists_turn reached here stands
  have still (loop : Loop) : e.hasFinished loop = true := turn.halting.lasts loop (finished loop)
  obtain ⟨awake, none⟩ := canProceed_of_finished finished (w.after course n).now loops
  have after := turn.after
  cases turn.next with
  | stays rests =>
      refine .inl ⟨⟨e, turn.there, after, still⟩, fun runs => ?_⟩
      rw [rests holder _ rfl runs] at awake
      cases awake
  | awaits _ _ some => exact absurd none some
  | returns =>
      cases after with
      | closed closed =>
          exact .inr ⟨e, _, turn.there, .closed closed, rfl,
            hasEnded_of_finished (reached.after course (n + 1)) turn.there still closed⟩

theorem leadsTo_closed (fair : w.Fair course) (reached : w.Reachable)
    (through : w.SeesThrough i course) :
    LeadsTo (w.Past course i fun c => ∀ loop, c.hasFinished loop = true)
      (w.Past course i Connection.HasEnded) := by
  rintro n ⟨c, stage, here, stands, beyond, finished⟩
  cases stands with
  | active => cases beyond
  | closed closed =>
      exact ⟨n, Nat.le_refl n, c, _, here, .closed closed, rfl,
        hasEnded_of_finished (reached.after course n) here finished closed⟩
  | @held holder wait carries =>
      cases wait with
      | draining => cases beyond
      | joining loops =>
          exact leadsTo_returned fair reached through holder loops n
            ⟨c, here, .held carries, finished⟩

/-- A connection whose close has begun is closed in the end, and both loops have finished. -/
theorem leadsTo_hasEnded (fair : w.Fair course) (reached : w.Reachable)
    (through : w.SeesThrough i course) :
    LeadsTo (fun n => ∃ stage, stage ≠ .active ∧ w.Stands course i n stage)
      (w.Past course i Connection.HasEnded) := by
  have drained : LeadsTo (fun n => ∃ stage, stage ≠ .active ∧ w.Stands course i n stage)
      (w.Past course i fun _ => True) := by
    rintro n ⟨stage, begun, stands⟩
    have already (beyond : stage.isOver = true) :
        ∃ m, n ≤ m ∧ w.Past course i (fun _ => True) m := by
      obtain ⟨c, here, place⟩ := stands
      exact ⟨n, Nat.le_refl n, c, stage, here, place, beyond, trivial⟩
    cases stage with
    | active => exact absurd rfl begun
    | closed => exact already rfl
    | held holder wait =>
        cases wait with
        | joining => exact already rfl
        | draining deadline wake =>
            exact leadsTo_past fair reached through holder
              (Nat.le_max_right wake (deadline + closePoll)) n
              ⟨wake, Nat.le_max_left .., stands⟩
  have finished : LeadsTo (w.Past course i fun c => c.hasFinished .inbound = true ∧
        (c.outbound = .finished ∨ ∃ deadline, c.outbound = .shutting deadline))
      (w.Past course i fun c => ∀ loop, c.hasFinished loop = true) := by
    rintro n ⟨c, stage, here, stands, beyond, inbound, done | ⟨deadline, place⟩⟩
    · refine ⟨n, Nat.le_refl n, c, stage, here, stands, beyond, fun loop => ?_⟩
      cases loop with
      | inbound => exact inbound
      | outbound => rw [hasFinished, done]
    · exact leadsTo_finished fair reached through deadline n
        ⟨c, stage, here, stands, beyond, inbound, place⟩
  exact drained.trans ((leadsTo_inbound fair reached through).trans
    ((leadsTo_shutting fair reached through).trans
      (finished.trans (leadsTo_closed fair reached through))))

/-- A connection that leaves `active` is closed in the end, and both loops have finished. -/
theorem leadsTo_hasEnded_of_left (fair : w.Fair course) (reached : w.Reachable)
    (through : w.SeesThrough i course) (here : w.conns[i]? = some c) (active : c.isActive = true) :
    LeadsTo (fun n => ∃ d, (w.after course n).conns[i]? = some d ∧ d.isActive = false)
      (w.Past course i Connection.HasEnded) := by
  refine LeadsTo.trans (LeadsTo.of_imp fun n => ?_) (leadsTo_hasEnded fair reached through)
  rintro ⟨d, there, left⟩
  obtain ⟨stage, stands⟩ := exists_stands reached through ⟨c, here, .active active⟩ n
  refine ⟨stage, ?_, stands⟩
  rintro rfl
  obtain ⟨d', there', stands⟩ := stands
  obtain rfl : d' = d := Option.some.inj (there'.symm.trans there)
  cases stands with
  | active active => cases left.symm.trans active

/-- What has ended stays so. -/
theorem hasEnded_of_le (reached : w.Reachable) (through : w.SeesThrough i course) {m : Nat}
    (later : n ≤ m) (past : w.Past course i Connection.HasEnded n) :
    w.Past course i Connection.HasEnded m := by
  induction m, later using Nat.le_induction with
  | base => exact past
  | succ m _ ih =>
      refine ih.next reached through fun {c e _ _} turn _ _ ended => ?_
      obtain ⟨e', there, later⟩ :=
        ((reached.after course m).valid.perform (course m)).2 i c turn.here
      obtain rfl : e' = e := Option.some.inj (there.symm.trans turn.there)
      exact hasEnded_of_finished (reached.after course (m + 1)) there
        (fun loop => turn.halting.lasts loop (ended.finished loop))
        (later.state_of_closed ended.closed)

/-- A loop that shuts its sink down has stopped before, and had one second then. -/
theorem exists_stopped (reached : w.Reachable) (through : w.SeesThrough i course)
    (here : w.conns[i]? = some c) (active : c.isActive = true) {deadline : Nat}
    (there : (w.after course n).conns[i]? = some e) (place : e.outbound = .shutting deadline) :
    ∃ m < n, course m = .run (.outbound i) ∧
      deadline = (w.after course m).now + shutdownTimeout := by
  induction n generalizing e with
  | zero =>
      obtain rfl : e = c := Option.some.inj (there.symm.trans here)
      have tallied := (reached.valid.conns i e here).tallied
      rw [Tallied, place] at tallied
      cases active.symm.trans tallied.inactive
  | succ n ih =>
      obtain ⟨stage, stands⟩ := exists_stands reached through ⟨c, here, .active active⟩ n
      obtain ⟨d, e', stage', turn, -⟩ := stands.turn reached through
      obtain rfl : e' = e := Option.some.inj (turn.there.symm.trans there)
      rcases turn.halting.begins deadline place with still | ⟨runs, late⟩
      · obtain ⟨m, before, ran, late⟩ := ih turn.here still
        exact ⟨m, Nat.lt_succ_of_lt before, ran, late⟩
      · exact ⟨n, Nat.lt_succ_self n, runs, late⟩

/-- The first stretch of the outbound loop after the time for its shutdown is its last one. -/
theorem exists_finished (reached : w.Reachable) (here : w.conns[i]? = some c) {deadline : Nat}
    (place : c.outbound = .shutting deadline) (late : deadline ≤ w.now) :
    ∃ e, (w.perform (.run (.outbound i))).conns[i]? = some e ∧ e.outbound = .finished := by
  obtain ⟨e, there, -⟩ := (reached.valid.perform (.run (.outbound i))).2 i c here
  refine ⟨e, there, ?_⟩
  rcases (halting_perform reached here there).shutting deadline place rfl with done | ⟨early, -⟩
  · exact done
  · exact absurd late (Nat.not_le_of_lt early)

/-- Nobody carries out the close of a closed connection. -/
theorem not_carries_of_closed (reached : w.Reachable) (here : w.conns[i]? = some c)
    (closed : c.state = .closed) (holder : Actor) (wait : CloseWait) :
    ¬w.Carries i c holder wait := by
  intro carries
  cases (carries.fits reached.valid here).state_eq.symm.trans closed

end World

open World

variable {w : World} {i : Nat} {c : Connection} {course : Nat → Happening}

/-- Every close comes to an end. Whatever transports and callers do in a course, from an active
connection on, unless somebody gives up a close that it carries out:

Each happening takes the close from one stage to the next. It begins with five seconds for the send
queue; whoever waits for that looks again ten milliseconds after each look, five hundred times at
most, and stops at the first look at which the queue is drained, the outbound loop takes no packets
any more or the time is over. Then both loops are told to end, and each does so in its next stretch.
The outbound loop has one second from that stretch on to shut its sink down, and whatever the sink
does, its first stretch after that second is its last one. Nobody waits for somebody who waits.

If everybody runs again and again and the time goes on, and a close has begun, the connection is
closed from some point on, its loops have finished, its send queue is empty, and nobody carries out
a close of it. -/
theorem closed_of_fair (reached : w.Reachable) (here : w.conns[i]? = some c)
    (active : c.isActive = true) (through : w.SeesThrough i course) :
    (∀ n, ∃ c e stage stage', (w.after course n).Turn i (course n) c e stage stage') ∧
    (∀ polls : Finset Nat, (∀ n ∈ polls, (w.after course n).Polls i (course n)) →
      polls.card ≤ 500) ∧
    (∀ n d deadline, (w.after course n).conns[i]? = some d → d.outbound = .shutting deadline →
      (∃ m < n, course m = .run (.outbound i) ∧ deadline = (w.after course m).now + 1000) ∧
      (course n = .run (.outbound i) → deadline ≤ (w.after course n).now →
        ∃ e, (w.after course (n + 1)).conns[i]? = some e ∧ e.outbound = .finished)) ∧
    (∀ n actor other another, (w.after course n).WaitsOn actor other →
      ¬(w.after course n).WaitsOn other another) ∧
    (w.Fair course → ∀ n d, (w.after course n).conns[i]? = some d → d.isActive = false →
      ∃ m, n ≤ m ∧ ∀ k, m ≤ k → ∃ e, (w.after course k).conns[i]? = some e ∧ e.HasEnded ∧
        ∀ holder wait, ¬(w.after course k).Carries i e holder wait) := by
  have before : w.Stands course i 0 .active := ⟨c, here, .active active⟩
  refine ⟨fun n => ?_, card_polls_le reached through before, fun n d deadline there place => ?_,
    fun n _ _ _ waits => waits.ends (reached.after course n), fun fair n d there left => ?_⟩
  · obtain ⟨stage, stands⟩ := exists_stands reached through before n
    obtain ⟨c, e, stage', turn, -⟩ := stands.turn reached through
    exact ⟨c, e, stage, stage', turn⟩
  · refine ⟨exists_stopped reached through here active there place, fun runs late => ?_⟩
    rw [World.after, runs]
    exact exists_finished (reached.after course n) there place late
  · obtain ⟨m, later, past⟩ :=
      leadsTo_hasEnded_of_left fair reached through here active n ⟨d, there, left⟩
    refine ⟨m, later, fun k latest => ?_⟩
    obtain ⟨e, _, there, -, -, ended⟩ := hasEnded_of_le reached through latest past
    exact ⟨e, there, ended, not_carries_of_closed (reached.after course k) there ended.closed⟩

/-- A connection whose sink takes nothing, never flushes and never shuts down, and a task that is
about to close it. -/
def stuck : World :=
  (World.empty 0).performAll [.start .plain, .transit 0 (.weather (some 0) none none true true),
    .errands [.close 0]]

/-- All tasks and all loops in turn, each again and again, and time in between. -/
def rota (n : Nat) : Happening :=
  let turn := (n / 4).unpair.2
  match n % 4 with
  | 0 => .run (.task turn)
  | 1 => .run (.inbound turn)
  | 2 => .run (.outbound turn)
  | _ => .pass 10

theorem reachable_stuck : stuck.Reachable :=
  (World.Reachable.empty 0 []).performAll _

theorem fair_rota (reached : w.Reachable) : w.Fair rota where
  again := by
    have turn (n place r : Nat) (few : r < 4) : (4 * Nat.pair n place + r) % 4 = r ∧
        ((4 * Nat.pair n place + r) / 4).unpair.2 = place := by
      have whole : (4 * Nat.pair n place + r) / 4 = Nat.pair n place := by omega
      rw [whole, Nat.unpair_pair]
      exact ⟨by omega, rfl⟩
    have later (n place r : Nat) : n ≤ 4 * Nat.pair n place + r := by
      have le := Nat.left_le_pair n place
      omega
    intro actor n
    cases actor with
    | task place =>
        obtain ⟨part, index⟩ := turn n place 0 (by omega)
        exact ⟨_, later n place 0, by simp only [rota, part, index]⟩
    | inbound place =>
        obtain ⟨part, index⟩ := turn n place 1 (by omega)
        exact ⟨_, later n place 1, by simp only [rota, part, index]⟩
    | outbound place =>
        obtain ⟨part, index⟩ := turn n place 2 (by omega)
        exact ⟨_, later n place 2, by simp only [rota, part, index]⟩
  goesOn := by
    intro time
    refine ⟨4 * time, ?_⟩
    induction time with
    | zero => exact Nat.zero_le _
    | succ time ih =>
        have before : (w.after rota (4 * time)).now ≤ (w.after rota (4 * time + 3)).now :=
          now_after_le reached (Nat.le_add_right (4 * time) 3)
        have passes : rota (4 * time + 3) = .pass 10 := by
          have part : (4 * time + 3) % 4 = 3 := by omega
          simp only [rota, part]
        have goesOn :
            (w.after rota (4 * time + 4)).now = (w.after rota (4 * time + 3)).now + 10 := by
          rw [World.after, passes]
          rfl
        rw [Nat.mul_succ, goesOn]
        omega

theorem seesThrough_rota (w : World) (i : Nat) : w.SeesThrough i rota := by
  intro n t c wait here carries
  rw [rota]
  split <;> simp

theorem closed_of_fair_stuck : stuck.Fair rota ∧ ∃ m, ∀ k, m ≤ k →
    ∃ e, (stuck.after rota k).conns[0]? = some e ∧ e.HasEnded ∧
      ∀ holder wait, ¬(stuck.after rota k).Carries 0 e holder wait := by
  obtain ⟨c, here, active⟩ : ∃ c, stuck.conns[0]? = some c ∧ c.isActive = true := ⟨_, rfl, rfl⟩
  obtain ⟨d, there, left⟩ : ∃ d, (stuck.after rota 1).conns[0]? = some d ∧ d.isActive = false :=
    ⟨_, rfl, rfl⟩
  have fair := fair_rota reachable_stuck
  obtain ⟨-, -, -, -, ends⟩ :=
    closed_of_fair reachable_stuck here active (seesThrough_rota stuck 0)
  obtain ⟨m, -, ended⟩ := ends fair 1 d there left
  exact ⟨fair, m, ended⟩

end PacketWire
