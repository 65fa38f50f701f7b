import PacketWire.Peer.LineClient
import PacketWire.Proofs.Respecting
import PacketWire.Proofs.Terminating
import PacketWire.Proofs.Unhindered

/-!
# A connection that only speaks

The server of a line client sends nothing, keeps its side open and accepts every write, though
perhaps not at once. `Speaks` is about a connection to such a server: its loops only move what is
queued, and it is closed by a task alone. `SeesOff` follows that task, which closes the connection
and awaits it.

The close waits for the send queue, but not for longer than its time. `inTime` stands for what is
supposed of the run: if it is true, no close finds its time over while something is still to be
written, and then the loops are told to end only after everything has reached the sink.
-/

namespace PacketWire

theorem Listener.mild_silent : Mild (some silent) := by
  intro n call asks
  cases asks

/-- When a close that a task carries out gives up. -/
def Task.deadline? : Task → Option Nat
  | running (.errands _ (some (.draining deadline _))) => some deadline
  | _ => none

/-- What a stretch of its errands makes of a task: it waits, goes on to the next errand or has
reached its end. -/
def Task.afterErrand (c : Connection) (errand : Errand) (todo : List Errand) :
    Option CloseWait → Task
  | some wait => running (.errands (errand :: todo) (some wait))
  | none => if todo.isEmpty then ended (.reached (some c.state)) else running (.errands todo none)

namespace Connection

open PacketWire.Frame Entry

variable {inTime : Prop} {c d : Connection} {closers : List CloseWait} {loops : List Loop}
  {left : Option CloseWait} {packet : Packet} {task : Task} {now : Nat}

/-- What is true at every time of a connection to a server that sends nothing, keeps its side open
and accepts every write. -/
structure Speaks (inTime : Prop) (c : Connection) : Prop where
  unhindered : c.Unhindered
  mild : Listener.Mild c.listener
  unasked : ¬ c.Asked
  source : c.source = .empty
  readAhead : c.readAhead = []
  /-- The inbound loop has no reason to close the connection. -/
  closer : c.inbound.closer? = none
  /-- The loops are told to end only when everything has been taken by the sink. -/
  complete : inTime → c.cancelled = true → c.sink.taken = stream c.enqueuedPackets

/-- `d` is `c` after a stretch of one of its loops. -/
structure Spins (inTime : Prop) (c d : Connection) : Prop where
  speaks : d.Speaks inTime
  lasts : Lasts c d
  account : d.account = c.account
  unjoined : d.unjoined = c.unjoined

/-! ### The loops -/

theorem speaks_start {setup : Setup} (quiet : setup.config.autoKeepAlive = false)
    (mild : Listener.Mild setup.listener) (now : Nat) : (start setup now).Speaks inTime where
  unhindered := unhindered_start quiet now
  mild := mild
  unasked := by
    intro asked
    cases asked
  source := rfl
  readAhead := rfl
  closer := rfl
  complete := by
    intro _ cancelled
    cases cancelled

/-- Nothing arrives, and the inbound loop only goes from one place to another. -/
theorem Speaks.exists_inbound (h : c.Speaks inTime) (step : c.inboundStep now = some d) :
    ∃ inbound, d = { c with inbound } ∧ inbound.closer? = none := by
  have closer := h.closer
  rw [inboundStep] at step
  split at step
  · cases step
    refine ⟨_, rfl, ?_⟩
    split <;> rfl
  · split at step
    · cases step
      exact ⟨_, rfl, rfl⟩
    · rw [h.readAhead, next_nil] at step
      simp only [readAhead?, h.source, Source.empty] at step
      cases step
  · rename_i wait shown place
    rw [place] at closer
    cases closer
  · cases step

theorem Speaks.inboundStep (h : c.Speaks inTime) (valid : c.Valid closers)
    (step : c.inboundStep now = some d) : Spins inTime c d := by
  have lasts := (Alone.inbound step).lasts valid
  obtain ⟨inbound, rfl, closer⟩ := h.exists_inbound step
  have speaks : Speaks inTime { c with inbound } :=
    { h with unhindered := { h.unhindered with }, closer }
  exact ⟨speaks, lasts, rfl, rfl⟩

/-- The outbound loop brings more of the same to the sink. -/
theorem Speaks.outboundStep (h : c.Speaks inTime) (valid : c.Valid closers)
    (step : c.outboundStep now = some d) : Spins inTime c d := by
  have lasts := (Alone.outbound step).lasts valid
  have flows := flows_outboundStep h.unhindered valid.tallied step
  have taken := flows.taken_eq (valid.outboundStep step).inOrder
    (Later.of_changes (onward_outboundStep step).changes).taken
  obtain ⟨eq, unhindered, -⟩ := flows
  obtain ⟨-, mild, unasked, source, readAhead, closer, complete⟩ := h
  rw [eq] at lasts taken unhindered ⊢
  exact ⟨⟨unhindered, mild, unasked, source, readAhead, closer,
    fun inTime cancelled => taken (complete inTime cancelled)⟩, lasts, rfl, rfl⟩

/-- Whatever else the server does, as long as it accepts every write. -/
theorem Speaks.weather (h : c.Speaks inTime) (room : Option Nat)
    (flushStalls shutdownStalls : Bool) :
    Speaks inTime ((Transit.weather room none none flushStalls shutdownStalls).act c) := by
  obtain ⟨⟨⟨-, writable⟩, quiet, running⟩, mild, unasked, source, readAhead, closer, complete⟩ := h
  exact ⟨⟨⟨⟨rfl, rfl⟩, writable⟩, quiet, running⟩, mild, unasked, source, readAhead, closer,
    complete⟩

/-! ### Sending and closing -/

/-- A packet that can be written is sent. -/
theorem Speaks.accept (h : c.Speaks inTime) (orderly : c.Orderly) (active : c.isActive = true)
    (writable : Writable packet) : (c.accept packet).Speaks inTime := by
  obtain ⟨-, -, -, goesOn⟩ := orderly.fresh active
  have fits : ∀ other ∈ (c.accept packet).queue.packets, Writable other := by
    intro other member
    rcases List.mem_append.mp member with old | new
    · exact h.unhindered.writable other old
    · exact List.mem_singleton.mp new ▸ writable
  have unasked : ¬ (c.accept packet).Asked := by
    simpa [Asked, Connection.accept, enqueue, log] using h.unasked
  refine { h with unhindered := { h.unhindered with writable := fits }, unasked, complete := ?_ }
  intro _ cancelled
  rw [show c.cancelled = true from cancelled] at goesOn
  cases goesOn

theorem acceptedPackets_accept (packet : Packet) (c : Connection) :
    (c.accept packet).acceptedPackets = c.acceptedPackets ++ [packet] := by
  rw [acceptedPackets, Connection.accept, recount_enqueue, recount_log]
  exact List.append_nil _

/-- A close begins: the close message is behind all that was sent. -/
theorem Speaks.startClosing (h : c.Speaks inTime) (orderly : c.Orderly) (active : c.isActive = true)
    (message : String) (expected : Bool) :
    (c.startClosing message expected).Speaks inTime := by
  obtain ⟨-, -, untold, goesOn⟩ := orderly.fresh active
  obtain ⟨⟨⟨sink, fits⟩, quiet, running⟩, mild, unasked, source, readAhead, closer, -⟩ := h
  obtain ⟨-, -, queue⟩ := sends_startClosing message expected untold
  have calm : ¬ (c.startClosing message expected).Asked := fun asked =>
    unasked (asked_startClosing mild asked)
  have machinery := machinery_startClosing message expected c
  have standing := standing_startClosing message expected c
  generalize c.startClosing message expected = d at *
  simp only [Connection.machinery, Machinery.mk.injEq, Connection.standing,
    Standing.mk.injEq] at machinery standing
  obtain ⟨config, listener, -, -, -, inbound, -, source', readAhead', -, sink'⟩ := machinery
  obtain ⟨state, -, -, cancelled, stopped⟩ := standing
  refine ⟨⟨⟨sink' ▸ sink, fun other member => ?_⟩, config ▸ quiet, fun _ => ?_⟩,
    listener ▸ mild, calm, source'.trans source, readAhead'.trans readAhead, inbound ▸ closer,
    fun _ ended => ?_⟩
  · rw [queue] at member
    rcases List.mem_append.mp member with old | new
    · exact fits other old
    · exact List.mem_singleton.mp new ▸ writable_farewell
  · rw [stopped, sink']
    exact running goesOn
  · rw [← cancelled, ended] at goesOn
    cases goesOn

/-- Once everything has been delivered the loops may be told to end. -/
theorem Speaks.cancel (h : c.Speaks inTime) (delivered : inTime → c.HasDelivered)
    (unjoined : List Loop) : Speaks inTime { c with cancelled := true, unjoined } :=
  { h with
    unhindered := { h.unhindered with running := fun goesOn => by cases goesOn }
    complete := fun inTime _ => (delivered inTime).taken_eq }

/-- Whoever waits for the loops does nothing else, and ends in `closed`. -/
theorem Speaks.closeAfter (h : c.Speaks inTime) (eq : c.closeAfter loops = (d, left)) :
    d.Speaks inTime ∧ d.acceptedPackets = c.acceptedPackets ∧
      (∀ loop, d.hasFinished loop = c.hasFinished loop) ∧
      (left = none → d.state = .closed) ∧
      ∀ deadline wake, left ≠ some (.draining deadline wake) := by
  rw [Connection.closeAfter] at eq
  split at eq
  · cases eq
    have same {α : Type} (kind : Entry → Option α) (silent : kind .detached = none) :
        c.markClosed.recount kind = c.recount kind := by
      rw [recount_markClosed, silent]
      exact List.append_nil _
    have speaks : c.markClosed.Speaks inTime := { h with
      unhindered := { h.unhindered with }
      unasked := by simpa [Asked, markClosed, log] using h.unasked
      complete := fun inTime cancelled =>
        (h.complete inTime cancelled).trans (congrArg stream (same _ rfl).symm) }
    exact ⟨speaks, same _ rfl, hasFinished_eq rfl rfl, fun _ => rfl, fun _ _ => by simp⟩
  · cases eq
    exact ⟨h, rfl, fun _ => rfl, fun impossible => (by cases impossible), fun _ _ => by simp⟩

/-! ### The task that leaves -/

/-- How far a task is that closes a connection and awaits it. While it waits for the send queue the
loops are not told to end. -/
inductive SeesOff (c : Connection) : Task → Prop
  | closes {wait : Option CloseWait} (holds : c.HoldsLoops (.close 0) wait)
      (running : ∀ deadline wake, wait = some (.draining deadline wake) → c.cancelled = false) :
      SeesOff c (.running (.errands [.close 0, .join 0] wait))
  | joins (finished : ∀ loop, c.hasFinished loop = true) (closed : c.state = .closed) :
      SeesOff c (.running (.errands [.join 0] none))
  | done (finished : ∀ loop, c.hasFinished loop = true) (closed : c.state = .closed) :
      SeesOff c (.ended (.reached (some .closed)))

/-- It takes no notice of what neither the state, nor the loops, nor their being told to end has to
do with. -/
theorem SeesOff.of_eq (h : SeesOff c task) (state : d.state = c.state)
    (cancelled : d.cancelled = c.cancelled) (unjoined : d.unjoined = c.unjoined)
    (lasts : Lasts c d) : SeesOff d task := by
  cases h with
  | joins finished closed =>
      exact .joins (fun loop => lasts loop (finished loop)) (state.trans closed)
  | done finished closed =>
      exact .done (fun loop => lasts loop (finished loop)) (state.trans closed)
  | @closes wait holds running =>
      refine .closes ?_ fun deadline wake waits => cancelled.trans (running deadline wake waits)
      cases wait with
      | none => exact ⟨by simpa only [isActive, state] using holds.1, unjoined ▸ holds.2⟩
      | some wait =>
          cases wait with
          | draining => exact (unjoined ▸ holds : d.unjoined ≠ [])
          | joining => trivial

theorem SeesOff.spins (h : SeesOff c task) (spins : Spins inTime c d) : SeesOff d task :=
  h.of_eq (congrArg Account.state spins.account) (congrArg Account.cancelled spins.account)
    spins.unjoined spins.lasts

/-- What a stretch of the close leaves: a wait, or a connection that is closed. -/
structure TakesLeave (inTime : Prop) (c d : Connection) (left : Option CloseWait) : Prop where
  speaks : d.Speaks inTime
  accepted : d.acceptedPackets = c.acceptedPackets
  seesOff : SeesOff d (.afterErrand d (.close 0) [.join 0] left)

theorem Speaks.takesLeave (h : c.Speaks inTime) (eq : c.closeAfter loops = (d, left))
    (finished : left = none → ∀ loop, c.hasFinished loop = true) : TakesLeave inTime c d left := by
  obtain ⟨speaks, accepted, same, closed, joining⟩ := h.closeAfter eq
  refine ⟨speaks, accepted, ?_⟩
  cases left with
  | none => exact .joins (fun loop => (same loop).trans (finished rfl loop)) (closed rfl)
  | some wait =>
      cases wait with
      | draining deadline wake => exact absurd rfl (joining deadline wake)
      | joining => exact .closes trivial fun deadline wake drains => by cases drains

/-- A close of an active connection begins to wait. -/
theorem Speaks.errandStep_close (h : c.Speaks inTime) (orderly : c.Orderly)
    (active : c.isActive = true) (now i : Nat) : World.errandStep now c (.close i) none =
      some (c.startClosing closedLocally true,
        some (.draining (now + closeTimeout) (now + closePoll))) := by
  have takes : c.TakesPackets := fun active =>
    (h.unhindered.running (orderly.fresh active).2.2.2).1
  rw [World.errandStep, close_of_active active takes]

/-- A close goes on with its drain. -/
theorem Speaks.takesLeave_draining (h : c.Speaks inTime) (free : c.unjoined ≠ [])
    (goesOn : c.cancelled = false) (deadline wake : Nat) :
    TakesLeave inTime c c (some (.draining deadline wake)) where
  speaks := h
  accepted := rfl
  seesOff := .closes free fun _ _ _ => goesOn

/-- A close begins. -/
theorem Speaks.takesLeave_startClosing (h : c.Speaks inTime) (orderly : c.Orderly)
    (active : c.isActive = true) (free : c.unjoined ≠ []) (deadline wake : Nat) :
    TakesLeave inTime c (c.startClosing closedLocally true) (some (.draining deadline wake)) := by
  obtain ⟨-, -, untold, running⟩ := orderly.fresh active
  have loops := unjoined_startClosing closedLocally true c
  have goesOn : (c.startClosing closedLocally true).cancelled = false :=
    (congrArg Standing.cancelled (standing_startClosing closedLocally true c)).trans running
  have drains := (h.startClosing orderly active closedLocally true).takesLeave_draining
    (loops ▸ free) goesOn deadline wake
  exact { drains with accepted := (sends_startClosing _ _ untold).1 }

/-- A drain that is over before the time of the close is has brought everything to the sink. -/
theorem Speaks.hasDelivered (h : c.Speaks inTime) (valid : c.Valid closers)
    (goesOn : c.cancelled = false) {deadline : Nat}
    (early : deadline ≤ now → c.queue.isDrained = true)
    (passed : c.isDrainOver deadline now = true) : c.HasDelivered := by
  have running := (h.unhindered.running goesOn).1
  refine hasDelivered_of_isDrained valid.tallied valid.inOrder ?_ running
  by_cases late : deadline ≤ now
  · exact early late
  -- with time left and the loop still writing, only a drained queue ends the drain
  · simpa [isDrainOver, running, late] using passed

/-- The loops are told to end, and the close waits for them. -/
theorem Speaks.takesLeave_cancel (h : c.Speaks inTime) (delivered : inTime → c.HasDelivered)
    (eq : Connection.closeAfter loops { c with cancelled := true, unjoined := [] } = (d, left))
    (finished : left = none → ∀ loop, c.hasFinished loop = true) : TakesLeave inTime c d left := by
  have leave : TakesLeave inTime { c with cancelled := true, unjoined := [] } d left :=
    (h.cancel delivered []).takesLeave eq finished
  exact { leave with }

/-- One stretch of the close. -/
theorem Speaks.errandStep (h : c.Speaks inTime) (valid : c.Valid closers) {wait : Option CloseWait}
    (leaves : SeesOff c (.running (.errands [.close 0, .join 0] wait)))
    (early : inTime → ∀ deadline wake, wait = some (.draining deadline wake) → deadline ≤ now →
      c.queue.isDrained = true)
    (step : World.errandStep now c (.close 0) wait = some (d, left))
    (awaits : ∀ held ∈ wait, c.Awaits (.close 0) held) : TakesLeave inTime c d left := by
  have returns := (awaits_errandStep valid.keepsLoops awaits step).2
  cases leaves with
  | closes holds running =>
      have finished := returns holds
      cases wait with
      | none =>
          obtain ⟨active, free⟩ := holds
          rw [h.errandStep_close valid.orderly active] at step
          cases step
          exact h.takesLeave_startClosing valid.orderly active free _ _
      | some wait =>
          simp only [World.errandStep] at step
          split at step
          · cases wait with
            | joining loops => exact h.takesLeave (Option.some.inj step) finished
            | draining deadline wake =>
                have goesOn := running deadline wake rfl
                simp only [proceedClose, Bool.false_eq_true, if_false] at step
                split at step
                · rename_i passed
                  have delivered (inTime : inTime) : c.HasDelivered :=
                    h.hasDelivered valid goesOn (early inTime deadline wake rfl) passed
                  exact h.takesLeave_cancel delivered (Option.some.inj step) finished
                · cases step
                  exact h.takesLeave_draining holds goesOn _ _
          · cases step

end Connection

namespace World

open Connection

variable {inTime : Prop} {w : World} {c d : Connection} {i : Nat} {left wait : Option CloseWait}
  {errand : Errand} {todo : List Errand} {task : Task}

/-- A world with one connection, to which nothing comes along a wire. -/
structure IsLone (w : World) (c : Connection) : Prop where
  reached : w.Reachable
  conns : w.conns = [c]
  wires : w.wires = []

/-- `w'` is a world at the time of `w`, with this one connection and these tasks. -/
structure Becomes (w w' : World) (c : Connection) (tasks : List Task) : Prop where
  lone : w'.IsLone c
  now : w'.now = w.now
  tasks : w'.tasks = tasks

theorem IsLone.here (h : w.IsLone c) : w.conns[0]? = some c := by
  rw [h.conns]
  rfl

theorem IsLone.valid (h : w.IsLone c) : c.Valid (closers 0 w.tasks) :=
  h.reached.valid.conns 0 c h.here

theorem IsLone.eq_of_getElem? (h : w.IsLone c) (here : w.conns[i]? = some d) : i = 0 ∧ d = c := by
  rw [h.conns] at here
  cases i with
  | zero => exact ⟨rfl, (Option.some.inj here).symm⟩
  | succ i => cases here

/-- Where the connection is put into its place and asked for no close, nothing else changes but its
work queue and the hooks that ran. -/
theorem IsLone.put (h : w.IsLone c) (unasked : ¬ d.Asked) :
    (w.put 0 c d).conns = [d] ∧ (w.put 0 c d).wires = [] ∧ (w.put 0 c d).now = w.now ∧
      (w.put 0 c d).tasks = w.tasks := by
  have tasks := tasks_put (w := w) (i := 0) (c := c) unasked
  obtain ⟨conns, count, trace, eq, -, dry⟩ := put_eq 0 c d w
  have alone : conns = [d] := by
    apply List.ext_getElem?
    intro j
    rw [dry j (by simp [h.wires]), h.conns]
    rfl
  refine ⟨?_, ?_, now_put 0 c d w, tasks⟩
  · rw [eq]
    exact alone
  · rw [eq]
    exact h.wires

/-- An actor without a stretch to take leaves everything as it is. -/
theorem perform_run_of_none {actor : Actor} (none : w.step actor = none) :
    w.perform (.run actor) = w := by
  rw [World.perform, none]
  rfl

/-- What a stretch of a loop does to the world. -/
theorem exists_of_loop {w' : World} {actor : Actor} (loop : ∀ t, actor ≠ .task t)
    (step : w.step actor = some w') : ∃ i c d, w.conns[i]? = some c ∧
      (c.inboundStep w.now = some d ∨ c.outboundStep w.now = some d) ∧ w' = w.put i c d := by
  cases actor with
  | task t => exact absurd rfl (loop t)
  | inbound i =>
      simp only [World.step] at step
      split at step
      · cases step
      · rename_i c here
        obtain ⟨d, stepped, rfl⟩ := Option.map_eq_some_iff.mp step
        exact ⟨i, c, d, here, .inl stepped, rfl⟩
  | outbound i =>
      simp only [World.step] at step
      split at step
      · cases step
      · rename_i c here
        obtain ⟨d, stepped, rfl⟩ := Option.map_eq_some_iff.mp step
        exact ⟨i, c, d, here, .inr stepped, rfl⟩

/-- Where a stretch puts the only connection into its place, the world becomes one with it. -/
theorem IsLone.becomes (h : w.IsLone c) {actor : Actor} (step : w.step actor = some (w.put 0 c d))
    (unasked : ¬ d.Asked) : w.Becomes (w.perform (.run actor)) d w.tasks := by
  have reached := h.reached.perform (.run actor)
  obtain ⟨conns, wires, now, tasks⟩ := h.put unasked
  rw [World.perform, step, Option.getD_some] at reached ⊢
  exact ⟨⟨reached, conns, wires⟩, now, tasks⟩

/-- One of the loops takes a stretch, or has to wait. -/
theorem IsLone.exists_spins (h : w.IsLone c) (speaks : c.Speaks inTime) {actor : Actor}
    (loop : ∀ t, actor ≠ .task t) :
    ∃ d, Spins inTime c d ∧ w.Becomes (w.perform (.run actor)) d w.tasks := by
  cases stepped : w.step actor with
  | none =>
      rw [perform_run_of_none stepped]
      exact ⟨c, ⟨speaks, fun _ finished => finished, rfl, rfl⟩, h, rfl, rfl⟩
  | some w' =>
      obtain ⟨i, c', d, here, stretch, rfl⟩ := exists_of_loop loop stepped
      obtain ⟨rfl, rfl⟩ := h.eq_of_getElem? here
      have spins : Spins inTime c' d := by
        rcases stretch with step | step
        · exact speaks.inboundStep h.valid step
        · exact speaks.outboundStep h.valid step
      exact ⟨d, spins, h.becomes stepped spins.speaks.unasked⟩

/-- The server makes room, or stalls. -/
theorem IsLone.weather (h : w.IsLone c) (room : Option Nat) (flushStalls shutdownStalls : Bool) :
    let weather := Transit.weather room none none flushStalls shutdownStalls
    w.Becomes (w.perform (.transit 0 weather)) (weather.act c) w.tasks := by
  refine ⟨⟨h.reached.perform _, ?_, h.wires⟩, rfl, rfl⟩
  simp only [World.perform, modifyConn, h.conns]
  rfl

/-- The only task takes a stretch of its errands. -/
theorem IsLone.errands (h : w.IsLone c)
    (tasks : w.tasks = [.running (.errands (errand :: todo) wait)]) (conn : errand.conn = 0)
    (step : errandStep w.now c errand wait = some (d, left)) (unasked : ¬ d.Asked) :
    w.Becomes (w.perform (.run (.task 0))) d [.afterErrand d errand todo left] := by
  have reached := h.reached.perform (.run (.task 0))
  obtain ⟨conns, wires, now, same⟩ := h.put unasked
  have performed : w.perform (.run (.task 0)) = { w.put 0 c d with
      tasks := (w.put 0 c d).tasks.set 0 (.afterErrand d errand todo left) } := by
    simp only [World.perform, World.step, tasks, List.getElem?_cons_zero, jobStep, errandsStep,
      conn, h.here, step]
    cases left with
    | some wait => rfl
    | none => cases todo <;> rfl
  rw [performed, same, tasks] at reached ⊢
  exact ⟨⟨reached, conns, wires⟩, now, rfl⟩

/-- The task begins to close the connection. -/
theorem IsLone.begins (h : w.IsLone c) (speaks : c.Speaks inTime) (active : c.isActive = true)
    (tasks : w.tasks = [.running (.errands (.close 0 :: todo) none)]) :
    ∃ d, (w.perform (.run (.task 0))).IsLone d ∧ d.isActive = false := by
  have orderly := h.valid.orderly
  have unasked := (speaks.startClosing orderly active closedLocally true).unasked
  have standing := standing_startClosing closedLocally true c
  have becomes := h.errands tasks rfl (speaks.errandStep_close orderly active w.now 0) unasked
  refine ⟨_, becomes.lone, isActive_eq_false fun still => ?_⟩
  cases (congrArg Standing.state standing).symm.trans still

/-- While the task waits with its close, the connection is closing. -/
theorem IsLone.state_eq (h : w.IsLone c) {wait : CloseWait}
    (tasks : w.tasks = [.running (.errands (.close 0 :: todo) (some wait))]) :
    c.state = .closing := by
  have carries : w.Carries 0 c (.task 0) wait := .task (by rw [tasks]; rfl) rfl
  exact (carries.fits h.reached.valid h.here).state_eq

/-- A wait of the task is one for loops that it has in hand. -/
theorem IsLone.awaits (h : w.IsLone c)
    (tasks : w.tasks = [.running (.errands (errand :: todo) wait)]) :
    ∀ held ∈ wait, c.Awaits errand held := by
  intro held waits
  obtain rfl : wait = some held := waits
  obtain ⟨c', here, awaits⟩ := h.reached.joined _ (tasks ▸ List.mem_cons_self) errand held rfl
  rwa [(h.eq_of_getElem? here).2] at awaits

/-- The task finds both loops finished, and is done. -/
theorem IsLone.joins (h : w.IsLone c) (speaks : c.Speaks inTime)
    (tasks : w.tasks = [.running (.errands [.join 0] none)])
    (finished : ∀ loop, c.hasFinished loop = true) (closed : c.state = .closed) :
    Speaks inTime { c with unjoined := [] } ∧ w.Becomes (w.perform (.run (.task 0)))
      { c with unjoined := [] } [.ended (.reached (some .closed))] := by
  have nobody : { c with unjoined := [] }.stillRunning c.unjoined = [] :=
    (canProceed_of_finished (c := { c with unjoined := [] }) finished 0 c.unjoined).2
  have step : errandStep w.now c (.join 0) none = some ({ c with unjoined := [] }, none) := by
    simp only [errandStep, takeLoops, nobody]
  have calm : Speaks inTime { c with unjoined := [] } :=
    { speaks with unhindered := { speaks.unhindered with } }
  have becomes := h.errands tasks rfl step calm.unasked
  refine ⟨calm, becomes.lone, becomes.now, becomes.tasks.trans ?_⟩
  rw [Task.afterErrand, List.isEmpty_nil, if_pos rfl, closed]

/-- A close finds its time over while something is still to be written. -/
def IsLate (w : World) : Prop :=
  ∃ task ∈ w.tasks, ∃ deadline ∈ task.deadline?, deadline ≤ w.now ∧
    ∃ c ∈ w.conns, c.queue.isDrained = false

instance (w : World) : Decidable w.IsLate :=
  inferInstanceAs (Decidable (∃ _ ∈ _, ∃ _ ∈ _, _ ∧ ∃ _ ∈ _, _))

/-- The task that leaves takes a stretch, or has to wait. -/
theorem IsLone.leaves (h : w.IsLone c) (speaks : c.Speaks inTime) (tasks : w.tasks = [task])
    (leaves : SeesOff c task) {t : Nat} (early : inTime → ¬ w.IsLate) :
    ∃ d task', d.Speaks inTime ∧ d.acceptedPackets = c.acceptedPackets ∧ SeesOff d task' ∧
      w.Becomes (w.perform (.run (.task t))) d [task'] := by
  cases stepped : w.step (.task t) with
  | none =>
      rw [perform_run_of_none stepped]
      exact ⟨c, task, speaks, rfl, leaves, h, rfl, tasks⟩
  | some w' =>
      -- a task that takes a stretch is there and has not ended: it closes or it joins
      rw [World.step, tasks] at stepped
      cases t with
      | succ t => cases stepped
      | zero =>
          cases leaves with
          | done => cases stepped
          | joins finished closed =>
              obtain ⟨calm, becomes⟩ := h.joins speaks tasks finished closed
              exact ⟨_, _, calm, rfl, .done finished closed, becomes⟩
          | @closes wait holds running =>
              cases step : errandStep w.now c (.close 0) wait with
              | none =>
                  simp only [List.getElem?_cons_zero, jobStep, errandsStep, Errand.conn, h.here,
                    step, Option.map_none] at stepped
                  cases stepped
              | some result =>
                  have drained (inTime : inTime) (deadline wake : Nat)
                      (waits : wait = some (.draining deadline wake)) (late : deadline ≤ w.now) :
                      c.queue.isDrained = true := by
                    by_contra undrained
                    refine early inTime ⟨_, tasks ▸ List.mem_cons_self, deadline, ?_, late, c,
                      h.conns ▸ List.mem_cons_self, Bool.eq_false_iff.mpr undrained⟩
                    rw [waits]
                    rfl
                  have leave := speaks.errandStep h.valid (.closes holds running) drained step
                    (h.awaits tasks)
                  exact ⟨result.1, _, leave.speaks, leave.accepted, leave.seesOff,
                    h.errands tasks rfl step leave.speaks.unasked⟩

end World

end PacketWire
