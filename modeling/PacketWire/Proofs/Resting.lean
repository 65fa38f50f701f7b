import PacketWire.Proofs.Relaying

/-!
# How the reading comes to rest

A stretch of the inbound loop uses up bytes, chunks or the loop itself, and the close that it may
have to carry out at the end ends with time. So the loop comes by itself to a point where it has
nothing to do, and there nothing is owed to the listeners either.
-/

namespace PacketWire

namespace Connection

variable {r : Reader} {c d : Connection}

/-- The inbound loop does nothing more by itself, whatever the time. -/
def Spent (c : Connection) : Prop :=
  ∀ now, c.inboundStep now = none

/-- A close on the loop is over when it looks at a send queue that it need not wait for. -/
theorem inboundStep_closing {deadline wake now : Nat} {shown : Option Packet}
    (place : c.inbound = .closing (.draining deadline wake) shown) (awake : wake ≤ now)
    (drained : c.isDrainOver deadline now = true) :
    ∃ d, c.inboundStep now = some d ∧ d.inbound = .finished ∧ d.source = c.source := by
  rw [inboundStep, place]
  simp only [canProceed, awake, decide_true, if_true, proceedClose, drained]
  refine ⟨_, rfl, rfl, ?_⟩
  cases shown with
  | none => rfl
  | some packet => exact congrArg Machinery.source (machinery_showControl packet _)

/-- The loop is over, or it waits for the rest of a frame and the input has nothing to give. -/
inductive AtRest (c : Connection) : Prop
  | finished : c.inbound = .finished → AtRest c
  | waiting : c.inbound = .reading → c.cancelled = false →
      Frame.next c.config.maxFrameLength c.readAhead = .incomplete →
      c.source.chunks = [] → c.source.ending = none → AtRest c

theorem readAhead?_eq_none {now : Nat} :
    c.readAhead? now = none ↔ c.source.chunks = [] ∧ c.source.ending = none := by
  rw [readAhead?]
  split
  · rename_i chunk chunks eq
    simp [eq]
  · rename_i eq
    split <;> simp_all

theorem AtRest.spent (h : AtRest c) : c.Spent := by
  intro now
  cases h with
  | finished place => rw [inboundStep, place]
  | waiting place going short chunks ending =>
      rw [inboundStep_reading place going, short]
      exact readAhead?_eq_none.mpr ⟨chunks, ending⟩

/-- Only a close waits for a point in time. -/
theorem atRest_of_placed (placed : c.intake.Placed)
    (free : ∀ wait shown, c.inbound ≠ .closing wait shown) {now : Nat}
    (none : c.inboundStep now = none) : AtRest c := by
  cases place : c.inbound with
  | starting =>
      rw [inboundStep, place] at none
      cases none
  | reading =>
      rw [Intake.Placed, show c.intake.inbound = _ from place] at placed
      have going : c.cancelled = false := placed.going
      rw [inboundStep_reading place going] at none
      split at none
      · cases none
      · cases none
      · rename_i short
        obtain ⟨chunks, ending⟩ := readAhead?_eq_none.mp none
        exact .waiting place going short chunks ending
  | closing wait shown => exact absurd place (free wait shown)
  | finished => exact .finished place

/-- At rest nothing is owed to the listeners. -/
theorem owed_of_atRest (rest : AtRest c) : c.intake.owed c.source.ending [] = [] := by
  cases rest with
  | finished place => rw [Intake.owed, show c.intake.inbound = _ from place]
  | waiting place going short chunks ending =>
      have nothing : c.intake.reader.read none c.readAhead = [] :=
        Reader.read_of_incomplete (r := c.intake.reader) short none
      rw [Intake.owed, show c.intake.inbound = _ from place]
      dsimp only
      rw [Intake.unread, show c.intake.source.chunks = [] from chunks, ending, List.flatten_nil,
        List.append_nil, List.append_nil]
      exact nothing

theorem Relays.atRest (h : Relays r c) (free : ∀ wait shown, c.inbound ≠ .closing wait shown)
    {now : Nat} (none : c.inboundStep now = none) : AtRest c :=
  atRest_of_placed h.placed free none

theorem Relays.eq_read_of_atRest (h : Relays r c) (rest : AtRest c) :
    c.sights = r.read c.source.ending c.source.fed := by
  have all := h.account c.source.ending [] fun known ended => ⟨ended, rfl⟩
  rwa [owed_of_atRest rest, List.append_nil, List.append_nil] at all

/-- A loop that closes goes on when it may. -/
theorem proceeds_of_placed (placed : c.intake.Placed) {wait : CloseWait} {shown : Option Packet}
    (place : c.inbound = .closing wait shown) (now : Nat) : ∃ span d,
      c.inboundStep (now + span) = some d ∧ d.inbound = .finished ∧ d.source = c.source := by
  rw [Intake.Placed, show c.intake.inbound = _ from place] at placed
  cases wait with
  | joining loops => exact placed.2.elim
  | draining deadline wake =>
      refine ⟨max deadline wake, inboundStep_closing place (by omega) ?_⟩
      have late : deadline ≤ now + max deadline wake := by omega
      simp [isDrainOver, late]

theorem Relays.proceeds (h : Relays r c) {wait : CloseWait} {shown : Option Packet}
    (place : c.inbound = .closing wait shown) (now : Nat) : ∃ span d,
      c.inboundStep (now + span) = some d ∧ d.inbound = .finished ∧ d.source = c.source :=
  proceeds_of_placed h.placed place now

/-- Where the loop does nothing more, whatever the time, it is at rest. -/
theorem atRest_of_spent (placed : c.intake.Placed) (spent : c.Spent) : AtRest c := by
  refine atRest_of_placed placed (fun wait shown place => ?_) (spent 0)
  obtain ⟨span, d, step, -⟩ := proceeds_of_placed placed place 0
  rw [spent] at step
  cases step

theorem Relays.eq_read (h : Relays r c) (spent : c.Spent) :
    c.sights = r.read c.source.ending c.source.fed :=
  h.eq_read_of_atRest (atRest_of_spent h.placed spent)

/-- What is left for the inbound loop to do: bytes and chunks, then its close. -/
def backlog (c : Connection) : Nat :=
  let unread := c.readAhead.length + c.source.chunks.flatten.length + c.source.chunks.length
  match c.inbound with
  | .starting => unread + 3
  | .reading => unread + 2
  | .closing .. => 1
  | .finished => 0

/-- Nothing is read, and the loop is not at its start. -/
structure Settles (c d : Connection) : Prop where
  source : d.source = c.source
  readAhead : d.readAhead = c.readAhead
  begun : d.inbound ≠ .starting

theorem Settles.of_machinery (machinery : d.machinery = c.machinery) {place : Inbound}
    (begun : place ≠ .starting) : Settles c { d with inbound := place } :=
  ⟨congrArg Machinery.source machinery, congrArg Machinery.readAhead machinery, begun⟩

theorem settles_readOn (machinery : d.machinery = c.machinery) : Settles c d.readOn := by
  refine .of_machinery machinery ?_
  split <;> simp

/-- After an error there is at most a close left to do. -/
theorem settles_stopReading (now : Nat) (cause : Error) (c : Connection) :
    Settles c (c.stopReading now cause) ∧ (c.stopReading now cause).backlog ≤ 1 := by
  rw [stopReading]
  split
  · exact ⟨⟨rfl, rfl, by simp⟩, Nat.zero_le 1⟩
  · have machinery : (if cause.isEndOfStream then c.close true now endOfStream true
        else c.fail true now cause).1.machinery = c.machinery := by
      split
      · exact machinery_close true now endOfStream true c
      · exact machinery_fail true now cause c
    dsimp only
    split
    · exact ⟨.of_machinery machinery (by simp), Nat.zero_le 1⟩
    · exact ⟨.of_machinery machinery (by simp), Nat.le_refl 1⟩

theorem settles_deliver (now : Nat) (event : Event) (c : Connection) :
    Settles c (c.deliver now event) := by
  have dispatched : Settles c (afterDispatch (c.dispatch true now event)) := by
    have machinery := machinery_dispatch true now event c
    generalize c.dispatch true now event = result at machinery
    obtain ⟨d, _ | ⟨wait, packet⟩⟩ := result
    · exact settles_readOn machinery
    · exact .of_machinery machinery (by simp)
  rw [deliver]
  split
  · exact dispatched
  · split
    · exact dispatched
    · exact settles_readOn rfl

theorem settles_handleBody (now : Nat) (body : Bytes) (c : Connection) :
    Settles c (c.handleBody now body) := by
  have begun (d : Connection) (h : Settles ((c.log (.handled body)).touchReceived now) d) :
      Settles c d := ⟨h.source, h.readAhead, h.begun⟩
  rw [handleBody]
  split
  · exact (settles_stopReading now _ c).1
  · dsimp only
    split
    · exact begun _ (settles_deliver now _ _)
    · split
      · exact begun _ (settles_deliver now _ _)
      · split
        · exact begun _ (settles_stopReading now _ _).1
        · exact begun _ (settles_readOn rfl)

theorem Settles.backlog_le (h : Settles c d) :
    d.backlog ≤
      c.readAhead.length + c.source.chunks.flatten.length + c.source.chunks.length + 2 := by
  obtain ⟨source, readAhead, begun⟩ := h
  rw [backlog, source, readAhead]
  cases place : d.inbound with
  | starting => exact absurd place begun
  | reading => exact Nat.le_refl _
  | closing => exact Nat.le_add_left 1 _
  | finished => exact Nat.zero_le _

/-- A stretch that closes nothing leaves less to do, and the input as it was but for what was
read. -/
theorem backlog_lt (going : c.inbound = .reading → c.cancelled = false)
    (free : ∀ wait shown, c.inbound ≠ .closing wait shown)
    {now : Nat} (step : c.inboundStep now = some d) :
    d.backlog < c.backlog ∧ d.source.fed = c.source.fed ∧ d.source.ending = c.source.ending := by
  cases place : c.inbound with
  | starting =>
      rw [inboundStep, place] at step
      cases step
      have left := (settles_readOn (c := c) rfl).backlog_le
      refine ⟨?_, rfl, rfl⟩
      rw [show c.backlog = _ + 3 from by rw [backlog, place]]
      omega
  | reading =>
      have full : c.backlog = c.readAhead.length + c.source.chunks.flatten.length +
          c.source.chunks.length + 2 := by rw [backlog, place]
      have stopped (cause : Error) : (c.stopReading now cause).backlog < c.backlog ∧
          (c.stopReading now cause).source.fed = c.source.fed ∧
          (c.stopReading now cause).source.ending = c.source.ending := by
        obtain ⟨settles, little⟩ := settles_stopReading now cause c
        rw [settles.source]
        exact ⟨by omega, rfl, rfl⟩
      rw [inboundStep_reading place (going place)] at step
      split at step
      · rename_i body rest complete
        cases step
        have settles := settles_handleBody now body { c with readAhead := rest }
        have left := settles.backlog_le
        have shorter := Frame.length_lt_of_next complete
        dsimp only at left
        rw [settles.source, full]
        exact ⟨by omega, rfl, rfl⟩
      · cases step
        exact stopped _
      · rw [readAhead?] at step
        split at step
        · rename_i chunk chunks eq
          cases step
          refine ⟨?_, rfl, rfl⟩
          rw [full, eq]
          simp only [backlog, place, List.flatten_cons, List.length_append, List.length_cons]
          omega
        · split at step <;> cases step <;> exact stopped _
  | closing wait shown => exact absurd place (free wait shown)
  | finished =>
      rw [inboundStep, place] at step
      cases step

theorem Relays.going (h : Relays r c) (place : c.inbound = .reading) : c.cancelled = false :=
  (h.reads (.inr place)).1.fresh.going

/-- A stretch takes from the input, but does not change what it was fed. -/
theorem Relays.input_eq (h : Relays r c) {now : Nat} (step : c.inboundStep now = some d) :
    d.source.fed = c.source.fed ∧ d.source.ending = c.source.ending := by
  by_cases closing : ∃ wait shown, c.inbound = .closing wait shown
  · obtain ⟨wait, shown, place⟩ := closing
    have machinery := machinery_proceedClose true now wait c
    have source : d.source = c.source := by
      rw [inboundStep, place] at step
      dsimp only at step
      generalize c.proceedClose true now wait = result at step machinery
      obtain ⟨e, left⟩ := result
      split at step
      · cases left with
        | some wait =>
            cases step
            exact congrArg Machinery.source machinery
        | none =>
            cases step
            cases shown with
            | none => exact congrArg Machinery.source machinery
            | some packet =>
                exact congrArg Machinery.source ((machinery_showControl packet e).trans machinery)
      · cases step
    rw [source]
    exact ⟨rfl, rfl⟩
  · exact (backlog_lt h.going (fun wait shown place => closing ⟨wait, shown, place⟩) step).2

/-- The inbound loop goes on by itself: it takes its stretches, and time passes. -/
inductive GoesOn (now : Nat) (c : Connection) : Nat → Connection → Prop
  | refl : GoesOn now c now c
  | pass {later : Nat} {d : Connection} (span : Nat) :
      GoesOn now c later d → GoesOn now c (later + span) d
  | inbound {later : Nat} {d e : Connection} :
      GoesOn now c later d → d.inboundStep later = some e → GoesOn now c later e

theorem GoesOn.trans {now later last : Nat} (first : GoesOn now c later d) {e : Connection}
    (second : GoesOn later d last e) : GoesOn now c last e := by
  induction second with
  | refl => exact first
  | pass span _ ih => exact ih.pass span
  | inbound _ step ih => exact ih.inbound step

/-- The loop comes to an end, or to a point where it can only wait for more input. -/
theorem goesOn_spent (h : Relays r c) (now : Nat) : ∃ later d, GoesOn now c later d ∧
    Relays r d ∧ d.Spent ∧ d.source.fed = c.source.fed ∧ d.source.ending = c.source.ending := by
  induction size : c.backlog using Nat.strongRecOn generalizing c now with
  | ind n ih =>
      by_cases closing : ∃ wait shown, c.inbound = .closing wait shown
      · obtain ⟨wait, shown, place⟩ := closing
        obtain ⟨span, d, step, finished, source⟩ := h.proceeds place now
        refine ⟨_, d, (GoesOn.refl.pass span).inbound step, relays_inboundStep h step, ?_, ?_⟩
        · exact (AtRest.finished finished).spent
        · rw [source]
          exact ⟨rfl, rfl⟩
      · have free (wait : CloseWait) (shown : Option Packet) :
            c.inbound ≠ .closing wait shown := fun place => closing ⟨wait, shown, place⟩
        cases step : c.inboundStep now with
        | none => exact ⟨now, c, .refl, h, (h.atRest free step).spent, rfl, rfl⟩
        | some d =>
            obtain ⟨less, fed, ending⟩ := backlog_lt h.going free step
            obtain ⟨later, e, rest, relays, spent, fed', ending'⟩ :=
              ih d.backlog (size ▸ less) (relays_inboundStep h step) now rfl
            exact ⟨later, e, (GoesOn.refl.inbound step).trans rest, relays, spent, fed'.trans fed,
              ending'.trans ending⟩

end Connection

end PacketWire
