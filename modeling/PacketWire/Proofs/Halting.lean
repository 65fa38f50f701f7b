import PacketWire.Proofs.Ceasing
import PacketWire.Proofs.Stages

/-!
# How the loops end

A loop that is told to end does so in its next stretch, wherever it waits: for input, for room to
write, for a flush, or for a packet. The outbound loop drops what is queued and shuts its sink down
then, for which it has one second. The first stretch that comes when that is over is its last one:
the sink takes what it has room for, and is let go of whether or not something is left.
-/

namespace PacketWire

namespace Connection

variable {c d e : Connection} {now i : Nat} {happening : Happening}

/-- What one happening makes of loops that end. -/
structure Halting (now i : Nat) (happening : Happening) (c e : Connection) : Prop where
  lasts : Lasts c e
  /-- The inbound loop was told to end and does so. -/
  inbound : c.cancelled = true → c.inbound.closer? = none → happening = .run (.inbound i) →
    e.inbound = .finished
  /-- The outbound loop was told to end, gives up what it writes and drops the rest. -/
  outbound : c.cancelled = true → (∀ deadline, c.outbound ≠ .shutting deadline) →
    c.outbound ≠ .finished → happening = .run (.outbound i) →
    e.outbound = .shutting (now + shutdownTimeout) ∧ e.queue.packets = []
  /-- Whenever it begins to shut its sink down, it has one second. -/
  begins : ∀ deadline, e.outbound = .shutting deadline → c.outbound = .shutting deadline ∨
    happening = .run (.outbound i) ∧ deadline = now + shutdownTimeout
  /-- While it does, a stretch is its last, or there is time left: it writes something, or waits. -/
  shutting : ∀ deadline, c.outbound = .shutting deadline → happening = .run (.outbound i) →
    e.outbound = .finished ∨ now < deadline ∧ e.outbound = c.outbound ∧
      (e.buffer.held.length < c.buffer.held.length ∨ e.buffer = c.buffer)

/-- Wherever the inbound loop waits that does not carry out a close, it ends when it is told to. -/
theorem inboundStep_of_cancelled (now : Nat) (cancelled : c.cancelled = true)
    (inactive : c.isActive = false) (free : c.inbound.closer? = none) :
    c.inbound = .finished ∨ c.inboundStep now = some { c with inbound := .finished } := by
  cases place : c.inbound with
  | starting => exact .inr (by simp [inboundStep, place, readOn, inactive])
  | reading => exact .inr (by simp [inboundStep, place, cancelled])
  | closing wait shown => simp [place, Inbound.closer?] at free
  | finished => exact .inl rfl

/-- Wherever the outbound loop waits that takes packets still, it stops when it is told to. -/
theorem outboundStep_of_cancelled (cancelled : c.cancelled = true)
    (running : ∀ deadline, c.outbound ≠ .shutting deadline) (going : c.outbound ≠ .finished) :
    ∃ d, c.outboundStep now = some d ∧ d.outbound = .shutting (now + shutdownTimeout) ∧
      d.queue.packets = [] := by
  have stops : ∃ b : Connection, c.outboundStep now = some (b.stopWriting now none) := by
    cases place : c.outbound with
    | starting | idle wake => exact ⟨c, by simp [outboundStep, place, writeOn, cancelled]⟩
    | writing slices | flushing =>
        exact ⟨{ c with queue := c.queue.written }, by simp [outboundStep, place, cancelled]⟩
    | shutting deadline => exact absurd place (running deadline)
    | finished => exact absurd place going
  obtain ⟨b, step⟩ := stops
  exact ⟨_, step, rfl, rfl⟩

/-- When the time for it is over, the outbound loop does not wait any more. -/
theorem isSome_outboundStep_of_shutting {deadline : Nat} (place : c.outbound = .shutting deadline)
    (late : deadline ≤ now) : (c.outboundStep now).isSome = true := by
  simp only [outboundStep, place, shutOn, late, if_true]
  split <;> split <;> rfl

/-- Loops that have finished stay so, however the connection fares. -/
theorem StepsBy.lasts {closers : List CloseWait} (share : StepsBy now i happening c d)
    (valid : c.Valid closers) : Lasts c d := by
  cases share with
  | rests => exact fun _ finished => finished
  | inbound _ step => exact Alone.lasts valid (.inbound step)
  | outbound _ step => exact Alone.lasts valid (.outbound step)
  | called => exact Alone.lasts valid (Alone.call _ : Alone now c _)
  | acted _ moves machinery => exact .of_moves moves (congrArg Machinery.inbound machinery)

end Connection

namespace World

open Connection

variable {w : World} {i : Nat} {c e : Connection} {happening : Happening}

/-- A stretch of the outbound loop, if there is one. -/
theorem exists_of_outbound (here : w.conns[i]? = some c)
    (there : (w.perform (.run (.outbound i))).conns[i]? = some e) :
    (c.outboundStep w.now = none ∧ e = c) ∨ ∃ d, c.outboundStep w.now = some d ∧ Tended d e := by
  cases step : c.outboundStep w.now with
  | none =>
      have same : w.perform (.run (.outbound i)) = w := by
        simp only [World.perform, World.step, here, step, Option.map_none, Option.getD_none]
      rw [same] at there
      exact .inl ⟨rfl, (Option.some.inj (here.symm.trans there)).symm⟩
  | some d => exact .inr ⟨d, rfl, tended_of_outbound here step there⟩

theorem lasts_perform (reached : w.Reachable) (here : w.conns[i]? = some c)
    (there : (w.perform happening).conns[i]? = some e) : Lasts c e := by
  obtain ⟨d, share, tended⟩ := stepsBy_perform reached here there
  exact (share.lasts (reached.valid.conns i c here)).trans (.of_tended tended)

/-- Nobody but the outbound loop leaves its place, or writes. -/
theorem outbound_perform (reached : w.Reachable) (here : w.conns[i]? = some c)
    (there : (w.perform happening).conns[i]? = some e) (rests : happening ≠ .run (.outbound i)) :
    e.outbound = c.outbound ∧ e.buffer = c.buffer := by
  obtain ⟨d, share, tended⟩ := stepsBy_perform reached here there
  obtain ⟨source, sink, rfl⟩ := tended.eq
  exact share.sends (reached.valid.conns i c here) rests

theorem halting_perform (reached : w.Reachable) (here : w.conns[i]? = some c)
    (there : (w.perform happening).conns[i]? = some e) : Halting w.now i happening c e := by
  have inactive := (reached.valid.conns i c here).orderly.inactive_of_cancelled
  have lasts := lasts_perform reached here there
  constructor
  case lasts => exact lasts
  case inbound =>
    rintro cancelled free rfl
    rcases inboundStep_of_cancelled w.now cancelled (inactive cancelled) free with
      finished | step
    · have finished : c.hasFinished .inbound = true := by rw [hasFinished, finished]
      exact eq_finished_of_inbound (lasts .inbound finished)
    · obtain ⟨source, sink, rfl⟩ := (tended_of_inbound reached here step there).eq
      rfl
  case outbound =>
    rintro cancelled running going rfl
    obtain ⟨d, step, place, none⟩ := outboundStep_of_cancelled cancelled running going
    obtain ⟨source, sink, rfl⟩ := (tended_of_outbound here step there).eq
    exact ⟨place, none⟩
  case begins =>
    intro deadline shuts
    by_cases runs : happening = .run (.outbound i)
    · subst runs
      rcases exists_of_outbound here there with ⟨-, rfl⟩ | ⟨d, step, tended⟩
      · exact .inl shuts
      · obtain ⟨source, sink, rfl⟩ := tended.eq
        change d.outbound = _ at shuts
        by_cases shutting : ∃ deadline, c.outbound = .shutting deadline
        · obtain ⟨deadline', place⟩ := shutting
          obtain ⟨_, _, _, rfl, finished | ⟨same, -⟩⟩ := outboundStep_of_shutting place step
          · cases finished.symm.trans shuts
          · exact .inl (same.symm.trans shuts)
        · cases halts_outboundStep (fun deadline place => shutting ⟨deadline, place⟩) step with
          | goesOn _ running => exact absurd shuts (running deadline)
          | halts place => exact .inr ⟨rfl, Outbound.shutting.inj (shuts.symm.trans place)⟩
    · exact .inl ((outbound_perform reached here there runs).1.symm.trans shuts)
  case shutting =>
    rintro deadline place rfl
    rcases exists_of_outbound here there with ⟨rests, rfl⟩ | ⟨d, step, tended⟩
    · refine .inr ⟨?_, rfl, .inr rfl⟩
      by_contra late
      have some := isSome_outboundStep_of_shutting place (Nat.le_of_not_lt late)
      rw [rests] at some
      cases some
    · obtain ⟨source, sink, rfl⟩ := tended.eq
      obtain ⟨_, _, _, rfl, finished | ⟨same, early, less⟩⟩ := outboundStep_of_shutting place step
      · exact .inl finished
      · exact .inr ⟨early, same, .inl less⟩

end World

end PacketWire
