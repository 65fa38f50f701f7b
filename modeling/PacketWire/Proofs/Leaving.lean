import PacketWire.Proofs.Echoing
import PacketWire.Proofs.Resting
import PacketWire.Proofs.Terminating

/-!
# How a connection of an echo server comes to its end

Once the client has ended the stream, nothing but the inbound loop changes what there is left to
read, and every stretch of that makes it less. So the loop comes to the end of the stream, where it
begins to close; and every close comes to an end.
-/

namespace PacketWire

namespace Connection

variable {inTime : Prop} {lines : List String} {c d : Connection} {now later : Nat}
  {closers : List CloseWait}

theorem backlog_of_intake (intake : d.intake = c.intake) :
    d.source.ending = c.source.ending ∧ d.backlog = c.backlog := by
  injection intake with _ _ _ _ _ _ _ _ inbound source readAhead
  simp only [backlog, inbound, source, readAhead, and_self]

/-- An active connection of an echo server carries out no close. -/
theorem Echoes.reads (h : Echoes inTime lines now c) (valid : c.Valid closers)
    (active : c.isActive = true) :
    c.cancelled = false ∧ ∀ wait shown, c.inbound ≠ .closing wait shown := by
  refine ⟨(valid.orderly.fresh active).2.2.2, fun wait shown place => ?_⟩
  obtain ⟨-, -, -, -, closing, -⟩ := h.departs.of_closing place
  cases (state_eq_active active).symm.trans closing

/-- Once the stream has ended, what is left to read does not become more. -/
theorem Echoes.backlog_le (h : Echoes inTime lines now c) (valid : c.Valid closers)
    (active : c.isActive = true) (ended : c.source.ending ≠ none)
    (undergoes : Undergoes (Dictates inTime lines) now c later d) :
    d.source.ending ≠ none ∧ d.backlog ≤ c.backlog := by
  have still {d : Connection} (intake : d.intake = c.intake) :
      d.source.ending ≠ none ∧ d.backlog ≤ c.backlog := by
    obtain ⟨ending, backlog⟩ := backlog_of_intake intake
    exact ⟨ending ▸ ended, backlog.le⟩
  cases undergoes with
  | rests => exact still rfl
  | inbound step =>
      obtain ⟨running, free⟩ := h.reads valid active
      obtain ⟨less, -, same⟩ := backlog_lt (fun _ => running) free step
      exact ⟨same ▸ ended, less.le⟩
  | outbound step =>
      refine still ?_
      rw [(flows_outboundStep h.isEcho.unhindered valid.tallied step).eq]
      rfl
  | hands deferred =>
      obtain ⟨-, line, member, rfl⟩ := h.exists_line deferred
      obtain ⟨d, eq, answers⟩ := answers_dispatch h.isEcho.unhindered h.isEcho.listener
        (h.isEcho.fits line member).writable false now
      rw [eq]
      exact still answers.intake
  | joins => exact still rfl
  | @meets intervention dictates =>
      cases intervention with
      | call => exact dictates.1.elim
      | pass => exact still rfl
      | transit transit =>
          cases transit with
          | feed => exact absurd dictates.1.1 ended
          | weather => exact dictates.1.elim
          | finish ending =>
              refine ⟨?_, Nat.le_refl _⟩
              cases before : c.source.ending with
              | none => exact absurd before ended
              | some how => simp [Intervention.act, Transit.act, Source.finish, before]

/-- Once the stream has ended, the inbound loop has something to do as long as it reads. -/
theorem Echoes.exists_inboundStep (h : Echoes inTime lines now c) (valid : c.Valid closers)
    (active : c.isActive = true) (ended : c.source.ending ≠ none) :
    ∃ d, c.inboundStep now = some d ∧ d.source.ending ≠ none ∧ d.backlog < c.backlog := by
  obtain ⟨running, free⟩ := h.reads valid active
  cases step : c.inboundStep now with
  | some d =>
      obtain ⟨less, -, same⟩ := backlog_lt (fun _ => running) free step
      exact ⟨d, rfl, same ▸ ended, less⟩
  | none =>
      have departs := h.departs
      cases place : c.inbound with
      | starting =>
          rw [Connection.inboundStep, place] at step
          cases step
      | reading =>
          rw [inboundStep_reading place running] at step
          split at step
          · cases step
          · cases step
          · exact absurd (readAhead?_eq_none.mp step).2 ended
      | closing wait shown => exact absurd place (free wait shown)
      | finished =>
          simp only [Departs, place] at departs
          cases departs.symm.trans running

end Connection

namespace World

open Connection EchoServer

variable {inTime : Prop} {lines : List String} {w : World} {i n rank : Nat} {c : Connection}
  {course : Nat → Happening}

theorem lasting_echoes (lines : List String) (bytes : Bytes) :
    Lasting (Dictates inTime lines) bytes (Echoes inTime lines) where
  calm := by
    intro w i c reached here _ echoes
    have mild : Listener.Mild c.listener := echoes.isEcho.listener ▸ mild_echo
    refine ⟨mild, reached.unasked here mild, fun deferred => ?_⟩
    obtain ⟨-, line, -, rfl⟩ := echoes.exists_line deferred
    rfl
  undergoes := by
    intro w i c later d reached here _ echoes undergoes
    exact echoes.undergoes (reached.valid.conns i c here) undergoes

/-- Nobody but its own loops carries out a close of a connection that the tasks respect. -/
theorem not_carries_of_respects (tasks : ∀ task ∈ w.tasks, task.Respects i) (t : Nat)
    (wait : CloseWait) : ¬w.Carries i c (.task t) wait := by
  intro carries
  obtain ⟨task, place, closing⟩ := carries.exists_closing?
  obtain ⟨todo, suspension⟩ := tasks task (List.mem_of_getElem? place)
  unfold Task.closing? at closing
  split at closing
  · rename_i conn _ _
    split at closing
    · rename_i same
      exact todo (by rw [same]; exact List.mem_cons_self)
    · cases closing
  · rename_i s _ _
    exact suspension s rfl (by_contra fun other => by rw [if_neg other] at closing; cases closing)
  · rename_i s
    exact suspension s rfl (by_contra fun other => by rw [if_neg other] at closing; cases closing)
  · cases closing

theorem respects_map_range {admits : Nat → Connection → Intervention → Prop}
    (respects : ∀ n, (course n).Respects admits i (w.after course n)) (n : Nat) :
    Respects admits i w ((List.range n).map course) := by
  induction n with
  | zero => trivial
  | succ n ih =>
      rw [List.range_succ, List.map_append, respects_append, ← after_eq_performAll]
      exact ⟨ih, respects n, trivial⟩

/-- A course in which a client dictates lines to a connection that is active at its begin. -/
structure IsDictated (inTime : Prop) (lines : List String) (i : Nat) (w : World)
    (course : Nat → Happening) : Prop where
  reached : w.Reachable
  active : ∃ c, w.conns[i]? = some c ∧ c.isActive = true
  keeps : ∀ n, Keeps (Echoes inTime lines) i (w.after course n)
  dictates : ∀ n, (course n).Respects (Dictates inTime lines) i (w.after course n)

theorem IsDictated.seesThrough (h : IsDictated inTime lines i w course) :
    w.SeesThrough i course := by
  intro n t c wait here carries
  exact absurd carries (not_carries_of_respects (h.keeps n).tasks t wait)

/-- The connection is active and its stream has ended, with so much left to read. -/
def EndsIn (w : World) (i rank : Nat) : Prop :=
  ∃ c, w.conns[i]? = some c ∧ c.isActive = true ∧ c.source.ending ≠ none ∧ c.backlog = rank

/-- The connection is not active any more. -/
def HasLeft (w : World) (i : Nat) : Prop :=
  ∃ c, w.conns[i]? = some c ∧ c.isActive = false

theorem hasLeft_or_endsIn (here : w.conns[i]? = some c) (ended : c.source.ending ≠ none) :
    w.HasLeft i ∨ w.EndsIn i c.backlog := by
  cases active : c.isActive with
  | false => exact .inl ⟨c, here, active⟩
  | true => exact .inr ⟨c, here, active, ended, rfl⟩

/-- The inbound loop has something to read, and then there is less of it. -/
theorem IsDictated.endsIn_lt (h : IsDictated inTime lines i w course) (n : Nat)
    (now : (w.after course n).EndsIn i rank) (runs : course n = .run (.inbound i)) :
    (w.after course (n + 1)).HasLeft i ∨ ∃ less < rank, (w.after course (n + 1)).EndsIn i less := by
  obtain ⟨c, here, active, ended, rfl⟩ := now
  have valid := (h.reached.after course n).valid
  have conn := valid.conns i c here
  obtain ⟨d, step, still, less⟩ := ((h.keeps n).conn c here).exists_inboundStep conn active ended
  have stepped : (w.after course n).step (.inbound i) = some ((w.after course n).put i c d) := by
    simp only [World.step, here, step, Option.map_some]
  have changes := (conn.moves_inboundStep step).changes
  have there : (w.after course (n + 1)).conns[i]? = some d := by
    rw [World.after, runs, World.perform, stepped, Option.getD_some,
      (put_spec (Later.of_changes changes).journal).dry i (h.keeps n).dry]
    exact List.getElem?_set_self (List.getElem?_eq_some_iff.mp here).1
  exact (hasLeft_or_endsIn there still).imp_right fun next => ⟨_, less, next⟩

theorem IsDictated.endsIn_le (h : IsDictated inTime lines i w course) (n : Nat)
    (now : (w.after course n).EndsIn i rank) :
    (w.after course (n + 1)).HasLeft i ∨ ∃ less ≤ rank, (w.after course (n + 1)).EndsIn i less := by
  obtain ⟨c, here, active, ended, rfl⟩ := now
  have reached := h.reached.after course n
  have keeps := h.keeps n
  have safe : Safe i (w.after course n) := by
    refine ⟨keeps.dry, fun c here => ?_, keeps.tasks⟩
    exact (lasting_echoes lines _).calm reached here List.prefix_rfl (keeps.conn c here)
  obtain ⟨d, there, undergoes⟩ := (safe.perform reached (h.dictates n)).conn c here
  obtain ⟨still, le⟩ :=
    (keeps.conn c here).backlog_le (reached.valid.conns i c here) active ended undergoes
  exact (hasLeft_or_endsIn there still).imp_right fun next => ⟨_, le, next⟩

/-- Once the client has ended the stream, the connection does not stay active. -/
theorem IsDictated.leadsTo_hasLeft (h : IsDictated inTime lines i w course) (fair : w.Fair course)
    (rank : Nat) : LeadsTo (fun n => (w.after course n).EndsIn i rank)
      fun n => (w.after course n).HasLeft i := by
  refine LeadsTo.of_decreasing (P := fun rank n => (w.after course n).EndsIn i rank)
    (fun rank => fair.leadsTo h.reached (.inbound i) (fun n now => ?_) h.endsIn_lt) rank
  rcases h.endsIn_le n now with left | ⟨less, le, next⟩
  · exact .inr (.inl left)
  · rcases le.lt_or_eq with less' | rfl
    · exact .inr (.inr ⟨less, less', next⟩)
    · exact .inl next

/-- Once the client has ended the stream, the connection comes to its end. -/
theorem IsDictated.leadsTo_hasEnded (h : IsDictated inTime lines i w course)
    (fair : w.Fair course) : LeadsTo
      (fun n => ∃ c, (w.after course n).conns[i]? = some c ∧ c.source.ending ≠ none)
      (w.Past course i Connection.HasEnded) := by
  obtain ⟨c, here, active⟩ := h.active
  have ends := leadsTo_hasEnded_of_left fair h.reached h.seesThrough here active
  refine LeadsTo.trans (fun n now => ?_) ends
  obtain ⟨d, there, ended⟩ := now
  rcases hasLeft_or_endsIn there ended with left | rest
  · exact ⟨n, Nat.le_refl n, left⟩
  · exact h.leadsTo_hasLeft fair _ n rest

end World

end PacketWire
