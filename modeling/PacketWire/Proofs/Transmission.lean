import PacketWire.Proofs.RoundTrip
import PacketWire.Proofs.Transmitting

/-!
# What a line client puts on the wire

A course is a sequence of turns without an end. Whatever the order in which the input arrives, the
client and the loops of its connection run, the server makes room and the time passes, the server
receives the beginning of the frames of the handshake, of the lines and of the close message, and
nothing else; where everybody runs again and again and the input ends, the client returns. The
server has received all of them then if the close did not run out of its time before.

Seen from the world alone a course is a course of happenings, so that what was shown of every close
is true of the one that the client begins.
-/

namespace PacketWire

theorem Frame.writable_text {line : String} (short : line.utf8ByteSize ≤ FieldType.maxText) :
    Writable (.text line) := by
  have written : (⟨.str, line⟩ : Item).encode =
      .ok (BigEndian.encode 2 line.utf8ByteSize ++ Utf8.encode line) := by
    simp [Item.encode, FieldType.encode, Utf8.length_encode, short]
  have made : (Packet.text line).body = .ok ((Encoder.new 0).append
      (BigEndian.encode 2 line.utf8ByteSize ++ Utf8.encode line)).held := by
    rw [Packet.body, Packet.encode, Packet.payload_text, Packet.written,
      Packet.writeItems_singleton, written]
    rfl
  refine writable_of_body made ?_
  simp only [FieldType.maxText] at short
  simp [Encoder.new, Utf8.length_encode, maxBody]
  omega

/-- Packets that can all be written have their frames. -/
theorem Frame.exists_frames {packets : List Packet} (h : ∀ packet ∈ packets, Writable packet) :
    ∃ frames : List Bytes, packets.map ofPacket = frames.map .ok := by
  induction packets with
  | nil => exact ⟨[], rfl⟩
  | cons packet packets ih =>
      obtain ⟨made, writable⟩ := List.forall_mem_cons.mp h
      obtain ⟨body, made⟩ := made
      obtain ⟨frames, all⟩ := ih writable
      refine ⟨ofBody body :: frames, ?_⟩
      rw [List.map_cons, List.map_cons, all, ofPacket, made]
      rfl

namespace LineClient

open Connection

/-- A client and its world after so many turns of a course. -/
def after (s : LineClient × World) (course : Nat → Turn) : Nat → LineClient × World
  | 0 => s
  | n + 1 => (course n).act (after s course n).1 (after s course n).2

/-- Each turn of a course can happen when it comes. -/
def IsCourse (input : Bytes) (s : LineClient × World) (course : Nat → Turn) : Prop :=
  ∀ n, (course n).IsDue input (after s course n).1

/-- The close never finds its time over while something is still to be written. -/
def InTime (s : LineClient × World) (course : Nat → Turn) : Prop :=
  ∀ n, (course n).IsInTime (after s course n).2

/-- The client and every actor run again and again, the time goes on beyond every point, and the
input ends. -/
structure Fair (s : LineClient × World) (course : Nat → Turn) : Prop where
  client : ∀ n, ∃ m, n ≤ m ∧ course m = .client
  again : ∀ (actor : Actor) (n : Nat), ∃ m, n ≤ m ∧ course m = .run actor
  goesOn : ∀ time, ∃ n, time ≤ (after s course n).2.now
  ends : ∃ n, course n = .endInput

/-- `w'` is what `w` becomes by a happening that neither runs an actor nor gives up a task. -/
def Asks (w w' : World) : Prop :=
  ∃ happening, w' = w.perform happening ∧ (∀ actor, happening ≠ .run actor) ∧
    ∀ t, happening ≠ .abort t

/-- A course of happenings in which the world of a client becomes what it does, and where nobody
gives up a task. -/
structure Shadows (s : LineClient × World) (course : Nat → Turn) (shadow : Nat → Happening) :
    Prop where
  world : ∀ n, s.2.after shadow n = (after s course n).2
  runs : ∀ n actor, course n = .run actor ↔ shadow n = .run actor
  kept : ∀ n t, shadow n ≠ .abort t

variable {inTime : Prop} {version : Int32} {lines : List String} {input line : Bytes}
  {client client' : LineClient} {w w' : World} {c : Connection} {s : LineClient × World}
  {course : Nat → Turn} {shadow : Nat → Happening} {turn : Turn} {n m : Nat}

theorem writable_of_mem_transcript (h : ∀ line ∈ lines, Frame.Writable (.text line))
    (version : Int32) : ∀ packet ∈ transcript version lines, Frame.Writable packet := by
  intro packet member
  simp only [transcript, said, List.cons_append, List.mem_cons, List.mem_append, List.mem_map,
    List.not_mem_nil, or_false] at member
  rcases member with rfl | ⟨line, member, rfl⟩ | rfl
  · exact Frame.writable_handshake .request version
  · exact h line member
  · exact Frame.writable_farewell

/-! ### A client from outside -/

theorem asks_refl (w : World) : Asks w w :=
  ⟨.pass 0, rfl, by simp, by simp⟩

theorem asks_leave (client : LineClient) (w : World) : Asks w (client.leave w).2 := by
  rw [leave]
  split
  · exact ⟨.errands [.close 0, .join 0], rfl, by simp, by simp⟩
  · exact asks_refl w

theorem asks_sendLine (line : Bytes) (client : LineClient) (w : World) :
    Asks w (client.sendLine line w).2 := by
  rw [sendLine]
  split
  · exact asks_refl w
  · rename_i text _
    split
    · exact asks_leave client w
    · rename_i c here
      split
      · rename_i after sent
        refine ⟨.call 0 (.send (.text text)), ?_, by simp, by simp⟩
        simp only [World.perform, World.onConn, here, Call.act, tryTo, attempt, sent]
      · exact asks_leave client w

/-- What a client does to its world. -/
theorem asks_step {after : LineClient × World} (step : client.step w = some after) :
    Asks w after.2 := by
  cases (stretch_step step).2 with
  | line | last => exact asks_sendLine ..
  | chunk | fails => exact asks_refl w
  | leaves => exact asks_leave client w

/-- What a turn does to the world of a client is a happening. -/
theorem exists_happening (turn : Turn) (client : LineClient) (w : World) : ∃ happening,
    (turn.act client w).2 = w.perform happening ∧
      (∀ actor, turn = .run actor ↔ happening = .run actor) ∧ ∀ t, happening ≠ .abort t := by
  cases turn with
  | type | endInput => exact ⟨.pass 0, rfl, by simp, by simp⟩
  | run actor => exact ⟨.run actor, rfl, by simp, by simp⟩
  | pass span => exact ⟨.pass span, rfl, by simp, by simp⟩
  | server room flushStalls shutdownStalls =>
      exact ⟨.transit 0 (.weather room none none flushStalls shutdownStalls), rfl, by simp, by simp⟩
  | client =>
      have asks : Asks w (Turn.client.act client w).2 := by
        rw [Turn.act]
        cases step : client.step w with
        | none => exact asks_refl w
        | some after => exact asks_step step
      obtain ⟨happening, same, idle, kept⟩ := asks
      exact ⟨happening, same, fun actor => by simp [idle actor], kept⟩

theorem exists_shadow (s : LineClient × World) (course : Nat → Turn) :
    ∃ shadow, Shadows s course shadow := by
  choose shadow same runs kept using fun n =>
    exists_happening (course n) (after s course n).1 (after s course n).2
  refine ⟨shadow, fun n => ?_, runs, kept⟩
  induction n with
  | zero => rfl
  | succ n ih =>
      rw [World.after, ih, ← same n]
      rfl

/-! ### The input is read -/

/-- A client that still reads after it took up a line has sent it. -/
theorem sendLine_of_reading (reading : (client.sendLine line w).1.stage = .reading) :
    (client.sendLine line w).1 = client := by
  have left (before : (client.leave w).1.stage = .reading) : (client.leave w).1 = client := by
    rw [leave] at before ⊢
    split at before
    · cases before
    · rfl
  rw [sendLine] at reading ⊢
  split at reading
  · cases reading
  · split at reading
    · exact left reading
    · split at reading
      · rfl
      · exact left reading

/-- A client that still reads has less to read, and its input has not changed its end. -/
theorem patience_step {after : LineClient × World} (step : client.step w = some after)
    (reading : after.1.stage = .reading) :
    after.1.patience < client.patience ∧ after.1.input.ending = client.input.ending := by
  obtain ⟨stage, stretch⟩ := stretch_step step
  cases stretch with
  | line found =>
      obtain ⟨split, some⟩ := Line.takeFirst_eq_some found
      have positive := List.length_pos_iff.mpr some
      rw [sendLine_of_reading reading]
      refine ⟨?_, rfl⟩
      simp only [patience, split, List.length_append]
      omega
  | chunk arrived =>
      refine ⟨?_, rfl⟩
      simp only [patience, arrived, List.length_append, List.foldr_cons]
      omega
  | fails => cases reading
  | last _ _ _ some =>
      have positive := List.length_pos_iff.mpr some
      rw [sendLine_of_reading reading]
      refine ⟨?_, rfl⟩
      simp only [patience, List.length_nil]
      omega
  | leaves =>
      rw [leave, stage] at reading
      cases reading

/-- A client whose input has ended need not wait for anybody until it leaves. -/
theorem isSome_step (reading : client.stage = .reading) (ended : client.input.ending ≠ none)
    (w : World) : (client.step w).isSome = true := by
  rw [LineClient.step, reading]
  dsimp only
  split
  · rfl
  · split
    · rfl
    · rename_i goesOn
      exact absurd goesOn ended
    · rfl
    · split <;> rfl

/-- A client whose input has ended and that still reads, with no more than this to read. -/
structure Finishes (client : LineClient) (rank : Nat) : Prop where
  ended : client.input.ending ≠ none
  reading : client.stage = .reading
  patience : client.patience = rank

theorem Finishes.act {rank : Nat} (h : Finishes client rank) (due : turn.IsDue input client) :
    (Finishes (turn.act client w).1 rank ∧ turn ≠ .client) ∨
      (turn.act client w).1.stage ≠ .reading ∨
        ∃ less < rank, Finishes (turn.act client w).1 less := by
  obtain ⟨ended, reading, rfl⟩ := h
  cases turn with
  | type bytes => exact absurd due.1 ended
  | endInput =>
      refine .inl ⟨⟨?_, reading, rfl⟩, by simp⟩
      cases before : client.input.ending with
      | none => exact absurd before ended
      | some how => simp [Turn.act, Source.finish, before]
  | run | pass | server => exact .inl ⟨⟨ended, reading, rfl⟩, by simp⟩
  | client =>
      obtain ⟨after, step⟩ := Option.isSome_iff_exists.mp (isSome_step reading ended w)
      rw [Turn.act, step, Option.getD_some]
      by_cases still : after.1.stage = .reading
      · obtain ⟨less, same⟩ := patience_step step still
        exact .inr (.inr ⟨_, less, same ▸ ended, still, rfl⟩)
      · exact .inr (.inl still)

/-- A client that does not read any more does nothing any more. -/
theorem stage_act (left : client.stage ≠ .reading) (turn : Turn) (w : World) :
    (turn.act client w).1.stage = client.stage := by
  cases turn with
  | client =>
      rw [Turn.act]
      cases step : client.step w with
      | none => rfl
      | some after => exact absurd (stretch_step step).1 left
  | type | endInput | run | pass | server => rfl

/-! ### What has come to an end -/

/-- A task that has ended stays so. -/
theorem getElem?_tasks_of_ended (reached : w.Reachable) {t : Nat} {outcome : PacketWire.Outcome}
    (place : w.tasks[t]? = some (.ended outcome)) (actor : Actor) :
    (w.perform (.run actor)).tasks[t]? = some (.ended outcome) := by
  by_cases own : actor = .task t
  · rw [own, World.perform_run_of_none (by rw [World.step, place])]
    exact place
  · exact World.getElem?_tasks_perform reached place (by simpa using own) (by simp)

/-- The result of a client stays what it is. -/
theorem result?_act (reached : w.Reachable) {result : Except PeerError Unit}
    (returned : client.result? w = some result) (turn : Turn) :
    (turn.act client w).1.result? (turn.act client w).2 = some result := by
  have left : client.stage ≠ .reading := by
    intro reading
    rw [result?, reading] at returned
    cases returned
  cases turn with
  | type | endInput | pass | server => exact returned
  | client =>
      rw [Turn.act]
      cases step : client.step w with
      | none => exact returned
      | some after => exact absurd (stretch_step step).1 left
  | run actor =>
      rw [Turn.act]
      rw [result?] at returned ⊢
      split at returned
      · exact absurd ‹_› left
      · rename_i task leaving
        obtain ⟨outcome, ended, rfl⟩ := Option.map_eq_some_iff.mp returned
        obtain ⟨place, there, gone⟩ := Option.bind_eq_some_iff.mp ended
        cases place with
        | running => cases gone
        | ended outcome =>
            rw [leaving]
            dsimp only
            rw [getElem?_tasks_of_ended reached there actor]
            rfl
      · rename_i failed
        rw [failed]
        exact returned

/-! ### What comes of a course in the end -/

theorem Shadows.fair (shadows : Shadows s course shadow) (fair : Fair s course) :
    s.2.Fair shadow where
  again := by
    intro actor n
    obtain ⟨m, later, runs⟩ := fair.again actor n
    exact ⟨m, later, (shadows.runs m actor).mp runs⟩
  goesOn := by
    intro time
    obtain ⟨n, due⟩ := fair.goesOn time
    exact ⟨n, by rwa [shadows.world]⟩

theorem Shadows.seesThrough (shadows : Shadows s course shadow) (i : Nat) :
    s.2.SeesThrough i shadow :=
  fun n t _ _ _ _ => shadows.kept n t

theorem reachable_after (reached : s.2.Reachable) (course : Nat → Turn) (n : Nat) :
    (after s course n).2.Reachable := by
  obtain ⟨shadow, shadows⟩ := exists_shadow s course
  exact shadows.world n ▸ reached.after shadow n

theorem now_after_le (reached : s.2.Reachable) (course : Nat → Turn) (later : n ≤ m) :
    (after s course n).2.now ≤ (after s course m).2.now := by
  obtain ⟨shadow, shadows⟩ := exists_shadow s course
  rw [← shadows.world, ← shadows.world]
  exact World.now_after_le reached later

theorem stage_of_le (left : (after s course n).1.stage ≠ .reading) (later : n ≤ m) :
    (after s course m).1.stage ≠ .reading := by
  induction m, later using Nat.le_induction with
  | base => exact left
  | succ m _ ih => exact (stage_act ih (course m) _).trans_ne ih

theorem result?_of_le (reached : s.2.Reachable) {result : Except PeerError Unit}
    (returned : (after s course n).1.result? (after s course n).2 = some result) (later : n ≤ m) :
    (after s course m).1.result? (after s course m).2 = some result := by
  induction m, later using Nat.le_induction with
  | base => exact returned
  | succ m _ ih => exact result?_act (reachable_after reached course m) ih (course m)

/-- What is true at every time of a client is true of it after turns that can happen. -/
theorem IsCourse.transmits (possible : IsCourse input s course)
    (start : ∃ c, Transmits (InTime s course) version lines input s.1 s.2 c) (n : Nat) :
    ∃ c, Transmits (InTime s course) version lines input (after s course n).1
      (after s course n).2 c := by
  induction n with
  | zero => exact start
  | succ n ih =>
      obtain ⟨c, transmits⟩ := ih
      exact transmits.act (possible n) fun inTime => inTime n

/-- Where the time passes again and again it goes on beyond every point. -/
theorem exists_le_now (reached : s.2.Reachable) {span : Nat} (some : 0 < span)
    (passes : ∀ n, ∃ m, n ≤ m ∧ course m = .pass span) (time : Nat) :
    ∃ n, time ≤ (after s course n).2.now := by
  induction time with
  | zero => exact ⟨0, Nat.zero_le _⟩
  | succ time ih =>
      obtain ⟨n, before⟩ := ih
      obtain ⟨m, later, passes⟩ := passes n
      have goesOn : (after s course (m + 1)).2.now = (after s course m).2.now + span := by
        rw [after, passes]
        rfl
      have monotone := now_after_le reached course later
      exact ⟨m + 1, by omega⟩

/-- What stays true until the client runs, and then leads to something else, does lead to it. -/
theorem Fair.leadsTo_client {P Q : Nat → Prop} (fair : Fair s course)
    (turn : ∀ n, P n → P (n + 1) ∧ course n ≠ .client ∨ Q (n + 1)) : LeadsTo P Q := by
  intro n now
  obtain ⟨m, later, runs⟩ := fair.client n
  rcases LeadsTo.until_of_stays (fun n now => (turn n now).imp_left And.left) now later with
    still | done
  · rcases turn m still with ⟨-, idle⟩ | done
    · exact absurd runs idle
    · exact ⟨m + 1, Nat.le_succ_of_le later, done⟩
  · exact done

/-- A client whose input has ended stops reading. -/
theorem IsCourse.leadsTo_leaving (possible : IsCourse input s course) (fair : Fair s course) :
    LeadsTo (fun n => (after s course n).1.input.ending ≠ none)
      (fun n => (after s course n).1.stage ≠ .reading) := by
  intro n ended
  by_cases reading : (after s course n).1.stage = .reading
  · exact LeadsTo.of_decreasing (P := fun rank n => Finishes (after s course n).1 rank)
      (Q := fun n => (after s course n).1.stage ≠ .reading)
      (fun rank => fair.leadsTo_client fun n now => now.act (possible n)) _ n ⟨ended, reading, rfl⟩
  · exact ⟨n, Nat.le_refl n, reading⟩

/-- A client that does not read any more closes its connection. -/
theorem leadsTo_inactive (shadows : Shadows s course shadow) (fair : Fair s course)
    (transmits : ∀ n, ∃ c, Transmits inTime version lines input (after s course n).1
      (after s course n).2 c) :
    LeadsTo (fun n => (after s course n).1.stage ≠ .reading)
      (fun n => (after s course n).1.stage ≠ .reading ∧
        ∃ c, (after s course n).2.conns[0]? = some c ∧ c.isActive = false) := by
  obtain ⟨_, start⟩ := transmits 0
  refine (shadows.fair fair).leadsTo start.lone.reached (.task 0) (fun n left => .inl ?_)
    fun n left runs => ?_
  · exact stage_of_le left (Nat.le_succ n)
  · refine ⟨stage_of_le left (Nat.le_succ n), ?_⟩
    obtain ⟨c, now⟩ := transmits n
    rw [after, (shadows.runs n (.task 0)).mpr runs, Turn.act]
    cases active : c.isActive with
    | false =>
        obtain ⟨-, later⟩ := now.lone.reached.valid.perform (.run (.task 0))
        obtain ⟨d, there, later⟩ := later 0 c now.lone.here
        exact ⟨d, there, later.isActive_eq_false active⟩
    | true =>
        have state := state_eq_active active
        cases now.progress with
        | reading split reads => exact absurd reads.stage left
        | leaving stage tasks seesOff =>
            cases seesOff with
            | joins _ closed | done _ closed => cases state.symm.trans closed
            | @closes wait =>
                cases wait with
                | some wait => cases state.symm.trans (now.lone.state_eq tasks)
                | none =>
                    obtain ⟨d, lone, inactive⟩ := now.lone.begins now.speaks active tasks
                    exact ⟨d, lone.here, inactive⟩

/-- The task that closed the connection finds that there is nothing more to wait for. -/
theorem leadsTo_result (shadows : Shadows s course shadow) (fair : Fair s course)
    (transmits : ∀ n, ∃ c, Transmits inTime version lines input (after s course n).1
      (after s course n).2 c) :
    LeadsTo (fun n => (after s course n).1.stage ≠ .reading ∧
        s.2.Past shadow 0 Connection.HasEnded n)
      (fun n => (after s course n).1.result? (after s course n).2 = some (.ok ())) := by
  obtain ⟨_, start⟩ := transmits 0
  have reached := start.lone.reached
  refine (shadows.fair fair).leadsTo reached (.task 0) (fun n past => .inl ?_)
    fun n past runs => ?_
  · exact ⟨stage_of_le past.1 (Nat.le_succ n),
      World.hasEnded_of_le reached (shadows.seesThrough 0) (Nat.le_succ n) past.2⟩
  · obtain ⟨left, c, _, here, -, -, hasEnded⟩ := past
    obtain ⟨c', now⟩ := transmits n
    rw [shadows.world] at here
    obtain rfl : c = c' := (now.lone.eq_of_getElem? here).2
    rw [after, (shadows.runs n (.task 0)).mpr runs]
    cases now.progress with
    | reading split reads => exact absurd reads.stage left
    | leaving stage tasks seesOff =>
        cases seesOff with
        | done =>
            refine result?_act now.lone.reached ?_ _
            rw [result?, stage, tasks]
            rfl
        | joins finished closed =>
            obtain ⟨-, becomes⟩ := now.lone.joins now.speaks tasks finished closed
            rw [Turn.act, result?, stage, becomes.tasks]
            rfl
        | @closes wait holds =>
            cases wait with
            | some wait => cases hasEnded.closed.symm.trans (now.lone.state_eq tasks)
            | none => cases hasEnded.closed.symm.trans (state_eq_active holds.1)

/-- A client whose input has ended returns. -/
theorem leadsTo_returned (possible : IsCourse input s course) (fair : Fair s course)
    (transmits : ∀ n, ∃ c, Transmits inTime version lines input (after s course n).1
      (after s course n).2 c)
    (reading : s.1.stage = .reading) :
    LeadsTo (fun n => (after s course n).1.input.ending ≠ none)
      (fun n => (after s course n).1.result? (after s course n).2 = some (.ok ())) := by
  obtain ⟨shadow, shadows⟩ := exists_shadow s course
  obtain ⟨c, start⟩ := transmits 0
  have reached : s.2.Reachable := start.lone.reached
  have through := shadows.seesThrough 0
  have active : c.isActive = true := by
    cases start.progress with
    | reading _ reads => exact reads.active
    | leaving stage => cases reading.symm.trans stage
  -- the client began an ordinary close, of which the liveness of every close is true
  have ends : LeadsTo
      (fun n => (after s course n).1.stage ≠ .reading ∧
        ∃ c, (after s course n).2.conns[0]? = some c ∧ c.isActive = false)
      (fun n => (after s course n).1.stage ≠ .reading ∧
        s.2.Past shadow 0 Connection.HasEnded n) := by
    rintro n ⟨left, d, there, inactive⟩
    obtain ⟨m, later, past⟩ := World.leadsTo_hasEnded_of_left (shadows.fair fair) reached through
      start.lone.here active n ⟨d, by rwa [shadows.world], inactive⟩
    exact ⟨m, later, stage_of_le left later, past⟩
  exact (possible.leadsTo_leaving fair).trans ((leadsTo_inactive shadows fair transmits).trans
    (ends.trans (leadsTo_result shadows fair transmits)))

end LineClient

open LineClient

/-- What a line client puts on the wire, for every input that is a text whose lines fit into a
packet, every version and every order in which the input arrives, the client and the loops of its
connection run, the server makes room and the time passes. The server sends nothing, keeps its side
open and accepts every write, at once or later, and the client originates no keep-alives.

The bytes that the server has received are at any time the beginning of the frames of the handshake
request with the version of the client, of one packet for each line and of the close message. At the
end of the stream they are all of them, unless the close found its time over while something was
still to be written. A client that has returned has not failed and has left its transport. If
everybody runs again and again, the time goes on and the input ends, the client returns. -/
theorem transmission_of_isCourse {name : String} {config : ConnectionConfig} {input : Bytes}
    {text : String} {course : Nat → Turn} (quiet : config.autoKeepAlive = false)
    (valid : Utf8.decode input = .ok text)
    (short : ∀ line ∈ Line.texts text, line.utf8ByteSize ≤ 65535)
    (possible : IsCourse input (start name config) course) :
    ∃ frames : List Bytes,
      (transcript config.protocolVersion (Line.texts text)).map Frame.ofPacket =
        frames.map .ok ∧
      (∀ n, (after (start name config) course n).2.received 0 <+: frames.flatten) ∧
      (InTime (start name config) course → ∀ n,
        (after (start name config) course n).2.isReleased 0 = true →
          (after (start name config) course n).2.received 0 = frames.flatten) ∧
      (∀ n result, (after (start name config) course n).1.result?
          (after (start name config) course n).2 = some result →
        result = .ok () ∧ (after (start name config) course n).2.isReleased 0 = true) ∧
      (LineClient.Fair (start name config) course → ∃ m, ∀ k, m ≤ k →
        (after (start name config) course k).1.result? (after (start name config) course k).2 =
          some (.ok ())) := by
  obtain rfl := Utf8.encode_of_decode valid
  have writable (line : String) (member : line ∈ Line.texts text) : Frame.Writable (.text line) :=
    Frame.writable_text (short line member)
  have transmits := possible.transmits (transmits_start quiet writable name)
  obtain ⟨frames, made⟩ := Frame.exists_frames
    (writable_of_mem_transcript writable config.protocolVersion)
  refine ⟨frames, made, ?_⟩
  rw [← Frame.stream_of_frames made]
  refine ⟨fun n => ?_, fun inTime n released => ?_, fun n result returned => ?_, fun fair => ?_⟩
  · obtain ⟨c, transmits⟩ := transmits n
    exact transmits.received_prefix
  · obtain ⟨c, transmits⟩ := transmits n
    exact transmits.received_of_released inTime released
  · obtain ⟨c, transmits⟩ := transmits n
    exact ⟨(transmits.of_result returned).1, transmits.isReleased_of_result returned⟩
  · obtain ⟨n, ends⟩ := fair.ends
    have ended : (after (start name config) course (n + 1)).1.input.ending ≠ none := by
      rw [after, ends]
      simp [Turn.act, Source.finish]
    obtain ⟨m, -, returned⟩ := leadsTo_returned possible fair transmits rfl (n + 1) ended
    exact ⟨m, fun k later => result?_of_le (reachable_start name config) returned later⟩

namespace LineClient

variable {version : Int32} {lines : List String} {input : Bytes} {s : LineClient × World}

/-- Everybody in turn, the client in between. -/
def rounds (n : Nat) : Turn :=
  if n % 2 = 0 then .client
  else
    match rota (n / 2) with
    | .run actor => .run actor
    | _ => .pass 10

theorem isCourse_followed {turns : List Turn} (due : ∀ k < turns.length,
      (followed turns rounds k).IsDue input (after s (followed turns rounds) k).1) :
    IsCourse input s (followed turns rounds) := by
  refine followed_cases (P := fun n (turn : Turn) =>
    turn.IsDue input (after s (followed turns rounds) n).1) due fun n => ?_
  rw [rounds]
  split
  · trivial
  · split <;> trivial

/-- Once the client has returned, nothing is late any more. -/
theorem inTime_followed {turns : List Turn} (possible : IsCourse input s (followed turns rounds))
    (start : ∃ c, Transmits (InTime s (followed turns rounds)) version lines input s.1 s.2 c)
    (early : ∀ k < turns.length,
      (followed turns rounds k).IsInTime (after s (followed turns rounds) k).2)
    (returned : ((after s (followed turns rounds) turns.length).1.result?
      (after s (followed turns rounds) turns.length).2).isSome = true) :
    InTime s (followed turns rounds) := by
  intro m
  by_cases before : m < turns.length
  · exact early m before
  · obtain ⟨result, returned⟩ := Option.isSome_iff_exists.mp returned
    obtain ⟨_, first⟩ := start
    obtain ⟨c, now⟩ := possible.transmits ⟨_, first⟩ m
    have later := result?_of_le first.lone.reached returned (Nat.not_lt.mp before)
    have punctual := now.not_isLate_of_result later
    rw [Turn.IsInTime.eq_def]
    split
    · exact punctual
    · trivial

theorem fair_followed {turns : List Turn} (reached : s.2.Reachable)
    (ends : .endInput ∈ turns) : LineClient.Fair s (followed turns rounds) := by
  have odd (n : Nat) : followed turns rounds (turns.length + (2 * n + 1)) = match rota n with
      | .run actor => .run actor
      | _ => .pass 10 := by
    have half : (2 * n + 1) / 2 = n := by omega
    rw [followed_add, rounds, if_neg (by omega), half]
  constructor
  · intro n
    refine ⟨turns.length + 2 * n, by omega, ?_⟩
    rw [followed_add, rounds, if_pos (Nat.mul_mod_right 2 n)]
  · intro actor n
    obtain ⟨m, later, runs⟩ := (fair_rota reachable_stuck).again actor n
    refine ⟨turns.length + (2 * m + 1), by omega, ?_⟩
    rw [odd, runs]
  · refine exists_le_now reached (show 0 < 10 by decide) fun n => ?_
    have part : (4 * n + 3) % 4 = 3 := by omega
    refine ⟨turns.length + (2 * (4 * n + 3) + 1), by omega, ?_⟩
    rw [odd, rota, part]
    rfl
  · obtain ⟨n, bound, ends⟩ := List.getElem_of_mem ends
    exact ⟨n, by simp [followed, bound, ends]⟩

/-- A client sends three lines, one of them empty and the last one without a line feed, then closes
its connection and waits for it. The server takes nothing until then. -/
def visit : List Turn :=
  [[.server (some 0) false false, .type (Utf8.encode "hi\n\nbye"), .endInput],
    List.replicate 5 .client, [.run (.task 0)], List.replicate 13 (.run (.outbound 0)),
    [.pass 10, .server none false false], List.replicate 2 (.run (.outbound 0)),
    [.run (.task 0), .run (.inbound 0)], List.replicate 2 (.run (.outbound 0)),
    List.replicate 2 (.run (.task 0))].flatten

/-- The server receives everything, and the client returns. -/
theorem transmission_visiting :
    IsCourse (Utf8.encode "hi\n\nbye") (start "" {}) (followed visit rounds) ∧
    InTime (start "" {}) (followed visit rounds) ∧
    LineClient.Fair (start "" {}) (followed visit rounds) ∧ ∃ frames : List Bytes,
      (transcript 1 ["hi", "", "bye"]).map Frame.ofPacket = frames.map .ok ∧
      ∃ m, ∀ k, m ≤ k →
        (after (start "" {}) (followed visit rounds) k).2.received 0 = frames.flatten ∧
        (after (start "" {}) (followed visit rounds) k).1.result?
          (after (start "" {}) (followed visit rounds) k).2 = some (.ok ()) := by
  have possible : IsCourse (Utf8.encode "hi\n\nbye") (start "" {}) (followed visit rounds) :=
    isCourse_followed (by decide +kernel)
  have short : ∀ line ∈ Line.texts "hi\n\nbye", line.utf8ByteSize ≤ 65535 := by decide +kernel
  have inTime : InTime (start "" {}) (followed visit rounds) :=
    inTime_followed possible
      (transmits_start rfl (fun line member => Frame.writable_text (short line member)) "")
      (by decide +kernel) (by decide +kernel)
  have fair : LineClient.Fair (start "" {}) (followed visit rounds) :=
    fair_followed (reachable_start "" {}) (by simp [visit])
  obtain ⟨frames, made, -, whole, results, ends⟩ := transmission_of_isCourse (by rfl)
    (Utf8.decode_encode "hi\n\nbye") short possible
  obtain ⟨m, returned⟩ := ends fair
  have texts : Line.texts "hi\n\nbye" = ["hi", "", "bye"] := by decide +kernel
  rw [texts] at made
  refine ⟨possible, inTime, fair, frames, made, m, fun k later =>
    ⟨whole inTime k ?_, returned k later⟩⟩
  exact (results k _ (returned k later)).2

/-- The server received the request for a handshake and then the end of the stream, and the client
has returned as if all had been well. -/
def HasLost (s : LineClient × World) : Prop :=
  s.2.isReleased 0 = true ∧ s.2.received 0 = Frame.stream [.handshake .request 1] ∧
    s.1.result? s.2 matches some (.ok ())

instance (s : LineClient × World) : Decidable (HasLost s) :=
  inferInstanceAs (Decidable (_ ∧ _ ∧ _))

/-- With these turns a course begins on which the client types one line, and which loses it. -/
def Loses (turns : List Turn) : Prop :=
  IsCourse (Utf8.encode "hi\n") (start "" {}) (followed turns rounds) ∧
    LineClient.Fair (start "" {}) (followed turns rounds) ∧
    HasLost (after (start "" {}) (followed turns rounds) turns.length)

/-- The server takes nothing until half a second after the close has run out of its time. -/
def belated : List Turn :=
  [[.server (some 0) false false], List.replicate 4 (.run (.outbound 0)),
    [.type (Utf8.encode "hi\n"), .endInput], List.replicate 4 .client,
    [.run (.task 0), .pass 5000, .run (.task 0), .run (.inbound 0), .run (.outbound 0), .pass 500,
      .server none false false], List.replicate 2 (.run (.outbound 0)),
    List.replicate 3 (.run (.task 0))].flatten

/-- The server takes everything at once, but once the request was written the outbound loop gets no
turn until the close has run out of its time. -/
def neglected : List Turn :=
  [List.replicate 4 (.run (.outbound 0)), [.type (Utf8.encode "hi\n"), .endInput],
    List.replicate 4 .client,
    [.run (.task 0), .pass 5000, .run (.task 0), .run (.inbound 0)],
    List.replicate 3 (.run (.outbound 0)), List.replicate 3 (.run (.task 0))].flatten

/-- A line is lost if it cannot be written before the close runs out of its time. -/
theorem transmission_belated : Loses belated ∧ Loses neglected ∧
    Frame.stream [.handshake .request 1] ≠ Frame.stream (transcript 1 (Line.texts "hi\n")) := by
  have fair {turns : List Turn} (ends : .endInput ∈ turns) :
      LineClient.Fair (start "" {}) (followed turns rounds) :=
    fair_followed (reachable_start "" {}) ends
  refine ⟨⟨isCourse_followed ?_, fair (by simp [belated]), ?_⟩,
    ⟨isCourse_followed ?_, fair (by simp [neglected]), ?_⟩, ?_⟩ <;> decide +kernel

end LineClient

end PacketWire
