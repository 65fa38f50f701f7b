import PacketWire.Proofs.Speaking
import PacketWire.Proofs.Splitting

/-!
# What a line client says

A line client reads its input, its connection sends what it was told to, the server takes bytes as
it likes, and time passes, in any order. `Transmits` is what is true at every time when the server
sends nothing, keeps its side open and accepts every write: the lines that were sent so far, in
front of those that are still to be read, are the lines of the input, and a client that has come to
its end has sent all of them. Whether the server has also received them depends on the time that the
close took, of which `inTime` tells.
-/

namespace PacketWire

/-- What a client has accepted for sending after these lines. -/
def LineClient.said (version : Int32) (lines : List String) : List Packet :=
  .handshake .request version :: lines.map .text

/-- All that a client sends whose input has these lines. -/
def LineClient.transcript (version : Int32) (lines : List String) : List Packet :=
  said version lines ++ [.farewell]

/-- What happens to a client and its world. -/
inductive LineClient.Turn where
  /-- More of the client's input. -/
  | type (bytes : Bytes)
  | endInput
  /-- A stretch of the client itself. -/
  | client
  | run (actor : Actor)
  | pass (span : Nat)
  /-- The server takes so many more bytes for now, or any number; it stalls, or does not. -/
  | server (room : Option Nat) (flushStalls shutdownStalls : Bool)

namespace LineClient

open Connection

/-- A client and its world after a turn. -/
def Turn.act (client : LineClient) (w : World) : Turn → LineClient × World
  | type bytes => ({ client with input := client.input.feed bytes }, w)
  | endInput => ({ client with input := client.input.finish .endOfStream }, w)
  | .client => (client.step w).getD (client, w)
  | run actor => (client, w.perform (.run actor))
  | pass span => (client, w.perform (.pass span))
  | server room flushStalls shutdownStalls =>
    (client, w.perform (.transit 0 (.weather room none none flushStalls shutdownStalls)))

/-- What can happen next to a client with this input, whose server sends nothing, keeps its side
open and accepts every write. -/
def Turn.IsDue (input : Bytes) (client : LineClient) : Turn → Prop
  | type bytes => client.input.ending = none ∧ client.input.fed ++ bytes <+: input
  | endInput => client.input.fed = input
  | .client | run _ | pass _ | server .. => True

instance (input : Bytes) (client : LineClient) :
    (turn : Turn) → Decidable (turn.IsDue input client)
  | .type _ => inferInstanceAs (Decidable (_ ∧ _))
  | .endInput => inferInstanceAs (Decidable (_ = _))
  | .client | .run _ | .pass _ | .server .. => inferInstanceAs (Decidable True)

/-- The task that closes the connection does not look when its close is late. -/
def Turn.IsInTime (w : World) : Turn → Prop
  | run (.task _) => ¬ w.IsLate
  | _ => True

instance (w : World) : (turn : Turn) → Decidable (turn.IsInTime w)
  | .run (.task _) => inferInstanceAs (Decidable (¬ _))
  | .run (.inbound _) | .run (.outbound _) | .type _ | .endInput | .client | .pass _ | .server .. =>
    inferInstanceAs (Decidable True)

/-- A client that reads: these lines were sent, those are still to be read, and these bytes of its
input have not arrived yet. -/
structure Reads (version : Int32) (input : Bytes) (client : LineClient) (w : World) (c : Connection)
    (done todo : List String) (ahead : Bytes) : Prop where
  stage : client.stage = .reading
  tasks : w.tasks = []
  active : c.isActive = true
  free : c.unjoined ≠ []
  accepted : c.acceptedPackets = said version done
  fed : client.input.fed ++ ahead = input
  ended : ∀ ending ∈ client.input.ending, ending = .endOfStream ∧ ahead = []
  left : (Line.all (client.held ++ (client.input.chunks.flatten ++ ahead))).map Line.text =
    todo.map .ok

/-- How far a client is: it reads, or all its lines were sent and a task closes the connection. -/
inductive Progress (version : Int32) (lines : List String) (input : Bytes) (client : LineClient)
    (w : World) (c : Connection) : Prop
  | reading {done todo : List String} {ahead : Bytes} (split : lines = done ++ todo)
      (reads : Reads version input client w c done todo ahead)
  | leaving {task : Task} (stage : client.stage = .leaving 0) (tasks : w.tasks = [task])
      (seesOff : SeesOff c task) (accepted : c.acceptedPackets = said version lines)

/-- What is true at every time of a client whose input has these lines. -/
structure Transmits (inTime : Prop) (version : Int32) (lines : List String) (input : Bytes)
    (client : LineClient) (w : World) (c : Connection) : Prop where
  lone : w.IsLone c
  speaks : c.Speaks inTime
  writable : ∀ line ∈ lines, Frame.Writable (.text line)
  progress : Progress version lines input client w c

variable {inTime : Prop} {version : Int32} {lines : List String} {input bytes : Bytes}
  {client client' : LineClient} {w w' : World} {c d : Connection} {packet : Packet}
  {line held ahead : Bytes} {text : String} {done todo : List String}

theorem said_append (version : Int32) (done : List String) (line : String) :
    said version (done ++ [line]) = said version done ++ [.text line] := by
  simp [said]

theorem said_prefix_transcript (version : Int32) (done todo : List String) :
    said version done <+: transcript version (done ++ todo) := by
  simp [said, transcript]

/-! ### Sending -/

theorem tryTo_send_eq (active : c.isActive = true) (packet : Packet) :
    tryTo (c.send packet) c = c.accept packet := by
  rw [send_eq_ok active]
  rfl

/-- A packet is sent on the only connection. -/
theorem becomes_send (lone : w.IsLone c) (active : c.isActive = true)
    (speaks : (c.accept packet).Speaks inTime) :
    w.Becomes (w.put 0 c (c.accept packet)) (c.accept packet) w.tasks := by
  have reached := lone.reached.perform (.call 0 (.send packet))
  simp only [World.perform, World.onConn, lone.here, Call.act, tryTo_send_eq active] at reached
  obtain ⟨conns, wires, now, tasks⟩ := lone.put speaks.unasked
  exact ⟨⟨reached, conns, wires⟩, now, tasks⟩

/-- A line that can be read is sent while the connection is active. -/
theorem sendLine_of_isActive (lone : w.IsLone c) (active : c.isActive = true)
    (read : Line.text line = .ok text) (client : LineClient) : client.sendLine line w =
      (client, w.put 0 c (c.accept (.text text))) := by
  simp only [sendLine, read, lone.here, send_eq_ok active]
  rfl

/-! ### A stretch of the client -/

/-- What a stretch of a client can be, by what it holds and what has arrived. -/
inductive Stretch (client : LineClient) (w : World) : LineClient × World → Prop
  | line {line held : Bytes} : Line.takeFirst client.held = some (line, held) →
      Stretch client w ({ client with held }.sendLine line w)
  | chunk {chunk : Bytes} {chunks : List Bytes} : client.input.chunks = chunk :: chunks →
      Stretch client w ({ client with
        held := client.held ++ chunk
        input := { client.input with chunks } }, w)
  | fails {cause : TransportError} : client.input.ending = some (.failure cause) →
      Stretch client w ({ client with stage := .failed (.input cause) }, w)
  | last : Line.takeFirst client.held = none → client.input.chunks = [] →
      client.input.ending = some .endOfStream → client.held ≠ [] →
      Stretch client w ({ client with held := [] }.sendLine client.held w)
  | leaves : client.input.chunks = [] → client.input.ending = some .endOfStream →
      client.held = [] → Stretch client w (client.leave w)

theorem stretch_step {after : LineClient × World} (step : client.step w = some after) :
    client.stage = .reading ∧ Stretch client w after := by
  rw [LineClient.step] at step
  split at step
  · rename_i reading
    refine ⟨reading, ?_⟩
    split at step
    · rename_i found
      cases step
      exact .line found
    · rename_i none
      split at step
      · rename_i arrived
        cases step
        exact .chunk arrived
      · cases step
      · rename_i broken
        cases step
        exact .fails broken
      · rename_i arrived atEnd
        split at step <;> rename_i empty <;> cases step
        · exact .leaves arrived atEnd (List.isEmpty_iff.mp empty)
        · exact .last none arrived atEnd (by simpa using empty)
  · cases step

/-- A line is sent, and what is left to be read are the other lines. -/
theorem Reads.sendLine (h : Reads version input client w c done todo ahead) (lone : w.IsLone c)
    (speaks : c.Speaks inTime) (writable : ∀ line ∈ lines, Frame.Writable (.text line))
    (split : lines = done ++ todo)
    (taken : Line.all (client.held ++ (client.input.chunks.flatten ++ ahead)) =
      line :: Line.all (held ++ (client.input.chunks.flatten ++ ahead))) :
    ∃ d, Transmits inTime version lines input ({ client with held }.sendLine line w).1
      ({ client with held }.sendLine line w).2 d := by
  obtain ⟨stage, tasks, active, free, accepted, fed, ended, left⟩ := h
  rw [taken] at left
  cases todo with
  | nil => cases left
  | cons text todo =>
      rw [List.map_cons, List.map_cons, List.cons.injEq] at left
      obtain ⟨read, left⟩ := left
      have fits : Frame.Writable (.text text) := writable text (by simp [split])
      have said := speaks.accept lone.valid.orderly active fits
      obtain ⟨lone', -, tasks'⟩ := becomes_send lone active said
      rw [sendLine_of_isActive lone active read]
      have next : lines = (done ++ [text]) ++ todo := by
        rw [split, List.append_assoc]
        rfl
      refine ⟨_, lone', said, writable,
        .reading next ⟨stage, tasks'.trans tasks, active, free, ?_, fed, ended, left⟩⟩
      rw [acceptedPackets_accept, accepted, said_append]

/-- All of the input was sent: a task begins to close the connection. -/
theorem Reads.leave (h : Reads version input client w c lines [] ahead) (lone : w.IsLone c)
    (speaks : c.Speaks inTime) (writable : ∀ line ∈ lines, Frame.Writable (.text line)) :
    Transmits inTime version lines input (client.leave w).1 (client.leave w).2 c := by
  rw [LineClient.leave, h.stage]
  refine ⟨⟨lone.reached.perform (.errands [.close 0, .join 0]), lone.conns, lone.wires⟩, speaks,
    writable, .leaving (by rw [h.tasks]; rfl) (congrArg (· ++ _) h.tasks) ?_ h.accepted⟩
  exact .closes ⟨h.active, h.free⟩ fun deadline wake none => by cases none

theorem Transmits.step (h : Transmits inTime version lines input client w c)
    {after : LineClient × World} (step : client.step w = some after) :
    ∃ d, Transmits inTime version lines input after.1 after.2 d := by
  obtain ⟨lone, speaks, writable, progress⟩ := h
  obtain ⟨reading, stretch⟩ := stretch_step step
  cases progress with
  | leaving stage => cases reading.symm.trans stage
  | @reading done todo ahead split reads =>
      cases stretch with
      | line found =>
          exact reads.sendLine lone speaks writable split
            (Line.all_of_takeFirst (Line.takeFirst_append found _))
      | chunk arrived =>
          obtain ⟨stage, tasks, active, free, accepted, fed, ended, left⟩ := reads
          refine ⟨c, lone, speaks, writable,
            .reading split ⟨stage, tasks, active, free, accepted, fed, ended, ?_⟩⟩
          rw [arrived, List.flatten_cons] at left
          simpa only [List.append_assoc] using left
      | fails broken => cases (reads.ended _ broken).1
      | last none arrived atEnd some =>
          obtain ⟨-, rfl⟩ := reads.ended _ atEnd
          have taken : Line.all (client.held ++ (client.input.chunks.flatten ++ [])) =
              client.held :: Line.all ([] ++ (client.input.chunks.flatten ++ [])) := by
            rw [arrived, List.flatten_nil, List.append_nil, List.append_nil, List.append_nil,
              Line.all_of_none none, if_neg (by simpa using some), Line.all_nil]
          exact reads.sendLine lone speaks writable split taken
      | leaves arrived atEnd empty =>
          obtain ⟨-, rfl⟩ := reads.ended _ atEnd
          have left := reads.left
          rw [arrived, empty, List.flatten_nil, List.append_nil, List.append_nil,
            Line.all_nil] at left
          obtain rfl : todo = [] := List.map_eq_nil_iff.mp left.symm
          rw [List.append_nil] at split
          subst split
          exact ⟨c, reads.leave lone speaks writable⟩

/-! ### All that can happen -/

theorem Transmits.run (h : Transmits inTime version lines input client w c) {actor : Actor}
    (early : inTime → (Turn.run actor).IsInTime w) :
    ∃ d, Transmits inTime version lines input client (w.perform (.run actor)) d := by
  obtain ⟨lone, speaks, writable, progress⟩ := h
  by_cases task : ∃ t, actor = .task t
  · obtain ⟨t, rfl⟩ := task
    cases progress with
    | reading split reads =>
        have none : w.step (.task t) = none := by
          rw [World.step, reads.tasks]
          rfl
        rw [World.perform_run_of_none none]
        exact ⟨c, lone, speaks, writable, .reading split reads⟩
    | leaving stage tasks seesOff accepted =>
        obtain ⟨d, task, speaks, same, seesOff, lone, -, tasks⟩ :=
          lone.leaves speaks tasks seesOff early
        exact ⟨d, lone, speaks, writable, .leaving stage tasks seesOff (same.trans accepted)⟩
  · obtain ⟨d, spins, lone, -, tasks⟩ :=
      lone.exists_spins speaks fun t same => task ⟨t, same⟩
    have accepted : d.acceptedPackets = c.acceptedPackets := congrArg Account.accepted spins.account
    have state : d.state = c.state := congrArg Account.state spins.account
    refine ⟨d, lone, spins.speaks, writable, ?_⟩
    cases progress with
    | reading split reads =>
        exact .reading split { reads with
          tasks := tasks.trans reads.tasks
          active := by simpa only [isActive, state] using reads.active
          free := spins.unjoined ▸ reads.free
          accepted := accepted.trans reads.accepted }
    | leaving stage place seesOff said =>
        exact .leaving stage (tasks.trans place) (seesOff.spins spins) (accepted.trans said)

theorem Transmits.type (h : Transmits inTime version lines input client w c)
    (due : (Turn.type bytes).IsDue input client) :
    Transmits inTime version lines input { client with input := client.input.feed bytes } w c := by
  obtain ⟨lone, speaks, writable, progress⟩ := h
  refine ⟨lone, speaks, writable, ?_⟩
  cases progress with
  | leaving stage tasks seesOff accepted => exact .leaving stage tasks seesOff accepted
  | reading split reads =>
      obtain ⟨goesOn, later, rfl⟩ := due
      obtain ⟨stage, tasks, active, free, accepted, fed, ended, left⟩ := reads
      rw [List.append_assoc, List.append_cancel_left_eq] at fed
      refine .reading split ⟨stage, tasks, active, free, accepted, rfl, ?_, ?_⟩
      · intro ending atEnd
        rw [show client.input.ending = some ending from atEnd] at goesOn
        cases goesOn
      · simpa [Source.feed, fed] using left

theorem Transmits.endInput (h : Transmits inTime version lines input client w c)
    (due : Turn.endInput.IsDue input client) :
    Transmits inTime version lines input { client with input := client.input.finish .endOfStream }
      w c := by
  obtain ⟨lone, speaks, writable, progress⟩ := h
  refine ⟨lone, speaks, writable, ?_⟩
  cases progress with
  | leaving stage tasks seesOff accepted => exact .leaving stage tasks seesOff accepted
  | @reading done todo ahead split reads =>
      have none : ahead = [] := by
        have fed := reads.fed
        rwa [show client.input.fed = input from due, List.append_right_eq_self] at fed
      refine .reading split { reads with ended := fun ending atEnd => ⟨?_, none⟩ }
      cases before : client.input.ending with
      | none =>
          simp only [Source.finish, before, Option.none_or, Option.mem_def] at atEnd
          exact (Option.some.inj atEnd).symm
      | some how =>
          simp only [Source.finish, before, Option.some_or, Option.mem_def] at atEnd
          exact (reads.ended ending (before.trans atEnd)).1

theorem Transmits.pass (h : Transmits inTime version lines input client w c) (span : Nat) :
    Transmits inTime version lines input client (w.perform (.pass span)) c := by
  obtain ⟨lone, speaks, writable, progress⟩ := h
  refine ⟨⟨lone.reached.perform (.pass span), lone.conns, lone.wires⟩, speaks, writable, ?_⟩
  cases progress with
  | reading split reads => exact .reading split { reads with }
  | leaving stage tasks seesOff accepted => exact .leaving stage tasks seesOff accepted

theorem Transmits.server (h : Transmits inTime version lines input client w c)
    (room : Option Nat) (flushStalls shutdownStalls : Bool) :
    ∃ d, Transmits inTime version lines input client
      (w.perform (.transit 0 (.weather room none none flushStalls shutdownStalls))) d := by
  obtain ⟨lone, speaks, writable, progress⟩ := h
  obtain ⟨lone', -, tasks⟩ := lone.weather room flushStalls shutdownStalls
  refine ⟨_, lone', speaks.weather room flushStalls shutdownStalls, writable, ?_⟩
  cases progress with
  | reading split reads => exact .reading split { reads with tasks := tasks.trans reads.tasks }
  | leaving stage place seesOff accepted =>
      exact .leaving stage (tasks.trans place)
        (seesOff.of_eq rfl rfl rfl fun _ finished => finished) accepted

/-- Whatever happens. -/
theorem Transmits.act (h : Transmits inTime version lines input client w c) {turn : Turn}
    (due : turn.IsDue input client) (early : inTime → turn.IsInTime w) :
    ∃ d, Transmits inTime version lines input (turn.act client w).1 (turn.act client w).2 d := by
  cases turn with
  | type bytes => exact ⟨c, h.type due⟩
  | endInput => exact ⟨c, h.endInput due⟩
  | run actor => exact h.run early
  | pass span => exact ⟨c, h.pass span⟩
  | server room flushStalls shutdownStalls => exact h.server room flushStalls shutdownStalls
  | client =>
      rw [Turn.act]
      cases step : client.step w with
      | none => exact ⟨c, h⟩
      | some after => exact h.step step

theorem reachable_start (name : String) (config : ConnectionConfig) :
    (start name config).2.Reachable :=
  (World.Reachable.empty 0 []).performAll
    [.start ⟨name, config, some .silent, .inline, [.ofType .text]⟩, .call 0 (.handshake .request)]

/-- A client has connected and asks for the version of the server. -/
theorem transmits_start {config : ConnectionConfig} (quiet : config.autoKeepAlive = false)
    (writable : ∀ line ∈ Line.texts text, Frame.Writable (.text line)) (name : String) :
    ∃ c, Transmits inTime config.protocolVersion (Line.texts text) (Utf8.encode text)
      (start name config).1 (start name config).2 c := by
  have speaks : (Connection.start (setup name config) 0).Speaks inTime :=
    speaks_start quiet Listener.mild_silent 0
  have lone : World.IsLone ((World.empty 0).start (setup name config))
      (Connection.start (setup name config) 0) :=
    ⟨(World.Reachable.empty 0 []).perform
      (.start ⟨name, config, some .silent, .inline, [.ofType .text]⟩), rfl, rfl⟩
  obtain ⟨⟨⟨sink, fits⟩, keeps, running⟩, mild, unasked, source, readAhead, closer, complete⟩ :=
    speaks.accept lone.valid.orderly rfl
      (Frame.writable_handshake .request config.protocolVersion)
  obtain ⟨conns, wires, -, tasks⟩ := lone.put (d := tryTo
    ((Connection.start (setup name config) 0).sendHandshake .request) _) unasked
  refine ⟨_, ⟨reachable_start name config, conns, wires⟩,
    ⟨⟨⟨sink, fits⟩, keeps, running⟩, mild, unasked, source, readAhead, closer, complete⟩, writable,
    .reading (List.nil_append _).symm ⟨rfl, tasks, rfl, List.cons_ne_nil _ _, rfl,
      List.nil_append (Utf8.encode text), ?_, Line.map_text_all text⟩⟩
  intro ending none
  cases none

/-! ### What the server receives -/

theorem Transmits.received_eq (h : Transmits inTime version lines input client w c) :
    w.received 0 = c.sink.taken ∧ w.isReleased 0 = c.sink.released.isSome := by
  rw [World.received, World.isReleased, h.lone.here]
  exact ⟨rfl, rfl⟩

/-- What has been sent is the beginning of all that there is to be sent. -/
theorem Transmits.enqueued_prefix (h : Transmits inTime version lines input client w c) :
    c.enqueuedPackets <+: transcript version lines := by
  rw [h.lone.valid.orderly.enqueued]
  cases h.progress with
  | reading split reads =>
      rw [reads.active, if_pos rfl, List.append_nil, reads.accepted, split]
      exact said_prefix_transcript ..
  | leaving _ _ _ accepted =>
      rw [accepted]
      split
      · rw [List.append_nil]
        exact List.prefix_append ..
      · exact List.prefix_rfl

/-- Once the loops are told to end all has been sent, and has been taken by the sink. -/
theorem Transmits.taken_of_cancelled (h : Transmits inTime version lines input client w c)
    (early : inTime) (cancelled : c.cancelled = true) :
    c.sink.taken = Frame.stream (transcript version lines) := by
  have inactive := h.lone.valid.orderly.inactive_of_cancelled cancelled
  rw [h.speaks.complete early cancelled, h.lone.valid.orderly.enqueued, inactive]
  cases h.progress with
  | reading _ reads => cases inactive.symm.trans reads.active
  | leaving _ _ _ accepted =>
      rw [accepted]
      rfl

/-- What the server has received. -/
theorem Transmits.received_prefix (h : Transmits inTime version lines input client w c) :
    w.received 0 <+: Frame.stream (transcript version lines) := by
  obtain ⟨later, all⟩ := h.enqueued_prefix
  rw [h.received_eq.1, ← all]
  exact ((List.prefix_append _ _).trans h.lone.valid.inOrder.keepsOrder).trans
    (Frame.stream_prefix_append _ _)

/-- At the end of the stream the server has received everything. -/
theorem Transmits.received_of_released (h : Transmits inTime version lines input client w c)
    (early : inTime) (released : w.isReleased 0 = true) :
    w.received 0 = Frame.stream (transcript version lines) := by
  rw [h.received_eq.1]
  -- the sink is released only after the loops were told to end
  refine h.taken_of_cancelled early ?_
  cases goesOn : c.cancelled with
  | true => rfl
  | false =>
      rw [h.received_eq.2, (h.speaks.unhindered.running goesOn).2] at released
      cases released

/-- A client that has come to its end has not failed, and both loops have finished. -/
theorem Transmits.of_result (h : Transmits inTime version lines input client w c)
    {result : Except PeerError Unit} (returned : client.result? w = some result) :
    result = .ok () ∧ w.tasks = [.ended (.reached (some .closed))] ∧
      ∀ loop, c.hasFinished loop = true := by
  cases h.progress with
  | reading split reads =>
      rw [result?, reads.stage] at returned
      cases returned
  | leaving stage tasks seesOff accepted =>
      rw [result?, stage] at returned
      obtain ⟨outcome, ended, rfl⟩ := Option.map_eq_some_iff.mp returned
      rw [tasks] at ended
      cases seesOff with
      | closes | joins => cases ended
      | done finished => exact ⟨rfl, tasks, finished⟩

theorem Transmits.isReleased_of_result (h : Transmits inTime version lines input client w c)
    {result : Except PeerError Unit} (returned : client.result? w = some result) :
    w.isReleased 0 = true := by
  obtain ⟨-, -, finished⟩ := h.of_result returned
  rw [h.received_eq.2, Option.isSome_iff_ne_none]
  exact h.lone.valid.tallied.released (eq_finished_of_outbound (finished .outbound))

/-- A client that has returned is not late any more. -/
theorem Transmits.not_isLate_of_result (h : Transmits inTime version lines input client w c)
    {result : Except PeerError Unit} (returned : client.result? w = some result) : ¬ w.IsLate := by
  rintro ⟨task, member, deadline, gives, -⟩
  rw [(h.of_result returned).2.1, List.mem_singleton] at member
  rw [member] at gives
  cases gives

end LineClient

end PacketWire
