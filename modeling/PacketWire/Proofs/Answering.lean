import PacketWire.Proofs.Attendance
import PacketWire.Proofs.Leaving
import PacketWire.Proofs.Reception

/-!
# An echo server answers what it was sent in time

Among whatever else goes on in a world, one client dictates lines of text to an echo server. With
inline delivery every line comes back, and behind them the close message. With deferred delivery
the end of the stream can overtake lines that are still on the work queue: these are handed on all
the same, but an answer to them is refused. What was handed on before comes back.

A close waits five seconds for what is to be written, and what is not written then is dropped. So
what has come back at the end of the stream is all of it only in a course that is `InTime`.
-/

namespace PacketWire

namespace EchoServer

/-- How a server opens a connection with a peer of this name. -/
def opening (name : String) (s : EchoServer) : Session.Opening :=
  ⟨name, s.config, some echo, s.delivery, [.ofType .text]⟩

/-- The call that shows a line to the listener. -/
def shows (line : String) : HookCall :=
  .packet (.text line)

/-- The calls of a listener that was shown these lines before the closing, and those behind it. -/
def calls (active : Bool) (answered late : List String) : List HookCall :=
  answered.map shows ++
    if active then [] else .closed Connection.endOfStream true :: late.map shows

/-- The frames of these lines, each of which has one if it fits, and of the close message behind
them. -/
def reply (lines : List String) : Bytes :=
  Frame.stream (lines.map .text ++ [.farewell])

end EchoServer

theorem Event.line_injective : Function.Injective Event.line := by
  intro line other same
  have texts : Packet.text line = Packet.text other := Event.packet.inj same
  simpa using congrArg Packet.text? texts

namespace Connection

open PacketWire.Frame EchoServer

variable {inTime : Prop} {lines done answered late : List String} {c : Connection} {now : Nat}

theorem filterMap_lineSights (lines : List String) :
    (lines.flatMap lineSights).filterMap Sight.call? = lines.map shows ∧
      (lines.flatMap lineSights).filterMap Sight.event? = lines.map .line := by
  simp only [List.filterMap_flatMap, List.map_eq_flatMap]
  exact ⟨rfl, rfl⟩

theorem dispatchedEvents_eq (c : Connection) :
    c.dispatchedEvents = c.sights.filterMap Sight.event? := by
  simp only [dispatchedEvents, sights, recount, List.filterMap_filterMap]
  congr 1
  funext entry
  cases entry <;> rfl

theorem Replies.hooks_eq (h : Replies done answered late c) :
    c.hooks = calls c.isActive answered late := by
  rw [Connection.hooks_eq, h.sights, List.filterMap_append, (filterMap_lineSights answered).1,
    calls]
  split
  · rfl
  · refine congrArg (answered.map shows ++ ·) ?_
    exact congrArg (.closed endOfStream true :: ·) (filterMap_lineSights late).1

theorem Replies.dispatchedEvents_eq (h : Replies done answered late c) :
    c.dispatchedEvents = (answered ++ late).map .line := by
  rw [Connection.dispatchedEvents_eq, h.sights, List.filterMap_append,
    (filterMap_lineSights answered).2, List.map_append]
  split
  · rename_i active
    rw [h.inTime active]
    rfl
  · exact congrArg (answered.map .line ++ ·) (filterMap_lineSights late).2

/-- The sink takes the answers in order, then the close message. -/
theorem Replies.taken_prefix (h : Replies done answered late c) {closers : List CloseWait}
    (valid : c.Valid closers) : c.sink.taken <+: reply answered := by
  have sent := valid.orderly.enqueued
  have order : c.sink.taken <+: stream c.enqueuedPackets :=
    (List.prefix_append _ _).trans valid.inOrder.keepsOrder
  rw [h.accepted] at sent
  split at sent
  · rw [sent, List.append_nil] at order
    exact order.trans (stream_prefix_append _ _)
  · rw [sent] at order
    exact order

/-- A sink is let go of only when the connection is not active. -/
theorem Echoes.isActive_of_released (h : Echoes inTime lines now c) {closers : List CloseWait}
    (valid : c.Valid closers) (released : c.sink.released ≠ none) :
    c.cancelled = true ∧ c.isActive = false := by
  have cancelled : c.cancelled = true := by
    rw [← Bool.not_eq_false]
    exact fun running => released (h.isEcho.unhindered.running running).2
  exact ⟨cancelled, valid.orderly.inactive_of_cancelled cancelled⟩

/-- A sink that was let go of in time has taken all of it. -/
theorem Echoes.taken_eq (h : Echoes inTime lines now c) (early : inTime) {closers : List CloseWait}
    (valid : c.Valid closers) (replies : Replies done answered late c)
    (released : c.sink.released ≠ none) : c.sink.taken = reply answered := by
  obtain ⟨cancelled, inactive⟩ := h.isActive_of_released valid released
  rw [h.complete early cancelled, valid.orderly.enqueued, replies.accepted, inactive]
  rfl

/-- What became of the lines. With inline delivery those that were read were answered; with deferred
delivery, where what was handed on and what is queued are all that was deferred, they were answered,
or handed on too late, or are queued, or were not read yet. -/
theorem Echoes.exists_shares (h : Echoes inTime lines now c) :
    ∃ done answered late, Replies done answered late c ∧
      (c.delivery = .inline → late = [] ∧ answered <+: lines ∧
        (c.isActive = false → answered = lines)) ∧
      (c.delivery ≠ .inline → ∀ queued, c.deferredEvents = c.dispatchedEvents ++ queued →
        ∃ pending, lines = answered ++ late ++ pending ∧
          (c.isActive = false → queued = pending.map .line)) := by
  obtain ⟨done, answered, late, follows, told⟩ := h.progress
  refine ⟨done, answered, late, told, fun inline => ?_, fun own queued handed => ?_⟩
  · obtain ⟨rfl, none, -⟩ := told.inline inline
    exact ⟨none, follows.front, follows.read⟩
  · obtain ⟨ahead, split⟩ := follows.front
    rw [told.deferred own, told.dispatchedEvents_eq] at handed
    obtain ⟨front, rest, rfl, same, left⟩ := List.map_eq_append_iff.mp handed
    obtain rfl : front = answered ++ late := Event.line_injective.list_map same
    refine ⟨rest ++ ahead, by rw [← split, List.append_assoc], fun inactive => ?_⟩
    have all := follows.read inactive
    rw [all, List.append_right_eq_self] at split
    rw [split, List.append_nil, left]

theorem echoes_start (inTime : Prop) {s : EchoServer} (quiet : s.config.autoKeepAlive = false)
    (fits : ∀ line ∈ lines, Fits s.config.maxFrameLength line) (name : String) (now : Nat) :
    Echoes inTime lines now (start (s.setup name) now) where
  isEcho := ⟨unhindered_start quiet now, rfl, rfl, fits⟩
  departs := rfl
  complete := by
    intro _ cancelled
    cases cancelled
  progress := by
    refine ⟨[], [], [], ⟨List.nil_prefix, rfl, List.nil_prefix, ?_, ?_⟩,
      ⟨rfl, rfl, fun _ => rfl, fun _ => ⟨rfl, rfl, rfl⟩, fun _ => rfl⟩⟩
    · intro ending ended
      cases ended
    · intro inactive
      cases inactive

end Connection

/-- It gives up no task, and leaves it to claimants to take events out of work queues. -/
def Happening.KeepsTurns : Happening → Prop
  | .abort _ | .collect _ => False
  | _ => True

instance : (happening : Happening) → Decidable happening.KeepsTurns
  | .abort _ | .collect _ => inferInstanceAs (Decidable False)
  | .run _ | .pass _ | .start _ | .errands _ | .process .. | .announce _ | .call .. | .transit ..
  | .carry .. => inferInstanceAs (Decidable True)

namespace World

open Connection EchoServer

variable {inTime : Prop} {lines : List String} {w : World} {i n : Nat} {c : Connection}
  {happening : Happening} {course : Nat → Happening}

/-- At no time of a course has a close of a connection run out of its time while anything is still
to be written. -/
def InTime (w : World) (i : Nat) (course : Nat → Happening) : Prop :=
  ∀ n, ∀ c ∈ (w.after course n).conns[i]?, c.KeepsTime (w.after course n).now

theorem isReleased_iff (here : w.conns[i]? = some c) :
    w.isReleased i = true ↔ c.sink.released ≠ none := by
  rw [isReleased, here, Option.map_some, Option.getD_some, Option.isSome_iff_ne_none]

/-- Nothing but a close that is waiting for it can hurt a connection that is not there yet. -/
theorem respects_of_absent {admits : Nat → Connection → Intervention → Prop} (valid : w.Valid)
    {happenings : List Happening} (gone : (w.performAll happenings).conns[i]? = none)
    (spared : ∀ todo, .errands todo ∈ happenings → .close i ∉ todo) :
    Respects admits i w happenings := by
  induction happenings generalizing w with
  | nil => trivial
  | cons happening happenings ih =>
      have next := (valid.perform happening).1
      have none : w.conns[i]? = none := (valid.performAll (happening :: happenings)).2.absent gone
      refine ⟨?_, ih next gone fun todo member => spared todo (List.mem_cons_of_mem _ member)⟩
      cases happening with
      | errands todo => exact spared todo List.mem_cons_self
      | call | transit | carry => simp [Happening.Respects, none]
      | pass => simp [Happening.Respects, none]
      | _ => trivial

theorem dictates_of_respects (respects : happening.Respects (Intervention.IsDictation lines) i w)
    (now : inTime → ∀ c ∈ w.conns[i]?, c.KeepsTime w.now)
    (next : inTime → ∀ c ∈ (w.perform happening).conns[i]?,
      c.KeepsTime (w.perform happening).now) :
    happening.Respects (Dictates inTime lines) i w := by
  cases happening with
  | call | transit | carry =>
      exact fun same c here => ⟨respects same c here, fun early => now early c here⟩
  | pass => exact fun c here => ⟨respects c here, fun early => next early c here⟩
  | _ => exact respects

/-- A world in which an echo server opens a connection with the number that comes next, behind
happenings that leave no task that would close it. -/
structure Opens (s : EchoServer) (name : String) (queues : Nat) (wires : List (Nat × Nat))
    (before : List Happening) (i : Nat) (w : World) : Prop where
  run : performAll (before ++ [.start (s.opening name)]) { empty queues with wires } = w
  place : (performAll before { empty queues with wires }).conns.length = i
  spared : ∀ todo, .errands todo ∈ before → .close i ∉ todo
  dry : ∀ wire ∈ wires, wire.2 ≠ i

variable {s : EchoServer} {name : String} {queues : Nat} {wires : List (Nat × Nat)}
  {before : List Happening}

theorem Opens.eq_perform (opens : Opens s name queues wires before i w) :
    (performAll before { empty queues with wires }).perform (.start (s.opening name)) = w := by
  rw [← opens.run, performAll, performAll, List.foldl_append]
  rfl

theorem Opens.here (opens : Opens s name queues wires before i w) : ∃ since,
    w.conns[i]? = some (Connection.start (s.setup name) since) := by
  have given : Session.setup (s.opening name) = .ok (s.setup name) := setup_eq_ok name s
  rw [← opens.eq_perform, ← opens.place, World.perform, given]
  exact ⟨_, conns_start .. ▸ List.getElem?_concat_length⟩

theorem Opens.run_after (opens : Opens s name queues wires before i w) (course : Nat → Happening)
    (n : Nat) : performAll (before ++ .start (s.opening name) :: (List.range n).map course)
      { empty queues with wires } = w.after course n := by
  rw [after_eq_performAll, ← opens.eq_perform, performAll, performAll, performAll,
    List.foldl_append, List.foldl_cons]

theorem Opens.keeps (opens : Opens s name queues wires before i w)
    (quiet : s.config.autoKeepAlive = false)
    (fits : ∀ line ∈ lines, Frame.Fits s.config.maxFrameLength line)
    (dictates : ∀ n, (course n).Respects (Dictates inTime lines) i (w.after course n)) (n : Nat) :
    Keeps (Echoes inTime lines) i (w.after course n) ∧ ∃ since c,
      (w.after course n).conns[i]? = some c ∧
        (Connection.start (s.setup name) since).Later c := by
  have valid := (Reachable.empty queues wires).valid
  have gone : (performAll before { empty queues with wires }).conns[i]? = none :=
    List.getElem?_eq_none opens.place.le
  refine keeps_run (lasting_echoes lines _) (setup_eq_ok name s)
    (echoes_start inTime quiet fits name) (opens.run_after course n) opens.place opens.dry ?_
    List.prefix_rfl
  refine respects_append.mpr ⟨respects_of_absent valid gone opens.spared, trivial, ?_⟩
  exact opens.eq_perform ▸ respects_map_range dictates n

theorem Opens.isDictated (opens : Opens s name queues wires before i w)
    (quiet : s.config.autoKeepAlive = false)
    (fits : ∀ line ∈ lines, Frame.Fits s.config.maxFrameLength line)
    (dictates : ∀ n, (course n).Respects (Dictates inTime lines) i (w.after course n)) :
    IsDictated inTime lines i w course where
  reached := opens.run ▸ (Reachable.empty queues wires).performAll _
  active := opens.here.elim fun _ here => ⟨_, here, rfl⟩
  keeps := fun n => (opens.keeps quiet fits dictates n).1
  dictates := dictates

/-- Where claimants hand on everything, what was not handed on to the connection is queued. -/
theorem Opens.exists_queued (opens : Opens s name queues wires before i w) {k : Nat}
    (bound : k < queues) (early : ∀ happening ∈ before, happening.KeepsTurns)
    (turns : ∀ n, (course n).KeepsTurns) (here : (w.after course n).conns[i]? = some c)
    (uses : c.delivery = .deferred k) (tasks : ∀ task ∈ (w.after course n).tasks, task.Respects i) :
    ∃ q, (w.after course n).queues[k]? = some q ∧
      c.deferredEvents = c.dispatchedEvents ++ WorkUnit.eventsOf i q.units := by
  have all : ∀ happening ∈ before ++ .start (s.opening name) :: (List.range n).map course,
      happening.KeepsTurns := by
    intro happening member
    rcases List.mem_append.mp member with old | new
    · exact early happening old
    · rcases List.mem_cons.mp new with rfl | new
      · trivial
      · obtain ⟨m, -, rfl⟩ := List.mem_map.mp new
        exact turns m
  have run := opens.run_after course n
  have there : k < (w.after course n).queues.length := by
    rw [← run, length_queues_performAll (Reachable.empty queues wires).valid fun t => all _]
    exact List.length_replicate ▸ bound
  have queue := List.getElem?_eq_getElem there
  exact ⟨_, queue, (shownCalls_of_respects run (fun t => all _) (fun j => all _) here queue uses
    tasks).1⟩

end World

open Connection EchoServer World

/-- An echo server answers what it was sent. In a course with whatever other connections and tasks,
one of its connections was opened; keep-alives are off, its transport takes all that is written, and
nobody calls or closes it. Its client dictates lines that fit into frames, cut in any way, and may
end the stream behind them.

Then the listener is shown the lines in their order, some before the closing and some behind it, and
what the client receives are the frames of the former and the default close message. It has received
all of that when the sink is let go of, unless the close ran out of its time; and if everybody runs
again and again, the time goes on and the stream has ended, the sink is let go of. With inline
delivery the lines shown before the closing are all lines. With deferred delivery, where claimants
hand on everything, they are those that were handed on before the closing; when the connection is
not active any more, the others were handed on too late or are still queued. -/
theorem lines_echoed {s : EchoServer} {name : String} {lines : List String} {queues : Nat}
    {wires : List (Nat × Nat)} {before : List Happening} {w : World} {i : Nat}
    {course : Nat → Happening} (quiet : s.config.autoKeepAlive = false)
    (fits : ∀ line ∈ lines, Frame.Fits s.config.maxFrameLength line)
    (opens : Opens s name queues wires before i w)
    (dictates : ∀ n, (course n).Respects (Intervention.IsDictation lines) i (w.after course n)) :
    (∀ n, ∃ c answered late, (w.after course n).conns[i]? = some c ∧
      c.hooks = calls c.isActive answered late ∧ (c.isActive = true → late = []) ∧
      (w.after course n).received i <+: reply answered ∧
      ((w.after course n).isReleased i = true → c.isActive = false ∧
        (w.InTime i course → (w.after course n).received i = reply answered)) ∧
      (s.delivery = .inline → late = [] ∧ answered <+: lines ∧
        (c.isActive = false → answered = lines)) ∧
      ∀ k, s.delivery = .deferred k → k < queues → (∀ happening ∈ before, happening.KeepsTurns) →
        (∀ m, (course m).KeepsTurns) → ∃ q pending, (w.after course n).queues[k]? = some q ∧
          lines = answered ++ late ++ pending ∧
          (c.isActive = false → WorkUnit.eventsOf i q.units = pending.map .line)) ∧
    (w.Fair course → ∀ n, course n = .transit i (.finish .endOfStream) → ∃ m, ∀ k, m ≤ k →
      (w.after course k).isReleased i = true) := by
  have dictates (n : Nat) :
      (course n).Respects (Dictates (w.InTime i course) lines) i (w.after course n) :=
    dictates_of_respects (dictates n) (fun early => early n) fun early => early (n + 1)
  have dictated := opens.isDictated quiet fits dictates
  constructor
  · intro n
    obtain ⟨keeps, since, c, here, later⟩ := opens.keeps quiet fits dictates n
    have valid := (dictated.reached.after course n).valid.conns i c here
    have echoes := keeps.conn c here
    have delivery : c.delivery = s.delivery := later.settings.2.2
    have received : (w.after course n).received i = c.sink.taken := by
      rw [World.received, here, Option.map_some, Option.getD_some]
    obtain ⟨done, answered, late, replies, inline, deferred⟩ := echoes.exists_shares
    rw [delivery] at inline deferred
    refine ⟨c, answered, late, here, replies.hooks_eq, replies.inTime, ?_, fun released => ?_,
      inline, fun k uses bound early turns => ?_⟩
    · exact received ▸ replies.taken_prefix valid
    · rw [isReleased_iff here] at released
      refine ⟨(echoes.isActive_of_released valid released).2, fun early => ?_⟩
      exact received ▸ echoes.taken_eq early valid replies released
    · obtain ⟨q, queue, handed⟩ :=
        opens.exists_queued bound early turns here (delivery.trans uses) keeps.tasks
      obtain ⟨pending, split, queued⟩ := deferred (by simp [uses]) _ handed
      exact ⟨q, pending, queue, split, queued⟩
  · intro fair n ends
    obtain ⟨-, -, c, here, -⟩ := opens.keeps quiet fits dictates n
    have ended : ∃ d, (w.after course (n + 1)).conns[i]? = some d ∧ d.source.ending ≠ none := by
      rw [World.after, ends]
      refine ⟨(Transit.finish .endOfStream).act c, ?_, ?_⟩
      · rw [World.perform, World.modifyConn, List.getElem?_modify_eq, here]
        rfl
      · simp [Transit.act, Source.finish]
    obtain ⟨m, -, past⟩ := dictated.leadsTo_hasEnded fair (n + 1) ended
    refine ⟨m, fun k later => ?_⟩
    obtain ⟨d, -, there, -, -, left⟩ :=
      hasEnded_of_le dictated.reached dictated.seesThrough later past
    exact (isReleased_iff there).mpr left.released

namespace World

variable {lines : List String} {w : World} {i : Nat} {c : Connection}

theorem after_followed_add (happenings : List Happening) (w : World) (n : Nat) :
    w.after (followed happenings rota) (happenings.length + n) =
      (w.performAll happenings).after rota n := by
  induction n with
  | zero =>
      rw [Nat.add_zero, after_eq_performAll, map_followed]
      rfl
  | succ n ih =>
      rw [← Nat.add_assoc, World.after, ih, followed_add]
      rfl

theorem fair_followed (happenings : List Happening) (reached : w.Reachable) :
    w.Fair (followed happenings rota) where
  again := by
    intro actor n
    obtain ⟨m, later, runs⟩ := (fair_rota reached).again actor n
    exact ⟨happenings.length + m, by omega, by rw [followed_add, runs]⟩
  goesOn := by
    intro time
    obtain ⟨n, late⟩ := (fair_rota (reached.performAll happenings)).goesOn time
    exact ⟨happenings.length + n, by rwa [after_followed_add]⟩

/-- Behind the happenings nothing is dictated any more. -/
theorem respects_followed {happenings : List Happening}
    (early : ∀ n < happenings.length, (followed happenings rota n).Respects
      (Intervention.IsDictation lines) i (w.after (followed happenings rota) n)) (n : Nat) :
    (followed happenings rota n).Respects (Intervention.IsDictation lines) i
      (w.after (followed happenings rota) n) := by
  refine followed_cases (P := fun n (happening : Happening) => happening.Respects
    (Intervention.IsDictation lines) i (w.after (followed happenings rota) n)) early (fun n => ?_) n
  rw [rota]
  split
  · trivial
  · trivial
  · trivial
  · exact fun _ _ => trivial

theorem keepsTurns_followed {happenings : List Happening}
    (turns : ∀ happening ∈ happenings, happening.KeepsTurns) (n : Nat) :
    (followed happenings rota n).KeepsTurns := by
  refine followed_cases (P := fun _ (happening : Happening) => happening.KeepsTurns)
    (fun n bound => ?_) (fun n => ?_) n
  · rw [followed, List.getElem?_eq_getElem bound]
    exact turns _ (List.getElem_mem bound)
  · rw [rota]
    split <;> trivial

/-- An inbound loop that has finished has no close whose time could run out. -/
theorem keepsTime_of_finished (finished : c.hasFinished .inbound = true) (now : Nat) :
    c.KeepsTime now := by
  intro deadline due
  rw [Connection.hasFinished] at finished
  split at finished
  · rename_i place
    rw [place] at due
    cases due
  · cases finished

theorem finished_after (course : Nat → Happening) (reached : w.Reachable)
    (here : w.conns[i]? = some c) (finished : c.hasFinished .inbound = true) (n : Nat) :
    ∃ d, (w.after course n).conns[i]? = some d ∧ d.hasFinished .inbound = true := by
  induction n with
  | zero => exact ⟨c, here, finished⟩
  | succ n ih =>
      obtain ⟨d, there, finished⟩ := ih
      have reached := reached.after course n
      obtain ⟨e, next, -⟩ := (reached.valid.perform (course n)).2 i d there
      exact ⟨e, next, (halting_perform reached there next).lasts .inbound finished⟩

theorem inTime_followed {happenings : List Happening} (reached : w.Reachable)
    (early : ∀ n < happenings.length, ∀ c ∈ (w.after (followed happenings rota) n).conns[i]?,
      c.KeepsTime (w.after (followed happenings rota) n).now)
    (finished : (w.performAll happenings).conns[i]?.map (·.hasFinished .inbound) = some true) :
    w.InTime i (followed happenings rota) := by
  intro n
  rcases Nat.lt_or_ge n happenings.length with before | behind
  · exact early n before
  · obtain ⟨m, rfl⟩ := Nat.exists_eq_add_of_le behind
    obtain ⟨c, here, finished⟩ := Option.map_eq_some_iff.mp finished
    obtain ⟨d, there, finished⟩ :=
      finished_after rota (reached.performAll happenings) here finished m
    rw [after_followed_add]
    intro e there'
    obtain rfl : d = e := Option.some.inj (there.symm.trans there')
    exact keepsTime_of_finished finished _

end World

/-- A server without keep-alives. -/
def reticent (deferred : Bool) : EchoServer :=
  (EchoServer.start { autoKeepAlive := false } deferred).1

/-- The same when it has a peer, and somebody looks after its work queue. -/
def opened (deferred : Bool) : World :=
  ((empty 1).perform (.process 0 true)).perform (.start ((reticent deferred).opening "peer"))

theorem opens_opened (deferred : Bool) :
    Opens (reticent deferred) "peer" 1 [] [.process 0 true] 0 (opened deferred) :=
  ⟨rfl, rfl, by simp, by simp⟩

/-- The frames of two lines, cut within the first, and the end behind them. -/
def prompt : List Happening :=
  [.transit 0 (.feed ((Frame.script ["hi", "you"]).take 9))] ++ Actor.times 2 (.inbound 0) ++
  [.transit 0 (.feed ((Frame.script ["hi", "you"]).drop 9)), .transit 0 (.finish .endOfStream)] ++
  Actor.times 4 (.inbound 0) ++ Actor.times 10 (.outbound 0) ++
  [.pass closePoll, .run (.inbound 0)] ++ Actor.times 2 (.outbound 0)

/-- The processor of a server hands on the first of two lines, and the end of the stream overtakes
the second. -/
def halfway : List Happening :=
  [.announce 0, .transit 0 (.feed ((Frame.script ["hi", "you"]).take 12))] ++
  Actor.times 3 (.inbound 0) ++ Actor.times 2 (.task 0) ++
  [.transit 0 (.feed ((Frame.script ["hi", "you"]).drop 12)), .transit 0 (.finish .endOfStream)] ++
  Actor.times 3 (.inbound 0) ++ [.run (.task 0)] ++ Actor.times 7 (.outbound 0) ++
  [.pass closePoll, .run (.inbound 0)] ++ Actor.times 2 (.outbound 0)

theorem lines_echoed_hiYou :
    (∃ m, ∀ k, m ≤ k →
      ((opened false).after (followed prompt rota) k).received 0 = reply ["hi", "you"]) ∧
    ∃ c, ((opened true).after (followed halfway rota) halfway.length).conns[0]? = some c ∧
      c.hooks = calls false ["hi"] ["you"] ∧
      ((opened true).after (followed halfway rota) halfway.length).received 0 = reply ["hi"] := by
  have fits (deferred : Bool) (line : String) (member : line ∈ ["hi", "you"]) :
      Frame.Fits (reticent deferred).config.maxFrameLength line := by
    rcases List.mem_pair.mp member with rfl | rfl <;>
    · cases deferred <;> exact ⟨_, rfl, by decide⟩
  have reached (deferred : Bool) : (opened deferred).Reachable :=
    (opens_opened deferred).run ▸ (Reachable.empty 1 []).performAll _
  constructor
  · have inTime : (opened false).InTime 0 (followed prompt rota) :=
      inTime_followed (reached false) (by decide +kernel) (by decide +kernel)
    have dictates (n : Nat) :
        (followed prompt rota n).Respects (Intervention.IsDictation ["hi", "you"]) 0
          ((opened false).after (followed prompt rota) n) :=
      respects_followed (by decide +kernel) n
    obtain ⟨told, ends⟩ := lines_echoed rfl (fits false) (opens_opened false) dictates
    obtain ⟨m, released⟩ := ends (fair_followed prompt (reached false)) 4 rfl
    refine ⟨m, fun k later => ?_⟩
    obtain ⟨c, answered, late, -, -, -, -, whole, inline, -⟩ := told k
    obtain ⟨inactive, all⟩ := whole (released k later)
    obtain ⟨-, -, read⟩ := inline rfl
    rw [all inTime, read inactive]
  · have inTime : (opened true).InTime 0 (followed halfway rota) :=
      inTime_followed (reached true) (by decide +kernel) (by decide +kernel)
    have dictates (n : Nat) :
        (followed halfway rota n).Respects (Intervention.IsDictation ["hi", "you"]) 0
          ((opened true).after (followed halfway rota) n) :=
      respects_followed (by decide +kernel) n
    have turns (n : Nat) : (followed halfway rota n).KeepsTurns :=
      keepsTurns_followed (by decide +kernel) n
    obtain ⟨told, -⟩ := lines_echoed rfl (fits true) (opens_opened true) dictates
    obtain ⟨c, answered, late, here, hooks, -, -, whole, -, deferred⟩ := told halfway.length
    obtain ⟨released, got, nothing⟩ :
        ((opened true).after (followed halfway rota) halfway.length).isReleased 0 = true ∧
        ((opened true).after (followed halfway rota) halfway.length).received 0 = reply ["hi"] ∧
        ((opened true).after (followed halfway rota) halfway.length).queues[0]?.map
          (·.units.length) = some 0 := by
      decide +kernel
    obtain ⟨inactive, all⟩ := whole released
    obtain ⟨q, pending, queue, split, queued⟩ := deferred 0 rfl (by decide) (by decide) turns
    rw [queue] at nothing
    have none : pending = [] := by
      have empty : q.units = [] := List.eq_nil_of_length_eq_zero (Option.some.inj nothing)
      rw [empty] at queued
      exact List.map_eq_nil_iff.mp (queued inactive).symm
    subst none
    refine ⟨c, here, ?_, got⟩
    rw [hooks, inactive]
    have same : reply answered = reply ["hi"] := (all inTime).symm.trans got
    have none : reply [] ≠ reply ["hi"] := by decide +kernel
    have both : reply ["hi", "you"] ≠ reply ["hi"] := by decide +kernel
    rcases answered with _ | ⟨first, _ | ⟨second, rest⟩⟩
    · exact absurd same none
    · simp at split
      obtain ⟨rfl, rfl⟩ := split
      rfl
    · simp at split
      obtain ⟨rfl, rfl, rfl, -⟩ := split
      exact absurd same both

/-- The end of the stream overtakes the only line that was sent, before the processor of a server
looks for it. -/
def outrun : World :=
  let (s, w) := EchoServer.start { autoKeepAlive := false } true
  let (_, w) := s.accept "peer" w
  w.performAll ([.transit 0 (.feed (Frame.script ["hi"])), .transit 0 (.finish .endOfStream)] ++
    Actor.times 4 (.inbound 0) ++ Actor.times 2 (.task 0) ++ Actor.times 6 (.outbound 0) ++
    [.pass closePoll, .run (.inbound 0)] ++ Actor.times 2 (.outbound 0))

/-- The outbound loop gets no turn for as long as the close waits. -/
def starved : World :=
  let (s, w) := EchoServer.start { autoKeepAlive := false } false
  let (_, w) := s.accept "peer" w
  w.performAll ([.transit 0 (.feed (Frame.script ["hi"])), .transit 0 (.finish .endOfStream)] ++
    Actor.times 4 (.inbound 0) ++ [.pass closeTimeout, .run (.inbound 0)] ++
    Actor.times 3 (.outbound 0))

/-- What was sent does not come back if it is handed on only after the closing, or if it cannot be
written before the closing is over. -/
theorem line_unechoed :
    (outrun.isReleased 0 = true ∧
      outrun.conns[0]?.map (·.dispatchedEvents.length) = some 1 ∧
      outrun.received 0 = reply [] ∧ outrun.received 0 ≠ reply ["hi"]) ∧
    starved.isReleased 0 = true ∧ starved.conns[0]?.map (·.acceptedPackets.length) = some 1 ∧
      starved.received 0 = [] ∧ starved.received 0 ≠ reply ["hi"] := by
  decide +kernel

end PacketWire
