import Mathlib.Data.List.Infix
import PacketWire.Peer.EchoServer
import PacketWire.Proofs.Arrivals
import PacketWire.Proofs.Dictation
import PacketWire.Proofs.Relaying
import PacketWire.Proofs.Respecting
import PacketWire.Proofs.Unhindered

/-!
# A connection of an echo server

A client dictates lines of text to an echo server. `Follows` says how far they were read, `Replies`
what became of those that were handed on: while the connection is active the listener's answer is
accepted, and once it has left `active` the answer is refused. `Echoes` holds at every time of such
a connection. With it stands that the close which the end of the stream starts tells the loops to
end only when all that was accepted, and the close message behind it, has reached the sink, if this
is `inTime`: if no close runs out of its time before.
-/

namespace PacketWire

namespace EchoServer

theorem mild_echo : Listener.Mild (some echo) := by
  intro n call asks
  simp only [Option.getD_some, echo] at asks
  split at asks
  · split at asks <;> simp at asks
  · cases asks

/-- What is done for the listeners for a line of text. -/
def lineSights (line : String) : List Sight :=
  [.handed (.line line), .called (.packet (.text line))]

end EchoServer

namespace Connection

open PacketWire.Frame Entry EchoServer

variable {inTime : Prop} {c d : Connection} {line : String}
  {lines done answered late : List String} {now : Nat}

/-! ### Calls of the listener -/

/-- The answer to a line is accepted while the connection is active. -/
theorem accepted_callHook_text (echoes : c.listener = some echo) (active : c.isActive = true)
    (line : String) : (c.callHook (.packet (.text line))).acceptedPackets =
      c.acceptedPackets ++ [.text line] := by
  have sent : c.callHook (.packet (.text line)) =
      { c.accept (.text line) with hookCalls := c.hookCalls + 1 }.log
        (.hook (.packet (.text line)) c.state [.ok ()]) := by
    rw [callHook, echoes]
    simp only [Option.getD_some, react_echo_text, reactAll, react, attempt, send_eq_ok active]
    rfl
  rw [sent]
  simp [acceptedPackets, accepted?, recount, accept, enqueue, log]

/-- `d` is `c` after the listener was shown a line, and these things were done. While the connection
is active the answer is accepted. -/
structure Answers (line : String) (seen : List Sight) (c d : Connection) : Prop where
  intake : d.intake = c.intake
  sights : d.sights = c.sights ++ seen
  deferred : d.deferredEvents = c.deferredEvents
  unhindered : d.Unhindered
  accepted : d.acceptedPackets = c.acceptedPackets ++ if c.isActive then [.text line] else []
  refused : c.isActive = false →
    d.queue = c.queue ∧ d.sink = c.sink ∧ d.enqueuedPackets = c.enqueuedPackets

theorem answers_callHook (h : c.Unhindered) (echoes : c.listener = some echo)
    (writable : Writable (.text line)) :
    Answers line [.called (.packet (.text line))] c (c.callHook (.packet (.text line))) := by
  obtain ⟨packets, accepted, enqueued, queue, quiet⟩ := sends_callHook (.packet (.text line)) c
  obtain ⟨_, sights⟩ := recount_callHook_of_isBlind isBlind_sight (.packet (.text line)) c
  obtain ⟨_, deferred⟩ :=
    recount_callHook_of_isBlind isAloof_deferred.isBlind (.packet (.text line)) c
  have machinery := machinery_callHook (.packet (.text line)) c
  have standing := standing_callHook (.packet (.text line)) c
  have own : packets = if c.isActive then [.text line] else [] := by
    split
    · rename_i active
      rw [accepted_callHook_text echoes active, List.append_cancel_left_eq] at accepted
      exact accepted.symm
    · rename_i inactive
      exact quiet (Bool.eq_false_iff.mpr inactive)
  generalize c.callHook (.packet (.text line)) = d at *
  have sink : d.sink = c.sink := congrArg Machinery.sink machinery
  refine ⟨?_, sights, deferred.trans (List.append_nil _), ⟨⟨sink ▸ h.sink, ?_⟩, ?_, ?_⟩,
    own ▸ accepted, ?_⟩
  · simp only [Connection.machinery, Machinery.mk.injEq, Connection.standing,
      Standing.mk.injEq] at machinery standing
    simp only [intake, machinery, standing]
  · intro packet member
    rw [queue, SendQueue.packets_pushAll, own] at member
    rcases List.mem_append.mp member with old | new
    · exact h.writable packet old
    · split at new
      · exact List.mem_singleton.mp new ▸ writable
      · cases new
  · exact (congrArg (·.config.autoKeepAlive) machinery).trans h.quiet
  · rw [sink, show d.cancelled = c.cancelled from congrArg Standing.cancelled standing,
      show d.outboundStopped = c.outboundStopped from congrArg Standing.outboundStopped standing]
    exact h.running
  · intro inactive
    obtain rfl := quiet inactive
    exact ⟨queue, sink, enqueued.trans (List.append_nil _)⟩

/-- A line is handed on without waiting. -/
theorem answers_dispatch (h : c.Unhindered) (echoes : c.listener = some echo)
    (writable : Writable (.text line)) (onLoop : Bool) (now : Nat) :
    ∃ d, c.dispatch onLoop now (.line line) = (d, none) ∧ Answers line (lineSights line) c d := by
  obtain ⟨intake, sights, deferred, unhindered, accepted, refused⟩ :=
    answers_callHook (c := c.log (.dispatched (.line line)))
      ⟨⟨h.sink, h.writable⟩, h.quiet, h.running⟩ echoes writable
  refine ⟨(c.log (.dispatched (.line line))).callHook (.packet (.text line)), rfl, intake, ?_, ?_,
    unhindered, ?_, ?_⟩
  · rw [sights, Connection.sights, recount_log]
    exact List.append_assoc _ _ _
  · rw [deferred, deferredEvents, recount_log]
    exact List.append_nil _
  · rw [accepted, acceptedPackets, recount_log]
    exact congrArg (· ++ _) (List.append_nil _)
  · intro inactive
    obtain ⟨queue, sink, enqueued⟩ := refused inactive
    refine ⟨queue, sink, ?_⟩
    rw [enqueued, enqueuedPackets, recount_log]
    exact List.append_nil _

/-! ### Reading -/

/-- These lines of the dictation were read, and what is not read yet is the beginning of the
others. -/
structure Follows (lines done : List String) (c : Connection) : Prop where
  front : done <+: lines
  fed : c.source.fed = script done ++ (c.readAhead ++ c.source.chunks.flatten)
  sent : c.source.fed <+: script lines
  ended : ∀ ending ∈ c.source.ending, ending = .endOfStream ∧ c.source.fed = script lines
  read : c.isActive = false → done = lines

theorem Follows.of_eq (h : Follows lines done c) (source : d.source = c.source)
    (readAhead : d.readAhead = c.readAhead) (active : d.isActive = c.isActive) :
    Follows lines done d := by
  constructor
  · exact h.front
  · rw [source, readAhead]
    exact h.fed
  · rw [source]
    exact h.sent
  · rw [source]
    exact h.ended
  · rw [active]
    exact h.read

/-- What is read next: nothing yet, and then never anything if all has arrived, or the next
line. -/
theorem Follows.next {limit : Nat} (h : Follows lines done c)
    (fits : ∀ line ∈ lines, Fits limit line) :
    (next limit c.readAhead = .incomplete ∧
        (c.source.chunks = [] → c.source.fed = script lines → done = lines)) ∨
      ∃ line body rest, done ++ [line] <+: lines ∧ Frame.body (.text line) = .ok body ∧
        next limit c.readAhead = .complete body rest ∧
        c.source.fed = script (done ++ [line]) ++ (rest ++ c.source.chunks.flatten) := by
  obtain ⟨ahead, rfl⟩ := h.front
  have known (line : String) (member : line ∈ done) : Fits limit line :=
    fits line (List.mem_append_left _ member)
  obtain ⟨future, all⟩ := h.sent
  have split : c.readAhead ++ (c.source.chunks.flatten ++ future) = script ahead := by
    rw [h.fed, script_append known, List.append_assoc, List.append_cancel_left_eq,
      List.append_assoc] at all
    exact all
  rcases next_of_script (fun line member => fits line (List.mem_append_right _ member)) split with
    ⟨incomplete, last⟩ | ⟨line, later, body, rest, rfl, made, complete, -⟩
  · refine .inl ⟨incomplete, fun none arrived => ?_⟩
    rw [arrived, List.append_right_eq_self] at all
    rw [last (by rw [none, all]; rfl), List.append_nil]
  · refine .inr ⟨line, body, rest, ?_, made, complete, ?_⟩
    · exact ⟨later, List.append_assoc done [line] later⟩
    · rw [h.fed, (eq_of_next complete).1, script_append known, script_cons made]
      simp [script, stream]

/-- When all was read it does not matter any more whether the connection is active. -/
theorem Follows.leave (h : Follows lines lines c) (source : d.source = c.source)
    (readAhead : d.readAhead = c.readAhead) : Follows lines lines d :=
  ⟨List.prefix_rfl, source ▸ readAhead ▸ h.fed, source ▸ h.sent, source ▸ h.ended, fun _ => rfl⟩

/-- A chunk is read ahead. -/
theorem Follows.take (h : Follows lines done c) {chunk : Bytes} {chunks : List Bytes}
    (arrived : c.source.chunks = chunk :: chunks) : Follows lines done { c with
      readAhead := c.readAhead ++ chunk
      source := { c.source with chunks } } := by
  refine ⟨h.front, ?_, h.sent, h.ended, h.read⟩
  have fed := h.fed
  rw [arrived, List.flatten_cons, ← List.append_assoc c.readAhead] at fed
  exact fed

/-- More of the script arrives. -/
theorem Follows.feed (h : Follows lines done c) (goesOn : c.source.ending = none) {chunk : Bytes}
    (more : c.source.fed ++ chunk <+: script lines) :
    Follows lines done { c with source := c.source.feed chunk } := by
  refine ⟨h.front, ?_, more, fun ending ended => ?_, h.read⟩
  · change c.source.fed ++ chunk =
      script done ++ (c.readAhead ++ (c.source.chunks ++ [chunk]).flatten)
    rw [h.fed]
    simp
  · rw [show c.source.ending = some ending from ended] at goesOn
    cases goesOn

/-- The stream ends behind the script. -/
theorem Follows.finish (h : Follows lines done c) (all : c.source.fed = script lines) :
    Follows lines done { c with source := c.source.finish .endOfStream } := by
  refine ⟨h.front, h.fed, h.sent, fun ending ended => ?_, h.read⟩
  change ending ∈ c.source.ending.or (some .endOfStream) at ended
  cases known : c.source.ending with
  | none =>
      rw [known] at ended
      exact ⟨(Option.some.inj ended).symm, all⟩
  | some how =>
      rw [known] at ended
      obtain rfl := Option.some.inj ended
      exact h.ended _ known

/-! ### Replying -/

/-- Lines that were handed on to the listener before the closing and behind it, of those that were
read. With deferred delivery all that were read were put on the work queue. -/
structure Replies (done answered late : List String) (c : Connection) : Prop where
  sights : c.sights = answered.flatMap lineSights ++
    if c.isActive then [] else .called (.closed endOfStream true) :: late.flatMap lineSights
  accepted : c.acceptedPackets = answered.map .text
  inTime : c.isActive = true → late = []
  inline : c.delivery = .inline → answered = done ∧ late = [] ∧ c.deferredEvents = []
  deferred : c.delivery ≠ .inline → c.deferredEvents = done.map .line

theorem Replies.of_eq (h : Replies done answered late c) (sights : d.sights = c.sights)
    (accepted : d.acceptedPackets = c.acceptedPackets)
    (deferred : d.deferredEvents = c.deferredEvents) (active : d.isActive = c.isActive)
    (delivery : d.delivery = c.delivery) : Replies done answered late d := by
  constructor
  · rw [sights, active]
    exact h.sights
  · rw [accepted]
    exact h.accepted
  · rw [active]
    exact h.inTime
  · rw [delivery, deferred]
    exact h.inline
  · rw [delivery, deferred]
    exact h.deferred

/-- With inline delivery a line is handed on when it is read. -/
theorem Replies.answer (h : Replies done answered late c) (active : c.isActive = true)
    (answers : Answers line (lineSights line) c d) (inline : c.delivery = .inline) :
    Replies (done ++ [line]) (answered ++ [line]) late d := by
  obtain ⟨sights, accepted, inTime, own, -⟩ := h
  have same : d.isActive = true :=
    (congrArg (fun i : Intake => decide (i.state = .active)) answers.intake).trans active
  have delivery : d.delivery = c.delivery := congrArg Intake.delivery answers.intake
  rw [active, if_pos rfl, List.append_nil] at sights
  constructor
  · rw [answers.sights, sights, same, if_pos rfl, List.append_nil, List.flatMap_append,
      List.flatMap_singleton]
  · rw [answers.accepted, accepted, active, if_pos rfl, List.map_append, List.map_singleton]
  · exact fun _ => inTime active
  · intro _
    rw [answers.deferred]
    exact ⟨by rw [(own inline).1], (own inline).2⟩
  · intro deferred
    exact absurd (delivery.trans inline) deferred

/-- With deferred delivery somebody hands on a line from the work queue, in time or too late. -/
theorem Replies.hand (h : Replies done answered late c)
    (answers : Answers line (lineSights line) c d) (deferred : c.delivery ≠ .inline) :
    ∃ answered' late', Replies done answered' late' d := by
  obtain ⟨sights, accepted, inTime, -, own⟩ := h
  have same : d.isActive = c.isActive :=
    congrArg (fun i : Intake => decide (i.state = .active)) answers.intake
  have delivery : d.delivery = c.delivery := congrArg Intake.delivery answers.intake
  have later : d.delivery ≠ .inline → d.deferredEvents = done.map .line := by
    intro _
    rw [answers.deferred]
    exact own deferred
  have never {p : Prop} (inline : d.delivery = .inline) : p :=
    absurd (delivery.symm.trans inline) deferred
  cases active : c.isActive with
  | true =>
      obtain rfl := inTime active
      rw [active, if_pos rfl, List.append_nil] at sights
      refine ⟨answered ++ [line], [], ?_, ?_, fun _ => rfl, never, later⟩
      · rw [answers.sights, sights, same, active, if_pos rfl, List.append_nil,
          List.flatMap_append, List.flatMap_singleton]
      · rw [answers.accepted, accepted, active, if_pos rfl, List.map_append, List.map_singleton]
  | false =>
      rw [active, if_neg Bool.false_ne_true] at sights
      refine ⟨answered, late ++ [line], ?_, ?_, fun going => ?_, never, later⟩
      · rw [answers.sights, sights, same, active, if_neg Bool.false_ne_true, List.append_assoc,
          List.cons_append, List.flatMap_append, List.flatMap_singleton]
      · rw [answers.accepted, accepted, active, if_neg Bool.false_ne_true, List.append_nil]
      · rw [same, active] at going
        cases going

/-- The closing is told, and nothing is accepted behind it. -/
theorem Replies.leave (h : Replies done answered late c) (active : c.isActive = true)
    (inactive : d.isActive = false)
    (sights : d.sights = c.sights ++ [.called (.closed endOfStream true)])
    (accepted : d.acceptedPackets = c.acceptedPackets)
    (deferred : d.deferredEvents = c.deferredEvents) (delivery : d.delivery = c.delivery) :
    Replies done answered [] d := by
  have before := h.sights
  rw [active, if_pos rfl, List.append_nil] at before
  refine ⟨?_, accepted.trans h.accepted, fun _ => rfl, fun inline => ?_, fun own => ?_⟩
  · rw [sights, before, inactive]
    rfl
  · obtain ⟨own, -, none⟩ := h.inline (delivery.symm.trans inline)
    exact ⟨own, rfl, deferred.trans none⟩
  · exact deferred.trans (h.deferred fun inline => own (delivery.trans inline))

/-! ### Everything together -/

/-- How far the closing is, by the place of the inbound loop. -/
def Departs (inTime : Prop) (now : Nat) (c : Connection) : Prop :=
  match c.inbound with
  | .starting | .reading => c.isActive = true
  | .closing (.draining _ _) none =>
    c.state = .closing ∧ c.cancelled = false ∧ (inTime → c.KeepsTime now)
  | .closing .. => False
  | .finished => c.cancelled = true

/-- A close of the inbound loop is about the end of the stream, and waits for the send queue. -/
theorem Departs.of_closing (h : c.Departs inTime now) {wait : CloseWait} {shown : Option Packet}
    (place : c.inbound = .closing wait shown) : ∃ deadline wake,
      wait = .draining deadline wake ∧ shown = none ∧ c.state = .closing ∧ c.cancelled = false ∧
        (inTime → c.KeepsTime now) := by
  rw [Departs, place] at h
  cases wait with
  | joining loops => exact h.elim
  | draining deadline wake =>
      cases shown with
      | none => exact ⟨deadline, wake, rfl, rfl, h⟩
      | some packet => exact h.elim

/-- A connection of an echo server that nothing hinders, and lines that it can receive. -/
structure IsEcho (lines : List String) (c : Connection) : Prop where
  unhindered : c.Unhindered
  listener : c.listener = some echo
  registry : c.registry = .peer
  fits : ∀ line ∈ lines, Fits c.config.maxFrameLength line

/-- A client dictates these lines; if this is `inTime`, no close runs out of its time meanwhile. -/
def Dictates (inTime : Prop) (lines : List String) (now : Nat) (c : Connection)
    (intervention : Intervention) : Prop :=
  intervention.IsDictation lines now c ∧ (inTime → c.KeepsTime (intervention.later now))

/-- What is true at every time of a connection of an echo server to which a client dictates these
lines. -/
structure Echoes (inTime : Prop) (lines : List String) (now : Nat) (c : Connection) : Prop where
  isEcho : c.IsEcho lines
  departs : c.Departs inTime now
  /-- The loops are told to end only when everything has been taken by the sink. -/
  complete : inTime → c.cancelled = true → c.sink.taken = stream c.enqueuedPackets
  progress : ∃ done answered late, Follows lines done c ∧ Replies done answered late c

theorem IsEcho.of_intake (h : c.IsEcho lines) (intake : d.intake = c.intake)
    (unhindered : d.Unhindered) : d.IsEcho lines := by
  injection intake with config listener _ registry
  exact ⟨unhindered, listener.trans h.listener, registry.trans h.registry, config ▸ h.fits⟩

/-- Neither the place of the inbound loop, nor what it read, nor the journal matters to it. -/
theorem IsEcho.go (h : c.IsEcho lines) (inbound : Inbound) (source : Source) (readAhead : Bytes)
    (activity : Activity) (journal : List Entry) :
    IsEcho lines { c with inbound, source, readAhead, activity, journal } :=
  { h with unhindered := { h.unhindered with } }

/-- After something that is not about what the inbound loop works with. -/
theorem Echoes.turn (h : Echoes inTime lines now c) (intake : d.intake = c.intake)
    (unhindered : d.Unhindered)
    (drained : c.isActive = false → c.queue.isDrained = true → d.queue.isDrained = true)
    (complete : inTime → d.cancelled = true → d.sink.taken = stream d.enqueuedPackets)
    (replies : ∀ {done answered late}, Replies done answered late c →
      ∃ answered late, Replies done answered late d) : Echoes inTime lines now d := by
  obtain ⟨done, answered, late, follows, told⟩ := h.progress
  obtain ⟨answered', late', told'⟩ := replies told
  have place := h.departs
  have isEcho := h.isEcho.of_intake intake unhindered
  have keeps (inactive : c.isActive = false) (early : c.KeepsTime now) : d.KeepsTime now := by
    intro deadline due
    rw [show d.inbound = c.inbound from congrArg Intake.inbound intake] at due
    exact (early deadline due).imp_right (drained inactive)
  injection intake with _ _ _ _ state _ _ cancelled inbound source readAhead
  have active : d.isActive = c.isActive := by rw [isActive, state, isActive]
  refine ⟨isEcho, ?_, complete, done, answered', late',
    follows.of_eq source readAhead active, told'⟩
  rw [Departs] at place ⊢
  rw [inbound, active, state, cancelled]
  split at place
  · exact place
  · exact place
  · obtain ⟨closing, running, early⟩ := place
    exact ⟨closing, running, fun inTime =>
      keeps (isActive_eq_false (by simp [closing])) (early inTime)⟩
  · exact place
  · exact place

/-! ### The stretches of the inbound loop -/

/-- A connection that goes on reading. -/
theorem IsEcho.readOn (h : c.IsEcho lines) (active : c.isActive = true)
    (goesOn : c.cancelled = false) (follows : Follows lines done c)
    (told : Replies done answered late c) : Echoes inTime lines now c.readOn := by
  rw [Connection.readOn, if_pos active]
  refine ⟨h.go .reading _ _ _ _, active, fun _ cancelled => ?_, done, answered, late, ?_, ?_⟩
  · rw [show c.cancelled = true from cancelled] at goesOn
    cases goesOn
  · exact follows.of_eq rfl rfl rfl
  · exact told.of_eq rfl rfl rfl rfl rfl

/-- A line that was read is handed on, or put on the work queue. -/
theorem IsEcho.deliver (h : c.IsEcho lines) (active : c.isActive = true)
    (goesOn : c.cancelled = false) (follows : Follows lines (done ++ [line]) c)
    (told : Replies done answered late c) :
    Echoes inTime lines now (c.deliver now (.line line)) := by
  have fits : Fits c.config.maxFrameLength line :=
    h.fits line (follows.front.subset (List.mem_append_right _ (List.mem_singleton_self _)))
  rw [Connection.deliver]
  split
  · rename_i inline
    obtain ⟨d, eq, answers⟩ := answers_dispatch h.unhindered h.listener fits.writable true now
    have told := told.answer active answers inline
    have intake := answers.intake
    have isEcho := h.of_intake intake answers.unhindered
    injection intake with _ _ _ _ state _ _ cancelled _ source readAhead
    have same : d.isActive = c.isActive := by rw [isActive, state, isActive]
    rw [eq]
    exact isEcho.readOn (same.trans active) (cancelled.trans goesOn)
      (follows.of_eq source readAhead same) told
  · rename_i queue deferred
    have opened : c.state ≠ .closed := by
      rw [state_eq_active active]
      decide
    have own : c.delivery ≠ .inline := by
      rw [deferred]
      exact fun same => by cases same
    rw [if_neg opened]
    have told : Replies (done ++ [line]) answered late (c.log (.deferred (.line line))) := by
      refine ⟨?_, ?_, told.inTime, fun inline => absurd inline own, fun _ => ?_⟩
      · exact (recount_log sight? _ c).trans ((List.append_nil _).trans told.sights)
      · exact (recount_log accepted? _ c).trans ((List.append_nil _).trans told.accepted)
      · rw [deferredEvents, recount_log, List.map_append]
        exact congrArg (· ++ _) (told.deferred own)
    exact (h.go _ _ _ _ _).readOn active goesOn (follows.of_eq rfl rfl rfl) told

/-- The close that the end of the stream starts has the close message to wait for. -/
theorem stopReading_of_ended (orderly : c.Orderly) (active : c.isActive = true)
    (running : c.outboundStopped = false) (now : Nat) {cause : Error}
    (ended : cause.isEndOfStream = true) :
    c.stopReading now cause = { c.startClosing endOfStream true with
      inbound := .closing (.draining (now + closeTimeout) (now + closePoll)) none } := by
  obtain ⟨-, -, -, goesOn⟩ := orderly.fresh active
  have still : (c.startClosing endOfStream true).outboundStopped = false :=
    (congrArg Standing.outboundStopped (standing_startClosing endOfStream true c)).trans running
  have waits : (c.startClosing endOfStream true).isDrainOver (now + closeTimeout) now = false := by
    simp [isDrainOver, isDrained_startClosing, still, closeTimeout]
  rw [stopReading, goesOn, active]
  simp [ended, close, active, proceedClose, waits]

theorem sights_startClosing (untold : c.closeNotified = false) (message : String)
    (expected : Bool) : (c.startClosing message expected).sights =
      c.sights ++ [.called (.closed message expected)] := by
  obtain ⟨results, eq⟩ := recount_callHook_of_isBlind isBlind_sight (.closed message expected)
    { c with state := .closing, closeNotified := true }
  rw [startClosing_eq message expected untold, sights, recount_enqueue, eq]
  exact List.append_nil _

/-- When all lines were read the closing begins: the listener is told, and the close message is
sent behind what was accepted. -/
theorem Echoes.leave (h : Echoes inTime lines now c) (orderly : c.Orderly)
    (active : c.isActive = true) (follows : Follows lines lines c)
    (told : Replies lines answered late c) :
    Echoes inTime lines now { c.startClosing endOfStream true with
      inbound := .closing (.draining (now + closeTimeout) (now + closePoll)) none } := by
  obtain ⟨-, -, untold, goesOn⟩ := orderly.fresh active
  obtain ⟨⟨⟨sink, writable⟩, quiet, running⟩, listener, registry, fits⟩ := h.isEcho
  obtain ⟨accepted, -, queue⟩ := sends_startClosing endOfStream true untold
  have sights := sights_startClosing untold endOfStream true
  have deferred : (c.startClosing endOfStream true).deferredEvents = c.deferredEvents :=
    recount_startClosing_of_isAloof isAloof_deferred endOfStream true c
  have machinery := machinery_startClosing endOfStream true c
  have standing := standing_startClosing endOfStream true c
  generalize c.startClosing endOfStream true = d at *
  simp only [Connection.machinery, Machinery.mk.injEq, Connection.standing,
    Standing.mk.injEq] at machinery standing
  obtain ⟨config, listener', delivery, registry', -, -, -, source, readAhead, -, sink'⟩ := machinery
  obtain ⟨state, -, -, cancelled, stopped⟩ := standing
  have inactive : d.isActive = false := isActive_eq_false (by rw [state]; decide)
  refine ⟨⟨⟨⟨sink' ▸ sink, ?_⟩, config ▸ quiet, fun _ => ?_⟩, listener'.trans listener,
    registry'.trans registry, config ▸ fits⟩, ?_, fun _ ended => ?_, lines, answered, [], ?_, ?_⟩
  · intro packet member
    rw [queue] at member
    rcases List.mem_append.mp member with old | new
    · exact writable packet old
    · exact List.mem_singleton.mp new ▸ writable_farewell
  · rw [stopped, sink']
    exact running goesOn
  · refine ⟨state, cancelled.trans goesOn, fun _ deadline due => .inl ?_⟩
    obtain rfl := Option.some.inj due
    exact Nat.lt_add_of_pos_right (by decide)
  · rw [← cancelled, ended] at goesOn
    cases goesOn
  · exact follows.leave source readAhead
  · exact told.leave active inactive sights accepted deferred delivery

/-- The loop that reads. -/
theorem Echoes.reading (h : Echoes inTime lines now c) (orderly : c.Orderly)
    (active : c.isActive = true) (place : c.inbound = .reading)
    (step : c.inboundStep now = some d) : Echoes inTime lines now d := by
  obtain ⟨done, answered, late, follows, told⟩ := h.progress
  obtain ⟨-, -, -, goesOn⟩ := orderly.fresh active
  have never {p : Prop} (inactive : c.isActive = false) : p := by
    rw [active] at inactive
    cases inactive
  rw [inboundStep_reading place goesOn] at step
  rcases follows.next h.isEcho.fits with
    ⟨short, last⟩ | ⟨line, body, rest, front, made, complete, fed⟩
  · rw [short] at step
    simp only [readAhead?] at step
    split at step
    · rename_i chunk chunks arrived
      cases step
      refine ⟨h.isEcho.go _ _ _ _ _, ?_, h.complete, done, answered, late, follows.take arrived,
        told.of_eq rfl rfl rfl rfl rfl⟩
      simp only [Departs, place]
      exact active
    · rename_i arrived
      cases ending : c.source.ending with
      | none =>
          rw [ending] at step
          cases step
      | some how =>
          obtain ⟨rfl, all⟩ := follows.ended how ending
          obtain rfl := last arrived all
          have running := (h.isEcho.unhindered.running goesOn).1
          rw [ending] at step
          cases step
          rw [stopReading_of_ended orderly active running now rfl]
          exact h.leave orderly active follows told
  · rw [complete] at step
    cases step
    have judged : ({ c with readAhead := rest } : Connection).intake.reader.judge body =
        .event (.line line) := Reader.judge_text h.isEcho.registry made
    rw [handleBody_eq, judged]
    have told : Replies done answered late (({ c with readAhead := rest }).noted now body) := by
      refine told.of_eq ?_ ?_ ?_ rfl rfl
      · exact (recount_log sight? (.handled body) c).trans (List.append_nil _)
      · exact (recount_log accepted? (.handled body) c).trans (List.append_nil _)
      · exact (recount_log deferred? (.handled body) c).trans (List.append_nil _)
    exact (h.isEcho.go _ _ _ _ _).deliver active goesOn
      ⟨front, fed, follows.sent, follows.ended, never⟩ told

/-- The loop that waits for the send queue: in time, it tells the loops to end when everything has
been delivered. -/
theorem Echoes.proceeding (h : Echoes inTime lines now c) (tallied : c.Tallied)
    (inOrder : c.InOrder) {wait : CloseWait} {shown : Option Packet}
    (place : c.inbound = .closing wait shown)
    (step : c.inboundStep now = some d) : Echoes inTime lines now d := by
  obtain ⟨done, answered, late, follows, told⟩ := h.progress
  obtain ⟨deadline, wake, rfl, rfl, closing, goesOn, early⟩ := h.departs.of_closing place
  rw [inboundStep, place] at step
  simp only [proceedClose, if_true] at step
  split at step
  · have running := (h.isEcho.unhindered.running goesOn).1
    cases drainOver : c.isDrainOver deadline now with
    | false =>
        rw [drainOver] at step
        cases step
        have early (inTime : inTime) : KeepsTime now { c with
            inbound := .closing (.draining deadline (now + closePoll)) none } := by
          intro latest due
          obtain rfl := Option.some.inj due
          exact early inTime deadline (by rw [place]; rfl)
        exact ⟨h.isEcho.go _ _ _ _ _, ⟨closing, goesOn, early⟩, h.complete, done, answered, late,
          follows.of_eq rfl rfl rfl, told.of_eq rfl rfl rfl rfl rfl⟩
    | true =>
        have drained (inTime : inTime) : c.queue.isDrained = true := by
          rcases early inTime deadline (by rw [place]; rfl) with early | drained
          · simpa [isDrainOver, running, Nat.not_le.mpr early] using drainOver
          · exact drained
        have inactive : c.isActive = false := isActive_eq_false (by rw [closing]; decide)
        rw [drainOver] at step
        cases step
        obtain ⟨⟨healthy, quiet, -⟩, listener, registry, fits⟩ := h.isEcho
        have isOver : IsEcho lines { { c with cancelled := true }.markClosed with
            inbound := .finished } :=
          ⟨⟨⟨healthy.sink, healthy.writable⟩, quiet, fun goesOn => by cases goesOn⟩, listener,
            registry, fits⟩
        refine ⟨isOver, rfl, fun inTime _ => ?_, done, answered, late, ?_,
          told.of_eq ?_ ?_ ?_ inactive.symm rfl⟩
        · have delivered := hasDelivered_of_isDrained tallied inOrder (drained inTime) running
          refine delivered.taken_eq.trans (congrArg stream ?_)
          exact ((recount_markClosed enqueued? _).trans (List.append_nil _)).symm
        · exact follows.of_eq rfl rfl inactive.symm
        · exact (recount_markClosed sight? _).trans (List.append_nil _)
        · exact (recount_markClosed accepted? _).trans (List.append_nil _)
        · exact (recount_markClosed deferred? _).trans (List.append_nil _)
  · cases step

theorem Echoes.inboundStep (h : Echoes inTime lines now c) {closers : List CloseWait}
    (valid : c.Valid closers) (step : c.inboundStep now = some d) : Echoes inTime lines now d := by
  have departs := h.departs
  cases place : c.inbound with
  | starting =>
      simp only [Departs, place] at departs
      obtain ⟨done, answered, late, follows, told⟩ := h.progress
      rw [Connection.inboundStep, place] at step
      cases step
      exact h.isEcho.readOn departs (valid.orderly.fresh departs).2.2.2 follows told
  | reading =>
      simp only [Departs, place] at departs
      exact h.reading valid.orderly departs place step
  | closing wait shown => exact h.proceeding valid.tallied valid.inOrder place step
  | finished =>
      rw [Connection.inboundStep, place] at step
      cases step

/-! ### What else happens -/

/-- The outbound loop brings more of the same to the sink. -/
theorem Echoes.outboundStep (h : Echoes inTime lines now c) {closers : List CloseWait}
    (valid : c.Valid closers) (step : c.outboundStep now = some d) : Echoes inTime lines now d := by
  have flows := flows_outboundStep h.isEcho.unhindered valid.tallied step
  have journal : d.journal = c.journal := by rw [flows.eq]
  have intake : d.intake = c.intake := by rw [flows.eq]; rfl
  have same {α : Type} (kind : Entry → Option α) : d.recount kind = c.recount kind := by
    rw [recount, journal, recount]
  refine h.turn intake flows.unhindered (fun _ => flows.isDrained) (fun inTime cancelled => ?_) ?_
  · exact flows.taken_eq (valid.outboundStep step).inOrder
      (Later.of_changes (onward_outboundStep step).changes).taken
      (h.complete inTime ((congrArg Intake.cancelled intake).symm.trans cancelled))
  · intro done answered late told
    refine ⟨answered, late, told.of_eq (same _) (same _) (same _) ?_ ?_⟩
    · exact congrArg (fun i : Intake => decide (i.state = .active)) intake
    · exact congrArg Intake.delivery intake

/-- Only lines are put on a work queue. -/
theorem Echoes.exists_line (h : Echoes inTime lines now c) {event : Event}
    (deferred : .deferred event ∈ c.journal) :
    c.delivery ≠ .inline ∧ ∃ line ∈ lines, event = .line line := by
  obtain ⟨done, answered, late, follows, told⟩ := h.progress
  have queued : event ∈ c.deferredEvents :=
    List.mem_filterMap.mpr ⟨_, List.mem_reverse.mpr deferred, rfl⟩
  have own : c.delivery ≠ .inline := by
    intro inline
    rw [(told.inline inline).2.2] at queued
    cases queued
  rw [told.deferred own] at queued
  obtain ⟨line, member, rfl⟩ := List.mem_map.mp queued
  exact ⟨own, line, follows.front.subset member, rfl⟩

/-- Somebody hands on what was put on the work queue. -/
theorem Echoes.hands (h : Echoes inTime lines now c) (orderly : c.Orderly) {event : Event}
    (deferred : .deferred event ∈ c.journal) :
    Echoes inTime lines now (c.dispatch false now event).1 := by
  obtain ⟨own, line, member, rfl⟩ := h.exists_line deferred
  have fits := h.isEcho.fits line member
  obtain ⟨d, eq, answers⟩ :=
    answers_dispatch h.isEcho.unhindered h.isEcho.listener fits.writable false now
  rw [eq]
  refine h.turn answers.intake answers.unhindered (fun inactive drained => ?_)
    (fun inTime cancelled => ?_) fun told => ?_
  · rw [(answers.refused inactive).1]
    exact drained
  · rw [show d.cancelled = c.cancelled from congrArg Intake.cancelled answers.intake] at cancelled
    obtain ⟨-, sink, enqueued⟩ := answers.refused (orderly.inactive_of_cancelled cancelled)
    rw [sink, enqueued]
    exact h.complete inTime cancelled
  · exact told.hand answers own

/-- A client dictates, and time passes. -/
theorem Echoes.meets (h : Echoes inTime lines now c) {intervention : Intervention}
    (dictates : Dictates inTime lines now c intervention) :
    Echoes inTime lines (intervention.later now) (intervention.act c) := by
  obtain ⟨done, answered, late, follows, told⟩ := h.progress
  obtain ⟨dictates, early⟩ := dictates
  cases intervention with
  | call => exact dictates.elim
  | transit transit =>
      cases transit with
      | feed chunk =>
          exact ⟨h.isEcho.go _ _ _ _ _, h.departs, h.complete, done, answered, late,
            follows.feed dictates.1 dictates.2, told.of_eq rfl rfl rfl rfl rfl⟩
      | finish ending =>
          obtain ⟨rfl, all⟩ := dictates
          exact ⟨h.isEcho.go _ _ _ _ _, h.departs, h.complete, done, answered, late,
            follows.finish all, told.of_eq rfl rfl rfl rfl rfl⟩
      | weather => exact dictates.elim
  | pass span =>
      refine ⟨h.isEcho, ?_, h.complete, done, answered, late, follows, told⟩
      have departs := h.departs
      cases place : c.inbound with
      | starting | reading | finished =>
          simp only [Departs, place] at departs
          simp only [Intervention.act, Departs, place, departs]
      | closing wait shown =>
          obtain ⟨deadline, wake, rfl, rfl, closing, goesOn, -⟩ := h.departs.of_closing place
          simp only [Intervention.act, Departs, place]
          exact ⟨closing, goesOn, early⟩

/-- Whatever happens to the connection. -/
theorem Echoes.undergoes (h : Echoes inTime lines now c) {closers : List CloseWait}
    (valid : c.Valid closers) {later : Nat}
    (undergoes : Undergoes (Dictates inTime lines) now c later d) :
    Echoes inTime lines later d := by
  cases undergoes with
  | rests => exact h
  | inbound step => exact h.inboundStep valid step
  | outbound step => exact h.outboundStep valid step
  | hands deferred => exact h.hands valid.orderly deferred
  | joins =>
      exact h.turn rfl { h.isEcho.unhindered with } (fun _ drained => drained) h.complete
        fun told => ⟨_, _, told.of_eq rfl rfl rfl rfl rfl⟩
  | meets dictates => exact h.meets dictates

end Connection

end PacketWire
