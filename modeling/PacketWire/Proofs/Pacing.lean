import PacketWire.Proofs.ConnectionActors
import PacketWire.Proofs.Deeds

/-!
# How keep-alives are paced

A keep-alive falls due one idle period after the last thing that happened: the start of the
connection, a frame that was handled, or the keep-alive before it. The inbound loop moves that point
while the outbound loop waits for the deadline that it knew of when it began to wait. `marks` are
all such points of a run. The latest of them is what the deadline counts from, and a loop that waits
does so for the deadline of an earlier one.

Each keep-alive that falls due is one packet that the outbound loop sends, or tries to send where
the connection is closing, and the loop sends nothing else of its own accord.
-/

namespace PacketWire

namespace Entry

/-- When a keep-alive fell due. -/
def due? : Entry → Option Nat
  | keepAliveDue time => some time
  | _ => none

theorem isAloof_due : IsAloof due? where
  isBlind := by
    intro entry chat
    cases entry <;> first | rfl | exact chat.elim
  hook := fun _ _ _ => rfl

end Entry

namespace ConnectionConfig

/-- How long after this point in time a keep-alive is due: one idle period, or one far-future period
where that cannot be told. -/
def pace (config : ConnectionConfig) (since : Nat) : Nat :=
  if since + config.idlePeriod < Connection.horizon then config.idlePeriod
  else Connection.farFuture

theorem minIdle_le_pace (config : ConnectionConfig) (since : Nat) :
    minIdle ≤ config.pace since := by
  rw [pace]
  split
  · exact config.minIdle_le_idlePeriod
  · decide

end ConnectionConfig

namespace Connection

open Entry

variable {c d e : Connection} {now i : Nat} {happening : Happening} {closers : List CloseWait}

/-- The times at which keep-alives fell due. -/
def keepAliveTimes (c : Connection) : List Nat := c.recount due?

/-- What the deadline of the next keep-alive is made of, and the keep-alives so far. -/
structure Pulse where
  lastReceived : Nat
  lastKeepAlive : Option Nat
  times : List Nat

def pulse (c : Connection) : Pulse :=
  ⟨c.activity.lastReceived, c.activity.lastKeepAlive, c.keepAliveTimes⟩

/-! ### The deadline -/

theorem idleSince_eq (c : Connection) :
    c.idleSince = max c.pulse.lastReceived (c.pulse.lastKeepAlive.getD 0) := by
  change _ = max c.activity.lastReceived (c.activity.lastKeepAlive.getD 0)
  rw [idleSince]
  cases c.activity.lastKeepAlive with
  | none => exact (Nat.max_zero _).symm
  | some sent =>
      simp only [Option.getD_some]
      split <;> omega

theorem idleSince_congr (same : d.pulse = c.pulse) : d.idleSince = c.idleSince := by
  rw [idleSince_eq, same, idleSince_eq]

theorem idleDeadline_congr (same : d.config = c.config) (since : Nat) :
    d.idleDeadline since = c.idleDeadline since := by
  rw [idleDeadline, same, idleDeadline]

theorem keepAliveDeadline_congr (config : d.config = c.config) (same : d.pulse = c.pulse) :
    d.keepAliveDeadline = c.keepAliveDeadline := by
  rw [keepAliveDeadline, idleDeadline_congr config, idleSince_congr same, keepAliveDeadline]

/-- Where the pace can be kept, the deadline keeps it. -/
theorem idleDeadline_eq {since : Nat} (fits : since + c.config.pace since < horizon) :
    c.idleDeadline since = since + c.config.pace since := by
  rw [ConnectionConfig.pace] at fits ⊢
  rw [idleDeadline]
  split at fits
  · rename_i told
    rw [if_pos told, if_pos told]
  · rename_i untold
    rw [if_neg untold, if_pos fits, if_neg untold]

/-- Of two points in time with the same pace, the later one has the later deadline. -/
theorem idleDeadline_mono {mark since : Nat} (le : mark ≤ since)
    (same : c.config.pace mark = c.config.pace since)
    (fits : since + c.config.pace since < horizon) :
    c.idleDeadline mark ≤ c.idleDeadline since := by
  rw [idleDeadline_eq fits, idleDeadline_eq (by omega)]
  omega

/-! ### What no keep-alive comes of -/

theorem keepAliveTimes_of_moves (moves : Moves c d) : d.keepAliveTimes = c.keepAliveTimes := by
  have logged {c : Connection} (entry : Entry) (other : due? entry = none) :
      (c.log entry).keepAliveTimes = c.keepAliveTimes := by
    rw [keepAliveTimes, recount_log, other, Option.toList_none, List.append_nil, keepAliveTimes]
  induction moves with
  | refl => rfl
  | tail _ move ih =>
      refine Eq.trans ?_ ih
      cases move with
      | chat chat => exact chat.recount_of_isBlind isAloof_due.isBlind
      | hook call => exact recount_callHook_of_isAloof isAloof_due call _
      | leave message => exact recount_startClosing_of_isAloof isAloof_due message true _
      | fail cause =>
          exact (recount_startClosing_of_isAloof isAloof_due cause.message false _).trans
            (recount_callHook_of_isAloof isAloof_due _ _)
      | markClosed => exact (recount_markClosed due? _).trans (List.append_nil _)
      | frame | defer | dispatch => exact logged _ rfl
      | hear | touch | register | readAhead | go | cancel | takeLoops => rfl

theorem pulse_of_moves (moves : Moves c d) (machinery : d.machinery = c.machinery) :
    d.pulse = c.pulse := by
  have activity : d.activity = c.activity := congrArg Machinery.activity machinery
  rw [pulse, keepAliveTimes_of_moves moves, activity, pulse]

/-! ### Where the outbound loop originates them -/

/-- A loop that waits does so for the deadline as it is now. -/
def Waits (now : Nat) (c : Connection) : Prop :=
  ∀ wake, c.outbound = .idle wake → wake = c.idleWake now

/-- The packets that a keep-alive which falls due puts on the send queue: one, or none where it is
refused. -/
def keepAlives (c : Connection) : List Packet :=
  if c.isActive then [.keepAlive false] else []

/-- One keep-alive falls due and is sent, or refused. -/
structure SendsKeepAlive (now : Nat) (c d : Connection) : Prop where
  times : d.keepAliveTimes = c.keepAliveTimes ++ [now]
  noted : d.activity.lastKeepAlive = some now
  accepted : d.acceptedPackets = c.acceptedPackets ++ c.keepAlives
  enqueued : d.enqueuedPackets = c.enqueuedPackets ++ c.keepAlives

/-- No keep-alive falls due, and none is sent: what is accepted for sending is what the listener
wants to send in the hook that tells of a failure, and the loop stops then. -/
structure SendsNoKeepAlive (c d : Connection) : Prop where
  times : d.keepAliveTimes = c.keepAliveTimes
  noted : d.activity.lastKeepAlive = c.activity.lastKeepAlive
  accepted : ∃ packets, d.acceptedPackets = c.acceptedPackets ++ packets ∧
    ∀ packet ∈ packets, c.voice.Utters packet ∧ d.outboundStopped = true

theorem SendsNoKeepAlive.refl (c : Connection) : SendsNoKeepAlive c c :=
  ⟨rfl, rfl, [], (List.append_nil _).symm, fun _ member => by cases member⟩

/-- The loop goes on, or stops, and sends no keep-alive. -/
structure Keeps (now : Nat) (c d : Connection) : Prop where
  pulse : d.pulse = c.pulse
  accepted : ∃ packets, d.acceptedPackets = c.acceptedPackets ++ packets ∧
    ∀ packet ∈ packets, c.voice.Utters packet ∧ d.outboundStopped = true
  waits : d.Waits now

theorem Keeps.sendsNoKeepAlive (h : Keeps now c d) : SendsNoKeepAlive c d :=
  ⟨congrArg Pulse.times h.pulse, congrArg Pulse.lastKeepAlive h.pulse, h.accepted⟩

/-- The loop sends a keep-alive, which nothing that is queued makes needless. -/
structure Originates (now : Nat) (c d : Connection) : Prop where
  auto : c.config.autoKeepAlive = true
  late : c.keepAliveDeadline ≤ now
  none : c.queue.packets = []
  received : d.activity.lastReceived = c.activity.lastReceived
  sends : SendsKeepAlive now c d
  waits : d.Waits now

theorem Originates.pulse (h : Originates now c d) :
    d.pulse = ⟨c.pulse.lastReceived, some now, c.pulse.times ++ [now]⟩ := by
  rw [Connection.pulse, h.received, h.sends.noted, h.sends.times]
  rfl

/-- What going on with the outbound loop has to do with keep-alives. -/
def Paces (now : Nat) (c d : Connection) : Prop :=
  Keeps now c d ∨ Originates now c d

theorem waits_of_busy (busy : ∀ wake, c.outbound ≠ .idle wake) : c.Waits now :=
  fun wake idle => absurd idle (busy wake)

/-- Nothing is sent, and the loop does not wait, or not for long. -/
theorem Keeps.of_eq (pulse : d.pulse = c.pulse) (journal : d.journal = c.journal)
    (waits : d.Waits now) : Keeps now c d := by
  refine ⟨pulse, ⟨[], ?_, fun _ member => (by cases member)⟩, waits⟩
  rw [acceptedPackets, recount, journal, List.append_nil]
  rfl

/-- First something that matters to no keep-alive. -/
theorem Keeps.after (h : Keeps now d e)
    (same : (d.pulse, d.journal, d.voice) = (c.pulse, c.journal, c.voice)) : Keeps now c e := by
  simp only [Prod.mk.injEq] at same
  obtain ⟨pulse, journal, voice⟩ := same
  refine ⟨h.pulse.trans pulse, ?_, h.waits⟩
  have accepted := h.accepted
  rwa [acceptedPackets, acceptedPackets, recount, recount, journal, voice] at accepted

theorem Paces.after (h : Paces now d e)
    (same : (d.pulse, d.journal, d.voice) = (c.pulse, c.journal, c.voice))
    (settings : (d.config, d.state) = (c.config, c.state))
    (packets : d.queue.packets = c.queue.packets) : Paces now c e := by
  rcases h with keeps | ⟨auto, late, none, received, sends, waits⟩
  · exact .inl (keeps.after same)
  · simp only [Prod.mk.injEq] at same settings
    obtain ⟨pulse, journal, -⟩ := same
    have sent : d.keepAlives = c.keepAlives := by
      rw [keepAlives, isActive, settings.2, keepAlives, isActive]
    rw [settings.1] at auto
    rw [keepAliveDeadline_congr settings.1 pulse] at late
    rw [packets] at none
    refine .inr ⟨auto, late, none, received.trans (congrArg Pulse.lastReceived pulse),
      ⟨?_, sends.noted, ?_, ?_⟩, waits⟩
    · rw [sends.times, show d.keepAliveTimes = c.keepAliveTimes from congrArg Pulse.times pulse]
    · rw [sends.accepted, sent, acceptedPackets, recount, journal]
      rfl
    · rw [sends.enqueued, sent, enqueuedPackets, recount, journal]
      rfl

theorem keeps_stopWriting (cause : Option Error) (c : Connection) :
    Keeps now c (c.stopWriting now cause) := by
  have shuts {d : Connection} (moves : Moves { c with outboundStopped := true } d)
      (machinery : d.machinery = c.machinery) (passive : Passive c d) : Keeps now c { d with
        queue := d.queue.clear, outbound := .shutting (now + shutdownTimeout) } := by
    have pulse : d.pulse = { c with outboundStopped := true }.pulse :=
      pulse_of_moves moves machinery
    have stopped : d.outboundStopped = true := (Sends.of_moves moves).stopped
    obtain ⟨packets, accepted, wanted⟩ := passive.exists_accepted
    exact ⟨pulse, ⟨packets, accepted, fun packet member => ⟨wanted packet member, stopped⟩⟩,
      waits_of_busy fun _ idle => by cases idle⟩
  cases cause with
  | none => exact shuts .refl rfl (.of_eq rfl)
  | some cause =>
      simp only [stopWriting]
      split
      · exact shuts .refl rfl (.of_eq rfl)
      · split
        · exact shuts (outcome_close true now endOfStream _).moves (machinery_close ..)
            (.after (passive_close true now endOfStream true _) rfl)
        · exact shuts (outcome_fail true now cause _).moves (machinery_fail ..)
            (.after (passive_fail true now cause _) rfl)

theorem keeps_failWriting (cause : Error) (c : Connection) :
    Keeps now c (c.failWriting now cause) :=
  (keeps_stopWriting (some cause) { c with queue := c.queue.written }).after rfl

/-- Taking a packet originates nothing. -/
theorem keeps_takePacket (c : Connection) : Keeps now c (c.takePacket now) := by
  rw [takePacket]
  split
  · refine .of_eq rfl rfl fun wake idle => ?_
    cases idle
    rfl
  · dsimp only
    split
    · exact (keeps_failWriting _ _).after rfl
    · exact .of_eq rfl rfl (waits_of_busy fun _ idle => by cases idle)

theorem originate_of_active (active : c.isActive = true) :
    c.originate now = ((c.noteKeepAlive now).log (.accepted (.keepAlive false))).enqueue
      (.keepAlive false) := by
  have still : (c.noteKeepAlive now).isActive = true := active
  rw [originate, send_eq_ok still]
  rfl

theorem originate_of_inactive (inactive : c.isActive = false) :
    c.originate now = c.noteKeepAlive now := by
  have still : (c.noteKeepAlive now).isActive = false := inactive
  rw [originate, send_eq_error still]
  rfl

/-- The keep-alive that is due is taken off the queue at once, which is empty otherwise. -/
theorem takePacket_originate (now : Nat) (none : c.queue.packets = []) :
    ((c.originate now).takePacket now).activity =
        { c.activity with lastKeepAlive := some now } ∧
      ((c.originate now).takePacket now).journal =
        (c.keepAlives.flatMap (fun packet => [.enqueued packet, .accepted packet]) ++
          [.keepAliveDue now]) ++ c.journal := by
  obtain ⟨body, plain⟩ : ∃ body, Frame.body (.keepAlive false) = .ok body := ⟨_, rfl⟩
  rw [keepAlives]
  cases active : c.isActive with
  | true =>
      rw [originate_of_active active, takePacket]
      simp [noteKeepAlive, SendQueue.pop?, enqueue, log, none, plain]
  | false =>
      rw [originate_of_inactive active, takePacket]
      simp [noteKeepAlive, SendQueue.pop?, log, none]

theorem originates_writeOn (none : c.queue.packets = []) (auto : c.config.autoKeepAlive = true)
    (late : c.keepAliveDeadline ≤ now) :
    Originates now c ((c.originate now).takePacket now) := by
  obtain ⟨activity, journal⟩ := takePacket_originate now none
  refine ⟨auto, late, none, by rw [activity], ⟨?_, by rw [activity], ?_, ?_⟩,
    (keeps_takePacket _).waits⟩
  · refine (recount_eq_append due? journal).trans ?_
    rw [keepAlives]
    split <;> rfl
  · refine (recount_eq_append accepted? journal).trans ?_
    rw [keepAlives]
    split <;> rfl
  · refine (recount_eq_append enqueued? journal).trans ?_
    rw [keepAlives]
    split <;> rfl

theorem paces_writeOn (c : Connection) : Paces now c (c.writeOn now) := by
  rw [writeOn]
  split
  · exact .inl (keeps_stopWriting none c)
  · split
    · rename_i due
      simp only [keepAliveIsDue, Bool.and_eq_true, decide_eq_true_eq, SendQueue.isEmpty,
        List.isEmpty_iff] at due
      obtain ⟨none, auto, late⟩ := due
      exact .inr (originates_writeOn none auto late)
    · exact .inl (keeps_takePacket c)

theorem paces_finishPacket (c : Connection) : Paces now c (c.finishPacket now) :=
  (paces_writeOn { c with
    queue := c.queue.written, activity := { c.activity with hasSent := true } }).after rfl rfl rfl

theorem paces_afterFrame (c : Connection) : Paces now c (c.afterFrame now) := by
  rw [afterFrame]
  split
  · exact .inl (.of_eq rfl rfl (waits_of_busy fun _ idle => by cases idle))
  · exact paces_finishPacket c

theorem paces_writeSlices {slices : List Bytes} (step : c.writeSlices now slices = some d) :
    Paces now c d := by
  unfold writeSlices at step
  split at step
  · cases step
    exact paces_afterFrame c
  · split at step
    · cases step
    · cases step
      exact .inl (keeps_failWriting _ c)
    · rename_i left buffer sink _
      dsimp only at step
      split at step <;> cases step
      · exact (paces_afterFrame { c with buffer, sink }).after rfl rfl rfl
      · exact .inl (.of_eq rfl rfl (waits_of_busy fun _ idle => by cases idle))
      · exact .inl (.of_eq rfl rfl (waits_of_busy fun _ idle => by cases idle))

theorem paces_flushOn (flushing : c.outbound = .flushing) (step : c.flushOn now = some d) :
    Paces now c d := by
  rw [flushOn] at step
  split at step <;> split at step <;> cases step
  · exact .inl (keeps_failWriting _ c)
  · exact (paces_finishPacket _).after rfl rfl rfl
  · exact .inl (keeps_failWriting _ c)
  · exact .inl (.of_eq rfl rfl (waits_of_busy fun _ idle => by cases flushing.symm.trans idle))

theorem keeps_shutOn {deadline : Nat} (shutting : c.outbound = .shutting deadline)
    (step : c.shutOn now deadline = some d) : Keeps now c d := by
  cases shuts_of_shutOn step with
  | letsGo | last => exact .of_eq rfl rfl (waits_of_busy fun _ idle => by cases idle)
  | moves => exact .of_eq rfl rfl (waits_of_busy fun _ idle => by cases shutting.symm.trans idle)

theorem paces_outboundStep (step : c.outboundStep now = some d) : Paces now c d := by
  have gaveUp : Paces now c ({ c with queue := c.queue.written }.stopWriting now none) :=
    .inl ((keeps_stopWriting none _).after rfl)
  rw [outboundStep] at step
  split at step
  · cases step
    exact paces_writeOn c
  · split at step
    · cases step
      exact gaveUp
    · exact paces_writeSlices step
  · rename_i flushing
    split at step
    · cases step
      exact gaveUp
    · exact paces_flushOn flushing step
  · split at step
    · cases step
      exact .inl (keeps_stopWriting none c)
    · split at step
      · cases step
        exact (paces_writeOn { c with queue := c.queue.hear }).after rfl rfl rfl
      · split at step <;> cases step
        exact paces_writeOn c
  · rename_i shutting
    exact .inl (keeps_shutOn shutting step)
  · cases step

theorem sendsKeepAlive_writeOn (running : c.cancelled = false) (none : c.queue.packets = [])
    (auto : c.config.autoKeepAlive = true) (late : c.keepAliveDeadline ≤ now) :
    SendsKeepAlive now c (c.writeOn now) := by
  have due : (c.queue.isEmpty && c.keepAliveIsDue now) = true := by
    simp [SendQueue.isEmpty, none, keepAliveIsDue, auto, late]
  rw [writeOn, if_neg (by simp [running]), if_pos due]
  exact (originates_writeOn none auto late).sends

/-- A loop that waits with nothing to write sends the keep-alive that is due. -/
theorem exists_sendsKeepAlive {wake : Nat} (idle : c.outbound = .idle wake) (due : wake ≤ now)
    (running : c.cancelled = false) (none : c.queue.packets = [])
    (auto : c.config.autoKeepAlive = true) (late : c.keepAliveDeadline ≤ now) :
    ∃ d, c.outboundStep now = some d ∧ SendsKeepAlive now c d := by
  have goesOn : ¬ c.cancelled = true := by simp [running]
  rw [outboundStep]
  split <;> rename_i place <;> cases idle.symm.trans place
  rw [if_neg goesOn, if_pos due]
  split
  · have sends := sendsKeepAlive_writeOn (c := { c with queue := c.queue.hear }) running none auto
      late
    exact ⟨_, rfl, sends.times, sends.noted, sends.accepted, sends.enqueued⟩
  · exact ⟨_, rfl, sendsKeepAlive_writeOn running none auto late⟩

/-! ### Where a frame puts the deadline off -/

/-- No frame was handled, and the notes of what arrived are as they were. -/
structure Unmoved (c d : Connection) : Prop where
  handled : d.handledBodies = c.handledBodies
  activity : d.activity = c.activity

theorem Unmoved.of_talks (talks : Talks c d) (activity : d.activity = c.activity) :
    Unmoved c d := by
  have gains := gains_of_leaves (fun _ _ => not_isReceipt_of_isTalk) talks
  exact ⟨by rw [gains.handled, List.append_nil], activity⟩

theorem Unmoved.trans (first : Unmoved c d) (second : Unmoved d e) : Unmoved c e :=
  ⟨second.handled.trans first.handled, second.activity.trans first.activity⟩

/-- The place of the inbound loop does not matter. -/
theorem Unmoved.go (h : Unmoved c d) (place : Inbound) : Unmoved c { d with inbound := place } :=
  ⟨h.handled, h.activity⟩

theorem unmoved_stopReading (cause : Error) (c : Connection) :
    Unmoved c (c.stopReading now cause) := by
  refine .of_talks (passive_stopReading now cause c).idles.talks ?_
  have begun : (if cause.isEndOfStream then c.close true now endOfStream true
      else c.fail true now cause).1.activity = c.activity := by
    split
    · exact congrArg Machinery.activity (machinery_close ..)
    · exact congrArg Machinery.activity (machinery_fail ..)
  rw [stopReading]
  split
  · rfl
  · generalize (if cause.isEndOfStream then c.close true now endOfStream true
      else c.fail true now cause) = result at begun
    obtain ⟨d, _ | wait⟩ := result <;> exact begun

theorem unmoved_afterDispatch (event : Event) (c : Connection) :
    Unmoved c (afterDispatch (c.dispatch true now event)) := by
  have gains := gains_of_redeems (fun _ _ => not_isReceipt_of_isTalk)
    (talks_dispatch true now event c)
  have unmoved : Unmoved c (c.dispatch true now event).1 :=
    ⟨by rw [gains.handled, List.append_nil], congrArg Machinery.activity (machinery_dispatch ..)⟩
  generalize c.dispatch true now event = result at unmoved
  obtain ⟨d, _ | ⟨wait, packet⟩⟩ := result <;> exact unmoved.go _

theorem unmoved_deliver (event : Event) (c : Connection) : Unmoved c (c.deliver now event) := by
  rw [deliver]
  split
  · exact unmoved_afterDispatch event c
  · split
    · exact unmoved_afterDispatch event c
    · have logged : Unmoved c (c.log (.deferred event)) :=
        ⟨(recount_log handled? _ c).trans (List.append_nil _), rfl⟩
      exact logged.go _

/-- A frame is handled, and the time at which it arrived is noted. -/
structure Freshens (now : Nat) (c d : Connection) : Prop where
  handled : ∃ body, d.handledBodies = c.handledBodies ++ [body]
  activity : d.activity = { c.activity with lastReceived := now, hasReceived := true }

theorem Freshens.of_unmoved {body : Bytes}
    (h : Unmoved ((c.log (.handled body)).touchReceived now) d) : Freshens now c d :=
  ⟨⟨body, h.handled.trans (recount_log handled? _ c)⟩, h.activity⟩

theorem freshens_handleBody (body : Bytes) (c : Connection) :
    Unmoved c (c.handleBody now body) ∨ Freshens now c (c.handleBody now body) := by
  rw [handleBody]
  split
  · exact .inl (unmoved_stopReading _ c)
  · right
    dsimp only
    split
    · exact .of_unmoved (unmoved_deliver _ _)
    · split
      · exact .of_unmoved (unmoved_deliver _ _)
      · split
        · exact .of_unmoved (unmoved_stopReading _ _)
        · exact .of_unmoved (Unmoved.go ⟨rfl, rfl⟩ _)

theorem freshens_inboundStep (step : c.inboundStep now = some d) :
    Unmoved c d ∨ Freshens now c d := by
  rw [inboundStep] at step
  split at step
  · cases step
    exact .inl ⟨rfl, rfl⟩
  · split at step
    · cases step
      exact .inl ⟨rfl, rfl⟩
    · split at step
      · rename_i body rest _
        cases step
        rcases freshens_handleBody body { c with readAhead := rest } with unmoved | hears
        · exact .inl ⟨unmoved.handled, unmoved.activity⟩
        · exact .inr ⟨hears.handled, hears.activity⟩
      · cases step
        exact .inl (unmoved_stopReading _ c)
      · rw [readAhead?] at step
        split at step
        · cases step
          exact .inl ⟨rfl, rfl⟩
        · split at step <;> cases step <;> exact .inl (unmoved_stopReading _ c)
  · rename_i wait shown _
    split at step
    · left
      have proceeds : Unmoved c (c.proceedClose true now wait).1 :=
        .of_talks (passive_proceedClose true now wait c).idles.talks
          (congrArg Machinery.activity (machinery_proceedClose ..))
      split at step <;> rename_i eq <;> rw [eq] at proceeds <;> cases step
      · exact proceeds.go _
      · refine Unmoved.go (proceeds.trans ?_) _
        split
        · exact .of_talks (talks_showControl _ _)
            (congrArg Machinery.activity (machinery_showControl ..))
        · exact ⟨rfl, rfl⟩
    · cases step
  · cases step

/-! ### Whatever happens -/

theorem activity_call (call : Call) (c : Connection) : (call.act c).activity = c.activity := by
  cases call with
  | send packet => exact congrArg Machinery.activity (machinery_tryTo_send packet c)
  | handshake kind => exact congrArg Machinery.activity (machinery_tryTo_sendHandshake kind c)
  | register type =>
      simp only [Call.act, register]
      split <;> rfl

/-- What a happening has to do with the keep-alives of a connection. -/
inductive KeepAliveStep (now i : Nat) (happening : Happening) (c d : Connection) : Prop
  | rests : d.handledBodies = c.handledBodies → d.pulse = c.pulse →
      KeepAliveStep now i happening c d
  | hears {body : Bytes} : d.handledBodies = c.handledBodies ++ [body] →
      d.pulse = { c.pulse with lastReceived := now } → KeepAliveStep now i happening c d
  | originates : happening = .run (.outbound i) → d.handledBodies = c.handledBodies →
      Originates now c d → KeepAliveStep now i happening c d

theorem StepsBy.keepAliveStep (share : StepsBy now i happening c d) (valid : c.Valid closers) :
    KeepAliveStep now i happening c d := by
  cases share with
  | rests => exact .rests rfl rfl
  | inbound _ step =>
      have times := keepAliveTimes_of_moves (valid.moves_inboundStep step)
      rcases freshens_inboundStep step with ⟨handled, activity⟩ | ⟨⟨body, handled⟩, activity⟩
      · exact .rests handled (by rw [pulse, times, activity, pulse])
      · exact .hears handled (by rw [pulse, times, activity, pulse])
  | outbound at' step =>
      have handled := handledBodies_outboundStep step
      rcases paces_outboundStep step with keeps | originates
      · exact .rests handled keeps.pulse
      · exact .originates at' handled originates
  | @called call =>
      cases World.acts_call c call with
      | begins outcome =>
          refine .rests (handledBodies_call call c) ?_
          rw [pulse, keepAliveTimes_of_moves outcome.moves, activity_call, pulse]
  | acted _ moves machinery =>
      refine .rests ?_ (pulse_of_moves moves machinery)
      exact handledBodies_eq valid.coherent moves.changes (congrArg Machinery.source machinery)
        (congrArg Machinery.readAhead machinery)

/-- The outbound loop sends a keep-alive in a stretch, or none. -/
theorem StepsBy.sendsNoKeepAlive_or (share : StepsBy now i (.run (.outbound i)) c d) :
    SendsNoKeepAlive c d ∨ SendsKeepAlive now c d := by
  cases share with
  | rests => exact .inl (.refl c)
  | inbound runs | called runs | acted runs => cases runs
  | outbound _ step =>
      rcases paces_outboundStep step with keeps | originates
      · exact .inl keeps.sendsNoKeepAlive
      · exact .inr originates.sends

/-- The outbound loop waits for what it did, or for the deadline as it is now. -/
theorem StepsBy.waits (share : StepsBy now i happening c d) (valid : c.Valid closers) :
    d.outbound = c.outbound ∨ d.Waits now := by
  cases share with
  | rests => exact .inl rfl
  | inbound _ step => exact .inl (Sends.of_moves (valid.moves_inboundStep step)).outbound
  | outbound _ step =>
      rcases paces_outboundStep step with keeps | originates
      · exact .inr keeps.waits
      · exact .inr originates.waits
  | @called call =>
      cases World.acts_call c call with
      | begins outcome => exact .inl (Sends.of_moves outcome.moves).outbound
  | acted _ moves => exact .inl (Sends.of_moves moves).outbound

end Connection

namespace World

open Connection

/-- What starts the idle period of a connection anew in one happening, and when: a frame that is
handled, or a keep-alive that falls due. -/
def marks (i : Nat) (w : World) (happening : Happening) : List Nat :=
  let entries := gained (w.journal i) ((w.perform happening).journal i)
  (entries.filterMap Entry.handled?).map (fun _ => w.now) ++ entries.filterMap Entry.due?

variable {w : World} {i : Nat} {c d e : Connection} {happening : Happening}

theorem marks_eq (reached : w.Reachable) (here : w.conns[i]? = some c)
    (there : (w.perform happening).conns[i]? = some e) {bodies : List Bytes} {times : List Nat}
    (handled : e.handledBodies = c.handledBodies ++ bodies)
    (fell : e.keepAliveTimes = c.keepAliveTimes ++ times) :
    w.marks i happening = bodies.map (fun _ => w.now) ++ times := by
  obtain ⟨e', there', later⟩ := (reached.valid.perform happening).2 i c here
  obtain rfl : e' = e := Option.some.inj (there'.symm.trans there)
  rw [marks, journal_of_getElem? here, journal_of_getElem? there,
    filterMap_gained later.journal handled, filterMap_gained later.journal fell]

/-- The deadline of a connection counts from the latest mark, and a loop that waits does so for the
deadline that an earlier one gave. -/
structure Paced (settings : ConnectionConfig) (w : World) (marks : List Nat) (c : Connection) :
    Prop where
  config : c.config = settings
  since : c.idleSince ∈ marks
  latest : ∀ mark ∈ marks, mark ≤ c.idleSince
  past : c.idleSince ≤ w.now
  times : ∀ time ∈ c.keepAliveTimes, time ∈ marks
  waits : ∀ wake, c.outbound = .idle wake → settings.autoKeepAlive = true →
    ∃ mark ∈ marks, wake = c.idleDeadline mark

namespace Paced

variable {settings : ConnectionConfig} {marks : List Nat}

theorem start {setup : Setup} (given : setup.config = settings) {now : Nat} (here : w.now = now) :
    Paced settings w [now] (.start setup now) where
  config := given
  since := List.mem_singleton.mpr rfl
  latest := fun _ member => Nat.le_of_eq (List.mem_singleton.mp member)
  past := Nat.le_of_eq here.symm
  times := fun _ member => by cases member
  waits := fun _ idle => by cases idle

/-- Nothing happens that the deadline counts from. -/
theorem rests (h : Paced settings w marks c) (later : c.Later d) (same : d.pulse = c.pulse)
    (waits : d.outbound = c.outbound ∨ d.Waits w.now) {w' : World} (now : w.now ≤ w'.now) :
    Paced settings w' marks d := by
  have config := later.settings.1
  have idleSince := idleSince_congr same
  refine ⟨config.trans h.config, idleSince ▸ h.since, idleSince ▸ h.latest,
    idleSince ▸ Nat.le_trans h.past now, ?_, ?_⟩
  · rw [show d.keepAliveTimes = c.keepAliveTimes from congrArg Pulse.times same]
    exact h.times
  · intro wake idle auto
    rcases waits with place | waits
    · obtain ⟨mark, member, eq⟩ := h.waits wake (place.symm.trans idle) auto
      exact ⟨mark, member, eq.trans (idleDeadline_congr config mark).symm⟩
    · refine ⟨c.idleSince, h.since, ?_⟩
      rw [waits wake idle, idleWake, config, h.config, if_pos auto, keepAliveDeadline, idleSince]

/-- Something happens that the deadline counts from now. -/
theorem keepAliveStep (h : Paced settings w marks c) (later : c.Later d)
    (since : d.idleSince = w.now)
    (times : ∀ time ∈ d.keepAliveTimes, time ∈ c.keepAliveTimes ∨ time = w.now)
    (waits : d.outbound = c.outbound ∨ d.Waits w.now) {w' : World} (now : w.now ≤ w'.now) :
    Paced settings w' (marks ++ [w.now]) d := by
  have config := later.settings.1
  have recent : w.now ∈ marks ++ [w.now] := List.mem_append_right _ (List.mem_singleton.mpr rfl)
  refine ⟨config.trans h.config, since ▸ recent, ?_, since ▸ now, ?_, ?_⟩
  · intro mark member
    rw [since]
    rcases List.mem_append.mp member with old | new
    · exact Nat.le_trans (h.latest mark old) h.past
    · exact Nat.le_of_eq (List.mem_singleton.mp new)
  · intro time member
    rcases times time member with old | rfl
    · exact List.mem_append_left _ (h.times time old)
    · exact recent
  · intro wake idle auto
    rcases waits with place | waits
    · obtain ⟨mark, member, eq⟩ := h.waits wake (place.symm.trans idle) auto
      exact ⟨mark, List.mem_append_left _ member,
        eq.trans (idleDeadline_congr config mark).symm⟩
    · refine ⟨w.now, recent, ?_⟩
      rw [waits wake idle, idleWake, config, h.config, if_pos auto, keepAliveDeadline, since]

theorem perform (h : Paced settings w marks c) (reached : w.Reachable) (here : w.conns[i]? = some c)
    (there : (w.perform happening).conns[i]? = some e) (share : StepsBy w.now i happening c d)
    (tended : Tended d e) :
    Paced settings (w.perform happening) (marks ++ w.marks i happening) e := by
  have valid := reached.valid.conns i c here
  have now := now_le_perform reached.valid happening
  have later := Connection.Later.of_changes ((share.changes valid).trans tended.changes)
  have waits := share.waits valid
  have received : c.pulse.lastReceived ≤ w.now ∧ c.pulse.lastKeepAlive.getD 0 ≤ w.now := by
    have past := h.past
    rw [idleSince_eq] at past
    omega
  obtain ⟨source, sink, rfl⟩ := tended.eq
  cases share.keepAliveStep valid with
  | rests handled same =>
      have none : w.marks i happening = [] := marks_eq reached here there
        (handled.trans (List.append_nil _).symm)
        ((congrArg Pulse.times same).trans (List.append_nil _).symm)
      rw [none, List.append_nil]
      exact h.rests later same waits now
  | @hears body handled heard =>
      have times : d.keepAliveTimes = c.keepAliveTimes := congrArg Pulse.times heard
      have one : w.marks i happening = [w.now] := marks_eq reached here there handled
        (times.trans (List.append_nil _).symm)
      rw [one]
      refine h.keepAliveStep later ?_ (fun time member => .inl (times ▸ member)) waits now
      change d.idleSince = w.now
      rw [idleSince_eq, heard]
      exact Nat.max_eq_left received.2
  | originates _ handled originated =>
      have times : d.keepAliveTimes = c.keepAliveTimes ++ [w.now] :=
        congrArg Pulse.times originated.pulse
      have one : w.marks i happening = [w.now] := marks_eq reached here there
        (handled.trans (List.append_nil _).symm) times
      rw [one]
      refine h.keepAliveStep later ?_ (fun time member => ?_) waits now
      · change d.idleSince = w.now
        rw [idleSince_eq, originated.pulse]
        exact Nat.max_eq_right received.1
      · rcases List.mem_append.mp (times ▸ member) with old | new
        · exact .inl old
        · exact .inr (List.mem_singleton.mp new)

end Paced

end World

open Connection World

variable {w : World}

/-- The pace of keep-alives, in every run of a connection from its start. The reference `since` is
the latest of its marks: the start, the frames that were handled, whatever they were, and the
keep-alives before. A keep-alive falls due only in a stretch of the outbound loop that finds the
send queue empty, and not before one pace after every mark has passed; a pace is never shorter than
the shortest idle period, so neither a flood of frames nor a refused send makes the loop spin. One
packet is sent then, or refused where the connection is closing, and in no other stretch does the
loop send anything that the listener does not want to send. While the loop waits, it wakes no later
than the deadline, if the pace was the same after every mark, and then sends the keep-alive that is
due. All of this is meant where the clock can tell the time one pace after the last mark. -/
theorem keepAlives_paced (reached : w.Reachable) {opening : Session.Opening}
    {setup : Connection.Setup} (given : Session.setup opening = .ok setup)
    (auto : opening.config.autoKeepAlive = true) (happenings : List Happening) :
    let i := w.conns.length
    let begun := w.perform (.start opening)
    let after := begun.performAll happenings
    let marks := w.now :: annals (World.marks i) begun happenings
    let pace := opening.config.pace
    ∃ c since, after.conns[i]? = some c ∧ since ∈ marks ∧ (∀ mark ∈ marks, mark ≤ since) ∧
      (∀ time ∈ c.keepAliveTimes, time ∈ marks) ∧ ConnectionConfig.minIdle ≤ pace since ∧
      (∀ happening d, (after.perform happening).conns[i]? = some d →
        d.keepAliveTimes ≠ c.keepAliveTimes →
          happening = .run (.outbound i) ∧ c.queue.packets = [] ∧
          SendsKeepAlive after.now c d ∧
          (since + pace since < horizon → ∀ mark ∈ marks, mark + pace since ≤ after.now)) ∧
      (∀ d, (after.perform (.run (.outbound i))).conns[i]? = some d →
        d.keepAliveTimes = c.keepAliveTimes → SendsNoKeepAlive c d) ∧
      ((∀ mark ∈ marks, pace mark = pace since) → since + pace since < horizon →
        ∀ wake, c.outbound = .idle wake →
          wake ≤ c.keepAliveDeadline ∧
          (c.keepAliveDeadline ≤ after.now → c.cancelled = false → c.queue.packets = [] →
            ∃ d, c.outboundStep after.now = some d ∧ SendsKeepAlive after.now c d)) := by
  intro i begun after marks pace
  have started := getElem?_perform_start given w
  have now : begun.now = w.now := by
    simp only [begun, World.perform, given, World.start, queues_modifyQueueOf]
  obtain ⟨c, here, paced⟩ : ∃ c, after.conns[i]? = some c ∧ Paced opening.config after marks c :=
    (reached.perform (.start opening)).annals started
      (Paced.start (Session.config_setup given) now)
      (fun reached here there share tended paced => paced.perform reached here there share tended)
      happenings
  have settings := paced.config
  have reached' := (reached.perform (.start opening)).performAll happenings
  refine ⟨c, c.idleSince, here, paced.since, paced.latest, paced.times,
    opening.config.minIdle_le_pace _, ?_, ?_, ?_⟩
  · intro happening e there gained
    obtain ⟨d, share, tended⟩ := stepsBy_perform reached' here there
    obtain ⟨source, sink, rfl⟩ := tended.eq
    cases share.keepAliveStep (reached'.valid.conns i c here) with
    | rests _ same => exact absurd (congrArg Pulse.times same) gained
    | hears _ heard => exact absurd (congrArg Pulse.times heard) gained
    | originates at' _ originated =>
        have sends := originated.sends
        refine ⟨at', originated.none,
          ⟨sends.times, sends.noted, sends.accepted, sends.enqueued⟩, ?_⟩
        intro fits mark member
        have late := originated.late
        rw [keepAliveDeadline, idleDeadline_eq (settings ▸ fits), settings] at late
        have latest := paced.latest mark member
        change c.idleSince + pace c.idleSince ≤ after.now at late
        omega
  · intro e there same
    obtain ⟨d, share, tended⟩ := stepsBy_perform reached' here there
    obtain ⟨source, sink, rfl⟩ := tended.eq
    rcases share.sendsNoKeepAlive_or with none | one
    · exact ⟨none.times, none.noted, none.accepted⟩
    · have gained : c.keepAliveTimes ++ [after.now] = c.keepAliveTimes := one.times.symm.trans same
      simp at gained
  · intro same fits wake idle
    obtain ⟨mark, member, rfl⟩ := paced.waits wake idle auto
    have early : c.idleDeadline mark ≤ c.keepAliveDeadline :=
      idleDeadline_mono (paced.latest mark member) (settings ▸ same mark member) (settings ▸ fits)
    refine ⟨early, fun due running none => ?_⟩
    exact exists_sendsKeepAlive idle (Nat.le_trans early due) running none (settings ▸ auto) due

/-- A connection that keeps itself alive as often as it may. -/
def restless : Session.Opening :=
  { Session.Opening.plain with config := { idleTimeout := 0, autoKeepAlive := true } }

/-- What happens until a restless connection waits for its second keep-alive. -/
def untilSecond : List Happening :=
  [.run (.outbound 0), .pass 10] ++ Actor.times 5 (.outbound 0) ++ [.pass 10]

/-- A restless connection that waits for its second keep-alive. -/
def onceAlive : World :=
  ((World.empty 0).perform (.start restless)).performAll untilSecond

/-- The second keep-alive follows one pace after the first, which came one pace after the start. -/
theorem keepAlives_paced_restless : ∃ c, onceAlive.conns[0]? = some c ∧
    c.keepAliveTimes = [10] ∧ c.keepAliveDeadline = 20 ∧
    (∃ d, c.outboundStep 20 = some d ∧ d.keepAliveTimes = [10, 20]) ∧
    ∃ d, (onceAlive.perform (.run (.outbound 0))).conns[0]? = some d ∧
      SendsKeepAlive onceAlive.now c d ∧ 10 + 10 ≤ onceAlive.now := by
  obtain ⟨setup, given⟩ : ∃ setup, Session.setup restless = .ok setup := ⟨_, rfl⟩
  have reached : (World.empty 0).Reachable := .empty 0 []
  have marks : (World.empty 0).now :: annals (World.marks 0)
      ((World.empty 0).perform (.start restless)) untilSecond = [0, 10] := by rfl
  obtain ⟨c, since, here, member, -, -, -, paced, -, parked⟩ :=
    keepAlives_paced reached given rfl untilSecond
  have either : since = 0 ∨ since = 10 := by
    have member : since ∈ [0, 10] := marks ▸ member
    simpa using member
  have pace : restless.config.pace since = 10 := by
    rcases either with rfl | rfl <;> decide
  have fits : since + restless.config.pace since < horizon := by
    rcases either with rfl | rfl <;> decide
  have facts : onceAlive.conns[0]?.map
      (fun c => (c.outbound, c.cancelled, c.queue.isEmpty, c.keepAliveTimes, c.keepAliveDeadline)) =
      some (.idle 20, false, true, [10], 20) := by rfl
  have next : (onceAlive.perform (.run (.outbound 0))).conns[0]?.map (·.keepAliveTimes) =
      some [10, 20] := by rfl
  change onceAlive.conns[0]? = some c at here
  rw [here, Option.map_some, Option.some.injEq] at facts
  simp only [Prod.mk.injEq, SendQueue.isEmpty, List.isEmpty_iff] at facts
  obtain ⟨idle, running, none, times, deadline⟩ := facts
  obtain ⟨d, there, times'⟩ := Option.map_eq_some_iff.mp next
  obtain ⟨-, -, sends, spaced⟩ := paced _ d there (by rw [times, times']; decide)
  refine ⟨c, here, times, deadline, ?_, d, there, sends, ?_⟩
  · have same : ∀ mark ∈ [0, 10], restless.config.pace mark = 10 := by decide
    obtain ⟨-, originates⟩ := parked (pace ▸ marks ▸ same) fits 20 idle
    obtain ⟨e, step, later⟩ := originates (Nat.le_of_eq deadline) running none
    exact ⟨e, step, by rw [later.times, times]; rfl⟩
  · have bound := spaced fits 10 (marks ▸ (by decide : 10 ∈ [0, 10]))
    rw [pace] at bound
    exact bound

end PacketWire
