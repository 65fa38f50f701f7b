import PacketWire.Proofs.Hooks
import PacketWire.Proofs.Run

/-!
# What a connection says by itself

A connection that handles no frame and hands on no event may still send: what its listener wants to
send in a hook that tells of a failure, and keep-alives. `Idles` says that it did nothing more than
that, and learned nothing of the other side. That is true of everything that closing, the outbound
loop and the errands of callers do. `Passive` allows no keep-alive either: only the outbound loop
sends of its own accord, and it does so in one place. `Talks` allows any hook.
-/

namespace PacketWire

/-- The version of a connection and the application's listener: all that decides what it says. -/
structure Voice where
  version : Int32
  listener : Option Listener

/-- What the application's listener may send. -/
inductive Voice.Utters (v : Voice) : Packet → Prop
  | send {n : Nat} {call : HookCall} {packet : Packet} :
      .send packet ∈ (v.listener.getD .silent).react n call → v.Utters packet
  | greet {n : Nat} {call : HookCall} : .handshake ∈ (v.listener.getD .silent).react n call →
      v.Utters (.handshake .request v.version)

namespace Entry

/-- What a connection may do where no frame is handled and no event handed on. -/
def IsTalk (v : Voice) : Entry → Prop
  | accepted packet => v.Utters packet ∨ packet = .keepAlive false
  | handled _ => False
  | deferred _ => False
  | dispatched _ => False
  | _ => True

/-- Here the listener is told of nothing that was received. -/
def IsIdle (v : Voice) (entry : Entry) : Prop :=
  entry.IsTalk v ∧ ∀ call state results, entry = .hook call state results →
    call.isNotification = true

/-- Here nothing is sent but what the listener wants to send. -/
def IsPassive (v : Voice) (entry : Entry) : Prop :=
  entry.IsIdle v ∧ ∀ packet, entry = .accepted packet → v.Utters packet

end Entry

/-- All that matters here of a connection: its voice, what it knows of the other side, and its
journal. -/
structure Trail where
  voice : Voice
  remoteVersion : Option Int32
  versionApproved : Bool
  journal : List Entry

namespace Connection

def voice (c : Connection) : Voice :=
  ⟨c.config.protocolVersion, c.listener⟩

def trail (c : Connection) : Trail :=
  ⟨c.voice, c.remoteVersion, c.versionApproved, c.journal⟩

end Connection

/-- Only entries of one kind are added, and nothing is learned of the other side. -/
def Leaves (kind : Voice → Entry → Prop) (t u : Trail) : Prop :=
  ∃ entries, u = { t with journal := entries ++ t.journal } ∧ ∀ entry ∈ entries, kind t.voice entry

namespace Leaves

variable {kind other : Voice → Entry → Prop} {t u v : Trail} {c d e : Connection}

theorem of_eq (same : u = t) : Leaves kind t u :=
  ⟨[], same, fun _ member => by cases member⟩

theorem trans (first : Leaves kind t u) (second : Leaves kind u v) : Leaves kind t v := by
  obtain ⟨earlier, rfl, own⟩ := first
  obtain ⟨later, rfl, own'⟩ := second
  refine ⟨later ++ earlier, by rw [List.append_assoc], ?_⟩
  intro entry member
  rcases List.mem_append.mp member with new | old
  · exact own' entry new
  · exact own entry old

theorem imp (h : Leaves kind t u) (weaker : ∀ entry, kind t.voice entry → other t.voice entry) :
    Leaves other t u := by
  obtain ⟨entries, eq, own⟩ := h
  exact ⟨entries, eq, fun entry member => weaker entry (own entry member)⟩

theorem voice_eq (h : Leaves kind t u) : u.voice = t.voice := by
  obtain ⟨entries, rfl, own⟩ := h
  rfl

theorem log {entry : Entry} (own : kind c.voice entry) :
    Leaves kind c.trail (c.log entry).trail :=
  ⟨[entry], rfl, fun _ member => List.mem_singleton.mp member ▸ own⟩

/-- After something that leaves no trail. -/
theorem after (h : Leaves kind d.trail e.trail) (same : d.trail = c.trail) :
    Leaves kind c.trail e.trail :=
  same ▸ h

end Leaves

namespace Connection

open Entry

abbrev Idles (c d : Connection) : Prop := Leaves IsIdle c.trail d.trail

abbrev Passive (c d : Connection) : Prop := Leaves IsPassive c.trail d.trail

abbrev Talks (c d : Connection) : Prop := Leaves IsTalk c.trail d.trail

variable {c d e : Connection} {kind : Voice → Entry → Prop} {now : Nat}

theorem Idles.talks (h : Idles c d) : Talks c d :=
  h.imp fun _ own => own.1

theorem Passive.idles (h : Passive c d) : Idles c d :=
  h.imp fun _ own => own.1

/-- All that was sent is what the listener wanted to send. -/
theorem Passive.exists_accepted (h : Passive c d) :
    ∃ packets, d.acceptedPackets = c.acceptedPackets ++ packets ∧
      ∀ packet ∈ packets, c.voice.Utters packet := by
  obtain ⟨entries, eq, own⟩ := h
  refine ⟨_, recount_eq_append accepted? (congrArg Trail.journal eq), fun packet member => ?_⟩
  obtain ⟨entry, member, sent⟩ := List.mem_filterMap.mp member
  have wanted := (own entry (List.mem_reverse.mp member)).2 packet
  cases entry <;> cases sent
  exact wanted rfl

/-- Entries that are no hooks. -/
theorem isIdle_of_isTalk {v : Voice} {entry : Entry} (talk : entry.IsTalk v)
    (plain : hook? entry = none) : entry.IsIdle v := by
  refine ⟨talk, fun call state results eq => ?_⟩
  rw [eq] at plain
  cases plain

/-- Entries that are neither hooks nor packets sent. -/
theorem isPassive_of_isTalk {v : Voice} {entry : Entry} (talk : entry.IsTalk v)
    (plain : hook? entry = none) (unsent : accepted? entry = none) : entry.IsPassive v := by
  refine ⟨isIdle_of_isTalk talk plain, fun packet eq => ?_⟩
  rw [eq] at unsent
  cases unsent

theorem isPassive_of_utters {v : Voice} {packet : Packet} (wanted : v.Utters packet) :
    (accepted packet).IsPassive v := by
  refine ⟨isIdle_of_isTalk (.inl wanted) rfl, ?_⟩
  rintro _ ⟨⟩
  exact wanted

/-! ### Sending and hooks -/

theorem leaves_enqueue {packet : Packet} (queues : kind c.voice (.enqueued packet)) :
    Leaves kind c.trail (c.enqueue packet).trail :=
  .after (d := { c with queue := c.queue.push packet }) (.log queues) rfl

theorem leaves_tryTo_send {packet : Packet} (accepts : kind c.voice (.accepted packet))
    (queues : kind c.voice (.enqueued packet)) :
    Leaves kind c.trail (tryTo (c.send packet) c).trail := by
  cases active : c.isActive with
  | true =>
      rw [send_eq_ok active]
      exact Leaves.trans (.log accepts) (leaves_enqueue queues)
  | false =>
      rw [send_eq_error active]
      exact .of_eq rfl

theorem leaves_tryTo_sendHandshake {asks : HandshakeKind}
    (accepts : kind c.voice (.accepted (.handshake asks c.voice.version)))
    (queues : kind c.voice (.enqueued (.handshake asks c.voice.version))) :
    Leaves kind c.trail (tryTo (c.sendHandshake asks) c).trail := by
  have sent := leaves_tryTo_send accepts queues
  cases active : c.isActive with
  | true =>
      rw [sendHandshake, send_eq_ok active]
      rw [send_eq_ok active] at sent
      exact sent.trans (.of_eq rfl)
  | false =>
      rw [sendHandshake, send_eq_error active]
      exact .of_eq rfl

theorem passive_react {n : Nat} {call : HookCall} {reaction : Reaction}
    (wanted : reaction ∈ (c.listener.getD .silent).react n call) :
    Passive c (c.react reaction).2 := by
  cases reaction with
  | send packet =>
      exact leaves_tryTo_send (isPassive_of_utters (.send wanted))
        (isPassive_of_isTalk trivial rfl rfl)
  | handshake =>
      exact leaves_tryTo_sendHandshake (isPassive_of_utters (.greet wanted))
        (isPassive_of_isTalk trivial rfl rfl)
  | close => exact .log (isPassive_of_isTalk trivial rfl rfl)

theorem passive_reactAll {n : Nat} {call : HookCall} {reactions : List Reaction}
    (wanted : reactions ⊆ (c.listener.getD .silent).react n call) :
    Passive c (reactAll reactions c).2 := by
  induction reactions generalizing c with
  | nil => exact .of_eq rfl
  | cons reaction reactions ih =>
      obtain ⟨first, rest⟩ := List.cons_subset.mp wanted
      have reacts := passive_react first
      have same : (c.react reaction).2.listener = c.listener :=
        congrArg Voice.listener (Leaves.voice_eq reacts)
      exact reacts.trans (ih (same ▸ rest))

/-- A call of the listener is its actions and then one entry. -/
theorem exists_reacts (call : HookCall) (c : Connection) : ∃ d, Passive c d ∧
    ∃ results, c.callHook call =
      { d with hookCalls := d.hookCalls + 1 }.log (.hook call c.state results) :=
  ⟨_, passive_reactAll (List.Subset.refl _), _, rfl⟩

/-- Any call of the listener. -/
theorem talks_callHook (call : HookCall) (c : Connection) : Talks c (c.callHook call) := by
  obtain ⟨d, reacts, results, eq⟩ := exists_reacts call c
  have logged : Talks { d with hookCalls := d.hookCalls + 1 }
      ({ d with hookCalls := d.hookCalls + 1 }.log (.hook call c.state results)) := .log trivial
  rw [eq]
  exact reacts.idles.talks.trans (.after logged rfl)

theorem passive_callHook {call : HookCall} (told : call.isNotification = true) (c : Connection) :
    Passive c (c.callHook call) := by
  obtain ⟨d, reacts, results, eq⟩ := exists_reacts call c
  have logged : Passive { d with hookCalls := d.hookCalls + 1 }
      ({ d with hookCalls := d.hookCalls + 1 }.log (.hook call c.state results)) := by
    refine .log ⟨⟨trivial, ?_⟩, by rintro _ ⟨⟩⟩
    rintro _ _ _ ⟨⟩
    exact told
  rw [eq]
  exact reacts.trans (.after logged rfl)

theorem talks_showControl (packet : Packet) (c : Connection) : Talks c (c.showControl packet) := by
  rw [showControl]
  split
  · exact talks_callHook _ c
  · exact .of_eq rfl

/-! ### Closing -/

theorem passive_startClosing (message : String) (expected : Bool) (c : Connection) :
    Passive c (c.startClosing message expected) := by
  have told : Passive c ({ c with state := .closing }.notifyClosed message expected) := by
    rw [notifyClosed]
    split
    · exact .of_eq rfl
    · exact .after (d := { c with state := .closing, closeNotified := true })
        (passive_callHook rfl _) rfl
  exact told.trans (leaves_enqueue (isPassive_of_isTalk trivial rfl rfl))

theorem passive_markClosed (c : Connection) : Passive c c.markClosed :=
  .after (d := { c with state := .closed }) (.log (isPassive_of_isTalk trivial rfl rfl)) rfl

theorem passive_closeAfter (loops : List Loop) (c : Connection) :
    Passive c (c.closeAfter loops).1 := by
  rw [closeAfter]
  split
  · exact passive_markClosed c
  · exact .of_eq rfl

theorem passive_proceedClose (onLoop : Bool) (now : Nat) (wait : CloseWait) (c : Connection) :
    Passive c (c.proceedClose onLoop now wait).1 := by
  cases wait with
  | joining loops => exact passive_closeAfter loops c
  | draining deadline wake =>
      have told : Passive c { c with cancelled := true } := .of_eq rfl
      simp only [proceedClose]
      split
      · split
        · exact told.trans (passive_markClosed _)
        · have taken : Passive c { c with cancelled := true }.takeLoops.2 := .of_eq rfl
          exact taken.trans (passive_closeAfter _ _)
      · exact .of_eq rfl

theorem passive_close (onLoop : Bool) (now : Nat) (message : String) (expected : Bool)
    (c : Connection) : Passive c (c.close onLoop now message expected).1 := by
  rw [close]
  split
  · exact (passive_startClosing message expected c).trans (passive_proceedClose onLoop now _ _)
  · exact .of_eq rfl

theorem passive_fail (onLoop : Bool) (now : Nat) (cause : Error) (c : Connection) :
    Passive c (c.fail onLoop now cause).1 := by
  rw [fail]
  split
  · exact .of_eq rfl
  · refine .after (d := { c with failureNotified := true }) ?_ rfl
    exact (passive_callHook rfl _).trans (passive_close onLoop now _ false _)

/-! ### The outbound loop -/

theorem passive_stopWriting (now : Nat) (cause : Option Error) (c : Connection) :
    Passive c (c.stopWriting now cause) := by
  cases cause with
  | none => exact .of_eq rfl
  | some cause =>
      have stopped : Passive c { c with outboundStopped := true } := .of_eq rfl
      simp only [stopWriting]
      split
      · exact .of_eq rfl
      · split
        · exact stopped.trans ((passive_close true now endOfStream true _).trans (.of_eq rfl))
        · exact stopped.trans ((passive_fail true now cause _).trans (.of_eq rfl))

theorem passive_failWriting (now : Nat) (cause : Error) (c : Connection) :
    Passive c (c.failWriting now cause) :=
  .after (d := { c with queue := c.queue.written }) (passive_stopWriting now (some cause) _) rfl

theorem passive_takePacket (now : Nat) (c : Connection) : Passive c (c.takePacket now) := by
  rw [takePacket]
  split
  · exact .of_eq rfl
  · rename_i packet queue _
    split
    · exact .after (d := { c with queue }) (passive_failWriting now _ _) rfl
    · exact .of_eq rfl

/-- A keep-alive that is due is the only packet that a connection sends by itself. -/
theorem idles_originate (now : Nat) (c : Connection) : Idles c (c.originate now) := by
  have due : Idles c ({ c with
      activity := { c.activity with lastKeepAlive := some now } }.log (.keepAliveDue now)) :=
    .after (.log (isIdle_of_isTalk trivial rfl)) rfl
  exact due.trans (leaves_tryTo_send (isIdle_of_isTalk (.inr rfl) rfl)
    (isIdle_of_isTalk trivial rfl))

theorem idles_writeOn (now : Nat) (c : Connection) : Idles c (c.writeOn now) := by
  rw [writeOn]
  split
  · exact (passive_stopWriting now none c).idles
  · split
    · exact (idles_originate now c).trans ((passive_takePacket now _).idles)
    · exact (passive_takePacket now c).idles

theorem idles_finishPacket (now : Nat) (c : Connection) : Idles c (c.finishPacket now) :=
  .after (idles_writeOn now _) rfl

theorem idles_afterFrame (now : Nat) (c : Connection) : Idles c (c.afterFrame now) := by
  rw [afterFrame]
  split
  · exact .of_eq rfl
  · exact idles_finishPacket now c

theorem idles_writeSlices {slices : List Bytes} (step : c.writeSlices now slices = some d) :
    Idles c d := by
  unfold writeSlices at step
  split at step
  · cases step
    exact idles_afterFrame now c
  · split at step
    · cases step
    · cases step
      exact (passive_failWriting now _ c).idles
    · rename_i left buffer sink _
      dsimp only at step
      split at step <;> cases step
      · exact .after (d := { c with buffer, sink }) (idles_afterFrame now _) rfl
      · exact .of_eq rfl
      · exact .of_eq rfl

theorem idles_flushOn (step : c.flushOn now = some d) : Idles c d := by
  rw [flushOn] at step
  split at step <;> split at step <;> cases step
  · exact (passive_failWriting now _ c).idles
  · exact .after (idles_finishPacket now _) rfl
  · exact (passive_failWriting now _ c).idles
  · exact .of_eq rfl

theorem idles_shutOn {deadline : Nat} (step : c.shutOn now deadline = some d) : Idles c d := by
  cases shuts_of_shutOn step <;> exact .of_eq rfl

theorem idles_outboundStep (step : c.outboundStep now = some d) : Idles c d := by
  have gaveUp : Idles c ({ c with queue := c.queue.written }.stopWriting now none) :=
    .of_eq rfl
  rw [outboundStep] at step
  split at step
  · cases step
    exact idles_writeOn now c
  · split at step
    · cases step
      exact gaveUp
    · exact idles_writeSlices step
  · split at step
    · cases step
      exact gaveUp
    · exact idles_flushOn step
  · split at step
    · cases step
      exact (passive_stopWriting now none c).idles
    · split at step
      · cases step
        exact .after (d := { c with queue := c.queue.hear }) (idles_writeOn now _) rfl
      · split at step <;> cases step
        exact idles_writeOn now c
  · exact idles_shutOn step
  · cases step

/-! ### The end of the inbound loop, and errands -/

theorem passive_stopReading (now : Nat) (cause : Error) (c : Connection) :
    Passive c (c.stopReading now cause) := by
  have begun : Passive c (if cause.isEndOfStream then c.close true now endOfStream true
      else c.fail true now cause).1 := by
    split
    · exact passive_close true now endOfStream true c
    · exact passive_fail true now cause c
  rw [stopReading]
  split
  · exact .of_eq rfl
  · generalize (if cause.isEndOfStream then c.close true now endOfStream true
      else c.fail true now cause) = result at begun
    obtain ⟨d, _ | wait⟩ := result
    · exact begun.trans (.of_eq rfl)
    · exact begun.trans (.of_eq rfl)

theorem passive_errandStep {errand : Errand} {wait left : Option CloseWait}
    (step : World.errandStep now c errand wait = some (d, left)) : Passive c d := by
  cases errand with
  | close i =>
      cases wait with
      | none =>
          have closed := passive_close false now closedLocally true c
          rwa [show c.close false now closedLocally true = (d, left) from Option.some.inj step]
            at closed
      | some wait =>
          have proceeded := passive_proceedClose false now wait c
          simp only [World.errandStep] at step
          split at step
          · rwa [Option.some.inj step] at proceeded
          · cases step
  | join i =>
      cases wait with
      | none =>
          simp only [World.errandStep] at step
          split at step <;> cases step <;> exact .of_eq rfl
      | some wait =>
          simp only [World.errandStep] at step
          split at step
          · split at step
            · cases step
              exact .of_eq rfl
            · split at step <;> cases step <;> exact .of_eq rfl
          · cases step

end Connection

end PacketWire
