import Mathlib.Logic.Relation
import PacketWire.Proofs.Hooks
import PacketWire.Proofs.Reading

/-!
# What can happen to a connection

`Move` lists everything that the inbound loop, the callers and the tasks of others do to a
connection, in pieces that are as small as the invariants allow: leaving `active` is one piece,
together with the hooks that tell of it. Every operation is a sequence of such pieces, so an
invariant has to be checked for each of them once. What only the outbound loop does is not among
them.

A close that has to wait is in one of two places, and `CloseWait.Fits` says what is true of the
connection in either.
-/

namespace PacketWire

namespace Event

/-- The id that an event carries. -/
def id : Event → PacketId
  | .packet p => p.id
  | .unknown id => id

end Event

namespace Registry

/-- Every entry stands under the id of its own packets. -/
def Sound (r : Registry) : Prop :=
  ∀ entry ∈ r.entries, entry.prototype.id = entry.id

theorem mem_insertEntry {entry new : Entry} {entries : List Entry}
    (h : entry ∈ insertEntry new entries) : entry = new ∨ entry ∈ entries := by
  induction entries with
  | nil => exact .inl (by simpa [insertEntry] using h)
  | cons first rest ih =>
      simp only [insertEntry] at h
      split at h
      · simpa using h
      · split at h
        · rcases List.mem_cons.mp h with same | old
          · exact .inl same
          · exact .inr (List.mem_cons_of_mem _ old)
        · rcases List.mem_cons.mp h with same | old
          · exact .inr (same ▸ List.mem_cons_self)
          · exact (ih old).imp_right (List.mem_cons_of_mem _)

theorem Sound.insert {r : Registry} (h : r.Sound) {id : PacketId} {prototype : Packet}
    (own : prototype.id = id) (name : String) : (r.insert id name prototype).Sound := by
  intro entry member
  rcases mem_insertEntry member with rfl | old
  · exact own
  · exact h entry old

theorem Sound.registerType {r r' : Registry} (h : r.Sound) {a : Announcement}
    (registered : r.registerType a = .ok r') : r'.Sound := by
  rw [Registry.registerType, Registry.register] at registered
  split at registered
  · cases registered
  · split at registered
    · rename_i own
      cases registered
      exact h.insert own a.name
    · cases registered

theorem sound_empty : empty.Sound := by
  intro entry member
  cases member

theorem sound_control : control.Sound :=
  ((sound_empty.insert (Packet.id_handshake _ _) _).insert (Packet.id_close _) _).insert
    (Packet.id_keepAlive _) _

theorem Sound.id_of_create {r : Registry} (h : r.Sound) {id : PacketId} {prototype : Packet}
    (created : r.create id = some prototype) : prototype.id = id := by
  obtain ⟨entry, found, rfl⟩ := Option.map_eq_some_iff.mp created
  rw [h entry (List.mem_of_find?_eq_some found)]
  simpa using List.find?_some found

end Registry

/-- Reading a payload changes the values of a packet but not what it is. -/
@[simp] theorem Packet.id_decode (packet : Packet) (d : Decoder) :
    (packet.decode d).packet.id = packet.id := by
  cases packet with
  | handshake kind version =>
      simp only [Packet.decode]
      split
      · rfl
      · split
        · rfl
        · split <;> rfl
  | close message =>
      simp only [Packet.decode]
      split <;> rfl
  | keepAlive response =>
      simp only [Packet.decode]
      split <;> rfl
  | app type values => rfl

namespace Connection

/-- A frame with the id of this event was handled. -/
def HasReceived (c : Connection) (event : Event) : Prop :=
  ∃ body ∈ c.handledBodies, Frame.id? body = some event.id

/-- The packet types that the connection knows make this event of the body of a frame. -/
def Understands (c : Connection) (body : Bytes) (event : Event) : Prop :=
  ∃ r : Reader, r.registry = c.registry ∧ r.judge body = .event event

/-- One piece of what anybody but the outbound loop does to a connection. -/
inductive Move : Connection → Connection → Prop
  /-- Something is sent; no hook asks for a close here. -/
  | chat {c d : Connection} {packets : List Packet} {entries : List Entry} :
      Chat c d packets entries → (.closeRequested ∈ d.journal → .closeRequested ∈ c.journal) →
      Move c d
  /-- A hook that tells of a packet. -/
  | hook (c : Connection) (call : HookCall) : call.isNotification = false → Move c (c.callHook call)
  | hear (c : Connection) (version : Int32) : Move c (c.setRemoteVersion version)
  | touch (c : Connection) (now : Nat) : Move c (c.touchReceived now)
  | register {c : Connection} {a : Announcement} {registry : Registry} :
      c.registry.registerType a = .ok registry → Move c { c with registry }
  | readAhead {c : Connection} {chunk : Bytes} {chunks : List Bytes} :
      c.source.chunks = chunk :: chunks →
      Move c { c with source := { c.source with chunks }, readAhead := c.readAhead ++ chunk }
  | frame {c : Connection} {body rest : Bytes} :
      Frame.next c.config.maxFrameLength c.readAhead = .complete body rest →
      Move c ({ c with readAhead := rest }.log (.handled body))
  /-- The event of the frame that was handled just now goes to the work queue. -/
  | defer {c : Connection} {event : Event} {body : Bytes} {before : List Entry} :
      c.isDeferred = true → c.state ≠ .closed → c.journal = .handled body :: before →
      c.Understands body event → c.HasReceived event → Move c (c.log (.deferred event))
  | dispatch {c : Connection} {event : Event} :
      c.HasReceived event ∨ .deferred event ∈ c.journal → Move c (c.log (.dispatched event))
  | go (c : Connection) (inbound : Inbound) : Move c { c with inbound }
  /-- Closing begins without a failure. -/
  | leave {c : Connection} (message : String) : c.isActive = true →
      Move c (c.startClosing message true)
  /-- A failure is told of, and closing begins. -/
  | fail {c : Connection} (cause : Error) : c.isActive = true →
      Move c (({ c with failureNotified := true }.callHook (.failed cause)).startClosing
        cause.message false)
  | cancel {c : Connection} : c.isActive = false → Move c { c with cancelled := true }
  | takeLoops (c : Connection) : Move c { c with unjoined := [] }
  | markClosed {c : Connection} : c.state = .closing → c.cancelled = true → Move c c.markClosed

/-- Any number of pieces. -/
abbrev Moves : Connection → Connection → Prop := Relation.ReflTransGen Move

/-- One piece of what anybody does to a connection, the outbound loop and the transport included.
Here it does not matter what the outbound loop makes of its queue and its buffer, but bytes that
the sink took stay taken. -/
inductive Change : Connection → Connection → Prop
  | move {c d : Connection} : Move c d → Change c d
  | feed (c : Connection) (chunk : Bytes) : Change c { c with source := c.source.feed chunk }
  | finish (c : Connection) (ending : Ending) :
      Change c { c with source := c.source.finish ending }
  | due (c : Connection) (now : Nat) : Change c (c.log (.keepAliveDue now))
  | write (c : Connection) (queue : SendQueue) (outbound : Outbound) (outboundStopped : Bool)
      (activity : Activity) : Change c { c with queue, outbound, outboundStopped, activity }
  | place (c : Connection) (buffer : WriteBuffer) {sink : Sink} : c.sink.taken <+: sink.taken →
      Change c { c with buffer, sink }

abbrev Changes : Connection → Connection → Prop := Relation.ReflTransGen Change

theorem Moves.changes {c d : Connection} (moves : Moves c d) : Changes c d :=
  Relation.ReflTransGen.mono (fun _ _ move => Change.move move) c d moves

end Connection

/-- What is true of a connection while a close of it waits here. -/
def CloseWait.Fits (c : Connection) : CloseWait → Prop
  | draining .. => c.state = .closing
  | joining _ => c.state = .closing ∧ c.cancelled = true

theorem CloseWait.Fits.state_eq {c : Connection} {wait : CloseWait} (h : wait.Fits c) :
    c.state = .closing := by
  cases wait with
  | draining => exact h
  | joining => exact h.1

namespace Connection

/-- What going on with a close of `c` leaves: a close that waits, or a closed connection. -/
inductive Closes (c : Connection) : Connection × Option CloseWait → Prop
  | waits {d : Connection} {wait : CloseWait} : Moves c d → wait.Fits d → Closes c (d, some wait)
  | ends {d : Connection} : Moves c d → d.state = .closed → Closes c (d, none)

/-- What an operation leaves that may begin a close. -/
inductive Outcome (c : Connection) : Connection × Option CloseWait → Prop
  /-- No close began, and nothing was told of one. -/
  | calm {d : Connection} : Moves c d → d.standing = c.standing → Outcome c (d, none)
  | closes {result : Connection × Option CloseWait} : c.isActive = true → Closes c result →
      Outcome c result

variable {c d : Connection}

theorem isActive_eq_false (h : c.state ≠ .active) : c.isActive = false := by
  simp [isActive, h]

theorem state_eq_active (h : c.isActive = true) : c.state = .active := by
  simpa [isActive] using h

theorem state_startClosing (message : String) (expected : Bool) (c : Connection) :
    (c.startClosing message expected).state = .closing :=
  congrArg Standing.state (standing_startClosing message expected c)

theorem Closes.after {result : Connection × Option CloseWait} (first : Moves c d)
    (h : Closes d result) : Closes c result := by
  cases h with
  | waits moves fits => exact .waits (first.trans moves) fits
  | ends moves closed => exact .ends (first.trans moves) closed

theorem closes_closeAfter (loops : List Loop) (closing : c.state = .closing)
    (cancelled : c.cancelled = true) : Closes c (c.closeAfter loops) := by
  rw [closeAfter]
  split
  · exact .ends (.single (Move.markClosed closing cancelled)) rfl
  · exact .waits .refl ⟨closing, cancelled⟩

theorem closes_proceedClose (onLoop : Bool) (now : Nat) {wait : CloseWait} (fits : wait.Fits c) :
    Closes c (c.proceedClose onLoop now wait) := by
  cases wait with
  | joining loops => exact closes_closeAfter loops fits.1 fits.2
  | draining deadline wake =>
      have closing : c.state = .closing := fits
      have cancel : Moves c { c with cancelled := true } :=
        .single (Move.cancel (isActive_eq_false (by simp [closing])))
      simp only [proceedClose]
      split
      · split
        · exact .ends (cancel.tail (Move.markClosed closing rfl)) rfl
        · exact .after (cancel.tail (Move.takeLoops _))
            (closes_closeAfter _ (show c.state = .closing from closing) rfl)
      · exact .waits .refl fits

/-- Once closing has begun, the rest is going on with it. -/
theorem Closes.of_startClosing {message : String} {expected : Bool} (onLoop : Bool)
    (now deadline wake : Nat) (first : Moves c (d.startClosing message expected)) :
    Closes c ((d.startClosing message expected).proceedClose onLoop now
      (.draining deadline wake)) :=
  .after first (closes_proceedClose onLoop now
    (show (CloseWait.draining deadline wake).Fits _ from state_startClosing message expected d))

theorem outcome_close (onLoop : Bool) (now : Nat) (message : String) (c : Connection) :
    Outcome c (c.close onLoop now message true) := by
  rw [close]
  split
  · rename_i active
    exact .closes active (.of_startClosing onLoop now _ _ (.single (Move.leave message active)))
  · exact .calm .refl rfl

theorem outcome_fail (onLoop : Bool) (now : Nat) (cause : Error) (c : Connection) :
    Outcome c (c.fail onLoop now cause) := by
  rw [fail]
  split
  · exact .calm .refl rfl
  · rename_i h
    have active : c.isActive = true := by simp at h; exact h.1
    have still : ({ c with failureNotified := true }.callHook (.failed cause)).isActive = true := by
      have := congrArg Standing.state
        (standing_callHook (.failed cause) { c with failureNotified := true })
      simpa [isActive, standing] using this.trans (state_eq_active active)
    simp only [close, if_pos still]
    exact .closes active (.of_startClosing onLoop now _ _ (.single (Move.fail cause active)))

theorem Outcome.after {result : Connection × Option CloseWait} (first : Moves c d)
    (same : d.standing = c.standing) (h : Outcome d result) : Outcome c result := by
  have active : d.isActive = c.isActive := by
    simp only [isActive, show d.state = c.state from congrArg Standing.state same]
  cases h with
  | calm moves calm => exact .calm (first.trans moves) (calm.trans same)
  | closes wasActive closes => exact .closes (active ▸ wasActive) (closes.after first)

/-- A piece that changes neither the state nor what was told of it may follow. -/
theorem Closes.tail {wait : Option CloseWait} {e : Connection} (h : Closes c (d, wait))
    (move : Move d e) (same : e.standing = d.standing) : Closes c (e, wait) := by
  have state : e.state = d.state := congrArg Standing.state same
  have cancelled : e.cancelled = d.cancelled := congrArg Standing.cancelled same
  cases h with
  | ends moves closed => exact .ends (moves.tail move) (state.trans closed)
  | waits moves fits =>
      refine .waits (moves.tail move) ?_
      simpa only [CloseWait.Fits, state, cancelled] using fits

theorem Outcome.tail {wait : Option CloseWait} {e : Connection} (h : Outcome c (d, wait))
    (move : Move d e) (same : e.standing = d.standing) : Outcome c (e, wait) := by
  cases h with
  | calm moves calm => exact .calm (moves.tail move) (same.trans calm)
  | closes active closes => exact .closes active (closes.tail move same)

theorem Outcome.moves {result : Connection × Option CloseWait} (h : Outcome c result) :
    Moves c result.1 := by
  cases h with
  | calm moves => exact moves
  | closes _ closes => cases closes <;> assumption

/-- Nobody asks for a close by sending. -/
theorem requested_of_send (packet : Packet) (c : Connection)
    (asked : .closeRequested ∈ (tryTo (c.send packet) c).journal) :
    .closeRequested ∈ c.journal := by
  cases active : c.isActive with
  | true =>
      rw [send_eq_ok active] at asked
      simpa [tryTo, attempt, enqueue] using asked
  | false => rwa [send_eq_error active] at asked

theorem requested_of_sendHandshake (kind : HandshakeKind) (c : Connection)
    (asked : .closeRequested ∈ (tryTo (c.sendHandshake kind) c).journal) :
    .closeRequested ∈ c.journal := by
  have sent := requested_of_send (.handshake kind c.config.protocolVersion) c
  cases active : c.isActive with
  | true =>
      rw [send_eq_ok active] at sent
      rw [sendHandshake, send_eq_ok active] at asked
      exact sent asked
  | false => rwa [sendHandshake, send_eq_error active] at asked

theorem outcome_tryTo_send (packet : Packet) (c : Connection) :
    Outcome c (tryTo (c.send packet) c, none) := by
  obtain ⟨_, _, chat⟩ := chat_send packet c
  exact .calm (.single (Move.chat chat (requested_of_send packet c))) chat.standing_eq

theorem outcome_tryTo_sendHandshake (kind : HandshakeKind) (c : Connection) :
    Outcome c (tryTo (c.sendHandshake kind) c, none) := by
  obtain ⟨_, _, chat⟩ := chat_sendHandshake kind c
  exact .calm (.single (Move.chat chat (requested_of_sendHandshake kind c))) chat.standing_eq

theorem outcome_control (onLoop : Bool) (now : Nat) (packet : Packet) (c : Connection) :
    Outcome c (c.control onLoop now packet) := by
  cases packet with
  | handshake kind version =>
      simp only [control]
      split
      · exact (outcome_tryTo_sendHandshake .response c).tail (.hear _ version) rfl
      · exact .calm (.single (Move.hear c version)) rfl
  | close message => exact outcome_close onLoop now message c
  | keepAlive response =>
      simp only [control]
      split
      · exact .calm .refl rfl
      · exact outcome_tryTo_send (.keepAlive true) c
  | app type values => exact .calm .refl rfl

theorem Outcome.callHook {wait : Option CloseWait} (h : Outcome c (d, wait)) {call : HookCall}
    (plain : call.isNotification = false) : Outcome c (d.callHook call, wait) :=
  h.tail (.hook d call plain) (standing_callHook call d)

theorem Outcome.showControl {wait : Option CloseWait} (h : Outcome c (d, wait))
    (packet : Packet) : Outcome c (d.showControl packet, wait) := by
  rw [Connection.showControl]
  split
  · exact h.callHook rfl
  · exact h

theorem Closes.showControl {wait : Option CloseWait} (h : Closes c (d, wait))
    (packet : Packet) : Closes c (d.showControl packet, wait) := by
  rw [Connection.showControl]
  split
  · exact h.tail (.hook d _ rfl) (standing_callHook _ d)
  · exact h

theorem outcome_dispatchPacket (onLoop : Bool) (now : Nat) (packet : Packet) (c : Connection) :
    Outcome c (c.dispatchPacket onLoop now packet) := by
  have controlled := outcome_control onLoop now packet c
  rw [dispatchPacket]
  split
  · split
    · rename_i d eq
      rw [eq] at controlled
      exact controlled.showControl packet
    · rename_i d wait eq
      rwa [eq] at controlled
  · exact (Outcome.calm .refl rfl).callHook rfl

/-- The pair of a connection and the wait of a close, without the packet to be shown after it. -/
def unshown (result : Connection × Option (CloseWait × Packet)) : Connection × Option CloseWait :=
  (result.1, result.2.map Prod.fst)

theorem outcome_dispatch (onLoop : Bool) (now : Nat) {event : Event}
    (source : c.HasReceived event ∨ .deferred event ∈ c.journal) :
    Outcome c (unshown (c.dispatch onLoop now event)) := by
  have logged : Moves c (c.log (.dispatched event)) := .single (Move.dispatch source)
  refine .after logged rfl ?_
  cases event with
  | unknown id => exact (Outcome.calm .refl rfl).callHook rfl
  | packet packet =>
      have handed := outcome_dispatchPacket onLoop now packet (c.log (.dispatched (.packet packet)))
      simpa [unshown, dispatch, Option.map_map, Function.comp_def] using handed

end Connection

/-- The wait of a close that the inbound loop carries out, if it does. -/
def Inbound.closer? : Inbound → Option CloseWait
  | closing wait _ => some wait
  | _ => none

namespace Connection

variable {c d : Connection}

/-- The inbound loop takes up a place that holds the wait of the close, if there is one. -/
theorem Outcome.go {wait : Option CloseWait} (h : Outcome c (d, wait)) {inbound : Inbound}
    (holds : inbound.closer? = wait) :
    Outcome c ({ d with inbound }, inbound.closer?) :=
  holds ▸ h.tail (.go d inbound) rfl

theorem Closes.go {wait : Option CloseWait} (h : Closes c (d, wait)) {inbound : Inbound}
    (holds : inbound.closer? = wait) :
    Closes c ({ d with inbound }, inbound.closer?) :=
  holds ▸ h.tail (.go d inbound) rfl

theorem outcome_readOn (h : Outcome c (d, none)) :
    Outcome c (d.readOn, d.readOn.inbound.closer?) := by
  rw [readOn]
  apply h.go
  split <;> rfl

theorem outcome_afterDispatch {result : Connection × Option (CloseWait × Packet)}
    (h : Outcome c (unshown result)) :
    Outcome c (afterDispatch result, (afterDispatch result).inbound.closer?) := by
  obtain ⟨d, _ | ⟨wait, packet⟩⟩ := result
  · exact outcome_readOn h
  · exact h.go rfl

theorem outcome_stopReading (now : Nat) (cause : Error) (c : Connection) :
    Outcome c (c.stopReading now cause, (c.stopReading now cause).inbound.closer?) := by
  have begun : Outcome c (if cause.isEndOfStream then c.close true now endOfStream true
      else c.fail true now cause) := by
    split
    · exact outcome_close true now endOfStream c
    · exact outcome_fail true now cause c
  rw [stopReading]
  split
  · exact (Outcome.calm .refl rfl).go rfl
  · generalize (if cause.isEndOfStream then c.close true now endOfStream true
      else c.fail true now cause) = result at begun
    obtain ⟨d, _ | wait⟩ := result
    · exact begun.go rfl
    · exact begun.go rfl

/-- What becomes of the event of the frame that was handled just now. -/
theorem outcome_deliver (now : Nat) {event : Event} {body : Bytes} {before : List Entry}
    (handled : c.journal = .handled body :: before) (reads : c.Understands body event)
    (received : c.HasReceived event) :
    Outcome c (c.deliver now event, (c.deliver now event).inbound.closer?) := by
  rw [deliver]
  split
  · exact outcome_afterDispatch (outcome_dispatch true now (.inl received))
  · rename_i queue deferred
    split
    · exact outcome_afterDispatch (outcome_dispatch true now (.inl received))
    · rename_i opened
      exact outcome_readOn (.calm (.single
        (Move.defer (by simp [isDeferred, deferred]) opened handled reads received)) rfl)

theorem outcome_handleBody (now : Nat) {body rest : Bytes} (sound : c.registry.Sound)
    (next : Frame.next c.config.maxFrameLength c.readAhead = .complete body rest) :
    Outcome c ({ c with readAhead := rest }.handleBody now body,
      ({ c with readAhead := rest }.handleBody now body).inbound.closer?) := by
  obtain ⟨id, known⟩ := Option.isSome_iff_exists.mp (Frame.id?_isSome (Frame.eq_of_next next).2.1)
  have noted : Moves c (({ c with readAhead := rest }.log (.handled body)).touchReceived now) :=
    (Relation.ReflTransGen.single (Move.frame next)).tail (Move.touch _ now)
  have received (event : Event) (same : event.id = id) :
      (({ c with readAhead := rest }.log (.handled body)).touchReceived now).HasReceived event := by
    refine ⟨body, ?_, by rw [known, same]⟩
    simp [handledBodies, recount, touchReceived, log, Entry.handled?]
  -- what the body means depends on the registry alone
  let r : Reader := ⟨c.config.maxFrameLength, c.registry, c.config.notifyControl⟩
  rw [handleBody]
  rw [Frame.id?] at known
  split
  · rename_i failed
    simp [failed] at known
  · rename_i id' payload read
    obtain rfl : id' = id := by simpa [read] using known
    refine .after noted rfl ?_
    dsimp only
    split
    · rename_i unknown
      refine outcome_deliver now rfl ⟨r, rfl, ?_⟩ (received (.unknown id') rfl)
      simp only [Reader.judge, read]
      rw [show r.registry.create id' = none from unknown]
    · rename_i prototype created
      have own : prototype.id = id' := sound.id_of_create created
      split
      · rename_i decoded
        refine outcome_deliver now rfl ⟨r, rfl, ?_⟩
          (received _ ((Packet.id_decode prototype payload).trans own))
        simp only [Reader.judge, read]
        rw [show r.registry.create id' = some prototype from created]
        simp only [decoded]
      · split
        · exact outcome_stopReading now _ _
        · exact outcome_readOn (.calm .refl rfl)

/-- One stretch of the inbound loop, where it does not carry out a close already. -/
theorem outcome_inboundStep {now : Nat} (sound : c.registry.Sound)
    (step : c.inboundStep now = some d) (free : c.inbound.closer? = none) :
    Outcome c (d, d.inbound.closer?) := by
  rw [inboundStep] at step
  split at step
  · cases step
    exact outcome_readOn (.calm .refl rfl)
  · split at step
    · cases step
      exact (Outcome.calm .refl rfl).go rfl
    · split at step
      · rename_i next
        cases step
        exact outcome_handleBody now sound next
      · cases step
        exact outcome_stopReading now _ c
      · rw [readAhead?] at step
        split at step
        · rename_i more
          cases step
          have read := Outcome.calm (.single (Move.readAhead more)) rfl
          rw [← free] at read
          exact read
        · split at step
          · cases step
          · cases step
            exact outcome_stopReading now _ c
          · cases step
            exact outcome_stopReading now _ c
  · rename_i holds
    simp [holds, Inbound.closer?] at free
  · cases step

/-- One stretch of the inbound loop, where it carries out a close. -/
theorem closes_inboundStep {now : Nat} {wait : CloseWait} (step : c.inboundStep now = some d)
    (holds : c.inbound.closer? = some wait) (fits : wait.Fits c) :
    Closes c (d, d.inbound.closer?) := by
  rw [inboundStep] at step
  split at step
  · rename_i place
    simp [place, Inbound.closer?] at holds
  · rename_i place
    simp [place, Inbound.closer?] at holds
  · rename_i wait' shown place
    obtain rfl : wait' = wait := by simpa [place, Inbound.closer?] using holds
    split at step
    · have closes := closes_proceedClose true now fits
      split at step
      · rename_i e left eq
        rw [eq] at closes
        cases step
        exact closes.go rfl
      · rename_i e eq
        rw [eq] at closes
        cases step
        split
        · exact (closes.showControl _).go rfl
        · exact closes.go rfl
    · cases step
  · cases step

/-! ### Who waits for the loops -/

theorem unjoined_callHook (call : HookCall) (c : Connection) :
    (c.callHook call).unjoined = c.unjoined := by
  obtain ⟨d, _, _, _, chat, eq⟩ := callHook_eq call c
  rw [eq]
  change d.unjoined = c.unjoined
  rw [chat.eq]

theorem unjoined_startClosing (message : String) (expected : Bool) (c : Connection) :
    (c.startClosing message expected).unjoined = c.unjoined := by
  change ({ c with state := .closing }.notifyClosed message expected).unjoined = _
  rw [notifyClosed]
  split
  · rfl
  · exact unjoined_callHook _ _

/-- Nobody waits for the loops yet, or somebody took both of them. -/
def KeepsLoops (c : Connection) : Prop :=
  c.unjoined = [.inbound, .outbound] ∨ c.unjoined = []

theorem KeepsLoops.of_eq (h : c.KeepsLoops) (same : d.unjoined = c.unjoined) : d.KeepsLoops := by
  rwa [KeepsLoops, same]

theorem KeepsLoops.move (h : c.KeepsLoops) (move : Move c d) : d.KeepsLoops := by
  cases move with
  | chat chat => exact h.of_eq (by rw [chat.eq])
  | hook call => exact h.of_eq (unjoined_callHook call c)
  | leave message => exact h.of_eq (unjoined_startClosing message true c)
  | fail cause =>
      exact h.of_eq ((unjoined_startClosing cause.message false _).trans (unjoined_callHook _ _))
  | takeLoops => exact .inr rfl
  | _ => exact h.of_eq rfl

theorem KeepsLoops.changes (h : c.KeepsLoops) (changes : Changes c d) : d.KeepsLoops := by
  induction changes with
  | refl => exact h
  | tail _ change ih =>
      cases change with
      | move move => exact ih.move move
      | _ => exact ih.of_eq rfl

end Connection

end PacketWire
