import PacketWire.Proofs.Moves
import PacketWire.Proofs.UnpromptedSends

/-!
# What a connection does about what it receives

An event that is handed on is answered if it is a request and the connection is active, and a
handshake tells the version of the other side. `Trail.heed` is that and no more; all else that comes
of handing an event on is talk. `Receives` sorts the stretches of a connection by what becomes of a
frame or an event in them, so that an invariant about what is received has five cases.
-/

namespace PacketWire

namespace Event

/-- The version of the other side that an event tells of. -/
def version? : Event → Option Int32
  | .packet (.handshake _ version) => some version
  | _ => none

/-- What a connection of this version answers to an event. -/
def answer? (version : Int32) : Event → Option Packet
  | .packet (.handshake .request _) => some (.handshake .response version)
  | .packet (.keepAlive false) => some (.keepAlive true)
  | _ => none

end Event

namespace Entry

/-- Entries that are about something received. -/
def IsReceipt : Entry → Prop
  | handled _ => True
  | deferred _ => True
  | dispatched _ => True
  | _ => False

theorem not_isReceipt_of_isTalk {v : Voice} {entry : Entry} (talk : entry.IsTalk v) :
    ¬ entry.IsReceipt := by
  cases entry <;> first | exact id | exact talk.elim

theorem not_isReceipt_of_isChat {entry : Entry} (chat : entry.IsChat) : ¬ entry.IsReceipt := by
  cases entry <;> first | exact id | exact chat.elim

end Entry

namespace Trail

def log (entry : Entry) (t : Trail) : Trail :=
  { t with journal := entry :: t.journal }

/-- A packet was accepted and queued. -/
def say (packet : Packet) (t : Trail) : Trail :=
  (t.log (.accepted packet)).log (.enqueued packet)

def learn (version : Int32) (t : Trail) : Trail :=
  { t with remoteVersion := some version, versionApproved := version = t.voice.version }

/-- An active connection answers. -/
def answer (active : Bool) (event : Event) (t : Trail) : Trail :=
  match event.answer? t.voice.version with
  | some packet => if active then t.say packet else t
  | none => t

/-- The version of the other side is noted, if an event tells it. -/
def note (event : Event) (t : Trail) : Trail :=
  match event.version? with
  | some version => t.learn version
  | none => t

/-- An event is handed on: it is answered, and its version is noted. -/
def heed (active : Bool) (event : Event) (t : Trail) : Trail :=
  ((t.log (.dispatched event)).answer active event).note event

@[simp] theorem voice_note (event : Event) (t : Trail) : (t.note event).voice = t.voice := by
  rw [note]
  split <;> rfl

@[simp] theorem journal_note (event : Event) (t : Trail) :
    (t.note event).journal = t.journal := by
  rw [note]
  split <;> rfl

/-- An answer changes nothing but the journal, and is all that is accepted there. -/
theorem answer_eq (active : Bool) (event : Event) (t : Trail) :
    ∃ answers, t.answer active event = { t with journal := answers ++ t.journal } ∧
      (∀ entry ∈ answers, entry.IsChat) ∧ Entry.told Entry.accepted? answers =
        if active then (event.answer? t.voice.version).toList else [] := by
  rw [answer]
  cases event.answer? t.voice.version with
  | none =>
      refine ⟨[], rfl, by simp, ?_⟩
      cases active <;> rfl
  | some packet =>
      cases active with
      | false => exact ⟨[], rfl, by simp, rfl⟩
      | true =>
          refine ⟨[.enqueued packet, .accepted packet], rfl, ?_, rfl⟩
          simp [Entry.IsChat]

/-- What is handed on leaves an entry, and then the answer if there is one. -/
theorem heed_eq (active : Bool) (event : Event) (t : Trail) :
    ∃ answers, t.heed active event =
        Trail.note event { t with journal := answers ++ .dispatched event :: t.journal } ∧
      (∀ entry ∈ answers, entry.IsChat) ∧ Entry.told Entry.accepted? answers =
        if active then (event.answer? t.voice.version).toList else [] := by
  obtain ⟨answers, eq, chat, accepted⟩ := answer_eq active event (t.log (.dispatched event))
  refine ⟨answers, ?_, chat, accepted⟩
  rw [heed, eq]
  rfl

@[simp] theorem voice_heed (active : Bool) (event : Event) (t : Trail) :
    (t.heed active event).voice = t.voice := by
  obtain ⟨answers, eq, -⟩ := heed_eq active event t
  rw [eq, voice_note]

end Trail

namespace Connection

open Entry

variable {c d : Connection} {kind : Voice → Entry → Prop} {now : Nat}

/-! ### Answers -/

theorem trail_tryTo_send (packet : Packet) (c : Connection) :
    (tryTo (c.send packet) c).trail = if c.isActive then c.trail.say packet else c.trail := by
  cases active : c.isActive with
  | true =>
      rw [send_eq_ok active]
      rfl
  | false =>
      rw [send_eq_error active]
      rfl

theorem trail_tryTo_sendHandshake (kind : HandshakeKind) (c : Connection) :
    (tryTo (c.sendHandshake kind) c).trail =
      if c.isActive then c.trail.say (.handshake kind c.voice.version) else c.trail := by
  cases active : c.isActive with
  | true =>
      rw [sendHandshake, send_eq_ok active]
      rfl
  | false =>
      rw [sendHandshake, send_eq_error active]
      rfl

/-- A control packet is heeded, and a close message begins a close. -/
theorem talks_control (onLoop : Bool) (now : Nat) (packet : Packet) (c : Connection) :
    Leaves IsTalk (c.trail.heed c.isActive (.packet packet))
      ((c.log (.dispatched (.packet packet))).control onLoop now packet).1.trail := by
  cases packet with
  | handshake kind version =>
      cases kind with
      | response => exact .of_eq rfl
      | request =>
          refine .of_eq ?_
          exact congrArg (Trail.learn version) (trail_tryTo_sendHandshake .response
            (c.log (.dispatched (.packet (.handshake .request version)))))
  | close message => exact (passive_close onLoop now message true _).idles.talks
  | keepAlive response =>
      cases response with
      | true => exact .of_eq rfl
      | false =>
          exact .of_eq (trail_tryTo_send (.keepAlive true)
            (c.log (.dispatched (.packet (.keepAlive false)))))
  | app type values => exact .of_eq rfl

/-- Handing an event on is to heed it, and talk. -/
theorem talks_dispatch (onLoop : Bool) (now : Nat) (event : Event) (c : Connection) :
    Leaves IsTalk (c.trail.heed c.isActive event) (c.dispatch onLoop now event).1.trail := by
  cases event with
  | unknown id => exact talks_callHook _ (c.log (.dispatched (.unknown id)))
  | packet packet =>
      have heeded := talks_control onLoop now packet c
      simp only [dispatch, dispatchPacket]
      split
      · generalize (c.log (.dispatched (.packet packet))).control onLoop now packet = result
          at heeded
        obtain ⟨d, _ | wait⟩ := result
        · exact heeded.trans (talks_showControl packet d)
        · exact heeded
      · rename_i plain
        have told := talks_callHook (.packet packet) (c.log (.dispatched (.packet packet)))
        cases packet with
        | app type values => exact told
        | handshake | close | keepAlive => exact absurd rfl plain

/-! ### Frames and events -/

theorem not_understands {body : Bytes} (r : Reader) (registry : r.registry = c.registry)
    (other : ∀ event, r.judge body ≠ .event event) (event : Event) :
    ¬ c.Understands body event := by
  rintro ⟨r', registry', judged⟩
  refine other event ?_
  rw [← judged]
  simp only [Reader.judge, registry, registry']

/-- What a stretch of a connection does about a frame, if it handles one. -/
inductive Handles (kind : Voice → Entry → Prop) (c d : Connection) : Prop
  | nothing : Leaves kind c.trail d.trail → Handles kind c d
  /-- The frame is no event. -/
  | skips {body : Bytes} : (∀ event, ¬ c.Understands body event) →
      Leaves kind (c.trail.log (.handled body)) d.trail → Handles kind c d
  /-- The event of the frame goes to the work queue. -/
  | defers {body : Bytes} {event : Event} : c.isDeferred = true → c.Understands body event →
      Leaves kind ((c.trail.log (.handled body)).log (.deferred event)) d.trail → Handles kind c d
  | heeds {body : Bytes} {event : Event} : c.Understands body event →
      Leaves kind ((c.trail.log (.handled body)).heed c.isActive event) d.trail → Handles kind c d

/-- What a stretch of a connection does about what it receives. -/
inductive Receives (kind : Voice → Entry → Prop) (c d : Connection) : Prop
  | handles : Handles kind c d → Receives kind c d
  /-- An event comes from the work queue. -/
  | redeems {event : Event} : .deferred event ∈ c.journal →
      Leaves kind (c.trail.heed c.isActive event) d.trail → Receives kind c d

theorem Receives.nothing (leaves : Leaves kind c.trail d.trail) : Receives kind c d :=
  .handles (.nothing leaves)

section

variable {other : Voice → Entry → Prop} {e : Connection}

theorem Handles.of_trail_eq (h : Handles kind c d) (same : e.trail = d.trail) :
    Handles kind c e := by
  cases h with
  | nothing leaves => exact .nothing (same ▸ leaves)
  | skips none leaves => exact .skips none (same ▸ leaves)
  | defers deferred judged leaves => exact .defers deferred judged (same ▸ leaves)
  | heeds judged leaves => exact .heeds judged (same ▸ leaves)

theorem Handles.imp (h : Handles kind c d)
    (weaker : ∀ entry, kind c.voice entry → other c.voice entry) : Handles other c d := by
  cases h with
  | nothing leaves => exact .nothing (leaves.imp weaker)
  | skips none leaves => exact .skips none (leaves.imp weaker)
  | defers deferred judged leaves => exact .defers deferred judged (leaves.imp weaker)
  | heeds judged leaves =>
      refine .heeds judged (leaves.imp ?_)
      rw [Trail.voice_heed]
      exact weaker

end

theorem trail_afterDispatch (result : Connection × Option (CloseWait × Packet)) :
    (afterDispatch result).trail = result.1.trail := by
  obtain ⟨d, _ | left⟩ := result <;> rfl

/-- The event of a frame is heeded at once, or goes to the work queue. -/
theorem handles_deliver {body : Bytes} {event : Event} (judged : c.Understands body event)
    (now : Nat) :
    Handles IsTalk c (((c.log (.handled body)).touchReceived now).deliver now event) := by
  have atOnce : Handles IsTalk c
      (afterDispatch (((c.log (.handled body)).touchReceived now).dispatch true now event)) :=
    .heeds judged (trail_afterDispatch _ ▸
      talks_dispatch true now event ((c.log (.handled body)).touchReceived now))
  rw [deliver]
  split
  · exact atOnce
  · rename_i k deferred
    have uses : c.delivery = .deferred k := deferred
    split
    · exact atOnce
    · refine .defers ?_ judged (.of_eq rfl)
      rw [isDeferred, uses]

theorem handles_handleBody (now : Nat) (body : Bytes) (c : Connection) :
    Handles IsTalk c (c.handleBody now body) := by
  obtain ⟨r, known⟩ : ∃ r : Reader, r.registry = c.registry := ⟨⟨0, c.registry, false⟩, rfl⟩
  rw [handleBody]
  split
  · exact .nothing (passive_stopReading now _ c).idles.talks
  · rename_i id payload read
    dsimp only
    split <;> rename_i created <;> replace created := (congrArg (·.create id) known).trans created
    · refine handles_deliver ⟨r, known, ?_⟩ now
      simp only [Reader.judge, read, created]
    · split <;> rename_i failed
      · refine handles_deliver ⟨r, known, ?_⟩ now
        simp only [Reader.judge, read, created, failed]
      · have lost : ∀ event, ¬ c.Understands body event := by
          refine not_understands r known fun event => ?_
          simp only [Reader.judge, read, created, failed]
          split <;> exact Verdict.noConfusion
        refine .skips lost ?_
        split
        · exact (passive_stopReading now _ _).idles.talks
        · exact .of_eq rfl

/-- What is said of a connection is said of what comes of it by something that matters neither to
its trail nor to what it makes of a frame. -/
theorem Handles.after {e : Connection} (h : Handles kind d e) (trail : d.trail = c.trail)
    (registry : d.registry = c.registry) (active : d.isActive = c.isActive)
    (deferred : d.isDeferred = c.isDeferred) : Handles kind c e := by
  have same (body : Bytes) (event : Event) :
      d.Understands body event = c.Understands body event := by
    rw [Understands, registry, Understands]
  cases h with
  | nothing leaves => exact .nothing (trail ▸ leaves)
  | skips none leaves => exact .skips (fun event => same _ event ▸ none event) (trail ▸ leaves)
  | defers deferring judged leaves =>
      exact .defers (deferred ▸ deferring) (same .. ▸ judged) (trail ▸ leaves)
  | heeds judged leaves => exact .heeds (same .. ▸ judged) (trail ▸ active ▸ leaves)

theorem handles_inboundStep (step : c.inboundStep now = some d) : Handles IsTalk c d := by
  rw [inboundStep] at step
  split at step
  · cases step
    exact .nothing (.of_eq rfl)
  · split at step
    · cases step
      exact .nothing (.of_eq rfl)
    · split at step
      · rename_i body rest _
        cases step
        exact (handles_handleBody now body { c with readAhead := rest }).after rfl rfl rfl rfl
      · cases step
        exact .nothing (passive_stopReading now _ c).idles.talks
      · rw [readAhead?] at step
        split at step
        · cases step
          exact .nothing (.of_eq rfl)
        · split at step <;> cases step
          · exact .nothing (passive_stopReading now _ c).idles.talks
          · exact .nothing (passive_stopReading now _ c).idles.talks
  · rename_i wait shown _
    split at step
    · have proceeds := (passive_proceedClose true now wait c).idles.talks
      split at step <;> rename_i eq <;> rw [eq] at proceeds <;> cases step
      · exact .nothing proceeds
      · refine .nothing (proceeds.trans ?_)
        split
        · exact talks_showControl _ _
        · exact .of_eq rfl
    · cases step
  · cases step

end Connection

end PacketWire
