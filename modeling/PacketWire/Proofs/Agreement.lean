import PacketWire.Proofs.Delivery
import PacketWire.Proofs.Healthy
import PacketWire.Proofs.Knowledge

/-!
# Handshake agreement

Handshakes that come from the handshake calls and from the automatic answer carry the version of the
side that sends them. Over a link, then, either side knows the version of the other or none, and
approves of it exactly if it is its own. And since a request is answered by whoever is active, both
know it once everything that was sent is received, if there was a request at all.
-/

namespace PacketWire

open World Connection Entry

/-! ### Handshakes tell the truth -/

/-- The listener greets the other side, if it does, by the handshake call alone. -/
def Voice.IsCourteous (v : Voice) : Prop :=
  ∀ n call packet, .send packet ∈ (v.listener.getD .silent).react n call →
    packet.id ≠ Packet.handshakeId

/-- The application makes no handshake of its own on these connections. -/
def Happening.IsCourteous (a b : Nat) : Happening → Prop
  | .call i (.send packet) => i = a ∨ i = b → packet.id ≠ Packet.handshakeId
  | _ => True

/-- What has the id of a handshake is a handshake with this version. -/
def Packet.IsTruthful (version : Int32) (packet : Packet) : Prop :=
  packet.id = handshakeId → ∃ kind, packet = .handshake kind version

/-- Nothing was received, and what was accepted is truthful. -/
def Entry.IsCandid (v : Voice) (entry : Entry) : Prop :=
  ¬ entry.IsReceipt ∧ (v.IsCourteous → ∀ packet, entry = .accepted packet →
    packet.IsTruthful v.version)

theorem Voice.Utters.isTruthful {v : Voice} {packet : Packet} (utters : v.Utters packet)
    (courteous : v.IsCourteous) : packet.IsTruthful v.version := by
  intro id
  cases utters with
  | send wanted => exact absurd id (courteous _ _ _ wanted)
  | greet => exact ⟨.request, rfl⟩

theorem Entry.IsTalk.isCandid {v : Voice} {entry : Entry} (talk : entry.IsTalk v) :
    entry.IsCandid v := by
  refine ⟨not_isReceipt_of_isTalk talk, ?_⟩
  rintro courteous packet rfl
  rcases talk with utters | rfl
  · exact utters.isTruthful courteous
  · exact fun id => absurd id (by decide)

theorem isCandid_of_truthful {v : Voice} {entry : Entry} {packet : Packet}
    (truthful : packet.IsTruthful v.version)
    (about : entry = .accepted packet ∨ entry = .enqueued packet) : entry.IsCandid v := by
  rcases about with rfl | rfl
  · refine ⟨id, ?_⟩
    rintro - _ ⟨⟩
    exact truthful
  · exact ⟨id, fun _ _ eq => by cases eq⟩

/-- A call of the application that is courteous leaves only what is candid. -/
theorem candid_call {call : Call}
    (courteous : ∀ packet, call = .send packet → packet.id ≠ Packet.handshakeId) (c : Connection) :
    Leaves IsCandid c.trail (call.act c).trail := by
  refine leaves_call c fun packet asked => ?_
  have truthful : packet.IsTruthful c.voice.version := by
    cases call <;> cases asked
    · exact fun id => absurd id (courteous _ rfl)
    · exact fun _ => ⟨_, rfl⟩
  exact ⟨isCandid_of_truthful truthful (.inl rfl), isCandid_of_truthful truthful (.inr rfl)⟩

theorem isTruthful_answer {event : Event} {packet : Packet} {version : Int32}
    (answer : event.answer? version = some packet) : packet.IsTruthful version := by
  intro id
  unfold Event.answer? at answer
  split at answer <;> cases answer
  · exact ⟨.response, rfl⟩
  · exact absurd id (by decide)

/-- What a connection knows, and that its own handshakes tell the truth. -/
structure Frank (c : Connection) : Prop where
  knowing : Knowing c
  truthful : c.voice.IsCourteous →
    ∀ packet ∈ c.acceptedPackets, packet.IsTruthful c.voice.version

theorem frank_start (setup : Setup) (now : Nat) : Frank (.start setup now) :=
  ⟨knowing_start setup now, fun _ _ member => by cases member⟩

theorem Frank.receives {c d : Connection} (sound : c.registry.Sound) (guards : c.registry.Guards)
    (later : c.Later d) (h : Frank c) (receives : Receives IsCandid c d) : Frank d := by
  have other (v : Voice) (entry : Entry) (candid : entry.IsCandid v) : ¬ entry.IsReceipt := candid.1
  refine ⟨h.knowing.receives other sound guards later receives, ?_⟩
  obtain ⟨bodies, defers, hands, gains⟩ := receives.gains other
  obtain ⟨own, accepted, candid⟩ := gains.accepted
  rw [later.voice_eq, accepted]
  intro courteous packet member
  rcases List.mem_append.mp member with old | new
  · exact h.truthful courteous packet old
  rcases List.mem_append.mp new with answer | said
  · rw [answers] at answer
    split at answer
    · obtain ⟨event, -, eq⟩ := List.mem_filterMap.mp answer
      exact isTruthful_answer eq
    · cases answer
  · exact (candid packet said).2 courteous packet rfl

/-- Where the application makes no handshakes of its own, a connection is frank in every run. -/
theorem frank_of_run {queues : Nat} {wires : List (Nat × Nat)} {happenings : List Happening}
    {i : Nat} {c : Connection} (courteous : ∀ packet, .call i (.send packet) ∈ happenings →
      packet.id ≠ Packet.handshakeId)
    (here : (performAll happenings { empty queues with wires }).conns[i]? = some c) : Frank c := by
  refine (Reachable.empty queues wires).kept IsCandid (P := Frank) ?_ ?_ ?_ ?_ ?_ c here
  · exact fun now _ => frank_start _ now
  · exact fun _ _ _ talk => talk.isCandid
  · exact fun call member c _ => candid_call (fun packet eq => courteous packet (eq ▸ member)) c
  · exact fun sound guards later frank receives => frank.receives sound guards later receives
  · exact fun c there => by cases there

/-! ### Over a link -/

namespace Connection

variable {c d : Connection}

/-- What `c` sent was handled by `d`, and of that nothing waits to be handed on. -/
structure HasReached (c d : Connection) : Prop where
  handled : c.enqueuedPackets.map Frame.body = d.handledBodies.map .ok
  dispatched : ∀ event ∈ d.deferredEvents, event ∈ d.dispatchedEvents

/-- Whoever handles the frame of a handshake gets that handshake. -/
theorem HasReached.handshake (h : HasReached c d) (knowing : Knowing d) {kind : HandshakeKind}
    {version : Int32} (sent : .handshake kind version ∈ c.enqueuedPackets) :
    .dispatched (.packet (.handshake kind version)) ∈ d.journal := by
  obtain ⟨body, written⟩ := Frame.writable_handshake kind version
  have among : Frame.body (.handshake kind version) ∈ d.handledBodies.map .ok :=
    h.handled ▸ List.mem_map_of_mem sent
  rw [written] at among
  obtain ⟨body', handled, eq⟩ := List.mem_map.mp among
  obtain rfl : body' = body := Except.ok.inj eq
  have certain : Event.IsCertain body' (.packet (.handshake kind version)) :=
    fun r guards => r.judge_handshake guards written
  rcases knowing.faithful.heeded _ _ (mem_told_handled.mp handled) certain with deferred | told
  · exact mem_told_dispatched.mp (h.dispatched _ (mem_told_deferred.mpr deferred))
  · exact told

end Connection

section

variable {w : World} {a b : Nat} {ca cb : Connection}

/-- A handshake that was handed on at one end has the version of the other end. -/
theorem version_of_dispatched (linked : w.Linked a b) (here : w.conns[a]? = some ca)
    (there : w.conns[b]? = some cb) (frank : Frank ca) (courteous : ca.voice.IsCourteous)
    (knowing : Knowing cb) {event : Event} {version : Int32}
    (received : .dispatched event ∈ cb.journal) (tells : event.version? = some version) :
    version = ca.config.protocolVersion := by
  obtain ⟨kind, rfl⟩ : ∃ kind, event = .packet (.handshake kind version) := by
    unfold Event.version? at tells
    split at tells <;> cases tells
    exact ⟨_, rfl⟩
  obtain ⟨body, handled, r, sound, guards, judged⟩ := knowing.faithful.meant _ (.inr received)
  have among := (handled_prefix_of_linked linked here there).subset
    (List.mem_map_of_mem (mem_told_handled.mpr handled))
  obtain ⟨packet, sent, written⟩ := List.mem_map.mp among
  have id : packet.id = Packet.handshakeId :=
    Option.some.inj ((Frame.id?_of_body written).symm.trans (Reader.id?_of_judge sound judged))
  -- only the close message is sent without having been accepted
  rw [(linked.reachable.valid.conns a ca here).orderly.enqueued] at sent
  have accepted : packet ∈ ca.acceptedPackets := by
    rcases List.mem_append.mp sent with accepted | last
    · exact accepted
    · split at last
      · cases last
      · rw [List.mem_singleton.mp last] at id
        exact absurd id (by decide)
  obtain ⟨kind', rfl⟩ := frank.truthful courteous packet accepted id
  have same := (r.judge_handshake guards written).symm.trans judged
  cases same
  rfl

/-- One end knows of the other what the other is, or nothing, and approves of its own version. -/
def Connection.KnowsOf (c d : Connection) : Prop :=
  (c.remoteVersion = none ∨ c.remoteVersion = some d.config.protocolVersion) ∧
    (c.versionApproved = true ↔ c.remoteVersion = some c.config.protocolVersion)

theorem knowsOf_of_linked (linked : w.Linked a b) (here : w.conns[a]? = some ca)
    (there : w.conns[b]? = some cb) (frank : Frank ca) (courteous : ca.voice.IsCourteous)
    (knowing : Knowing cb) : cb.KnowsOf ca := by
  constructor
  · cases known : cb.remoteVersion with
    | none => exact .inl rfl
    | some version =>
        obtain ⟨event, received, tells⟩ := knowing.informed.told version known
        exact .inr (congrArg some
          (version_of_dispatched linked here there frank courteous knowing received tells))
  · have approved : cb.versionApproved =
        decide (cb.remoteVersion = some cb.config.protocolVersion) := knowing.informed.approved
    rw [approved, decide_eq_true_iff]

/-- A request that reached the other end was answered by it, so both know of each other. -/
theorem known_of_request (orderly : cb.Orderly) (toB : ca.HasReached cb) (toA : cb.HasReached ca)
    (knowingA : Knowing ca) (knowingB : Knowing cb) (active : cb.isActive = true) {version : Int32}
    (sent : .handshake .request version ∈ ca.enqueuedPackets) :
    ca.remoteVersion ≠ none ∧ cb.remoteVersion ≠ none := by
  have received := toB.handshake knowingB sent
  have answered := knowingB.informed.answered active _ _ received rfl
  have back : .handshake .response cb.config.protocolVersion ∈ cb.enqueuedPackets := by
    rw [orderly.enqueued]
    exact List.mem_append_left _ (mem_told_accepted.mpr answered)
  have known := toA.handshake knowingA back
  exact ⟨knowingA.informed.knows _ _ known rfl, knowingB.informed.knows _ _ received rfl⟩

theorem Connection.KnowsOf.agrees {c d : Connection} (h : c.KnowsOf d)
    (known : c.remoteVersion ≠ none) : c.remoteVersion = some d.config.protocolVersion ∧
      c.versionApproved = decide (d.config.protocolVersion = c.config.protocolVersion) := by
  obtain ⟨version, approved⟩ := h
  have knows := version.resolve_left known
  refine ⟨knows, ?_⟩
  rw [knows, Option.some.injEq] at approved
  rw [Bool.eq_iff_iff, approved, decide_eq_true_iff]

/-- Handshake agreement. Two connections get input from each other alone, and all handshakes are
made by the handshake calls, from outside or in hooks, or are automatic answers. At every moment of
every such run either side knows the version of the other or none, and approves exactly if it knows
its own. And whenever all that either side sent has been handled and handed on at the other, and
both are active, a single request is enough for both to know of each other and to approve alike. -/
theorem handshakes_agree {queues : Nat} {wires : List (Nat × Nat)} {happenings : List Happening}
    (apart : ∀ wire ∈ wires, wire.2 ≠ a ∧ wire.2 ≠ b)
    (keeps : ∀ happening ∈ happenings, happening.KeepsLink a b ∧ happening.IsCourteous a b)
    (run : performAll happenings { empty queues with wires } = w)
    (here : w.conns[a]? = some ca) (there : w.conns[b]? = some cb)
    (courteous : ca.voice.IsCourteous ∧ cb.voice.IsCourteous) :
    (ca.KnowsOf cb ∧ cb.KnowsOf ca) ∧
    (ca.HasReached cb → cb.HasReached ca → ca.isActive = true → cb.isActive = true →
      (∃ version, .handshake .request version ∈ ca.enqueuedPackets ∨
        .handshake .request version ∈ cb.enqueuedPackets) →
      ca.remoteVersion = some cb.config.protocolVersion ∧
      cb.remoteVersion = some ca.config.protocolVersion ∧
      ca.versionApproved = decide (ca.config.protocolVersion = cb.config.protocolVersion) ∧
      cb.versionApproved = decide (ca.config.protocolVersion = cb.config.protocolVersion)) := by
  have linked : w.Linked a b :=
    run ▸ (Linked.empty queues apart).performAll fun happening member => (keeps happening member).1
  have frank {i : Nat} {c : Connection} (either : i = a ∨ i = b) (at' : w.conns[i]? = some c) :
      Frank c := by
    subst run
    exact frank_of_run (fun packet member => (keeps _ member).2 either) at'
  have frankA := frank (.inl rfl) here
  have frankB := frank (.inr rfl) there
  have knowsA := knowsOf_of_linked linked.symm there here frankB courteous.2 frankA.knowing
  have knowsB := knowsOf_of_linked linked here there frankA courteous.1 frankB.knowing
  refine ⟨⟨knowsA, knowsB⟩, fun toB toA activeA activeB asked => ?_⟩
  have valid := linked.reachable.valid
  have known : ca.remoteVersion ≠ none ∧ cb.remoteVersion ≠ none := by
    obtain ⟨version, fromA | fromB⟩ := asked
    · exact known_of_request (valid.conns b cb there).orderly toB toA frankA.knowing frankB.knowing
        activeB fromA
    · exact (known_of_request (valid.conns a ca here).orderly toA toB frankB.knowing frankA.knowing
        activeA fromB).symm
  obtain ⟨versionA, approvedA⟩ := knowsA.agrees known.1
  obtain ⟨versionB, approvedB⟩ := knowsB.agrees known.2
  refine ⟨versionA, versionB, ?_, approvedB⟩
  rw [approvedA, decide_eq_decide]
  exact eq_comm

end

/-- Two connections with different versions, of which the second defers its events. Both ask, their
requests cross, and then their answers do. -/
def crossing : List Happening :=
  let defers := { Session.Opening.plain with config.protocolVersion := 2, delivery := .deferred 0 }
  let round := [Actor.times 4 (.outbound 0), Actor.times 4 (.outbound 1),
    [.carry 0 1 100, .carry 1 0 100], Actor.times 3 (.inbound 0), Actor.times 3 (.inbound 1),
    Actor.times 2 (.task 0)].flatten
  [[.start .plain, .start defers, .call 0 (.handshake .request), .call 1 (.handshake .request),
    .process 0 false], round, round].flatten

set_option maxRecDepth 10000 in
theorem handshakes_agree_crossing : ∃ ca cb,
    (performAll crossing (World.empty 1)).conns[0]? = some ca ∧
    (performAll crossing (World.empty 1)).conns[1]? = some cb ∧
    ca.remoteVersion = some 2 ∧ cb.remoteVersion = some 1 ∧
    ca.versionApproved = false ∧ cb.versionApproved = false := by
  obtain ⟨w, run⟩ : ∃ w, performAll crossing { World.empty 1 with wires := [] } = w := ⟨_, rfl⟩
  obtain ⟨ca, cb, here, there, sent, -, voices, toB, toA, activeA, activeB, deferredA,
      deferredB⟩ :
      ∃ ca cb, w.conns[0]? = some ca ∧ w.conns[1]? = some cb ∧
        ca.enqueuedPackets = [.handshake .request 1, .handshake .response 1] ∧
        cb.enqueuedPackets = [.handshake .request 2, .handshake .response 2] ∧
        (ca.voice = ⟨1, none⟩ ∧ cb.voice = ⟨2, none⟩) ∧
        ca.enqueuedPackets.map Frame.body = cb.handledBodies.map .ok ∧
        cb.enqueuedPackets.map Frame.body = ca.handledBodies.map .ok ∧
        ca.isActive = true ∧ cb.isActive = true ∧ ca.deferredEvents = [] ∧
        cb.deferredEvents = cb.dispatchedEvents := by
    subst run
    exact ⟨_, _, rfl, rfl, rfl, rfl, ⟨rfl, rfl⟩, rfl, rfl, rfl, rfl, rfl, rfl⟩
  have keeps : ∀ happening ∈ crossing, happening.KeepsLink 0 1 ∧ happening.IsCourteous 0 1 := by
    simp [crossing, Actor.times, Happening.KeepsLink, Happening.IsCourteous]
  have courteous : ca.voice.IsCourteous ∧ cb.voice.IsCourteous := by
    rw [voices.1, voices.2]
    constructor <;> simp [Voice.IsCourteous, Listener.silent]
  obtain ⟨-, agree⟩ := handshakes_agree (by simp) keeps run here there courteous
  obtain ⟨versionA, versionB, approvedA, approvedB⟩ :=
    agree ⟨toB, fun event member => deferredB ▸ member⟩
      ⟨toA, fun event member => by rw [deferredA] at member; cases member⟩ activeA activeB
      ⟨1, .inl (by rw [sent]; exact List.mem_cons_self)⟩
  have own : ca.config.protocolVersion = 1 ∧ cb.config.protocolVersion = 2 :=
    ⟨congrArg Voice.version voices.1, congrArg Voice.version voices.2⟩
  rw [own.1, own.2] at approvedA approvedB
  rw [own.2] at versionA
  rw [own.1] at versionB
  exact ⟨ca, cb, run ▸ here, run ▸ there, versionA, versionB, approvedA, approvedB⟩

end PacketWire
