import Mathlib.Data.List.Infix
import PacketWire.Proofs.Agreement
import PacketWire.Proofs.Replies

/-!
# Control packets do not go to and fro

Answers weigh less than requests, and they are not answered. So what two linked connections have
still to say to each other weighs less with every event that is handed on at either of them, unless
something is said that is no answer.
-/

namespace PacketWire

open World Connection Entry

/-! ### What packets weigh -/

/-- Answers and the close message weigh less than what may ask for an answer. -/
def Packet.weight : Packet → Nat
  | .handshake .response _ => 1
  | .keepAlive true => 1
  | .close _ => 1
  | _ => 2

/-- The weight of packets together. -/
def freight (packets : List Packet) : Nat :=
  (packets.map Packet.weight).sum

@[simp] theorem freight_nil : freight [] = 0 := rfl

@[simp] theorem freight_cons (packet : Packet) (packets : List Packet) :
    freight (packet :: packets) = packet.weight + freight packets := rfl

@[simp] theorem freight_append (packets more : List Packet) :
    freight (packets ++ more) = freight packets + freight more := by
  simp [freight]

theorem Event.weight_le_two (event : Event) : event.weight ≤ 2 := by
  unfold Event.weight
  split <;> omega

theorem Packet.weight_of_answer {event : Event} {version : Int32} {packet : Packet}
    (answer : event.answer? version = some packet) : packet.weight = 1 := by
  unfold Event.answer? at answer
  split at answer <;> cases answer <;> rfl

/-- What is received weighs no more than what was sent. -/
theorem weight_le_of_judge {r : Reader} (sound : r.registry.Sound) (guards : r.registry.Guards)
    {packet : Packet} {body : Bytes} {event : Event} (written : Frame.body packet = .ok body)
    (judged : r.judge body = .event event) : event.weight ≤ packet.weight := by
  have one {other : Packet} (same : r.judge body = .event (.packet other))
      (light : (Event.packet other).weight = 1) : event.weight ≤ 1 := by
    obtain rfl : Event.packet other = event := Verdict.event.inj (same.symm.trans judged)
    exact Nat.le_of_eq light
  cases packet with
  | handshake kind version =>
      cases kind with
      | request => exact event.weight_le_two
      | response => exact one (r.judge_handshake guards written) rfl
  | keepAlive response =>
      cases response with
      | false => exact event.weight_le_two
      | true => exact one (r.judge_keepAlive guards written) rfl
  | close message =>
      -- whatever is made of it has the id of a close message
      have id : Packet.closeId = event.id := Option.some.inj
        ((Frame.id?_of_body written).symm.trans (Reader.id?_of_judge sound judged))
      unfold Event.weight
      split
      · exact absurd (show Packet.closeId = Packet.handshakeId from id) (by decide)
      · exact absurd (show Packet.closeId = Packet.keepAliveId from id) (by decide)
      · exact Nat.le_refl _
  | app type values => exact event.weight_le_two

/-- Every event that is handed on pays for its answer and for itself. -/
theorem freight_answers (c : Connection) (events : List Event) :
    freight (c.answers events) + events.length ≤ burden events := by
  have paid (version : Int32) : freight (events.filterMap (Event.answer? version)) +
      events.length ≤ burden events := by
    induction events with
    | nil => exact Nat.le_refl _
    | cons event events ih =>
        rw [List.filterMap_cons, List.length_cons, burden_cons]
        cases answer : event.answer? version with
        | none =>
            have least := event.one_le_weight
            dsimp only
            omega
        | some packet =>
            rw [freight_cons, Packet.weight_of_answer answer, Event.weight_of_answer answer]
            omega
  have answered := paid c.config.protocolVersion
  rw [answers]
  split
  · exact answered
  · rw [freight_nil]
    omega

/-! ### What is left to say -/

namespace Connection

/-- The weight of what `c` has still to tell `d`: what `d` has not read, and the close message. -/
def pending (c d : Connection) : Nat :=
  freight (c.enqueuedPackets.drop d.handledBodies.length) + if c.isActive then 1 else 0

variable {c d e f : Connection} {packets : List Packet} {bodies : List Bytes}

/-- What is sent weighs what was accepted; the close message was counted before. -/
theorem freight_of_accepted (orderly : c.Orderly) (orderly' : e.Orderly) (later : c.Later e)
    (accepted : e.acceptedPackets = c.acceptedPackets ++ packets) :
    ∃ more, e.enqueuedPackets = c.enqueuedPackets ++ more ∧
      freight more + (if e.isActive then 1 else 0) =
        freight packets + if c.isActive then 1 else 0 := by
  have sent := enqueued_of_accepted orderly orderly' later accepted
  rw [List.append_assoc] at sent
  refine ⟨_, sent, ?_⟩
  rw [freight_append]
  cases active : c.isActive with
  | true => cases e.isActive <;> rfl
  | false =>
      rw [later.isActive_eq_false active]
      rfl

/-- What is sent is added to what is pending, and what is read is taken from it. -/
theorem pending_step (orderly : c.Orderly) (orderly' : e.Orderly) (later : c.Later e)
    (accepted : e.acceptedPackets = c.acceptedPackets ++ packets)
    (handled : f.handledBodies = d.handledBodies ++ bodies)
    (before : d.handledBodies.map .ok <+: c.enqueuedPackets.map Frame.body)
    (after : f.handledBodies.map .ok <+: e.enqueuedPackets.map Frame.body) :
    ∃ read, read.map Frame.body = bodies.map .ok ∧
      e.pending f + freight read = c.pending d + freight packets := by
  obtain ⟨more, sent, weighs⟩ := freight_of_accepted orderly orderly' later accepted
  have bound : d.handledBodies.length ≤ c.enqueuedPackets.length := by
    simpa using before.length_le
  have left : e.enqueuedPackets.drop d.handledBodies.length =
      c.enqueuedPackets.drop d.handledBodies.length ++ more := by
    rw [sent, List.drop_append_of_le_length bound]
  have next : bodies.map .ok <+:
      (e.enqueuedPackets.drop d.handledBodies.length).map Frame.body := by
    have dropped := after.drop d.handledBodies.length
    rwa [handled, ← List.map_drop, ← List.map_drop, List.drop_left] at dropped
  refine ⟨(e.enqueuedPackets.drop d.handledBodies.length).take bodies.length, ?_, ?_⟩
  · rw [List.prefix_iff_eq_take.mp next, List.map_take, List.length_map]
  · have parts := freight_append
      ((e.enqueuedPackets.drop d.handledBodies.length).take bodies.length)
      ((e.enqueuedPackets.drop d.handledBodies.length).drop bodies.length)
    rw [List.take_append_drop, left, freight_append, ← left, List.drop_drop] at parts
    rw [pending, pending, handled, List.length_append]
    omega

/-- The events that are made of what was read weigh no more than that. -/
theorem burden_le_of_read (sound : d.registry.Sound) (guards : d.registry.Guards)
    {read : List Packet} {events : List Event} (written : read.map Frame.body = bodies.map .ok)
    (understood : events = [] ∨ ∃ body event, bodies = [body] ∧ events = [event] ∧
      d.Understands body event) : burden events ≤ freight read := by
  rcases understood with rfl | ⟨body, event, rfl, rfl, r, registry, judged⟩
  · exact Nat.zero_le _
  · obtain ⟨packet, rfl, same⟩ := List.map_eq_singleton_iff.mp written
    exact weight_le_of_judge (registry ▸ sound) (registry ▸ guards) same judged

end Connection

namespace World

/-- The weight of what one connection has still to tell another. -/
def backlog (a b : Nat) (w : World) : Nat :=
  match w.conns[a]?, w.conns[b]? with
  | some ca, some cb => ca.pending cb
  | _, _ => 0

/-- The weight of what is on the way between two connections, and of what is held for them. -/
def outstanding (a b : Nat) (w : World) : Nat :=
  backlog a b w + backlog b a w + held a w + held b w

variable {w : World} {a b : Nat} {ca cb : Connection}

theorem backlog_eq (here : w.conns[a]? = some ca) (there : w.conns[b]? = some cb) :
    w.backlog a b = ca.pending cb := by
  rw [backlog, here, there]

/-- What one end reads in a happening, and what the other sends. -/
theorem backlog_perform (linked : w.Linked a b) {happening : Happening}
    (keeps : happening.KeepsLink a b) (here : w.conns[a]? = some ca) (there : w.conns[b]? = some cb)
    {e f : Connection} {bodies bodies' : List Bytes} {events events' hands hands' : List Event}
    {own own' : List Packet} (did : ConnectionDeed w a happening ca e bodies events hands own)
    (did' : ConnectionDeed w b happening cb f bodies' events' hands' own') :
    backlog a b (w.perform happening) + burden events' ≤
      backlog a b w + (freight (ca.answers hands) + freight own) := by
  have reached := linked.reachable
  obtain ⟨read, written, weighs⟩ := pending_step (reached.valid.conns a ca here).orderly
    ((reached.perform happening).valid.conns a e did.there).orderly did.later did.accepted
    did'.handled (handled_prefix_of_linked linked here there)
    (handled_prefix_of_linked (linked.perform keeps) did.there did'.there)
  have light := burden_le_of_read (reached.valid.conns b cb there).coherent.sound
    (reached.guards there) written did'.understood
  rw [backlog_eq here there, backlog_eq did.there did'.there]
  rw [freight_append] at weighs
  omega

/-- In every happening, what is outstanding pays for the events that are handed on, up to what is
said and is no answer. -/
theorem outstanding_perform (linked : w.Linked a b) {happening : Happening}
    (keeps : happening.KeepsLink a b) (here : w.conns[a]? = some ca)
    (there : w.conns[b]? = some cb) :
    outstanding a b (w.perform happening) + (w.deed a happening).dispatched.length +
        (w.deed b happening).dispatched.length ≤
      outstanding a b w + freight (w.deed a happening).unprompted +
        freight (w.deed b happening).unprompted := by
  obtain ⟨e, _, events, hands, own, did⟩ := exists_connectionDeed linked.reachable happening here
  obtain ⟨f, _, events', hands', own', did'⟩ :=
    exists_connectionDeed linked.reachable happening there
  have toB := backlog_perform linked keeps here there did did'
  have toA := backlog_perform linked.symm keeps.symm there here did' did
  have paidA := freight_answers ca hands
  have paidB := freight_answers cb hands'
  have heldA := did.held
  have heldB := did'.held
  rw [did.unprompted_eq here, did'.unprompted_eq there, did.deed_eq here, did'.deed_eq there,
    outstanding, outstanding]
  dsimp only
  omega

/-- In a run, what is outstanding pays for all events that are handed on. -/
theorem outstanding_run (linked : w.Linked a b) (here : w.conns[a]? = some ca)
    (there : w.conns[b]? = some cb) {happenings : List Happening}
    (keeps : ∀ happening ∈ happenings, happening.KeepsLink a b) :
    outstanding a b (w.performAll happenings) +
        ((w.deeds a happenings).flatMap (·.dispatched)).length +
        ((w.deeds b happenings).flatMap (·.dispatched)).length ≤
      outstanding a b w + freight ((w.deeds a happenings).flatMap (·.unprompted)) +
        freight ((w.deeds b happenings).flatMap (·.unprompted)) := by
  induction happenings generalizing w ca cb with
  | nil => exact Nat.le_refl _
  | cons happening happenings ih =>
      have keep := keeps happening List.mem_cons_self
      have valid := linked.reachable.valid
      obtain ⟨e, stillA, -⟩ := (valid.perform happening).2 a ca here
      obtain ⟨f, stillB, -⟩ := (valid.perform happening).2 b cb there
      have first := outstanding_perform linked keep here there
      have rest := ih (linked.perform keep) stillA stillB fun other member =>
        keeps other (List.mem_cons_of_mem _ member)
      simp only [deeds, List.flatMap_cons, List.length_append, freight_append]
      change outstanding a b ((w.perform happening).performAll happenings) + _ + _ ≤ _
      omega

end World

/-- Control replies are exact, and they come to an end. Whatever happens to a connection whose
listener sends nothing, it answers each request that is handed on while it is active once, in the
order of the requests, and nothing else; a close message comes behind all that it sends. And between
two connections that get input from each other alone, every event that is handed on takes something
from what is outstanding: packets not read yet, requests counting more than answers, events held and
not handed on, and close messages not sent. Only what is said and is no answer adds to it. -/
theorem replies_settle :
    (∀ {w : World} {i : Nat} {c : Connection}, w.Reachable → w.conns[i]? = some c →
      (∀ packet, ¬ c.voice.Utters packet) → ∀ happenings,
      ∃ d, (w.performAll happenings).conns[i]? = some d ∧
        c.RepliesExactly d (w.deeds i happenings)) ∧
    ∀ {w : World} {a b : Nat} {ca cb : Connection}, w.Linked a b → w.conns[a]? = some ca →
      w.conns[b]? = some cb →
      (∀ happening, happening.KeepsLink a b →
        (w.deed a happening).accepted = (w.deed a happening).due →
        (w.deed b happening).accepted = (w.deed b happening).due →
        (w.deed a happening).dispatched ++ (w.deed b happening).dispatched ≠ [] →
        outstanding a b (w.perform happening) < outstanding a b w) ∧
      ∀ happenings, (∀ happening ∈ happenings, happening.KeepsLink a b) →
        outstanding a b (w.performAll happenings) +
            ((w.deeds a happenings).flatMap (·.dispatched)).length +
            ((w.deeds b happenings).flatMap (·.dispatched)).length ≤
          outstanding a b w + freight ((w.deeds a happenings).flatMap (·.unprompted)) +
            freight ((w.deeds b happenings).flatMap (·.unprompted)) := by
  refine ⟨repliesExactly_of_run, fun {w a b _ _} linked here there => ⟨?_, fun happenings keeps =>
    outstanding_run linked here there keeps⟩⟩
  intro happening keeps dueA dueB some
  have paid := outstanding_perform linked keeps here there
  have counted := List.length_pos_iff.mpr some
  rw [List.length_append] at counted
  rw [Deed.unprompted, Deed.unprompted, dueA, dueB, List.drop_length, List.drop_length,
    freight_nil] at paid
  omega

/-- Two requests have crossed, and the first connection is about to handle one of them. -/
def midway : World :=
  performAll (crossing.take 17) (World.empty 1)

set_option maxRecDepth 10000 in
theorem replies_settle_midway :
    (midway.deeds 1 (crossing.drop 17)).flatMap Deed.replies = [.handshake .response 2] ∧
      outstanding 0 1 midway = 6 ∧
      outstanding 0 1 (midway.perform (.run (.inbound 0))) < outstanding 0 1 midway ∧
      outstanding 0 1 (midway.performAll (crossing.drop 17)) ≤ 2 := by
  have keeps : ∀ happening ∈ crossing, happening.KeepsLink 0 1 := by
    simp [crossing, Actor.times, Happening.KeepsLink]
  have linked : midway.Linked 0 1 :=
    Linked.performAll (.empty 1 (by simp)) fun happening member =>
      keeps happening (List.mem_of_mem_take member)
  obtain ⟨ca, cb, here, there, voice⟩ : ∃ ca cb, midway.conns[0]? = some ca ∧
      midway.conns[1]? = some cb ∧ cb.voice = ⟨2, none⟩ := ⟨_, _, rfl, rfl, rfl⟩
  have silent : ∀ packet, ¬ cb.voice.Utters packet := by
    rintro packet (⟨wanted⟩ | ⟨wanted⟩) <;> rw [voice] at wanted <;> cases wanted
  obtain ⟨answers, decreases⟩ := replies_settle
  obtain ⟨d, -, replies⟩ := answers linked.reachable there silent (crossing.drop 17)
  obtain ⟨strictly, paid⟩ := decreases linked here there
  have less := strictly (.run (.inbound 0)) trivial rfl rfl (List.cons_ne_nil _ _)
  have paid := paid (crossing.drop 17) fun happening member =>
    keeps happening (List.mem_of_mem_drop member)
  have outstanding : outstanding 0 1 midway = 6 := rfl
  have handedA : ((midway.deeds 0 (crossing.drop 17)).flatMap (·.dispatched)).length = 2 := rfl
  have handedB : ((midway.deeds 1 (crossing.drop 17)).flatMap (·.dispatched)).length = 2 := rfl
  have saidA : (midway.deeds 0 (crossing.drop 17)).flatMap (·.unprompted) = [] := rfl
  have saidB : (midway.deeds 1 (crossing.drop 17)).flatMap (·.unprompted) = [] := rfl
  have due : (midway.deeds 1 (crossing.drop 17)).flatMap (·.due) = [.handshake .response 2] := rfl
  rw [handedA, handedB, saidA, saidB, outstanding, freight_nil] at paid
  exact ⟨replies.replies.trans due, outstanding, less, by omega⟩

end PacketWire
