import PacketWire.Proofs.Deeds

/-!
# Exact replies

A connection whose listener sends nothing says nothing by itself but keep-alives of its own and one
answer to each request that is handed on while it is active, in the order of the requests. Nothing
else that it receives is answered, and a close message comes behind all that it sent.
-/

namespace PacketWire

open World Connection Entry

/-- A request to show that the other side is there. -/
def Packet.isProbe : Packet → Bool
  | .keepAlive false => true
  | _ => false

theorem Packet.isProbe_of_answer {event : Event} {version : Int32} {packet : Packet}
    (answer : event.answer? version = some packet) : packet.isProbe = false := by
  unfold Event.answer? at answer
  split at answer <;> cases answer <;> rfl

/-- What was accepted and the application did not ask for, but for probes. -/
def Deed.replies (deed : Deed) : List Packet :=
  if deed.called then [] else deed.accepted.filter (!·.isProbe)

/-- Whoever is not asked answers, and besides it sends no more than probes. -/
structure Deed.IsModest (deed : Deed) : Prop where
  replies : deed.replies = deed.due
  unprompted : deed.called = false → ∀ packet ∈ deed.unprompted, packet = .keepAlive false

/-- `d` is `c` after it did this, and of itself it sent one answer to each request that was handed
on while it was active, in the order of the requests. -/
structure Connection.RepliesExactly (c d : Connection) (deeds : List Deed) : Prop where
  dispatched : d.dispatchedEvents = c.dispatchedEvents ++ deeds.flatMap (·.dispatched)
  /-- One close message comes behind all that was accepted. -/
  enqueued : d.enqueuedPackets = c.enqueuedPackets ++ deeds.flatMap (·.accepted) ++
    if c.isActive && !d.isActive then [.farewell] else []
  replies : deeds.flatMap Deed.replies = deeds.flatMap (·.due)
  modest : ∀ deed ∈ deeds, deed.IsModest

namespace Connection

variable {c d : Connection}

/-- Answers are no requests. -/
theorem filter_answers (c : Connection) (events : List Event) :
    (c.answers events).filter (!·.isProbe) = c.answers events := by
  refine List.filter_eq_self.mpr fun packet member => ?_
  rw [answers] at member
  split at member
  · obtain ⟨event, -, answer⟩ := List.mem_filterMap.mp member
    simp [Packet.isProbe_of_answer answer]
  · cases member

/-- What was accepted in between was sent, and a close message behind it. -/
theorem enqueued_of_accepted (orderly : c.Orderly) (orderly' : d.Orderly) (later : c.Later d)
    {packets : List Packet} (accepted : d.acceptedPackets = c.acceptedPackets ++ packets) :
    d.enqueuedPackets = c.enqueuedPackets ++ packets ++
      if c.isActive && !d.isActive then [.farewell] else [] := by
  rw [orderly'.enqueued, orderly.enqueued, accepted]
  cases active : c.isActive with
  | true => cases d.isActive <;> simp
  | false =>
      have none : packets = [] := by
        rw [(later.silent active).2] at accepted
        exact List.self_eq_append_right.mp accepted
      simp [none, later.isActive_eq_false active]

end Connection

namespace World

variable {w : World} {i : Nat} {c : Connection}

theorem isModest_deed (silent : ∀ packet, ¬ c.voice.Utters packet) {happening : Happening}
    {e : Connection} {bodies : List Bytes} {events hands : List Event} {own : List Packet}
    (did : ConnectionDeed w i happening c e bodies events hands own) (here : w.conns[i]? = some c) :
    (w.deed i happening).IsModest := by
  have probes (unasked : happening.calls i = false) (packet : Packet) (member : packet ∈ own) :
      packet = .keepAlive false :=
    (did.own unasked packet member).resolve_left (silent packet)
  refine ⟨?_, ?_⟩
  · rw [did.deed_eq here, Deed.replies]
    cases called : happening.calls i with
    | true =>
        rw [did.called called, answers_nil]
        rfl
    | false =>
        have none : own.filter (!·.isProbe) = [] := by
          refine List.filter_eq_nil_iff.mpr fun packet member => ?_
          rw [probes called packet member]
          decide
        rw [if_neg Bool.false_ne_true, List.filter_append, filter_answers, none, List.append_nil]
  · rw [did.unprompted_eq here, did.deed_eq here]
    exact probes

/-- A connection whose listener sends nothing is modest in every run. -/
theorem isModest_deeds (reached : w.Reachable) (here : w.conns[i]? = some c)
    (silent : ∀ packet, ¬ c.voice.Utters packet) (happenings : List Happening) :
    ∀ deed ∈ w.deeds i happenings, deed.IsModest := by
  induction happenings generalizing w c with
  | nil => simp [deeds]
  | cons happening happenings ih =>
      obtain ⟨e, bodies, events, hands, own, did⟩ := exists_connectionDeed reached happening here
      intro deed member
      rcases List.mem_cons.mp member with rfl | later
      · exact isModest_deed silent did here
      · exact ih (reached.perform happening) did.there (did.later.voice_eq ▸ silent) deed later

theorem repliesExactly_of_run (reached : w.Reachable) (here : w.conns[i]? = some c)
    (silent : ∀ packet, ¬ c.voice.Utters packet) (happenings : List Happening) :
    ∃ d, (w.performAll happenings).conns[i]? = some d ∧
      c.RepliesExactly d (w.deeds i happenings) := by
  obtain ⟨d, there, dispatched, accepted⟩ := told_deeds reached happenings here
  obtain ⟨valid, later⟩ := reached.valid.performAll happenings
  obtain ⟨d', there', later⟩ := later i c here
  obtain rfl : d' = d := Option.some.inj (there'.symm.trans there)
  have modest := isModest_deeds reached here silent happenings
  refine ⟨d', there, dispatched, ?_, ?_, modest⟩
  · exact enqueued_of_accepted (reached.valid.conns i c here).orderly
      (valid.conns i d' there).orderly later accepted
  · exact List.flatMap_congr fun deed member => (modest deed member).replies

end World

end PacketWire
