import PacketWire.Proofs.Reached

/-!
# How a connection says goodbye

The close message is the last thing that a connection sends. Once it has left `active` nothing is
accepted from anybody, and what it has queued by then ends with that message. A close that finds
the send queue drained while the outbound loop runs may tell the loops to end, since then all of
this has gone through.
-/

namespace PacketWire

open Connection

variable {w : World} {i : Nat} {c : Connection}

/-- The orderly close, in every run. From the moment a connection leaves `active`, inside the hook
that tells of it and ever after, what the application, its listener, the automatic replies and the
keep-alives want to send is refused; the engine puts one close message behind what was accepted
before, and nothing follows it whatever happens. A close that begins while the outbound loop runs
has to wait, and if it then finds the send queue drained, every packet has been delivered. -/
theorem orderlyClose_of_reachable (reached : w.Reachable) (here : w.conns[i]? = some c) :
    (c.state ≠ .active →
      (∀ packet, c.send packet = .error .closed) ∧
      (∀ kind, c.sendHandshake kind = .error .closed) ∧
      c.enqueuedPackets = c.acceptedPackets ++ [.farewell] ∧
      ∀ happenings, ∃ d, (w.performAll happenings).conns[i]? = some d ∧ d.state ≠ .active ∧
        d.enqueuedPackets = c.enqueuedPackets) ∧
      (∀ call state results, .hook call state results ∈ c.journal → state ≠ .active →
        Refused c.listener call results) ∧
      (c.outboundStopped = false → ∀ onLoop now,
        (∀ message expected,
          (c.close onLoop now message expected).1.cancelled = c.cancelled) ∧
        (∀ cause, (c.fail onLoop now cause).1.cancelled = c.cancelled) ∧
        ∀ deadline wake, c.cancelled = false → now < deadline →
          (c.proceedClose onLoop now (.draining deadline wake)).1.cancelled = true →
          c.HasDelivered) ∧
      (c.outboundStopped = false → c.queue.isDrained = true → c.HasDelivered) := by
  have valid := reached.valid.conns i c here
  have delivered (running : c.outboundStopped = false) (drained : c.queue.isDrained = true) :
      c.HasDelivered := hasDelivered_of_isDrained valid.tallied valid.inOrder drained running
  refine ⟨?_, valid.rebuffed, ?_, delivered⟩
  · intro left
    have inactive := isActive_eq_false left
    refine ⟨send_eq_error inactive, sendHandshake_eq_error inactive, ?_, ?_⟩
    · simpa [inactive] using valid.orderly.enqueued
    · intro happenings
      obtain ⟨valid', later⟩ := reached.valid.performAll happenings
      obtain ⟨d, there, later⟩ := later i c here
      obtain ⟨still, same⟩ := valid.orderly.sealed (valid'.conns i d there).orderly later inactive
      exact ⟨d, there, by simpa [isActive] using still, same⟩
  · intro running onLoop now
    refine ⟨cancelled_close running onLoop now, cancelled_fail running onLoop now, ?_⟩
    intro deadline wake uncancelled early told
    apply delivered running
    cases drained : c.queue.isDrained with
    | true => rfl
    | false =>
        have waits : c.isDrainOver deadline now = false := by
          simp [isDrainOver, drained, running, early]
        simp [proceedClose, waits, uncancelled] at told

/-- A connection that is closing and has written everything. -/
def lastWords : World :=
  (World.empty 0).performAll ([.start .plain, .call 0 (.send (.keepAlive true)),
    .errands [.close 0], .run (.task 0)] ++ List.replicate 8 (.run (.outbound 0)))

theorem orderlyClose_lastWords : ∃ c, lastWords.conns[0]? = some c ∧
    c.enqueuedPackets = [.keepAlive true, .farewell] ∧ c.HasDelivered ∧
    ∀ happenings, ∃ d, (lastWords.performAll happenings).conns[0]? = some d ∧
      d.enqueuedPackets = c.enqueuedPackets := by
  have reached : lastWords.Reachable := (World.Reachable.empty 0 []).performAll _
  obtain ⟨c, here⟩ : ∃ c, lastWords.conns[0]? = some c := ⟨_, rfl⟩
  obtain ⟨left, -, -, delivered⟩ := orderlyClose_of_reachable reached here
  have facts : lastWords.conns[0]?.map
      (fun c => (c.state, c.outboundStopped, c.queue.isDrained)) =
      some (.closing, false, true) := by
    decide
  have accepted : lastWords.conns[0]?.map (·.acceptedPackets) = some [.keepAlive true] := rfl
  rw [here, Option.map_some, Option.some.injEq] at facts accepted
  simp only [Prod.mk.injEq] at facts
  obtain ⟨closing, running, drained⟩ := facts
  obtain ⟨-, -, ended, last⟩ := left (by rw [closing]; decide)
  refine ⟨c, here, by rw [ended, accepted]; rfl, delivered running drained, ?_⟩
  intro happenings
  obtain ⟨d, there, -, same⟩ := last happenings
  exact ⟨d, there, same⟩

end PacketWire
