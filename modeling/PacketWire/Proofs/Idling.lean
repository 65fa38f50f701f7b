import PacketWire.Proofs.Reached

/-!
# An outbound loop that waits has nothing to do

Pushes share one wake-up, a frame is not flushed while another packet is queued, and the loop comes
back to its wait in several ways: after a flush, after a keep-alive that was refused, at the end of
an idle period and after a wake-up that was out of date. Whichever way it came, what it leaves
behind is told by the tally of the send queue: there is a wake-up if there is a packet.
-/

namespace PacketWire

open Connection

variable {w : World} {i wake : Nat} {c : Connection}

/-- No outbound loop is stalled, in any run. If the loop waits, was not told to end and no wake-up
is there for it, then nothing is queued, no packet is under way, and each byte of each frame of each
packet ever queued is on the far side of a flush. It then goes on at the end of the idle period and
not before. -/
theorem nothingLeft_of_idle (reached : w.Reachable) (here : w.conns[i]? = some c)
    (idle : c.outbound = .idle wake) (unheard : c.queue.signalled = false)
    (running : c.cancelled = false) :
    c.queue.packets = [] ∧ c.queue.unaccounted = 0 ∧ c.HasDelivered ∧
      ∀ now, (c.outboundStep now).isSome = decide (wake ≤ now) := by
  have valid := reached.valid.conns i c here
  obtain ⟨level, flushed, woken⟩ : c.queue.IsLevel ∧ c.IsFlushed ∧
      (c.queue.packets ≠ [] → c.queue.signalled = true) := by
    simpa only [Tallied, idle] using valid.tallied
  have written : c.HasWritten [] := by
    simpa only [InOrder, idle] using valid.inOrder
  have none : c.queue.packets = [] := by
    by_contra some
    exact absurd (woken some) (by simp [unheard])
  refine ⟨none, ?_, hasDelivered_of_isFlushed flushed none written, ?_⟩
  · rw [show c.queue.unaccounted = c.queue.packets.length from level, none]
    rfl
  · intro now
    simp only [outboundStep, idle, running, unheard, Bool.false_eq_true, if_false]
    split <;> simp_all

/-- A stream connection that was sent two packets and waits. One flush carried both frames, and the
one wake-up that their pushes left was taken in vain, before the loop waited for good. -/
def bothThrough : World :=
  (World.empty 0).performAll [[.start .plain, .call 0 (.send (.keepAlive true)),
    .call 0 (.send (.keepAlive false))], Actor.times 8 (.outbound 0)].flatten

theorem nothingLeft_bothThrough : ∃ c, bothThrough.conns[0]? = some c ∧
    c.enqueuedPackets = [.keepAlive true, .keepAlive false] ∧ c.sink.groups.length = 1 ∧
    c.queue.packets = [] ∧ c.queue.unaccounted = 0 ∧ c.HasDelivered ∧
    ∀ now, (c.outboundStep now).isSome = decide (20000 ≤ now) := by
  have reached : bothThrough.Reachable := (World.Reachable.empty 0 []).performAll _
  obtain ⟨c, here⟩ : ∃ c, bothThrough.conns[0]? = some c := ⟨_, rfl⟩
  have facts : bothThrough.conns[0]?.map (fun c => (c.outbound, c.queue.signalled, c.cancelled,
      c.enqueuedPackets, c.sink.groups.length)) = some (.idle 20000, false, false,
        [.keepAlive true, .keepAlive false], 1) := by
    rfl
  rw [here, Option.map_some, Option.some.injEq] at facts
  simp only [Prod.mk.injEq] at facts
  obtain ⟨idle, unheard, running, enqueued, groups⟩ := facts
  exact ⟨c, here, enqueued, groups, nothingLeft_of_idle reached here idle unheard running⟩

end PacketWire
