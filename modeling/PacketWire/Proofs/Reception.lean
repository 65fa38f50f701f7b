import PacketWire.Proofs.Resting
import PacketWire.Proofs.Run

/-!
# What a connection makes of the bytes it receives

However the bytes that a connection receives are cut into chunks, and whatever else goes on between
two stretches of its inbound loop, it does for its listeners what `Reader.read` says of the bytes
alone. `Undisturbed` are the runs that this is about: those in which nobody but the other side acts
on the connection, except by sending.
-/

namespace PacketWire

namespace Connection

variable {r : Reader} {c d : Connection}

/-- Settings with which the connection hands on at once what it receives, to a listener that does
nothing about it. -/
structure Setup.IsPassive (s : Setup) : Prop where
  inline : s.delivery = .inline
  idle : Listener.Idle s.listener

/-- What the bytes mean under these settings. -/
def Setup.reader (s : Setup) : Reader :=
  ⟨s.config.maxFrameLength, s.registry, s.config.notifyControl⟩

/-- The runs of a connection that is fed these chunks and then this end, if any. Either loop takes
its next stretch, if it need not wait, whenever it may; time passes; packets that can be written
are sent, and others wait for the loops; and the transport takes as much as it likes, or nothing,
but it does not fail. -/
inductive Undisturbed (setup : Setup) (since : Nat) :
    List Bytes → Option Ending → Nat → Connection → Prop
  | start : Undisturbed setup since [] none since (start setup since)
  | pass {chunks ending now c} (span : Nat) :
      Undisturbed setup since chunks ending now c →
      Undisturbed setup since chunks ending (now + span) c
  | inbound {chunks ending now c} :
      Undisturbed setup since chunks ending now c →
      Undisturbed setup since chunks ending now ((c.inboundStep now).getD c)
  | outbound {chunks ending now c} :
      Undisturbed setup since chunks ending now c →
      Undisturbed setup since chunks ending now ((c.outboundStep now).getD c)
  | feed {chunks now c} (chunk : Bytes) :
      Undisturbed setup since chunks none now c →
      Undisturbed setup since (chunks ++ [chunk]) none now ((Transit.feed chunk).act c)
  | finish {chunks now c} (ending : Ending) :
      Undisturbed setup since chunks none now c →
      Undisturbed setup since chunks (some ending) now ((Transit.finish ending).act c)
  | weather {chunks ending now c} (room : Option Nat) (flushStalls shutdownStalls : Bool) :
      Undisturbed setup since chunks ending now c →
      Undisturbed setup since chunks ending now
        ((Transit.weather room none none flushStalls shutdownStalls).act c)
  | send {chunks ending now c} (packet : Packet) : Frame.Writable packet →
      Undisturbed setup since chunks ending now c →
      Undisturbed setup since chunks ending now ((Call.send packet).act c)
  | handshake {chunks ending now c} (kind : HandshakeKind) :
      Undisturbed setup since chunks ending now c →
      Undisturbed setup since chunks ending now ((Call.handshake kind).act c)
  | join {chunks ending now c} :
      Undisturbed setup since chunks ending now c →
      Undisturbed setup since chunks ending now c.takeLoops.2

/-- The invariant of undisturbed runs, and what they were fed. -/
structure Hears (r : Reader) (chunks : List Bytes) (ending : Option Ending) (c : Connection) :
    Prop where
  relays : Relays r c
  fed : c.source.fed = chunks.flatten
  ending : c.source.ending = ending

variable {setup : Setup} {since now : Nat} {chunks : List Bytes} {ending : Option Ending}

theorem hears_start (passive : setup.IsPassive) (since : Nat) :
    Hears setup.reader [] none (start setup since) where
  relays :=
    { healthy := ⟨⟨rfl, rfl⟩, fun _ member => by cases member⟩
      steady := ⟨passive.inline, passive.idle, rfl⟩
      placed := ⟨rfl, rfl, rfl, rfl⟩
      account := fun _ _ _ => rfl }
  fed := rfl
  ending := rfl

theorem Hears.quiet (h : Hears r chunks ending c) (quiet : Quiet c d) :
    Hears r chunks ending d := by
  have source : d.source = c.source := congrArg Intake.source quiet.intake
  exact ⟨h.relays.quiet quiet, source ▸ h.fed, source ▸ h.ending⟩

/-- Whatever else happens, what was done for the listeners and what is owed to them is right. -/
theorem Undisturbed.hears (passive : setup.IsPassive)
    (run : Undisturbed setup since chunks ending now c) : Hears setup.reader chunks ending c := by
  induction run with
  | start => exact hears_start passive since
  | pass span run ih => exact ih
  | @inbound chunks ending now c run ih =>
      cases step : c.inboundStep now with
      | none => exact ih
      | some d =>
          obtain ⟨fed, same⟩ := ih.relays.input_eq step
          exact ⟨relays_inboundStep ih.relays step, fed.trans ih.fed, same.trans ih.ending⟩
  | @outbound chunks ending now c run ih =>
      cases step : c.outboundStep now with
      | none => exact ih
      | some d => exact ih.quiet (quiet_outboundStep ih.relays.healthy step)
  | @feed chunks now c chunk run ih =>
      refine ⟨?_, ?_, ih.ending⟩
      · refine relays_input ih.relays (c.source.feed chunk) c.readAhead chunk ?_ rfl ?_
        · simp [Source.feed, Intake.unread, intake]
        · intro ending more may known ended
          rw [ih.ending] at ended
          cases ended
      · change c.source.fed ++ chunk = _
        rw [ih.fed, List.flatten_append, List.flatten_singleton]
  | @finish chunks now c ending run ih =>
      refine ⟨?_, ih.fed, ?_⟩
      · refine relays_input ih.relays (c.source.finish ending) c.readAhead [] ?_
          (List.append_nil _).symm ?_
        · exact (List.append_nil _).symm
        · intro ending' more may known ended
          rw [ih.ending] at ended
          cases ended
      · change c.source.ending.or (some ending) = _
        rw [ih.ending]
        rfl
  | @weather chunks ending now c room flushStalls shutdownStalls run ih =>
      apply ih.quiet
      exact .of_eq ih.relays.healthy rfl rfl ⟨rfl, rfl⟩ (List.Subset.refl _)
  | send packet writable run ih => exact ih.quiet (quiet_send ih.relays.healthy writable)
  | handshake kind run ih => exact ih.quiet (quiet_sendHandshake ih.relays.healthy kind)
  | join run ih =>
      exact ih.quiet (.of_eq ih.relays.healthy rfl rfl ih.relays.healthy.sink (List.Subset.refl _))

/-- The hooks are the calls among what was done for the listeners. -/
theorem hooks_eq (c : Connection) : c.hooks = c.sights.filterMap Sight.call? := by
  simp only [hooks, sights, recount]
  rw [List.filterMap_filterMap]
  congr 1
  funext entry
  cases entry <;> rfl

/-- However the bytes that a connection receives were cut into chunks, and whatever else goes on
that does not disturb it, what it does for its listeners is what the bytes mean, from the first on,
and everything of it where the loop has nothing left to do. The loop comes to such a point by
itself. -/
theorem sights_eq_read (passive : setup.IsPassive)
    (run : Undisturbed setup since chunks ending now c) :
    c.sights <+: setup.reader.read ending chunks.flatten ∧
      (c.Spent → c.sights = setup.reader.read ending chunks.flatten) ∧
      (c.hooks = c.sights.filterMap Sight.call?) ∧
      ∃ later d, GoesOn now c later d ∧ d.Spent ∧
        d.sights = setup.reader.read ending chunks.flatten := by
  obtain ⟨relays, fed, same⟩ := run.hears passive
  have account := relays.account ending [] (by
    intro known ended
    exact ⟨same.symm.trans ended, rfl⟩)
  rw [List.append_nil, fed] at account
  refine ⟨account ▸ List.prefix_append _ _, ?_, hooks_eq c, ?_⟩
  · intro spent
    rw [relays.eq_read spent, fed, same]
  · obtain ⟨later, d, goesOn, relays, spent, fed', same'⟩ := goesOn_spent relays now
    refine ⟨later, d, goesOn, spent, ?_⟩
    rw [relays.eq_read spent, fed', same', fed, same]

/-- A frame with an id that nobody knows, cut within its length and within its id. -/
def cutUp : List Bytes := [[0, 0], [0, 2, 0], [5]]

theorem sights_eq_read_cutUp : ∃ c, Undisturbed {} 0 cutUp (some .endOfStream) closeTimeout c ∧
    c.hooks = [.unknown 5, .closed endOfStream true] ∧
    c.sights = (Setup.reader {}).read (some .endOfStream) cutUp.flatten := by
  have passive : Setup.IsPassive {} := ⟨rfl, fun _ _ => rfl⟩
  obtain ⟨c, fed, rfl⟩ : ∃ c, Undisturbed {} 0 cutUp (some .endOfStream) 0 c ∧
      c = { start {} 0 with source := ⟨cutUp, some .endOfStream, cutUp.flatten⟩ } :=
    ⟨_, .finish .endOfStream (.feed [5] (.feed [0, 2, 0] (.feed [0, 0] .start))), rfl⟩
  have read := fed.inbound.inbound.inbound.inbound.inbound.inbound
  have closed := (read.pass closeTimeout).inbound
  exact ⟨_, closed, rfl, (sights_eq_read passive closed).2.1 fun _ => rfl⟩

end Connection

end PacketWire
