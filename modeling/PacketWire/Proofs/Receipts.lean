import PacketWire.Proofs.EventHandling
import PacketWire.Proofs.Handover

/-!
# What a connection gains

A stretch of a connection adds to its journal what it received, the answer to that, and what it says
by itself. `Gains` puts that into lists: the bodies of frames that were handled, the events that
were deferred and handed on, and the packets that were accepted. `Receipt` says which of them go
together.
-/

namespace PacketWire

namespace Connection

open Entry

/-- What may come of the frames that are read in one stretch: events deferred and handed on. -/
inductive Receipt (c : Connection) : List Bytes → List Event → List Event → Prop
  | nothing : Receipt c [] [] []
  | skips {body : Bytes} : (∀ event, ¬ c.Understands body event) → Receipt c [body] [] []
  | defers {body : Bytes} {event : Event} : c.isDeferred = true → c.Understands body event →
      Receipt c [body] [event] []
  | heeds {body : Bytes} {event : Event} : c.Understands body event → Receipt c [body] [] [event]

/-- What an active connection answers to these events. -/
def answers (c : Connection) (events : List Event) : List Packet :=
  if c.isActive then events.filterMap (Event.answer? c.config.protocolVersion) else []

/-- What entries, latest first, tell of what was received and accepted. -/
structure Tells (journal : List Entry) (bodies : List Bytes) (deferred dispatched : List Event)
    (packets : List Packet) : Prop where
  handled : told handled? journal = bodies
  deferred : told deferred? journal = deferred
  dispatched : told dispatched? journal = dispatched
  accepted : told accepted? journal = packets

/-- What is added in one stretch. -/
structure Gains (kind : Voice → Entry → Prop) (c d : Connection) (bodies : List Bytes)
    (defers hands : List Event) : Prop where
  handled : d.handledBodies = c.handledBodies ++ bodies
  deferred : d.deferredEvents = c.deferredEvents ++ defers
  dispatched : d.dispatchedEvents = c.dispatchedEvents ++ hands
  accepted : ∃ own, d.acceptedPackets = c.acceptedPackets ++ (c.answers hands ++ own) ∧
    ∀ packet ∈ own, kind c.voice (.accepted packet)

variable {kind : Voice → Entry → Prop} {c d : Connection}

/-- What is told of a kind is the entries of that kind. -/
theorem mem_told {α : Type} {kind : Entry → Option α} {make : α → Entry}
    (only : ∀ entry x, kind entry = some x ↔ entry = make x) {x : α} {entries : List Entry} :
    x ∈ told kind entries ↔ make x ∈ entries := by
  simp [told, only]

theorem mem_told_accepted {packet : Packet} {entries : List Entry} :
    packet ∈ told accepted? entries ↔ .accepted packet ∈ entries :=
  mem_told fun entry _ => by cases entry <;> simp [accepted?]

theorem mem_told_handled {body : Bytes} {entries : List Entry} :
    body ∈ told handled? entries ↔ .handled body ∈ entries :=
  mem_told fun entry _ => by cases entry <;> simp [handled?]

theorem mem_told_deferred {event : Event} {entries : List Entry} :
    event ∈ told deferred? entries ↔ .deferred event ∈ entries :=
  mem_told fun entry _ => by cases entry <;> simp [deferred?]

theorem mem_told_dispatched {event : Event} {entries : List Entry} :
    event ∈ told dispatched? entries ↔ .dispatched event ∈ entries :=
  mem_told fun entry _ => by cases entry <;> simp [dispatched?]

theorem answers_nil (c : Connection) : c.answers [] = [] := by
  rw [answers]
  split <;> rfl

theorem answers_singleton (c : Connection) (event : Event) : c.answers [event] =
    if c.isActive then (event.answer? c.config.protocolVersion).toList else [] := by
  rw [answers, List.filterMap_cons, List.filterMap_nil]
  cases event.answer? c.config.protocolVersion <;> rfl

/-- Entries about nothing received tell only of what was accepted. -/
theorem tells_of_not_isReceipt {entries : List Entry}
    (free : ∀ entry ∈ entries, ¬ entry.IsReceipt) :
    Tells entries [] [] [] (told accepted? entries) := by
  have none {α : Type} {kind : Entry → Option α}
      (only : ∀ entry, ¬ entry.IsReceipt → kind entry = none) : told kind entries = [] :=
    told_eq_nil fun entry member => only entry (free entry member)
  refine ⟨none ?_, none ?_, none ?_, rfl⟩
  all_goals
    intro entry free
    cases entry <;> first | rfl | exact absurd trivial free

/-- After these entries came only others about nothing received. -/
theorem Tells.gains {t : Trail} {journal : List Entry} {bodies : List Bytes}
    {defers hands : List Event} (h : Tells journal bodies defers hands (c.answers hands))
    (other : ∀ (v : Voice) (entry : Entry), kind v entry → ¬ entry.IsReceipt)
    (voice : t.voice = c.voice) (before : t.journal = journal ++ c.journal)
    (leaves : Leaves kind t d.trail) : Gains kind c d bodies defers hands := by
  obtain ⟨entries, eq, own⟩ := leaves
  have rest := tells_of_not_isReceipt fun entry member => other _ entry (own entry member)
  have tells {α : Type} (kind : Entry → Option α) :
      d.recount kind = c.recount kind ++ (told kind journal ++ told kind entries) := by
    rw [← told_append]
    refine recount_eq_append kind ?_
    rw [List.append_assoc, ← before]
    exact congrArg Trail.journal eq
  refine ⟨?_, ?_, ?_, told accepted? entries, ?_, fun packet member => ?_⟩
  · rw [handledBodies, tells, h.handled, rest.handled, List.append_nil, handledBodies]
  · rw [deferredEvents, tells, h.deferred, rest.deferred, List.append_nil, deferredEvents]
  · rw [dispatchedEvents, tells, h.dispatched, rest.dispatched, List.append_nil, dispatchedEvents]
  · rw [acceptedPackets, tells, h.accepted, acceptedPackets]
  · exact voice ▸ own _ (mem_told_accepted.mp member)

/-- An event is handed on behind these entries. -/
theorem Tells.heed {t : Trail} {journal : List Entry} {bodies : List Bytes}
    (h : Tells journal bodies [] [] []) (voice : t.voice = c.voice)
    (before : t.journal = journal ++ c.journal) (event : Event) :
    ∃ later, (t.heed c.isActive event).journal = later ++ c.journal ∧
      Tells later bodies [] [event] (c.answers [event]) := by
  obtain ⟨said, eq, chat, answered⟩ := t.heed_eq c.isActive event
  have free := tells_of_not_isReceipt fun entry member =>
    not_isReceipt_of_isChat (chat entry member)
  rw [answered, show t.voice.version = c.config.protocolVersion from congrArg Voice.version voice]
    at free
  refine ⟨said ++ .dispatched event :: journal, by rw [eq, Trail.journal_note, before]; simp, ?_⟩
  constructor
  · simp [h.handled, free.handled, handled?]
  · simp [h.deferred, free.deferred, deferred?]
  · simp [h.dispatched, free.dispatched, dispatched?]
  · rw [answers_singleton]
    simp [h.accepted, free.accepted, accepted?]

section

variable (other : ∀ (v : Voice) (entry : Entry), kind v entry → ¬ entry.IsReceipt)
include other

theorem gains_of_leaves (leaves : Leaves kind c.trail d.trail) : Gains kind c d [] [] [] := by
  have tells : Tells [] [] [] [] (c.answers []) := ⟨rfl, rfl, rfl, (answers_nil c).symm⟩
  exact tells.gains other rfl rfl leaves

/-- An event that a task hands on. -/
theorem gains_of_redeems {event : Event}
    (leaves : Leaves kind (c.trail.heed c.isActive event) d.trail) :
    Gains kind c d [] [] [event] := by
  have tells : Tells [] [] [] [] [] := ⟨rfl, rfl, rfl, rfl⟩
  obtain ⟨later, before, tells⟩ := tells.heed (t := c.trail) (c := c) rfl rfl event
  exact tells.gains other (Trail.voice_heed ..) before leaves

/-- What a stretch adds is what goes with the frame that was read in it. -/
theorem Handles.gains (h : Handles kind c d) :
    ∃ bodies defers hands, Receipt c bodies defers hands ∧ Gains kind c d bodies defers hands := by
  have quiet {journal : List Entry} {bodies : List Bytes} {defers : List Event}
      (h : Tells journal bodies defers [] []) : Tells journal bodies defers [] (c.answers []) :=
    (answers_nil c).symm ▸ h
  cases h with
  | nothing leaves => exact ⟨_, _, _, .nothing, gains_of_leaves other leaves⟩
  | @skips body none leaves =>
      have tells : Tells [.handled body] [body] [] [] [] := ⟨rfl, rfl, rfl, rfl⟩
      exact ⟨_, _, _, .skips none, (quiet tells).gains other rfl rfl leaves⟩
  | @defers body event deferred judged leaves =>
      have tells : Tells [.deferred event, .handled body] [body] [event] [] [] :=
        ⟨rfl, rfl, rfl, rfl⟩
      exact ⟨_, _, _, .defers deferred judged, (quiet tells).gains other rfl rfl leaves⟩
  | @heeds body event judged leaves =>
      have tells : Tells [.handled body] [body] [] [] [] := ⟨rfl, rfl, rfl, rfl⟩
      obtain ⟨later, before, tells⟩ :=
        tells.heed (t := c.trail.log (.handled body)) (c := c) rfl rfl event
      exact ⟨_, _, _, .heeds judged, tells.gains other (Trail.voice_heed ..) before leaves⟩

theorem Receives.gains (h : Receives kind c d) :
    ∃ bodies defers hands, Gains kind c d bodies defers hands := by
  cases h with
  | handles handles =>
      obtain ⟨_, _, _, -, gains⟩ := handles.gains other
      exact ⟨_, _, _, gains⟩
  | redeems _ leaves => exact ⟨_, _, _, gains_of_redeems other leaves⟩

end

end Connection

end PacketWire
