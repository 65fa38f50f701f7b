import PacketWire.Proofs.Moves

/-!
# Nothing read is lost

All that a connection was ever fed is in one of three places: in the frames that it handled, in
what it read ahead, or in its source. `Coherent` says so, together with where the events come
from that are handed to the listeners: each has the id of a frame that was handled.
-/

namespace PacketWire

namespace Entry

/-- The event that was deferred or handed on. -/
def event? : Entry → Option Event
  | deferred event => some event
  | dispatched event => some event
  | _ => none

theorem isAloof_event : IsAloof event? where
  isBlind := by
    intro entry chat
    cases entry <;> first | rfl | exact chat.elim
  hook := fun _ _ _ => rfl

end Entry

namespace Connection

open Entry

structure Coherent (c : Connection) : Prop where
  sound : c.registry.Sound
  fed : c.source.fed =
    c.handledBodies.flatMap Frame.ofBody ++ c.readAhead ++ c.source.chunks.flatten
  short : ∀ body ∈ c.handledBodies, body.length ≤ Frame.maxBody
  received : ∀ event ∈ c.recount event?, c.HasReceived event

variable {c d : Connection}

theorem coherent_start {setup : Setup} (sound : setup.registry.Sound) (now : Nat) :
    (start setup now).Coherent where
  sound := sound
  fed := rfl
  short := by
    intro body member
    cases member
  received := by
    intro event member
    cases member

theorem HasReceived.mono {event : Event} (h : c.HasReceived event)
    (handled : c.handledBodies <+: d.handledBodies) : d.HasReceived event := by
  obtain ⟨body, member, id⟩ := h
  exact ⟨body, handled.subset member, id⟩

/-- What is deferred was received, and so was what is handed on. -/
theorem mem_event_of_mem_journal {event : Event} (h : .deferred event ∈ c.journal) :
    event ∈ c.recount event? :=
  List.mem_filterMap.mpr ⟨_, List.mem_reverse.mpr h, rfl⟩

theorem Coherent.of_eq (h : c.Coherent) (registry : d.registry = c.registry)
    (source : d.source = c.source) (readAhead : d.readAhead = c.readAhead)
    (handled : d.recount handled? = c.recount handled?)
    (events : d.recount event? = c.recount event?) :
    d.Coherent := by
  obtain ⟨sound, fed, short, received⟩ := h
  constructor
  · rwa [registry]
  · rwa [source, readAhead, handledBodies, handled]
  · rwa [handledBodies, handled]
  · intro event member
    rw [events] at member
    exact (received event member).mono (by simp [handledBodies, handled])

/-- Hooks and what is done in them leave the reading alone. -/
theorem Coherent.of_machinery_eq (h : c.Coherent) (machinery : d.machinery = c.machinery)
    (aloof : ∀ {α : Type} {kind : Entry → Option α}, IsAloof kind →
      d.recount kind = c.recount kind) :
    d.Coherent :=
  h.of_eq (congrArg Machinery.registry machinery) (congrArg Machinery.source machinery)
    (congrArg Machinery.readAhead machinery) (aloof isAloof_handled) (aloof isAloof_event)

/-- An entry about an event that was received. -/
theorem Coherent.log_event (h : c.Coherent) {entry : Entry} {event : Event}
    (about : event? entry = some event) (unhandled : handled? entry = none)
    (received : c.HasReceived event) : (c.log entry).Coherent := by
  have handled : (c.log entry).handledBodies = c.handledBodies := by
    rw [handledBodies, recount_log, unhandled, Option.toList_none, List.append_nil, handledBodies]
  refine ⟨h.sound, by rw [handled]; exact h.fed, by rw [handled]; exact h.short, ?_⟩
  intro event' member
  rw [recount_log, about] at member
  rcases List.mem_append.mp member with old | new
  · exact (h.received event' old).mono (by simp [handled])
  · obtain rfl : event' = event := by simpa using new
    exact received.mono (by simp [handled])

theorem Coherent.move (h : c.Coherent) (move : Move c d) : d.Coherent := by
  cases move with
  | chat chat =>
      exact h.of_machinery_eq chat.machinery_eq fun aloof => chat.recount_of_isBlind aloof.isBlind
  | hook call plain =>
      exact h.of_machinery_eq (machinery_callHook call c) fun aloof =>
        recount_callHook_of_isAloof aloof call c
  | hear | touch | go | takeLoops | cancel => exact h.of_eq rfl rfl rfl rfl rfl
  | register registered => exact ⟨h.sound.registerType registered, h.fed, h.short, h.received⟩
  | readAhead more =>
      refine ⟨h.sound, ?_, h.short, h.received⟩
      change c.source.fed = _
      rw [h.fed, more]
      simp
      rfl
  | @frame body rest next =>
      obtain ⟨cut, -, -, short⟩ := Frame.eq_of_next next
      have handled : ({ c with readAhead := rest }.log (.handled body)).handledBodies =
          c.handledBodies ++ [body] := recount_log handled? _ _
      refine ⟨h.sound, ?_, ?_, ?_⟩
      · rw [handled]
        change c.source.fed = _
        rw [h.fed, cut]
        simp
        rfl
      · rw [handled]
        intro body' member
        rcases List.mem_append.mp member with old | new
        · exact h.short body' old
        · exact List.mem_singleton.mp new ▸ short
      · intro event member
        rw [recount_log] at member
        change event ∈ c.recount event? ++ [] at member
        have old : event ∈ c.recount event? := by simpa using member
        exact (h.received event old).mono ⟨[body], by rw [handled]⟩
  | defer _ _ _ _ received => exact h.log_event rfl rfl received
  | dispatch received =>
      apply h.log_event rfl rfl
      rcases received with now | before
      · exact now
      · exact h.received _ (mem_event_of_mem_journal before)
  | leave message active =>
      exact h.of_machinery_eq (machinery_startClosing message true c) fun aloof =>
        recount_startClosing_of_isAloof aloof message true c
  | fail cause active =>
      refine h.of_machinery_eq ?_ fun aloof => ?_
      · rw [machinery_startClosing, machinery_callHook]
        rfl
      · rw [recount_startClosing_of_isAloof aloof, recount_callHook_of_isAloof aloof]
        rfl
  | markClosed =>
      refine h.of_eq rfl rfl rfl ?_ ?_ <;>
        exact (recount_markClosed _ c).trans (List.append_nil _)

/-- Only the transport gives a connection more input. -/
theorem fed_of_moves (moves : Moves c d) : d.source.fed = c.source.fed := by
  induction moves with
  | refl => rfl
  | tail _ move ih =>
      refine Eq.trans ?_ ih
      cases move with
      | chat chat => exact congrArg (·.source.fed) chat.machinery_eq
      | hook call => exact congrArg (·.source.fed) (machinery_callHook call _)
      | leave message => exact congrArg (·.source.fed) (machinery_startClosing message true _)
      | fail cause =>
          exact congrArg (·.source.fed)
            ((machinery_startClosing cause.message false _).trans (machinery_callHook _ _))
      | _ => rfl

theorem Coherent.feed (h : c.Coherent) (chunk : Bytes) :
    Coherent { c with source := c.source.feed chunk } := by
  refine ⟨h.sound, ?_, h.short, h.received⟩
  change c.source.fed ++ chunk = _ ++ (c.source.chunks ++ [chunk]).flatten
  rw [h.fed]
  simp
  rfl

theorem Coherent.changes (h : c.Coherent) (changes : Changes c d) : d.Coherent := by
  induction changes with
  | refl => exact h
  | tail _ change ih =>
      cases change with
      | move move => exact ih.move move
      | feed chunk => exact ih.feed chunk
      | finish => exact ⟨ih.sound, ih.fed, ih.short, ih.received⟩
      | due =>
          refine ih.of_eq rfl rfl rfl ?_ ?_ <;>
            exact (recount_log _ (.keepAliveDue _) _).trans (List.append_nil _)
      | write | place => exact ih.of_eq rfl rfl rfl rfl rfl

end Connection

end PacketWire
