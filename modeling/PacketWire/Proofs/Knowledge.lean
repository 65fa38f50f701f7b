import PacketWire.Proofs.Receiving

/-!
# What a connection knows

`Informed` is about the events that were handed on: the version of the other side is that of one of
them, it is known once there was a handshake, and an active connection has answered every request.
`Faithful` is about where events come from: each was made of the body of a frame, and no body that
is certain to be an event was passed over. Both are true of every connection in every run.
-/

namespace PacketWire

open Connection Entry

/-- A body that some connection may take for this event. -/
def Event.IsOf (body : Bytes) (event : Event) : Prop :=
  ∃ r : Reader, r.registry.Sound ∧ r.registry.Guards ∧ r.judge body = .event event

/-- A body that every connection takes for this event. -/
def Event.IsCertain (body : Bytes) (event : Event) : Prop :=
  ∀ r : Reader, r.registry.Guards → r.judge body = .event event

/-! ### What was handed on -/

/-- What a connection knows of the other side, and what it has answered, is what it was told. -/
structure Informed (active : Bool) (t : Trail) : Prop where
  approved : t.versionApproved = decide (t.remoteVersion = some t.voice.version)
  told : ∀ version, t.remoteVersion = some version →
    ∃ event, .dispatched event ∈ t.journal ∧ event.version? = some version
  knows : ∀ event version, .dispatched event ∈ t.journal → event.version? = some version →
    t.remoteVersion ≠ none
  answered : active = true → ∀ event packet, .dispatched event ∈ t.journal →
    event.answer? t.voice.version = some packet → .accepted packet ∈ t.journal

namespace Informed

variable {active active' : Bool} {t u : Trail}

/-- Entries that tell of no event handed on change nothing. -/
theorem grow (h : Informed active t) {entries : List Entry}
    (other : ∀ entry ∈ entries, dispatched? entry = none)
    (onward : active' = true → active = true) :
    Informed active' { t with journal := entries ++ t.journal } := by
  have old {event : Event} (member : .dispatched event ∈ entries ++ t.journal) :
      .dispatched event ∈ t.journal := by
    rcases List.mem_append.mp member with new | old
    · cases other _ new
    · exact old
  refine ⟨h.approved, ?_, ?_, ?_⟩
  · intro version known
    obtain ⟨event, member, tells⟩ := h.told version known
    exact ⟨event, List.mem_append_right _ member, tells⟩
  · intro event version member tells
    exact h.knows event version (old member) tells
  · intro still event packet member answer
    exact List.mem_append_right _ (h.answered (onward still) event packet (old member) answer)

theorem heed (h : Informed active t) (event : Event) : Informed active (t.heed active event) := by
  obtain ⟨answers, eq, chat, accepted⟩ := t.heed_eq active event
  have front : .dispatched event ∈ answers ++ .dispatched event :: t.journal := by simp
  have keeps {entry : Entry} (member : entry ∈ t.journal) :
      entry ∈ answers ++ .dispatched event :: t.journal := by simp [member]
  have old {other : Event}
      (member : .dispatched other ∈ answers ++ .dispatched event :: t.journal) :
      other = event ∨ .dispatched other ∈ t.journal := by
    rcases List.mem_append.mp member with answer | rest
    · exact (chat _ answer).elim
    · simpa using rest
  have answered : active = true → ∀ other packet,
      .dispatched other ∈ answers ++ .dispatched event :: t.journal →
      other.answer? t.voice.version = some packet →
      .accepted packet ∈ answers ++ .dispatched event :: t.journal := by
    intro still other packet member answer
    rcases old member with rfl | before
    · have mine : packet ∈ Entry.told accepted? answers := by
        rw [accepted, still, answer]
        exact List.mem_singleton_self packet
      exact List.mem_append_left _ (mem_told_accepted.mp mine)
    · exact keeps (h.answered still other packet before answer)
  rw [eq, Trail.note]
  split
  · rename_i version tells
    refine ⟨by simp [Trail.learn], ?_, fun _ _ _ _ => by simp [Trail.learn], answered⟩
    rintro _ ⟨⟩
    exact ⟨event, front, tells⟩
  · rename_i silent
    refine ⟨h.approved, ?_, ?_, answered⟩
    · intro version known
      obtain ⟨other, member, tells⟩ := h.told version known
      exact ⟨other, keeps member, tells⟩
    · intro other version member tells
      rcases old member with rfl | before
      · cases silent.symm.trans tells
      · exact h.knows other version before tells

end Informed

/-! ### What frames meant -/

/-- Events come from frames, and a frame that is certain to be an event is not passed over. -/
structure Faithful (journal : List Entry) : Prop where
  meant : ∀ event, .deferred event ∈ journal ∨ .dispatched event ∈ journal →
    ∃ body, .handled body ∈ journal ∧ event.IsOf body
  heeded : ∀ body event, .handled body ∈ journal → event.IsCertain body →
    .deferred event ∈ journal ∨ .dispatched event ∈ journal

namespace Faithful

variable {journal aside : List Entry} {c d : Connection}

theorem append (h : Faithful journal) (receipts : List Entry)
    (meant : ∀ event, .deferred event ∈ receipts ∨ .dispatched event ∈ receipts →
      ∃ body, .handled body ∈ receipts ++ journal ∧ event.IsOf body)
    (heeded : ∀ body event, .handled body ∈ receipts → event.IsCertain body →
      .deferred event ∈ receipts ∨ .dispatched event ∈ receipts) :
    Faithful (receipts ++ journal) := by
  simp only [List.mem_append] at meant
  constructor
  · intro event told
    simp only [List.mem_append] at told ⊢
    by_cases new : .deferred event ∈ receipts ∨ .dispatched event ∈ receipts
    · exact meant event new
    · obtain ⟨body, member, means⟩ := h.meant event (by tauto)
      exact ⟨body, .inr member, means⟩
  · intro body event member certain
    simp only [List.mem_append] at member ⊢
    rcases member with new | old
    · have told := heeded body event new certain
      tauto
    · have told := h.heeded body event old certain
      tauto

/-- Entries about nothing received change nothing. -/
theorem grow (h : Faithful journal) (free : ∀ entry ∈ aside, ¬ entry.IsReceipt) :
    Faithful (aside ++ journal) := by
  refine h.append aside ?_ fun body _ member => absurd trivial (free (.handled body) member)
  rintro event (deferred | dispatched)
  · exact absurd trivial (free (.deferred event) deferred)
  · exact absurd trivial (free (.dispatched event) dispatched)

/-- A frame is understood in one way. -/
theorem frame (h : Faithful journal) {told : Entry} {body : Bytes} {event : Event}
    (sound : c.registry.Sound) (guards : c.registry.Guards) (judged : c.Understands body event)
    (tells : told = .deferred event ∨ told = .dispatched event) :
    Faithful (told :: .handled body :: journal) := by
  obtain ⟨r, registry, judged⟩ := judged
  refine h.append [told, .handled body] ?_ ?_
  · intro other about
    obtain rfl : other = event := by
      rcases tells with rfl | rfl <;> simpa using about
    exact ⟨body, by simp, r, registry ▸ sound, registry ▸ guards, judged⟩
  · intro body' other member certain
    obtain rfl : body' = body := by
      rcases tells with rfl | rfl <;> simpa using member
    obtain rfl : event = other := by
      have same := judged.symm.trans (certain r (registry ▸ guards))
      cases same
      rfl
    rcases tells with rfl | rfl <;> simp

theorem receives {kind : Voice → Entry → Prop}
    (other : ∀ (v : Voice) (entry : Entry), kind v entry → ¬ entry.IsReceipt)
    (sound : c.registry.Sound) (guards : c.registry.Guards) (h : Faithful c.journal)
    (receives : Receives kind c d) : Faithful d.journal := by
  have leaves {t : Trail} (h : Faithful t.journal) (leaves : Leaves kind t d.trail) :
      Faithful d.journal := by
    obtain ⟨entries, eq, own⟩ := leaves
    rw [show d.journal = entries ++ t.journal from congrArg Trail.journal eq]
    exact h.grow fun entry member => other _ entry (own entry member)
  have heed {t : Trail} {active : Bool} {event : Event}
      (h : Faithful (.dispatched event :: t.journal)) :
      Faithful (t.heed active event).journal := by
    obtain ⟨answers, eq, chat, -⟩ := t.heed_eq active event
    rw [eq, Trail.journal_note]
    exact h.grow fun entry member => not_isReceipt_of_isChat (chat entry member)
  cases receives with
  | handles handles =>
      cases handles with
      | nothing left => exact leaves h left
      | @skips body none left =>
          refine leaves (h.append [.handled body] (by simp) ?_) left
          intro body' event member certain
          obtain rfl : body' = body := by simpa using member
          exact absurd ⟨⟨0, c.registry, false⟩, rfl, certain _ guards⟩ (none event)
      | defers _ judged left => exact leaves (h.frame sound guards judged (.inl rfl)) left
      | @heeds body _ judged left =>
          have told := h.frame sound guards judged (.inr rfl)
          exact leaves (heed (t := c.trail.log (.handled body)) told) left
  | @redeems event owed left =>
      obtain ⟨body, member, means⟩ := h.meant event (.inl owed)
      refine leaves (heed (t := c.trail) (h.append [.dispatched event] ?_ (by simp))) left
      intro other about
      obtain rfl : other = event := by simpa using about
      exact ⟨body, by simp [member], means⟩

end Faithful

/-! ### Every connection -/

/-- What was received and what came of it. -/
structure Knowing (c : Connection) : Prop where
  informed : Informed c.isActive c.trail
  faithful : Faithful c.journal

theorem knowing_start (setup : Setup) (now : Nat) : Knowing (.start setup now) where
  informed := ⟨rfl, by simp [start, trail], by simp [start, trail], by simp [start, trail]⟩
  faithful := ⟨by simp [start], by simp [start]⟩

/-- All that a connection receives adds to what it knows. -/
theorem Knowing.receives {kind : Voice → Entry → Prop} {c d : Connection}
    (other : ∀ (v : Voice) (entry : Entry), kind v entry → ¬ entry.IsReceipt)
    (sound : c.registry.Sound) (guards : c.registry.Guards) (later : c.Later d) (h : Knowing c)
    (receives : Receives kind c d) : Knowing d := by
  refine ⟨?_, h.faithful.receives other sound guards receives⟩
  have leaves {t : Trail} (h : Informed c.isActive t) (leaves : Leaves kind t d.trail) :
      Informed d.isActive d.trail := by
    obtain ⟨entries, eq, own⟩ := leaves
    rw [eq]
    refine h.grow (fun entry member => ?_) fun active => ?_
    · have aside := other _ entry (own entry member)
      cases entry <;> first | rfl | exact absurd trivial aside
    · exact Bool.of_not_eq_false fun inactive => by
        simp [later.isActive_eq_false inactive] at active
  have log {t : Trail} {entry : Entry} (h : Informed c.isActive t)
      (silent : dispatched? entry = none) : Informed c.isActive (t.log entry) := by
    have alone : ∀ other ∈ [entry], dispatched? other = none := by simpa using silent
    exact h.grow alone id
  cases receives with
  | handles handles =>
      cases handles with
      | nothing left => exact leaves h.informed left
      | skips _ left => exact leaves (log h.informed rfl) left
      | defers _ _ left => exact leaves (log (log h.informed rfl) rfl) left
      | heeds _ left => exact leaves ((log h.informed rfl).heed _) left
  | redeems _ left => exact leaves (h.informed.heed _) left

end PacketWire
