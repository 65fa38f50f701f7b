import PacketWire.Proofs.Moves

/-!
# The life of a connection

A connection is active until closing begins, and what was told of its end follows from the state
alone: nothing while it is active; afterwards either a closing that was expected, or a failure
and the unexpected closing that it caused. `Orderly` says this together with what the other
guards of a connection hold in each state; every piece of what happens to a connection keeps it.
`Later` is what any two points of one life have in common.
-/

namespace PacketWire

namespace Lifecycle

/-- The place of a state in the order in which states are passed through. -/
def rank : Lifecycle → Nat
  | active => 0
  | closing => 1
  | closed => 2

end Lifecycle

/-- What the listener was told of the end of a connection that is not active any more. -/
inductive EndTold : List HookCall → Prop
  | expected (message : String) : EndTold [.closed message true]
  | failure (cause : Error) : EndTold [.failed cause, .closed cause.message false]

namespace Connection

open Entry

/-- What the invariants of a connection's life speak of. -/
structure Account where
  state : Lifecycle
  failureNotified : Bool
  closeNotified : Bool
  cancelled : Bool
  notifications : List HookCall
  detachments : Nat
  accepted : List Packet
  enqueued : List Packet

def account (c : Connection) : Account :=
  ⟨c.state, c.failureNotified, c.closeNotified, c.cancelled, c.notifications, c.detachments,
    c.acceptedPackets, c.enqueuedPackets⟩

structure Orderly (c : Connection) : Prop where
  fresh : c.isActive = true → c.notifications = [] ∧ c.failureNotified = false ∧
    c.closeNotified = false ∧ c.cancelled = false
  told : c.isActive = false → EndTold c.notifications
  cancelled : c.state = .closed → c.cancelled = true
  detached : c.detachments = if c.state = .closed then 1 else 0
  /-- All that is sent was accepted, but for the close message at the end. -/
  enqueued : c.enqueuedPackets = c.acceptedPackets ++ if c.isActive then [] else [.farewell]

/-- What is true of a connection that was `c` before. -/
structure Later (c d : Connection) : Prop where
  ahead : c.state.rank ≤ d.state.rank
  /-- Once a connection has left `active`, nothing more is told of its end, nor sent. -/
  silent : c.isActive = false →
    d.notifications = c.notifications ∧ d.acceptedPackets = c.acceptedPackets
  journal : c.journal <:+ d.journal
  taken : c.sink.taken <+: d.sink.taken
  settings : d.config = c.config ∧ d.listener = c.listener ∧ d.delivery = c.delivery

variable {c d e : Connection}

theorem orderly_start (setup : Setup) (now : Nat) : (start setup now).Orderly where
  fresh := fun _ => ⟨rfl, rfl, rfl, rfl⟩
  told := by
    intro inactive
    cases inactive
  cancelled := by
    intro closed
    cases closed
  detached := rfl
  enqueued := rfl

theorem Orderly.inactive_of_cancelled (h : c.Orderly) (cancelled : c.cancelled = true) :
    c.isActive = false := by
  cases active : c.isActive with
  | false => rfl
  | true =>
      rw [(h.fresh active).2.2.2] at cancelled
      cases cancelled

theorem Orderly.of_account_eq (h : c.Orderly) (same : d.account = c.account) : d.Orderly := by
  obtain ⟨fresh, told, cancelled, detached, enqueued⟩ := h
  simp only [account, Account.mk.injEq] at same
  obtain ⟨state, failed, closed, cancel, notifications, detachments, accepted, queued⟩ := same
  constructor <;> simp only [isActive, state, failed, closed, cancel, notifications, detachments,
    accepted, queued] <;> assumption

/-- Entries that tell neither of packets sent nor of the end change nothing. -/
theorem account_log {entry : Entry} (notification : notification? entry = none)
    (detached : detached? entry = none) (accepted : accepted? entry = none)
    (enqueued : enqueued? entry = none) (c : Connection) : (c.log entry).account = c.account := by
  simp only [account, notifications, detachments, acceptedPackets, enqueuedPackets, recount_log,
    notification, detached, accepted, enqueued, Option.toList_none, List.append_nil]
  rfl

/-- More was sent, nothing else happened. -/
theorem Orderly.sends (h : c.Orderly) (standing : d.standing = c.standing)
    (notifications : d.notifications = c.notifications)
    (detachments : d.detachments = c.detachments)
    {packets : List Packet} (accepted : d.acceptedPackets = c.acceptedPackets ++ packets)
    (enqueued : d.enqueuedPackets = c.enqueuedPackets ++ packets)
    (quiet : c.isActive = false → packets = []) : d.Orderly := by
  simp only [Connection.standing, Standing.mk.injEq] at standing
  obtain ⟨state, failed, closed, cancelled, stopped⟩ := standing
  cases active : c.isActive with
  | false =>
      apply h.of_account_eq
      obtain rfl := quiet active
      simp [account, state, failed, closed, cancelled, notifications, detachments, accepted,
        enqueued]
  | true =>
      have still : d.isActive = true := by simpa [isActive, state] using active
      obtain ⟨none, unfailed, unclosed, running⟩ := h.fresh active
      have before := h.enqueued
      constructor
      · intro _
        exact ⟨notifications.trans none, failed.trans unfailed, closed.trans unclosed,
          cancelled.trans running⟩
      · intro inactive
        rw [still] at inactive
        cases inactive
      · intro ended
        rw [cancelled]
        exact h.cancelled (state.symm.trans ended)
      · rw [detachments, state]
        exact h.detached
      · simp only [active, if_true, List.append_nil] at before
        rw [enqueued, accepted, before]
        simp [still]

/-- Closing begins; what it tells completes what was told before in the same piece. -/
theorem orderly_startClosing {message : String} {expected : Bool}
    (unclosed : c.closeNotified = false) (attached : c.detachments = 0)
    (settled : c.enqueuedPackets = c.acceptedPackets)
    (told : EndTold (c.notifications ++ [.closed message expected])) :
    (c.startClosing message expected).Orderly := by
  have left : (c.startClosing message expected).state = .closing :=
    state_startClosing message expected c
  obtain ⟨accepted, enqueued, -⟩ := sends_startClosing message expected unclosed
  constructor
  · intro still
    simp [isActive, left] at still
  · intro _
    rwa [notifications_startClosing message expected unclosed]
  · intro closed
    rw [left] at closed
    cases closed
  · rw [detachments_startClosing message expected, attached, left]
    rfl
  · rw [enqueued, accepted, settled]
    simp [isActive, left]

theorem Orderly.leave (h : c.Orderly) (active : c.isActive = true) (message : String) :
    (c.startClosing message true).Orderly := by
  obtain ⟨none, -, unclosed, -⟩ := h.fresh active
  refine orderly_startClosing unclosed ?_ ?_ ?_
  · rw [h.detached, state_eq_active active]
    rfl
  · simpa [active] using h.enqueued
  · rw [none]
    exact .expected message

theorem Orderly.fail (h : c.Orderly) (active : c.isActive = true) (cause : Error) :
    (({ c with failureNotified := true }.callHook (.failed cause)).startClosing
      cause.message false).Orderly := by
  obtain ⟨none, -, unclosed, -⟩ := h.fresh active
  obtain ⟨packets, accepted, enqueued, -⟩ :=
    sends_callHook (.failed cause) { c with failureNotified := true }
  refine orderly_startClosing ?_ ?_ ?_ ?_
  · exact (congrArg Standing.closeNotified (standing_callHook _ _)).trans unclosed
  · rw [detachments_callHook]
    change c.detachments = 0
    rw [h.detached, state_eq_active active]
    rfl
  · rw [accepted, enqueued]
    change c.enqueuedPackets ++ _ = c.acceptedPackets ++ _
    rw [h.enqueued]
    simp [active]
  · rw [notifications_callHook]
    change EndTold (c.notifications ++ _ ++ _)
    rw [none]
    exact .failure cause

theorem Orderly.markClosed (h : c.Orderly) (closing : c.state = .closing)
    (cancelled : c.cancelled = true) : c.markClosed.Orderly := by
  have inactive : c.isActive = false := isActive_eq_false (by simp [closing])
  have attached : c.detachments = 0 := by
    rw [h.detached, closing]
    rfl
  constructor
  · intro active
    cases active
  · intro _
    rw [notifications, recount_markClosed]
    change EndTold (c.notifications ++ [])
    rw [List.append_nil]
    exact h.told inactive
  · intro _
    exact cancelled
  · rw [detachments, recount_markClosed, List.length_append]
    change c.detachments + 1 = 1
    rw [attached]
  · rw [enqueuedPackets, acceptedPackets, recount_markClosed, recount_markClosed]
    change c.enqueuedPackets ++ [] = c.acceptedPackets ++ [] ++ [.farewell]
    rw [h.enqueued]
    simp [inactive]

theorem Orderly.move (h : c.Orderly) (move : Move c d) : d.Orderly := by
  cases move with
  | chat chat =>
      refine h.sends chat.standing_eq (chat.recount_of_isBlind isBlind_notification) ?_
        (chat.accepted ▸ chat.recount_eq accepted?) (chat.enqueued ▸ chat.recount_eq enqueued?)
        chat.quiet
      simp only [detachments, chat.recount_of_isBlind isAloof_detached.isBlind]
  | hook call plain =>
      obtain ⟨packets, accepted, enqueued, -, quiet⟩ := sends_callHook call c
      exact h.sends (standing_callHook call c) (by simp [plain]) (by simp) accepted enqueued quiet
  | hear | touch | register | readAhead | go | takeLoops =>
      exact h.of_account_eq rfl
  | frame => exact h.of_account_eq (account_log rfl rfl rfl rfl _)
  | defer => exact h.of_account_eq (account_log rfl rfl rfl rfl _)
  | dispatch => exact h.of_account_eq (account_log rfl rfl rfl rfl _)
  | leave message active => exact h.leave active message
  | fail cause active => exact h.fail active cause
  | cancel inactive =>
      obtain ⟨fresh, told, cancelled, detached, enqueued⟩ := h
      refine ⟨?_, told, fun _ => rfl, detached, enqueued⟩
      intro active
      rw [show c.isActive = true from active] at inactive
      cases inactive
  | markClosed closing cancelled => exact h.markClosed closing cancelled

theorem Orderly.changes (h : c.Orderly) (changes : Changes c d) : d.Orderly := by
  induction changes with
  | refl => exact h
  | tail _ change ih =>
      cases change with
      | move move => exact ih.move move
      | due => exact ih.of_account_eq (account_log rfl rfl rfl rfl _)
      | feed | finish | write | place => exact ih.of_account_eq rfl

namespace Later

theorem refl (c : Connection) : Later c c :=
  ⟨Nat.le_refl _, fun _ => ⟨rfl, rfl⟩, List.suffix_refl _, List.prefix_rfl, rfl, rfl, rfl⟩

theorem isActive_eq_false (h : Later c d) (inactive : c.isActive = false) : d.isActive = false := by
  have ahead := h.ahead
  cases before : c.state <;> cases after : d.state <;>
    simp [isActive, before, after, Lifecycle.rank] at inactive ahead ⊢

theorem state_of_closed (h : Later c d) (closed : c.state = .closed) : d.state = .closed := by
  have ahead := h.ahead
  cases after : d.state <;> simp [closed, after, Lifecycle.rank] at ahead ⊢

theorem trans (first : Later c d) (second : Later d e) : Later c e where
  ahead := Nat.le_trans first.ahead second.ahead
  silent := by
    intro inactive
    obtain ⟨notifications, accepted⟩ := first.silent inactive
    obtain ⟨notifications', accepted'⟩ := second.silent (first.isActive_eq_false inactive)
    exact ⟨notifications'.trans notifications, accepted'.trans accepted⟩
  journal := first.journal.trans second.journal
  taken := first.taken.trans second.taken
  settings := by
    obtain ⟨config, listener, delivery⟩ := first.settings
    obtain ⟨config', listener', delivery'⟩ := second.settings
    exact ⟨config'.trans config, listener'.trans listener, delivery'.trans delivery⟩

/-- The state is as it was, and nothing was told of the end. -/
theorem of_calm (state : d.state = c.state) (notifications : d.notifications = c.notifications)
    (accepted : c.isActive = false → d.acceptedPackets = c.acceptedPackets)
    (journal : c.journal <:+ d.journal) (taken : c.sink.taken <+: d.sink.taken)
    (settings : d.config = c.config ∧ d.listener = c.listener ∧ d.delivery = c.delivery) :
    Later c d :=
  ⟨state ▸ Nat.le_refl _, fun inactive => ⟨notifications, accepted inactive⟩, journal, taken,
    settings⟩

theorem of_log {entry : Entry} (c : Connection) (notification : notification? entry = none)
    (accepted : accepted? entry = none) : Later c (c.log entry) := by
  refine of_calm rfl ?_ (fun _ => ?_) (List.suffix_cons entry c.journal) List.prefix_rfl
    ⟨rfl, rfl, rfl⟩
  · rw [notifications, recount_log, notification, Option.toList_none, List.append_nil]
    rfl
  · rw [acceptedPackets, recount_log, accepted, Option.toList_none, List.append_nil]
    rfl

/-- Packets were sent and the listener may have been called, but not about the end. -/
theorem of_sends (standing : d.standing = c.standing) (machinery : d.machinery = c.machinery)
    (notifications : d.notifications = c.notifications) {packets : List Packet}
    (accepted : d.acceptedPackets = c.acceptedPackets ++ packets)
    (quiet : c.isActive = false → packets = []) (journal : c.journal <:+ d.journal) :
    Later c d := by
  refine of_calm (congrArg Standing.state standing) notifications (fun inactive => ?_) journal ?_
    ⟨congrArg Machinery.config machinery, congrArg Machinery.listener machinery,
      congrArg Machinery.delivery machinery⟩
  · rw [accepted, quiet inactive, List.append_nil]
  · have sink : d.sink = c.sink := congrArg Machinery.sink machinery
    exact sink ▸ List.prefix_rfl

/-- Before the end of a connection is told of, anything may be. -/
theorem of_isActive (active : c.isActive = true) (journal : c.journal <:+ d.journal)
    (machinery : d.machinery = c.machinery) : Later c d where
  ahead := by
    rw [state_eq_active active]
    exact Nat.zero_le _
  silent := by
    intro inactive
    rw [active] at inactive
    cases inactive
  journal := journal
  taken := by
    have sink : d.sink = c.sink := congrArg Machinery.sink machinery
    exact sink ▸ List.prefix_rfl
  settings := ⟨congrArg Machinery.config machinery, congrArg Machinery.listener machinery,
    congrArg Machinery.delivery machinery⟩

theorem of_move (move : Move c d) : Later c d := by
  cases move with
  | chat chat =>
      exact of_sends chat.standing_eq chat.machinery_eq
        (chat.recount_of_isBlind isBlind_notification) (chat.accepted ▸ chat.recount_eq accepted?)
        chat.quiet ⟨_, chat.journal_eq.symm⟩
  | hook call plain =>
      obtain ⟨packets, accepted, -, -, quiet⟩ := sends_callHook call c
      exact of_sends (standing_callHook call c) (machinery_callHook call c) (by simp [plain])
        accepted quiet (suffix_callHook call c)
  | hear | touch | register | readAhead | go | takeLoops | cancel =>
      exact of_calm rfl rfl (fun _ => rfl) (List.suffix_refl _) List.prefix_rfl ⟨rfl, rfl, rfl⟩
  | @frame _ rest _ =>
      exact trans (d := { c with readAhead := rest })
        (of_calm rfl rfl (fun _ => rfl) (List.suffix_refl _) List.prefix_rfl ⟨rfl, rfl, rfl⟩)
        (of_log _ rfl rfl)
  | defer => exact of_log _ rfl rfl
  | dispatch => exact of_log _ rfl rfl
  | leave message active =>
      exact of_isActive active (suffix_startClosing message true c)
        (machinery_startClosing message true c)
  | fail cause active =>
      refine of_isActive active ?_ ?_
      · exact (suffix_callHook (.failed cause) { c with failureNotified := true }).trans
          (suffix_startClosing _ _ _)
      · rw [machinery_startClosing, machinery_callHook]
        rfl
  | markClosed closing cancelled =>
      refine .trans ?_ (of_log { c with state := .closed } rfl rfl)
      refine ⟨?_, fun _ => ⟨rfl, rfl⟩, List.suffix_refl _, List.prefix_rfl, rfl, rfl, rfl⟩
      simp [closing, Lifecycle.rank]

theorem of_changes (changes : Changes c d) : Later c d := by
  induction changes with
  | refl => exact .refl c
  | tail _ change ih =>
      apply ih.trans
      cases change with
      | move move => exact of_move move
      | feed | finish | write =>
          exact of_calm rfl rfl (fun _ => rfl) (List.suffix_refl _) List.prefix_rfl ⟨rfl, rfl, rfl⟩
      | due => exact of_log _ rfl rfl
      | place _ taken =>
          exact of_calm rfl rfl (fun _ => rfl) (List.suffix_refl _) taken ⟨rfl, rfl, rfl⟩

end Later

/-- Once a connection has left `active`, nothing is put on its send queue. -/
theorem Orderly.sealed (h : c.Orderly) (orderly : d.Orderly) (later : Later c d)
    (inactive : c.isActive = false) :
    d.isActive = false ∧ d.enqueuedPackets = c.enqueuedPackets := by
  have still := later.isActive_eq_false inactive
  refine ⟨still, ?_⟩
  rw [orderly.enqueued, h.enqueued, still, inactive, (later.silent inactive).2]

end Connection

end PacketWire
