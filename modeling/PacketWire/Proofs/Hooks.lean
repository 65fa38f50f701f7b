import PacketWire.Connection.Inbound
import PacketWire.Connection.Outbound

/-!
# What a hook can do

A listener acts on its connection only by sending and by asking for a close. `Chat` says exactly
what that may change: accepted packets go to the end of the send queue, in the order in which the
journal names them, and nothing is accepted once the connection has left `active`. The equations
for `callHook` and `startClosing` below are all that later proofs need to know of either; none of
them looks into a listener again.
-/

namespace PacketWire

namespace SendQueue

/-- Pushes packets in order. -/
def pushAll (packets : List Packet) (q : SendQueue) : SendQueue :=
  packets.foldl (fun q packet => q.push packet) q

@[simp] theorem pushAll_nil (q : SendQueue) : q.pushAll [] = q := rfl

@[simp] theorem pushAll_cons (packet : Packet) (packets : List Packet) (q : SendQueue) :
    q.pushAll (packet :: packets) = (q.push packet).pushAll packets := rfl

theorem pushAll_append (first second : List Packet) (q : SendQueue) :
    q.pushAll (first ++ second) = (q.pushAll first).pushAll second :=
  List.foldl_append

@[simp] theorem packets_pushAll (packets : List Packet) (q : SendQueue) :
    (q.pushAll packets).packets = q.packets ++ packets := by
  induction packets generalizing q with
  | nil => simp
  | cons packet packets ih => simp [ih]

@[simp] theorem unaccounted_pushAll (packets : List Packet) (q : SendQueue) :
    (q.pushAll packets).unaccounted = q.unaccounted + packets.length := by
  induction packets generalizing q with
  | nil => simp
  | cons packet packets ih =>
      simp [ih]
      omega

end SendQueue

namespace Entry

/-- The entries that the actions of a listener leave in a journal. -/
def IsChat : Entry → Prop
  | accepted _ => True
  | enqueued _ => True
  | closeRequested => True
  | _ => False

/-- What entries, latest first, tell of one kind, first one first. -/
def told {α : Type} (kind : Entry → Option α) (entries : List Entry) : List α :=
  entries.reverse.filterMap kind

@[simp] theorem told_cons {α : Type} (kind : Entry → Option α) (entry : Entry)
    (entries : List Entry) :
    told kind (entry :: entries) = told kind entries ++ (kind entry).toList := by
  cases h : kind entry <;> simp [told, h]

@[simp] theorem told_append {α : Type} (kind : Entry → Option α) (later earlier : List Entry) :
    told kind (later ++ earlier) = told kind earlier ++ told kind later := by
  simp [told]

/-- Entries that are none of a kind tell nothing of it. -/
theorem told_eq_nil {α : Type} {kind : Entry → Option α} {entries : List Entry}
    (h : ∀ entry ∈ entries, kind entry = none) : told kind entries = [] := by
  simpa [told] using h

/-- What is of this kind is never chat. -/
def IsBlind {α : Type} (kind : Entry → Option α) : Prop :=
  ∀ entry, entry.IsChat → kind entry = none

theorem isBlind_notification : IsBlind notification? := by
  intro entry chat
  cases entry <;> first | rfl | exact chat.elim

/-- What is of this kind is neither chat nor a call of the listener. -/
structure IsAloof {α : Type} (kind : Entry → Option α) : Prop where
  isBlind : IsBlind kind
  hook : ∀ call state results, kind (.hook call state results) = none

theorem isAloof_handled : IsAloof handled? where
  isBlind := by
    intro entry chat
    cases entry <;> first | rfl | exact chat.elim
  hook := fun _ _ _ => rfl

theorem isAloof_detached : IsAloof detached? where
  isBlind := by
    intro entry chat
    cases entry <;> first | rfl | exact chat.elim
  hook := fun _ _ _ => rfl

end Entry

namespace Connection

open Entry

@[simp] theorem recount_log {α : Type} (kind : Entry → Option α) (entry : Entry) (c : Connection) :
    (c.log entry).recount kind = c.recount kind ++ (kind entry).toList := by
  rw [recount_eq_append kind (show (c.log entry).journal = [entry] ++ c.journal from rfl)]
  exact congrArg _ (told_cons kind entry [])

/-- Puts an accepted packet on the send queue. -/
def accept (packet : Packet) (c : Connection) : Connection :=
  (c.log (.accepted packet)).enqueue packet

/-- How far a connection is in its life, and what was told of it. -/
structure Standing where
  state : Lifecycle
  failureNotified : Bool
  closeNotified : Bool
  cancelled : Bool
  outboundStopped : Bool

def standing (c : Connection) : Standing :=
  ⟨c.state, c.failureNotified, c.closeNotified, c.cancelled, c.outboundStopped⟩

/-- The settings, the loops and the transport of a connection. -/
structure Machinery where
  config : ConnectionConfig
  listener : Option Listener
  delivery : Delivery
  registry : Registry
  activity : Activity
  inbound : Inbound
  outbound : Outbound
  source : Source
  readAhead : Bytes
  buffer : WriteBuffer
  sink : Sink

def machinery (c : Connection) : Machinery :=
  ⟨c.config, c.listener, c.delivery, c.registry, c.activity, c.inbound, c.outbound, c.source,
    c.readAhead, c.buffer, c.sink⟩

/-- `d` is what sending and asking for a close can make of `c`. -/
structure Chat (c d : Connection) (packets : List Packet) (entries : List Entry) : Prop where
  eq : d = { c with
    queue := c.queue.pushAll packets
    handshakeSent := d.handshakeSent
    journal := entries ++ c.journal }
  accepted : told accepted? entries = packets
  enqueued : told enqueued? entries = packets
  isChat : ∀ entry ∈ entries, entry.IsChat
  /-- Nothing is accepted once the connection has left `active`. -/
  quiet : c.isActive = false → packets = []

namespace Chat

variable {c d e : Connection} {packets more : List Packet} {entries later : List Entry}

theorem refl (c : Connection) : Chat c c [] [] :=
  ⟨rfl, rfl, rfl, by simp, fun _ => rfl⟩

theorem standing_eq (h : Chat c d packets entries) : d.standing = c.standing := by
  rw [h.eq]
  rfl

theorem machinery_eq (h : Chat c d packets entries) : d.machinery = c.machinery := by
  rw [h.eq]
  rfl

theorem isActive_eq (h : Chat c d packets entries) : d.isActive = c.isActive := by
  rw [h.eq]
  rfl

theorem trans (first : Chat c d packets entries) (second : Chat d e more later) :
    Chat c e (packets ++ more) (later ++ entries) where
  eq := by
    rw [second.eq, first.eq]
    simp [SendQueue.pushAll_append]
  accepted := by rw [told_append, first.accepted, second.accepted]
  enqueued := by rw [told_append, first.enqueued, second.enqueued]
  isChat := by
    intro entry member
    rcases List.mem_append.mp member with new | old
    · exact second.isChat entry new
    · exact first.isChat entry old
  quiet := by
    intro inactive
    rw [first.quiet inactive, second.quiet (first.isActive_eq.trans inactive)]
    rfl

theorem accept (active : c.isActive = true) (packet : Packet) :
    Chat c (c.accept packet) [packet] [.enqueued packet, .accepted packet] where
  eq := rfl
  accepted := rfl
  enqueued := rfl
  isChat := by simp [IsChat]
  quiet := by simp [active]

theorem request (c : Connection) : Chat c (c.log .closeRequested) [] [.closeRequested] where
  eq := rfl
  accepted := rfl
  enqueued := rfl
  isChat := by simp [IsChat]
  quiet := fun _ => rfl

/-- A handshake that was sent is remembered; that is no part of the conversation. -/
theorem greet (h : Chat c d packets entries) (sent : Bool) :
    Chat c { d with handshakeSent := sent } packets entries := by
  obtain ⟨eq, accepted, enqueued, isChat, quiet⟩ := h
  exact ⟨by rw [eq], accepted, enqueued, isChat, quiet⟩

theorem journal_eq (h : Chat c d packets entries) : d.journal = entries ++ c.journal := by
  rw [h.eq]

theorem queue_eq (h : Chat c d packets entries) : d.queue = c.queue.pushAll packets := by
  rw [h.eq]

theorem recount_eq {α : Type} (h : Chat c d packets entries) (kind : Entry → Option α) :
    d.recount kind = c.recount kind ++ told kind entries :=
  recount_eq_append kind h.journal_eq

theorem recount_of_isBlind {α : Type} {kind : Entry → Option α} (h : Chat c d packets entries)
    (blind : IsBlind kind) : d.recount kind = c.recount kind := by
  rw [h.recount_eq, Entry.told_eq_nil fun entry member => blind entry (h.isChat entry member),
    List.append_nil]

end Chat

theorem chat_send (packet : Packet) (c : Connection) :
    ∃ packets entries, Chat c (tryTo (c.send packet) c) packets entries := by
  cases active : c.isActive with
  | true =>
      rw [send_eq_ok active]
      exact ⟨_, _, .accept active packet⟩
  | false =>
      rw [send_eq_error active]
      exact ⟨_, _, .refl c⟩

theorem chat_sendHandshake (kind : HandshakeKind) (c : Connection) :
    ∃ packets entries, Chat c (tryTo (c.sendHandshake kind) c) packets entries := by
  cases active : c.isActive with
  | true =>
      rw [sendHandshake, send_eq_ok active]
      exact ⟨_, _, (Chat.accept active _).greet true⟩
  | false =>
      rw [sendHandshake, send_eq_error active]
      exact ⟨_, _, .refl c⟩

theorem chat_react (reaction : Reaction) (c : Connection) :
    ∃ packets entries, Chat c (c.react reaction).2 packets entries := by
  cases reaction with
  | send packet => exact chat_send packet c
  | handshake => exact chat_sendHandshake .request c
  | close => exact ⟨_, _, .request c⟩

theorem chat_reactAll (reactions : List Reaction) (c : Connection) :
    ∃ packets entries, Chat c (reactAll reactions c).2 packets entries := by
  induction reactions generalizing c with
  | nil => exact ⟨_, _, .refl c⟩
  | cons reaction reactions ih =>
      obtain ⟨_, _, first⟩ := chat_react reaction c
      obtain ⟨_, _, rest⟩ := ih (c.react reaction).2
      exact ⟨_, _, first.trans rest⟩

/-- A call of the listener: its actions, then one entry with the state that it began in. -/
theorem callHook_eq (call : HookCall) (c : Connection) :
    ∃ d packets entries results, Chat c d packets entries ∧
      c.callHook call =
        { d with hookCalls := d.hookCalls + 1 }.log (.hook call c.state results) := by
  obtain ⟨packets, entries, chat⟩ :=
    chat_reactAll ((c.listener.getD .silent).react c.hookCalls call) c
  exact ⟨_, packets, entries, _, chat, rfl⟩

@[simp] theorem standing_callHook (call : HookCall) (c : Connection) :
    (c.callHook call).standing = c.standing := by
  obtain ⟨d, _, _, _, chat, eq⟩ := callHook_eq call c
  rw [eq, ← chat.standing_eq]
  rfl

@[simp] theorem machinery_callHook (call : HookCall) (c : Connection) :
    (c.callHook call).machinery = c.machinery := by
  obtain ⟨d, _, _, _, chat, eq⟩ := callHook_eq call c
  rw [eq, ← chat.machinery_eq]
  rfl

theorem suffix_callHook (call : HookCall) (c : Connection) :
    c.journal <:+ (c.callHook call).journal := by
  obtain ⟨d, _, entries, results, chat, eq⟩ := callHook_eq call c
  rw [eq, journal_log]
  exact ⟨_ :: entries, by rw [List.cons_append, ← chat.journal_eq]⟩

theorem recount_callHook_of_isBlind {α : Type} {kind : Entry → Option α} (blind : IsBlind kind)
    (call : HookCall) (c : Connection) :
    ∃ results, (c.callHook call).recount kind =
      c.recount kind ++ (kind (.hook call c.state results)).toList := by
  obtain ⟨d, _, _, results, chat, eq⟩ := callHook_eq call c
  refine ⟨results, ?_⟩
  rw [eq, recount_log, ← chat.recount_of_isBlind blind]
  rfl

@[simp] theorem notifications_callHook (call : HookCall) (c : Connection) :
    (c.callHook call).notifications =
      c.notifications ++ if call.isNotification then [call] else [] := by
  obtain ⟨results, eq⟩ := recount_callHook_of_isBlind isBlind_notification call c
  rw [notifications, eq]
  cases told : call.isNotification <;> simp [notification?, told, notifications]

theorem recount_callHook_of_isAloof {α : Type} {kind : Entry → Option α} (aloof : IsAloof kind)
    (call : HookCall) (c : Connection) : (c.callHook call).recount kind = c.recount kind := by
  obtain ⟨results, eq⟩ := recount_callHook_of_isBlind aloof.isBlind call c
  rw [eq, aloof.hook, Option.toList_none, List.append_nil]

@[simp] theorem detachments_callHook (call : HookCall) (c : Connection) :
    (c.callHook call).detachments = c.detachments :=
  congrArg List.length (recount_callHook_of_isAloof isAloof_detached call c)

/-- What is accepted in a call of the listener is put on the send queue, and nothing else is. -/
theorem sends_callHook (call : HookCall) (c : Connection) :
    ∃ packets, (c.callHook call).acceptedPackets = c.acceptedPackets ++ packets ∧
      (c.callHook call).enqueuedPackets = c.enqueuedPackets ++ packets ∧
      (c.callHook call).queue = c.queue.pushAll packets ∧
      (c.isActive = false → packets = []) := by
  obtain ⟨d, packets, entries, results, chat, eq⟩ := callHook_eq call c
  refine ⟨packets, ?_, ?_, ?_, chat.quiet⟩
  · rw [acceptedPackets, eq, recount_log]
    change d.recount accepted? ++ [] = _
    rw [chat.recount_eq, chat.accepted, List.append_nil, acceptedPackets]
  · rw [enqueuedPackets, eq, recount_log]
    change d.recount enqueued? ++ [] = _
    rw [chat.recount_eq, chat.enqueued, List.append_nil, enqueuedPackets]
  · rw [eq]
    exact chat.queue_eq

@[simp] theorem standing_startClosing (message : String) (expected : Bool) (c : Connection) :
    (c.startClosing message expected).standing =
      { c.standing with state := .closing, closeNotified := true } := by
  change ({ c with state := .closing }.notifyClosed message expected).standing = _
  rw [notifyClosed]
  split
  · rename_i told
    change _ = Standing.mk .closing c.failureNotified true c.cancelled c.outboundStopped
    rw [← show c.closeNotified = true from told]
    rfl
  · rw [standing_callHook]
    rfl

@[simp] theorem machinery_startClosing (message : String) (expected : Bool) (c : Connection) :
    (c.startClosing message expected).machinery = c.machinery := by
  change ({ c with state := .closing }.notifyClosed message expected).machinery = _
  rw [notifyClosed]
  split
  · rfl
  · rw [machinery_callHook]
    rfl

theorem suffix_startClosing (message : String) (expected : Bool) (c : Connection) :
    c.journal <:+ (c.startClosing message expected).journal := by
  have told :
      c.journal <:+ ({ c with state := .closing }.notifyClosed message expected).journal := by
    rw [notifyClosed]
    split
    · exact List.suffix_refl c.journal
    · exact suffix_callHook (.closed message expected)
        { c with state := .closing, closeNotified := true }
  exact told.trans (List.suffix_cons _ _)

/-- Leaving `active`: the listener is told while the connection is closing already, then the
close message is put on the send queue. -/
theorem startClosing_eq (message : String) (expected : Bool) {c : Connection}
    (untold : c.closeNotified = false) :
    c.startClosing message expected =
      ({ c with state := .closing, closeNotified := true }.callHook
        (.closed message expected)).enqueue .farewell := by
  rw [startClosing, notifyClosed, if_neg (by simp [untold])]

theorem recount_enqueue {α : Type} (kind : Entry → Option α) (packet : Packet) (c : Connection) :
    (c.enqueue packet).recount kind = c.recount kind ++ (kind (.enqueued packet)).toList :=
  recount_log kind (.enqueued packet) { c with queue := c.queue.push packet }

theorem recount_markClosed {α : Type} (kind : Entry → Option α) (c : Connection) :
    c.markClosed.recount kind = c.recount kind ++ (kind .detached).toList :=
  recount_log kind .detached { c with state := .closed }

theorem notifications_startClosing (message : String) (expected : Bool) {c : Connection}
    (untold : c.closeNotified = false) :
    (c.startClosing message expected).notifications =
      c.notifications ++ [.closed message expected] := by
  rw [startClosing_eq message expected untold, notifications, recount_enqueue]
  change Connection.notifications _ ++ [] = _
  rw [notifications_callHook, List.append_nil]
  rfl

theorem recount_startClosing_of_isAloof {α : Type} {kind : Entry → Option α}
    (aloof : IsAloof kind) (message : String) (expected : Bool) (c : Connection) :
    (c.startClosing message expected).recount kind = c.recount kind := by
  have told : ({ c with state := .closing }.notifyClosed message expected).recount kind =
      c.recount kind := by
    rw [notifyClosed]
    split
    · rfl
    · exact recount_callHook_of_isAloof aloof (.closed message expected)
        { c with state := .closing, closeNotified := true }
  rw [startClosing, recount_enqueue, told, aloof.isBlind (.enqueued .farewell) trivial,
    Option.toList_none, List.append_nil]

theorem detachments_startClosing (message : String) (expected : Bool) (c : Connection) :
    (c.startClosing message expected).detachments = c.detachments :=
  congrArg List.length (recount_startClosing_of_isAloof isAloof_detached message expected c)

/-- Leaving `active` puts the close message on the send queue and accepts nothing: what the
listener wants to send by then is refused. -/
theorem sends_startClosing (message : String) (expected : Bool) {c : Connection}
    (untold : c.closeNotified = false) :
    (c.startClosing message expected).acceptedPackets = c.acceptedPackets ∧
      (c.startClosing message expected).enqueuedPackets = c.enqueuedPackets ++ [.farewell] ∧
      (c.startClosing message expected).queue = c.queue.push .farewell := by
  obtain ⟨packets, accepted, enqueued, queue, quiet⟩ := sends_callHook (.closed message expected)
    { c with state := .closing, closeNotified := true }
  obtain rfl : packets = [] := quiet rfl
  rw [startClosing_eq message expected untold]
  refine ⟨?_, ?_, ?_⟩
  · rw [acceptedPackets, recount_enqueue]
    change Connection.acceptedPackets _ ++ [] = _
    rw [accepted, List.append_nil, List.append_nil]
    rfl
  · rw [enqueuedPackets, recount_enqueue]
    change Connection.enqueuedPackets _ ++ [.farewell] = _
    rw [enqueued, List.append_nil]
    rfl
  · change (Connection.queue _).push _ = _
    rw [queue]
    rfl

/-! ### Closing leaves the machinery alone -/

@[simp] theorem machinery_proceedClose (onLoop : Bool) (now : Nat) (wait : CloseWait)
    (c : Connection) : (c.proceedClose onLoop now wait).1.machinery = c.machinery := by
  have after (loops : List Loop) (d : Connection) :
      (d.closeAfter loops).1.machinery = d.machinery := by
    rw [closeAfter]
    split <;> rfl
  cases wait with
  | joining loops => exact after loops c
  | draining deadline wake =>
      simp only [proceedClose]
      split
      · split
        · rfl
        · exact after _ _
      · rfl

@[simp] theorem machinery_close (onLoop : Bool) (now : Nat) (message : String) (expected : Bool)
    (c : Connection) : (c.close onLoop now message expected).1.machinery = c.machinery := by
  rw [close]
  split
  · rw [machinery_proceedClose, machinery_startClosing]
  · rfl

@[simp] theorem machinery_fail (onLoop : Bool) (now : Nat) (cause : Error) (c : Connection) :
    (c.fail onLoop now cause).1.machinery = c.machinery := by
  rw [fail]
  split
  · rfl
  · exact (machinery_close onLoop now _ false _).trans (machinery_callHook _ _)

theorem machinery_tryTo_send (packet : Packet) (c : Connection) :
    (tryTo (c.send packet) c).machinery = c.machinery := by
  obtain ⟨_, _, chat⟩ := chat_send packet c
  exact chat.machinery_eq

theorem machinery_tryTo_sendHandshake (kind : HandshakeKind) (c : Connection) :
    (tryTo (c.sendHandshake kind) c).machinery = c.machinery := by
  obtain ⟨_, _, chat⟩ := chat_sendHandshake kind c
  exact chat.machinery_eq

theorem machinery_control (onLoop : Bool) (now : Nat) (packet : Packet) (c : Connection) :
    (c.control onLoop now packet).1.machinery = c.machinery := by
  cases packet with
  | handshake kind version =>
      simp only [control]
      split
      · exact machinery_tryTo_sendHandshake .response c
      · rfl
  | close message => exact machinery_close onLoop now message true c
  | keepAlive response =>
      simp only [control]
      split
      · rfl
      · exact machinery_tryTo_send (.keepAlive true) c
  | app => rfl

@[simp] theorem machinery_showControl (packet : Packet) (c : Connection) :
    (c.showControl packet).machinery = c.machinery := by
  rw [showControl]
  split
  · exact machinery_callHook _ c
  · rfl

theorem machinery_dispatchPacket (onLoop : Bool) (now : Nat) (packet : Packet) (c : Connection) :
    (c.dispatchPacket onLoop now packet).1.machinery = c.machinery := by
  have controlled := machinery_control onLoop now packet c
  rw [dispatchPacket]
  split
  · split
    · rename_i d eq
      rw [eq] at controlled
      exact (machinery_showControl packet d).trans controlled
    · rename_i d wait eq
      rwa [eq] at controlled
  · exact machinery_callHook _ c

@[simp] theorem machinery_dispatch (onLoop : Bool) (now : Nat) (event : Event) (c : Connection) :
    (c.dispatch onLoop now event).1.machinery = c.machinery := by
  cases event with
  | unknown id => exact machinery_callHook _ _
  | packet packet => exact machinery_dispatchPacket onLoop now packet _

end Connection

end PacketWire
