import PacketWire.Proofs.Orderly

/-!
# What a listener is refused

A listener acts on its connection from inside its hooks. In a hook that begins after the connection
has left `active`, the hook that tells of the closing included, nothing that it wants to send is
accepted. `Rebuffed` says so of every hook in the journal, whatever the listener does.
-/

namespace PacketWire

/-- What comes of a listener's wish on a connection that is not active. -/
def Reaction.refused : Reaction → Except Error Unit
  | send _ => .error .closed
  | handshake => .error .closed
  | close => .ok ()

namespace Connection

open Entry

/-- These are the results of a call in which the listener was refused whatever it sent. -/
def Refused (listener : Option Listener) (call : HookCall) (results : List (Except Error Unit)) :
    Prop :=
  ∃ calls, results = ((listener.getD .silent).react calls call).map Reaction.refused

/-- In no hook that began once the connection had left `active` could anything be sent. -/
def Rebuffed (c : Connection) : Prop :=
  ∀ call state results, .hook call state results ∈ c.journal → state ≠ .active →
    Refused c.listener call results

variable {c d : Connection}

theorem sendHandshake_eq_error (inactive : c.isActive = false) (kind : HandshakeKind) :
    c.sendHandshake kind = .error .closed := by
  rw [sendHandshake, send_eq_error inactive]
  rfl

theorem result_react (inactive : c.isActive = false) (reaction : Reaction) :
    (c.react reaction).1 = reaction.refused := by
  cases reaction with
  | send packet =>
      rw [react, send_eq_error inactive]
      rfl
  | handshake =>
      rw [react, sendHandshake_eq_error inactive]
      rfl
  | close => rfl

theorem results_reactAll (inactive : c.isActive = false) (reactions : List Reaction) :
    (reactAll reactions c).1 = reactions.map Reaction.refused := by
  induction reactions generalizing c with
  | nil => rfl
  | cons reaction reactions ih =>
      obtain ⟨_, _, chat⟩ := chat_react reaction c
      simp only [reactAll, List.map_cons]
      rw [result_react inactive, ih (chat.isActive_eq.trans inactive)]

namespace Rebuffed

theorem of_eq (h : c.Rebuffed) (journal : d.journal = c.journal)
    (listener : d.listener = c.listener) : d.Rebuffed := by
  intro call state results member
  rw [journal] at member
  rw [listener]
  exact h call state results member

theorem log (h : c.Rebuffed) {entry : Entry} (other : entry.hook? = none) :
    (c.log entry).Rebuffed := by
  intro call state results member
  rcases List.mem_cons.mp member with rfl | old
  · cases other
  · exact h call state results old

theorem enqueue (h : c.Rebuffed) (packet : Packet) : (c.enqueue packet).Rebuffed :=
  log (c := { c with queue := c.queue.push packet }) (h.of_eq rfl rfl) rfl

theorem chat (h : c.Rebuffed) {packets : List Packet} {entries : List Entry}
    (chat : Chat c d packets entries) : d.Rebuffed := by
  intro call state results member left
  rw [chat.journal_eq] at member
  rw [show d.listener = c.listener from congrArg Machinery.listener chat.machinery_eq]
  rcases List.mem_append.mp member with new | old
  · exact (chat.isChat _ new).elim
  · exact h call state results old left

theorem callHook (h : c.Rebuffed) (call : HookCall) : (c.callHook call).Rebuffed := by
  obtain ⟨packets, entries, chatted⟩ :=
    chat_reactAll ((c.listener.getD .silent).react c.hookCalls call) c
  have listener : (c.callHook call).listener = c.listener :=
    congrArg Machinery.listener (machinery_callHook call c)
  intro call' state results member left
  rcases List.mem_cons.mp member with same | old
  · cases same
    exact ⟨c.hookCalls, by rw [listener, results_reactAll (isActive_eq_false left)]⟩
  · have heard : Connection.listener _ = c.listener :=
      congrArg Machinery.listener chatted.machinery_eq
    rw [listener, ← heard]
    exact h.chat chatted call' state results old left

theorem startClosing (h : c.Rebuffed) (message : String) (expected : Bool) :
    (c.startClosing message expected).Rebuffed := by
  have told : ({ c with state := .closing }.notifyClosed message expected).Rebuffed := by
    rw [notifyClosed]
    split
    · exact h.of_eq rfl rfl
    · exact callHook (c := { c with state := .closing, closeNotified := true })
        (h.of_eq rfl rfl) _
  exact told.enqueue .farewell

theorem move (h : c.Rebuffed) (move : Move c d) : d.Rebuffed := by
  cases move with
  | chat chatted => exact h.chat chatted
  | hook call => exact h.callHook call
  | hear | touch | register | readAhead | go | takeLoops | cancel => exact h.of_eq rfl rfl
  | @frame _ rest => exact log (c := { c with readAhead := rest }) (h.of_eq rfl rfl) rfl
  | defer | dispatch => exact h.log rfl
  | leave message => exact h.startClosing message true
  | fail cause =>
      exact (callHook (c := { c with failureNotified := true }) (h.of_eq rfl rfl) _).startClosing
        cause.message false
  | markClosed => exact log (c := { c with state := .closed }) (h.of_eq rfl rfl) rfl

theorem changes (h : c.Rebuffed) (changes : Changes c d) : d.Rebuffed := by
  induction changes with
  | refl => exact h
  | tail _ change ih =>
      cases change with
      | move move => exact ih.move move
      | due => exact ih.log rfl
      | feed | finish | write | place => exact ih.of_eq rfl rfl

end Rebuffed

theorem rebuffed_start (setup : Setup) (now : Nat) : (start setup now).Rebuffed := by
  intro call state results member
  cases member

end Connection

end PacketWire
