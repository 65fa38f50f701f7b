import PacketWire.Proofs.Listening
import PacketWire.Proofs.Reached

/-!
# What a connection undergoes

Whoever acts on a connection that nobody closes is one of few. Its loops take their stretches, a
claimant hands on something that it deferred, somebody waits for its loops, or there is an
`Intervention` from outside. `Undergoes` lists them, with the interventions that are admitted as a
parameter, so an invariant of a connection is checked against each of them once.

Nobody closes it for its listener either if that is mild: it never asks for a close in a hook.
-/

namespace PacketWire

/-- What somebody outside does about a connection: the application calls it, its transport does
something, or time passes. -/
inductive Intervention where
  | call (call : Call)
  | transit (transit : Transit)
  | pass (span : Nat)

namespace Intervention

def act (c : Connection) : Intervention → Connection
  | call made => made.act c
  | transit done => done.act c
  | pass _ => c

/-- The time after it. -/
def later (now : Nat) : Intervention → Nat
  | pass span => now + span
  | _ => now

/-- What does not disturb a connection: packets are sent that have frames, and the transport does
not fail and brings nothing after the end of the input. -/
def IsPlain (_now : Nat) (c : Connection) : Intervention → Prop
  | call (.send packet) => Frame.Writable packet
  | call (.handshake _) => True
  | call (.register _) => False
  | transit (.feed _) => c.source.ending = none
  | transit (.finish _) => True
  | transit (.weather _ writeFailure flushFailure _ _) =>
    writeFailure = none ∧ flushFailure = none
  | pass _ => True

instance (packet : Packet) : Decidable (Frame.Writable packet) :=
  match made : Frame.body packet with
  | .ok bytes => .isTrue ⟨bytes, made⟩
  | .error _ => .isFalse fun ⟨_, written⟩ => by cases made.symm.trans written

instance (now : Nat) (c : Connection) :
    (intervention : Intervention) → Decidable (intervention.IsPlain now c)
  | call (.send packet) => inferInstanceAs (Decidable (Frame.Writable packet))
  | call (.register _) => inferInstanceAs (Decidable False)
  | transit (.feed _) => inferInstanceAs (Decidable (_ = _))
  | transit (.weather ..) => inferInstanceAs (Decidable (_ ∧ _))
  | call (.handshake _) | transit (.finish _) | pass _ => inferInstanceAs (Decidable True)

end Intervention

namespace Connection

/-- How a connection goes on, and the clock, while nobody closes it. -/
inductive Undergoes (admits : Nat → Connection → Intervention → Prop) (now : Nat)
    (c : Connection) : Nat → Connection → Prop
  | rests : Undergoes admits now c now c
  | inbound {d : Connection} : c.inboundStep now = some d → Undergoes admits now c now d
  | outbound {d : Connection} : c.outboundStep now = some d → Undergoes admits now c now d
  | hands {event : Event} : .deferred event ∈ c.journal →
      Undergoes admits now c now (c.dispatch false now event).1
  | joins : Undergoes admits now c now c.takeLoops.2
  | meets {intervention : Intervention} : admits now c intervention →
      Undergoes admits now c (intervention.later now) (intervention.act c)

/-! ### Listeners that ask for no close -/

end Connection

/-- A listener that never asks for a close. -/
def Listener.Mild (listener : Option Listener) : Prop :=
  ∀ n call, .close ∉ (listener.getD .silent).react n call

theorem Listener.Idle.mild {listener : Option Listener} (idle : Idle listener) : Mild listener := by
  intro n call asks
  rw [idle n call] at asks
  cases asks

namespace Connection

variable {c d : Connection}

theorem wait_control (onLoop : Bool) (now : Nat) {packet : Packet}
    (goesOn : Reader.isLast (.packet packet) = false) (c : Connection) :
    (c.control onLoop now packet).2 = none := by
  cases packet with
  | close message => cases goesOn
  | handshake | keepAlive | app => rfl

/-- Only a close message leaves something to wait for. -/
theorem wait_dispatch (onLoop : Bool) (now : Nat) {event : Event}
    (goesOn : Reader.isLast event = false) (c : Connection) :
    (c.dispatch onLoop now event).2 = none := by
  cases event with
  | unknown id => rfl
  | packet packet =>
      have none := wait_control onLoop now goesOn (c.log (.dispatched (.packet packet)))
      simp only [dispatch, dispatchPacket]
      generalize (c.log (.dispatched (.packet packet))).control onLoop now packet = result at none
      obtain ⟨d, wait⟩ := result
      obtain rfl : wait = .none := none
      split <;> rfl

/-- Whether a listener asked for a close. -/
def Asked (c : Connection) : Prop :=
  .closeRequested ∈ c.journal

theorem listener_callHook (call : HookCall) (c : Connection) :
    (c.callHook call).listener = c.listener :=
  congrArg Machinery.listener (machinery_callHook call c)

theorem asked_react {reaction : Reaction} (mild : reaction ≠ .close)
    (asked : (c.react reaction).2.Asked) : c.Asked := by
  cases reaction with
  | send packet => exact requested_of_send packet c asked
  | handshake => exact requested_of_sendHandshake .request c asked
  | close => exact absurd rfl mild

theorem asked_reactAll {reactions : List Reaction} (mild : .close ∉ reactions)
    (asked : (reactAll reactions c).2.Asked) : c.Asked := by
  induction reactions generalizing c with
  | nil => exact asked
  | cons reaction reactions ih =>
      rw [List.mem_cons, not_or] at mild
      exact asked_react (Ne.symm mild.1) (ih mild.2 asked)

theorem asked_callHook (mild : Listener.Mild c.listener) {call : HookCall}
    (asked : (c.callHook call).Asked) : c.Asked := by
  refine asked_reactAll (mild c.hookCalls call) ?_
  simpa [Asked, callHook] using asked

theorem asked_notifyClosed (mild : Listener.Mild c.listener) {message : String} {expected : Bool}
    (asked : (c.notifyClosed message expected).Asked) : c.Asked := by
  rw [notifyClosed] at asked
  split at asked
  · exact asked
  · exact asked_callHook (c := { c with closeNotified := true }) mild asked

theorem asked_startClosing (mild : Listener.Mild c.listener) {message : String} {expected : Bool}
    (asked : (c.startClosing message expected).Asked) : c.Asked := by
  apply asked_notifyClosed (c := { c with state := .closing }) mild
  simpa [startClosing, Asked, enqueue] using asked

theorem asked_of_change (change : Change c d) (mild : Listener.Mild c.listener)
    (asked : d.Asked) : c.Asked := by
  cases change with
  | feed | finish | write | place => exact asked
  | due => simpa [Asked] using asked
  | move move =>
      cases move with
      | chat _ own => exact own asked
      | hook call => exact asked_callHook mild asked
      | hear | touch | register | readAhead | go | cancel | takeLoops => exact asked
      | frame | defer | dispatch => simpa [Asked] using asked
      | leave message => exact asked_startClosing mild asked
      | fail cause =>
          have still : Listener.Mild
              ({ c with failureNotified := true }.callHook (.failed cause)).listener := by
            rw [listener_callHook]
            exact mild
          have called := asked_callHook (c := { c with failureNotified := true }) mild
            (asked_startClosing still asked)
          exact called
      | markClosed => simpa [Asked, markClosed] using asked

/-- A mild listener asks for nothing, whatever happens. -/
theorem asked_of_changes (changes : Changes c d) (mild : Listener.Mild c.listener)
    (asked : d.Asked) : c.Asked := by
  induction changes with
  | refl => exact asked
  | tail changes change ih =>
      refine ih (asked_of_change change ?_ asked)
      rw [(Later.of_changes changes).settings.2.1]
      exact mild

end Connection

end PacketWire
