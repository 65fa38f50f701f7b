import PacketWire.Proofs.Chronicle
import PacketWire.Proofs.Receiving

/-!
# What a connection does in a run, one happening after the other

A `Deed` is what one happening makes of a connection: the events that were handed on in it, the
answers that are due to them, and the packets that were accepted. `ConnectionDeed` ties it to what
was read and to what is held for the connection then.
-/

namespace PacketWire

open Connection Entry

/-- What a connection did in one happening. -/
structure Deed where
  /-- Whether the application called it. -/
  called : Bool
  /-- The events that were handed on. -/
  dispatched : List Event
  /-- One answer for each request among them, if the connection was active. -/
  due : List Packet
  /-- The packets that were accepted. -/
  accepted : List Packet

/-- What was accepted behind the answers. -/
def Deed.unprompted (deed : Deed) : List Packet :=
  deed.accepted.drop deed.due.length

namespace World

def deed (i : Nat) (w : World) (happening : Happening) : Deed :=
  let entries := gained (w.journal i) ((w.perform happening).journal i)
  let dispatched := entries.filterMap dispatched?
  { called := happening.calls i
    dispatched
    due := (w.conns[i]?.map (·.answers dispatched)).getD []
    accepted := entries.filterMap accepted? }

/-- What a connection does in a run. -/
def deeds (i : Nat) : World → List Happening → List Deed
  | _, [] => []
  | w, happening :: happenings => w.deed i happening :: (w.perform happening).deeds i happenings

/-- `e` is `c` after a happening in which these bodies were read, which are these events, and these
events were handed on. -/
structure ConnectionDeed (w : World) (i : Nat) (happening : Happening) (c e : Connection)
    (bodies : List Bytes) (events hands : List Event) (own : List Packet) : Prop where
  there : (w.perform happening).conns[i]? = some e
  later : c.Later e
  handled : e.handledBodies = c.handledBodies ++ bodies
  dispatched : e.dispatchedEvents = c.dispatchedEvents ++ hands
  accepted : e.acceptedPackets = c.acceptedPackets ++ (c.answers hands ++ own)
  /-- What is no answer was wanted by the listener, or is a keep-alive. -/
  own : happening.calls i = false →
    ∀ packet ∈ own, c.voice.Utters packet ∨ packet = .keepAlive false
  called : happening.calls i = true → hands = []
  understood : events = [] ∨ ∃ body event, bodies = [body] ∧ events = [event] ∧
    c.Understands body event
  /-- Every event that was handed on was held for the connection, or it was read just now. -/
  held : held i (w.perform happening) + burden hands ≤ held i w + burden events

variable {w : World} {i : Nat} {c d : Connection} {happening : Happening}

theorem exists_connectionDeed (reached : w.Reachable) (happening : Happening)
    (here : w.conns[i]? = some c) :
    ∃ e bodies events hands own, ConnectionDeed w i happening c e bodies events hands own := by
  obtain ⟨e, there, meets⟩ := meets_perform reached happening here
  obtain ⟨e', there', later⟩ := (reached.valid.perform happening).2 i c here
  obtain rfl : e' = e := Option.some.inj (there'.symm.trans there)
  have talk (v : Voice) (entry : Entry) : entry.IsTalk v → ¬ entry.IsReceipt :=
    not_isReceipt_of_isTalk
  have uncalled {hands : List Event} (unasked : happening.calls i = false)
      (asked : happening.calls i = true) : hands = [] := by
    rw [unasked] at asked
    cases asked
  cases meets with
  | handles unasked handles more =>
      obtain ⟨bodies, defers, hands, receipt, gains⟩ := handles.gains talk
      obtain ⟨own, accepted, said⟩ := gains.accepted
      refine ⟨e', bodies, defers ++ hands, hands, own, there, later, gains.handled,
        gains.dispatched, accepted, fun _ => said, uncalled unasked, ?_, ?_⟩
      · cases receipt with
        | nothing | skips => exact .inl rfl
        | defers _ judged | heeds judged => exact .inr ⟨_, _, rfl, rfl, judged⟩
      · have weight := more defers gains.deferred
        rw [burden_append]
        omega
  | @redeems event unasked owed leaves less =>
      have gains := gains_of_redeems talk leaves
      obtain ⟨own, accepted, said⟩ := gains.accepted
      refine ⟨e', [], [], [event], own, there, later, gains.handled, gains.dispatched, accepted,
        fun _ => said, uncalled unasked, .inl rfl, ?_⟩
      rw [burden_cons]
      simpa using less
  | @called call asks same less =>
      have gains : Gains (fun _ entry => ¬ entry.IsReceipt) c e' [] [] [] :=
        gains_of_leaves (fun _ _ => id) (same ▸ leaves_call c fun _ _ => ⟨id, id⟩)
      obtain ⟨own, accepted, -⟩ := gains.accepted
      have asked : happening.calls i = true := asks ▸ decide_eq_true rfl
      refine ⟨e', [], [], [], own, there, later, gains.handled, gains.dispatched, accepted,
        fun unasked => ?_, fun _ => rfl, .inl rfl, less⟩
      rw [asked] at unasked
      cases unasked

theorem filterMap_gained {α : Type} {kind : Entry → Option α} {xs : List α}
    (suffix : c.journal <:+ d.journal) (adds : d.recount kind = c.recount kind ++ xs) :
    (gained c.journal d.journal).filterMap kind = xs := by
  rw [recount_eq_append kind (gained_eq suffix), List.reverse_reverse] at adds
  exact List.append_cancel_left adds

namespace ConnectionDeed

variable {e : Connection} {bodies : List Bytes} {events hands : List Event} {own : List Packet}

theorem deed_eq (h : ConnectionDeed w i happening c e bodies events hands own)
    (here : w.conns[i]? = some c) : w.deed i happening =
      ⟨happening.calls i, hands, c.answers hands, c.answers hands ++ own⟩ := by
  have suffix := h.later.journal
  rw [deed, journal_of_getElem? here, journal_of_getElem? h.there,
    filterMap_gained suffix h.dispatched, filterMap_gained suffix h.accepted, here]
  rfl

theorem unprompted_eq (h : ConnectionDeed w i happening c e bodies events hands own)
    (here : w.conns[i]? = some c) : (w.deed i happening).unprompted = own := by
  rw [h.deed_eq here, Deed.unprompted, List.drop_left]

end ConnectionDeed

/-- What a connection did in a run is all that it recounts more than before. -/
theorem told_deeds (reached : w.Reachable) (happenings : List Happening)
    (here : w.conns[i]? = some c) : ∃ d, (w.performAll happenings).conns[i]? = some d ∧
      d.dispatchedEvents = c.dispatchedEvents ++ (w.deeds i happenings).flatMap (·.dispatched) ∧
      d.acceptedPackets = c.acceptedPackets ++ (w.deeds i happenings).flatMap (·.accepted) := by
  induction happenings generalizing w c with
  | nil => exact ⟨c, here, (List.append_nil _).symm, (List.append_nil _).symm⟩
  | cons happening happenings ih =>
      obtain ⟨e, bodies, events, hands, own, did⟩ := exists_connectionDeed reached happening here
      obtain ⟨d, there, dispatched, accepted⟩ := ih (reached.perform happening) did.there
      refine ⟨d, there, ?_, ?_⟩
      · rw [dispatched, did.dispatched, deeds, List.flatMap_cons, did.deed_eq here,
          List.append_assoc]
      · rw [accepted, did.accepted, deeds, List.flatMap_cons, did.deed_eq here,
          List.append_assoc]

end World

end PacketWire
