import PacketWire.Proofs.Receiving
import PacketWire.Proofs.Scripted

/-!
# Who acts on a connection in one happening

In one happening one of the two loops of a connection takes a stretch, or the application calls it,
or a task acts on it, or nothing of this; then its transport may change. `StepsBy` tells which. What
a loop reads and writes is its own: a task leaves the machinery of a connection as it is, so what an
invariant says of a loop has to be checked only for the loop that it speaks of.

An invariant may also speak of what happened so far. What a run is asked for is noted beside it,
as its `annals`, and both are carried through the run together.
-/

namespace PacketWire

namespace Connection

open Entry

variable {c d : Connection} {now : Nat}

/-- Who acts on a connection in a happening, and what it is then, up to what its transport does. -/
inductive StepsBy (now i : Nat) (happening : Happening) (c : Connection) : Connection → Prop
  | rests : happening.calls i = false → StepsBy now i happening c c
  | inbound {d : Connection} : happening = .run (.inbound i) → c.inboundStep now = some d →
      StepsBy now i happening c d
  | outbound {d : Connection} : happening = .run (.outbound i) → c.outboundStep now = some d →
      StepsBy now i happening c d
  | called {call : Call} : happening = .call i call → StepsBy now i happening c (call.act c)
  | acted {t : Nat} {d : Connection} : happening = .run (.task t) → Moves c d →
      d.machinery = c.machinery → StepsBy now i happening c d

theorem StepsBy.changes {i : Nat} {happening : Happening} {closers : List CloseWait}
    (share : StepsBy now i happening c d) (valid : c.Valid closers) : Changes c d := by
  cases share with
  | rests => exact .refl
  | inbound _ step => exact (valid.moves_inboundStep step).changes
  | outbound _ step => exact (onward_outboundStep step).changes
  | @called call =>
      have alone : Alone now c (call.act c) := .call call
      exact alone.changes valid
  | acted _ moves => exact moves.changes

/-- Only the inbound loop leaves its own place. -/
theorem StepsBy.inbound_eq {i : Nat} {happening : Happening} (share : StepsBy now i happening c d)
    (rests : happening ≠ .run (.inbound i)) : d.inbound = c.inbound := by
  cases share with
  | rests => rfl
  | inbound runs => exact absurd runs rests
  | outbound _ step => exact (onward_outboundStep step).inbound
  | @called call => exact (World.acts_call c call).inbound_eq
  | acted _ _ machinery => exact congrArg Machinery.inbound machinery

/-- Only the outbound loop leaves its own place, and writes. -/
theorem StepsBy.sends {i : Nat} {happening : Happening} {closers : List CloseWait}
    (share : StepsBy now i happening c d) (valid : c.Valid closers)
    (rests : happening ≠ .run (.outbound i)) : d.outbound = c.outbound ∧ d.buffer = c.buffer := by
  have sent (moves : Moves c d) : d.outbound = c.outbound ∧ d.buffer = c.buffer :=
    ⟨(Sends.of_moves moves).outbound, (Sends.of_moves moves).buffer⟩
  cases share with
  | rests => exact ⟨rfl, rfl⟩
  | inbound _ step => exact sent (valid.moves_inboundStep step)
  | outbound runs => exact absurd runs rests
  | @called call =>
      cases World.acts_call c call with
      | begins outcome => exact sent outcome.moves
  | acted _ moves => exact sent moves

/-! ### Who handles frames -/

/-- Where nothing is read, no frame is handled. -/
theorem handledBodies_eq (coherent : c.Coherent) (changes : Changes c d)
    (source : d.source = c.source) (readAhead : d.readAhead = c.readAhead) :
    d.handledBodies = c.handledBodies := by
  obtain ⟨entries, journal⟩ := (Later.of_changes changes).journal
  have handled : d.handledBodies = c.handledBodies ++ told handled? entries :=
    recount_eq_append handled? journal.symm
  have fed := (coherent.changes changes).fed
  rw [source, readAhead, coherent.fed, handled, List.flatMap_append, List.append_assoc,
    List.append_assoc, List.append_assoc, List.append_right_inj] at fed
  -- what was handled since then takes no room, which no frame does
  have none : (told handled? entries).flatMap Frame.ofBody = [] :=
    List.self_eq_append_left.mp fed
  rw [handled]
  cases bodies : told handled? entries with
  | nil => exact List.append_nil _
  | cons body rest =>
      rw [bodies, List.flatMap_cons, List.append_eq_nil_iff, Frame.ofBody,
        List.append_eq_nil_iff] at none
      cases none.1.1

theorem handledBodies_outboundStep (step : c.outboundStep now = some d) :
    d.handledBodies = c.handledBodies := by
  have gains := gains_of_leaves (fun _ _ => not_isReceipt_of_isTalk) (idles_outboundStep step).talks
  rw [gains.handled, List.append_nil]

theorem handledBodies_call (call : Call) (c : Connection) :
    (call.act c).handledBodies = c.handledBodies := by
  rw [(gains_call call c).handled, List.append_nil]

/-! ### What a task does -/

theorem machinery_dispatchUnit {w w' : World} {unit : WorkUnit} {s : Option Suspension}
    (dispatched : w.dispatchUnit unit = (w', s)) (here : w.conns[unit.conn]? = some c)
    (traced : .deferred unit.event ∈ c.journal) :
    ∃ d, w' = w.put unit.conn c d ∧ Moves c d ∧ d.machinery = c.machinery := by
  simp only [World.dispatchUnit, here] at dispatched
  cases dispatched
  exact ⟨_, rfl, (outcome_dispatch false w.now (.inr traced)).moves, machinery_dispatch ..⟩

theorem machinery_resume {w w' : World} {s : Suspension} {s' : Option Suspension}
    (resumed : w.resume s = some (w', s')) (here : w.conns[s.conn]? = some c)
    (fits : s.wait.Fits c) :
    ∃ d, w' = w.put s.conn c d ∧ Moves c d ∧ d.machinery = c.machinery := by
  have closes := closes_proceedClose false w.now fits
  have machinery := machinery_proceedClose false w.now s.wait c
  simp only [World.resume, here] at resumed
  generalize c.proceedClose false w.now s.wait = result at resumed closes machinery
  obtain ⟨d, left⟩ := result
  split at resumed
  · cases left with
    | some wait =>
        cases resumed
        exact ⟨d, rfl, closes.moves, machinery⟩
    | none =>
        cases resumed
        exact ⟨_, rfl, (closes.showControl s.packet).moves,
          (machinery_showControl s.packet d).trans machinery⟩
  · cases resumed

end Connection

namespace World

open Connection

variable {w w' : World} {i j : Nat} {b c d : Connection} {happening : Happening}

/-- Where one connection, this or another, was acted on by a task. -/
theorem stepsBy_of_put {t : Nat} (runs : happening = .run (.task t)) (place : w.conns[j]? = some b)
    (moves : Moves b d) (machinery : d.machinery = b.machinery) (here : w.conns[i]? = some c)
    (now : Nat) : ∃ f e, StepsBy now i happening c f ∧ (w.put j b d).conns[i]? = some e ∧
      Tended f e := by
  have suffix := (Later.of_changes moves.changes).journal
  obtain ⟨e, there, tended⟩ := exists_of_put place suffix here
  refine ⟨_, e, ?_, there, tended⟩
  split
  · rename_i same
    subst same
    obtain rfl : b = c := Option.some.inj (place.symm.trans here)
    exact .acted runs moves machinery
  · exact .rests (runs ▸ rfl)

/-- How a connection fares in a stretch of a task. -/
theorem stepsBy_of_drains (valid : w.Valid) {t : Nat} {job : Job} {task : Task}
    (place : w.tasks[t]? = some (.running job)) (drains : Drains w job w' task)
    (here : w.conns[i]? = some c) :
    ∃ d e, StepsBy w.now i (.run (.task t)) c d ∧
      { w' with tasks := w'.tasks.set t task }.conns[i]? = some e ∧ Tended d e := by
  cases drains with
  | waits | takes => exact ⟨c, c, .rests rfl, here, .refl c⟩
  | @errand errand todo wait left b d _ starts there stepped after =>
      subst starts
      have acts := acts_errandStep stepped
      rw [← closing?_errands errand.conn errand todo] at acts
      exact stepsBy_of_put rfl there (moves_of_acts valid place there acts)
        (machinery_errandStep stepped) here _
  | @hands unit _ s _ todo busy dispatched =>
      obtain ⟨b, there, traced⟩ := valid.booked.taken _ (List.mem_of_getElem? place) unit
        (by rw [todo]; exact List.mem_cons_self)
      obtain ⟨d, rfl, moves, machinery⟩ := machinery_dispatchUnit dispatched there traced
      exact stepsBy_of_put rfl there moves machinery here _
  | @pops k f q unit _ s _ queue front draws before dispatched free =>
      obtain ⟨b, there, -, traced⟩ := valid.booked.queued k q queue unit
        (by rw [front]; exact List.mem_cons_self)
      obtain ⟨d, rfl, moves, machinery⟩ :=
        machinery_dispatchUnit (w := w.modifyQueue k f) dispatched there traced
      exact stepsBy_of_put (w := w.modifyQueue k f) rfl there moves machinery here _
  | @resumes s _ _ _ busy resumed units =>
      obtain ⟨b, there, fits⟩ := valid.suspended place busy
      obtain ⟨d, rfl, moves, machinery⟩ := machinery_resume resumed there fits
      exact stepsBy_of_put rfl there moves machinery here _

/-- Where a connection went on without a task. -/
theorem stepsBy_of_alone (valid : w.Valid) (place : w.conns[j]? = some b) (alone : Alone w.now b d)
    (mine : i = j → StepsBy w.now i happening b d) (unasked : i ≠ j → happening.calls i = false)
    (here : w.conns[i]? = some c) :
    ∃ f e, StepsBy w.now i happening c f ∧ (w.put j b d).conns[i]? = some e ∧ Tended f e := by
  have suffix := (Later.of_changes (alone.changes (valid.conns j b place))).journal
  obtain ⟨e, there, tended⟩ := exists_of_put place suffix here
  refine ⟨_, e, ?_, there, tended⟩
  split
  · rename_i same
    subst same
    obtain rfl : b = c := Option.some.inj (place.symm.trans here)
    exact mine rfl
  · rename_i other
    exact .rests (unasked other)

/-- In whatever happens, a connection fares in one of these ways. -/
theorem exists_stepsBy (reached : w.Reachable) (happening : Happening)
    (here : w.conns[i]? = some c) :
    ∃ d e, StepsBy w.now i happening c d ∧ (w.perform happening).conns[i]? = some e ∧
      Tended d e := by
  have valid := reached.valid
  have still {happening : Happening} {w' : World} (unasked : happening.calls i = false)
      (tended : TendedAll w.conns w'.conns) :
      ∃ d e, StepsBy w.now i happening c d ∧ w'.conns[i]? = some e ∧ Tended d e := by
    obtain ⟨e, there, tended⟩ := tended.getElem? here
    exact ⟨c, e, .rests unasked, there, tended⟩
  cases happening with
  | pass | errands | collect | process | announce => exact still rfl (.refl _)
  | transit j transit => exact still rfl (.modify (tended_transit transit) j _)
  | carry source target count => exact still rfl (.modify (.feed _) target _)
  | abort t =>
      obtain ⟨queues, tasks, eq, -⟩ := abort_eq t w
      refine still rfl ?_
      rw [World.perform, eq]
      exact .refl _
  | start opening =>
      simp only [World.perform]
      split
      · refine ⟨c, c, .rests rfl, ?_, .refl c⟩
        rw [conns_start, List.getElem?_append_left (List.getElem?_eq_some_iff.mp here).1, here]
      · exact still rfl (.refl _)
  | call j call =>
      simp only [World.perform, onConn]
      split
      · rename_i absent
        refine still (decide_eq_false ?_) (.refl _)
        rintro rfl
        cases absent.symm.trans here
      · rename_i b place
        refine stepsBy_of_alone valid place (.call call) ?_ (fun other => ?_) here
        · rintro rfl
          exact .called rfl
        · exact decide_eq_false (Ne.symm other)
  | run actor =>
      simp only [World.perform]
      cases stepped : w.step actor with
      | none => exact still rfl (.refl _)
      | some w' =>
          rw [Option.getD_some]
          cases actor with
          | inbound j =>
              simp only [World.step] at stepped
              split at stepped
              · cases stepped
              · rename_i b place
                obtain ⟨d, step, rfl⟩ := Option.map_eq_some_iff.mp stepped
                exact stepsBy_of_alone valid place (.inbound step)
                  (fun mine => .inbound (mine ▸ rfl) step) (fun _ => rfl) here
          | outbound j =>
              simp only [World.step] at stepped
              split at stepped
              · cases stepped
              · rename_i b place
                obtain ⟨d, step, rfl⟩ := Option.map_eq_some_iff.mp stepped
                exact stepsBy_of_alone valid place (.outbound step)
                  (fun mine => .outbound (mine ▸ rfl) step) (fun _ => rfl) here
          | task t =>
              simp only [World.step] at stepped
              split at stepped
              · rename_i job place
                obtain ⟨⟨w'', task⟩, step, rfl⟩ := Option.map_eq_some_iff.mp stepped
                exact stepsBy_of_drains valid place
                  (drains_jobStep step fun k => reached.manned.isClaimed place) here
              · cases stepped

/-- How a connection fared that was one thing before a happening and another after it. -/
theorem stepsBy_perform (reached : w.Reachable) (here : w.conns[i]? = some c) {e : Connection}
    (there : (w.perform happening).conns[i]? = some e) :
    ∃ d, StepsBy w.now i happening c d ∧ Tended d e := by
  obtain ⟨d, e', share, there', tended⟩ := exists_stepsBy reached happening here
  obtain rfl : e' = e := Option.some.inj (there'.symm.trans there)
  exact ⟨d, share, tended⟩

/-- Time does not go back. -/
theorem now_le_perform (valid : w.Valid) (happening : Happening) :
    w.now ≤ (w.perform happening).now := by
  cases happening with
  | pass span => exact Nat.le_add_right ..
  | errands | collect | process | announce | transit | carry => exact Nat.le_refl _
  | abort t =>
      obtain ⟨queues, tasks, eq, -⟩ := abort_eq t w
      rw [World.perform, eq]
  | start opening =>
      simp only [World.perform]
      split
      · rw [World.start, queues_modifyQueueOf]
      · exact Nat.le_refl _
  | call j call =>
      simp only [World.perform, onConn]
      split
      · exact Nat.le_refl _
      · rw [now_put]
  | run actor =>
      simp only [World.perform]
      cases stepped : w.step actor with
      | none => exact Nat.le_refl _
      | some w' => exact Nat.le_of_eq (now_step valid stepped).symm

/-- Where a connection is right after it was started. -/
theorem getElem?_perform_start {opening : Session.Opening} {setup : Setup}
    (given : Session.setup opening = .ok setup) (w : World) :
    (w.perform (.start opening)).conns[w.conns.length]? = some (.start setup w.now) := by
  simp only [World.perform, given, conns_start, List.getElem?_concat_length]

/-- What is noted of a run, one happening after the other. -/
def annals {α : Type} (note : World → Happening → List α) : World → List Happening → List α
  | _, [] => []
  | w, happening :: happenings => note w happening ++ annals note (w.perform happening) happenings

/-- What is true of a connection and of what was noted by now, and is kept however the connection
fares, is true of them after every run. -/
theorem Reachable.annals {α : Type} {note : World → Happening → List α}
    {P : World → List α → Connection → Prop} (reached : w.Reachable)
    (here : w.conns[i]? = some c) {past : List α} (before : P w past c)
    (goesOn : ∀ {w : World} {happening : Happening} {past : List α} {c d e : Connection},
      w.Reachable → w.conns[i]? = some c → (w.perform happening).conns[i]? = some e →
      StepsBy w.now i happening c d → Tended d e → P w past c →
      P (w.perform happening) (past ++ note w happening) e)
    (happenings : List Happening) :
    ∃ d, (w.performAll happenings).conns[i]? = some d ∧
      P (w.performAll happenings) (past ++ World.annals note w happenings) d := by
  induction happenings generalizing w c past with
  | nil =>
      rw [World.annals, List.append_nil]
      exact ⟨c, here, before⟩
  | cons happening happenings ih =>
      obtain ⟨d, e, share, there, tended⟩ := exists_stepsBy reached happening here
      rw [World.annals, ← List.append_assoc]
      exact ih (reached.perform happening) there (goesOn reached here there share tended before)

/-- What is kept however a connection fares is true of it after every run. -/
theorem Reachable.stays {P : Connection → Prop} (reached : w.Reachable)
    (here : w.conns[i]? = some c) (before : P c)
    (goesOn : ∀ {w : World} {happening : Happening} {c d e : Connection}, w.Reachable →
      w.conns[i]? = some c → StepsBy w.now i happening c d → Tended d e → P c → P e)
    (happenings : List Happening) : ∃ d, (w.performAll happenings).conns[i]? = some d ∧ P d := by
  induction happenings generalizing w c with
  | nil => exact ⟨c, here, before⟩
  | cons happening happenings ih =>
      obtain ⟨d, e, share, there, tended⟩ := exists_stepsBy reached happening here
      exact ih (reached.perform happening) there (goesOn reached here share tended before)

end World

end PacketWire
