import PacketWire.Proofs.Delivery
import PacketWire.Proofs.Drainers
import PacketWire.Proofs.Interventions
import PacketWire.Proofs.ReceiptOrder

/-!
# Runs in which nobody closes a connection

A run respects a connection if what its outside does about it is admitted and no task closes it.
Tasks may hand on what it deferred, and wait for its loops. Where nothing that is handed on starts a
close either, the connection is `Safe`: a listener that is mild asks for none, and no close message
was deferred. So whatever other connections do, it only `Undergoes` what it is made for.
-/

namespace PacketWire

namespace Connection

/-- Nothing that a connection deferred, and nothing that its listener does, starts a close. -/
structure Calm (c : Connection) : Prop where
  mild : Listener.Mild c.listener
  unasked : ¬ c.Asked
  goesOn : ∀ {event : Event}, .deferred event ∈ c.journal → Reader.isLast event = false

end Connection

namespace Task

/-- What a caller has still to do. -/
def todo : Task → List Errand
  | running (.errands todo _) => todo
  | _ => []

/-- A task that does not close a connection and does not wait for a close of it. -/
structure Respects (i : Nat) (task : Task) : Prop where
  todo : .close i ∉ task.todo
  suspension : ∀ s ∈ task.suspension?, s.conn ≠ i

end Task

variable {admits : Nat → Connection → Intervention → Prop}

/-- A happening in which nobody closes a connection and only interventions in it are made that are
admitted. -/
def Happening.Respects (admits : Nat → Connection → Intervention → Prop) (i : Nat) (w : World) :
    Happening → Prop
  | .errands todo => .close i ∉ todo
  | .call conn made => conn = i → ∀ c ∈ w.conns[i]?, admits w.now c (.call made)
  | .transit conn done => conn = i → ∀ c ∈ w.conns[i]?, admits w.now c (.transit done)
  | .carry source target count => target = i →
    ∀ c ∈ w.conns[i]?, admits w.now c (.transit (.feed ((w.underway source target).take count)))
  | .pass span => ∀ c ∈ w.conns[i]?, admits w.now c (.pass span)
  | _ => True

instance [∀ now c intervention, Decidable (admits now c intervention)] (i : Nat) (w : World) :
    (happening : Happening) → Decidable (happening.Respects admits i w)
  | .errands _ => inferInstanceAs (Decidable (_ ∉ _))
  | .call .. | .transit .. | .carry .. => inferInstanceAs (Decidable (_ → _))
  | .pass _ => inferInstanceAs (Decidable (∀ _ ∈ _, _))
  | .run _ | .start _ | .collect _ | .process .. | .abort _ | .announce _ =>
    inferInstanceAs (Decidable True)

namespace World

open Connection

variable {w w' : World} {i j : Nat} {b c d : Connection} {job : Job} {task : Task}

theorem tasks_settleEntry {entry : Entry} (calm : entry ≠ .closeRequested) :
    (settleEntry i c w entry).tasks = w.tasks := by
  cases entry with
  | closeRequested => exact absurd rfl calm
  | deferred | detached => simp [settleEntry, queues_modifyQueueOf]
  | hook =>
      simp only [settleEntry]
      split <;> rfl
  | _ => rfl

/-- A task is started only for a close that a listener asked for. -/
theorem tasks_put (unasked : ¬ d.Asked) : (w.put i c d).tasks = w.tasks := by
  have settled (entries : List Entry) (w : World) (calm : .closeRequested ∉ entries) :
      (entries.foldl (settleEntry i d) w).tasks = w.tasks := by
    induction entries generalizing w with
    | nil => rfl
    | cons entry entries ih =>
        rw [List.mem_cons, not_or] at calm
        rw [List.foldl_cons, ih _ calm.2, tasks_settleEntry (Ne.symm calm.1)]
  have calm : .closeRequested ∉ gained c.journal d.journal := fun member =>
    unasked (List.mem_of_mem_take (List.mem_reverse.mp member))
  rw [put]
  obtain ⟨conns, eq, -⟩ := carryAll_eq i c d _ _
  rw [eq]
  exact settled _ _ calm

/-- Tasks that respect a connection, where another goes on or its listener asks for nothing. -/
theorem respects_put (tasks : ∀ task ∈ w.tasks, task.Respects i) (calm : j = i → ¬ d.Asked) :
    ∀ task ∈ (w.put j c d).tasks, task.Respects i := by
  by_cases mine : j = i
  · rw [tasks_put (calm mine)]
    exact tasks
  · obtain ⟨conns, count, trace, eq, -⟩ := put_eq j c d w
    rw [eq]
    intro task member
    rcases List.mem_append.mp member with old | fresh
    · exact tasks task old
    · rw [List.eq_of_mem_replicate fresh]
      refine ⟨?_, fun s suspended => by cases suspended⟩
      simpa [Task.todo, Task.close] using Ne.symm mine

/-- In one step a connection only undergoes what it is made for, and no task is about to close
it. -/
structure Respected (admits : Nat → Connection → Intervention → Prop) (i : Nat) (w w' : World) :
    Prop where
  conn : ∀ c, w.conns[i]? = some c →
    ∃ d, w'.conns[i]? = some d ∧ Undergoes admits w.now c w'.now d
  tasks : ∀ task ∈ w'.tasks, task.Respects i

/-- No wire, no listener, nothing deferred and no task endangers the connection. -/
structure Safe (i : Nat) (w : World) : Prop where
  dry : ∀ wire ∈ w.wires, wire.2 ≠ i
  calm : ∀ c, w.conns[i]? = some c → c.Calm
  tasks : ∀ task ∈ w.tasks, task.Respects i

theorem Safe.still (h : Safe i w) (now : w'.now = w.now) (conns : w'.conns = w.conns)
    (tasks : w'.tasks = w.tasks) : Respected admits i w w' where
  conn := fun c here => ⟨c, conns ▸ here, now ▸ .rests⟩
  tasks := tasks ▸ h.tasks

theorem Safe.put (h : Safe i w) (here : w.conns[j]? = some c) (later : c.Later d)
    (mine : j = i → Undergoes admits w.now c w.now d ∧ Changes c d) :
    Respected admits i w (w.put j c d) where
  conn := by
    intro b there
    have put := put_spec (w := w) (i := j) later.journal
    have place := put.dry i h.dry
    rw [put.now]
    by_cases same : j = i
    · subst same
      obtain rfl : b = c := Option.some.inj (there.symm.trans here)
      rw [List.getElem?_set_self (List.getElem?_eq_some_iff.mp here).1] at place
      exact ⟨d, place, (mine rfl).1⟩
    · rw [List.getElem?_set_ne same, there] at place
      exact ⟨b, place, .rests⟩
  tasks := by
    refine respects_put h.tasks fun same asked => ?_
    subst same
    have calm := h.calm c here
    exact calm.unasked (asked_of_changes (mine rfl).2 calm.mild asked)

/-- A unit is handed on, and there is no close of the connection to wait for. -/
theorem Safe.dispatchUnit (h : Safe i w) {unit : WorkUnit} {s : Option Suspension}
    (traced : w.Traces unit) (dispatched : w.dispatchUnit unit = (w', s)) :
    Respected admits i w w' ∧ ∀ s' ∈ s, s'.conn ≠ i := by
  obtain ⟨c, here, deferred⟩ := traced
  have changes := (outcome_dispatch false w.now (.inr deferred)).moves.changes
  simp only [World.dispatchUnit, here] at dispatched
  cases dispatched
  refine ⟨h.put here (.of_changes changes) fun _ => ⟨.hands deferred, changes⟩, ?_⟩
  intro s' member same
  obtain ⟨⟨wait, packet⟩, left, rfl⟩ := Option.map_eq_some_iff.mp member
  obtain rfl : unit.conn = i := same
  have none := wait_dispatch false w.now ((h.calm c here).goesOn deferred) c
  rw [none] at left
  cases left

theorem undergoes_errandStep {now : Nat} {errand : Errand} {wait left : Option CloseWait}
    (joins : errand = .join i) (step : errandStep now c errand wait = some (d, left)) :
    Undergoes admits now c now d := by
  subst joins
  cases wait with
  | none =>
      simp only [errandStep] at step
      split at step <;>
      · cases step
        exact .joins
  | some wait =>
      simp only [errandStep] at step
      split at step
      · split at step
        · cases step
          exact .rests
        · split at step <;>
          · cases step
            exact .rests
      · cases step

theorem Safe.drains (h : Safe i w) (valid : w.Valid) {t : Nat}
    (place : w.tasks[t]? = some (.running job)) (drains : Drains w job w' task) :
    Respected admits i w w' ∧ ∀ s ∈ task.suspension?, s.conn ≠ i := by
  have known := h.tasks _ (List.mem_of_getElem? place)
  cases drains with
  | waits _ _ after =>
      refine ⟨h.still rfl rfl rfl, fun s suspended => ?_⟩
      rw [after.suspension] at suspended
      cases suspended
  | @errand errand todo wait left c d _ eq here stepped after =>
      subst eq
      have acts := acts_errandStep stepped
      rw [← closing?_errands errand.conn errand todo] at acts
      have changes := (moves_of_acts valid place here acts).changes
      refine ⟨h.put here (.of_changes changes) fun same => ⟨?_, changes⟩, fun s suspended => ?_⟩
      · refine undergoes_errandStep (i := i) ?_ stepped
        cases errand with
        | join conn => exact congrArg Errand.join same
        | close conn =>
            obtain rfl : conn = i := same
            exact absurd List.mem_cons_self known.todo
      · rw [after.suspension] at suspended
        cases suspended
  | takes _ _ _ _ _ none =>
      refine ⟨h.still rfl rfl rfl, fun s suspended => ?_⟩
      rw [none] at suspended
      cases suspended
  | @hands unit _ s _ units _ dispatched suspended =>
      have traced := valid.booked.taken _ (List.mem_of_getElem? place) unit
        (by rw [units]; exact List.mem_cons_self)
      rw [suspended]
      exact h.dispatchUnit traced dispatched
  | @pops k f q unit _ s _ queue front _ _ dispatched _ suspended =>
      have owed := valid.booked.queued k q queue unit (by rw [front]; exact List.mem_cons_self)
      have same : Safe i (w.modifyQueue k f) := ⟨h.dry, h.calm, h.tasks⟩
      obtain ⟨respected, left⟩ := same.dispatchUnit owed.traces dispatched
      rw [suspended]
      exact ⟨⟨respected.conn, respected.tasks⟩, left⟩
  | @resumes s s' _ _ busy resumed _ suspended =>
      obtain ⟨c, here, fits⟩ := valid.suspended place busy
      have other := known.suspension s busy
      obtain ⟨d, -, rfl, later, -⟩ := put_of_resume resumed here fits
      obtain ⟨_, -, same, -⟩ := resume_eq here resumed
      refine ⟨h.put here later fun mine => absurd mine other, ?_⟩
      rw [suspended]
      exact fun s' member mine => other ((same s' member).symm.trans mine)

/-- Nobody gets more to do by doing something. -/
theorem todo_jobStep (step : w.jobStep job = some (w', task)) :
    task.todo ⊆ (Task.running job).todo := by
  cases task with
  | ended outcome => exact List.nil_subset _
  | running next =>
      have kind := kind_jobStep step
      cases next with
      | collect | process => exact List.nil_subset _
      | errands todo' wait' =>
          cases job with
          | collect | process => cases kind
          | errands todo wait =>
              cases todo with
              | nil => cases step
              | cons errand todo =>
                  simp only [jobStep, errandsStep] at step
                  split at step
                  · cases step
                    exact List.subset_cons_self _ _
                  · split at step
                    · cases step
                    · cases step
                      exact List.Subset.refl _
                    · split at step <;> cases step
                      exact List.subset_cons_self _ _

theorem Safe.step (h : Safe i w) (reached : w.Reachable) {actor : Actor}
    (step : w.step actor = some w') : Respected admits i w w' := by
  have valid := reached.valid
  cases actor with
  | inbound k =>
      simp only [World.step] at step
      split at step
      · cases step
      · rename_i c here
        obtain ⟨d, stepped, rfl⟩ := Option.map_eq_some_iff.mp step
        have changes := ((valid.conns k c here).moves_inboundStep stepped).changes
        exact h.put here (.of_changes changes) fun _ => ⟨.inbound stepped, changes⟩
  | outbound k =>
      simp only [World.step] at step
      split at step
      · cases step
      · rename_i c here
        obtain ⟨d, stepped, rfl⟩ := Option.map_eq_some_iff.mp step
        have changes := (onward_outboundStep stepped).changes
        exact h.put here (.of_changes changes) fun _ => ⟨.outbound stepped, changes⟩
  | task t =>
      simp only [World.step] at step
      split at step
      · rename_i job place
        obtain ⟨⟨w'', task⟩, stepped, rfl⟩ := Option.map_eq_some_iff.mp step
        have drains := drains_jobStep stepped fun k => reached.manned.isClaimed place
        obtain ⟨respected, left⟩ := h.drains valid place drains
        refine ⟨respected.conn, fun other member => ?_⟩
        rcases List.mem_or_eq_of_mem_set member with old | rfl
        · exact respected.tasks other old
        · refine ⟨fun closes => ?_, left⟩
          exact (h.tasks _ (List.mem_of_getElem? place)).todo (todo_jobStep stepped closes)
      · cases step

theorem Safe.spawn (h : Safe i w) {task : Task} (respects : task.Respects i) :
    Respected admits i w (w.spawn task) where
  conn := fun c here => ⟨c, here, .rests⟩
  tasks := by
    intro other member
    rcases List.mem_append.mp member with old | fresh
    · exact h.tasks other old
    · exact List.mem_singleton.mp fresh ▸ respects

/-- The transport of a connection does something, perhaps of this one. -/
theorem Safe.modifyConn (h : Safe i w) {f : Connection → Connection}
    (mine : ∀ c, w.conns[i]? = some c → j = i → Undergoes admits w.now c w.now (f c)) :
    Respected admits i w (w.modifyConn j f) where
  conn := by
    intro c here
    rw [World.modifyConn, List.getElem?_modify, here]
    refine ⟨_, rfl, ?_⟩
    split
    · rename_i same
      exact mine c here same
    · exact .rests
  tasks := h.tasks

theorem Safe.abort (h : Safe i w) (t : Nat) : Respected admits i w (w.abort t) := by
  obtain ⟨queues, tasks, eq, aborted⟩ := abort_eq t w
  rw [eq]
  refine ⟨fun c here => ⟨c, here, .rests⟩, fun task member => ?_⟩
  rcases aborted task member with old | rfl
  · exact h.tasks task old
  · exact ⟨List.not_mem_nil, fun s suspended => by cases suspended⟩

theorem Safe.perform (h : Safe i w) (reached : w.Reachable) {happening : Happening}
    (respects : happening.Respects admits i w) : Respected admits i w (w.perform happening) := by
  cases happening with
  | run actor =>
      simp only [World.perform]
      cases stepped : w.step actor with
      | none => exact h.still rfl rfl rfl
      | some w' => exact h.step reached stepped
  | pass span => exact ⟨fun c here => ⟨c, here, .meets (respects c here)⟩, h.tasks⟩
  | announce => exact h.still rfl rfl rfl
  | start opening =>
      simp only [World.perform]
      split
      · rename_i setup given
        rw [World.start, queues_modifyQueueOf]
        refine ⟨fun c here => ⟨c, ?_, .rests⟩, h.tasks⟩
        exact (List.getElem?_append_left (List.getElem?_eq_some_iff.mp here).1).trans here
      · exact h.still rfl rfl rfl
  | errands todo => exact h.spawn ⟨respects, fun s suspended => by cases suspended⟩
  | collect k => exact h.spawn ⟨List.not_mem_nil, fun s suspended => by cases suspended⟩
  | process k resident => exact h.spawn ⟨List.not_mem_nil, fun s suspended => by cases suspended⟩
  | abort t => exact h.abort t
  | call k call =>
      simp only [World.perform, onConn]
      split
      · exact h.still rfl rfl rfl
      · rename_i c here
        have held : c.Valid (closers k w.tasks ++ (none : Option CloseWait).toList ++ []) := by
          simpa using reached.valid.conns k c here
        have changes := (held.moves_of_acts (acts_call c call)).changes
        refine h.put here (.of_changes changes) fun same => ⟨?_, changes⟩
        subst same
        exact .meets (respects rfl c here)
  | transit k transit => exact h.modifyConn fun c here same => .meets (respects same c here)
  | carry source target count =>
      exact h.modifyConn fun c here same => .meets (respects same c here)

/-! ### Whole runs -/

/-- A connection that is not there later was not there before. -/
theorem Later.absent (later : Later w w') (gone : w'.conns[i]? = none) : w.conns[i]? = none := by
  cases here : w.conns[i]? with
  | none => rfl
  | some c =>
      obtain ⟨d, there, -⟩ := later i c here
      cases there.symm.trans gone

theorem Reachable.unasked (reached : w.Reachable) (here : w.conns[i]? = some c)
    (mild : Listener.Mild c.listener) : ¬ c.Asked := by
  refine reached.conns (P := fun c => Listener.Mild c.listener → ¬ c.Asked) ?_ ?_ i c here mild
  · intro setup opening now given mild asked
    cases asked
  · intro now c d e closers valid unasked share tended mild asked
    have changes := (share.changes valid).trans tended.changes
    have before : Listener.Mild c.listener := by
      rwa [(Connection.Later.of_changes changes).settings.2.1] at mild
    exact unasked before (asked_of_changes changes before asked)

/-- What a connection was fed it was fed. -/
theorem fed_perform (valid : w.Valid) (dry : ∀ wire ∈ w.wires, wire.2 ≠ i) (happening : Happening) :
    w.fed i <+: (w.perform happening).fed i := by
  have more (chunk : Bytes) :
      w.fed i <+: (w.modifyConn i fun c => { c with source := c.source.feed chunk }).fed i := by
    simp only [fed, World.modifyConn, List.getElem?_modify_eq]
    cases w.conns[i]? with
    | none => exact List.prefix_rfl
    | some c => exact List.prefix_append _ _
  by_cases feeds : happening.Feeds i
  · cases happening with
    | transit conn transit =>
        cases transit with
        | feed chunk =>
            obtain rfl : conn = i := feeds
            exact more chunk
        | _ => exact feeds.elim
    | carry source target count =>
        obtain rfl : target = i := feeds
        exact more _
    | _ => exact feeds.elim
  · have same := (unfed_perform valid dry feeds).2
    exact same.symm ▸ List.prefix_rfl

theorem fed_performAll (valid : w.Valid) (dry : ∀ wire ∈ w.wires, wire.2 ≠ i)
    (happenings : List Happening) : w.fed i <+: (w.performAll happenings).fed i := by
  induction happenings generalizing w with
  | nil => exact List.prefix_rfl
  | cons happening happenings ih =>
      have later := ih (valid.perform happening).1 (wires_perform valid dry happening ▸ dry)
      exact (fed_perform valid dry happening).trans later

/-- A run in which every happening respects a connection. -/
def Respects (admits : Nat → Connection → Intervention → Prop) (i : Nat) :
    World → List Happening → Prop
  | _, [] => True
  | w, happening :: happenings =>
    happening.Respects admits i w ∧ Respects admits i (w.perform happening) happenings

instance [∀ now c intervention, Decidable (admits now c intervention)] (i : Nat) :
    (w : World) → (happenings : List Happening) → Decidable (Respects admits i w happenings)
  | _, [] => inferInstanceAs (Decidable True)
  | w, happening :: happenings =>
    have := instDecidableRespects i (w.perform happening) happenings
    inferInstanceAs (Decidable (_ ∧ _))

theorem respects_append {before after : List Happening} :
    Respects admits i w (before ++ after) ↔
      Respects admits i w before ∧ Respects admits i (w.performAll before) after := by
  induction before generalizing w with
  | nil => simp [Respects, performAll]
  | cons happening before ih =>
      rw [List.cons_append, Respects, ih, Respects, and_assoc]
      rfl

/-- A property of a connection, at a time, that lasts while nobody closes the connection and it is
fed no more than these bytes. While it lasts, nothing starts a close. -/
structure Lasting (admits : Nat → Connection → Intervention → Prop) (bytes : Bytes)
    (P : Nat → Connection → Prop) : Prop where
  calm : ∀ {w : World} {i : Nat} {c : Connection}, w.Reachable → w.conns[i]? = some c →
    c.source.fed <+: bytes → P w.now c → c.Calm
  undergoes : ∀ {w : World} {i : Nat} {c : Connection} {later : Nat} {d : Connection},
    w.Reachable → w.conns[i]? = some c → c.source.fed <+: bytes → P w.now c →
    Undergoes admits w.now c later d → P later d

/-- No wire leads to a connection, no task is about to close it, and the property, if the connection
is there, holds. -/
structure Keeps (P : Nat → Connection → Prop) (i : Nat) (w : World) : Prop where
  dry : ∀ wire ∈ w.wires, wire.2 ≠ i
  tasks : ∀ task ∈ w.tasks, task.Respects i
  conn : ∀ c, w.conns[i]? = some c → P w.now c

variable {P : Nat → Connection → Prop} {bytes : Bytes}

theorem Keeps.perform (h : Keeps P i w) (lasting : Lasting admits bytes P) (reached : w.Reachable)
    (fed : w.fed i <+: bytes) {happening : Happening} (respects : happening.Respects admits i w)
    (old : w.conns[i]? = none → (w.perform happening).conns[i]? = none) :
    Keeps P i (w.perform happening) := by
  have bounded (c : Connection) (here : w.conns[i]? = some c) : c.source.fed <+: bytes := by
    rwa [World.fed, here] at fed
  have safe : Safe i w :=
    ⟨h.dry, fun c here => lasting.calm reached here (bounded c here) (h.conn c here), h.tasks⟩
  have respected := safe.perform reached respects
  refine ⟨wires_perform reached.valid h.dry happening ▸ h.dry, respected.tasks, fun e there => ?_⟩
  cases here : w.conns[i]? with
  | none =>
      rw [old here] at there
      cases there
  | some c =>
      obtain ⟨d, place, undergoes⟩ := respected.conn c here
      obtain rfl : d = e := Option.some.inj (place.symm.trans there)
      exact lasting.undergoes reached here (bounded c here) (h.conn c here) undergoes

/-- In a run that respects a connection the property lasts; the run does not start it. -/
theorem Keeps.performAll (h : Keeps P i w) (lasting : Lasting admits bytes P)
    (reached : w.Reachable) {happenings : List Happening}
    (fed : (w.performAll happenings).fed i <+: bytes) (respects : Respects admits i w happenings)
    (old : w.conns[i]? = none → (w.performAll happenings).conns[i]? = none) :
    Keeps P i (w.performAll happenings) := by
  induction happenings generalizing w with
  | nil => exact h
  | cons happening happenings ih =>
      obtain ⟨valid, later⟩ := reached.valid.perform happening
      have first : Keeps P i (w.perform happening) := by
        refine h.perform lasting reached (List.IsPrefix.trans ?_ fed) respects.1 fun gone => ?_
        · exact fed_performAll reached.valid h.dry (happening :: happenings)
        · exact (valid.performAll happenings).2.absent (old gone)
      exact ih first (reached.perform happening) fed respects.2 fun gone => old (later.absent gone)

/-- A connection that is started while nobody is about to close it. -/
theorem Keeps.start (h : Keeps P w.conns.length w) {setup : Setup}
    (fresh : P w.now (.start setup w.now)) :
    Keeps P w.conns.length (w.start setup) ∧
      (w.start setup).conns[w.conns.length]? = some (.start setup w.now) := by
  have there : (w.start setup).conns[w.conns.length]? = some (.start setup w.now) := by
    rw [conns_start, List.getElem?_concat_length]
  refine ⟨?_, there⟩
  have holds (c : Connection) (here : (w.start setup).conns[w.conns.length]? = some c) :
      P w.now c := by
    obtain rfl : c = .start setup w.now := Option.some.inj (here.symm.trans there)
    exact fresh
  rw [World.start, queues_modifyQueueOf] at holds ⊢
  exact ⟨h.dry, h.tasks, holds⟩

/-- In a run that respects a connection no task is about to close it, and what holds of it when it
is started, and lasts, holds of it. -/
theorem keeps_run (lasting : Lasting admits bytes P) {queues : Nat} {wires : List (Nat × Nat)}
    {before after : List Happening} {opening : Session.Opening} {setup : Setup}
    (given : Session.setup opening = .ok setup) (fresh : ∀ now, P now (.start setup now))
    (run : performAll (before ++ .start opening :: after) { empty queues with wires } = w)
    (place : (performAll before { empty queues with wires }).conns.length = i)
    (dry : ∀ wire ∈ wires, wire.2 ≠ i)
    (respects : Respects admits i { empty queues with wires } (before ++ .start opening :: after))
    (fed : w.fed i <+: bytes) :
    Keeps P i w ∧ ∃ since c, w.conns[i]? = some c ∧ (Connection.start setup since).Later c := by
  obtain ⟨w₀, first⟩ : ∃ w₀, performAll before { empty queues with wires } = w₀ := ⟨_, rfl⟩
  have reached : w₀.Reachable := first ▸ (Reachable.empty queues wires).performAll before
  have nobody : w₀.conns[i]? = none := List.getElem?_eq_none (by rw [← first, place])
  have started : w₀.perform (.start opening) = w₀.start setup := by
    simp only [World.perform, given]
  have run : (w₀.start setup).performAll after = w := by
    rw [← run, ← started, ← first]
    simp only [performAll, List.foldl_append, List.foldl_cons]
  rw [respects_append, first] at respects
  have empty : Keeps P i { empty queues with wires } :=
    ⟨dry, List.forall_mem_nil _, fun c here => by cases here⟩
  have keeps : Keeps P i w₀ := by
    rw [← first]
    refine empty.performAll lasting (.empty queues wires) ?_ respects.1 fun _ => first ▸ nobody
    rw [first, World.fed, nobody]
    exact List.nil_prefix
  obtain rfl : w₀.conns.length = i := first ▸ place
  obtain ⟨keeps, there⟩ := keeps.start (fresh w₀.now)
  have next : (w₀.start setup).Reachable := started ▸ reached.perform (.start opening)
  have rest : Respects admits w₀.conns.length (w₀.start setup) after := started ▸ respects.2.2
  subst run
  refine ⟨keeps.performAll lasting next fed rest fun gone => ?_, ?_⟩
  · cases there.symm.trans gone
  · exact ⟨w₀.now, (next.valid.performAll after).2 _ _ there⟩

/-- Where claimants hand on everything, a respected connection was shown what was handed on to it,
and only what is queued was not handed on. -/
theorem shownCalls_of_respects {queues : Nat} {wires : List (Nat × Nat)}
    {happenings : List Happening} {k : Nat} {q : WorkQueue} {c : Connection}
    (run : performAll happenings { empty queues with wires } = w)
    (goesOn : ∀ t, .abort t ∉ happenings) (others : ∀ j, .collect j ∉ happenings)
    (here : w.conns[i]? = some c) (queue : w.queues[k]? = some q) (uses : c.delivery = .deferred k)
    (tasks : ∀ task ∈ w.tasks, task.Respects i) :
    c.deferredEvents = c.dispatchedEvents ++ WorkUnit.eventsOf i q.units ∧
      c.shownCalls = c.dispatchedEvents.flatMap (Event.calls c.config.notifyControl) := by
  have free : CollectsNothing { empty queues with wires } := List.forall_mem_nil _
  have never : w.CollectsNothing :=
    run ▸ free.performAll (Reachable.empty queues wires).valid goesOn others
  have inTurn : InTurn i { empty queues with wires } happenings :=
    inTurn_of_claimants goesOn others (run ▸ here) uses
  obtain ⟨inOrder, shown⟩ :=
    Group.ordered_of_run goesOn run queue here uses (takesTurns_single_iff.mpr inTurn)
  have inHand : w.inHand i = [] := by
    refine List.flatMap_eq_nil_iff.mpr fun task member => ?_
    rw [units_of_not_collects (never task member)]
    rfl
  have nothingDue : w.stillDue i c.config.notifyControl = [] := by
    refine List.flatMap_eq_nil_iff.mpr fun task member => ?_
    rw [Task.dueTo]
    split
    · rename_i s suspended
      exact if_neg ((tasks task member).suspension s suspended)
    · rfl
  rw [inHand, List.append_nil] at inOrder
  rw [nothingDue, List.append_nil] at shown
  exact ⟨inOrder, shown⟩

end World

end PacketWire
