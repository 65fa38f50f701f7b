import PacketWire.Proofs.Reached

/-!
# Sessions are runs

Whatever a session does between two of its reports is some order of happenings, so all that is true
of every reachable world is true of every world that a session comes to.
-/

namespace PacketWire

namespace World

open Connection

variable {w w' : World}

theorem now_put (i : Nat) (before after : Connection) (w : World) :
    (w.put i before after).now = w.now := by
  obtain ⟨conns, count, trace, eq, -⟩ := put_eq i before after w
  rw [eq]

/-- No actor moves the clock. -/
theorem now_step (h : w.Valid) {actor : Actor} (step : w.step actor = some w') :
    w'.now = w.now := by
  cases actor with
  | inbound i | outbound i =>
      simp only [World.step] at step
      split at step
      · cases step
      · obtain ⟨d, -, rfl⟩ := Option.map_eq_some_iff.mp step
        exact now_put i _ d w
  | task k =>
      simp only [World.step] at step
      split at step
      · rename_i job here
        obtain ⟨⟨w'', task⟩, stepped, rfl⟩ := Option.map_eq_some_iff.mp step
        have stretch := stretch_jobStep h.booked
          (h.booked.taken _ (List.mem_of_getElem? here)) stepped
        cases stretch with
        | quiet => rfl
        | acts => exact now_put _ _ _ _
      · cases step

theorem Reachable.step (h : w.Reachable) {actor : Actor} (step : w.step actor = some w') :
    w'.Reachable := by
  have next := h.perform (.run actor)
  rwa [World.perform, step] at next

end World

namespace Schedule

open World

variable {s : Schedule}

theorem reachable_turn (h : s.world.Reachable) (actor : Actor) (rest : List Actor) :
    (s.turn actor rest).world.Reachable ∧ (s.turn actor rest).world.now = s.world.now := by
  rw [turn]
  split
  · rename_i step
    exact ⟨h.step step, now_step h.valid step⟩
  · exact ⟨h, rfl⟩

theorem reachable_settleFor (fuel : Nat) (h : s.world.Reachable) :
    (settleFor fuel s).world.Reachable ∧ (settleFor fuel s).world.now = s.world.now := by
  induction fuel generalizing s with
  | zero => exact ⟨h, rfl⟩
  | succ fuel ih =>
      rw [settleFor]
      split
      · exact ⟨h, rfl⟩
      · rename_i actor rest ready
        obtain ⟨next, same⟩ := reachable_turn h actor rest
        obtain ⟨settled, same'⟩ := ih next
        exact ⟨settled, same'.trans same⟩

theorem reachable_settleAt (h : s.world.Reachable) {now : Nat} (later : s.world.now ≤ now) :
    (s.settleAt now).world.Reachable ∧ (s.settleAt now).world.now = now := by
  have next := h.perform (.pass (now - s.world.now))
  rw [World.perform, Nat.add_sub_cancel' later] at next
  exact reachable_settleFor _ next

theorem reachable_runUntil {target now : Nat} (h : s.world.Reachable) (later : s.world.now ≤ now)
    (within : now ≤ target) : (s.runUntil target now).world.Reachable := by
  fun_induction runUntil target now s with
  | case1 now s settled quiet =>
      obtain ⟨reached, same⟩ := reachable_settleAt h later
      exact (reachable_settleAt reached (Nat.le_trans (Nat.le_of_eq same) within)).1
  | case2 now s settled wake next due ih =>
      obtain ⟨reached, same⟩ := reachable_settleAt h later
      exact ih reached (Nat.le_trans (Nat.le_of_eq same) (Nat.le_of_lt due.1)) due.2
  | case3 now s settled wake next idle =>
      obtain ⟨reached, same⟩ := reachable_settleAt h later
      exact (reachable_settleAt reached (Nat.le_trans (Nat.le_of_eq same) within)).1

theorem reachable_advance (span : Nat) (h : s.world.Reachable) :
    (s.advance span).world.Reachable :=
  reachable_runUntil h (Nat.le_refl _) (Nat.le_add_right _ span)

theorem reachable_rest (h : s.world.Reachable) : s.rest.world.Reachable := by
  have settled := (reachable_settleFor patience h).1
  simp only [rest]
  split
  · exact reachable_advance _ settled
  · exact settled

end Schedule

namespace Session

open World Connection

variable {w : World} {c d : Connection} {i : Nat}

/-- Changing one connection of a world that has it. -/
theorem modifyConn_congr {f g : Connection → Connection}
    (same : ∀ c, w.conns[i]? = some c → f c = g c) : w.modifyConn i f = w.modifyConn i g := by
  have conns : w.conns.modify i f = w.conns.modify i g := by
    apply List.ext_getElem?
    intro j
    rw [List.getElem?_modify, List.getElem?_modify]
    split
    · rename_i eq
      subst eq
      cases here : w.conns[i]? with
      | none => rfl
      | some c => exact congrArg some (same c here)
    · rfl
  rw [modifyConn, conns]
  rfl

theorem modifyConn_eq_self {f : Connection → Connection}
    (same : ∀ c, w.conns[i]? = some c → f c = c) : w.modifyConn i f = w := by
  have conns : w.conns.modify i id = w.conns := List.modify_id i w.conns
  rw [modifyConn_congr (g := id) same, modifyConn, conns]

/-- Nothing flows along a wire from a sink that did nothing. -/
theorem carry_of_sink (sink : d.sink = c.sink) (target : Nat) (w : World) :
    w.carry c d target = w := by
  have unreleased : (c.sink.released.isNone && c.sink.released = some .shutdown) = false := by
    cases c.sink.released <;> simp
  rw [carry, sink, List.drop_length, unreleased]
  exact modifyConn_eq_self fun _ _ => rfl

/-- `d` is `c` after it sent something, or nothing. -/
structure Sent (c d : Connection) : Prop where
  sink : d.sink = c.sink
  journal : ∃ entries, d.journal = entries ++ c.journal ∧
    ∀ entry ∈ entries, ∃ packet, entry = .accepted packet ∨ entry = .enqueued packet

theorem Sent.refl (c : Connection) : Sent c c :=
  ⟨rfl, [], rfl, fun _ member => by cases member⟩

theorem Sent.trans {e : Connection} (first : Sent c d) (second : Sent d e) : Sent c e := by
  obtain ⟨sink, entries, journal, sent⟩ := first
  obtain ⟨sink', entries', journal', sent'⟩ := second
  refine ⟨sink'.trans sink, entries' ++ entries, ?_, ?_⟩
  · rw [journal', journal, List.append_assoc]
  · intro entry member
    rcases List.mem_append.mp member with new | old
    · exact sent' entry new
    · exact sent entry old

theorem sent_send (packet : Packet) (c : Connection) : Sent c (tryTo (c.send packet) c) := by
  cases active : c.isActive with
  | false =>
      rw [send_eq_error active]
      exact .refl c
  | true =>
      rw [send_eq_ok active]
      refine ⟨rfl, [.enqueued packet, .accepted packet], rfl, ?_⟩
      intro entry member
      rcases List.mem_cons.mp member with rfl | member
      · exact ⟨packet, .inr rfl⟩
      · exact ⟨packet, .inl (List.mem_singleton.mp member)⟩

theorem sent_sendAll (packets : List Packet) (c : Connection) : Sent c (sendAll packets c).2 := by
  induction packets generalizing c with
  | nil => exact .refl c
  | cons packet packets ih => exact (sent_send packet c).trans (ih _)

/-- Where a connection only sent, nothing is settled elsewhere. -/
theorem put_of_sent (h : Sent c d) (i : Nat) (w : World) :
    w.put i c d = { w with conns := w.conns.set i d } := by
  obtain ⟨sink, entries, journal, sent⟩ := h
  have settled (entries : List Entry) (w : World)
      (sent : ∀ entry ∈ entries, ∃ packet, entry = .accepted packet ∨ entry = .enqueued packet) :
      entries.foldl (settleEntry i d) w = w := by
    induction entries with
    | nil => rfl
    | cons entry entries ih =>
        obtain ⟨packet, rfl | rfl⟩ := sent _ List.mem_cons_self <;>
          exact ih fun entry member => sent entry (List.mem_cons_of_mem _ member)
  have carried (wires : List (Nat × Nat)) (w : World) :
      wires.foldl (carryAlong i c d) w = w := by
    induction wires with
    | nil => rfl
    | cons wire wires ih => rw [List.foldl_cons, carryAlong, carry_of_sink sink, ite_self, ih]
  have gained : gained c.journal d.journal = entries.reverse := by
    rw [journal]
    simp [World.gained]
  rw [put, gained, settled _ _ fun entry member => sent entry (List.mem_reverse.mp member)]
  exact carried w.wires _

/-! ### Commands -/

theorem reachable_sendAll (packets : List Packet) (h : w.Reachable)
    (here : w.conns[i]? = some c) : (w.put i c (sendAll packets c).2).Reachable := by
  obtain ⟨bound, eq⟩ := List.getElem?_eq_some_iff.mp here
  rw [put_of_sent (sent_sendAll packets c)]
  induction packets generalizing w c with
  | nil =>
      simp only [sendAll, ← eq, List.set_getElem_self]
      exact h
  | cons packet packets ih =>
      have next := h.perform (.call i (.send packet))
      simp only [World.perform, onConn, here, Call.act] at next
      rw [put_of_sent (sent_send packet c)] at next
      have rest := ih next (List.getElem?_set_self bound) (by simpa using bound) (by simp)
      rwa [List.set_set] at rest

/-- Input that arrives chunk by chunk. -/
theorem reachable_feedAll (chunks : List Bytes) (i : Nat) (h : w.Reachable) :
    (w.modifyConn i fun c => { c with
      source := chunks.foldl (fun source chunk => source.feed chunk) c.source }).Reachable := by
  induction chunks generalizing w with
  | nil =>
      have still : w.modifyConn i (fun c => { c with source := c.source }) = w :=
        modifyConn_eq_self fun _ _ => rfl
      exact still.symm ▸ h
  | cons chunk chunks ih =>
      have rest := ih (h.perform (.transit i (.feed chunk)))
      rwa [World.perform, modifyConn, modifyConn, List.modify_modify_eq] at rest

/-- Other conditions for the bytes that a connection hands on. -/
theorem reachable_weather {f : Connection → Connection} (i : Nat) (h : w.Reachable)
    (weather : ∀ c, ∃ room writeFailure flushFailure flushStalls shutdownStalls, f c =
      (Transit.weather room writeFailure flushFailure flushStalls shutdownStalls).act c) :
    (w.modifyConn i f).Reachable := by
  cases here : w.conns[i]? with
  | none =>
      rw [modifyConn_eq_self fun c there => by simp [here] at there]
      exact h
  | some c =>
      obtain ⟨room, writeFailure, flushFailure, flushStalls, shutdownStalls, eq⟩ := weather c
      have next := h.perform
        (.transit i (.weather room writeFailure flushFailure flushStalls shutdownStalls))
      rw [World.perform, modifyConn_congr (g := f) ?_] at next
      · exact next
      · intro d there
        obtain rfl : c = d := Option.some.inj (here.symm.trans there)
        exact eq.symm

/-- A task that is started as often as one likes. -/
theorem reachable_launch (happening : Happening) {task : Task} (times : Nat) (h : w.Reachable)
    (spawns : ∀ w : World, w.perform happening = w.spawn task) :
    Reachable { w with tasks := w.tasks ++ List.replicate times task } := by
  induction times generalizing w with
  | zero =>
      rw [List.replicate_zero, List.append_nil]
      exact h
  | succ times ih =>
      have rest := ih (h.perform happening)
      rw [spawns] at rest
      rw [List.replicate_succ, ← List.singleton_append, ← List.append_assoc]
      exact rest

/-- A call of the application whose result is reported. -/
theorem reachable_single {s : Session} {f : Connection → Except Error Connection} (call : Call)
    (h : s.schedule.world.Reachable) (acts : ∀ c, call.act c = tryTo (f c) c) (i : Nat) :
    (s.call i (single f)).2.schedule.world.Reachable := by
  have next := h.perform (.call i call)
  rw [World.perform, onConn] at next
  rw [Session.call]
  split
  · exact h
  · rename_i c here
    simp only [here, acts] at next
    exact next

theorem reachable_abortAll (launches : List Launch) (h : w.Reachable) :
    (launches.foldl (fun w launch => w.abort launch.task) w).Reachable := by
  induction launches generalizing w with
  | nil => exact h
  | cons launch launches ih => exact ih (h.perform (.abort launch.task))

variable {s : Session}

/-- A command is carried out by happenings. -/
theorem reachable_command (h : s.schedule.world.Reachable) (command : Command) :
    (s.command command).2.schedule.world.Reachable := by
  cases command with
  | recv i chunks => exact reachable_feedAll chunks i h
  | finish i ending => exact h.perform (.transit i (.finish ending))
  | failWrites i cause => exact reachable_weather i h fun c => ⟨_, _, _, _, _, rfl⟩
  | failFlushes i cause => exact reachable_weather i h fun c => ⟨_, _, _, _, _, rfl⟩
  | grant i room => exact reachable_weather i h fun c => ⟨_, _, _, _, _, rfl⟩
  | send i packets =>
      simp only [Session.command, Session.call]
      split
      · exact h
      · rename_i c here
        exact reachable_sendAll packets h here
  | handshake i kind => exact reachable_single (.handshake kind) h (fun _ => rfl) i
  | register i type => exact reachable_single (.register type) h (fun _ => rfl) i
  | close i times => exact reachable_launch (.errands [.close i]) times h fun _ => rfl
  | join i => exact reachable_launch (.errands [.join i]) 1 h fun _ => rfl
  | collect i => exact reachable_launch (.collect i) 1 h fun _ => rfl
  | process queue => exact reachable_launch (.process queue false) 1 h fun _ => rfl
  | abort command => exact reachable_abortAll _ h
  | advance span => exact Schedule.reachable_advance span h
  | look => exact h

theorem reachable_run (h : s.schedule.world.Reachable) (command : Command) :
    (s.run command).2.schedule.world.Reachable :=
  Schedule.reachable_rest (reachable_command h command)

/-- The connections of a session are started before anything else happens. -/
theorem reachable_openAll (executor : Bool) (openings : List Opening) {schedule : Schedule}
    (wires : List (Nat × Nat)) (h : Reachable { schedule.world with wires }) :
    Reachable { (openAll executor openings schedule).2.world with wires } := by
  induction openings generalizing schedule with
  | nil => exact h
  | cons opening openings ih =>
      rw [openAll]
      split
      · exact h
      · rename_i setup given
        split
        · apply ih
          have next := h.perform (.start opening)
          simp only [World.perform, given] at next
          have apart : World.start setup { schedule.world with wires } =
              { schedule.world.start setup with wires } := by
            rw [World.start, World.start, queues_modifyQueueOf, queues_modifyQueueOf]
          rw [apart] at next
          exact next
        · exact h

theorem reachable_begin (openings : List Opening) (linked : Bool) (queues : Nat)
    (executor : Bool) : (begin openings linked queues executor).2.schedule.world.Reachable :=
  reachable_openAll executor openings _ (.empty queues _)

/-- Every world that a session comes to is one that some order of happenings leads to. -/
theorem reachable_of_commands (openings : List Opening) (linked : Bool) (queues : Nat)
    (executor : Bool) (commands : List Command) :
    (commands.foldl (fun s command => (s.run command).2)
      (begin openings linked queues executor).2).schedule.world.Reachable := by
  have onward {s : Session} (h : s.schedule.world.Reachable) :
      (commands.foldl (fun s command => (s.run command).2) s).schedule.world.Reachable := by
    induction commands generalizing s with
    | nil => exact h
    | cons command commands ih => exact ih (reachable_run h command)
  exact onward (reachable_begin openings linked queues executor)

end Session

end PacketWire
