import PacketWire.Proofs.Working

/-!
# Loops that were taken are awaited

The loops of a connection are taken once, by a call that waits for them or by a close at its end.
From then on they have finished, or the task that took them still waits for them (`Minded`). So
whoever finds them taken and finds nobody who waits for them knows that both have finished.
-/

namespace PacketWire

namespace Connection

variable {c d e : Connection} {now : Nat} {errand : Errand} {wait left : Option CloseWait}

/-- Loops that were taken are not given back. -/
theorem unjoined_of_changes (changes : Changes c d) (taken : c.unjoined = []) :
    d.unjoined = [] := by
  induction changes with
  | refl => exact taken
  | tail _ change ih =>
      cases change with
      | feed | finish | due | write | place => exact ih
      | move move =>
          cases move with
          | chat chat =>
              rw [chat.eq]
              exact ih
          | hook call => exact (unjoined_callHook call _).trans ih
          | leave message => exact (unjoined_startClosing message true _).trans ih
          | fail cause =>
              exact (unjoined_startClosing cause.message false _).trans
                ((unjoined_callHook _ _).trans ih)
          | takeLoops => rfl
          | _ => exact ih

theorem unjoined_closeAfter (loops : List Loop) (c : Connection) :
    (c.closeAfter loops).1.unjoined = c.unjoined := by
  rw [closeAfter]
  split <;> rfl

/-- A close that is carried out on a loop takes no loops. -/
theorem unjoined_proceedClose (now : Nat) (wait : CloseWait) (c : Connection) :
    (c.proceedClose true now wait).1.unjoined = c.unjoined := by
  cases wait with
  | joining loops => exact unjoined_closeAfter loops c
  | draining deadline wake =>
      rw [proceedClose]
      split <;> rfl

theorem unjoined_inboundStep (takes : c.TakesPackets) (step : c.inboundStep now = some d) :
    d.unjoined = c.unjoined := by
  cases closer : c.inbound.closer? with
  | none =>
      have begins := begins_inboundStep takes step closer
      generalize d.inbound.closer? = left at begins
      cases begins with
      | calm _ unjoined => exact unjoined
      | close _ _ unjoined => exact unjoined
  | some held =>
      obtain ⟨shown, place⟩ := Inbound.exists_of_closer? closer
      have kept := unjoined_proceedClose now held c
      simp only [inboundStep, place] at step
      split at step
      · generalize c.proceedClose true now held = result at step kept
        obtain ⟨e, _ | left⟩ := result
        · cases step
          cases shown with
          | none => exact kept
          | some packet => exact (unjoined_showControl packet e).trans kept
        · cases step
          exact kept
      · cases step

theorem unjoined_outboundStep (step : c.outboundStep now = some d) : d.unjoined = c.unjoined := by
  by_cases shutting : ∃ deadline, c.outbound = .shutting deadline
  · obtain ⟨deadline, place⟩ := shutting
    obtain ⟨_, _, _, rfl, -⟩ := outboundStep_of_shutting place step
    rfl
  · cases halts_outboundStep (fun deadline place => shutting ⟨deadline, place⟩) step with
    | goesOn _ _ unjoined => exact unjoined
    | halts _ unjoined => exact unjoined

theorem Chat.unjoined_eq {packets : List Packet} {entries : List Entry}
    (chat : Chat c d packets entries) : d.unjoined = c.unjoined := by
  rw [chat.eq]

/-- A connection that goes on without a task takes no loops. -/
theorem Alone.unjoined_eq (alone : Alone now c d) (takes : c.TakesPackets) :
    d.unjoined = c.unjoined := by
  cases alone with
  | inbound step => exact unjoined_inboundStep takes step
  | outbound step => exact unjoined_outboundStep step
  | call call =>
      cases call with
      | send packet =>
          obtain ⟨_, _, chat⟩ := chat_send packet c
          exact chat.unjoined_eq
      | handshake kind =>
          obtain ⟨_, _, chat⟩ := chat_sendHandshake kind c
          exact chat.unjoined_eq
      | register type =>
          simp only [Call.act, register]
          split <;> rfl

/-- A call that waits for the send queue has taken no loops yet. -/
theorem unjoined_of_draining (takes : c.TakesPackets) {deadline wake : Nat}
    (step : World.errandStep now c errand wait = some (d, some (.draining deadline wake))) :
    d.unjoined = c.unjoined ∧ ∀ loops, wait ≠ some (.joining loops) := by
  have joins {loops : List Loop} {b : Connection}
      (goesOn : b.closeAfter loops = (d, some (.draining deadline wake))) : False := by
    rw [closeAfter] at goesOn
    split at goesOn <;> cases goesOn
  cases errand with
  | join i =>
      exfalso
      cases wait with
      | none =>
          simp only [World.errandStep] at step
          split at step <;> cases step
      | some held =>
          cases held with
          | draining =>
              simp only [World.errandStep] at step
              split at step <;> cases step
          | joining loops =>
              simp only [World.errandStep] at step
              split at step
              · split at step <;> cases step
              · cases step
  | close i =>
      cases wait with
      | none =>
          refine ⟨?_, by simp⟩
          have begins := begins_close takes false now closedLocally true
          rw [Option.some.inj step] at begins
          cases begins with
          | close _ _ unjoined => exact unjoined
      | some held =>
          simp only [World.errandStep] at step
          split at step
          · have goesOn := Option.some.inj step
            cases held with
            | joining loops => exact (joins goesOn).elim
            | draining deadline' wake' =>
                refine ⟨?_, by simp⟩
                simp only [proceedClose, Bool.false_eq_true, if_false, takeLoops] at goesOn
                split at goesOn
                · exact (joins goesOn).elim
                · cases goesOn
                  rfl
          · cases step

/-- Where a call leaves the loops taken, it waits for them itself, or they have finished, or they
were taken before and it was not the call that waited for them. -/
theorem taken_of_errandStep (keeps : c.KeepsLoops) (takes : c.TakesPackets)
    (before : ∀ held ∈ wait, c.Awaits errand held)
    (step : World.errandStep now c errand wait = some (d, left)) (taken : d.unjoined = []) :
    (∃ loops, left = some (.joining loops)) ∨ (∀ loop, c.hasFinished loop = true) ∨
      (c.unjoined = [] ∧ ∀ loops, wait ≠ some (.joining loops)) := by
  obtain ⟨-, finished⟩ := awaits_errandStep keeps before step
  cases left with
  | some held =>
      cases held with
      | joining loops => exact .inl ⟨loops, rfl⟩
      | draining =>
          obtain ⟨unjoined, other⟩ := unjoined_of_draining takes step
          exact .inr (.inr ⟨unjoined ▸ taken, other⟩)
  | none =>
      by_cases holds : c.HoldsLoops errand wait
      · exact .inr (.inl (finished holds rfl))
      · refine .inr (.inr ?_)
        cases wait with
        | some held =>
            cases held with
            | joining => exact absurd trivial holds
            | draining =>
                refine ⟨?_, by simp⟩
                cases errand <;> exact Classical.not_not.mp holds
        | none =>
            refine ⟨?_, by simp⟩
            cases errand with
            | join => exact Classical.not_not.mp holds
            | close i =>
                by_contra free
                have inactive : ¬c.isActive = true := fun active => holds ⟨active, free⟩
                simp only [World.errandStep, close, if_neg inactive] at step
                cases step
                exact free taken

end Connection

namespace World

open Connection

variable {w w' : World} {t i : Nat} {c d e : Connection} {job : Job} {task : Task}
  {before left : Option (Errand × CloseWait)}

/-- A task that waits for the loops of a connection, because of this errand. -/
def AwaitsLoops (w : World) (i t : Nat) : Prop :=
  ∃ task errand loops, w.tasks[t]? = some task ∧ task.held? = some (errand, .joining loops) ∧
    errand.conn = i

/-- Every task that waits knows what it has to, and loops that were taken have finished or are
waited for. -/
structure Minded (w : World) : Prop where
  knows : ∀ (t : Nat) (task : Task), w.tasks[t]? = some task → ∀ errand wait,
    task.held? = some (errand, wait) →
    ∃ c, w.conns[errand.conn]? = some c ∧ c.Awaits errand wait
  taken : ∀ (i : Nat) (c : Connection), w.conns[i]? = some c → c.unjoined = [] →
    (∀ loop, c.hasFinished loop = true) ∨ ∃ t, w.AwaitsLoops i t

theorem minded_empty (queues : Nat) (wires : List (Nat × Nat)) :
    Minded { empty queues with wires } where
  knows := by
    intro t task place
    cases place
  taken := by
    intro i c here
    cases here

theorem held?_of_isFresh (fresh : task.IsFresh) : task.held? = none := by
  cases fresh with
  | errands todo => exact held?_errands_none todo
  | collect | process => rfl

/-- What a stretch is for the waits of a task that held one errand and holds another then. -/
structure Minds (w : World) (before : Option (Errand × CloseWait)) (w' : World)
    (left : Option (Errand × CloseWait)) : Prop where
  knows : ∀ errand wait, left = some (errand, wait) →
    ∃ c, w'.conns[errand.conn]? = some c ∧ c.Awaits errand wait
  taken : ∀ (i : Nat) (c e : Connection), w.conns[i]? = some c → w'.conns[i]? = some e →
    e.unjoined = [] → (∀ loop, e.hasFinished loop = true) ∨
      (∃ errand loops, left = some (errand, .joining loops) ∧ errand.conn = i) ∨
      (c.unjoined = [] ∧ ∀ errand loops, before = some (errand, .joining loops) → errand.conn ≠ i)

/-- A task acted on the connection of an errand. -/
theorem minds_put (errand : Errand) (wait : Option CloseWait) {after : Option CloseWait}
    (here : w.conns[errand.conn]? = some c) (suffix : c.journal <:+ d.journal) (lasts : Lasts c d)
    (awaits : ∀ held ∈ after, d.Awaits errand held)
    (taken : d.unjoined = [] → (∃ loops, after = some (.joining loops)) ∨
      (∀ loop, c.hasFinished loop = true) ∨
      (c.unjoined = [] ∧ ∀ loops, wait ≠ some (.joining loops))) :
    Minds w (wait.map (errand, ·)) (w.put errand.conn c d) (after.map (errand, ·)) where
  knows := by
    intro errand' held left
    obtain ⟨held, rfl, same⟩ := Option.map_eq_some_iff.mp left
    cases same
    obtain ⟨e, there, tended⟩ := exists_tended here suffix
    exact ⟨e, there, (awaits held rfl).lasts (.of_tended tended)⟩
  taken := by
    intro i b e place there gone
    obtain ⟨e', there', tended⟩ := exists_of_put here suffix place
    obtain rfl : e' = e := Option.some.inj (there'.symm.trans there)
    obtain ⟨source, sink, eq⟩ := tended.eq
    have unjoined := congrArg Connection.unjoined eq
    by_cases mine : i = errand.conn
    · subst mine
      obtain rfl : c = b := Option.some.inj (here.symm.trans place)
      rw [if_pos rfl] at unjoined tended
      rcases taken (unjoined ▸ gone) with ⟨loops, rfl⟩ | finished | ⟨none, other⟩
      · exact .inr (.inl ⟨errand, loops, rfl, rfl⟩)
      · exact .inl fun loop => Lasts.of_tended tended loop (lasts loop (finished loop))
      · refine .inr (.inr ⟨none, fun errand' loops held => ?_⟩)
        obtain ⟨_, waits, same⟩ := Option.map_eq_some_iff.mp held
        cases same
        exact absurd waits (other loops)
    · rw [if_neg mine] at unjoined
      refine .inr (.inr ⟨unjoined ▸ gone, fun errand' loops held => ?_⟩)
      obtain ⟨_, -, same⟩ := Option.map_eq_some_iff.mp held
      cases same
      exact Ne.symm mine

/-- One stretch of any task. -/
theorem Works.minds (works : Works w before w' left) (reached : w.Reachable)
    (knows : ∀ errand wait, before = some (errand, wait) →
      ∃ c, w.conns[errand.conn]? = some c ∧ c.Awaits errand wait) : Minds w before w' left := by
  have stepped (errand : Errand) (wait : Option CloseWait) {after : Option CloseWait}
      {c d : Connection}
      (here : w.conns[errand.conn]? = some c) (held : before = wait.map (errand, ·))
      (step : errandStep w.now c errand wait = some (d, after)) :
      c.journal <:+ d.journal ∧ Lasts c d ∧ (∀ held ∈ after, d.Awaits errand held) ∧
        (d.unjoined = [] → (∃ loops, after = some (.joining loops)) ∨
          (∀ loop, c.hasFinished loop = true) ∨
          (c.unjoined = [] ∧ ∀ loops, wait ≠ some (.joining loops))) := by
    have machinery := machinery_errandStep step
    have keeps := (reached.valid.conns _ c here).keepsLoops
    have known (waits : CloseWait) (same : waits ∈ wait) : c.Awaits errand waits := by
      obtain rfl : wait = some waits := same
      obtain ⟨c', there, awaits⟩ := knows errand waits held
      rwa [Option.some.inj (here.symm.trans there)]
    exact ⟨(passive_errandStep step).idles.mute.suffix,
      .of_eq (congrArg Machinery.inbound machinery) (congrArg Machinery.outbound machinery),
      (awaits_errandStep keeps known step).1,
      taken_of_errandStep keeps (reached.takesPackets here) known step⟩
  cases works with
  | idle free =>
      refine ⟨fun _ _ none => (by cases none), fun i c e here there gone => ?_⟩
      obtain rfl : c = e := Option.some.inj (here.symm.trans there)
      exact .inr (.inr ⟨gone, by simp [free]⟩)
  | @begins k i f c d after free here moves inbound begins =>
      subst free
      have minds : Minds (w.modifyQueue k f) none _ (after.map (.close i, ·)) :=
        minds_put (.close i) none here
          (Connection.Later.of_changes moves.changes).journal (.of_moves moves inbound) ?_ ?_
      · exact ⟨minds.knows, minds.taken⟩
      · cases begins with
        | calm =>
            intro held none
            cases none
        | close =>
            rintro _ ⟨⟩
            exact .draining i _ _
      · intro gone
        refine .inr (.inr ⟨?_, by simp⟩)
        cases begins with
        | calm _ unjoined => exact unjoined ▸ gone
        | close _ _ unjoined => exact unjoined ▸ gone
  | @joins i c d after free here step =>
      subst free
      obtain ⟨suffix, lasts, awaits, taken⟩ :=
        stepped (.join i) none here rfl step
      exact minds_put (.join i) none here suffix lasts awaits taken
  | @goesOn errand wait c d after held here proceeds =>
      obtain ⟨d', step, shown⟩ := proceeds
      subst held
      obtain ⟨suffix, lasts, awaits, taken⟩ := stepped errand (some wait) here rfl step
      rcases shown with rfl | ⟨rfl, packet, rfl⟩
      · exact minds_put errand (some wait) here suffix lasts awaits taken
      · have machinery := machinery_showControl packet d'
        refine minds_put errand (some wait) here (suffix.trans ?_) (lasts.trans ?_)
          (fun held none => (by cases none)) fun gone => ?_
        · exact suffix_showControl packet d'
        · exact .of_eq (congrArg Machinery.inbound machinery)
            (congrArg Machinery.outbound machinery)
        · exact taken ((unjoined_showControl packet d').symm.trans gone)

theorem Passes.lasts {ran : Option Nat} (passes : Passes w ran w') (valid : w.Valid)
    (here : w.conns[i]? = some c) : ∃ e, w'.conns[i]? = some e ∧ Lasts c e := by
  obtain ⟨d, e, share, there, tended⟩ := passes.stepsTo valid here
  exact ⟨e, there, (share.lasts (valid.conns _ c here)).trans (.of_tended tended)⟩

theorem AwaitsLoops.of_place (awaits : w.AwaitsLoops i t) (place : w'.tasks[t]? = w.tasks[t]?) :
    w'.AwaitsLoops i t := by
  obtain ⟨task, errand, loops, here, held, same⟩ := awaits
  exact ⟨task, errand, loops, place.trans here, held, same⟩

/-- Tasks go on as they were, and perhaps there are new ones. -/
theorem Minded.beside (minded : w.Minded)
    (lasts : ∀ (i : Nat) (c : Connection), w.conns[i]? = some c →
      ∃ e, w'.conns[i]? = some e ∧ Lasts c e)
    {new : List Task} (tasks : w'.tasks = w.tasks ++ new) (free : ∀ task ∈ new, task.held? = none)
    (taken : ∀ (i : Nat) (e : Connection), w'.conns[i]? = some e → e.unjoined = [] →
      ∃ c, w.conns[i]? = some c ∧ c.unjoined = []) : w'.Minded where
  knows := by
    intro t task place errand wait held
    rw [tasks] at place
    rcases Nat.lt_or_ge t w.tasks.length with old | fresh
    · rw [List.getElem?_append_left old] at place
      obtain ⟨c, here, awaits⟩ := minded.knows t task place errand wait held
      obtain ⟨e, there, lasts⟩ := lasts _ c here
      exact ⟨e, there, awaits.lasts lasts⟩
    · rw [List.getElem?_append_right fresh] at place
      rw [free task (List.mem_of_getElem? place)] at held
      cases held
  taken := by
    intro i e there gone
    obtain ⟨c, here, before⟩ := taken i e there gone
    obtain ⟨e', there', lasts⟩ := lasts i c here
    obtain rfl : e' = e := Option.some.inj (there'.symm.trans there)
    rcases minded.taken i c here before with finished | ⟨t, awaits⟩
    · exact .inl fun loop => lasts loop (finished loop)
    · have old := awaits
      obtain ⟨task, _, _, place, -⟩ := old
      refine .inr ⟨t, awaits.of_place ?_⟩
      rw [tasks, List.getElem?_append_left (List.getElem?_eq_some_iff.mp place).1]

theorem Minded.works (minded : w.Minded) (reached : w.Reachable)
    (running : w.tasks[t]? = some (.running job)) (step : w.jobStep job = some (w', task)) :
    Minded { w' with tasks := w'.tasks.set t task } := by
  have valid := reached.valid
  have passes : Passes w (some t) { w' with tasks := w'.tasks.set t task } := .works running step
  obtain ⟨count, j, tasks⟩ := tasks_of_jobStep valid running step
  have minds := (works_jobStep reached running step).minds reached fun errand wait held =>
    minded.knows t _ running errand wait held
  have bound : t < w'.tasks.length := by
    rw [tasks, List.length_append]
    exact Nat.lt_add_right _ (List.getElem?_eq_some_iff.mp running).1
  -- tasks other than this one are those that were there before, and closes that did not begin
  have other {k : Nat} (ne : t ≠ k) : (w'.tasks.set t task)[k]? =
      (w.tasks ++ List.replicate count (.close j))[k]? := by
    rw [List.getElem?_set_ne ne, tasks]
  constructor
  · intro k found place errand wait held
    by_cases same : t = k
    · subst same
      rw [List.getElem?_set_self bound] at place
      cases place
      exact minds.knows errand wait held
    · rw [other same] at place
      rcases List.mem_append.mp (List.mem_of_getElem? place) with old | fresh
      · obtain ⟨k', place'⟩ := List.getElem?_of_mem old
        obtain ⟨c, here, awaits⟩ := minded.knows k' _ place' errand wait held
        obtain ⟨e, there, lasts⟩ := passes.lasts valid here
        exact ⟨e, there, awaits.lasts lasts⟩
      · rw [List.eq_of_mem_replicate fresh] at held
        cases held
  · intro i e there gone
    have length : w'.conns.length = w.conns.length := by
      cases stretch_jobStep valid.booked (valid.booked.taken _ (List.mem_of_getElem? running))
        step with
      | quiet => rfl
      | @acts q f k b d =>
          obtain ⟨conns, _, _, eq, tended, -⟩ := put_eq k b d (w.modifyQueue q f)
          rw [eq]
          exact tended.1.trans (List.length_set ..)
    have present : i < w.conns.length := length ▸ (List.getElem?_eq_some_iff.mp there).1
    obtain ⟨c, here⟩ : ∃ c, w.conns[i]? = some c := ⟨_, List.getElem?_eq_getElem present⟩
    obtain ⟨e', there', lasts⟩ := passes.lasts valid here
    obtain rfl : e' = e := Option.some.inj (there'.symm.trans there)
    rcases minds.taken i c e' here there gone with finished | ⟨errand, loops, held, same⟩ |
      ⟨before, free⟩
    · exact .inl finished
    · exact .inr ⟨t, task, errand, loops, List.getElem?_set_self bound, held, same⟩
    · rcases minded.taken i c here before with finished | ⟨k, awaits⟩
      · exact .inl fun loop => lasts loop (finished loop)
      · have old := awaits
        obtain ⟨held, errand, loops, place, waits, mine⟩ := old
        have ne : t ≠ k := by
          rintro rfl
          obtain rfl : Task.running job = held := Option.some.inj (running.symm.trans place)
          exact free errand loops waits mine
        refine .inr ⟨k, awaits.of_place ((other ne).trans ?_)⟩
        rw [List.getElem?_append_left (List.getElem?_eq_some_iff.mp place).1]

theorem Minded.passes {ran : Option Nat} (minded : w.Minded) (reached : w.Reachable)
    (passes : Passes w ran w') : w'.Minded := by
  have valid := reached.valid
  have lasts (i : Nat) (c : Connection) (here : w.conns[i]? = some c) :
      ∃ e, w'.conns[i]? = some e ∧ Lasts c e := passes.lasts valid here
  cases passes with
  | idle | announces =>
      exact minded.beside lasts (List.append_nil _).symm (fun _ none => by cases none)
        fun i e there gone => ⟨e, there, gone⟩
  | begins fresh =>
      refine minded.beside lasts rfl (fun task member => ?_) fun i e there gone => ⟨e, there, gone⟩
      rw [List.mem_singleton.mp member]
      exact held?_of_isFresh fresh
  | tended tended =>
      refine minded.beside lasts (List.append_nil _).symm (fun _ none => by cases none)
        fun i e there gone => ?_
      obtain ⟨c, here, kept⟩ := tended.2 i e there
      obtain ⟨source, sink, rfl⟩ := kept.eq
      exact ⟨c, here, gone⟩
  | @starts setup opening given =>
      have same : (w.start setup).tasks = w.tasks ++ [] := by
        rw [World.start, queues_modifyQueueOf, List.append_nil]
      refine minded.beside lasts same (fun _ none => by cases none) fun i e there gone => ?_
      rw [conns_start] at there
      rcases Nat.lt_or_ge i w.conns.length with old | new
      · rw [List.getElem?_append_left old] at there
        exact ⟨e, there, gone⟩
      · rw [List.getElem?_append_right new] at there
        rw [List.mem_singleton.mp (List.mem_of_getElem? there)] at gone
        cases gone
  | @alone j b d here alone =>
      have put := put_spec (w := w) (i := j)
        (Connection.Later.of_changes (alone.changes (valid.conns j b here))).journal
      obtain ⟨count, tasks⟩ := put.tasks
      refine minded.beside lasts tasks (fun task member => ?_) fun i e there gone => ?_
      · rw [List.eq_of_mem_replicate member]
        rfl
      · obtain ⟨c, place, kept⟩ := put.conns.2 i e there
        obtain ⟨source, sink, rfl⟩ := kept.eq
        by_cases mine : j = i
        · subst mine
          rw [List.getElem?_set_self (List.getElem?_eq_some_iff.mp here).1] at place
          cases place
          exact ⟨b, here, (alone.unjoined_eq (reached.takesPackets here)).symm.trans gone⟩
        · rw [List.getElem?_set_ne mine] at place
          exact ⟨c, place, gone⟩
  | works running step => exact minded.works reached running step

end World

end PacketWire
