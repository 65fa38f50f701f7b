import Mathlib.Data.List.TakeWhile
import PacketWire.Proofs.ConnectionStep

/-!
# Waiting for the loops

The two loops of a connection are waited for by whoever takes them first: a join, or a close at its
end. That call returns only when both have finished. Any other finds nothing to wait for and
returns at once, whatever the loops do by then; `idleJoin` is such a run.
-/

namespace PacketWire

namespace Connection

/-- Loops that have finished stay so. -/
def Lasts (c d : Connection) : Prop :=
  ∀ loop, c.hasFinished loop = true → d.hasFinished loop = true

/-- What a call that waits knows: a close for the send queue knows nothing yet, and whoever waits
for loops does so for all that have not finished. -/
inductive Awaits (c : Connection) : Errand → CloseWait → Prop
  | draining (i deadline wake : Nat) : Awaits c (.close i) (.draining deadline wake)
  | joining {errand : Errand} {loops : List Loop} :
      (∀ loop, loop ∉ loops → c.hasFinished loop = true) → Awaits c errand (.joining loops)

/-- The call waits for the loops, or will take them since nobody else did. A close does so only if
it is the one that made the connection leave `active`, or does so now. -/
def HoldsLoops (c : Connection) : Errand → Option CloseWait → Prop
  | _, some (.joining _) => True
  | .close _, none => c.isActive = true ∧ c.unjoined ≠ []
  | .close _, some (.draining ..) => c.unjoined ≠ []
  | .join _, none => c.unjoined ≠ []
  | .join _, some (.draining ..) => c.unjoined ≠ []

variable {c d e : Connection} {now : Nat} {loops : List Loop} {errand : Errand}
  {wait left : Option CloseWait}

theorem hasFinished_eq (inbound : d.inbound = c.inbound) (outbound : d.outbound = c.outbound)
    (loop : Loop) : d.hasFinished loop = c.hasFinished loop := by
  cases loop with
  | inbound => simp only [hasFinished, inbound]
  | outbound => simp only [hasFinished, outbound]

theorem Lasts.of_eq (inbound : d.inbound = c.inbound) (outbound : d.outbound = c.outbound) :
    Lasts c d :=
  fun loop finished => (hasFinished_eq inbound outbound loop).trans finished

theorem Lasts.of_moves (moves : Moves c d) (inbound : d.inbound = c.inbound) : Lasts c d :=
  .of_eq inbound (Sends.of_moves moves).outbound

theorem Lasts.of_tended (tended : Tended c d) : Lasts c d := by
  obtain ⟨source, sink, rfl⟩ := tended.eq
  exact .of_eq rfl rfl

theorem Lasts.trans (first : Lasts c d) (second : Lasts d e) : Lasts c e :=
  fun loop finished => second loop (first loop finished)

theorem eq_finished_of_inbound (finished : c.hasFinished .inbound = true) :
    c.inbound = .finished := by
  rw [hasFinished] at finished
  split at finished
  · assumption
  · cases finished

theorem eq_finished_of_outbound (finished : c.hasFinished .outbound = true) :
    c.outbound = .finished := by
  rw [hasFinished] at finished
  split at finished
  · assumption
  · cases finished

theorem Alone.lasts {closers : List CloseWait} (valid : c.Valid closers)
    (alone : Alone now c d) : Lasts c d := by
  intro loop finished
  cases alone with
  | inbound step =>
      cases loop with
      | inbound =>
          rw [inboundStep, eq_finished_of_inbound finished] at step
          cases step
      | outbound =>
          have outbound := (Sends.of_moves (valid.moves_inboundStep step)).outbound
          simpa only [hasFinished, outbound] using finished
  | outbound step =>
      cases loop with
      | inbound => simpa only [hasFinished, (onward_outboundStep step).inbound] using finished
      | outbound =>
          rw [outboundStep, eq_finished_of_outbound finished] at step
          cases step
  | call call =>
      have unheld : c.Valid (closers ++ (none : Option CloseWait).toList ++ []) := by
        simpa using valid
      have acts := World.acts_call c call
      exact Lasts.of_moves (unheld.moves_of_acts acts) acts.inbound_eq loop finished

theorem StepsTo.lasts {closers : List CloseWait} (valid : c.Valid closers)
    (share : StepsTo now c d) : Lasts c d := by
  cases share with
  | rests => exact fun _ finished => finished
  | alone alone => exact alone.lasts valid
  | acted moves inbound => exact .of_moves moves inbound

theorem Awaits.lasts {held : CloseWait} (h : c.Awaits errand held) (lasts : Lasts c d) :
    d.Awaits errand held := by
  cases h with
  | draining => exact .draining _ _ _
  | joining rest => exact .joining fun loop free => lasts loop (rest loop free)

/-- Of loops that are waited for, those that need not be any more have finished. -/
theorem hasFinished_of_stillRunning (rest : ∀ loop, loop ∉ loops → c.hasFinished loop = true)
    {loop : Loop} (free : loop ∉ c.stillRunning loops) : c.hasFinished loop = true := by
  by_cases waited : loop ∈ loops
  · rw [← List.takeWhile_append_dropWhile (p := c.hasFinished) (l := loops)] at waited
    rcases List.mem_append.mp waited with before | after
    · exact List.mem_takeWhile_imp before
    · exact absurd after free
  · exact rest loop waited

/-- What a call that goes on leaves, if it did what it does with the loops in hand. -/
structure Rejoins (c d : Connection) (errand : Errand) (left : Option CloseWait) : Prop where
  awaits : ∀ wait ∈ left, d.Awaits errand wait
  finished : left = none → ∀ loop, c.hasFinished loop = true

theorem rejoins_closeAfter (rest : ∀ loop, loop ∉ loops → c.hasFinished loop = true)
    (eq : c.closeAfter loops = (d, left)) : Rejoins c d errand left := by
  have known {loop : Loop} (free : loop ∉ c.stillRunning loops) : c.hasFinished loop = true :=
    hasFinished_of_stillRunning rest free
  rw [closeAfter] at eq
  split at eq
  · rename_i none
    cases eq
    exact ⟨fun _ member => (by cases member), fun _ loop => known (by simp [none])⟩
  · cases eq
    refine ⟨?_, fun impossible => by cases impossible⟩
    rintro _ ⟨⟩
    exact .joining fun loop => known

/-- Both loops are taken together. -/
theorem mem_unjoined (keeps : c.KeepsLoops) (free : c.unjoined ≠ []) (loop : Loop) :
    loop ∈ c.unjoined := by
  rcases keeps with both | none
  · rw [both]
    cases loop <;> decide
  · exact absurd none free

theorem awaits_proceedClose (keeps : c.KeepsLoops) {held : CloseWait} {i : Nat}
    (before : c.Awaits (.close i) held) (eq : c.proceedClose false now held = (d, left)) :
    (∀ wait ∈ left, d.Awaits (.close i) wait) ∧
      (c.HoldsLoops (.close i) (some held) → left = none → ∀ loop, c.hasFinished loop = true) := by
  cases before with
  | joining rest =>
      have rejoins : Rejoins c d (.close i) left := rejoins_closeAfter rest eq
      exact ⟨rejoins.awaits, fun _ => rejoins.finished⟩
  | draining _ deadline wake =>
      simp only [proceedClose, Bool.false_eq_true, if_false, takeLoops] at eq
      split at eq
      · by_cases none : c.unjoined = []
        · rw [none] at eq
          cases eq
          exact ⟨fun _ member => (by cases member), fun free => absurd none free⟩
        · have rejoins : Rejoins _ d (.close i) left := rejoins_closeAfter
            (fun loop absent => absurd (mem_unjoined keeps none loop) absent) eq
          exact ⟨rejoins.awaits, fun _ => rejoins.finished⟩
      · cases eq
        refine ⟨?_, fun _ impossible => by cases impossible⟩
        rintro _ ⟨⟩
        exact .draining _ _ _

theorem awaits_close (keeps : c.KeepsLoops) {message : String} {expected : Bool} {i : Nat}
    (eq : c.close false now message expected = (d, left)) :
    (∀ wait ∈ left, d.Awaits (.close i) wait) ∧
      (c.HoldsLoops (.close i) none → left = none → ∀ loop, c.hasFinished loop = true) := by
  have unjoined := unjoined_startClosing message expected c
  have machinery := machinery_startClosing message expected c
  rw [close] at eq
  split at eq
  · obtain ⟨awaits, finished⟩ := awaits_proceedClose (i := i)
      (keeps.of_eq unjoined) (.draining i _ _) eq
    refine ⟨awaits, fun free none loop => ?_⟩
    rw [← hasFinished_eq (congrArg Machinery.inbound machinery)
      (congrArg Machinery.outbound machinery)]
    exact finished (by rw [HoldsLoops, unjoined]; exact free.2) none loop
  · rename_i inactive
    cases eq
    exact ⟨fun _ member => (by cases member), fun free => absurd free.1 inactive⟩

/-- One stretch of a call: whoever waits afterwards waits for all loops that have not finished,
and a call that returns with the loops in hand does so when both have. -/
theorem awaits_errandStep (keeps : c.KeepsLoops) (before : ∀ held ∈ wait, c.Awaits errand held)
    (step : World.errandStep now c errand wait = some (d, left)) :
    (∀ held ∈ left, d.Awaits errand held) ∧
      (c.HoldsLoops errand wait → left = none → ∀ loop, c.hasFinished loop = true) := by
  cases errand with
  | close i =>
      cases wait with
      | none => exact awaits_close keeps (Option.some.inj step)
      | some held =>
          simp only [World.errandStep] at step
          split at step
          · exact awaits_proceedClose keeps (before held rfl) (Option.some.inj step)
          · cases step
  | join i =>
      cases wait with
      | none =>
          have known {loop : Loop} (free : c.unjoined ≠ [])
              (absent : loop ∉ c.stillRunning c.unjoined) : c.hasFinished loop = true :=
            hasFinished_of_stillRunning
              (fun loop absent => absurd (mem_unjoined keeps free loop) absent) absent
          simp only [World.errandStep, takeLoops] at step
          split at step
          · rename_i nobody
            cases step
            refine ⟨fun _ member => (by cases member), fun free _ loop => known free ?_⟩
            rw [show c.stillRunning c.unjoined = [] from nobody]
            exact List.not_mem_nil
          · rename_i some
            cases step
            refine ⟨?_, fun _ impossible => by cases impossible⟩
            rintro _ ⟨⟩
            refine .joining fun loop absent => known ?_ absent
            rintro none
            exact some (by rw [stillRunning, none]; rfl)
      | some held =>
          cases before held rfl with
          | joining rest =>
              have known {loop : Loop} (free : loop ∉ c.stillRunning _) :
                  c.hasFinished loop = true := hasFinished_of_stillRunning rest free
              simp only [World.errandStep] at step
              split at step
              · split at step
                · rename_i none
                  cases step
                  exact ⟨fun _ member => (by cases member), fun _ _ loop => known (by simp [none])⟩
                · cases step
                  refine ⟨?_, fun _ impossible => by cases impossible⟩
                  rintro _ ⟨⟩
                  exact .joining fun loop => known
              · cases step

end Connection

/-- The errand that a task is at, and what it waits for there. -/
def Task.errand? : Task → Option (Errand × CloseWait)
  | .running (.errands (errand :: _) (some wait)) => some (errand, wait)
  | _ => none

namespace World

open Connection

variable {w w' : World} {task : Task}

/-- Every call that waits knows what it has to. -/
def Joined (w : World) : Prop :=
  ∀ task ∈ w.tasks, ∀ errand wait, task.errand? = some (errand, wait) →
    ∃ c, w.conns[errand.conn]? = some c ∧ c.Awaits errand wait

theorem errand?_of_isFresh (fresh : task.IsFresh) : task.errand? = none := by
  cases fresh with
  | errands todo => cases todo <;> rfl
  | collect | process => rfl

theorem errand?_lookForWork (w : World) (k : Nat) (resident : Bool) (q : WorkQueue) :
    (w.lookForWork k resident q).2.errand? = none := by
  rw [lookForWork]
  split
  · rfl
  · split
    · split <;> rfl
    · rfl

theorem errand?_collectStep {i : Nat} {progress : Collecting}
    (step : w.collectStep i progress = some (w', task)) : task.errand? = none := by
  cases progress with
  | starting =>
      simp only [collectStep] at step
      split at step <;> cases step <;> rfl
  | dispatching todo got =>
      cases todo with
      | nil =>
          cases step
          rfl
      | cons unit todo =>
          simp only [collectStep] at step
          split at step <;> cases step <;> rfl
  | suspended s todo got =>
      simp only [collectStep] at step
      split at step <;> cases step <;> rfl

theorem errand?_processStep {k : Nat} {q : WorkQueue} {resident : Bool} {progress : Processing}
    (step : w.processStep k resident q progress = some (w', task)) : task.errand? = none := by
  cases progress with
  | claiming =>
      simp only [processStep] at step
      split at step <;> cases step <;> rfl
  | looking =>
      simp only [processStep, Option.some.injEq] at step
      have none := errand?_lookForWork w k resident q
      rwa [step] at none
  | waiting =>
      simp only [processStep] at step
      split at step
      · simp only [Option.some.injEq] at step
        have none := errand?_lookForWork (w.modifyQueue k ({ · with signalled := false })) k
          resident { q with signalled := false }
        rwa [step] at none
      · cases step
  | suspended s =>
      obtain ⟨_, _, same⟩ := Option.map_eq_some_iff.mp step
      cases same
      rfl
  | awaitingPeer =>
      simp only [processStep] at step
      split at step <;> cases step
      rfl

/-- What a task waits for after a stretch of errands. -/
theorem joined_errandsStep (valid : w.Valid) (joined : w.Joined) {k : Nat} {todo : List Errand}
    {wait : Option CloseWait} (running : w.tasks[k]? = some (.running (.errands todo wait)))
    (step : w.errandsStep wait todo = some (w', task)) {errand : Errand} {held : CloseWait}
    (waits : task.errand? = some (errand, held)) :
    ∃ c, w'.conns[errand.conn]? = some c ∧ c.Awaits errand held := by
  cases todo with
  | nil =>
      cases step
      cases waits
  | cons first todo =>
      simp only [errandsStep] at step
      split at step
      · cases step
        cases todo <;> cases waits
      · rename_i c here
        split at step
        · cases step
        · rename_i d left stepped
          cases step
          obtain ⟨rfl, rfl⟩ : first = errand ∧ left = held := by
            simpa [Task.errand?] using waits
          have before (held : CloseWait) (same : held ∈ wait) : c.Awaits first held := by
            obtain rfl : wait = some held := same
            obtain ⟨c', there, awaits⟩ := joined _ (List.mem_of_getElem? running) first held rfl
            rwa [Option.some.inj (here.symm.trans there)]
          obtain ⟨awaits, -⟩ := awaits_errandStep (valid.conns _ c here).keepsLoops before stepped
          have acts := acts_errandStep stepped
          rw [← closing?_errands first.conn first todo] at acts
          have suffix := (Connection.Later.of_changes
            (moves_of_acts valid running here acts).changes).journal
          obtain ⟨e, there, tended⟩ := exists_tended here suffix
          exact ⟨e, there, (awaits left rfl).lasts (.of_tended tended)⟩
        · split at step <;> cases step
          · cases waits
          · cases todo <;> cases waits

theorem Joined.passes {ran : Option Nat} (joined : w.Joined) (valid : w.Valid)
    (passes : Passes w ran w') :
    w'.Joined := by
  have kept {errand : Errand} {wait : CloseWait}
      (before : ∃ c, w.conns[errand.conn]? = some c ∧ c.Awaits errand wait) :
      ∃ c, w'.conns[errand.conn]? = some c ∧ c.Awaits errand wait := by
    obtain ⟨c, here, awaits⟩ := before
    obtain ⟨d, e, share, there, tended⟩ := passes.stepsTo valid here
    have lasts := (share.lasts (valid.conns _ c here)).trans (.of_tended tended)
    exact ⟨e, there, awaits.lasts lasts⟩
  intro task member errand wait waits
  have old (before : task ∈ w.tasks) : ∃ c, w'.conns[errand.conn]? = some c ∧
      c.Awaits errand wait := kept (joined task before errand wait waits)
  cases passes with
  | idle | announces | tended => exact old member
  | starts =>
      rw [World.start, queues_modifyQueueOf] at member
      exact old member
  | @alone i c d here alone =>
      have later := Connection.Later.of_changes (alone.changes (valid.conns i c here))
      obtain ⟨count, tasks⟩ := (put_spec (w := w) (i := i) later.journal).tasks
      rw [tasks] at member
      rcases List.mem_append.mp member with before | closes
      · exact old before
      · rw [List.eq_of_mem_replicate closes] at waits
        cases waits
  | begins fresh =>
      rcases List.mem_append.mp member with before | new
      · exact old before
      · rw [List.mem_singleton.mp new, errand?_of_isFresh fresh] at waits
        cases waits
  | @works k job w'' task' running step =>
      obtain ⟨count, i, tasks⟩ := tasks_of_jobStep valid running step
      rcases List.mem_or_eq_of_mem_set member with before | rfl
      · rw [tasks] at before
        rcases List.mem_append.mp before with before | closes
        · exact old before
        · rw [List.eq_of_mem_replicate closes] at waits
          cases waits
      · cases job with
        | errands todo wait => exact joined_errandsStep valid joined running step waits
        | collect i progress =>
            rw [errand?_collectStep step] at waits
            cases waits
        | process k resident progress =>
            simp only [jobStep] at step
            split at step
            · cases step
              cases waits
            · rw [errand?_processStep step] at waits
              cases waits

theorem Joined.abort (joined : w.Joined) (k : Nat) : (w.abort k).Joined := by
  obtain ⟨queues, tasks, eq, given⟩ := abort_eq k w
  rw [eq]
  intro task member errand wait waits
  rcases given task member with old | rfl
  · exact joined task old errand wait waits
  · cases waits

theorem Reachable.joined (h : w.Reachable) : w.Joined := by
  induction h with
  | empty queues wires =>
      intro task member
      cases member
  | @perform w h happening ih =>
      cases happening with
      | abort k => exact ih.abort k
      | _ => exact ih.passes h.valid (passes_perform fun k => by simp)

end World

open Connection

variable {w : World} {k : Nat} {c d : Connection}

/-- Joining and closing, in every run. A call that waits for the loops, or is the first to take
them, returns only when both have finished and the outbound loop has let go of the transport. A
join that comes later than that waits for nothing: it returned at once and did nothing. -/
theorem loopsFinished_of_returned (reached : w.Reachable) {errand : Errand} {todo : List Errand}
    {wait : Option CloseWait}
    (running : w.tasks[k]? = some (.running (.errands (errand :: todo) wait)))
    (here : w.conns[errand.conn]? = some c)
    (returned : World.errandStep w.now c errand wait = some (d, none)) :
    (c.HoldsLoops errand wait →
      (∀ loop, c.hasFinished loop = true) ∧ c.sink.released ≠ none) ∧
      (¬ c.HoldsLoops errand wait → ∀ i, errand = .join i → wait = none ∧ d = c) := by
  have valid := reached.valid.conns errand.conn c here
  have before (held : CloseWait) (same : held ∈ wait) : c.Awaits errand held := by
    obtain rfl : wait = some held := same
    obtain ⟨c', there, awaits⟩ :=
      reached.joined _ (List.mem_of_getElem? running) errand held rfl
    rwa [Option.some.inj (here.symm.trans there)]
  obtain ⟨-, finished⟩ := awaits_errandStep valid.keepsLoops before returned
  constructor
  · intro holds
    have both := finished holds rfl
    exact ⟨both, valid.tallied.released (eq_finished_of_outbound (both .outbound))⟩
  · rintro late i rfl
    cases wait with
    | none =>
        have none : c.unjoined = [] := Classical.not_not.mp late
        simp only [World.errandStep, takeLoops, none, stillRunning, List.dropWhile_nil] at returned
        rw [← none] at returned
        exact ⟨rfl, (Prod.mk.inj (Option.some.inj returned)).1.symm⟩
    | some held =>
        cases before held rfl with
        | joining => exact absurd trivial late

/-- A close that waited for the loops, and both have finished. -/
def handedBack : World :=
  (World.empty 0).performAll ([.start .plain, .errands [.close 0], .run (.task 0)] ++
    List.replicate 5 (.run (.outbound 0)) ++ [.pass 10, .run (.task 0), .run (.inbound 0),
    .run (.outbound 0), .run (.outbound 0)])

theorem loopsFinished_handedBack : ∃ c d, handedBack.conns[0]? = some c ∧
    World.errandStep handedBack.now c (.close 0) (some (.joining [.inbound, .outbound])) =
      some (d, none) ∧ d.state = .closed ∧
    (∀ loop, c.hasFinished loop = true) ∧ c.sink.released ≠ none := by
  have reached : handedBack.Reachable := (World.Reachable.empty 0 []).performAll _
  have running : handedBack.tasks[0]? =
      some (.running (.errands [.close 0] (some (.joining [.inbound, .outbound])))) := rfl
  obtain ⟨c, d, here, returned, closed⟩ : ∃ c d, handedBack.conns[0]? = some c ∧
      World.errandStep handedBack.now c (.close 0) (some (.joining [.inbound, .outbound])) =
        some (d, none) ∧ d.state = .closed := ⟨_, _, rfl, rfl, rfl⟩
  obtain ⟨finished, -⟩ := loopsFinished_of_returned reached running here returned
  exact ⟨c, d, here, returned, closed, finished trivial⟩

/-- Two callers join; the second returns while both loops run. -/
def idleJoin : World :=
  (World.empty 0).performAll [.start .plain, .errands [.join 0], .run (.task 0),
    .errands [.join 0], .run (.task 1)]

theorem not_loopsFinished_idleJoin : idleJoin.Reachable ∧
    idleJoin.tasks[1]? = some (.ended (.reached (some .active))) ∧
    ∃ c, idleJoin.conns[0]? = some c ∧ ∀ loop, c.hasFinished loop = false := by
  refine ⟨(World.Reachable.empty 0 []).performAll _, rfl, _, rfl, ?_⟩
  intro loop
  cases loop <;> rfl

end PacketWire
