import PacketWire.Proofs.ConnectionActors

/-!
# What is still read once closing has begun

The inbound loop looks at the state of its connection whenever it is done with a frame, and then it
waits for the next one. So a close that somebody else begins may find it waiting, and that one frame
is handled still, if the loops are not told to end before it is there. Bytes that were read ahead do
not matter: they are looked at frame by frame.
-/

namespace PacketWire

open Connection

namespace Connection

open Entry

variable {c d : Connection} {now i : Nat} {happening : Happening} {closers : List CloseWait}

/-- How many frames the inbound loop may still begin to handle once closing has begun. -/
def framesLeft (c : Connection) : Nat :=
  match c.inbound with
  | .reading => if c.cancelled then 0 else 1
  | _ => 0

/-- No frame was handled between the two that was not left to the inbound loop. -/
def Ebbs (c d : Connection) : Prop :=
  ∃ bodies, d.handledBodies = c.handledBodies ++ bodies ∧
    bodies.length + d.framesLeft ≤ c.framesLeft

theorem Ebbs.of_handled_eq (handled : d.handledBodies = c.handledBodies)
    (fewer : d.framesLeft ≤ c.framesLeft) : Ebbs c d :=
  ⟨[], handled.trans (List.append_nil _).symm, by rwa [List.length_nil, Nat.zero_add]⟩

theorem Ebbs.refl (c : Connection) : Ebbs c c :=
  .of_handled_eq rfl (Nat.le_refl _)

theorem Ebbs.trans {e : Connection} (first : Ebbs c d) (second : Ebbs d e) : Ebbs c e := by
  obtain ⟨bodies, handled, fewer⟩ := first
  obtain ⟨more, handled', fewer'⟩ := second
  refine ⟨bodies ++ more, by rw [handled', handled, List.append_assoc], ?_⟩
  rw [List.length_append]
  omega

/-- A loop that goes on reading has found the connection active. -/
def HasLooked (c : Connection) : Prop :=
  c.inbound = .reading → c.isActive = true

theorem hasLooked_readOn (c : Connection) : c.readOn.HasLooked := by
  intro reading
  cases active : c.isActive with
  | true => exact active
  | false => simp [readOn, active] at reading

theorem hasLooked_stopReading (cause : Error) (c : Connection) :
    (c.stopReading now cause).HasLooked := by
  intro reading
  rw [stopReading] at reading
  split at reading
  · cases reading
  · dsimp only at reading
    split at reading <;> cases reading

theorem hasLooked_afterDispatch (result : Connection × Option (CloseWait × Packet)) :
    (afterDispatch result).HasLooked := by
  obtain ⟨c, _ | ⟨wait, packet⟩⟩ := result
  · exact hasLooked_readOn c
  · intro reading
    cases reading

theorem hasLooked_deliver (event : Event) (c : Connection) : (c.deliver now event).HasLooked := by
  rw [deliver]
  split
  · exact hasLooked_afterDispatch _
  · split
    · exact hasLooked_afterDispatch _
    · exact hasLooked_readOn _

theorem hasLooked_handleBody (body : Bytes) (c : Connection) :
    (c.handleBody now body).HasLooked := by
  rw [handleBody]
  split
  · exact hasLooked_stopReading _ c
  · dsimp only
    split
    · exact hasLooked_deliver _ _
    · split
      · exact hasLooked_deliver _ _
      · split
        · exact hasLooked_stopReading _ _
        · exact hasLooked_readOn _

/-- The inbound loop looks at the state in every stretch but those that only read ahead. -/
theorem hasLooked_inboundStep (step : c.inboundStep now = some d) :
    d.HasLooked ∨ ∃ source readAhead, d = { c with source, readAhead } := by
  have finished (c : Connection) : HasLooked { c with inbound := .finished } := by
    intro reading
    cases reading
  rw [inboundStep] at step
  split at step
  · cases step
    exact .inl (hasLooked_readOn c)
  · split at step
    · cases step
      exact .inl (finished c)
    · split at step
      · cases step
        exact .inl (hasLooked_handleBody _ _)
      · cases step
        exact .inl (hasLooked_stopReading _ c)
      · rw [readAhead?] at step
        split at step
        · cases step
          exact .inr ⟨_, _, rfl⟩
        · split at step <;> cases step <;> exact .inl (hasLooked_stopReading _ c)
  · split at step
    · split at step <;> cases step
      · left
        intro reading
        cases reading
      · exact .inl (finished _)
    · cases step
  · cases step

/-- A loop that is not reading, or is told to end, takes nothing from its input. -/
theorem input_inboundStep (step : c.inboundStep now = some d)
    (elsewhere : c.inbound = .reading → c.cancelled = true) :
    d.source = c.source ∧ d.readAhead = c.readAhead := by
  have same {d : Connection} (machinery : d.machinery = c.machinery) :
      d.source = c.source ∧ d.readAhead = c.readAhead :=
    ⟨congrArg Machinery.source machinery, congrArg Machinery.readAhead machinery⟩
  rw [inboundStep] at step
  split at step
  · cases step
    exact ⟨rfl, rfl⟩
  · rename_i place
    rw [if_pos (elsewhere place)] at step
    cases step
    exact ⟨rfl, rfl⟩
  · rename_i wait shown _
    split at step
    · have input := same (machinery_proceedClose true now wait c)
      split at step
      · rename_i eq
        rw [eq] at input
        cases step
        exact input
      · rename_i d eq
        rw [eq] at input
        cases step
        dsimp only
        split
        · rename_i packet _
          have shown := machinery_showControl packet d
          exact ⟨(congrArg Machinery.source shown).trans input.1,
            (congrArg Machinery.readAhead shown).trans input.2⟩
        · exact input
    · cases step
  · cases step

/-- A loop that was told to end stays so. -/
theorem cancelled_of_moves (moves : Moves c d) (cancelled : c.cancelled = true) :
    d.cancelled = true := by
  have kept {c d : Connection} (standing : d.standing.cancelled = c.standing.cancelled)
      (before : c.cancelled = true) : d.cancelled = true := standing.trans before
  induction moves with
  | refl => exact cancelled
  | tail _ move ih =>
      cases move with
      | chat chat => exact kept (congrArg Standing.cancelled chat.standing_eq) ih
      | hook call => exact kept (congrArg Standing.cancelled (standing_callHook call _)) ih
      | leave message => exact kept (by rw [standing_startClosing]) ih
      | fail cause =>
          refine kept ?_ ih
          rw [standing_startClosing, standing_callHook]
          rfl
      | cancel => rfl
      | _ => exact ih

/-- Where the inbound loop stays at its place, no more frames are left to it. -/
theorem framesLeft_le (place : d.inbound = c.inbound)
    (cancelled : c.cancelled = true → d.cancelled = true) : d.framesLeft ≤ c.framesLeft := by
  simp only [framesLeft, place]
  split
  · cases told : c.cancelled with
    | true => simp [cancelled told]
    | false =>
        simp only [Bool.false_eq_true, if_false]
        split <;> omega
  · exact Nat.le_refl 0

theorem framesLeft_of_hasLooked (looked : c.HasLooked) (inactive : c.isActive = false) :
    c.framesLeft = 0 := by
  cases place : c.inbound with
  | reading =>
      rw [looked place] at inactive
      cases inactive
  | _ => simp only [framesLeft, place]

theorem framesLeft_le_one (c : Connection) : c.framesLeft ≤ 1 := by
  rw [framesLeft]
  split
  · split <;> omega
  · omega

theorem framesLeft_of_cancelled (cancelled : c.cancelled = true) : c.framesLeft = 0 := by
  rw [framesLeft]
  split
  · exact if_pos cancelled
  · rfl

/-- Once closing has begun, a stretch of the inbound loop handles no frame that was not left
to it. -/
theorem ebbs_inboundStep (valid : c.Valid closers) (inactive : c.isActive = false)
    (step : c.inboundStep now = some d) : Ebbs c d := by
  have changes := (valid.moves_inboundStep step).changes
  have still : d.isActive = false := (Later.of_changes changes).isActive_eq_false inactive
  rcases hasLooked_inboundStep step with looked | ⟨source, readAhead, rfl⟩
  · have last := framesLeft_of_hasLooked looked still
    by_cases elsewhere : c.inbound = .reading → c.cancelled = true
    · obtain ⟨source, readAhead⟩ := input_inboundStep step elsewhere
      refine .of_handled_eq (handledBodies_eq valid.coherent changes source readAhead) ?_
      rw [last]
      exact Nat.zero_le _
    · obtain ⟨place, going⟩ := Classical.not_imp.mp elsewhere
      obtain ⟨bodies, _, _, receipt, gains⟩ :=
        (handles_inboundStep step).gains fun _ _ => not_isReceipt_of_isTalk
      have one : c.framesLeft = 1 := by simp [framesLeft, place, going]
      refine ⟨bodies, gains.handled, ?_⟩
      rw [last, one]
      cases receipt <;> simp
  · exact .of_handled_eq rfl (Nat.le_refl _)

/-- However a connection fares whose loops were told to end, they stay so. -/
theorem StepsBy.cancelled (share : StepsBy now i happening c d) (valid : c.Valid closers)
    (cancelled : c.cancelled = true) : d.cancelled = true := by
  cases share with
  | rests => exact cancelled
  | inbound _ step => exact cancelled_of_moves (valid.moves_inboundStep step) cancelled
  | outbound _ step =>
      rcases (onward_outboundStep step).standing with ⟨-, same⟩ | ⟨active, -⟩
      · exact same.trans cancelled
      · cases (valid.orderly.inactive_of_cancelled cancelled).symm.trans active
  | @called call =>
      cases World.acts_call c call with
      | begins outcome => exact cancelled_of_moves outcome.moves cancelled
  | acted _ moves => exact cancelled_of_moves moves cancelled

/-- However a connection fares once closing has begun, no frame is handled that was not left. -/
theorem StepsBy.ebbs (share : StepsBy now i happening c d) (valid : c.Valid closers)
    (inactive : c.isActive = false) : Ebbs c d := by
  have told : c.cancelled = true → d.cancelled = true := share.cancelled valid
  cases share with
  | rests => exact .refl c
  | inbound _ step => exact ebbs_inboundStep valid inactive step
  | outbound _ step =>
      exact .of_handled_eq (handledBodies_outboundStep step)
        (framesLeft_le (onward_outboundStep step).inbound told)
  | @called call =>
      cases World.acts_call c call with
      | begins _ same => exact .of_handled_eq (handledBodies_call call c) (framesLeft_le same told)
  | acted _ moves machinery =>
      refine .of_handled_eq ?_ (framesLeft_le (congrArg Machinery.inbound machinery) told)
      exact handledBodies_eq valid.coherent moves.changes (congrArg Machinery.source machinery)
        (congrArg Machinery.readAhead machinery)

end Connection

variable {w : World} {i : Nat} {c e : Connection}

/-- Once closing has begun, no run handles a frame that was not left to the inbound loop. -/
theorem ebbs_performAll (reached : w.Reachable) (here : w.conns[i]? = some c)
    (inactive : c.isActive = false) (happenings : List Happening) :
    ∃ d, (w.performAll happenings).conns[i]? = some d ∧ Ebbs c d := by
  have kept : ∃ d, (w.performAll happenings).conns[i]? = some d ∧
      d.isActive = false ∧ Ebbs c d := by
    refine reached.stays here ⟨inactive, .refl c⟩ (fun reached here share tended before => ?_)
      happenings
    obtain ⟨inactive, ebbs⟩ := before
    have valid := reached.valid.conns i _ here
    have later := Connection.Later.of_changes (share.changes valid)
    obtain ⟨source, sink, rfl⟩ := tended.eq
    exact ⟨later.isActive_eq_false inactive, ebbs.trans (share.ebbs valid inactive)⟩
  obtain ⟨d, there, -, ebbs⟩ := kept
  exact ⟨d, there, ebbs⟩

/-- Where the inbound loop itself begins the closing, no frame is left to it. -/
theorem framesLeft_of_inbound {now : Nat} (step : c.inboundStep now = some e)
    (active : c.isActive = true) (left : e.isActive = false) : e.framesLeft = 0 := by
  rcases hasLooked_inboundStep step with looked | ⟨source, readAhead, rfl⟩
  · exact framesLeft_of_hasLooked looked left
  · cases active.symm.trans left

/-- What is read once closing has begun, in every run. Whoever takes a connection out of `active`,
and wherever its inbound loop stands then, at most one further frame is begun to be handled, however
many were read ahead or arrive later; none if the inbound loop did it in a stretch of its own, and
none from the moment at which the loops are told to end. No listener is told of a failure or of a
closing after that, whatever that frame or the rest of the input is. -/
theorem atMostOneMore_of_left (reached : w.Reachable) (here : w.conns[i]? = some c)
    (active : c.isActive = true) {happening : Happening}
    (there : (w.perform happening).conns[i]? = some e) (left : e.isActive = false)
    (happenings : List Happening) :
    ∃ d bodies, ((w.perform happening).performAll happenings).conns[i]? = some d ∧
      d.handledBodies = e.handledBodies ++ bodies ∧ bodies.length ≤ 1 ∧
      (happening = .run (.inbound i) → bodies = []) ∧
      (∀ before after f, happenings = before ++ after →
        ((w.perform happening).performAll before).conns[i]? = some f → f.cancelled = true →
        d.handledBodies = f.handledBodies) ∧
      d.notifications = e.notifications := by
  have goesOn := reached.perform happening
  obtain ⟨d, place, bodies, handled, fewer⟩ := ebbs_performAll goesOn there left happenings
  refine ⟨d, bodies, place, handled, ?_, ?_, ?_, ?_⟩
  · have one := e.framesLeft_le_one
    omega
  · intro own
    obtain ⟨d', share, tended⟩ := World.stepsBy_perform reached here there
    obtain ⟨source, sink, rfl⟩ := tended.eq
    have none : d'.framesLeft = 0 := by
      cases share with
      | inbound _ step => exact framesLeft_of_inbound step active left
      | rests => cases active.symm.trans left
      | outbound at' => cases own.symm.trans at'
      | called at' => cases own.symm.trans at'
      | acted at' => cases own.symm.trans at'
    have zero : bodies.length = 0 := by
      change _ ≤ d'.framesLeft at fewer
      omega
    exact List.eq_nil_of_length_eq_zero zero
  · rintro before after f rfl between told
    have told' := goesOn.performAll before
    have inactive := (told'.valid.conns i f between).orderly.inactive_of_cancelled told
    obtain ⟨d', place', more, handled', fewer'⟩ := ebbs_performAll told' between inactive after
    rw [World.performAll, List.foldl_append] at place
    obtain rfl : d' = d := Option.some.inj (place'.symm.trans place)
    rw [framesLeft_of_cancelled told] at fewer'
    rw [handled', List.eq_nil_of_length_eq_zero (by omega : more.length = 0), List.append_nil]
  · obtain ⟨d', place', later⟩ := (goesOn.valid.performAll happenings).2 i e there
    obtain rfl : d' = d := Option.some.inj (place'.symm.trans place)
    exact (later.silent left).1

/-- A connection that has read two keep-alives ahead, and a task that is about to close it. -/
def twoAhead : World :=
  (World.empty 0).performAll [.start .plain, .run (.inbound 0),
    .transit 0 (.feed [0, 0, 0, 3, 255, 253, 1, 0, 0, 0, 3, 255, 253, 0]), .run (.inbound 0),
    .errands [.close 0]]

theorem atMostOneMore_twoAhead : ∃ d,
    ((twoAhead.perform (.run (.task 0))).performAll
      (Actor.times 3 (.inbound 0))).conns[0]? = some d ∧
    d.handledBodies = [[255, 253, 1]] ∧ d.readAhead = [0, 0, 0, 3, 255, 253, 0] ∧
    d.notifications.length = 1 := by
  have reached : twoAhead.Reachable := (World.Reachable.empty 0 []).performAll _
  obtain ⟨c, here⟩ : ∃ c, twoAhead.conns[0]? = some c := ⟨_, rfl⟩
  obtain ⟨e, there⟩ : ∃ e, (twoAhead.perform (.run (.task 0))).conns[0]? = some e := ⟨_, rfl⟩
  have before : twoAhead.conns[0]?.map (·.isActive) = some true := rfl
  have after : (twoAhead.perform (.run (.task 0))).conns[0]?.map
      (fun c => (c.isActive, c.handledBodies, c.notifications.length)) = some (false, [], 1) := rfl
  have last : ((twoAhead.perform (.run (.task 0))).performAll
      (Actor.times 3 (.inbound 0))).conns[0]?.map (fun c => (c.handledBodies, c.readAhead)) =
      some ([[255, 253, 1]], [0, 0, 0, 3, 255, 253, 0]) := by rfl
  rw [here, Option.map_some, Option.some.injEq] at before
  rw [there, Option.map_some, Option.some.injEq] at after
  simp only [Prod.mk.injEq] at after
  obtain ⟨left, -, told⟩ := after
  obtain ⟨d, bodies, place, -, -, -, -, silent⟩ :=
    atMostOneMore_of_left reached here before there left (Actor.times 3 (.inbound 0))
  rw [place, Option.map_some, Option.some.injEq] at last
  simp only [Prod.mk.injEq] at last
  exact ⟨d, place, last.1, last.2, by rw [silent, told]⟩

end PacketWire
