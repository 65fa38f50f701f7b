import PacketWire.Proofs.Coherent
import PacketWire.Proofs.Draining
import PacketWire.Proofs.Refusals

/-!
# One connection and the closes of it

A close of a connection is carried out by its inbound loop or by a task of somebody else. At any
time at most one close is on its way, since only an active connection begins one. `Valid` says
this, with the waits that others hold as a parameter, beside the invariants of the connection
itself. One theorem for each way in which a connection can go on keeps all of it.
-/

namespace PacketWire

theorem CloseWait.Fits.of_eq {c d : Connection} {wait : CloseWait} (h : wait.Fits c)
    (state : d.state = c.state) (cancelled : d.cancelled = c.cancelled) : wait.Fits d := by
  cases wait with
  | draining => exact state.trans h
  | joining => exact ⟨state.trans h.1, cancelled.trans h.2⟩

namespace Connection

/-- The waits of all closes of a connection that are on their way; `closers` are those that are
not carried out by its inbound loop. -/
def holders (c : Connection) (closers : List CloseWait) : List CloseWait :=
  c.inbound.closer?.toList ++ closers

/-- The invariants of a connection together. -/
structure Valid (c : Connection) (closers : List CloseWait) : Prop where
  orderly : c.Orderly
  coherent : c.Coherent
  inOrder : c.InOrder
  tallied : c.Tallied
  rebuffed : c.Rebuffed
  keepsLoops : c.KeepsLoops
  single : (c.holders closers).length ≤ 1
  fits : ∀ wait ∈ c.holders closers, wait.Fits c

/-- The transport of a connection changes, without taking or losing anything that was written. -/
structure Tended (c d : Connection) : Prop where
  changes : Changes c d
  eq : ∃ source sink, d = { c with source, sink }
  groups : d.sink.groups = c.sink.groups
  unflushed : d.sink.unflushed = c.sink.unflushed
  released : d.sink.released = c.sink.released

namespace Tended

variable {c d e : Connection}

theorem refl (c : Connection) : Tended c c :=
  ⟨.refl, ⟨c.source, c.sink, rfl⟩, rfl, rfl, rfl⟩

theorem trans (first : Tended c d) (second : Tended d e) : Tended c e where
  changes := first.changes.trans second.changes
  eq := by
    obtain ⟨source, sink, rfl⟩ := first.eq
    obtain ⟨source', sink', rfl⟩ := second.eq
    exact ⟨source', sink', rfl⟩
  groups := second.groups.trans first.groups
  unflushed := second.unflushed.trans first.unflushed
  released := second.released.trans first.released

theorem taken (h : Tended c d) : d.sink.taken = c.sink.taken := by
  rw [Sink.taken, h.groups, h.unflushed, Sink.taken]

theorem feed (chunk : Bytes) (c : Connection) : Tended c { c with source := c.source.feed chunk } :=
  ⟨.single (.feed c chunk), ⟨_, c.sink, rfl⟩, rfl, rfl, rfl⟩

theorem feedAll (chunks : List Bytes) (c : Connection) :
    Tended c
      { c with source := chunks.foldl (fun source chunk => source.feed chunk) c.source } := by
  induction chunks generalizing c with
  | nil => exact .refl c
  | cons chunk chunks ih => exact (feed chunk c).trans (ih { c with source := c.source.feed chunk })

theorem finish (ending : Ending) (c : Connection) :
    Tended c { c with source := c.source.finish ending } :=
  ⟨.single (.finish c ending), ⟨_, c.sink, rfl⟩, rfl, rfl, rfl⟩

theorem weather {sink : Sink} {c : Connection} (groups : sink.groups = c.sink.groups)
    (unflushed : sink.unflushed = c.sink.unflushed) (released : sink.released = c.sink.released) :
    Tended c { c with sink } := by
  have taken : sink.taken = c.sink.taken := by
    rw [Sink.taken, groups, unflushed, Sink.taken]
  exact ⟨.single (.place c c.buffer (taken ▸ List.prefix_rfl)), ⟨c.source, sink, rfl⟩, groups,
    unflushed, released⟩

end Tended

variable {c d e : Connection} {closers pre post : List CloseWait} {wait : CloseWait}
  {left : Option CloseWait}

theorem Closes.moves {result : Connection × Option CloseWait} (h : Closes c result) :
    Moves c result.1 := by
  cases h <;> assumption

namespace Valid

theorem start {setup : Setup} (sound : setup.registry.Sound) (now : Nat) :
    (start setup now).Valid [] where
  orderly := orderly_start setup now
  coherent := coherent_start sound now
  inOrder := ⟨[], rfl, Frame.writes_nil⟩
  tallied := tallied_start setup now
  rebuffed := rebuffed_start setup now
  keepsLoops := .inl rfl
  single := Nat.zero_le _
  fits := by
    intro wait member
    cases member

theorem holders_of_isActive (h : c.Valid closers) (active : c.isActive = true) :
    c.holders closers = [] := by
  cases held : c.holders closers with
  | nil => rfl
  | cons wait waits =>
      have closing : c.state = .closing :=
        (h.fits wait (held ▸ List.mem_cons_self)).state_eq
      simp [isActive, closing] at active

/-- A close that is on its way is the only one. -/
theorem closers_eq (h : c.Valid (pre ++ [wait] ++ post)) :
    c.inbound.closer? = none ∧ pre = [] ∧ post = [] := by
  have single := h.single
  simp only [holders, List.length_append, List.length_cons, List.length_nil] at single
  refine ⟨?_, List.eq_nil_of_length_eq_zero (by omega), List.eq_nil_of_length_eq_zero (by omega)⟩
  cases closer : c.inbound.closer? with
  | none => rfl
  | some other =>
      simp only [closer, Option.toList_some, List.length_cons, List.length_nil] at single
      omega

theorem closers_of_closer (h : c.Valid closers) (holds : c.inbound.closer? = some wait) :
    closers = [] := by
  have single := h.single
  rw [holders, holds] at single
  exact List.eq_nil_of_length_eq_zero (by simpa using single)

/-- The invariants of the connection, for whatever holds a close of it then. -/
theorem of_changes (h : c.Valid closers) (changes : Changes c d) (inOrder : d.InOrder)
    (tallied : d.Tallied) {others : List CloseWait} (single : (d.holders others).length ≤ 1)
    (fits : ∀ wait ∈ d.holders others, wait.Fits d) : d.Valid others :=
  ⟨h.orderly.changes changes, h.coherent.changes changes, inOrder, tallied,
    h.rebuffed.changes changes, h.keepsLoops.changes changes, single, fits⟩

theorem of_moves (h : c.Valid closers) (moves : Moves c d)
    {others : List CloseWait} (single : (d.holders others).length ≤ 1)
    (fits : ∀ wait ∈ d.holders others, wait.Fits d) : d.Valid others := by
  have sends := Sends.of_moves moves
  refine h.of_changes moves.changes (sends.inOrder h.inOrder) (h.tallied.sends sends ?_) single fits
  exact h.orderly.sealed (h.orderly.changes moves.changes) (.of_changes moves.changes)

/-- Whoever holds a close afterwards: nobody new, or the one who began or went on with it. -/
theorem of_closes (h : c.Valid closers) {others : List CloseWait}
    (closes : Closes c (d, left)) (held : d.holders others = left.toList) : d.Valid others := by
  cases closes with
  | waits moves fits =>
      apply h.of_moves moves (by simp [held])
      intro wait member
      rw [held, Option.toList_some, List.mem_singleton] at member
      exact member ▸ fits
  | ends moves closed =>
      apply h.of_moves moves (by simp [held])
      intro wait member
      rw [held] at member
      cases member

theorem of_calm (h : c.Valid closers) (moves : Moves c d) (same : d.standing = c.standing)
    (held : d.inbound.closer? = c.inbound.closer?) : d.Valid closers := by
  have holders : d.holders closers = c.holders closers := by rw [Connection.holders, held]; rfl
  apply h.of_moves moves (by rw [holders]; exact h.single)
  intro wait member
  exact (h.fits wait (holders ▸ member)).of_eq (congrArg Standing.state same)
    (congrArg Standing.cancelled same)

/-- Somebody who does not hold a close of the connection does something to it. -/
theorem outcome (h : c.Valid (pre ++ post)) (outcome : Outcome c (d, left))
    (same : d.inbound = c.inbound) : d.Valid (pre ++ left.toList ++ post) := by
  cases outcome with
  | calm moves calm => simpa using h.of_calm moves calm (by rw [same])
  | closes active closes =>
      have free := h.holders_of_isActive active
      simp only [holders, List.append_eq_nil_iff] at free
      obtain ⟨free, rfl, rfl⟩ := free
      apply h.of_closes closes
      rw [holders, same, free]
      simp

/-- Somebody who holds a close of the connection goes on with it. -/
theorem proceed (h : c.Valid (pre ++ [wait] ++ post)) (closes : wait.Fits c → Closes c (d, left))
    (same : d.inbound = c.inbound) : d.Valid (pre ++ left.toList ++ post) := by
  have fits : wait.Fits c := h.fits wait (by simp [holders])
  obtain ⟨free, rfl, rfl⟩ := h.closers_eq
  apply h.of_closes (closes fits)
  rw [holders, same, free]
  simp

theorem abandon (h : c.Valid (pre ++ left.toList ++ post)) : c.Valid (pre ++ post) := by
  have sublist : (c.holders (pre ++ post)).Sublist (c.holders (pre ++ left.toList ++ post)) := by
    refine List.Sublist.append_left ?_ _
    rw [List.append_assoc]
    exact List.Sublist.append_left (List.sublist_append_right _ _) _
  exact ⟨h.orderly, h.coherent, h.inOrder, h.tallied, h.rebuffed, h.keepsLoops,
    Nat.le_trans sublist.length_le h.single, fun wait member => h.fits wait (sublist.subset member)⟩

theorem inboundStep (h : c.Valid closers) {now : Nat} (step : c.inboundStep now = some d) :
    d.Valid closers := by
  cases holds : c.inbound.closer? with
  | some wait =>
      obtain rfl := h.closers_of_closer holds
      have fits : wait.Fits c := h.fits wait (by simp [holders, holds])
      exact h.of_closes (closes_inboundStep step holds fits) (List.append_nil _)
  | none =>
      have outcome := outcome_inboundStep h.coherent.sound step holds
      generalize place : d.inbound.closer? = left at outcome
      cases outcome with
      | calm moves calm => exact h.of_calm moves calm (place.trans holds.symm)
      | closes active closes =>
          have free := h.holders_of_isActive active
          rw [holders, holds] at free
          obtain rfl : closers = [] := free
          exact h.of_closes closes (by rw [holders, place, List.append_nil])

theorem moves_inboundStep (h : c.Valid closers) {now : Nat} (step : c.inboundStep now = some d) :
    Moves c d := by
  cases holds : c.inbound.closer? with
  | some wait =>
      exact (closes_inboundStep step holds (h.fits wait (by simp [holders, holds]))).moves
  | none => exact (outcome_inboundStep h.coherent.sound step holds).moves

theorem outboundStep (h : c.Valid closers) {now : Nat} (step : c.outboundStep now = some d) :
    d.Valid closers := by
  have onward := onward_outboundStep step
  have held : d.holders closers = c.holders closers := by rw [holders, onward.inbound]; rfl
  apply h.of_changes onward.changes (onward.inOrder h.inOrder)
    (h.tallied.outboundStep h.orderly.fresh_standing step) (held ▸ h.single)
  intro wait member
  rw [held] at member
  rcases onward.standing with ⟨state, cancelled⟩ | ⟨active, -⟩
  · exact (h.fits wait member).of_eq state cancelled
  · rw [h.holders_of_isActive active] at member
    cases member

theorem tended (h : c.Valid closers) (tended : Tended c d) : d.Valid closers := by
  have taken := tended.taken
  obtain ⟨changes, ⟨source, sink, rfl⟩, -, unflushed, released⟩ := tended
  refine h.of_changes changes ?_ ?_ h.single h.fits
  · have order := h.inOrder
    simp only [InOrder, HasWritten, KeepsOrder] at order ⊢
    rw [taken]
    exact order
  · exact h.tallied.weather unflushed released

end Valid

end Connection

end PacketWire
