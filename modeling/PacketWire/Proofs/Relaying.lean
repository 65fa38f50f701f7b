import PacketWire.Proofs.Listening

/-!
# What is owed to the listeners

A connection that nobody closes, with an idle listener and an outbound side without trouble, owes
its listeners whatever the bytes mean that it has not handled. `Relays` says that this, behind what
was done for them already, is what all bytes together mean, for every way in which the input may
still go on. So a stretch of the inbound loop only moves something from what is owed to what was
done.
-/

namespace PacketWire

/-- Whether an input may still get these bytes and then this end, if any. -/
def Source.MayBecome (s : Source) (ending : Option Ending) (more : Bytes) : Prop :=
  ∀ known, s.ending = some known → ending = some known ∧ more = []

namespace Connection

namespace Intake

/-- What arrived and was not handled. -/
def unread (i : Intake) : Bytes := i.readAhead ++ i.source.chunks.flatten

/-- What is still to be done for the listeners if these bytes arrive before this end. -/
def owed (i : Intake) (ending : Option Ending) (more : Bytes) : List Sight :=
  match i.inbound with
  | .starting => i.reader.read ending (i.unread ++ more)
  | .reading => i.reader.read ending (i.unread ++ more)
  | .closing _ shown => shown.toList.flatMap i.reader.shown
  | .finished => []

/-- Whether a connection is active, with nobody told of a failure or the closing and no loop told
to end. -/
structure Fresh (state : Lifecycle) (failureNotified closeNotified cancelled : Bool) : Prop where
  active : state = .active
  unfailed : failureNotified = false
  untold : closeNotified = false
  going : cancelled = false

def IsFresh (i : Intake) : Prop :=
  Fresh i.state i.failureNotified i.closeNotified i.cancelled

/-- The loop reads while the connection is active, and it closes without waiting for loops. -/
def Placed (i : Intake) : Prop :=
  match i.inbound with
  | .starting => i.IsFresh
  | .reading => i.IsFresh
  | .closing wait _ => i.state ≠ .active ∧ wait.IsDraining
  | .finished => i.state ≠ .active

structure Steady (r : Reader) (i : Intake) : Prop where
  inline : i.delivery = .inline
  idle : Listener.Idle i.listener
  reader : i.reader = r

end Intake

/-- However the input goes on, these things, behind what was done for the listeners already, make
it all that the bytes mean. -/
def Completes (r : Reader) (c : Connection) (owed : Option Ending → Bytes → List Sight) : Prop :=
  ∀ ending more, c.source.MayBecome ending more →
    c.sights ++ owed ending more = r.read ending (c.source.fed ++ more)

structure Relays (r : Reader) (c : Connection) : Prop where
  healthy : c.Healthy
  steady : c.intake.Steady r
  placed : c.intake.Placed
  account : Completes r c c.intake.owed

/-- An active connection about to read on. -/
structure Reads (r : Reader) (c : Connection) : Prop where
  healthy : c.Healthy
  steady : c.intake.Steady r
  fresh : c.intake.IsFresh

variable {r : Reader} {c d : Connection} {seen last : List Sight} {wait : CloseWait}
variable {shown : Option Packet} {owed owed' : Option Ending → Bytes → List Sight}

theorem Completes.congr (h : Completes r c owed)
    (eq : ∀ ending more, c.source.MayBecome ending more → owed' ending more = owed ending more) :
    Completes r c owed' := by
  intro ending more may
  rw [eq ending more may]
  exact h ending more may

/-- What was done for the listeners since is no longer owed to them. -/
theorem Completes.shift (source : d.source = c.source) (sights : d.sights = c.sights ++ seen)
    (h : Completes r c fun ending more => seen ++ owed ending more) : Completes r d owed := by
  intro ending more may
  rw [source] at may ⊢
  rw [sights, List.append_assoc]
  exact h ending more may

theorem Shows.steady (h : Shows c d seen) (steady : c.intake.Steady r) : d.intake.Steady r := by
  rwa [h.intake]

theorem Shows.source (h : Shows c d seen) : d.source = c.source :=
  congrArg Intake.source h.intake

theorem Parts.steady (h : Parts c d seen) (steady : c.intake.Steady r) : d.intake.Steady r := by
  rw [h.intake]
  exact ⟨steady.inline, steady.idle, steady.reader⟩

theorem Parts.source (h : Parts c d seen) : d.source = c.source :=
  congrArg Intake.source h.intake

theorem Parts.state_ne (h : Parts c d seen) : d.state ≠ .active :=
  of_decide_eq_false h.inactive

theorem Relays.quiet (h : Relays r c) (quiet : Quiet c d) : Relays r d := by
  refine ⟨quiet.healthy, ?_, ?_, ?_⟩
  · exact quiet.shows.steady h.steady
  · rw [quiet.intake]
    exact h.placed
  · rw [quiet.intake]
    exact .shift quiet.shows.source quiet.shows.sights h.account

/-- The inbound loop of a connection that is active. -/
theorem Relays.reads (h : Relays r c) (place : c.inbound = .starting ∨ c.inbound = .reading) :
    Reads r c ∧ Completes r c fun ending more => r.read ending (c.intake.unread ++ more) := by
  obtain ⟨healthy, steady, placed, account⟩ := h
  rw [Intake.Placed] at placed
  rcases place with place | place <;>
  · rw [show c.intake.inbound = _ from place] at placed
    refine ⟨⟨healthy, steady, placed⟩, account.congr ?_⟩
    intro ending more may
    rw [Intake.owed, show c.intake.inbound = _ from place, steady.reader]

/-- The inbound loop of a connection that it closes. -/
theorem Relays.closes (h : Relays r c) (place : c.inbound = .closing wait shown) :
    c.isActive = false ∧ wait.IsDraining ∧
      Completes r c fun _ _ => shown.toList.flatMap r.shown := by
  obtain ⟨healthy, steady, placed, account⟩ := h
  rw [Intake.Placed, show c.intake.inbound = _ from place] at placed
  refine ⟨decide_eq_false placed.1, placed.2, account.congr ?_⟩
  intro ending more may
  rw [Intake.owed, show c.intake.inbound = _ from place, steady.reader]

theorem Reads.isActive (h : Reads r c) : c.isActive = true :=
  decide_eq_true h.fresh.active

theorem Reads.shows (h : Reads r c) (shows : Shows c d seen) : Reads r d := by
  refine ⟨shows.healthy, shows.steady h.steady, ?_⟩
  rw [shows.intake]
  exact h.fresh

/-! ### Where the loop goes -/

theorem relays_readOn (h : Reads r c)
    (account : Completes r c fun ending more => r.read ending (c.intake.unread ++ more)) :
    Relays r c.readOn := by
  rw [readOn, h.isActive, if_pos rfl]
  refine ⟨⟨h.healthy.sink, h.healthy.writable⟩, ?_, h.fresh, ?_⟩
  · exact ⟨h.steady.inline, h.steady.idle, h.steady.reader⟩
  · obtain rfl := h.steady.reader
    exact account

/-- The loop of a connection that left `active`. -/
theorem relays_over (steady : c.intake.Steady r) (parts : Parts c d seen) (place : Inbound)
    (placed : Intake.Placed { d.intake with inbound := place })
    (owed : ∀ ending more, Intake.owed { d.intake with inbound := place } ending more = last)
    (account : Completes r c fun _ _ => seen ++ last) : Relays r { d with inbound := place } := by
  obtain ⟨inline, idle, reader⟩ := parts.steady steady
  refine ⟨⟨parts.healthy.sink, parts.healthy.writable⟩, ⟨inline, idle, reader⟩, placed, ?_⟩
  have done : Completes r d fun _ _ => last := .shift parts.source parts.sights account
  exact done.congr fun ending more _ => owed ending more

/-- The end of the reading: what was done is all that the bytes mean. -/
theorem relays_finished (steady : c.intake.Steady r) (parts : Parts c d seen)
    (account : Completes r c fun _ _ => seen) : Relays r { d with inbound := .finished } := by
  apply relays_over steady parts .finished parts.state_ne (fun _ _ => rfl)
  exact account.congr fun _ _ _ => List.append_nil seen

/-- The end of the reading, but for what is shown after the close. -/
theorem relays_closing (steady : c.intake.Steady r) (parts : Parts c d seen)
    (draining : wait.IsDraining) (shown : Option Packet)
    (account : Completes r c fun _ _ => seen ++ shown.toList.flatMap r.shown) :
    Relays r { d with inbound := .closing wait shown } := by
  refine relays_over steady parts (.closing wait shown) ⟨parts.state_ne, draining⟩ ?_ account
  intro ending more
  rw [← (parts.steady steady).reader]
  rfl

/-- The end of the reading, for whatever cause: the listener is told of it, and at most a close is
left for the loop to carry out. -/
theorem parts_stopReading (h : c.Healthy) (idle : Listener.Idle c.listener)
    (fresh : c.intake.IsFresh) (now : Nat) (cause : Error) :
    ∃ d place, c.stopReading now cause = { d with inbound := place } ∧
      Parts c d (Reader.finale cause) ∧
      (place = .finished ∨ ∃ wait, wait.IsDraining ∧ place = .closing wait none) := by
  have active : c.isActive = true := decide_eq_true fresh.active
  have told : ∃ d wait, Parts c d (Reader.finale cause) ∧ (∀ left ∈ wait, left.IsDraining) ∧
      (if cause.isEndOfStream then c.close true now endOfStream true
        else c.fail true now cause) = (d, wait) := by
    rw [Reader.finale]
    split
    · obtain ⟨parts, draining⟩ := parts_close h idle active fresh.untold now endOfStream true
      exact ⟨_, _, parts, draining, rfl⟩
    · obtain ⟨parts, draining⟩ := parts_fail h idle active fresh.unfailed fresh.untold now cause
      exact ⟨_, _, parts, draining, rfl⟩
  obtain ⟨d, wait, parts, draining, eq⟩ := told
  have going : (c.cancelled || !c.isActive) = false := by
    rw [show c.cancelled = false from fresh.going, active]
    rfl
  rw [stopReading, going, if_neg Bool.false_ne_true]
  dsimp only
  rw [eq]
  cases wait with
  | none => exact ⟨d, _, rfl, parts, .inl rfl⟩
  | some wait => exact ⟨d, _, rfl, parts, .inr ⟨wait, draining wait rfl, rfl⟩⟩

theorem relays_stopReading (h : Reads r c) (now : Nat) (cause : Error)
    (account : Completes r c fun _ _ => Reader.finale cause) :
    Relays r (c.stopReading now cause) := by
  obtain ⟨d, place, eq, parts, rfl | ⟨wait, draining, rfl⟩⟩ :=
    parts_stopReading h.healthy h.steady.idle h.fresh now cause
  · rw [eq]
    exact relays_finished h.steady parts account
  · rw [eq]
    apply relays_closing h.steady parts draining none
    exact account.congr fun _ _ _ => List.append_nil _

/-! ### What the loop does with a frame -/

theorem relays_deliver (h : Reads r c) (now : Nat) (event : Event)
    (account : Completes r c fun ending more => r.sights event ++
      if Reader.isLast event then [] else r.read ending (c.intake.unread ++ more)) :
    Relays r (c.deliver now event) := by
  rw [deliver, show c.delivery = .inline from h.steady.inline]
  dsimp only
  obtain rfl := h.steady.reader
  cases share : Reader.isLast event with
  | false =>
      obtain ⟨none, shows⟩ := shows_dispatch h.healthy h.steady.idle now share
      generalize c.dispatch true now event = result at none shows
      obtain ⟨d, wait⟩ := result
      obtain rfl : wait = .none := none
      refine relays_readOn (h.shows shows) (.shift shows.source shows.sights ?_)
      rw [shows.intake]
      exact account.congr fun _ _ _ => by rw [share, if_neg Bool.false_ne_true]
  | true =>
      have account : Completes c.intake.reader c fun _ _ => c.intake.reader.sights event :=
        account.congr fun _ _ _ => by rw [share, if_pos rfl, List.append_nil]
      match event, share with
      | .packet (.close message), _ =>
          obtain ⟨d, ⟨eq, parts⟩ | ⟨wait, draining, eq, parts⟩⟩ :=
            parts_dispatch h.healthy h.steady.idle h.isActive h.fresh.untold now message
          · rw [eq]
            simp only [afterDispatch, readOn, parts.inactive]
            exact relays_finished h.steady parts account
          · rw [eq]
            apply relays_closing h.steady parts draining (some (.close message))
            exact account.congr fun _ _ _ => by simp [closingSights, Reader.sights]

/-- A connection that began to handle the body of a frame. -/
def noted (now : Nat) (body : Bytes) (c : Connection) : Connection :=
  (c.log (.handled body)).touchReceived now

/-- A body is handled as it is judged; one without an id is not even noted. -/
theorem handleBody_eq (now : Nat) (body : Bytes) (c : Connection) :
    c.handleBody now body = match c.intake.reader.judge body with
      | .event event => (c.noted now body).deliver now event
      | .skip => (c.noted now body).readOn
      | .fatal cause =>
        (if (Frame.id? body).isSome then c.noted now body else c).stopReading now cause := by
  rw [handleBody, Reader.judge, Frame.id?]
  rw [show c.intake.reader.registry = c.registry from rfl]
  cases Decoder.read .i16 ⟨body⟩ with
  | mk id payload =>
      cases id with
      | error e => rfl
      | ok id =>
          dsimp only
          rw [show ((c.log (.handled body)).touchReceived now).registry = c.registry from rfl]
          cases c.registry.create id with
          | none => rfl
          | some prototype =>
              dsimp only
              cases (prototype.decode payload).error with
              | none => rfl
              | some cause => cases prototype.isCritical <;> rfl

theorem shows_noted (h : c.Healthy) (now : Nat) (body : Bytes) :
    Shows c (c.noted now body) [] := by
  obtain ⟨intake, sights, healthy⟩ := shows_log h (.handled body)
  exact ⟨intake, sights, healthy.sink, healthy.writable⟩

/-- The body of a frame is handled as it is judged. -/
theorem relays_handleBody (h : Reads r c) (now : Nat) (body : Bytes)
    (account : Completes r c fun ending more => match r.judge body with
      | .event event => r.sights event ++
          if Reader.isLast event then [] else r.read ending (c.intake.unread ++ more)
      | .skip => r.read ending (c.intake.unread ++ more)
      | .fatal cause => Reader.finale cause) :
    Relays r (c.handleBody now body) := by
  have shows := shows_noted h.healthy now body
  have touched := h.shows shows
  obtain rfl := h.steady.reader
  rw [handleBody_eq]
  cases judged : c.intake.reader.judge body with
  | event event =>
      rw [judged] at account
      exact relays_deliver touched now event (.shift shows.source shows.sights account)
  | skip =>
      rw [judged] at account
      exact relays_readOn touched (.shift shows.source shows.sights account)
  | fatal cause =>
      rw [judged] at account
      dsimp only
      split
      · exact relays_stopReading touched now cause (.shift shows.source shows.sights account)
      · exact relays_stopReading h now cause account

/-! ### The stretches of the loop -/

/-- Bytes behind what is there, or bytes read ahead: what is owed is what was owed if they came. -/
theorem Intake.owed_input (i : Intake) {source : Source} {readAhead chunk : Bytes}
    (unread : readAhead ++ source.chunks.flatten = i.unread ++ chunk) (ending : Option Ending)
    (more : Bytes) :
    Intake.owed { i with source, readAhead } ending more = i.owed ending (chunk ++ more) := by
  have bytes : readAhead ++ source.chunks.flatten ++ more = i.unread ++ (chunk ++ more) := by
    rw [unread, List.append_assoc]
  rw [Intake.owed]
  change (match i.inbound with
    | .starting => i.reader.read ending (readAhead ++ source.chunks.flatten ++ more)
    | .reading => i.reader.read ending (readAhead ++ source.chunks.flatten ++ more)
    | .closing _ shown => shown.toList.flatMap i.reader.shown
    | .finished => []) = _
  rw [bytes]
  rfl

/-- More bytes behind what is there, or bytes read ahead: nothing is lost, and nothing is done. -/
theorem relays_input (h : Relays r c) (source : Source) (readAhead chunk : Bytes)
    (unread : readAhead ++ source.chunks.flatten = c.intake.unread ++ chunk)
    (fed : source.fed = c.source.fed ++ chunk)
    (becomes : ∀ ending more, source.MayBecome ending more →
      c.source.MayBecome ending (chunk ++ more)) :
    Relays r { c with source, readAhead } := by
  obtain ⟨healthy, steady, placed, account⟩ := h
  refine ⟨⟨healthy.sink, healthy.writable⟩, ⟨steady.inline, steady.idle, steady.reader⟩, placed, ?_⟩
  intro ending more may
  change c.sights ++ Intake.owed { c.intake with source, readAhead } ending more =
    r.read ending (source.fed ++ more)
  rw [c.intake.owed_input unread, fed, List.append_assoc]
  exact account ending (chunk ++ more) (becomes ending more may)

theorem relays_readAhead? (h : Relays r c) (place : c.inbound = .reading)
    (short : Frame.next r.limit c.readAhead = .incomplete) {now : Nat}
    (step : c.readAhead? now = some d) : Relays r d := by
  obtain ⟨reads, account⟩ := h.reads (.inr place)
  rw [readAhead?] at step
  split at step
  · rename_i chunk chunks eq
    cases step
    refine relays_input h _ _ [] ?_ (List.append_nil _).symm fun _ _ may => may
    simp [Intake.unread, intake, eq]
  · rename_i eq
    have unread : c.intake.unread = c.readAhead := by
      rw [Intake.unread, show c.intake.source.chunks = [] from eq]
      exact List.append_nil _
    -- What is left is no whole frame, and nothing comes behind it.
    have account (how : Ending) (known : c.source.ending = some how) :
        Completes r c fun _ _ => Reader.finale (Reader.endCause how) := by
      apply account.congr
      intro ending more may
      obtain ⟨rfl, rfl⟩ := may how known
      rw [unread, List.append_nil, Reader.read_of_incomplete short]
    split at step
    · cases step
    · rename_i known
      cases step
      exact relays_stopReading reads now _ (account _ known)
    · rename_i known
      cases step
      exact relays_stopReading reads now _ (account _ known)

theorem inboundStep_reading (place : c.inbound = .reading) (going : c.cancelled = false)
    (now : Nat) : c.inboundStep now = match Frame.next c.config.maxFrameLength c.readAhead with
      | .complete body rest => some ({ c with readAhead := rest }.handleBody now body)
      | .illegal why => some (c.stopReading now (.protocolViolation why))
      | .incomplete => c.readAhead? now := by
  simp only [inboundStep, place, going]
  rfl

theorem relays_reading (h : Relays r c) (place : c.inbound = .reading) {now : Nat}
    (step : c.inboundStep now = some d) : Relays r d := by
  obtain ⟨reads, account⟩ := h.reads (.inr place)
  have limit : c.config.maxFrameLength = r.limit := congrArg Reader.limit h.steady.reader
  have cut (ending : Option Ending) (more : Bytes) : r.read ending (c.intake.unread ++ more) =
      r.read ending (c.readAhead ++ (c.source.chunks.flatten ++ more)) := by
    rw [← List.append_assoc]
    rfl
  rw [inboundStep_reading place reads.fresh.going, limit] at step
  split at step
  · rename_i body rest complete
    cases step
    have reads : Reads r { c with readAhead := rest } := by
      obtain ⟨healthy, steady, fresh⟩ := reads
      exact ⟨⟨healthy.sink, healthy.writable⟩, ⟨steady.inline, steady.idle, steady.reader⟩, fresh⟩
    refine relays_handleBody reads now body (account.congr fun ending more _ => ?_)
    rw [cut, Reader.read_append_of_complete complete, ← List.append_assoc]
    rfl
  · rename_i why illegal
    cases step
    refine relays_stopReading reads now _ (account.congr fun ending more _ => ?_)
    rw [cut, Reader.read_append_of_illegal illegal]
  · rename_i short
    exact relays_readAhead? h place short step

theorem relays_proceeding (h : Relays r c) (place : c.inbound = .closing wait shown) {now : Nat}
    (step : c.inboundStep now = some d) : Relays r d := by
  obtain ⟨inactive, draining, account⟩ := h.closes place
  obtain ⟨parts, left⟩ := parts_proceedClose h.healthy inactive now draining
  rw [inboundStep, place] at step
  dsimp only at step
  split at step
  · generalize c.proceedClose true now wait = result at step parts left
    split at step
    · rename_i again
      cases step
      exact relays_closing h.steady parts (left again rfl) shown account
    · cases step
      cases shown with
      | none => exact relays_finished h.steady parts account
      | some packet =>
          have shows := shows_showControl parts.healthy (parts.idle h.steady.idle) packet
          apply relays_finished h.steady (parts.trans (shows.parts parts.inactive))
          rw [parts.reader_eq, h.steady.reader]
          exact account.congr fun _ _ _ => by simp
  · cases step

/-- A stretch of the loop moves what it does for the listeners from what was owed to them. -/
theorem relays_inboundStep (h : Relays r c) {now : Nat} (step : c.inboundStep now = some d) :
    Relays r d := by
  cases place : c.inbound with
  | starting =>
      obtain ⟨reads, account⟩ := h.reads (.inl place)
      rw [inboundStep, place] at step
      cases step
      exact relays_readOn reads account
  | reading => exact relays_reading h place step
  | closing wait shown => exact relays_proceeding h place step
  | finished =>
      rw [inboundStep, place] at step
      cases step

end Connection

end PacketWire
