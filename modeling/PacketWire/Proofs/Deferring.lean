import Mathlib.Data.List.Basic
import PacketWire.Proofs.Handover
import PacketWire.Proofs.Interventions
import PacketWire.Proofs.Resting

/-!
# What a connection with deferred delivery notes

With deferred delivery the inbound loop hands nothing on. What it makes of the bytes goes into the
journal as events put on the work queue and as calls that tell of a failure or of the closing; these
are the notes of the connection. `Defers` says that they, with what is still owed, are what the
bytes mean, so they are what a connection with inline delivery would have done, less the calls about
what was received. A close message is left out of this: the inbound loop reads on behind it, where a
connection with inline delivery is closing.
-/

namespace PacketWire

/-- Whether something is noted by the inbound loop where delivery is deferred. -/
def Sight.isNoted : Sight → Bool
  | handed _ => true
  | called call => call.isNotification

/-- The call that tells of a failure or of the closing. -/
def Sight.notification? : Sight → Option HookCall
  | handed _ => none
  | called call => if call.isNotification then some call else none

namespace Entry

/-- What an entry notes: an event, or a call that tells of a failure or of the closing. -/
def note? : Entry → Option Sight
  | deferred event => some (.handed event)
  | hook call _ _ => if call.isNotification then some (.called call) else none
  | _ => none

theorem isBlind_note : IsBlind note? := by
  intro entry chat
  cases entry <;> first | rfl | exact chat.elim

/-- Where no event is deferred or handed on, what is noted is what of the sights is noted. -/
theorem note?_of_isTalk {v : Voice} {entry : Entry} (talk : entry.IsTalk v) :
    note? entry = (sight? entry).filter Sight.isNoted := by
  cases entry with
  | deferred | dispatched => exact talk.elim
  | hook call state results => rfl
  | _ => rfl

end Entry

namespace Reader

/-- Of what is done for an event that is not the last, the event itself is noted. -/
theorem filter_sights (r : Reader) {event : Event} (goesOn : isLast event = false) :
    (r.sights event).filter Sight.isNoted = [.handed event] := by
  cases event with
  | unknown id => rfl
  | packet packet =>
      rw [r.sights_packet goesOn, List.filter_cons_of_pos rfl]
      congr 1
      split
      · rw [shown]
        split <;> rfl
      · rfl

theorem handed_mem_sights {r : Reader} (event : Event) : .handed event ∈ r.sights event := by
  cases event with
  | unknown id => exact List.mem_cons_self
  | packet packet => cases packet <;> exact List.mem_cons_self

/-- That a control packet is shown is not noted. -/
theorem filter_shown (r : Reader) (packet : Packet) :
    (r.shown packet).filter Sight.isNoted = [] := by
  rw [shown]
  split <;> rfl

/-- No close message is among what these bytes mean. -/
def FreeOfClose (r : Reader) (bytes : Bytes) : Prop :=
  ∀ message, .handed (.packet (.close message)) ∉ r.read none bytes

theorem not_handed_finale (event : Event) (cause : Error) : .handed event ∉ finale cause := by
  rw [finale]
  split <;> simp

/-- What is handed on is handed on whatever comes behind it, and however the input ends. -/
theorem handed_read_append {r : Reader} {event : Event} {ending : Option Ending} {bytes : Bytes}
    (handed : .handed event ∈ r.read ending bytes) (ending' : Option Ending) (more : Bytes) :
    .handed event ∈ r.read ending' (bytes ++ more) := by
  fun_induction Reader.read r ending bytes with
  | case1 bytes body rest complete next judged ih =>
      rw [read_append_of_complete complete, judged]
      apply List.mem_append.mpr
      rcases List.mem_append.mp handed with now | later
      · exact .inl now
      · refine .inr ?_
        split at later
        · cases later
        · rename_i goesOn
          rw [if_neg goesOn]
          exact ih later
  | case2 bytes body rest complete judged ih =>
      rw [read_append_of_complete complete, judged]
      exact ih handed
  | case3 => exact absurd handed (not_handed_finale event _)
  | case4 => exact absurd handed (not_handed_finale event _)
  | case5 => cases handed
  | case6 => exact absurd handed (not_handed_finale event _)

theorem FreeOfClose.isLast_eq_false {r : Reader} {bytes : Bytes} (free : r.FreeOfClose bytes)
    {event : Event} {ending : Option Ending} (handed : .handed event ∈ r.read ending bytes) :
    isLast event = false := by
  have among := handed_read_append handed none []
  rw [List.append_nil] at among
  cases event with
  | unknown id => rfl
  | packet packet =>
      cases packet with
      | close message => exact absurd among (free message)
      | _ => rfl

theorem FreeOfClose.of_prefix {r : Reader} {bytes bytes' : Bytes} (free : r.FreeOfClose bytes')
    (front : bytes <+: bytes') : r.FreeOfClose bytes := by
  obtain ⟨more, rfl⟩ := front
  exact fun message handed => free message (handed_read_append handed none more)

end Reader

namespace Connection

open Entry

/-- What the inbound loop noted, first thing first. -/
def notes (c : Connection) : List Sight := c.recount note?

/-- What was put on the work queue is in the notes. -/
theorem deferredEvents_eq (c : Connection) :
    c.deferredEvents = c.notes.filterMap Sight.event? := by
  simp only [deferredEvents, notes, recount, List.filterMap_filterMap]
  congr 1
  funext entry
  cases entry with
  | hook call state results =>
      simp only [deferred?, note?]
      split <;> rfl
  | _ => rfl

/-- So is what the listener was told of a failure and of the closing. -/
theorem notifications_eq (c : Connection) :
    c.notifications = c.notes.filterMap Sight.notification? := by
  simp only [notifications, notes, recount, List.filterMap_filterMap]
  congr 1
  funext entry
  cases entry with
  | hook call state results =>
      simp only [notification?, note?]
      cases told : call.isNotification <;> simp [Sight.notification?, told]
  | _ => rfl

variable {c d : Connection} {seen last : List Sight}

theorem notes_of_talks (talks : Talks c d) (sights : d.sights = c.sights ++ seen) :
    d.notes = c.notes ++ seen.filter Sight.isNoted := by
  obtain ⟨entries, eq, talk⟩ := talks
  have journal : d.journal = entries ++ c.journal := congrArg Trail.journal eq
  have told : entries.reverse.filterMap sight? = seen := by
    rw [Connection.sights, recount_eq_append sight? journal] at sights
    exact List.append_cancel_left sights
  rw [notes, recount_eq_append note? journal, ← told, List.filter_filterMap]
  congr 1
  refine List.filterMap_congr fun entry member => ?_
  exact note?_of_isTalk (talk entry (List.mem_reverse.mp member))

/-! ### What a claimant does -/

theorem notes_callHook {call : HookCall} (plain : call.isNotification = false) (c : Connection) :
    (c.callHook call).notes = c.notes := by
  obtain ⟨results, eq⟩ := recount_callHook_of_isBlind isBlind_note call c
  rw [notes, eq]
  simp [note?, plain, notes]

theorem notes_showControl (packet : Packet) (c : Connection) :
    (c.showControl packet).notes = c.notes := by
  rw [showControl]
  split
  · exact notes_callHook rfl c
  · rfl

theorem notes_control (onLoop : Bool) (now : Nat) {packet : Packet}
    (goesOn : Reader.isLast (.packet packet) = false) (c : Connection) :
    (c.control onLoop now packet).1.notes = c.notes := by
  cases packet with
  | close message => cases goesOn
  | handshake kind version =>
      simp only [control]
      split
      · obtain ⟨packets, entries, chat⟩ := chat_sendHandshake .response c
        exact chat.recount_of_isBlind isBlind_note
      · rfl
  | keepAlive response =>
      simp only [control]
      split
      · rfl
      · obtain ⟨packets, entries, chat⟩ := chat_send (.keepAlive true) c
        exact chat.recount_of_isBlind isBlind_note
  | app => rfl

/-- Handing on an event that is not the last notes nothing. -/
theorem notes_dispatch (onLoop : Bool) (now : Nat) {event : Event}
    (goesOn : Reader.isLast event = false) (c : Connection) :
    (c.dispatch onLoop now event).1.notes = c.notes := by
  have logged : (c.log (.dispatched event)).notes = c.notes :=
    (recount_log note? (.dispatched event) c).trans (List.append_nil _)
  cases event with
  | unknown id => exact (notes_callHook rfl _).trans logged
  | packet packet =>
      have kept := notes_control onLoop now goesOn (c.log (.dispatched (.packet packet)))
      have none := wait_control onLoop now goesOn (c.log (.dispatched (.packet packet)))
      simp only [dispatch, dispatchPacket]
      generalize (c.log (.dispatched (.packet packet))).control onLoop now packet = result
        at kept none
      obtain ⟨d, wait⟩ := result
      obtain rfl : wait = .none := none
      split
      · exact (notes_showControl packet d).trans (kept.trans logged)
      · exact (notes_callHook rfl _).trans logged

/-- Whether a loop or somebody else hands on an event matters only for the last. -/
theorem dispatch_onLoop (now : Nat) {event : Event} (goesOn : Reader.isLast event = false)
    (c : Connection) : c.dispatch false now event = c.dispatch true now event := by
  cases event with
  | unknown id => rfl
  | packet packet =>
      cases packet with
      | close message => cases goesOn
      | _ => rfl

/-! ### The account -/

/-- A connection with deferred delivery and an idle listener. -/
structure Intake.Patient (r : Reader) (i : Intake) : Prop where
  deferred : i.delivery ≠ .inline
  idle : Listener.Idle i.listener
  reader : i.reader = r

/-- However the input goes on, these things, behind what was noted already, are what is to be noted
of all that the bytes mean. -/
def Records (r : Reader) (c : Connection) (owed : Option Ending → Bytes → List Sight) : Prop :=
  ∀ ending more, c.source.MayBecome ending more →
    c.notes ++ (owed ending more).filter Sight.isNoted =
      (r.read ending (c.source.fed ++ more)).filter Sight.isNoted

structure Defers (r : Reader) (c : Connection) : Prop where
  healthy : c.Healthy
  patient : c.intake.Patient r
  placed : c.intake.Placed
  account : Records r c c.intake.owed

variable {r : Reader} {wait : CloseWait} {shown : Option Packet}
variable {owed owed' : Option Ending → Bytes → List Sight}

theorem Records.congr (h : Records r c owed)
    (eq : ∀ ending more, c.source.MayBecome ending more → owed' ending more = owed ending more) :
    Records r c owed' := by
  intro ending more may
  rw [eq ending more may]
  exact h ending more may

/-- What was noted since is no longer owed. -/
theorem Records.shift (source : d.source = c.source)
    (notes : d.notes = c.notes ++ seen.filter Sight.isNoted)
    (h : Records r c fun ending more => seen ++ owed ending more) : Records r d owed := by
  intro ending more may
  rw [source] at may ⊢
  have account := h ending more may
  rwa [List.filter_append, ← List.append_assoc, ← notes] at account

theorem Shows.patient (h : Shows c d seen) (patient : c.intake.Patient r) : d.intake.Patient r := by
  rwa [h.intake]

theorem Parts.patient (h : Parts c d seen) (patient : c.intake.Patient r) :
    d.intake.Patient r := by
  rw [h.intake]
  exact ⟨patient.deferred, patient.idle, patient.reader⟩

/-- The loop that reads, of a connection that is active. -/
theorem Defers.reads (h : Defers r c) (place : c.inbound = .starting ∨ c.inbound = .reading) :
    c.intake.IsFresh ∧ Records r c fun ending more => r.read ending (c.intake.unread ++ more) := by
  obtain ⟨-, patient, placed, account⟩ := h
  rw [Intake.Placed] at placed
  rcases place with place | place <;>
  · rw [show c.intake.inbound = _ from place] at placed
    refine ⟨placed, account.congr ?_⟩
    intro ending more may
    rw [Intake.owed, show c.intake.inbound = _ from place, patient.reader]

/-- After something that is not about what the inbound loop reads. -/
theorem Defers.shows (h : Defers r c) (shows : Shows c d seen) (notes : d.notes = c.notes) :
    Defers r d := by
  refine ⟨shows.healthy, shows.patient h.patient, ?_, ?_⟩
  · rw [shows.intake]
    exact h.placed
  · rw [shows.intake]
    intro ending more may
    rw [shows.source] at may ⊢
    rw [notes]
    exact h.account ending more may

theorem Defers.quiet_of_talks (h : Defers r c) (quiet : Quiet c d) (talks : Talks c d) :
    Defers r d := by
  have notes := notes_of_talks talks quiet.shows.sights
  rw [List.filter_nil, List.append_nil] at notes
  exact h.shows quiet.shows notes

/-! ### The inbound loop -/

theorem defers_readOn (healthy : c.Healthy) (patient : c.intake.Patient r)
    (fresh : c.intake.IsFresh)
    (account : Records r c fun ending more => r.read ending (c.intake.unread ++ more)) :
    Defers r c.readOn := by
  have active : c.isActive = true := decide_eq_true fresh.active
  rw [readOn, active, if_pos rfl]
  refine ⟨⟨healthy.sink, healthy.writable⟩, ?_, fresh, ?_⟩
  · exact ⟨patient.deferred, patient.idle, patient.reader⟩
  · obtain rfl := patient.reader
    exact account

/-- The loop of a connection that left `active`, when this was the last there was to note. -/
theorem defers_over (patient : c.intake.Patient r) (parts : Parts c d seen) (talks : Talks c d)
    {place : Inbound} (ended : place = .finished ∨
      ∃ wait, wait.IsDraining ∧ ∃ shown, place = .closing wait shown)
    (account : Records r c fun _ _ => seen) : Defers r { d with inbound := place } := by
  obtain ⟨deferred, idle, reader⟩ := parts.patient patient
  refine ⟨⟨parts.healthy.sink, parts.healthy.writable⟩, ⟨deferred, idle, reader⟩, ?_, ?_⟩
  · obtain rfl | ⟨wait, draining, shown, rfl⟩ := ended
    · exact parts.state_ne
    · exact ⟨parts.state_ne, draining⟩
  · have done : Records r d fun _ _ => [] :=
      .shift parts.source (notes_of_talks talks parts.sights)
        (account.congr fun _ _ _ => List.append_nil seen)
    intro ending more may
    have account := done ending more may
    rw [List.filter_nil] at account
    have nothing : (Intake.owed { d.intake with inbound := place } ending more).filter
        Sight.isNoted = [] := by
      obtain rfl | ⟨wait, -, shown, rfl⟩ := ended
      · rfl
      · cases shown with
        | none => rfl
        | some packet =>
            change (([packet].flatMap d.intake.reader.shown).filter Sight.isNoted) = []
            rw [List.flatMap_singleton, Reader.filter_shown]
    change d.notes ++ (Intake.owed { d.intake with inbound := place } ending more).filter
      Sight.isNoted = _
    rw [nothing]
    exact account

theorem defers_stopReading (healthy : c.Healthy) (patient : c.intake.Patient r)
    (fresh : c.intake.IsFresh) (now : Nat) (cause : Error)
    (account : Records r c fun _ _ => Reader.finale cause) :
    Defers r (c.stopReading now cause) := by
  have idles := (passive_stopReading now cause c).idles
  obtain ⟨d, place, eq, parts, ended⟩ := parts_stopReading healthy patient.idle fresh now cause
  rw [eq] at idles ⊢
  have talks : Talks c d := idles.talks
  refine defers_over patient parts talks ?_ account
  obtain rfl | ⟨wait, draining, rfl⟩ := ended
  · exact .inl rfl
  · exact .inr ⟨wait, draining, none, rfl⟩

/-- An event that is not the last goes to the work queue. -/
theorem defers_deliver (healthy : c.Healthy) (patient : c.intake.Patient r)
    (fresh : c.intake.IsFresh) (now : Nat) {event : Event} (goesOn : Reader.isLast event = false)
    (account : Records r c fun ending more => r.sights event ++
      if Reader.isLast event then [] else r.read ending (c.intake.unread ++ more)) :
    Defers r (c.deliver now event) := by
  have opened : c.state ≠ .closed := by
    rw [show c.state = .active from fresh.active]
    decide
  have queued : c.deliver now event = (c.log (.deferred event)).readOn := by
    rw [deliver]
    split
    · rename_i inline
      exact absurd inline patient.deferred
    · rw [if_neg opened]
  have notes : (c.log (.deferred event)).notes =
      c.notes ++ (r.sights event).filter Sight.isNoted := by
    rw [r.filter_sights goesOn]
    exact recount_log note? (.deferred event) c
  rw [queued]
  refine defers_readOn ⟨healthy.sink, healthy.writable⟩ patient fresh (.shift (c := c) rfl notes ?_)
  refine account.congr fun ending more _ => ?_
  rw [goesOn, if_neg Bool.false_ne_true]
  rfl

/-- What was noted as handed on is handed on by all that the bytes mean. -/
theorem Records.handed {event : Event} (h : Records r c owed)
    (noted : .handed event ∈ c.notes ++ (owed c.source.ending []).filter Sight.isNoted) :
    .handed event ∈ r.read c.source.ending c.source.fed := by
  rw [h c.source.ending [] fun known ended => ⟨ended, rfl⟩, List.append_nil] at noted
  exact List.mem_of_mem_filter noted

theorem defers_handleBody (healthy : c.Healthy) (patient : c.intake.Patient r)
    (fresh : c.intake.IsFresh) (free : r.FreeOfClose c.source.fed) (now : Nat) (body : Bytes)
    (account : Records r c fun ending more => match r.judge body with
      | .event event => r.sights event ++
          if Reader.isLast event then [] else r.read ending (c.intake.unread ++ more)
      | .skip => r.read ending (c.intake.unread ++ more)
      | .fatal cause => Reader.finale cause) :
    Defers r (c.handleBody now body) := by
  have shows := shows_noted healthy now body
  have nothing : (c.noted now body).notes = c.notes ++ ([] : List Sight).filter Sight.isNoted :=
    recount_log note? (.handled body) c
  obtain rfl := patient.reader
  rw [handleBody_eq]
  cases judged : c.intake.reader.judge body with
  | event event =>
      rw [judged] at account
      have goesOn : Reader.isLast event = false := by
        refine free.isLast_eq_false (account.handed (List.mem_append_right _ ?_))
        apply List.mem_filter.mpr
        exact ⟨List.mem_append_left _ (Reader.handed_mem_sights event), rfl⟩
      exact defers_deliver shows.healthy patient fresh now goesOn
        (.shift shows.source nothing account)
  | skip =>
      rw [judged] at account
      exact defers_readOn shows.healthy patient fresh (.shift shows.source nothing account)
  | fatal cause =>
      rw [judged] at account
      dsimp only
      split
      · exact defers_stopReading shows.healthy patient fresh now cause
          (.shift shows.source nothing account)
      · exact defers_stopReading healthy patient fresh now cause account

/-- More bytes behind what is there, or bytes read ahead: nothing is lost, and nothing is noted. -/
theorem defers_input (h : Defers r c) (source : Source) (readAhead chunk : Bytes)
    (unread : readAhead ++ source.chunks.flatten = c.intake.unread ++ chunk)
    (fed : source.fed = c.source.fed ++ chunk)
    (becomes : ∀ ending more, source.MayBecome ending more →
      c.source.MayBecome ending (chunk ++ more)) :
    Defers r { c with source, readAhead } := by
  obtain ⟨healthy, patient, placed, account⟩ := h
  refine ⟨⟨healthy.sink, healthy.writable⟩, ⟨patient.deferred, patient.idle, patient.reader⟩,
    placed, ?_⟩
  intro ending more may
  change c.notes ++ (Intake.owed { c.intake with source, readAhead } ending more).filter _ =
    (r.read ending (source.fed ++ more)).filter _
  rw [c.intake.owed_input unread, fed, List.append_assoc]
  exact account ending (chunk ++ more) (becomes ending more may)

theorem defers_readAhead? (h : Defers r c) (place : c.inbound = .reading)
    (short : Frame.next r.limit c.readAhead = .incomplete) {now : Nat}
    (step : c.readAhead? now = some d) : Defers r d := by
  obtain ⟨fresh, account⟩ := h.reads (.inr place)
  rw [readAhead?] at step
  split at step
  · rename_i chunk chunks eq
    cases step
    refine defers_input h _ _ [] ?_ (List.append_nil _).symm fun _ _ may => may
    simp [Intake.unread, intake, eq]
  · rename_i eq
    have unread : c.intake.unread = c.readAhead := by
      rw [Intake.unread, show c.intake.source.chunks = [] from eq]
      exact List.append_nil _
    have account (how : Ending) (known : c.source.ending = some how) :
        Records r c fun _ _ => Reader.finale (Reader.endCause how) := by
      apply account.congr
      intro ending more may
      obtain ⟨rfl, rfl⟩ := may how known
      rw [unread, List.append_nil, Reader.read_of_incomplete short]
    split at step
    · cases step
    · rename_i known
      cases step
      exact defers_stopReading h.healthy h.patient fresh now _ (account _ known)
    · rename_i known
      cases step
      exact defers_stopReading h.healthy h.patient fresh now _ (account _ known)

theorem defers_reading (h : Defers r c) (place : c.inbound = .reading)
    (free : r.FreeOfClose c.source.fed) {now : Nat} (step : c.inboundStep now = some d) :
    Defers r d := by
  obtain ⟨fresh, account⟩ := h.reads (.inr place)
  have limit : c.config.maxFrameLength = r.limit := congrArg Reader.limit h.patient.reader
  have cut (ending : Option Ending) (more : Bytes) : r.read ending (c.intake.unread ++ more) =
      r.read ending (c.readAhead ++ (c.source.chunks.flatten ++ more)) := by
    rw [← List.append_assoc]
    rfl
  rw [inboundStep_reading place fresh.going, limit] at step
  split at step
  · rename_i body rest complete
    cases step
    obtain ⟨deferred, idle, reader⟩ := h.patient
    refine defers_handleBody (c := { c with readAhead := rest })
      ⟨h.healthy.sink, h.healthy.writable⟩ ⟨deferred, idle, reader⟩ fresh free now body
      (account.congr fun ending more _ => ?_)
    rw [cut, Reader.read_append_of_complete complete, ← List.append_assoc]
    rfl
  · rename_i why illegal
    cases step
    apply defers_stopReading h.healthy h.patient fresh
    refine account.congr fun ending more _ => ?_
    rw [cut, Reader.read_append_of_illegal illegal]
  · rename_i short
    exact defers_readAhead? h place short step

theorem defers_proceeding (h : Defers r c) (place : c.inbound = .closing wait shown) {now : Nat}
    (step : c.inboundStep now = some d) : Defers r d := by
  obtain ⟨healthy, patient, placed, account⟩ := h
  rw [Intake.Placed, show c.intake.inbound = _ from place] at placed
  have inactive : c.isActive = false := decide_eq_false placed.1
  have account : Records r c fun _ _ => [] := by
    intro ending more may
    have known := account ending more may
    rw [Intake.owed, show c.intake.inbound = _ from place] at known
    cases shown with
    | none => exact known
    | some packet =>
        dsimp only at known
        rw [Option.toList_some, List.flatMap_singleton, Reader.filter_shown] at known
        exact known
  obtain ⟨parts, left⟩ := parts_proceedClose healthy inactive now placed.2
  have idles := (passive_proceedClose true now wait c).idles
  rw [inboundStep, place] at step
  dsimp only at step
  split at step
  · generalize c.proceedClose true now wait = result at step parts left idles
    split at step
    · rename_i again
      cases step
      exact defers_over patient parts idles.talks (.inr ⟨_, left again rfl, shown, rfl⟩) account
    · cases step
      cases shown with
      | none => exact defers_over patient parts idles.talks (.inl rfl) account
      | some packet =>
          have shows := shows_showControl parts.healthy (parts.idle patient.idle) packet
          refine defers_over patient (parts.trans (shows.parts parts.inactive))
            (idles.talks.trans (talks_showControl packet _)) (.inl rfl) ?_
          intro ending more may
          rw [List.nil_append, Reader.filter_shown]
          exact account ending more may
  · cases step

/-- A stretch of the inbound loop moves what it notes from what was owed. -/
theorem defers_inboundStep (h : Defers r c) (free : r.FreeOfClose c.source.fed) {now : Nat}
    (step : c.inboundStep now = some d) : Defers r d := by
  cases place : c.inbound with
  | starting =>
      obtain ⟨fresh, account⟩ := h.reads (.inl place)
      rw [inboundStep, place] at step
      cases step
      exact defers_readOn h.healthy h.patient fresh account
  | reading => exact defers_reading h place free step
  | closing wait shown => exact defers_proceeding h place step
  | finished =>
      rw [inboundStep, place] at step
      cases step

/-! ### All that a connection undergoes -/

theorem defers_start {setup : Setup} (deferred : setup.delivery ≠ .inline)
    (idle : Listener.Idle setup.listener) (now : Nat) :
    Defers (start setup now).intake.reader (start setup now) where
  healthy := ⟨⟨rfl, rfl⟩, fun _ member => by cases member⟩
  patient := ⟨deferred, idle, rfl⟩
  placed := ⟨rfl, rfl, rfl, rfl⟩
  account := fun _ _ _ => rfl

/-- No close message was put on the work queue. -/
theorem Defers.isLast_eq_false (h : Defers r c) (free : r.FreeOfClose c.source.fed) {event : Event}
    (deferred : .deferred event ∈ c.journal) : Reader.isLast event = false := by
  have noted : .handed event ∈ c.notes :=
    List.mem_filterMap.mpr ⟨_, List.mem_reverse.mpr deferred, rfl⟩
  exact free.isLast_eq_false (h.account.handed (List.mem_append_left _ noted))

theorem Defers.meets (h : Defers r c) {now : Nat} {intervention : Intervention}
    (plain : intervention.IsPlain now c) : Defers r (intervention.act c) := by
  cases intervention with
  | pass span => exact h
  | call made =>
      cases made with
      | send packet =>
          obtain ⟨_, _, chat⟩ := chat_send packet c
          exact h.shows (quiet_send h.healthy plain).shows (chat.recount_of_isBlind isBlind_note)
      | handshake kind =>
          obtain ⟨_, _, chat⟩ := chat_sendHandshake kind c
          have quiet := quiet_sendHandshake h.healthy kind
          exact h.shows quiet.shows (chat.recount_of_isBlind isBlind_note)
      | register type => exact plain.elim
  | transit done =>
      cases done with
      | feed chunk =>
          refine defers_input h (c.source.feed chunk) c.readAhead chunk ?_ rfl ?_
          · simp [Source.feed, Intake.unread, intake]
          · intro ending more may known ended
            rw [show c.source.ending = none from plain] at ended
            cases ended
      | finish ending =>
          refine defers_input h (c.source.finish ending) c.readAhead [] (List.append_nil _).symm
            (List.append_nil _).symm ?_
          intro ending' more may known ended
          refine may known ?_
          change c.source.ending.or (some ending) = some known
          rw [ended]
          rfl
      | weather room writeFailure flushFailure flushStalls shutdownStalls =>
          have quiet : Quiet c ((Transit.weather room writeFailure flushFailure flushStalls
              shutdownStalls).act c) := .of_eq h.healthy rfl rfl plain (List.Subset.refl _)
          exact h.shows quiet.shows rfl

theorem Defers.undergoes (h : Defers r c) (free : r.FreeOfClose c.source.fed) {now later : Nat}
    (undergoes : Undergoes Intervention.IsPlain now c later d) : Defers r d := by
  cases undergoes with
  | rests => exact h
  | inbound step => exact defers_inboundStep h free step
  | outbound step =>
      exact h.quiet_of_talks (quiet_outboundStep h.healthy step) (idles_outboundStep step).talks
  | @hands event member =>
      have goesOn := h.isLast_eq_false free member
      have kept := notes_dispatch false now goesOn c
      rw [dispatch_onLoop now goesOn] at kept ⊢
      obtain ⟨-, shows⟩ := shows_dispatch h.healthy h.patient.idle now goesOn
      exact h.shows shows kept
  | joins =>
      have quiet : Quiet c c.takeLoops.2 :=
        .of_eq h.healthy rfl rfl h.healthy.sink (List.Subset.refl _)
      exact h.shows quiet.shows rfl
  | meets plain => exact h.meets plain

/-- What was noted is noted of what the bytes mean, and it is all of it where the loop does nothing
more. -/
theorem Defers.notes_of_read (h : Defers r c) :
    c.notes <+: (r.read c.source.ending c.source.fed).filter Sight.isNoted ∧
      (c.Spent → c.notes = (r.read c.source.ending c.source.fed).filter Sight.isNoted) := by
  have all := h.account c.source.ending [] fun known ended => ⟨ended, rfl⟩
  rw [List.append_nil] at all
  refine ⟨all ▸ List.prefix_append _ _, fun spent => ?_⟩
  rwa [owed_of_atRest (atRest_of_spent h.placed spent), List.filter_nil, List.append_nil] at all

end Connection

end PacketWire
