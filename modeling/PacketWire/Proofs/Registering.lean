import PacketWire.Proofs.Announcing
import PacketWire.Proofs.ConnectionActors

/-!
# What is registered for a connection

The packet types of a connection are those of every connection, then those that it is set up with,
then those that the application registers while it runs. Neither of its loops and no task changes
that. Since only ids that are not reserved are taken from an application, the control packets stay
what they are.
-/

namespace PacketWire

open Announcement

/-- What a call registers. -/
def Call.admitted? : Call → Option Announcement
  | .register a => if a.IsAdmissible then some a else none
  | _ => none

/-- What an application registers for a connection in a happening. -/
def Happening.admitted? (i : Nat) : Happening → Option Announcement
  | .call j asked => if j = i then asked.admitted? else none
  | _ => none

/-- Either all types are registered that a connection is set up with, or it is not set up because
of the first that is refused. -/
theorem Session.setup_cases (opening : Opening) :
    (∃ setup, Session.setup opening = .ok setup ∧
      (∀ a ∈ opening.registrations, a.IsAdmissible) ∧
      setup.registry.Keeps (Announcement.control ++ opening.registrations)) ∨
    ∃ before a after, opening.registrations = before ++ a :: after ∧
      (∀ b ∈ before, b.IsAdmissible) ∧ ¬ a.IsAdmissible ∧
      Session.setup opening = .error (.registration a.refusal) := by
  by_cases all : ∀ a ∈ opening.registrations, a.IsAdmissible
  · obtain ⟨r, registered, keeps⟩ := Registry.keeps_control.exists_registerAll all
    left
    rw [setup, registered]
    exact ⟨_, rfl, all, keeps⟩
  · obtain ⟨a, found⟩ : ∃ a, opening.registrations.find? (fun a => ¬ a.IsAdmissible) = some a := by
      rw [← Option.isSome_iff_exists, List.find?_isSome]
      simpa using all
    obtain ⟨refused, before, after, split, others⟩ := List.find?_eq_some_iff_append.mp found
    have refused : ¬ a.IsAdmissible := by simpa using refused
    have others : ∀ b ∈ before, b.IsAdmissible := by simpa using others
    refine .inr ⟨before, a, after, split, others, refused, ?_⟩
    rw [setup, split, Registry.registerAll_of_not_admissible _ others refused]

theorem Session.keeps_setup {opening : Opening} {s : Connection.Setup}
    (given : setup opening = .ok s) : (∀ a ∈ opening.registrations, a.IsAdmissible) ∧
      s.registry.Keeps (Announcement.control ++ opening.registrations) := by
  rcases setup_cases opening with ⟨s', given', all, keeps⟩ | ⟨_, _, _, _, _, _, refused⟩
  · obtain rfl : s' = s := Except.ok.inj (given'.symm.trans given)
    exact ⟨all, keeps⟩
  · cases refused.symm.trans given

theorem Happening.isAdmissible_of_admitted? {i : Nat} {happening : Happening} {a : Announcement}
    (admitted : happening.admitted? i = some a) : a.IsAdmissible := by
  cases happening with
  | call j call =>
      have asked : call.admitted? = some a := by
        rw [admitted?] at admitted
        split at admitted
        · exact admitted
        · cases admitted
      cases call with
      | register b =>
          rw [Call.admitted?] at asked
          split at asked <;> cases asked
          assumption
      | _ => cases asked
  | _ => cases admitted

namespace Connection

variable {c d : Connection} {now i : Nat} {happening : Happening} {closers : List CloseWait}
  {table : List Announcement}

/-! ### Who registers -/

theorem registry_stopReading (now : Nat) (cause : Error) (c : Connection) :
    (c.stopReading now cause).registry = c.registry := by
  have begun : (if cause.isEndOfStream then c.close true now endOfStream true
      else c.fail true now cause).1.registry = c.registry := by
    split
    · exact congrArg Machinery.registry (machinery_close true now endOfStream true c)
    · exact congrArg Machinery.registry (machinery_fail true now cause c)
  rw [stopReading]
  split
  · rfl
  · generalize (if cause.isEndOfStream then c.close true now endOfStream true
      else c.fail true now cause) = result at begun
    obtain ⟨d, _ | wait⟩ := result <;> exact begun

theorem registry_afterDispatch (result : Connection × Option (CloseWait × Packet)) :
    (afterDispatch result).registry = result.1.registry := by
  obtain ⟨d, _ | left⟩ := result <;> rfl

theorem registry_deliver (now : Nat) (event : Event) (c : Connection) :
    (c.deliver now event).registry = c.registry := by
  have dispatched : (afterDispatch (c.dispatch true now event)).registry = c.registry :=
    (registry_afterDispatch _).trans
      (congrArg Machinery.registry (machinery_dispatch true now event c))
  rw [deliver]
  split
  · exact dispatched
  · split
    · exact dispatched
    · rfl

theorem registry_handleBody (now : Nat) (body : Bytes) (c : Connection) :
    (c.handleBody now body).registry = c.registry := by
  rw [handleBody]
  split
  · exact registry_stopReading now _ c
  · dsimp only
    split
    · exact registry_deliver now _ _
    · split
      · exact registry_deliver now _ _
      · split
        · exact registry_stopReading now _ _
        · rfl

theorem registry_inboundStep (step : c.inboundStep now = some d) : d.registry = c.registry := by
  rw [inboundStep] at step
  split at step
  · cases step
    rfl
  · split at step
    · cases step
      rfl
    · split at step
      · cases step
        exact registry_handleBody now _ _
      · cases step
        exact registry_stopReading now _ c
      · rw [readAhead?] at step
        split at step
        · cases step
          rfl
        · split at step <;> cases step <;> exact registry_stopReading now _ c
  · rename_i wait shown _
    split at step
    · have proceeded := congrArg Machinery.registry (machinery_proceedClose true now wait c)
      split at step <;> rename_i eq <;> rw [eq] at proceeded <;> cases step
      · exact proceeded
      · dsimp only
        split
        · exact (congrArg Machinery.registry (machinery_showControl _ _)).trans proceeded
        · exact proceeded
    · cases step
  · cases step

/-- The call reports a refusal, and then nothing has changed. -/
theorem register_of_not_admissible {a : Announcement} (refused : ¬ a.IsAdmissible)
    (c : Connection) : c.register a = .error (.registration a.refusal) ∧
      (Call.register a).act c = c := by
  have failed : c.register a = .error (.registration a.refusal) := by
    rw [register, c.registry.registerType_of_not_admissible refused]
  refine ⟨failed, ?_⟩
  rw [Call.act, failed]
  rfl

theorem register_of_admissible {a : Announcement} (admissible : a.IsAdmissible) (c : Connection) :
    c.register a = .ok { c with registry := c.registry.insert a.id a.name a.prototype } := by
  rw [register, c.registry.registerType_of_admissible admissible]

/-- A call registers what it is given if that is admissible. -/
theorem keeps_call (h : c.registry.Keeps table) (call : Call) :
    (call.act c).registry.Keeps (table ++ call.admitted?.toList) := by
  have same {call : Call} (other : call.admitted? = none)
      (registry : (call.act c).registry = c.registry) :
      (call.act c).registry.Keeps (table ++ call.admitted?.toList) := by
    rw [other, registry, Option.toList_none, List.append_nil]
    exact h
  cases call with
  | send packet => exact same rfl (congrArg Machinery.registry (machinery_tryTo_send packet c))
  | handshake kind =>
      exact same rfl (congrArg Machinery.registry (machinery_tryTo_sendHandshake kind c))
  | register a =>
      by_cases admissible : a.IsAdmissible
      · rw [Call.admitted?, if_pos admissible, Call.act, register_of_admissible admissible]
        exact h.insert a
      · rw [Call.admitted?, if_neg admissible, (register_of_not_admissible admissible c).2,
          Option.toList_none, List.append_nil]
        exact h

/-- Nobody but the application registers anything. -/
theorem StepsBy.keeps (share : StepsBy now i happening c d) (h : c.registry.Keeps table) :
    d.registry.Keeps (table ++ (happening.admitted? i).toList) := by
  have same (unasked : happening.admitted? i = none) (registry : d.registry = c.registry) :
      d.registry.Keeps (table ++ (happening.admitted? i).toList) := by
    rw [unasked, registry, Option.toList_none, List.append_nil]
    exact h
  cases share with
  | rests unasked =>
      refine same ?_ rfl
      cases happening with
      | call j call => exact if_neg (of_decide_eq_false unasked)
      | _ => rfl
  | inbound runs step => exact same (runs ▸ rfl) (registry_inboundStep step)
  | outbound runs step => exact same (runs ▸ rfl) (onward_outboundStep step).registry
  | @called call asks =>
      rw [asks, Happening.admitted?, if_pos rfl]
      exact keeps_call h call
  | acted runs _ machinery => exact same (runs ▸ rfl) (congrArg Machinery.registry machinery)

end Connection

namespace World

/-- What is noted of each happening alone. -/
theorem annals_toList {α : Type} (kind : Happening → Option α) (w : World)
    (happenings : List Happening) :
    annals (fun _ happening => (kind happening).toList) w happenings =
      happenings.filterMap kind := by
  induction happenings generalizing w with
  | nil => rfl
  | cons happening happenings ih =>
      rw [annals, ih, List.filterMap_cons]
      cases kind happening <;> rfl

/-- What a connection knows after a run. -/
theorem Reachable.keeps {w : World} (reached : w.Reachable) {i : Nat} {c : Connection}
    (here : w.conns[i]? = some c) {table : List Announcement} (h : c.registry.Keeps table)
    (happenings : List Happening) : ∃ d, (w.performAll happenings).conns[i]? = some d ∧
      d.registry.Keeps (table ++ happenings.filterMap (·.admitted? i)) := by
  rw [← annals_toList (·.admitted? i) w]
  refine reached.annals (P := fun _ past c => c.registry.Keeps past) here h ?_ happenings
  intro w happening past c d e _ _ _ share tended keeps
  obtain ⟨source, sink, rfl⟩ := tended.eq
  exact share.keeps keeps

end World

open Connection World

/-- What the packet types are after any announcements. A registry by itself takes every honest one,
whatever its id, and refuses the others without a change; what can be asked of it is what the honest
ones say, the last of each id, behind the control packets if it began with them. A connection is set
up only if no announcement is refused. In every run it knows the control packets, what it was set up
with and the admissible announcements of the calls, and no call puts anything else behind a reserved
id. -/
theorem registry_of_announcements :
    -- A registry by itself.
    (∀ announcements : List Announcement,
      (Registry.empty.tellAll announcements).Reflects (announcements.filter (·.IsHonest)) ∧
      (Registry.control.tellAll announcements).Reflects
        (Announcement.control ++ announcements.filter (·.IsHonest)) ∧
      ∀ r ∈ [Registry.empty, Registry.control], ∀ id packet,
        (r.tellAll announcements).create id = some packet → packet.id = id) ∧
    (∀ (r : Registry) (a : Announcement),
      (a.IsHonest → r.register a.id a.name a.prototype = .ok (r.tell a)) ∧
      (¬ a.IsHonest → r.tell a = r ∧
        r.register a.id a.name a.prototype = .error (.idMismatch a.name a.id a.prototype.id))) ∧
    -- The start of a connection.
    (∀ opening : Session.Opening,
      (∃ setup, Session.setup opening = .ok setup ∧
        (∀ a ∈ opening.registrations, a.IsAdmissible) ∧
        setup.registry.Reflects (Announcement.control ++ opening.registrations)) ∨
      ∃ before a after, opening.registrations = before ++ a :: after ∧
        (∀ b ∈ before, b.IsAdmissible) ∧ ¬ a.IsAdmissible ∧
        Session.setup opening = .error (.registration a.refusal)) ∧
    -- Its runs.
    (∀ (w : World) (opening : Session.Opening) (setup : Connection.Setup)
      (happenings : List Happening), w.Reachable → Session.setup opening = .ok setup →
      let i := w.conns.length
      let own := opening.registrations ++ happenings.filterMap (·.admitted? i)
      ∃ c, ((w.perform (.start opening)).performAll happenings).conns[i]? = some c ∧
        c.registry.Reflects (Announcement.control ++ own) ∧ (∀ a ∈ own, a.IsAdmissible) ∧
        (∀ id packet, c.registry.create id = some packet → packet.id = id) ∧
        c.registry.create (-1) = some (.handshake .request 0) ∧
        c.registry.create (-2) = some .farewell ∧
        c.registry.create (-3) = some (.keepAlive false) ∧
        (∀ id, id < 0 → c.registry.contains id = true → id = -1 ∨ id = -2 ∨ id = -3) ∧
        ∀ a, (a.IsAdmissible → ∃ registry, c.register a = .ok { c with registry }) ∧
          (¬ a.IsAdmissible → c.register a = .error (.registration a.refusal) ∧
            (Call.register a).act c = c)) := by
  refine ⟨fun announcements => ?_, fun r a => ⟨fun honest => ?_, fun lies => ?_⟩,
    fun opening => ?_, ?_⟩
  · have honest : ∀ a ∈ announcements.filter (·.IsHonest), a.IsHonest := by simp
    have empty := (Registry.keeps_empty.tellAll announcements).reflects
    have control := (Registry.keeps_control.tellAll announcements).reflects
    rw [List.nil_append] at empty
    refine ⟨empty, control, fun r member id packet created => ?_⟩
    rcases List.mem_pair.mp member with rfl | rfl
    · exact empty.id_of_create honest created
    · exact control.id_of_create
        (List.forall_mem_append.mpr ⟨fun a => isHonest_of_mem_control, honest⟩) created
  · rw [Registry.tell, r.register_of_honest honest]
    rfl
  · exact ⟨r.tell_of_not_honest lies, r.register_of_not_honest lies⟩
  · rcases Session.setup_cases opening with ⟨setup, given, all, keeps⟩ | refused
    · exact .inl ⟨setup, given, all, keeps.reflects⟩
    · exact .inr refused
  · intro w opening setup happenings reached given i own
    obtain ⟨all, begun⟩ := Session.keeps_setup given
    obtain ⟨c, here, keeps⟩ := (reached.perform (.start opening)).keeps
      (getElem?_perform_start given w) begun happenings
    have own' : ∀ a ∈ own, a.IsAdmissible := by
      refine List.forall_mem_append.mpr ⟨all, fun a member => ?_⟩
      obtain ⟨happening, -, admitted⟩ := List.mem_filterMap.mp member
      exact Happening.isAdmissible_of_admitted? admitted
    have reflects : c.registry.Reflects (Announcement.control ++ own) := by
      rw [List.append_assoc] at keeps
      exact keeps.reflects
    have honest := List.forall_mem_append.mpr
      ⟨fun a => isHonest_of_mem_control, fun a member => (own' a member).2⟩
    obtain ⟨first, second, third, others⟩ := reflects.reserved own'
    exact ⟨c, here, reflects, own', fun id packet => reflects.id_of_create honest, first, second,
      third, others, fun a => ⟨fun admissible => ⟨_, register_of_admissible admissible c⟩,
        fun refused => register_of_not_admissible refused c⟩⟩

/-- A type without fields. -/
def bare (name : String) (id : PacketId) : Announcement :=
  .ofType ⟨name, id, false, []⟩

/-- A prototype that is not what it is declared to be. -/
def liar : Announcement := ⟨"liar", 7, .keepAlive false⟩

/-- A connection with a packet type of its own. -/
def knowing : Session.Opening :=
  { Session.Opening.plain with registrations := [bare "first" 5] }

/-- The application tries to take the id of the close message, lies, and replaces its own type. -/
def attempts : List Happening :=
  [bare "usurper" (-2), liar, bare "second" 5].map fun a => .call 0 (.register a)

theorem registry_of_announcements_attempts :
    (Registry.empty.tellAll [bare "usurper" (-2), liar]).contains (-2) = true ∧
    (Registry.empty.tellAll [bare "usurper" (-2), liar]).size = 1 ∧
    ∃ c, (((World.empty 0).perform (.start knowing)).performAll attempts).conns[0]? = some c ∧
      c.registry.create (-2) = some .farewell ∧ c.registry.contains 7 = false ∧
      c.registry.name? 5 = some "second" ∧ c.registry.size = 4 := by
  obtain ⟨alone, -, -, runs⟩ := registry_of_announcements
  obtain ⟨takes, -, -⟩ := alone [bare "usurper" (-2), liar]
  obtain ⟨setup, given⟩ : ∃ setup, Session.setup knowing = .ok setup := ⟨_, rfl⟩
  have reached : (World.empty 0).Reachable := .empty 0 []
  obtain ⟨c, here, reflects, -, -, -, close, -⟩ :=
    runs (World.empty 0) knowing setup attempts reached given
  have table : knowing.registrations ++ attempts.filterMap (·.admitted? 0) =
      [bare "first" 5, bare "second" 5] := by rfl
  change c.registry.Reflects (Announcement.control ++
    (knowing.registrations ++ attempts.filterMap (·.admitted? 0))) at reflects
  rw [table] at reflects
  refine ⟨(takes.contains _).mpr (by decide), takes.size, c, here, close, ?_, reflects.name 5,
    reflects.size⟩
  rw [← Bool.not_eq_true, reflects.contains]
  decide

end PacketWire
