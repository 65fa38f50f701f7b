import PacketWire.Proofs.Stretch

/-!
# One happening at a time

`Passes` is what a happening can be: a connection goes on by itself, a task takes a stretch,
transports change, a connection or a task is started, or nothing of this. A task that is given up is
left out, since most of what is promised is about tasks that run on.
-/

namespace PacketWire

/-- What registering keeps is true of the registry that a connection is set up with. -/
theorem Session.registry_setup {P : Registry → Prop} (control : P .control)
    (keeps : ∀ (r r' : Registry) (a : Announcement), P r → r.registerType a = .ok r' → P r')
    {opening : Opening} {s : Connection.Setup} (given : setup opening = .ok s) : P s.registry := by
  have all {announcements : List Announcement} {r r' : Registry} (holds : P r)
      (registered : registerAll announcements r = .ok r') : P r' := by
    induction announcements generalizing r with
    | nil =>
        cases registered
        exact holds
    | cons a rest ih =>
        simp only [registerAll] at registered
        split at registered
        · rename_i between first
          exact ih (keeps r between a holds first) registered
        · cases registered
  rw [setup] at given
  split at given
  · rename_i registry registered
    cases given
    exact all control registered
  · cases given

theorem Session.sound_setup {opening : Opening} {s : Connection.Setup}
    (given : setup opening = .ok s) : s.registry.Sound :=
  registry_setup Registry.sound_control (fun _ _ _ sound => sound.registerType) given

theorem Session.config_setup {opening : Opening} {s : Connection.Setup}
    (given : setup opening = .ok s) : s.config = opening.config := by
  rw [setup] at given
  split at given <;> cases given
  rfl

namespace Connection

/-- A connection goes on without a task: one of its loops does, or the application calls it. -/
inductive Alone (now : Nat) (c : Connection) : Connection → Prop
  | inbound {d : Connection} : c.inboundStep now = some d → Alone now c d
  | outbound {d : Connection} : c.outboundStep now = some d → Alone now c d
  | call (call : Call) : Alone now c (call.act c)

end Connection

namespace Task

/-- A task that was not run yet. -/
inductive IsFresh : Task → Prop
  | errands (todo : List Errand) : IsFresh (.running (.errands todo none))
  | collect (conn : Nat) : IsFresh (.collect conn)
  | process (queue : Nat) (resident : Bool) : IsFresh (.running (.process queue resident .claiming))

end Task

/-- The task that takes a stretch, if it need not wait. -/
def Happening.task? : Happening → Option Nat
  | .run (.task k) => some k
  | _ => none

namespace World

open Connection

theorem acts_call (c : Connection) (call : Call) : Acts c none (call.act c) none := by
  cases call with
  | send packet =>
      exact .begins (outcome_tryTo_send packet c)
        (congrArg Machinery.inbound (machinery_tryTo_send packet c))
  | handshake kind =>
      exact .begins (outcome_tryTo_sendHandshake kind c)
        (congrArg Machinery.inbound (machinery_tryTo_sendHandshake kind c))
  | register type =>
      simp only [Call.act, Connection.register]
      split
      · rename_i registry registered
        exact .begins (.calm (.single (.register registered)) rfl) rfl
      · exact .begins (.calm .refl rfl) rfl

theorem tended_transit (transit : Transit) (c : Connection) : Tended c (transit.act c) := by
  cases transit with
  | feed chunk => exact .feed chunk c
  | finish ending => exact .finish ending c
  | weather => exact .weather rfl rfl rfl

/-- What happens, and the task that it may be a stretch of. -/
inductive Passes (w : World) : Option Nat → World → Prop
  | idle {ran : Option Nat} {now : Nat} : Passes w ran { w with now }
  | announces (queue : Nat) : Passes w none (w.modifyQueue queue .announce)
  | alone {i : Nat} {c d : Connection} : w.conns[i]? = some c → Alone w.now c d →
      Passes w none (w.put i c d)
  | works {k : Nat} {job : Job} {w' : World} {task : Task} : w.tasks[k]? = some (.running job) →
      w.jobStep job = some (w', task) →
      Passes w (some k) { w' with tasks := w'.tasks.set k task }
  | tended {conns : List Connection} : TendedAll w.conns conns → Passes w none { w with conns }
  | starts {setup : Setup} {opening : Session.Opening} : Session.setup opening = .ok setup →
      Passes w none (w.start setup)
  | begins {task : Task} : task.IsFresh → Passes w none (w.spawn task)

variable {w w' : World}

theorem passes_step {actor : Actor} (step : w.step actor = some w') :
    Passes w (Happening.run actor).task? w' := by
  cases actor with
  | inbound i =>
      simp only [World.step] at step
      split at step
      · cases step
      · rename_i c here
        obtain ⟨d, stepped, rfl⟩ := Option.map_eq_some_iff.mp step
        exact .alone here (.inbound stepped)
  | outbound i =>
      simp only [World.step] at step
      split at step
      · cases step
      · rename_i c here
        obtain ⟨d, stepped, rfl⟩ := Option.map_eq_some_iff.mp step
        exact .alone here (.outbound stepped)
  | task k =>
      simp only [World.step] at step
      split at step
      · rename_i job here
        obtain ⟨⟨w'', task⟩, stepped, rfl⟩ := Option.map_eq_some_iff.mp step
        exact .works here stepped
      · cases step

theorem passes_perform {happening : Happening} (goesOn : ∀ k, happening ≠ .abort k) :
    Passes w happening.task? (w.perform happening) := by
  cases happening with
  | run actor =>
      simp only [World.perform]
      cases stepped : w.step actor with
      | none => exact .idle
      | some w' => exact passes_step stepped
  | pass span => exact .idle
  | start opening =>
      simp only [World.perform]
      split
      · rename_i setup given
        exact .starts given
      · exact .idle
  | errands todo => exact .begins (.errands todo)
  | collect i => exact .begins (.collect i)
  | process k resident => exact .begins (.process k resident)
  | abort k => exact absurd rfl (goesOn k)
  | announce k => exact .announces k
  | call i call =>
      simp only [World.perform, onConn]
      split
      · exact .idle
      · rename_i c here
        exact .alone here (.call call)
  | transit i transit => exact .tended (.modify (tended_transit transit) i _)
  | carry source target count => exact .tended (.modify (.feed _) target _)

end World

end PacketWire
