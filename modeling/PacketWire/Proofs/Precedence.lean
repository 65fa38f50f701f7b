import PacketWire.Settings

/-!
# Command line over file over default

A setting is looked for on the command line, then in the document that the command line names, and
has its default where neither gives it. `GivenSettings` is what a document gives, setting by
setting; a document that was accepted gives every setting that stands in it, since none is of the
wrong kind. The level of the log is the one setting whose default cannot be asked for by name.
-/

namespace PacketWire

open Toml

namespace Toml.Value

variable {α : Type} {v : Value} {name : String} {position : Nat} {default a : α}
  {decode : Value → Option α}

/-- What a section gives under a name, or at a position: nothing where nothing stands there, else
what `decode` makes of it. -/
def Finds (part : Option Value) (name : String) (position : Nat) (decode : Value → Option α)
    (value : Option α) : Prop :=
  (part.bind (·.setting? name position)).map decode = value.map some

/-- A setting that was accepted is the one that the section gives, or else the default. -/
theorem exists_finds (h : v.setting name position default decode = some a) :
    ∃ value, Finds (some v) name position decode value ∧ a = value.getD default := by
  simp only [Finds, Option.bind_some]
  rw [setting] at h
  cases found : v.setting? name position with
  | none =>
      rw [found, Option.elim_none] at h
      exact ⟨none, rfl, (Option.some.inj h).symm⟩
  | some value =>
      rw [found, Option.elim_some] at h
      exact ⟨some a, congrArg some h, rfl⟩

/-- The same for a setting that has no default. -/
theorem finds_of_optional {a : Option α}
    (h : v.setting name position none (some <$> decode ·) = some a) :
    Finds (some v) name position decode a := by
  rw [setting] at h
  rw [Finds, Option.bind_some]
  cases found : v.setting? name position with
  | none =>
      rw [found, Option.elim_none] at h
      rw [← Option.some.inj h]
      rfl
  | some value =>
      rw [found, Option.elim_some] at h
      obtain ⟨b, decoded, rfl⟩ := Option.map_eq_some_iff.mp h
      exact congrArg some decoded

/-- A section that is missing is as good as one that gives nothing. -/
theorem part_of_setting {P : Option Value → α → Prop}
    (h : v.setting name position default decode = some a) (missing : P none default)
    (present : ∀ part b, decode part = some b → P (some part) b) :
    P (v.setting? name position) a := by
  rw [setting] at h
  cases found : v.setting? name position with
  | none =>
      rw [found, Option.elim_none] at h
      exact Option.some.inj h ▸ missing
  | some part =>
      rw [found, Option.elim_some] at h
      exact present part a h

end Toml.Value

open Value

/-- The settings of a connection that a section gives. -/
structure GivenConnection where
  protocolVersion : Option Int32 := none
  idleTimeout : Option Nat := none
  autoKeepAlive : Option Bool := none
  transport : Option TransportKind := none
  immediateFlush : Option Bool := none
  notifyControl : Option Bool := none
  maxFrameLength : Option Nat := none

namespace GivenConnection

structure In (part : Option Value) (g : GivenConnection) : Prop where
  protocolVersion : Finds part "protocol_version" 0 int32? g.protocolVersion
  idleTimeout : Finds part "idle_timeout_ms" 1 nat? g.idleTimeout
  autoKeepAlive : Finds part "auto_keep_alive" 2 truth? g.autoKeepAlive
  transport : Finds part "transport" 3 transport? g.transport
  immediateFlush : Finds part "immediate_flush" 4 truth? g.immediateFlush
  notifyControl : Finds part "notify_control_packets" 5 truth? g.notifyControl
  maxFrameLength : Finds part "max_frame_length" 6 nat? g.maxFrameLength

/-- With the defaults for what is not given. -/
def complete (g : GivenConnection) : ConnectionConfig :=
  let default : ConnectionConfig := {}
  { protocolVersion := g.protocolVersion.getD default.protocolVersion
    idleTimeout := g.idleTimeout.getD default.idleTimeout
    autoKeepAlive := g.autoKeepAlive.getD default.autoKeepAlive
    transport := g.transport.getD default.transport
    immediateFlush := g.immediateFlush
    notifyControl := g.notifyControl.getD default.notifyControl
    maxFrameLength := g.maxFrameLength.getD default.maxFrameLength }

theorem exists_of_ofSection? {v : Value} {c : ConnectionConfig}
    (h : ConnectionConfig.ofSection? v = some c) :
    ∃ g : GivenConnection, g.In (some v) ∧ c = g.complete := by
  obtain ⟨-, -, rest⟩ := Option.bind_eq_some_iff.mp h
  simp only [Option.bind_eq_bind, Option.bind_eq_some_iff, Option.pure_def,
    Option.some.injEq] at rest
  obtain ⟨_, h₁, _, h₂, _, h₃, _, h₄, flush, h₅, _, h₆, _, h₇, rfl⟩ := rest
  obtain ⟨version, atVersion, rfl⟩ := exists_finds h₁
  obtain ⟨idle, atIdle, rfl⟩ := exists_finds h₂
  obtain ⟨keepAlive, atKeepAlive, rfl⟩ := exists_finds h₃
  obtain ⟨transport, atTransport, rfl⟩ := exists_finds h₄
  obtain ⟨notify, atNotify, rfl⟩ := exists_finds h₆
  obtain ⟨length, atLength, rfl⟩ := exists_finds h₇
  exact ⟨⟨version, idle, keepAlive, transport, flush, notify, length⟩, ⟨atVersion, atIdle,
    atKeepAlive, atTransport, finds_of_optional h₅, atNotify, atLength⟩, rfl⟩

end GivenConnection

/-- What a document gives. -/
structure GivenSettings where
  listen : Option String := none
  connect : Option String := none
  deferred : Option Bool := none
  connection : GivenConnection := {}
  logLevel : Option String := none

namespace GivenSettings

structure In (root : Value) (g : GivenSettings) : Prop where
  listen : Finds (root.setting? "peer" 0) "listen" 0 text? g.listen
  connect : Finds (root.setting? "peer" 0) "connect" 1 text? g.connect
  deferred : Finds (root.setting? "peer" 0) "deferred" 2 truth? g.deferred
  connection : g.connection.In (root.setting? "connection" 1)
  logLevel : Finds (root.setting? "logging" 2) "level" 0 text? g.logLevel

/-- What the section about the peer says: the addresses it gives, and whether delivery is
deferred. -/
theorem exists_of_peer? {v : Value} {peer : Option String × Option String × Bool}
    (h : FileSettings.peer? v = some peer) : Finds (some v) "listen" 0 text? peer.1 ∧
      Finds (some v) "connect" 1 text? peer.2.1 ∧
      ∃ deferred, Finds (some v) "deferred" 2 truth? deferred ∧
        peer.2.2 = deferred.getD false := by
  have read : ∃ listen connect deferred,
      v.setting "listen" 0 none (some <$> ·.text?) = some listen ∧
      v.setting "connect" 1 none (some <$> ·.text?) = some connect ∧
      v.setting "deferred" 2 false truth? = some deferred ∧ peer = (listen, connect, deferred) := by
    obtain ⟨-, -, rest⟩ := Option.bind_eq_some_iff.mp h
    -- whether the section is an array or not, the same three settings are looked for
    have found : (do
        let listen ← v.setting "listen" 0 none (some <$> ·.text?)
        let connect ← v.setting "connect" 1 none (some <$> ·.text?)
        let deferred ← v.setting "deferred" 2 false truth?
        return (listen, connect, deferred)) = some peer := by
      split at rest
      · obtain ⟨_, -, found⟩ := Option.bind_eq_some_iff.mp rest
        exact found
      · exact rest
    obtain ⟨listen, first, found⟩ := Option.bind_eq_some_iff.mp found
    obtain ⟨connect, second, found⟩ := Option.bind_eq_some_iff.mp found
    obtain ⟨deferred, third, found⟩ := Option.bind_eq_some_iff.mp found
    cases found
    exact ⟨listen, connect, deferred, first, second, third, rfl⟩
  obtain ⟨listen, connect, deferred, first, second, third, rfl⟩ := read
  exact ⟨finds_of_optional first, finds_of_optional second, exists_finds third⟩

theorem finds_of_logLevel? {v : Value} {level : Option String}
    (h : FileSettings.logLevel? v = some level) : Finds (some v) "level" 0 text? level := by
  obtain ⟨-, -, rest⟩ := Option.bind_eq_some_iff.mp h
  exact finds_of_optional rest

/-- What a file says is what its document gives. -/
theorem exists_of_ofDocument? {root : Value} {file : FileSettings}
    (h : FileSettings.ofDocument? root = some file) : ∃ g : GivenSettings, g.In root ∧
      file = ⟨g.listen, g.connect, g.deferred.getD false, g.connection.complete, g.logLevel⟩ := by
  simp only [FileSettings.ofDocument?, Option.bind_eq_bind, Option.bind_eq_some_iff,
    Option.pure_def, Option.some.injEq] at h
  obtain ⟨⟨listen, connect, _⟩, peer, _, section₂, level, section₃, rfl⟩ := h
  obtain ⟨first, second, deferred, third, rfl⟩ := part_of_setting
    (P := fun part (peer : Option String × Option String × Bool) =>
      Finds part "listen" 0 text? peer.1 ∧ Finds part "connect" 1 text? peer.2.1 ∧
      ∃ deferred, Finds part "deferred" 2 truth? deferred ∧ peer.2.2 = deferred.getD false)
    peer ⟨rfl, rfl, none, rfl, rfl⟩ fun _ _ => exists_of_peer?
  obtain ⟨connection, tied, rfl⟩ := part_of_setting
    (P := fun part c => ∃ g : GivenConnection, g.In part ∧ c = g.complete)
    section₂ ⟨{}, ⟨rfl, rfl, rfl, rfl, rfl, rfl, rfl⟩, rfl⟩
    fun _ _ => GivenConnection.exists_of_ofSection?
  have logged := part_of_setting (P := fun part level => Finds part "level" 0 text? level)
    section₃ rfl fun _ _ => finds_of_logLevel?
  exact ⟨⟨listen, connect, deferred, connection, level⟩, ⟨first, second, third, tied, logged⟩, rfl⟩

end GivenSettings

namespace CommandLine

/-- At most one of the two addresses stands on a command line that is accepted. -/
theorem parse_exclusive {words : List String} {line : CommandLine}
    (h : parse words = .ok line) : line.listen = none ∨ line.connect = none := by
  simp only [parse, bind, Except.bind] at h
  split at h
  · cases h
  · split at h
    · cases h
    · split at h
      · cases h
      · rename_i apart
        cases h
        cases listen : CommandLine.listen _ <;> cases connect : CommandLine.connect _ <;> simp_all

end CommandLine

namespace Settings

/-- The text of the file that a command line names; where it names none, the empty text. -/
def textOf (line : CommandLine) (read : String → Option Bytes) : Option String :=
  match line.config with
  | none => some ""
  | some path => (read path).bind fun bytes => (Utf8.decode bytes).toOption

/-- A file is taken in if it can be read and is accepted as a whole. -/
theorem fileOf_eq_ok {line : CommandLine} {read : String → Option Bytes} {file : FileSettings} :
    fileOf line read = .ok file ↔ (textOf line read).bind FileSettings.parse? = some file := by
  rw [fileOf, textOf]
  cases line.config with
  | none => simp
  | some path =>
      dsimp only
      cases read path with
      | none => simp
      | some bytes =>
          dsimp only [Option.bind_some]
          cases Utf8.decode bytes with
          | error cause => simp [Except.toOption]
          | ok text =>
              dsimp only [Except.toOption, Option.bind_some]
              cases FileSettings.parse? text <;> simp

/-- Settings are made of an accepted command line and an accepted file, and of nothing else. -/
theorem load_eq_ok {words : List String} {read : String → Option Bytes} {s : Settings} :
    load words read = .ok s ↔ ∃ line file, CommandLine.parse words = .ok line ∧
      (textOf line read).bind FileSettings.parse? = some file ∧ s = merge line file := by
  rw [load]
  cases CommandLine.parse words with
  | error cause =>
      constructor
      · intro impossible
        cases impossible
      · rintro ⟨_, _, impossible, -⟩
        cases impossible
  | ok line =>
      change (do return merge line (← fileOf line read)) = .ok s ↔ _
      simp only [← fileOf_eq_ok, Except.ok.injEq, exists_and_left, exists_eq_left']
      cases fileOf line read <;> simp [bind, Except.bind, pure, Except.pure, eq_comm]

end Settings

open Settings

variable {words : List String} {line : CommandLine} {read : String → Option Bytes} {text : String}
  {root : Value}

/-- Where the settings come from, for every command line that is accepted and every file whose
document is: there are settings, and what is on the command line wins over what the document gives,
and that over the default. An address on the command line decides the mode whatever the file says;
of two addresses in the file the one to connect to does. The two switches are on where either source
turns them on, and the rest of a connection's settings are the file's. The level of the log is the
exception: the default level on the command line does not win over the file. -/
theorem precedence_of_load (accepted : CommandLine.parse words = .ok line)
    (named : textOf line read = some text) (written : Toml.parse text = some root)
    (valid : (FileSettings.ofDocument? root).isSome = true) :
    ∃ (s : Settings) (g : GivenSettings), load words read = .ok s ∧ g.In root ∧
      (∀ address, line.connect = some address → s.mode = .connect address) ∧
      (∀ address, line.listen = some address → s.mode = .listen address) ∧
      (line.connect = none → line.listen = none →
        (∀ address, g.connect = some address → s.mode = .connect address) ∧
        (g.connect = none → s.mode = .listen (g.listen.getD defaultAddress))) ∧
      s.deferred = (line.deferred || g.deferred.getD false) ∧
      s.connection = { g.connection.complete with
        protocolVersion := (line.protocolVersion.or g.connection.protocolVersion).getD
          ({} : ConnectionConfig).protocolVersion
        idleTimeout := (line.idleTimeout.or g.connection.idleTimeout).getD
          ({} : ConnectionConfig).idleTimeout
        autoKeepAlive := line.keepAlive || g.connection.autoKeepAlive.getD false } ∧
      (line.logLevel ≠ some defaultLogLevel →
        s.logLevel = (line.logLevel.or g.logLevel).getD defaultLogLevel) ∧
      (line.logLevel = some defaultLogLevel → s.logLevel = g.logLevel.getD defaultLogLevel) := by
  obtain ⟨file, stated⟩ := Option.isSome_iff_exists.mp valid
  obtain ⟨g, given, rfl⟩ := GivenSettings.exists_of_ofDocument? stated
  have parsed : (textOf line read).bind FileSettings.parse? = some
      ⟨g.listen, g.connect, g.deferred.getD false, g.connection.complete, g.logLevel⟩ := by
    rw [named, Option.bind_some, FileSettings.parse?, written]
    exact stated
  refine ⟨_, g, load_eq_ok.mpr ⟨line, _, accepted, parsed, rfl⟩, given, ?_, ?_, ?_, rfl, ?_, ?_, ?_⟩
  · intro address connects
    simp [merge, modeOf, connects]
  · intro address listens
    have alone : line.connect = none :=
      (CommandLine.parse_exclusive accepted).resolve_left (by simp [listens])
    simp [merge, modeOf, listens, alone]
  · intro unconnected unheard
    refine ⟨fun address connects => ?_, fun nowhere => ?_⟩
    · simp [merge, modeOf, unconnected, unheard, connects]
    · simp [merge, modeOf, unconnected, unheard, nowhere]
  · cases version : line.protocolVersion <;> cases idle : line.idleTimeout <;>
      simp [merge, GivenConnection.complete, version, idle]
  · intro other
    cases level : line.logLevel with
    | none => simp [merge, logLevelOf, level]
    | some level' =>
        have differs : level' ≠ defaultLogLevel := by simpa [level] using other
        simp [merge, logLevelOf, level, differs]
  · intro same
    simp [merge, logLevelOf, same]

/-- A settings file that asks for an address to connect to and for another level of the log. -/
def debugFile : String :=
  "[peer]\nconnect = \"file:1\"\n[logging]\nlevel = \"debug\"\n"

/-- The default level on the command line does not win over the level in the file. -/
theorem not_precedence_debugFile :
    (CommandLine.parse ["-c", "f", "--log-level", "info"]).toOption.bind (·.logLevel) =
      some "info" ∧
    (load ["-c", "f", "--log-level", "info"] fun _ => some debugFile.toUTF8.toList).toOption.map
      (·.logLevel) = some "debug" := by
  decide +kernel

/-- Another level does, and so does an address to listen at over one to connect to. -/
theorem precedence_debugFile : ∃ s,
    load ["-c", "f", "-k", "-l", "here:2", "--log-level", "trace"]
      (fun _ => some debugFile.toUTF8.toList) = .ok s ∧
    s.mode = .listen "here:2" ∧ s.connection.autoKeepAlive = true ∧ s.logLevel = "trace" := by
  let line : CommandLine :=
    { config := some "f", listen := some "here:2", keepAlive := true, logLevel := some "trace" }
  have accepted :
      CommandLine.parse ["-c", "f", "-k", "-l", "here:2", "--log-level", "trace"] = .ok line := rfl
  have named : textOf line (fun _ => some debugFile.toUTF8.toList) = some debugFile := by
    decide +kernel
  obtain ⟨root, written⟩ : ∃ root, Toml.parse debugFile = some root :=
    Option.isSome_iff_exists.mp (by decide +kernel)
  have valid : (FileSettings.parse? debugFile).isSome = true := by decide +kernel
  simp only [FileSettings.parse?, written, Option.bind_eq_bind, Option.bind_some] at valid
  obtain ⟨s, g, loaded, -, -, listens, -, -, connection, level, -⟩ :=
    precedence_of_load accepted named written valid
  refine ⟨s, loaded, listens "here:2" rfl, ?_, level (by decide)⟩
  rw [connection]
  rfl

end PacketWire
