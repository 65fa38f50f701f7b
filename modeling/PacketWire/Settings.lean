import PacketWire.CommandLine
import PacketWire.Settings.File

/-!
# Settings of a peer

A peer listens or connects. Its settings come from the command line, from a file that the command
line may name, and from defaults, in this order: what the command line gives counts, then what
the file gives. Two switches can only be turned on, so they are on where either source has them.
The level of the log is an exception: the default level on the command line counts as none given.
-/

namespace PacketWire

/-- What a peer does, and at which address. -/
inductive Mode where
  | listen (address : String)
  | connect (address : String)
  deriving DecidableEq, Repr

structure Settings where
  mode : Mode
  deferred : Bool
  connection : ConnectionConfig
  logLevel : String
  deriving DecidableEq, Repr

/-- Why there are no settings. -/
inductive LoadError where
  | usage (cause : UsageError)
  | unreadable (path : String)
  | malformed (path : String)
  deriving DecidableEq, Repr

namespace LoadError

def message : LoadError → String
  | usage cause => cause.message
  | unreadable path => s!"Failed to read config file '{path}'"
  | malformed path => s!"Failed to parse config file '{path}'"

end LoadError

namespace Settings

def defaultAddress : String := "127.0.0.1:7400"

def defaultLogLevel : String := "info"

/-- The role: an address on the command line overrides the file, and of two addresses in the file
the one to connect to counts. -/
def modeOf (line : CommandLine) (file : FileSettings) : Mode :=
  match line.connect, line.listen, file.connect with
  | some address, _, _ => .connect address
  | none, some address, _ => .listen address
  | none, none, some address => .connect address
  | none, none, none => .listen (file.listen.getD defaultAddress)

/-- The level of the log. The default level cannot be told from none given. -/
def logLevelOf (line : CommandLine) (file : FileSettings) : String :=
  let given := line.logLevel.getD defaultLogLevel
  if given ≠ defaultLogLevel then given else file.logLevel.getD defaultLogLevel

def merge (line : CommandLine) (file : FileSettings) : Settings where
  mode := modeOf line file
  deferred := line.deferred || file.deferred
  connection := { file.connection with
    protocolVersion := line.protocolVersion.getD file.connection.protocolVersion
    idleTimeout := line.idleTimeout.getD file.connection.idleTimeout
    autoKeepAlive := line.keepAlive || file.connection.autoKeepAlive }
  logLevel := logLevelOf line file

/-- What the file that a command line names says; `read` gives the bytes of a file, if it can be
read. -/
def fileOf (line : CommandLine) (read : String → Option Bytes) : Except LoadError FileSettings :=
  match line.config with
  | none => .ok {}
  | some path =>
    match read path with
    | none => .error (.unreadable path)
    | some bytes =>
      match Utf8.decode bytes with
      | .error _ => .error (.unreadable path)
      | .ok text => (FileSettings.parse? text).elim (.error (.malformed path)) .ok

/-- The settings that the words of a command line, and the file it names, make. -/
def load (words : List String) (read : String → Option Bytes) : Except LoadError Settings := do
  let line ← (CommandLine.parse words).mapError .usage
  return merge line (← fileOf line read)

example (read : String → Option Bytes) : load [] read = .ok (merge {} {}) := rfl

end Settings

end PacketWire
