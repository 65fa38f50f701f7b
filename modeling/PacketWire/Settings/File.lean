import PacketWire.Connection.Config
import PacketWire.Toml.Document
import PacketWire.Utf8

/-!
# The settings file

A settings file is a document with the sections `peer`, `connection` and `logging`. Names that
mean nothing are passed over and what is missing keeps its default, but a setting that is there
has to be of the right kind and in range. A section is a table, or an array that lists its
settings by position.
-/

namespace PacketWire

namespace Toml.Value

/-- Whether a value can be a section. A point in time counts as one that sets nothing. -/
def isSection : Value → Bool
  | table .. | array .. | datetime => true
  | _ => false

/-- What stands in a section under a name, or in an array at a position. -/
def setting? (name : String) (position : Nat) : Value → Option Value
  | table _ entries => entries.lookup name
  | array _ elements => elements[position]?
  | _ => none

/-- What `decode` makes of a setting, or the default where it is missing. -/
def setting (v : Value) (name : String) (position : Nat) (default : α)
    (decode : Value → Option α) : Option α :=
  (v.setting? name position).elim (some default) decode

def text? : Value → Option String
  | string text => some text
  | _ => none

def truth? : Value → Option Bool
  | boolean truth => some truth
  | _ => none

/-- A whole number of 32 bits with a sign. -/
def int32? : Value → Option Int32
  | integer number =>
    if Int32.minValue.toInt ≤ number ∧ number ≤ Int32.maxValue.toInt then
      some (Int32.ofInt number)
    else none
  | _ => none

def nat? : Value → Option Nat
  | integer number => if 0 ≤ number then some number.toNat else none
  | _ => none

/-- Whether this may hold values and holds none. -/
def isVoid : Value → Bool
  | table _ entries => entries.isEmpty
  | array _ elements => elements.isEmpty
  | _ => false

/-- A kind of transport: its name, or a table in which the name is the only key and leads to
nothing. -/
def transport? : Value → Option TransportKind
  | string name => named name
  | table _ [(name, inner)] => if inner.isVoid then named name else none
  | _ => none
where
  named : String → Option TransportKind
    | "stream" => some .stream
    | "datagram" => some .datagram
    | _ => none

end Toml.Value

open Toml

namespace ConnectionConfig

/-- The settings of a connection that a section holds. -/
def ofSection? (v : Value) : Option ConnectionConfig := do
  guard v.isSection
  let base : ConnectionConfig := {}
  return {
    protocolVersion := ← v.setting "protocol_version" 0 base.protocolVersion Value.int32?
    idleTimeout := ← v.setting "idle_timeout_ms" 1 base.idleTimeout Value.nat?
    autoKeepAlive := ← v.setting "auto_keep_alive" 2 base.autoKeepAlive Value.truth?
    transport := ← v.setting "transport" 3 base.transport Value.transport?
    immediateFlush := ← v.setting "immediate_flush" 4 none (some <$> ·.truth?)
    notifyControl := ← v.setting "notify_control_packets" 5 base.notifyControl Value.truth?
    maxFrameLength := ← v.setting "max_frame_length" 6 base.maxFrameLength Value.nat? }

/-- The settings of a connection that a text writes, with no section around them. -/
def parse? (text : String) : Option ConnectionConfig := do
  ofSection? (← Toml.parse text)

end ConnectionConfig

/-- What a settings file says; `none` where it says nothing and the default is kept elsewhere. -/
structure FileSettings where
  listen : Option String := none
  connect : Option String := none
  deferred : Bool := false
  connection : ConnectionConfig := {}
  logLevel : Option String := none
  deriving DecidableEq, Repr

namespace FileSettings

/-- The role of the peer: where to listen, where to connect, and whether delivery is deferred. An
array has to name both addresses. -/
def peer? (v : Value) : Option (Option String × Option String × Bool) := do
  guard v.isSection
  if let .array _ elements := v then guard (2 ≤ elements.length)
  return (← v.setting "listen" 0 none (some <$> ·.text?),
    ← v.setting "connect" 1 none (some <$> ·.text?),
    ← v.setting "deferred" 2 false Value.truth?)

def logLevel? (v : Value) : Option (Option String) := do
  guard v.isSection
  v.setting "level" 0 none (some <$> ·.text?)

def ofDocument? (root : Value) : Option FileSettings := do
  let (listen, connect, deferred) ← root.setting "peer" 0 (none, none, false) peer?
  return {
    listen, connect, deferred
    connection := ← root.setting "connection" 1 {} ConnectionConfig.ofSection?
    logLevel := ← root.setting "logging" 2 none logLevel? }

/-- The settings that a text writes. -/
def parse? (text : String) : Option FileSettings := do
  ofDocument? (← Toml.parse text)

@[simp] theorem parse?_empty : parse? "" = some {} := by
  decide +kernel

end FileSettings

end PacketWire
