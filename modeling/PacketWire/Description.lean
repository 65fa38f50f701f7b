import PacketWire.Text.Quoted
import PacketWire.WorkQueue

/-!
# Short descriptions for diagnostics

A connection, a work queue and a registry each have a one-line description that shows what a
reader of a log needs to tell it from others.
-/

namespace PacketWire

/-- Fields with their values, behind the name of what has them. -/
def describeFields (name : String) (fields : List (String × String)) : String :=
  name ++ " \x7b " ++ ", ".intercalate (fields.map fun (field, value) => field ++ ": " ++ value)
    ++ " \x7d"

def describeBool (b : Bool) : String := if b then "true" else "false"

def Lifecycle.describe : Lifecycle → String
  | active => "Open"
  | closing => "Closing"
  | closed => "Closed"

def Connection.describe (c : Connection) : String :=
  describeFields "Connection"
    [("name", Quoted.quote c.name), ("state", c.state.describe),
      ("version_approved", describeBool c.versionApproved), ("deferred", describeBool c.isDeferred)]

def WorkQueue.describe (q : WorkQueue) : String :=
  describeFields "ProcessingQueue"
    [("len", toString q.units.length), ("open_connections", toString q.attached),
      ("claimed", describeBool q.claimed)]

/-- The ids with the names they are registered under. -/
def Registry.describe (r : Registry) : String :=
  "\x7b" ++ ", ".intercalate
    (r.entries.map fun entry =>
      toString entry.id.toInt ++ ": " ++ Quoted.quote entry.name) ++ "\x7d"

end PacketWire
