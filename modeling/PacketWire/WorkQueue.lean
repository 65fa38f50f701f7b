import PacketWire.Connection.Basic

/-!
# The work queue

Connections with deferred delivery put what they receive on a work queue, which any number of
them may share. One claimant at a time drains it in the order of arrival; a caller may also take
out everything that belongs to one connection.

The queue counts the connections attached to it that are not yet closed, since as long as there
are any the claimant has to wait for more. It holds two wake-ups: `signalled` for the claimant,
when a unit arrives or a connection closes, and `arrived` for a processor that waits for another
connection after all have closed.
-/

namespace PacketWire

/-- An event and the connection it arrived on. Connections are known by their number, in the order
in which they were started. -/
structure WorkUnit where
  conn : Nat
  event : Event

structure WorkQueue where
  units : List WorkUnit
  attached : Nat
  claimed : Bool
  signalled : Bool
  arrived : Bool

namespace WorkQueue

def empty : WorkQueue := ⟨[], 0, false, false, false⟩

def push (unit : WorkUnit) (q : WorkQueue) : WorkQueue :=
  { q with units := q.units ++ [unit], signalled := true }

/-- A connection starts to use the queue. -/
def attach (q : WorkQueue) : WorkQueue :=
  { q with attached := q.attached + 1 }

/-- A connection that uses the queue is closed. -/
def detach (q : WorkQueue) : WorkQueue :=
  { q with attached := q.attached - 1, signalled := true }

/-- Takes out the units of one connection; the others keep their order. -/
def takeFor (conn : Nat) (q : WorkQueue) : List WorkUnit × WorkQueue :=
  let (mine, others) := q.units.partition (·.conn = conn)
  (mine, { q with units := others })

/-- Tells the processor that a connection was accepted. -/
def announce (q : WorkQueue) : WorkQueue :=
  { q with arrived := true }

def release (q : WorkQueue) : WorkQueue :=
  { q with claimed := false }

@[simp] theorem units_push (unit : WorkUnit) (q : WorkQueue) :
    (q.push unit).units = q.units ++ [unit] := rfl

@[simp] theorem units_attach (q : WorkQueue) : q.attach.units = q.units := rfl

@[simp] theorem units_detach (q : WorkQueue) : q.detach.units = q.units := rfl

@[simp] theorem units_release (q : WorkQueue) : q.release.units = q.units := rfl

end WorkQueue

end PacketWire
