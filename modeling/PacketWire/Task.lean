import PacketWire.WorkQueue

/-!
# Tasks of callers

Closing a connection, waiting for its loops, taking its queued packets and draining a work queue
are activities that may have to wait. Each is a task: a job with the place it has reached, or the
outcome it ended with.
-/

namespace PacketWire

/-- What a caller does with one connection. -/
inductive Errand where
  | close (conn : Nat)
  | join (conn : Nat)
  deriving DecidableEq, Repr

def Errand.conn : Errand → Nat
  | close conn => conn
  | join conn => conn

/-- A close that handing on a packet has to wait for; the packet is shown after it. -/
structure Suspension where
  conn : Nat
  packet : Packet
  wait : CloseWait

/-- How far the queued packets of one connection have been taken. -/
inductive Collecting where
  | starting
  | dispatching (todo : List WorkUnit) (got : List Packet)
  | suspended (suspension : Suspension) (todo : List WorkUnit) (got : List Packet)

/-- How far the claimant of a work queue is. -/
inductive Processing where
  | claiming
  | looking
  | waiting
  | suspended (suspension : Suspension)
  /-- Nothing is left to do until another connection is accepted. -/
  | awaitingPeer

inductive Job where
  /-- Errands in order, with what the first of them waits for once it has begun. -/
  | errands (todo : List Errand) (wait : Option CloseWait)
  | collect (conn : Nat) (progress : Collecting)
  /-- Draining a work queue, once or, if resident, whenever there are connections. -/
  | process (queue : Nat) (resident : Bool) (progress : Processing)

inductive Outcome where
  /-- The errands are done; the state is that of the connection of the last one. -/
  | reached (state : Option Lifecycle)
  | packets (got : Option (List Packet))
  | processed (result : Except Error Unit)
  | aborted

inductive Task where
  | running (job : Job)
  | ended (outcome : Outcome)

namespace Task

def close (conn : Nat) : Task := .running (.errands [.close conn] none)

def join (conn : Nat) : Task := .running (.errands [.join conn] none)

def collect (conn : Nat) : Task := .running (.collect conn .starting)

def process (queue : Nat) : Task := .running (.process queue false .claiming)

/-- The task of a server that drains its work queue for as long as it runs. -/
def processor (queue : Nat) : Task := .running (.process queue true .claiming)

def outcome? : Task → Option Outcome
  | running _ => none
  | ended outcome => some outcome

end Task

end PacketWire
