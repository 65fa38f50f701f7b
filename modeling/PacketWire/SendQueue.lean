import PacketWire.Packet

/-!
# Packets waiting to be sent

Many producers push, only the outbound loop pops. Beside the packets the queue counts those that
were pushed and are not yet accounted for, which includes the one that the outbound loop is
writing, and it holds the wake-up of a push that nobody has waited for yet.
-/

namespace PacketWire

structure SendQueue where
  packets : List Packet
  unaccounted : Nat
  signalled : Bool

namespace SendQueue

def empty : SendQueue := ⟨[], 0, false⟩

def push (packet : Packet) (q : SendQueue) : SendQueue :=
  ⟨q.packets ++ [packet], q.unaccounted + 1, true⟩

/-- The oldest packet and the queue without it. It stays unaccounted for until `written`. -/
def pop? (q : SendQueue) : Option (Packet × SendQueue) :=
  match q.packets with
  | [] => none
  | packet :: packets => some (packet, { q with packets })

/-- Accounts for a popped packet. -/
def written (q : SendQueue) : SendQueue :=
  { q with unaccounted := q.unaccounted - 1 }

/-- Drops what is still queued. -/
def clear (q : SendQueue) : SendQueue :=
  { q with packets := [], unaccounted := q.unaccounted - q.packets.length }

/-- Takes the wake-up. -/
def hear (q : SendQueue) : SendQueue :=
  { q with signalled := false }

def size (q : SendQueue) : Nat := q.packets.length

def isEmpty (q : SendQueue) : Bool := q.packets.isEmpty

/-- Whether every pushed packet is accounted for. -/
def isDrained (q : SendQueue) : Bool := q.unaccounted == 0

@[simp] theorem packets_push (packet : Packet) (q : SendQueue) :
    (q.push packet).packets = q.packets ++ [packet] := rfl

@[simp] theorem unaccounted_push (packet : Packet) (q : SendQueue) :
    (q.push packet).unaccounted = q.unaccounted + 1 := rfl

@[simp] theorem packets_written (q : SendQueue) : q.written.packets = q.packets := rfl

@[simp] theorem packets_clear (q : SendQueue) : q.clear.packets = [] := rfl

@[simp] theorem packets_hear (q : SendQueue) : q.hear.packets = q.packets := rfl

@[simp] theorem unaccounted_hear (q : SendQueue) : q.hear.unaccounted = q.unaccounted := rfl

end SendQueue

end PacketWire
