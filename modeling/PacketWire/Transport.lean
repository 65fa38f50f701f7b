import PacketWire.Error

/-!
# The transport below a connection

A connection reads from a `Source` and writes to a `Sink`. Both are passive: what the other end
does with them (more input, more room, a failure) is a change made from outside, so every
behaviour of a transport is some sequence of such changes.

A source delivers what it was fed in the chunks it was fed in, then its end, once it has one.
A sink takes bytes as far as its room goes and keeps what it took: the groups that a flush
closed, and the bytes behind the last of them.
-/

namespace PacketWire

/-- How an input ends. -/
inductive Ending where
  | endOfStream
  | failure (cause : TransportError)
  deriving DecidableEq, Repr

structure Source where
  /-- What has not been read yet. -/
  chunks : List Bytes
  ending : Option Ending
  /-- All bytes that it was ever fed. -/
  fed : Bytes
  deriving DecidableEq, Repr

namespace Source

def empty : Source := ⟨[], none, []⟩

/-- Adds input behind what is there. -/
def feed (chunk : Bytes) (s : Source) : Source :=
  { s with chunks := s.chunks ++ [chunk], fed := s.fed ++ chunk }

/-- Fixes how the input ends; the first ending stays. -/
def finish (ending : Ending) (s : Source) : Source :=
  { s with ending := s.ending.or (some ending) }

end Source

/-- How a sink was let go of: after its shutdown, or without reaching that. -/
inductive Release where
  | shutdown
  | dropped
  deriving DecidableEq, Repr

structure Sink where
  /-- How many more bytes are taken; without a limit if there is none. -/
  room : Option Nat
  writeFailure : Option TransportError
  flushFailure : Option TransportError
  flushStalls : Bool
  shutdownStalls : Bool
  groups : List Bytes
  unflushed : Bytes
  released : Option Release
  deriving DecidableEq, Repr

/-- The answer of a sink to bytes that it is offered. -/
inductive Offer where
  | taken (count : Nat) (sink : Sink)
  | blocked
  | failed (cause : TransportError)
  deriving DecidableEq, Repr

/-- The answer of a sink to a flush. -/
inductive Flush where
  | done (sink : Sink)
  | blocked
  | failed (cause : TransportError)
  deriving DecidableEq, Repr

namespace Sink

/-- A sink that takes everything. -/
def unlimited : Sink :=
  { room := none, writeFailure := none, flushFailure := none, flushStalls := false
    shutdownStalls := false, groups := [], unflushed := [], released := none }

/-- Takes the first `count` of some bytes. -/
def accept (count : Nat) (bytes : Bytes) (s : Sink) : Sink :=
  { s with unflushed := s.unflushed ++ bytes.take count, room := s.room.map (· - count) }

/-- Offers bytes; at least one is taken unless there is no room for any. -/
def offer (bytes : Bytes) (s : Sink) : Offer :=
  match s.writeFailure with
  | some cause => .failed cause
  | none =>
    match s.room with
    | none => .taken bytes.length (s.accept bytes.length bytes)
    | some 0 => .blocked
    | some room =>
      let count := min room bytes.length
      .taken count (s.accept count bytes)

/-- Closes the group of the bytes taken since the last flush. -/
def flush (s : Sink) : Flush :=
  match s.flushFailure with
  | some cause => .failed cause
  | none =>
    if s.flushStalls then .blocked
    else .done { s with groups := s.groups ++ [s.unflushed], unflushed := [] }

def release (how : Release) (s : Sink) : Sink :=
  { s with released := some how }

/-- All bytes taken so far. -/
def taken (s : Sink) : Bytes := s.groups.flatten ++ s.unflushed

@[simp] theorem taken_accept (count : Nat) (bytes : Bytes) (s : Sink) :
    (s.accept count bytes).taken = s.taken ++ bytes.take count := by
  simp [taken, accept]

end Sink

end PacketWire
