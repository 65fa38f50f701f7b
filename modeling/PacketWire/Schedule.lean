import PacketWire.World

/-!
# One actor at a time

A schedule runs the actors of a world one at a time. The one in front goes on until it has to
wait; whatever its stretches make ready runs after those that were ready before, in the order in
which it began to wait. The clock stands still while anybody is ready and then moves to the next
point in time at which somebody goes on by itself.

This is one of the interleavings of `World.step`, and nothing but that: `advance` takes steps of
the world and lets time pass.
-/

namespace PacketWire

/-- A world with its ready actors, the next one first, and its waiting ones, the one that has
waited longest first. -/
structure Schedule where
  world : World
  ready : List Actor
  waiting : List Actor

namespace Schedule

def empty (queues : Nat) : Schedule := ⟨.empty queues, [], []⟩

/-- Whether an actor has nothing more to do. -/
def isOver (w : World) : Actor → Bool
  | .inbound i => (w.conns[i]?.map (·.hasFinished .inbound)).getD true
  | .outbound i => (w.conns[i]?.map (·.hasFinished .outbound)).getD true
  | .task index => ((w.tasks[index]?.bind (·.outcome?)).map fun _ => true).getD false

/-- The actors of one world that another, earlier one did not have: the loops of new connections
and new tasks. -/
def newActors (before after : World) : List Actor :=
  ((List.range' before.conns.length (after.conns.length - before.conns.length)).flatMap
    fun i => [.inbound i, .outbound i]) ++
  (List.range' before.tasks.length (after.tasks.length - before.tasks.length)).map .task

/-- Puts a changed world in place: waiting actors that can go on become ready, and so do new
ones. -/
def change (w : World) (s : Schedule) : Schedule :=
  let (woken, waiting) := s.waiting.partition fun actor => (w.step actor).isSome
  { world := w, ready := s.ready ++ woken ++ newActors s.world w, waiting }

/-- Lets the actor in front run for one stretch, or wait. -/
def turn (actor : Actor) (rest : List Actor) (s : Schedule) : Schedule :=
  match s.world.step actor with
  | some w => { s with ready := actor :: rest }.change w
  | none =>
    { s with
      ready := rest
      waiting := if isOver s.world actor then s.waiting else s.waiting ++ [actor] }

/-- Runs until nobody is ready, for at most `fuel` turns. -/
def settleFor : (fuel : Nat) → Schedule → Schedule
  | 0, s => s
  | fuel + 1, s =>
    match s.ready with
    | [] => s
    | actor :: rest => settleFor fuel (s.turn actor rest)

/-- More turns than any exchange takes that comes to an end. -/
def patience : Nat := 1 <<< 40

/-- Runs until nobody is ready. -/
def settle (s : Schedule) : Schedule := settleFor patience s

/-- Sets the clock and runs until nobody is ready. -/
def settleAt (now : Nat) (s : Schedule) : Schedule :=
  (s.change { s.world with now }).settle

/-- The next point in time after `now` at which somebody goes on by itself. -/
def nextWake? (now : Nat) (s : Schedule) : Option Nat :=
  ((s.waiting.filterMap s.world.wake?).filter (now < ·)).min?

/-- Lets the clock run from `now` to `target`. -/
def runUntil (target now : Nat) (s : Schedule) : Schedule :=
  let s := s.settleAt now
  match s.nextWake? now with
  | none => s.settleAt target
  | some wake =>
    if _h : now < wake ∧ wake ≤ target then runUntil target wake s
    else s.settleAt target
termination_by target - now

/-- Lets a span of time pass. Everything that falls due up to its end happens. -/
def advance (span : Nat) (s : Schedule) : Schedule :=
  s.runUntil (s.world.now + span) s.world.now

/-- Runs until everybody waits, and a little further while a connection is closing: up to its next
look at the send queue. -/
def rest (s : Schedule) : Schedule :=
  let s := s.settle
  if s.world.conns.any (·.state = .closing) then s.advance Connection.closePoll else s

/-- Runs until everybody waits, through as many closes in a row. -/
def restThrough : (closes : Nat) → Schedule → Schedule
  | 0, s => s.rest
  | closes + 1, s => restThrough closes s.rest

end Schedule

end PacketWire
