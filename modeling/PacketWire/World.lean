import PacketWire.Connection.Inbound
import PacketWire.Connection.Outbound
import PacketWire.Task

/-!
# Connections side by side

A world holds connections, work queues, tasks and a clock. Its actors are the two loops of every
connection and the tasks; `World.step` lets one of them run for one stretch and gives nothing
where that actor has to wait. All else that may happen, input, room in a transport, calls of the
application and the passing of time, changes the world from outside. Every run is some
interleaving of these.

What a connection did in a stretch is settled at once: events go to its work queue, a close that
a listener wants becomes a task, hooks are added to the trace, and along a wire the flushed bytes
become input of the connection at the other end.
-/

namespace PacketWire

/-- A hook that ran, with the state and the results of what the listener did. -/
structure HookRecord where
  conn : Nat
  call : HookCall
  state : Lifecycle
  results : List (Except Error Unit)

inductive Actor where
  | inbound (conn : Nat)
  | outbound (conn : Nat)
  | task (index : Nat)
  deriving DecidableEq, Repr

structure World where
  now : Nat
  conns : List Connection
  queues : List WorkQueue
  tasks : List Task
  /-- What the first writes, the second reads. -/
  wires : List (Nat × Nat)
  /-- The hooks that ran, latest first. -/
  trace : List HookRecord

namespace World

/-- No connections, and so many work queues. -/
def empty (queues : Nat) : World :=
  ⟨0, [], List.replicate queues .empty, [], [], []⟩

def modifyQueue (queue : Nat) (f : WorkQueue → WorkQueue) (w : World) : World :=
  { w with queues := w.queues.modify queue f }

def modifyConn (i : Nat) (f : Connection → Connection) (w : World) : World :=
  { w with conns := w.conns.modify i f }

/-- Changes the work queue of a connection, if it has one. -/
def modifyQueueOf (c : Connection) (f : WorkQueue → WorkQueue) (w : World) : World :=
  match c.delivery with
  | .inline => w
  | .deferred queue => w.modifyQueue queue f

def spawn (task : Task) (w : World) : World :=
  { w with tasks := w.tasks ++ [task] }

/-- What an entry in the journal of a connection means for its surroundings. -/
def settleEntry (i : Nat) (c : Connection) (w : World) : Entry → World
  | .hook call state results =>
    if c.listener.isSome then { w with trace := ⟨i, call, state, results⟩ :: w.trace } else w
  | .deferred event => w.modifyQueueOf c (·.push ⟨i, event⟩)
  | .detached => w.modifyQueueOf c .detach
  | .closeRequested => w.spawn (.close i)
  | .accepted _ => w
  | .enqueued _ => w
  | .handled _ => w
  | .dispatched _ => w
  | .keepAliveDue _ => w

/-- The entries that a journal gained, first one first. -/
def gained (before after : List Entry) : List Entry :=
  (after.take (after.length - before.length)).reverse

/-- Carries what a connection flushed to the source at the other end of a wire. -/
def carry (before after : Connection) (target : Nat) (w : World) : World :=
  let groups := after.sink.groups.drop before.sink.groups.length
  let w := w.modifyConn target fun c =>
    { c with source := groups.foldl (fun source group => source.feed group) c.source }
  if before.sink.released.isNone && after.sink.released = some .shutdown then
    w.modifyConn target fun c => { c with source := c.source.finish .endOfStream }
  else w

/-- Carries along one wire, if it begins at the connection. -/
def carryAlong (i : Nat) (before after : Connection) (w : World) (wire : Nat × Nat) : World :=
  if wire.1 = i then w.carry before after wire.2 else w

/-- Puts a connection into the place of what it was before, and settles what it did. -/
def put (i : Nat) (before after : Connection) (w : World) : World :=
  let w := { w with conns := w.conns.set i after }
  let w := (gained before.journal after.journal).foldl (settleEntry i after) w
  w.wires.foldl (carryAlong i before after) w

/-- Lets a connection do something. -/
def onConn (i : Nat) (f : Connection → Connection) (w : World) : World :=
  match w.conns[i]? with
  | none => w
  | some c => w.put i c (f c)

/-- Starts a connection. -/
def start (setup : Connection.Setup) (w : World) : World :=
  let c := Connection.start setup w.now
  { w with conns := w.conns ++ [c] }.modifyQueueOf c .attach

/-- One stretch of the first errand: the connection after it and what it waits for then, if it
need not wait now. -/
def errandStep (now : Nat) (c : Connection) :
    Errand → Option CloseWait → Option (Connection × Option CloseWait)
  | .close _, none => some (c.close false now Connection.closedLocally true)
  | .close _, some wait =>
    if c.canProceed now wait then some (c.proceedClose false now wait) else none
  | .join _, none =>
    let (loops, c) := c.takeLoops
    match c.stillRunning loops with
    | [] => some (c, none)
    | loops => some (c, some (.joining loops))
  | .join _, some wait =>
    if c.canProceed now wait then
      match wait with
      | .draining .. => some (c, none)
      | .joining loops =>
        match c.stillRunning loops with
        | [] => some (c, none)
        | loops => some (c, some (.joining loops))
    else none

/-- Hands a unit to the listeners of its connection, up to the wait that this may bring. -/
def dispatchUnit (unit : WorkUnit) (w : World) : World × Option Suspension :=
  match w.conns[unit.conn]? with
  | none => (w, none)
  | some c =>
    let (after, wait) := c.dispatch false w.now unit.event
    (w.put unit.conn c after, wait.map fun (wait, packet) => ⟨unit.conn, packet, wait⟩)

/-- Goes on with a suspended hand-over, if it need not wait. -/
def resume (s : Suspension) (w : World) : Option (World × Option Suspension) :=
  match w.conns[s.conn]? with
  | none => some (w, none)
  | some c =>
    if c.canProceed w.now s.wait then
      match c.proceedClose false w.now s.wait with
      | (after, some wait) => some (w.put s.conn c after, some { s with wait })
      | (after, none) => some (w.put s.conn c (after.showControl s.packet), none)
    else none

/-- The packets of an event: one or none. -/
def eventPackets : Event → List Packet
  | .packet packet => [packet]
  | .unknown _ => []

/-- One stretch of a caller's errands, if it need not wait. -/
def errandsStep (w : World) (wait : Option CloseWait) : List Errand → Option (World × Task)
  | [] => some (w, .ended (.reached none))
  | errand :: todo =>
    match w.conns[errand.conn]? with
    | none => some (w, .running (.errands todo none))
    | some c =>
      match errandStep w.now c errand wait with
      | none => none
      | some (after, some wait) =>
        some (w.put errand.conn c after, .running (.errands (errand :: todo) (some wait)))
      | some (after, none) =>
        let w := w.put errand.conn c after
        if todo.isEmpty then some (w, .ended (.reached (some after.state)))
        else some (w, .running (.errands todo none))

/-- The units of a connection that its work queue holds, taken out of it; nothing where events
are not deferred. -/
def takeUnits (i : Nat) (w : World) : Option (List WorkUnit × World) :=
  match w.conns[i]? with
  | none => none
  | some c =>
    match c.delivery with
    | .inline => none
    | .deferred queue =>
      match w.queues[queue]? with
      | none => none
      | some q => some ((q.takeFor i).1, w.modifyQueue queue fun _ => (q.takeFor i).2)

/-- One stretch of taking a connection's queued packets, if it need not wait. -/
def collectStep (w : World) (i : Nat) : Collecting → Option (World × Task)
  | .starting =>
    match w.takeUnits i with
    | none => some (w, .ended (.packets none))
    | some (units, w) => some (w, .running (.collect i (.dispatching units [])))
  | .dispatching [] got => some (w, .ended (.packets (some got)))
  | .dispatching (unit :: todo) got =>
    match w.dispatchUnit unit with
    | (w, none) =>
      some (w, .running (.collect i (.dispatching todo (got ++ eventPackets unit.event))))
    | (w, some s) => some (w, .running (.collect i (.suspended s todo got)))
  | .suspended s todo got =>
    match w.resume s with
    | none => none
    | some (w, none) => some (w, .running (.collect i (.dispatching todo (got ++ [s.packet]))))
    | some (w, some s) => some (w, .running (.collect i (.suspended s todo got)))

/-- The place of a claimant after a hand-over. -/
def afterUnit : Option Suspension → Processing
  | none => .looking
  | some s => .suspended s

/-- The claimant takes the oldest unit. Without one it waits, or is done once no connection that
could bring more is left. -/
def lookForWork (w : World) (queue : Nat) (resident : Bool) (q : WorkQueue) : World × Task :=
  match q.units with
  | unit :: units =>
    let (w, suspension) := (w.modifyQueue queue ({ · with units })).dispatchUnit unit
    (w, .running (.process queue resident (afterUnit suspension)))
  | [] =>
    if q.attached = 0 then
      (w.modifyQueue queue .release,
        if resident then .running (.process queue resident .awaitingPeer)
        else .ended (.processed (.ok ())))
    else (w, .running (.process queue resident .waiting))

/-- One stretch of draining a work queue, if it need not wait. -/
def processStep (w : World) (queue : Nat) (resident : Bool) (q : WorkQueue) :
    Processing → Option (World × Task)
  | .claiming =>
    if q.claimed then some (w, .ended (.processed (.error .alreadyClaimed)))
    else
      some (w.modifyQueue queue ({ · with claimed := true }),
        .running (.process queue resident .looking))
  | .looking => some (w.lookForWork queue resident q)
  | .waiting =>
    if q.signalled then
      some ((w.modifyQueue queue ({ · with signalled := false })).lookForWork queue resident
        { q with signalled := false })
    else none
  | .suspended s =>
    (w.resume s).map fun (w, suspension) =>
      (w, .running (.process queue resident (afterUnit suspension)))
  | .awaitingPeer =>
    if q.arrived then
      some (w.modifyQueue queue ({ · with arrived := false }),
        .running (.process queue resident .claiming))
    else none

/-- One stretch of a job, if it need not wait. -/
def jobStep (w : World) : Job → Option (World × Task)
  | .errands todo wait => w.errandsStep wait todo
  | .collect i progress => w.collectStep i progress
  | .process queue resident progress =>
    match w.queues[queue]? with
    | none => some (w, .ended (.processed (.ok ())))
    | some q => w.processStep queue resident q progress

/-- One stretch of an actor, if it need not wait. -/
def step (w : World) : Actor → Option World
  | .inbound i =>
    match w.conns[i]? with
    | none => none
    | some c => (c.inboundStep w.now).map (w.put i c)
  | .outbound i =>
    match w.conns[i]? with
    | none => none
    | some c => (c.outboundStep w.now).map (w.put i c)
  | .task index =>
    match w.tasks[index]? with
    | some (.running job) =>
      (w.jobStep job).map fun (w, task) => { w with tasks := w.tasks.set index task }
    | _ => none

/-- Ends a task that is still running. A claim on a work queue is released with it. -/
def abort (index : Nat) (w : World) : World :=
  match w.tasks[index]? with
  | some (.running job) =>
    let w := { w with tasks := w.tasks.set index (.ended .aborted) }
    match job with
    | .process queue _ progress =>
      match progress with
      | .claiming => w
      | .awaitingPeer => w
      | .looking => w.modifyQueue queue .release
      | .waiting => w.modifyQueue queue .release
      | .suspended _ => w.modifyQueue queue .release
    | .errands .. => w
    | .collect .. => w
  | _ => w

/-- When a wait ends by itself. -/
def waitWake? : CloseWait → Option Nat
  | .draining _ wake => some wake
  | .joining _ => none

/-- When a job goes on by itself. -/
def jobWake? : Job → Option Nat
  | .errands _ (some wait) => waitWake? wait
  | .collect _ (.suspended s _ _) => waitWake? s.wait
  | .process _ _ (.suspended s) => waitWake? s.wait
  | _ => none

/-- When an actor goes on by itself. -/
def wake? (w : World) : Actor → Option Nat
  | .inbound i => w.conns[i]?.bind (·.inboundWake?)
  | .outbound i => w.conns[i]?.bind (·.outboundWake?)
  | .task index =>
    match w.tasks[index]? with
    | some (.running job) => jobWake? job
    | _ => none

end World

end PacketWire
