import PacketWire.Schedule

/-!
# Scripted sessions

A session drives connections over transports in memory, command by command, and reports after
each command what can be seen: the hooks that ran, what every connection shows of itself and what
it flushed, the tasks that ended, and the work queues.

After a command everything runs until it waits. Where a connection is then closing, the clock
moves on by one look at its send queue, so that a close which nothing holds up is over by the end
of the command that began it.
-/

namespace PacketWire

namespace Session

/-- How a connection of a session is set up. -/
structure Opening where
  name : String
  config : ConnectionConfig
  listener : Option Listener
  delivery : Delivery
  registrations : List Announcement

/-- What a session is told to do. -/
inductive Command where
  | recv (conn : Nat) (chunks : List Bytes)
  | finish (conn : Nat) (ending : Ending)
  | failWrites (conn : Nat) (cause : TransportError)
  | failFlushes (conn : Nat) (cause : TransportError)
  | grant (conn : Nat) (room : Option Nat)
  | send (conn : Nat) (packets : List Packet)
  | handshake (conn : Nat) (kind : HandshakeKind)
  | register (conn : Nat) (type : Announcement)
  | close (conn : Nat) (times : Nat)
  | join (conn : Nat)
  | collect (conn : Nat)
  | process (queue : Nat)
  | abort (command : Nat)
  | advance (span : Nat)
  | look

/-- The kinds of task that a command starts. -/
inductive TaskKind where
  | close
  | join
  | collect
  | process
  deriving DecidableEq, Repr

/-- A task with the number of the command that started it. -/
structure Launch where
  command : Nat
  kind : TaskKind
  task : Nat

end Session

structure Session where
  schedule : Schedule
  commands : Nat
  launches : List Session.Launch
  linked : Bool

namespace Session

/-- What a connection shows of itself after a command. -/
structure ConnectionReport where
  connection : Connection
  /-- The groups flushed during the command. -/
  out : List Bytes
  /-- What was taken behind the last flush, if the sink was let go of during the command. -/
  tail : Bytes

/-- A task that ended. -/
structure Ended where
  command : Nat
  kind : TaskKind
  outcome : Outcome

/-- What can be seen after a command. -/
structure Report where
  hooks : List HookRecord
  connections : List ConnectionReport
  /-- The results of calls that return at once. -/
  results : List (Except Error Unit)
  ended : List Ended
  queues : List WorkQueue

/-- Registers packet types in order, as long as that goes well. -/
def registerAll : List Announcement → Registry → Except RegistrationError Registry
  | [], r => .ok r
  | a :: rest, r =>
    match r.registerType a with
    | .ok r => registerAll rest r
    | .error cause => .error cause

/-- The settings of a connection, unless a packet type is refused. -/
def setup (o : Opening) : Except Error Connection.Setup :=
  match registerAll o.registrations .control with
  | .ok registry =>
    .ok {
      name := o.name, config := o.config, listener := o.listener, delivery := o.delivery
      registry }
  | .error cause => .error (.registration cause)

/-- Starts connections in order, up to the first that is refused. Outside an executor none can
be started. -/
def openAll (executor : Bool) : List Opening → Schedule → List (Except Error Opening) × Schedule
  | [], s => ([], s)
  | o :: rest, s =>
    match setup o with
    | .error e => ([.error e], s)
    | .ok setup =>
      if executor then
        let (opened, s) := openAll executor rest (s.change (s.world.start setup))
        (.ok o :: opened, s)
      else ([.error .noRuntime], s)

/-- A new session and, for every connection, whether it was started. -/
def begin (openings : List Opening) (linked : Bool) (queues : Nat) (executor : Bool) :
    List (Except Error Opening) × Session :=
  let (opened, schedule) := openAll executor openings (.empty queues)
  let wires := if linked then [(0, 1), (1, 0)] else []
  (opened,
    { schedule := { schedule with world := { schedule.world with wires } }
      commands := 0
      launches := []
      linked })

/-- Sends packets in order, whatever becomes of the ones before. -/
def sendAll : List Packet → Connection → List (Except Error Unit) × Connection
  | [], c => ([], c)
  | packet :: packets, c =>
    let (result, c) := Connection.attempt (c.send packet) c
    let (results, c) := sendAll packets c
    (result :: results, c)

/-- Changes the world; actors that this wakes become ready. -/
def changeWorld (f : World → World) (s : Session) : Session :=
  { s with schedule := s.schedule.change (f s.schedule.world) }

/-- Starts tasks for the current command. -/
def launch (kind : TaskKind) (task : Task) (times : Nat) (s : Session) : Session :=
  let first := s.schedule.world.tasks.length
  let launches := (List.range times).map fun i => ⟨s.commands, kind, first + i⟩
  { s.changeWorld (fun w => { w with tasks := w.tasks ++ List.replicate times task }) with
    launches := s.launches ++ launches }

/-- Lets a connection do something that has results. -/
def call {α : Type} (i : Nat) (f : Connection → List α × Connection) (s : Session) :
    List α × Session :=
  match s.schedule.world.conns[i]? with
  | none => ([], s)
  | some c =>
    let (results, after) := f c
    (results, s.changeWorld (·.put i c after))

/-- Changes the transport of a connection. -/
def onTransport (i : Nat) (f : Connection → Connection) (s : Session) : Session :=
  s.changeWorld (·.modifyConn i f)

/-- One call with one result. -/
def single (f : Connection → Except Error Connection) (c : Connection) :
    List (Except Error Unit) × Connection :=
  let (result, c) := Connection.attempt (f c) c
  ([result], c)

/-- Carries out a command, without letting anybody run. -/
def command (s : Session) : Command → List (Except Error Unit) × Session
  | .recv i chunks =>
    ([], s.onTransport i fun c => { c with source := chunks.foldl (fun f b => f.feed b) c.source })
  | .finish i ending => ([], s.onTransport i fun c => { c with source := c.source.finish ending })
  | .failWrites i cause =>
    ([], s.onTransport i fun c => { c with sink := { c.sink with writeFailure := some cause } })
  | .failFlushes i cause =>
    ([], s.onTransport i fun c => { c with sink := { c.sink with flushFailure := some cause } })
  | .grant i room => ([], s.onTransport i fun c => { c with sink := { c.sink with room } })
  | .send i packets => s.call i (sendAll packets)
  | .handshake i kind => s.call i (single (·.sendHandshake kind))
  | .register i type => s.call i (single (·.register type))
  | .close i times => ([], s.launch .close (.close i) times)
  | .join i => ([], s.launch .join (.join i) 1)
  | .collect i => ([], s.launch .collect (.collect i) 1)
  | .process queue => ([], s.launch .process (.process queue) 1)
  | .abort command =>
    ([], s.changeWorld fun w =>
      (s.launches.filter (·.command = command)).foldl (fun w l => w.abort l.task) w)
  | .advance span => ([], { s with schedule := s.schedule.advance span })
  | .look => ([], s)

/-- The order in which hooks are reported: as they ran, but of linked connections those of the
first one before those of the second. -/
def reportOrder (linked : Bool) (hooks : List HookRecord) : List HookRecord :=
  if linked then hooks.filter (·.conn = 0) ++ hooks.filter (·.conn ≠ 0) else hooks

/-- The groups of a command as they are reported: one by one where that can be told, else as a
whole. -/
def reportGroups (oneByOne : Bool) (groups : List Bytes) : List Bytes :=
  if oneByOne then groups
  else if groups.isEmpty then []
  else [groups.flatten]

/-- What a connection shows of itself, given what it was before the command. -/
def reportConnection (addressed : Bool) (before after : Connection) : ConnectionReport :=
  { connection := after
    out := reportGroups (addressed || after.config.flushEach)
      (after.sink.groups.drop before.sink.groups.length)
    tail :=
      if before.sink.released.isNone && after.sink.released.isSome then after.sink.unflushed
      else [] }

/-- Whether a command sends from a connection. -/
def addresses (i : Nat) : Command → Bool
  | .send conn _ => conn = i
  | _ => false

/-- The tasks that ended between two worlds. -/
def reportEnded (launches : List Launch) (before after : World) : List Ended :=
  launches.filterMap fun l =>
    match (before.tasks[l.task]?).bind (·.outcome?), (after.tasks[l.task]?).bind (·.outcome?) with
    | none, some outcome => some ⟨l.command, l.kind, outcome⟩
    | _, _ => none

/-- Carries out a command, lets everything run, and reports. -/
def run (c : Command) (s : Session) : Report × Session :=
  let before := s.schedule.world
  let (results, s) := s.command c
  let schedule := s.schedule.rest
  let after := schedule.world
  let fresh := (after.trace.take (after.trace.length - before.trace.length)).reverse
  let report : Report :=
    { hooks := reportOrder s.linked fresh
      connections := (before.conns.zip after.conns).mapIdx fun i (b, a) =>
        reportConnection (addresses i c) b a
      results
      ended := reportEnded s.launches before after
      queues := after.queues }
  (report, { s with schedule, commands := s.commands + 1 })

/-- The reports of commands carried out one after the other. -/
def runAll : List Command → Session → List Report
  | [], _ => []
  | c :: cs, s =>
    let (report, s) := s.run c
    report :: runAll cs s

end Session

end PacketWire
