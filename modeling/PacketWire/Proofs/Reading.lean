import PacketWire.Connection.Dispatch
import PacketWire.Proofs.Framing

/-!
# What a byte string means to a listener

`Reader.read` says what is done for the listeners of a connection that receives a byte string and
then, if it has one, the end of its input. It is a function of these bytes alone: there are no
chunks in it, no time, and no state but what is left to read. Every frame has a `Verdict`, and only
a close message, a failure or the end of the input ends the reading.
-/

namespace PacketWire

/-- What is done for the listeners because of something received. -/
inductive Sight where
  /-- An event is handed to the connection's own listener. -/
  | handed (event : Event)
  /-- The application's listener is called. -/
  | called (call : HookCall)

def Sight.call? : Sight → Option HookCall
  | handed _ => none
  | called call => some call

/-- The event that was handed on. -/
def Sight.event? : Sight → Option Event
  | handed event => some event
  | called _ => none

/-- What becomes of the body of a frame. -/
inductive Verdict where
  | event (event : Event)
  /-- A packet that cannot be read and that nobody needs. -/
  | skip
  | fatal (cause : Error)

/-- All that the meaning of bytes depends on. -/
structure Reader where
  limit : Nat
  registry : Registry
  /-- Whether control packets are shown to the application. -/
  notifyControl : Bool

namespace Reader

open Connection

/-- An unknown id is an event; a known one is if its payload can be read. -/
def judge (r : Reader) (body : Bytes) : Verdict :=
  match Decoder.read .i16 ⟨body⟩ with
  | (.error e, _) => .fatal (.protocolViolation (.other e.message))
  | (.ok id, payload) =>
    match r.registry.create id with
    | none => .event (.unknown id)
    | some prototype =>
      let reading := prototype.decode payload
      match reading.error with
      | none => .event (.packet reading.packet)
      | some cause => if prototype.isCritical then .fatal (.decode id cause) else .skip

/-- A control packet is shown to the application where that was asked for. -/
def shown (r : Reader) (packet : Packet) : List Sight :=
  if r.notifyControl then [.called (.packet packet)] else []

/-- What is done for an event. -/
def sights (r : Reader) : Event → List Sight
  | .unknown id => [.handed (.unknown id), .called (.unknown id)]
  | .packet (.close message) =>
    [.handed (.packet (.close message)), .called (.closed message true)] ++
      r.shown (.close message)
  | .packet packet =>
    .handed (.packet packet) ::
      if Packet.isControl packet.id then r.shown packet else [.called (.packet packet)]

/-- Whether nothing is read after an event. -/
def isLast : Event → Bool
  | .packet (.close _) => true
  | _ => false

/-- The end: a connection is closed, or it fails and is closed because of that. -/
def finale (cause : Error) : List Sight :=
  if cause.isEndOfStream then [.called (.closed endOfStream true)]
  else [.called (.failed cause), .called (.closed cause.message false)]

/-- The error that a read gives at the end of the input. -/
def endCause : Ending → Error
  | .endOfStream => .transport ⟨true, "early eof"⟩
  | .failure cause => .transport cause

/-- What is done for the listeners because of these bytes and the end behind them. -/
def read (r : Reader) (ending : Option Ending) (bytes : Bytes) : List Sight :=
  match _h : Frame.next r.limit bytes with
  | .complete body rest =>
    match r.judge body with
    | .event event => r.sights event ++ if isLast event then [] else r.read ending rest
    | .skip => r.read ending rest
    | .fatal cause => finale cause
  | .illegal why => finale (.protocolViolation why)
  | .incomplete =>
    match ending with
    | none => []
    | some ending => finale (endCause ending)
termination_by bytes.length
decreasing_by all_goals exact Frame.length_lt_of_next _h

theorem sights_packet (r : Reader) {packet : Packet} (goesOn : isLast (.packet packet) = false) :
    r.sights (.packet packet) = .handed (.packet packet) ::
      if Packet.isControl packet.id then r.shown packet else [.called (.packet packet)] := by
  cases packet with
  | close message => cases goesOn
  | handshake => rfl
  | keepAlive => rfl
  | app => rfl

/-- The recursion without what shows that it ends. -/
theorem read_eq (r : Reader) (ending : Option Ending) (bytes : Bytes) :
    r.read ending bytes = match Frame.next r.limit bytes with
      | .complete body rest =>
        match r.judge body with
        | .event event => r.sights event ++ if isLast event then [] else r.read ending rest
        | .skip => r.read ending rest
        | .fatal cause => finale cause
      | .illegal why => finale (.protocolViolation why)
      | .incomplete =>
        match ending with
        | none => []
        | some ending => finale (endCause ending) := by
  rw [read.eq_def]
  split <;> rename_i h <;> rw [h]

variable {r : Reader} {bytes body rest : Bytes}

/-- A frame is judged when it is complete, whatever comes behind it. -/
theorem read_append_of_complete (h : Frame.next r.limit bytes = .complete body rest)
    (ending : Option Ending) (more : Bytes) :
    r.read ending (bytes ++ more) = match r.judge body with
      | .event event =>
        r.sights event ++ if isLast event then [] else r.read ending (rest ++ more)
      | .skip => r.read ending (rest ++ more)
      | .fatal cause => finale cause := by
  rw [read_eq, Frame.next_append_of_complete h]

theorem read_append_of_illegal {why : Violation} (h : Frame.next r.limit bytes = .illegal why)
    (ending : Option Ending) (more : Bytes) :
    r.read ending (bytes ++ more) = finale (.protocolViolation why) := by
  rw [read_eq, Frame.next_append_of_illegal h]

theorem read_of_incomplete (h : Frame.next r.limit bytes = .incomplete) (ending : Option Ending) :
    r.read ending bytes = match ending with
      | none => []
      | some ending => finale (endCause ending) := by
  rw [read_eq, h]

end Reader

end PacketWire
