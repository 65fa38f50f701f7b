import PacketWire.Peer.EchoServer.Exchange
import PacketWire.Peer.LineClient.Exchange
import PacketWire.Settings

/-!
# The program

The outer layer: it reads the settings file and the standard input, and hands both to the library
as values. The standard streams are also the transport. A line client takes its lines from the
input and writes what it sends to the output; an echo server takes what one client sends from the
input and writes its answer to the output. One can be piped into the other.
-/

namespace PacketWire

/-- All of the standard input. -/
partial def readInput (input : IO.FS.Stream) (before : ByteArray) : IO ByteArray := do
  let chunk ← input.read 65536
  if chunk.isEmpty then return before else readInput input (before ++ chunk)

/-- The bytes of a file, if it can be read. -/
def readFile (path : String) : IO (Option Bytes) := do
  try return some (← IO.FS.readBinFile path).toList
  catch _ => return none

def write (bytes : Bytes) : IO Unit := do
  let output ← IO.getStdout
  output.write (ByteArray.mk bytes.toArray)
  output.flush

/-- Runs a peer over the standard streams. -/
def runPeer (settings : Settings) (input : Bytes) : IO (Except PeerError Unit) := do
  match settings.mode with
  | .listen address =>
    match SocketAddress.parse? address with
    | none => return .error .listenAddress
    | some _ =>
      write (EchoServer.answer settings.connection settings.deferred input)
      return .ok ()
  | .connect address =>
    match LineClient.transmission address settings.connection input with
    | none => return .error .unreachable
    | some outcome =>
      write outcome.received
      return outcome.result

/-- The exit code of a command line that is refused. -/
def usageCode : UsageError → UInt32
  | .helpRequested | .versionRequested => 0
  | _ => 2

end PacketWire

open PacketWire in
def main (words : List String) : IO UInt32 := do
  let content ← match CommandLine.parse words with
    | .ok { config := some path, .. } => readFile path
    | _ => pure none
  match Settings.load words fun _ => content with
  | .error e =>
    IO.eprintln e.message
    return match e with
      | .usage cause => usageCode cause
      | _ => 1
  | .ok settings =>
    match ← runPeer settings (← readInput (← IO.getStdin) ByteArray.empty).toList with
    | .ok () => return 0
    | .error e =>
      IO.eprintln e.message
      return 1
