import LossRelay.CommandLine.Help
import LossRelay.CommandLine.Startup
import LossRelay.Io.Hosts
import Std.Async.DNS
import Std.Async.Select
import Std.Async.Signal
import Std.Async.UDP

/-!
# The program

Reads the command line and the policy file, opens the socket, and feeds what arrives to a session
until it is told to stop.  What is decided is decided by the session; here are only the socket, the
clock and the log.
-/

namespace LossRelay.Program

open Std.Async

def faultOf : IO.Error → IoFault
  | .noFileOrDirectory .. => .noSuchFile
  | e => .described (toString e)

def systemAddress : Endpoint → Std.Net.SocketAddress
  | .v4 ip port => .v4 ⟨⟨#v[ip.a, ip.b, ip.c, ip.d]⟩, port⟩
  | .v6 ip port _ => .v6 ⟨⟨Vector.ofFn fun i => ip.groups.getD i 0⟩, port⟩

/-- An address of the system with a port, as an endpoint without a scope. -/
def endpointAt (port : UInt16) : Std.Net.IPAddr → Endpoint
  | .v4 ⟨octets⟩ => .v4 ⟨octets[0], octets[1], octets[2], octets[3]⟩ port
  | .v6 ⟨segments⟩ => .v6 ⟨segments.toList, Vector.length_toList⟩ port 0

def endpointOf : Std.Net.SocketAddress → Endpoint
  | .v4 ⟨ip, port⟩ => endpointAt port (.v4 ip)
  | .v6 ⟨ip, port⟩ => endpointAt port (.v6 ip)

/-- The port that the system chose, in an endpoint. -/
def withPort (e : Endpoint) (address : Std.Net.SocketAddress) : Endpoint :=
  match e with
  | .v4 ip _ => .v4 ip address.port
  | .v6 ip _ scope => .v6 ip address.port scope

def writeLog (verbose : Bool) (entries : List LogEntry) : IO Unit :=
  for e in entries do
    if Startup.shows verbose e then
      IO.eprintln s!"{e.level.name} {e.message}"

/-- Writes the log and the trace of a session, and forgets what has been written. -/
def writeOut (verbose : Bool) (s : Session AnyPolicy) : IO (Session AnyPolicy) := do
  writeLog verbose s.ledger.log
  let (queue, events) := s.ledger.queue.drain
  writeLog verbose (events.map .traced)
  return { s with ledger := { s.ledger with log := [], queue }, attempts := [] }

/-- The next datagram and where it came from, or `none` for the order to stop. -/
def next (socket : UDP.Socket) (stop : Signal.Waiter) (room : UInt64) :
    Async (Option (ByteArray × Endpoint)) :=
  Selectable.one #[
    .case (socket.recvSelector room) fun (bytes, source) =>
      pure (some (bytes, (source.map endpointOf).getD default)),
    .case stop.selector fun _ => pure none]

def send (socket : UDP.Socket) (remote : Endpoint) (payload : List UInt8) : Async SendOutcome := do
  try
    socket.send ⟨payload.toArray⟩ (some (systemAddress remote))
    return .whole
  catch e => return .fault (faultOf e)

/-- Relays until told to stop, or until the session gives up. -/
partial def loop (socket : UDP.Socket) (stop : Signal.Waiter) (settings : RelaySettings)
    (verbose : Bool) (started : Nat) (s : Session AnyPolicy) :
    Async (Session AnyPolicy × Except RelayError Unit) := do
  let event : Except IoFault (Option (ByteArray × Endpoint)) ←
    try
      let datagram ← next socket stop (settings.payloadLimit + 1)
      pure (.ok datagram)
    catch e => pure (.error (faultOf e))
  match event with
  | .ok none => return (s, .ok ())
  | .ok (some (bytes, source)) =>
    let now ← IO.monoNanosNow
    let (s, toSend) := s.accept settings bytes.toList (.ofNanos (now - started)) source
    let s ← match toSend with
      | some payload => do
        let outcome ← send socket settings.remote payload
        pure (s.conclude settings.remote payload outcome)
      | none => pure s
    let s ← writeOut verbose s.flush
    loop socket stop settings verbose started s
  | .error fault =>
    let s ← writeOut verbose (s.receiveFailed fault)
    if settings.errorLimit ≤ s.streak then return (s, .error (.socketUnusable s.streak fault))
    else loop socket stop settings verbose started s

def fail (e : StartupError) : IO UInt32 := do
  match e.report with
  | some report => IO.eprintln report
  | none => pure ()
  return e.exitStatus

/-- Runs a relay that is ready to listen. -/
def serve (s : Startup) : IO UInt32 := do
  let settings := s.relay.settings
  let socket ← UDP.Socket.mk
  try
    socket.bind (systemAddress settings.listen)
  catch e => return ← fail (.relay (.bind settings.listen (faultOf e)))
  if s.metrics.isSome then
    IO.eprintln (Report.ofChain [(Metrics.Error.setup "no exporter is built in").message])
    return 1
  let listen := withPort settings.listen (← socket.getSockName)
  let stop ← Signal.Waiter.mk .sigint true
  writeLog s.verbose (s.opening listen)
  let started ← IO.monoNanosNow
  let (session, ending) ←
    (loop socket stop settings s.verbose started (s.relay.session [])).block
  match ending with
  | .ok () =>
    writeLog s.verbose (Startup.closing session.ledger.stats)
    return 0
  | .error e => fail (.relay e)

def readFile (path : String) : IO (Except IoFault String) := do
  try
    let content ← IO.FS.readBinFile path
    match String.fromUTF8? content with
    | some text => return .ok text
    | none => return .error .notUtf8
  catch e => return .error (faultOf e)

/-- What looking up a host gives; only a host that is not numeric is asked for. -/
def lookUp (host : String) (port : UInt16) : IO (Except IoFault (List Endpoint)) := do
  match Resolver.numeric host port with
  | .ok found => return .ok found
  | .error _ =>
    try
      let found ← (DNS.getAddrInfo host "").block
      return .ok (found.toList.map (endpointAt port))
    catch e => return .error (faultOf e)

/-- Acts on a command line. -/
def run (args : List String) : IO UInt32 := do
  match Invocation.parse args (← IO.getEnv "FEC_SIEVE_CONFIG") with
  | .error e =>
    if e.exitStatus = 0 then IO.print e.text else IO.eprint e.text
    return e.exitStatus
  | .ok inv =>
    let content ← match inv.flags.config with
      | some path => readFile path
      | none => pure (.error .noSuchFile)
    let found ← match Route.parse inv.route with
      | .ok route => lookUp route.host route.remotePort
      | .error _ => pure (.ok [])
    match Startup.prepare inv (fun _ => content) (fun _ _ => found) with
    | .error e => fail e
    | .ok s => serve s

end LossRelay.Program

def main (args : List String) : IO UInt32 := LossRelay.Program.run args
