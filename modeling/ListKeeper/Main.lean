import ListKeeper.Command
import ListKeeper.Operation
import ListKeeper.Service
import ListKeeper.Wire
import Std.Async.DNS
import Std.Async.Signal
import Std.Async.TCP
import Std.Async.Timer
import Std.Time.DateTime.Timestamp

/-! The program. It carries out what the service announces: files are changed, requests are sent,
the status is served, and a signal ends the loop. Nothing is decided here. Of the formats of
configuration files TOML and JSON are read. -/
namespace ListKeeper
namespace Program

open Std.Async

/-! ## Surroundings -/

def workingPath : IO Path := return (← IO.currentDir).components.filter (· ≠ "")

def failureOf (e : IO.Error) : IoError :=
  match e with
  | .noFileOrDirectory .. => .notFound
  | .alreadyExists .. => .alreadyExists
  | e => .other (toString e)

def environment : IO Environment := do
  let block ← try IO.FS.readBinFile "/proc/self/environ" catch _ => pure .empty
  let entries := (pieces (· == 0) block.toList).map fun e => (Utf8.decodeLossy e).span (· != '=')
  return entries.filterMap fun
    | (name, _ :: v) => some (String.ofList name, String.ofList v)
    | (_, []) => none

def look (path : String) : IO Found := do
  if path = "" then return .nothing
  let here := (← IO.currentDir) / path
  if ← here.isDir then return .dir
  try return .file (← IO.FS.readBinFile here).toList
  catch e => return if failureOf e = .notFound then .nothing else .refused

def surroundings (dir : Path) (env : Environment) (paths : List String) : IO Surroundings := do
  let found ← paths.mapM fun p => return (p, ← look p)
  return {
    look := fun p => ((found.find? fun f => f.1 == p).map (·.2)).getD .nothing
    env := env
    cwd := ⟨dir⟩ }

def configuration (dir : Path) (path : Option String) : IO (Except ConfigError Config) := do
  let envFiles := Surroundings.variablePaths dir
  let first ← surroundings dir (← environment) envFiles
  let main := path.getD first.withVariableFile.path
  let beside := Readers.plain.besides.filterMap fun e => Surroundings.withExtension? main e.1
  let s ← surroundings dir first.env (envFiles ++ main :: beside)
  return Service.config? s path

/-! ## Clock and disk -/

def now : IO Instant := do
  let t := (← Std.Time.Timestamp.now).toNanosecondsSinceUnixEpoch.val
  return (Instant.ofParts? (t / 1000000000) (t % 1000000000).toNat).getD .latest

def perform (op : FileOp) : IO (Option Fault) := do
  try
    match op with
    | .create path => IO.FS.writeBinFile path .empty
    | .append path more => IO.FS.withFile path .append fun h => h.write ⟨more.toArray⟩
    | .sync path => IO.FS.withFile path .append fun h => h.flush
    | .rename source target => IO.FS.rename source target
    | .remove path => IO.FS.removeFile path
    return none
  catch e => return some ⟨failureOf e, true⟩

/-- The files as far as a service asks for them: those of its lists, in the store's directory. A
file that is there and cannot be read is a matter of the disk. -/
def knownFiles (dir : Path) (c : Config) : IO (FileTree × (UInt64 → Disk)) := do
  let store := Service.store c
  let above := (Surroundings.upwards dir).dropLast.map fun d => (d, Node.dir)
  let (bare, _) := store.ensureDir { nodes := above, cwd := ⟨dir⟩ }
  c.filters.foldlM (fun (t, disks) f => do
    let path := store.pathFor f.id
    let here := (← IO.currentDir) / path
    try
      let content := (← IO.FS.readBinFile here).toList
      let stamp := (← here.metadata).modified
      let modified := (Instant.ofParts? stamp.sec stamp.nsec.toNat).getD .epoch
      return ((t.write path content modified).toOption.getD t, disks)
    catch e =>
      let fault : Fault := ⟨failureOf e, true⟩
      if fault.error = .notFound then return (t, disks)
      else return (t, fun id => if id = f.id then ⟨some fault, 0, .epoch⟩ else disks id))
    (bare, Disk.readsAll)

/-! ## Requests -/

def netAddress (ip : Std.Net.IPAddr) (port : UInt16) : Std.Net.SocketAddress :=
  match ip with
  | .v4 a => .v4 ⟨a, port⟩
  | .v6 a => .v6 ⟨a, port⟩

def netIp4 (ip : Ipv4) : Std.Net.IPv4Addr := .ofParts ip.a ip.b ip.c ip.d

def netIp6 (ip : Ipv6) : Std.Net.IPv6Addr :=
  let g (i : Nat) : UInt16 := ip.groups.getD i 0
  .ofParts (g 0) (g 1) (g 2) (g 3) (g 4) (g 5) (g 6) (g 7)

def resolve (h : Host) : Async (List Std.Net.IPAddr) := do
  match h with
  | .v4 ip => return [.v4 (netIp4 ip)]
  | .v6 ip => return [.v6 (netIp6 ip)]
  | .name s => return (← DNS.getAddrInfo s "").toList

/-- Reads until a reply is complete or the peer has nothing more to say. -/
partial def receive (socket : TCP.Socket.Client) (seen : IO.Ref Bytes) : Async Reply := do
  let more ← socket.recv? 65536
  seen.modify (· ++ (more.map (·.toList)).getD [])
  match Wire.reply? more.isNone (← seen.get) with
  | some r => return r
  | none => if more.isNone then return .nothing else receive socket seen

def exchangeWith (r : Request) (seen : IO.Ref Bytes) : List Std.Net.SocketAddress → Async Reply
  | [] => return .nothing
  | a :: rest => do
    let socket ← TCP.Socket.Client.mk
    let connected : Bool ← try
        socket.connect a
        pure true
      catch _ => pure false
    if connected then
      socket.send ⟨(Wire.requestBytes r).toArray⟩
      receive socket seen
    else exchangeWith r seen rest

/-- Sends a request and waits for its reply, for so many seconds. Encrypted peers are not reached.
-/
def exchange (c : Client) (seconds : UInt64) (r : Request) : Async Reply := do
  let peer := c.proxy.getD r.url
  match peer.authority with
  | none => return .nothing
  | some a =>
    if peer.scheme != "http" || r.url.scheme != "http" then return .nothing
    else
      let seen ← IO.mkRef ([] : Bytes)
      let answered : Async Reply := do
        try
          let port := a.port.getD 80
          exchangeWith r seen ((← resolve a.host).map (netAddress · port))
        catch _ => return .nothing
      let limit : Async Reply := do
        (← Sleep.mk (.ofNat (1000 * seconds.toNat))).wait
        return Wire.lateReply (← seen.get)
      Async.race answered limit

partial def settle (c : Client) (seconds : UInt64) (f : Fetch) : IO Answer := do
  match f with
  | .over outcome => return Client.answer outcome
  | .waiting r redirects =>
    settle c seconds (c.resume r redirects (← (exchange c seconds r).block))

/-! ## The loop of the passes -/

structure Shared where
  system : IO.Ref System
  stop : IO.Ref Bool

partial def nap (shared : Shared) (tenths : Nat) : IO Loop.Call := do
  if ← shared.stop.get then return .shutdown
  else if tenths = 0 then return .wake
  else
    IO.sleep 100
    nap shared (tenths - 1)

def moment (service : Service) (s : System) (r : Refresher) : IO Moment := do
  let chunk := 65535
  let fault ← match r.op? s.store chunk with
    | some op => perform op
    | none => pure none
  let answer ← match r.asks? with
    | some url =>
      settle service.client service.config.http.requestTimeout (service.client.fetch url)
    | none => pure (.failure "")
  return ⟨← now, answer, .ok (), ⟨fault, chunk, ← now⟩⟩

partial def passes (shared : Shared) (service : Service) (l : Loop) : IO Unit := do
  let s ← shared.system.get
  let enabled := service.config.sync.enabled
  match l with
  | .stopped => return
  | .passing r =>
    let m ← moment service s r
    let (s', l') := Loop.step enabled 0 none m s l
    shared.system.set s'
    passes shared service l'
  | .sleeping r =>
    let call ← nap shared (10 * service.config.sync.sleepSeconds.toNat)
    let m : Moment := ⟨← now, .failure "", .ok (), ⟨none, 0, ← now⟩⟩
    let (s', l') := Loop.step enabled 0 (some call) m s (.sleeping r)
    shared.system.set s'
    passes shared service l'

/-! ## The status -/

partial def readHead (socket : TCP.Socket.Client) (acc : Bytes) :
    Async (Option (String × String)) := do
  match Wire.asked? acc with
  | some asked => return some asked
  | none =>
    if 65536 < acc.length then return none
    else match ← socket.recv? 4096 with
      | some more => readHead socket (acc ++ more.toList)
      | none => return none

def attend (shared : Shared) (enabled : Bool) (socket : TCP.Socket.Client) : Async Unit := do
  try
    match ← readHead socket [] with
    | some (method, uri) =>
      let r := Status.respond (← shared.system.get) enabled method uri
      socket.send ⟨(Wire.responseBytes r).toArray⟩
      socket.shutdown
    | none => return
  catch _ => return

partial def attendAll (shared : Shared) (enabled : Bool) (server : TCP.Socket.Server)
    (signals : List Signal.Waiter) : Async Unit := do
  let calls := signals.map fun w => Selectable.case w.selector fun _ => return none
  let guest := Selectable.case server.acceptSelector fun socket => return some socket
  match ← Selectable.one (guest :: calls).toArray with
  | some socket =>
    background (attend shared enabled socket)
    attendAll shared enabled server signals
  | none => return

def bindAddress : SocketAddress → Std.Net.SocketAddress
  | .v4 ip port => .v4 ⟨netIp4 ip, port⟩
  | .v6 ip _ port => .v6 ⟨netIp6 ip, port⟩

def serve (service : Service) (address : SocketAddress) : IO Unit := do
  let shared : Shared := ⟨← IO.mkRef service.system, ← IO.mkRef false⟩
  let loop ← IO.asTask (passes shared service service.loop) .dedicated
  let server ← TCP.Socket.Server.mk
  server.bind (bindAddress address)
  server.listen 128
  let signals ← [Signal.sigterm, Signal.sigint].mapM fun s => Signal.Waiter.mk s false
  (attendAll shared service.config.sync.enabled server signals).block
  shared.stop.set true
  IO.ofExcept (← IO.wait loop)

/-! ## The command -/

def usage : String :=
  "Keeps remote filter lists synchronized to local disk\n\n" ++
    "Usage: run [--config <CONFIG>] [--address <ADDRESS>]\n"

def complain (text : String) : IO UInt32 := do
  IO.eprintln s!"Error: {text}"
  return 1

def run (o : RunOptions) : IO UInt32 := do
  let dir ← workingPath
  match ← configuration dir o.config with
  | .error e => complain e.message
  | .ok c =>
    try
      IO.FS.createDirAll c.sync.dir
      let (files, disks) ← knownFiles dir c
      match Service.start c files disks with
      | (_, .error e) => complain e.message
      | (_, .ok service) =>
        serve service (service.address o.address)
        return 0
    catch e => complain (toString e)

end Program
end ListKeeper

open ListKeeper in
def main (args : List String) : IO UInt32 := do
  match Command.read args with
  | .ok o => Program.run o
  | .error e =>
    if e = .help then IO.print Program.usage else IO.eprint Program.usage
    return e.exitCode
