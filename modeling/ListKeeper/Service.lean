import ListKeeper.Client
import ListKeeper.Config.Loading
import ListKeeper.Refreshing

/-! The whole service: from its surroundings to a system with its lists registered, the client it
fetches with, and the loop of its passes. -/
namespace ListKeeper

inductive StartError
  | config (cause : ConfigError)
  | io (cause : IoError)
  | client (cause : ClientError)
  deriving DecidableEq

structure Service where
  config : Config
  client : Client
  system : System
  loop : Loop

namespace StartError

def message : StartError → String
  | config cause => cause.message
  | io cause => cause.message
  | client cause => cause.message

end StartError

namespace Service

def store (c : Config) : Store := ⟨c.sync.dir, c.sync.extension⟩

def up (c : Config) (client : Client) (t : FileTree)
    (disks : UInt64 → Disk := Disk.readsAll) : Service :=
  { config := c
    client := client
    system := (System.fresh (store c) c.sync.period t).load c.filters disks
    loop := .start c.sync.enabled }

/-- Starts a service with a configuration: the directory is made, then the client. What was made
stays when a later step fails. -/
def start (c : Config) (t : FileTree)
    (disks : UInt64 → Disk := Disk.readsAll) :
    FileTree × Except StartError Service :=
  match (store c).ensureDir t with
  | (t', .error e) => (t', .error (.io e))
  | (t', .ok ()) =>
    match Client.make c.http with
    | .error e => (t', .error (.client e))
    | .ok client => (t', .ok (up c client t' disks))

def config? (s : Surroundings) (path : Option String) (r : Readers := .plain) :
    Except ConfigError Config :=
  match path with
  | some p => Config.loadFrom s p r
  | none => Config.load s r

/-- Where the status is served; an address that was asked for comes first. -/
def address (s : Service) (asked : Option SocketAddress) : SocketAddress :=
  asked.getD s.config.server.address

end Service
end ListKeeper
