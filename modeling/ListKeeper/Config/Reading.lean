import ListKeeper.Config
import ListKeeper.Settings.Setting

/-! Reading a configuration from settings. A record is a table of its parts by their names, or a
list of them in their order; a part that is missing has its standard value where it has one.
`Reading` says how plain values are read: exactly as they stand, or with the conversions that
settings allow. -/
namespace ListKeeper

/-- How plain values are read. A closed reading allows no more items in a list than there are
parts. -/
structure Reading where
  bool? : Setting → Option Bool
  count? : Setting → Option UInt64
  text? : Setting → Option String
  closed : Bool

namespace Setting

def exactBool? : Setting → Option Bool
  | .bool b => some b
  | _ => none

def exactCount? : Setting → Option UInt64
  | .int n => countOfInt? n
  | _ => none

def exactText? : Setting → Option String
  | .text s => some s
  | _ => none

end Setting

namespace Reading

/-- Nothing is converted. -/
def exact : Reading := ⟨Setting.exactBool?, Setting.exactCount?, Setting.exactText?, true⟩

def lenient : Reading := ⟨Setting.toBool?, Setting.toCount?, Setting.toText?, false⟩

/-- The parts of a record. Where it is a list, so many of them must be there. -/
def parts? (r : Reading) (required : Nat) (names : List String) : Setting →
    Option (List (Option Setting))
  | .table fields => some (names.map (Setting.get? fields))
  | .list items =>
    if items.length < required || (r.closed && names.length < items.length) then none
    else some ((List.range names.length).map fun i => items[i]?)
  | _ => none

def orStandard {α : Type} (standard : α) (read? : Setting → Option α) : Option Setting → Option α
  | none => some standard
  | some v => read? v

def optionalText? (r : Reading) : Setting → Option (Option String)
  | .nil => some none
  | v => (r.text? v).map some

def address? (r : Reading) (v : Setting) : Option SocketAddress :=
  (r.text? v).bind SocketAddress.ofText?

def sync? (r : Reading) (v : Setting) : Option SyncSettings := do
  match ← r.parts? 0 ["enabled", "filter_dir", "update_interval_hours", "extension"] v with
  | [enabled, dir, hours, extension] =>
    some
      { enabled := ← orStandard SyncSettings.standard.enabled r.bool? enabled
        dir := ← orStandard SyncSettings.standard.dir r.text? dir
        hours := ← orStandard SyncSettings.standard.hours r.count? hours
        extension := ← orStandard SyncSettings.standard.extension r.text? extension }
  | _ => none

def http? (r : Reading) (v : Setting) : Option HttpSettings := do
  let names := ["connect_timeout_secs", "request_timeout_secs", "user_agent", "proxy_url"]
  match ← r.parts? 4 names v with
  | [connectTimeout, requestTimeout, userAgent, proxy] =>
    some
      { connectTimeout := ← orStandard HttpSettings.standard.connectTimeout r.count? connectTimeout
        requestTimeout := ← orStandard HttpSettings.standard.requestTimeout r.count? requestTimeout
        userAgent := ← orStandard HttpSettings.standard.userAgent r.text? userAgent
        proxy := ← orStandard HttpSettings.standard.proxy r.optionalText? proxy }
  | _ => none

def server? (r : Reading) (v : Setting) : Option ServerSettings := do
  match ← r.parts? 0 ["bind_addr"] v with
  | [address] =>
    some { address := ← orStandard ServerSettings.standard.address r.address? address }
  | _ => none

def filter? (r : Reading) (v : Setting) : Option FilterSpec := do
  match ← r.parts? 4 ["id", "enabled", "name", "url"] v with
  | [id, enabled, name, url] =>
    some
      { id := ← r.count? (← id)
        enabled := ← orStandard true r.bool? enabled
        name := ← r.text? (← name)
        url := ← r.text? (← url) }
  | _ => none

def filters? (r : Reading) : Setting → Option (List FilterSpec)
  | .list items => items.mapM r.filter?
  | _ => none

def config? (r : Reading) (v : Setting) : Option Config := do
  match ← r.parts? 0 ["sync", "http", "server", "filters"] v with
  | [sync, http, server, filters] =>
    some
      { sync := ← orStandard .standard r.sync? sync
        http := ← orStandard .standard r.http? http
        server := ← orStandard .standard r.server? server
        filters := ← orStandard [] r.filters? filters }
  | _ => none

end Reading
end ListKeeper
