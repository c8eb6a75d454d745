import ListKeeper.Config.Reading
import ListKeeper.Json

/-! Configurations as documents. They are read exactly as they stand, with the standard values for
what is missing. -/
namespace ListKeeper

namespace FilterSpec

def ofJson? (v : Json) : Option FilterSpec := Reading.exact.filter? (v.toSetting .int)

def toJson (f : FilterSpec) : Json :=
  .obj
    [("id", .ofId f.id), ("enabled", .bool f.enabled), ("name", .str f.name), ("url", .str f.url)]

end FilterSpec

namespace SyncSettings

def toJson (s : SyncSettings) : Json :=
  .obj
    [("enabled", .bool s.enabled), ("filter_dir", .str s.dir),
      ("update_interval_hours", .ofId s.hours), ("extension", .str s.extension)]

end SyncSettings

namespace HttpSettings

def toJson (h : HttpSettings) : Json :=
  .obj
    [("connect_timeout_secs", .ofId h.connectTimeout),
      ("request_timeout_secs", .ofId h.requestTimeout), ("user_agent", .str h.userAgent),
      ("proxy_url", match h.proxy with
        | some p => .str p
        | none => .null)]

end HttpSettings

namespace ServerSettings

def toJson (s : ServerSettings) : Json := .obj [("bind_addr", .str s.address.text)]

end ServerSettings

namespace Config

def ofJson? (v : Json) : Option Config := Reading.exact.config? (v.toSetting .int)

def toJson (c : Config) : Json :=
  .obj
    [("sync", c.sync.toJson), ("http", c.http.toJson), ("server", c.server.toJson),
      ("filters", .arr (c.filters.map FilterSpec.toJson))]

end Config
end ListKeeper
