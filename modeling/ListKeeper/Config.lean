import ListKeeper.Entry
import ListKeeper.Network.SocketAddress

/-! The configuration of the program, with the values that hold where nothing is set. Main
definitions: `Config`, and the period of the refreshes, as a length of sleep and as a distance
between deadlines. -/
namespace ListKeeper

structure SyncSettings where
  enabled : Bool
  dir : String
  hours : UInt64
  extension : String
  deriving DecidableEq

/-- How lists are requested; both limits are in seconds. -/
structure HttpSettings where
  connectTimeout : UInt64
  requestTimeout : UInt64
  userAgent : String
  proxy : Option String
  deriving DecidableEq

structure ServerSettings where
  address : SocketAddress
  deriving DecidableEq

structure Config where
  sync : SyncSettings
  http : HttpSettings
  server : ServerSettings
  filters : List FilterSpec
  deriving DecidableEq

namespace SyncSettings

/-- A list is refreshed once a day. -/
def standard : SyncSettings := ⟨true, "data/filters", 24, "txt"⟩

/-- The length of the sleep between two passes in seconds. It stops at the largest 64-bit number. -/
def sleepSeconds (s : SyncSettings) : UInt64 :=
  if s.hours.toNat * 3600 < 18446744073709551616 then s.hours * 3600 else 18446744073709551615

/-- The most seconds that a span in whole milliseconds can hold. -/
def maxSpanSeconds : Nat := 9223372036854775

def period (s : SyncSettings) : Span :=
  if s.sleepSeconds.toNat ≤ maxSpanSeconds then .ofSeconds s.sleepSeconds.toNat else .longest

end SyncSettings

namespace HttpSettings

def standard : HttpSettings := ⟨10, 60, "filtersync/0.1.0", none⟩

end HttpSettings

namespace ServerSettings

/-- The status is served on the machine itself. -/
def standard : ServerSettings := ⟨.v4 ⟨127, 0, 0, 1⟩ 8089⟩

end ServerSettings

namespace Config

def standard : Config := ⟨.standard, .standard, .standard, []⟩

end Config
end ListKeeper
