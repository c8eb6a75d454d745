import ListKeeper.Config

/-! What a configuration must satisfy. The settings of the refreshes are looked at first, then the
lists one by one; the first fault is reported. `Config.Valid` says what is asked without an order.
-/
namespace ListKeeper

inductive ConfigFault
  | zeroInterval
  | intervalTooLong (hours limit : UInt64)
  | emptyDir
  | badExtension (extension : String)
  | reservedId (name : String)
  | idOutOfRange (name : String) (id limit : UInt64)
  | duplicateId (id : UInt64)
  | duplicateName (name : String)
  | duplicateUrl (url : String)
  | badUrl (name url : String)
  deriving DecidableEq

namespace ConfigFault

def message : ConfigFault → String
  | zeroInterval => "update_interval_hours must be positive"
  | intervalTooLong hours limit =>
    s!"update_interval_hours {hours.toNat} exceeds the maximum of {limit.toNat}"
  | emptyDir => "filter_dir must not be empty"
  | badExtension extension => s!"Invalid filter file extension '{extension}'"
  | reservedId name => s!"Filter '{name}' uses reserved id 0"
  | idOutOfRange name id limit =>
    s!"Filter '{name}' id {id.toNat} exceeds the maximum of {limit.toNat}"
  | duplicateId id => s!"Duplicate filter id {id.toNat}"
  | duplicateName name => s!"Duplicate filter name '{name}'"
  | duplicateUrl url => s!"Duplicate filter url '{url}'"
  | badUrl name url => s!"Filter '{name}' has invalid url '{url}', expected http:// or https://"

end ConfigFault

namespace SyncSettings

def maxHours : UInt64 := 24 * 366

/-- An extension is not empty and leads to no other directory and no other extension. -/
def extensionOk (extension : String) : Bool :=
  extension != "" && extension.toList.all fun c => c != '/' && c != '\\' && c != '.'

def fault? (s : SyncSettings) : Option ConfigFault :=
  if s.hours = 0 then some .zeroInterval
  else if maxHours < s.hours then some (.intervalTooLong s.hours maxHours)
  else if s.dir = "" then some .emptyDir
  else if !extensionOk s.extension then some (.badExtension s.extension)
  else none

end SyncSettings

namespace FilterSpec

/-- The largest id, so that ids minted later have room above it. -/
def maxId : UInt64 := 9223372036854775807

/-- The first fault of a list behind those before it; `fetchable` tells the urls that can be
requested. -/
def fault? (fetchable : String → Bool) (before : List FilterSpec) (f : FilterSpec) :
    Option ConfigFault :=
  if f.id = 0 then some (.reservedId f.name)
  else if maxId < f.id then some (.idOutOfRange f.name f.id maxId)
  else if before.any fun g => g.id == f.id then some (.duplicateId f.id)
  else if before.any fun g => g.name == f.name then some (.duplicateName f.name)
  else if before.any fun g => g.url == f.url then some (.duplicateUrl f.url)
  else if !fetchable f.url then some (.badUrl f.name f.url)
  else none

def firstFault? (fetchable : String → Bool) (before : List FilterSpec) :
    List FilterSpec → Option ConfigFault
  | [] => none
  | f :: rest => (f.fault? fetchable before).or (firstFault? fetchable (f :: before) rest)

end FilterSpec

namespace Config

def fault? (fetchable : String → Bool) (c : Config) : Option ConfigFault :=
  c.sync.fault?.or (FilterSpec.firstFault? fetchable [] c.filters)

structure Valid (fetchable : String → Bool) (c : Config) : Prop where
  hours_pos : 0 < c.sync.hours.toNat
  hours_le : c.sync.hours.toNat ≤ 8784
  dir_ne : c.sync.dir ≠ ""
  extension_ne : c.sync.extension ≠ ""
  extension_plain : ∀ ch ∈ c.sync.extension.toList, ch ≠ '/' ∧ ch ≠ '\\' ∧ ch ≠ '.'
  id_pos : ∀ f ∈ c.filters, 0 < f.id.toNat
  id_le : ∀ f ∈ c.filters, f.id.toNat ≤ 9223372036854775807
  ids_nodup : (c.filters.map (·.id)).Nodup
  names_nodup : (c.filters.map (·.name)).Nodup
  urls_nodup : (c.filters.map (·.url)).Nodup
  urls_ok : ∀ f ∈ c.filters, fetchable f.url = true

end Config
end ListKeeper
