import ListKeeper.Config.Reading
import ListKeeper.Proofs.Overlay
import ListKeeper.Settings.Environment

/-! The settings of the three sections of a configuration, one key each: where a setting stands in a
file, which variable names it, what it is without either, and how it is read. Main statement:
`Config.Key.read_of_config?`, by which a configuration that was read holds under each key what was
found there. -/
namespace ListKeeper

inductive Config.Key
  | enabled
  | dir
  | hours
  | extension
  | connectTimeout
  | requestTimeout
  | userAgent
  | proxy
  | address
  deriving DecidableEq

namespace Config.Key

def all : List Key :=
  [enabled, dir, hours, extension, connectTimeout, requestTimeout, userAgent, proxy, address]

theorem mem_all (k : Key) : k ∈ all := by
  cases k <;> decide

def table : Key → String
  | enabled | dir | hours | extension => "sync"
  | connectTimeout | requestTimeout | userAgent | proxy => "http"
  | address => "server"

def field : Key → String
  | enabled => "enabled"
  | dir => "filter_dir"
  | hours => "update_interval_hours"
  | extension => "extension"
  | connectTimeout => "connect_timeout_secs"
  | requestTimeout => "request_timeout_secs"
  | userAgent => "user_agent"
  | proxy => "proxy_url"
  | address => "bind_addr"

def variableName (k : Key) : String := Environment.mark ++ k.table ++ "__" ++ k.field

def path (k : Key) : String := k.table ++ "." ++ k.field

def Value : Key → Type
  | enabled => Bool
  | dir | extension | userAgent => String
  | hours | connectTimeout | requestTimeout => UInt64
  | proxy => Option String
  | address => SocketAddress

def standard : (k : Key) → k.Value
  | enabled => SyncSettings.standard.enabled
  | dir => SyncSettings.standard.dir
  | hours => SyncSettings.standard.hours
  | extension => SyncSettings.standard.extension
  | connectTimeout => HttpSettings.standard.connectTimeout
  | requestTimeout => HttpSettings.standard.requestTimeout
  | userAgent => HttpSettings.standard.userAgent
  | proxy => HttpSettings.standard.proxy
  | address => ServerSettings.standard.address

def read? : (k : Key) → Setting → Option k.Value
  | enabled => Setting.toBool?
  | dir | extension | userAgent => Setting.toText?
  | hours | connectTimeout | requestTimeout => Setting.toCount?
  | proxy => Reading.lenient.optionalText?
  | address => Reading.lenient.address?

def value (c : Config) : (k : Key) → k.Value
  | enabled => c.sync.enabled
  | dir => c.sync.dir
  | hours => c.sync.hours
  | extension => c.sync.extension
  | connectTimeout => c.http.connectTimeout
  | requestTimeout => c.http.requestTimeout
  | userAgent => c.http.userAgent
  | proxy => c.http.proxy
  | address => c.server.address

/-! ### Names and paths -/

theorem eq_of_place (k k' : Key) (htable : k.table = k'.table) (hfield : k.field = k'.field) :
    k = k' := by
  have hall : ∀ x ∈ all, ∀ y ∈ all, x.table = y.table → x.field = y.field → x = y := by
    decide +kernel
  exact hall k k.mem_all k' k'.mem_all htable hfield

theorem path_eq (k : Key) : Setting.path k.path = (k.table, [.key k.field]) := by
  cases k <;> decide

theorem path_inj (k k' : Key) (h : k.path = k'.path) : k = k' := by
  have hplace : (k.table, [Setting.Step.key k.field]) = (k'.table, [.key k'.field]) := by
    rw [← path_eq, ← path_eq, h]
  obtain ⟨htable, hsteps⟩ := Prod.mk.inj hplace
  exact eq_of_place k k' htable (Setting.Step.key.inj (List.cons.inj hsteps).1)

theorem path?_variableName (k : Key) : Environment.path? k.variableName = some k.path := by
  cases k <;> decide

theorem lower_variableName (k : Key) : Setting.lower k.variableName = k.variableName := by
  cases k <;> decide

/-- A variable's path depends on its name in lower case only. -/
theorem path?_of_lower (k : Key) (name : String) (h : Setting.lower name = k.variableName) :
    Environment.path? name = some k.path := by
  have hsame : Environment.path? name = Environment.path? k.variableName := by
    rw [Environment.path?, h, Environment.path?, lower_variableName]
  rw [hsame, path?_variableName]

theorem variableName_inj (k k' : Key) (h : k.variableName = k'.variableName) : k = k' := by
  have hpath : some k.path = some k'.path := by
    rw [← path?_variableName, ← path?_variableName, h]
  exact path_inj k k' (Option.some.inj hpath)

theorem table_ne_filters (k : Key) : k.table ≠ "filters" := by
  cases k <;> decide

/-! ### Readings -/

/-- No setting is a table. -/
theorem untabled_read? (k : Key) : Setting.Untabled k.read? := by
  refine Setting.untabled_of_table k.read? none fun fields => ?_
  cases k <;> rfl

def lookup (fields : List (String × Setting)) (k : Key) : Option Setting :=
  (Setting.get? fields k.table).bind fun v => Setting.get? v.fields k.field

def Sectioned (fields : List (String × Setting)) : Prop :=
  ∀ k : Key, ∀ v, Setting.get? fields k.table = some v → ∃ fs, v = .table fs

/-- What a configuration holds under a key is what was found there. -/
def Holds (c : Config) (k : Key) (found : Option Setting) : Prop :=
  Reading.orStandard k.standard k.read? found = some (value c k)

section

variable {fields fs : List (String × Setting)}

theorem parts_of_sync? (s : SyncSettings) (h : Reading.lenient.sync? (.table fs) = some s) :
    Reading.orStandard SyncSettings.standard.enabled Setting.toBool? (Setting.get? fs "enabled") =
        some s.enabled ∧
      Reading.orStandard SyncSettings.standard.dir Setting.toText? (Setting.get? fs "filter_dir") =
        some s.dir ∧
      Reading.orStandard SyncSettings.standard.hours Setting.toCount?
        (Setting.get? fs "update_interval_hours") = some s.hours ∧
      Reading.orStandard SyncSettings.standard.extension Setting.toText?
        (Setting.get? fs "extension") = some s.extension := by
  simp only [Reading.sync?, Reading.parts?, List.map_cons, List.map_nil, Option.bind_eq_bind,
    Option.bind_some, Option.bind_eq_some_iff] at h
  obtain ⟨enabled, henabled, dir, hdir, hours, hhours, extension, hextension, heq⟩ := h
  obtain rfl := Option.some.inj heq
  exact ⟨henabled, hdir, hhours, hextension⟩

theorem parts_of_http? (s : HttpSettings) (h : Reading.lenient.http? (.table fs) = some s) :
    Reading.orStandard HttpSettings.standard.connectTimeout Setting.toCount?
        (Setting.get? fs "connect_timeout_secs") = some s.connectTimeout ∧
      Reading.orStandard HttpSettings.standard.requestTimeout Setting.toCount?
        (Setting.get? fs "request_timeout_secs") = some s.requestTimeout ∧
      Reading.orStandard HttpSettings.standard.userAgent Setting.toText?
        (Setting.get? fs "user_agent") = some s.userAgent ∧
      Reading.orStandard HttpSettings.standard.proxy Reading.lenient.optionalText?
        (Setting.get? fs "proxy_url") = some s.proxy := by
  simp only [Reading.http?, Reading.parts?, List.map_cons, List.map_nil, Option.bind_eq_bind,
    Option.bind_some, Option.bind_eq_some_iff] at h
  obtain ⟨connect, hconnect, request, hrequest, agent, hagent, proxy, hproxy, heq⟩ := h
  obtain rfl := Option.some.inj heq
  exact ⟨hconnect, hrequest, hagent, hproxy⟩

theorem part_of_server? (s : ServerSettings) (h : Reading.lenient.server? (.table fs) = some s) :
    Reading.orStandard ServerSettings.standard.address Reading.lenient.address?
      (Setting.get? fs "bind_addr") = some s.address := by
  simp only [Reading.server?, Reading.parts?, List.map_cons, List.map_nil, Option.bind_eq_bind,
    Option.bind_some, Option.bind_eq_some_iff] at h
  obtain ⟨address, haddress, heq⟩ := h
  obtain rfl := Option.some.inj heq
  exact haddress

/-- A part of a section is read from the section, or from nothing where there is none. -/
theorem holds_of_section {α : Type} (standardPart : α) (readPart? : Setting → Option α) (part : α)
    (k : Key) (get : α → k.Value) (hsections : Sectioned fields)
    (hpart : Reading.orStandard standardPart readPart? (Setting.get? fields k.table) = some part)
    (hstandard : get standardPart = k.standard)
    (hread : ∀ fs x, readPart? (.table fs) = some x →
      Reading.orStandard k.standard k.read? (Setting.get? fs k.field) = some (get x)) :
    Reading.orStandard k.standard k.read? (lookup fields k) = some (get part) := by
  cases hget : Setting.get? fields k.table with
  | none =>
    rw [hget] at hpart
    rw [lookup, hget, ← Option.some.inj hpart, hstandard]
    rfl
  | some v =>
    obtain ⟨fs, rfl⟩ := hsections k v hget
    rw [hget] at hpart
    rw [lookup, hget]
    exact hread fs part hpart

/-- A configuration holds under each key what was found there, and its lists are those found. -/
theorem holds_of_config? (c : Config) (hsections : Sectioned fields)
    (h : Reading.lenient.config? (.table fields) = some c) :
    (∀ k, Holds c k (lookup fields k)) ∧
      Reading.orStandard [] Reading.lenient.filters? (Setting.get? fields "filters") =
        some c.filters := by
  simp only [Reading.config?, Reading.parts?, List.map_cons, List.map_nil, Option.bind_eq_bind,
    Option.bind_some, Option.bind_eq_some_iff] at h
  obtain ⟨sync, hsync, http, hhttp, server, hserver, filters, hfilters, heq⟩ := h
  obtain rfl := Option.some.inj heq
  refine ⟨fun k => ?_, hfilters⟩
  -- each key is looked up in its own section, and read there as its part is
  cases k with
  | enabled =>
    exact holds_of_section .standard _ sync .enabled (·.enabled) hsections hsync rfl
      fun fs x hx => (parts_of_sync? x hx).1
  | dir =>
    exact holds_of_section .standard _ sync .dir (·.dir) hsections hsync rfl
      fun fs x hx => (parts_of_sync? x hx).2.1
  | hours =>
    exact holds_of_section .standard _ sync .hours (·.hours) hsections hsync rfl
      fun fs x hx => (parts_of_sync? x hx).2.2.1
  | extension =>
    exact holds_of_section .standard _ sync .extension (·.extension) hsections hsync rfl
      fun fs x hx => (parts_of_sync? x hx).2.2.2
  | connectTimeout =>
    exact holds_of_section .standard _ http .connectTimeout (·.connectTimeout) hsections hhttp rfl
      fun fs x hx => (parts_of_http? x hx).1
  | requestTimeout =>
    exact holds_of_section .standard _ http .requestTimeout (·.requestTimeout) hsections hhttp rfl
      fun fs x hx => (parts_of_http? x hx).2.1
  | userAgent =>
    exact holds_of_section .standard _ http .userAgent (·.userAgent) hsections hhttp rfl
      fun fs x hx => (parts_of_http? x hx).2.2.1
  | proxy =>
    exact holds_of_section .standard _ http .proxy (·.proxy) hsections hhttp rfl
      fun fs x hx => (parts_of_http? x hx).2.2.2
  | address =>
    exact holds_of_section .standard _ server .address (·.address) hsections hserver rfl
      fun fs x hx => part_of_server? x hx

end

end Config.Key
end ListKeeper
