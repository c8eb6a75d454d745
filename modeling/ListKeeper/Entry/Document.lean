import ListKeeper.Entry
import ListKeeper.Instant.Rfc3339
import ListKeeper.Json

/-! Entries as documents. An entry is an object with a field for each of its parts, and times are
written as text; read is also a list of the parts in their order. -/
namespace ListKeeper

namespace Json

def toId? : Json → Option UInt64
  | .int n => countOfInt? n
  | _ => none

def toBool? : Json → Option Bool
  | .bool b => some b
  | _ => none

def toText? : Json → Option String
  | .str s => some s
  | _ => none

def toOptionalId? : Json → Option (Option UInt64)
  | .null => some none
  | v => v.toId?.map some

def toInstant? : Json → Option Instant
  | .str s => Instant.ofText? s
  | _ => none

/-- The parts of a record: the fields of an object with the given names, a missing one being none,
or the items of a list of exactly as many. -/
def parts? (names : List String) : Json → Option (List (Option Json))
  | .obj fields => some (names.map (field? fields))
  | .arr items => if items.length = names.length then some (items.map some) else none
  | _ => none

end Json

namespace Entry

def partNames : List String :=
  ["id", "enabled", "name", "url", "rule_count", "last_updated", "next_update", "pending_id"]

def toJson (e : Entry) : Json :=
  .obj
    [("id", .ofId e.id), ("enabled", .bool e.enabled), ("name", .str e.name), ("url", .str e.url),
      ("rule_count", .ofId e.ruleCount), ("last_updated", .str e.lastUpdated.text),
      ("next_update", .str e.nextUpdate.text),
      ("pending_id", match e.pending with
        | some id => .ofId id
        | none => .null)]

/-- Reads an entry. Every part but the pending id must be there. -/
def ofJson? (v : Json) : Option Entry :=
  match v.parts? partNames with
  | some [id, enabled, name, url, ruleCount, lastUpdated, nextUpdate, pending] => do
    let pending ← match pending with
      | none => some none
      | some v => v.toOptionalId?
    some
      { id := ← (← id).toId?
        enabled := ← (← enabled).toBool?
        name := ← (← name).toText?
        url := ← (← url).toText?
        ruleCount := ← (← ruleCount).toId?
        lastUpdated := ← (← lastUpdated).toInstant?
        nextUpdate := ← (← nextUpdate).toInstant?
        pending := pending }
  | _ => none

end Entry

end ListKeeper
