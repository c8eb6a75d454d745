import ListKeeper.Instant

/-! A registered filter list: its identity, what is known of its content, and when it is to be
fetched again. -/
namespace ListKeeper

/-- A registered list. `pending` names a complete staged file that waits for the next commit. -/
structure Entry where
  id : UInt64
  enabled : Bool
  name : String
  url : String
  ruleCount : UInt64
  lastUpdated : Instant
  nextUpdate : Instant
  pending : Option UInt64
  deriving DecidableEq

structure FilterSpec where
  id : UInt64
  enabled : Bool
  name : String
  url : String
  deriving DecidableEq

namespace Entry

def isDue (e : Entry) (now : Instant) : Bool := e.enabled && decide (e.nextUpdate ≤ now)

/-- The entry of a configured list whose content is not known: it is due at once. -/
def unread (f : FilterSpec) : Entry :=
  { id := f.id, enabled := f.enabled, name := f.name, url := f.url, ruleCount := 0,
    lastUpdated := .epoch, nextUpdate := .epoch, pending := none }

def reserve (e : Entry) (now : Instant) (period : Span) : Entry :=
  { e with nextUpdate := now.deadline period }

/-- Records staged content. The next update never falls behind the last one. -/
def staged (e : Entry) (stagedId count : UInt64) (now : Instant) : Entry :=
  { e with
    ruleCount := count
    lastUpdated := now
    -- the deadline of the selection stays, unless the download outlasted it
    nextUpdate := if e.nextUpdate < now then now else e.nextUpdate
    pending := some stagedId }

def settled (e : Entry) : Entry := { e with pending := none }

end Entry
end ListKeeper
