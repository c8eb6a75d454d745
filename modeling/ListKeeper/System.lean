import ListKeeper.Download
import ListKeeper.Ids
import ListKeeper.Registry
import ListKeeper.Store

/-! The shared state, and what reaches it from outside. Everything that runs at the same time acts
on one `System` in atomic steps; a step sees the outside through a `Moment`. -/
namespace ListKeeper

structure Counters where
  refreshesSucceeded : UInt64
  refreshesFailed : UInt64
  commits : UInt64
  renamesFailed : UInt64
  deriving DecidableEq

namespace Counters

def zero : Counters := ⟨0, 0, 0, 0⟩

def refreshSucceeded (c : Counters) : Counters :=
  { c with refreshesSucceeded := c.refreshesSucceeded + 1 }

def refreshFailed (c : Counters) : Counters := { c with refreshesFailed := c.refreshesFailed + 1 }

def commitCompleted (c : Counters) : Counters := { c with commits := c.commits + 1 }

def renameFailed (c : Counters) : Counters := { c with renamesFailed := c.renamesFailed + 1 }

end Counters

inductive Event
  | selected (e : Entry)
  | requested (url : String)
  | staged (id stagedId : UInt64)
  | closed
  | renamed (id stagedId : UInt64) (succeeded : Bool)
  | restarted
  | added (e : Entry)
  | deleted (e : Entry)
  deriving DecidableEq

/-- The shared state. `gate` holds the tickets of those who ask for the network, the holder first.
-/
structure System where
  store : Store
  period : Span
  registry : Registry
  ids : IdSource
  tree : FileTree
  counters : Counters
  gate : List Nat
  journal : List Event

/-- What the outside supplies to one step: the clock, the answer to a request, the outcome of a call
to the consumer of the files, and the disk. -/
structure Moment where
  now : Instant
  answer : Answer
  consumer : Except ConsumerError Unit
  disk : Disk

namespace System

def fresh (store : Store) (period : Span) (tree : FileTree) : System :=
  { store := store, period := period, registry := .empty, ids := .fresh, tree := tree,
    counters := .zero, gate := [], journal := [] }

def note (s : System) (e : Event) : System := { s with journal := s.journal ++ [e] }

def mint (s : System) (now : Instant) : UInt64 × System :=
  (s.ids.next now, { s with ids := s.ids.advance now })

/-- The entry of a configured list, with what its file holds if that can be read. -/
def seed (s : System) (f : FilterSpec) (disk : Disk) : Entry :=
  match s.store.load s.tree f.id disk with
  | .ok (body, modified) =>
    { Entry.unread f with
      ruleCount := Rules.recorded body
      lastUpdated := modified
      nextUpdate := modified.deadline s.period }
  | .error _ => .unread f

/-- Registers the configured lists, all at once and in their order. `disks` is what the disk does
when the file of an id is read. -/
def load (s : System) (filters : List FilterSpec) (disks : UInt64 → Disk := Disk.readsAll) :
    System :=
  { s with
    registry := ⟨s.registry.entries ++ filters.map fun f => s.seed f (disks f.id)⟩
    -- ids that are minted later lie above all of these
    ids := filters.foldl (fun ids f => ids.observe f.id) s.ids }

/-- Removes the first entry with a url. Its file stays. -/
def delete (s : System) (url : String) : Option Entry × System :=
  match s.registry.get? url with
  | none => (none, s)
  | some e => (some e, { s with registry := s.registry.delete url }.note (.deleted e))

def discard (s : System) (disk : Disk) (id : UInt64) : System :=
  match Store.attempt disk (s.store.remove s.tree id) with
  | .ok t => { s with tree := t }
  | .error _ => s

def write (s : System) (m : Moment) (id : UInt64) (body : Bytes) (w : Writing) : System × Writing :=
  let (t, w') := s.store.writeStep id body m.disk s.tree w
  ({ s with tree := t }, w')

end System

/-- How far a download has come. It waits for its turn, makes its request, and gives the turn up
when the answer is there. -/
inductive Fetching
  | arrive
  | wait
  | exchange
  | done (outcome : Except FetchError Bytes)

namespace Fetching

def step (url : String) (ticket : Nat) (m : Moment) (s : System) : Fetching → System × Fetching
  | .arrive => ({ s with gate := s.gate ++ [ticket] }, .wait)
  | .wait =>
    -- only the head of the queue makes its request
    if s.gate.head? = some ticket then (s.note (.requested url), .exchange) else (s, .wait)
  | .exchange => ({ s with gate := s.gate.erase ticket }, .done (m.answer.content url))
  | .done outcome => (s, .done outcome)

end Fetching
end ListKeeper
