import ListKeeper.Entry

/-! The table of registered lists in the order in which they came. Every look-up and every change
takes the first entry that fits, in one step. -/
namespace ListKeeper

/-- What recording a staged file came to: the file that was pending before, or word that the entry
is gone. -/
inductive StageOutcome
  | staged (superseded : Option UInt64)
  | missing
  deriving DecidableEq

structure Registry where
  entries : List Entry
  deriving DecidableEq

namespace Registry

def empty : Registry := ⟨[]⟩

/-- Changes the first element that passes a test, and gives that element as it was. -/
def changeFirst {α : Type} (p : α → Bool) (f : α → α) : List α → Option (α × List α)
  | [] => none
  | x :: xs =>
    if p x then some (x, f x :: xs) else (changeFirst p f xs).map fun r => (r.1, x :: r.2)

def taken (r : Registry) (name url : String) : Bool :=
  r.entries.any fun e => e.name == name || e.url == url

def get? (r : Registry) (url : String) : Option Entry := r.entries.find? fun e => e.url == url

def getById? (r : Registry) (id : UInt64) : Option Entry := r.entries.find? fun e => e.id == id

def append (r : Registry) (e : Entry) : Registry := ⟨r.entries ++ [e]⟩

def delete (r : Registry) (url : String) : Registry := ⟨r.entries.eraseP fun e => e.url == url⟩

/-- The first entry that is due, with its next update already put off by one period, and the
registry that holds it so. -/
def selectDue (r : Registry) (now : Instant) (period : Span) : Option (Entry × Registry) :=
  -- it is found and put off in one step, so that no one else finds it due
  (changeFirst (·.isDue now) (·.reserve now period) r.entries).map fun s =>
    (s.1.reserve now period, ⟨s.2⟩)

def stage (r : Registry) (id stagedId count : UInt64) (now : Instant) : StageOutcome × Registry :=
  match changeFirst (·.id == id) (·.staged stagedId count now) r.entries with
  | none => (.missing, r)
  | some (e, es) => (.staged e.pending, ⟨es⟩)

def staged (r : Registry) : List (UInt64 × UInt64) :=
  r.entries.filterMap fun e => e.pending.map fun stagedId => (e.id, stagedId)

def hasPending (r : Registry) : Bool := r.entries.any fun e => e.pending.isSome

/-- Forgets a staged file if the entry with the given id still waits for that very file. -/
def clearPending (r : Registry) (id stagedId : UInt64) : Bool × Registry :=
  match changeFirst (fun e => e.id == id && e.pending == some stagedId) Entry.settled r.entries with
  | none => (false, r)
  | some (_, es) => (true, ⟨es⟩)

end Registry
end ListKeeper
