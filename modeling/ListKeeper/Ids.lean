import ListKeeper.Instant

/-! Ids for entries and their files. An id is the clock's count of seconds where that is new, and
else the successor of the last id known, so that ids rise whatever the clock does. -/
namespace ListKeeper

/-- The largest id given out or seen so far; zero when there is none. -/
structure IdSource where
  last : UInt64
  deriving DecidableEq

namespace IdSource

def fresh : IdSource := ⟨0⟩

def maxId : UInt64 := 18446744073709551615

def successor (id : UInt64) : UInt64 := if id = maxId then id else id + 1

/-- The seconds of a clock reading, counted as at least one. -/
def clockId (now : Instant) : UInt64 := UInt64.ofNat (max now.secs 1).toNat

def next (s : IdSource) (now : Instant) : UInt64 := max (clockId now) (successor s.last)

def advance (s : IdSource) (now : Instant) : IdSource := ⟨s.next now⟩

/-- Makes later ids greater than one that is already in use. -/
def observe (s : IdSource) (id : UInt64) : IdSource := ⟨max s.last id⟩

def nextMany (now : Instant) : Nat → IdSource → List UInt64 × IdSource
  | 0, s => ([], s)
  | n + 1, s =>
    let (ids, s') := nextMany now n (s.advance now)
    (s.next now :: ids, s')

end IdSource
end ListKeeper
