/-! Points in time. An instant is a count of seconds since the start of 1970 with a fraction in
nanoseconds; the fraction of a leap second runs on past one second. Spans are exact counts of
nanoseconds. Main definitions: the order of instants, `Instant.add?`, and `Instant.deadline`, the
addition that stops at the last instant. -/
namespace ListKeeper

structure Span where
  nanos : Int
  deriving DecidableEq

namespace Span

def ofSeconds (s : Int) : Span := ⟨s * 1000000000⟩

def ofMillis (ms : Int) : Span := ⟨ms * 1000000⟩

/-- The longest span: as many milliseconds as a signed 64-bit count holds. -/
def longest : Span := ofMillis 9223372036854775807

def shortest : Span := ofMillis (-9223372036854775807)

def wholeSeconds (d : Span) : Int := d.nanos.tdiv 1000000000

/-- What is left of the whole seconds, with the sign of the span. -/
def subsecond (d : Span) : Int := d.nanos.tmod 1000000000

def wholeMillis (d : Span) : Int := d.nanos.tdiv 1000000

end Span

/-- The first second of the calendar, at the start of the year -262143. -/
def firstSecond : Int := -8334601228800

/-- The last second of the calendar, at the end of the year 262142. -/
def lastSecond : Int := 8210266876799

/-- An instant in universal time. A fraction of a second or more marks a leap second, which can only
follow the last second of a minute. -/
structure Instant where
  secs : Int
  frac : Nat
  first_le : firstSecond ≤ secs
  le_last : secs ≤ lastSecond
  frac_lt : frac < 2000000000
  leap_at : 1000000000 ≤ frac → secs % 60 = 59
  deriving DecidableEq

namespace Instant

/-- The instant with the given seconds and fraction, if there is one. -/
def ofParts? (secs : Int) (frac : Nat) : Option Instant :=
  if h : (firstSecond ≤ secs ∧ secs ≤ lastSecond) ∧ frac < 2000000000 ∧
      (1000000000 ≤ frac → secs % 60 = 59) then
    some ⟨secs, frac, h.1.1, h.1.2, h.2.1, h.2.2⟩
  else none

def epoch : Instant := ⟨0, 0, by decide, by decide, by decide, by decide⟩

def earliest : Instant := ⟨firstSecond, 0, by decide, by decide, by decide, by decide⟩

def latest : Instant := ⟨lastSecond, 999999999, by decide, by decide, by decide, by decide⟩

instance : Inhabited Instant := ⟨epoch⟩

/-- Instants are ordered by their seconds and then by their fractions, so that a leap second comes
after the second it follows and before the next one. -/
instance : LE Instant := ⟨fun a b => a.secs < b.secs ∨ (a.secs = b.secs ∧ a.frac ≤ b.frac)⟩

instance : LT Instant := ⟨fun a b => a.secs < b.secs ∨ (a.secs = b.secs ∧ a.frac < b.frac)⟩

instance (a b : Instant) : Decidable (a ≤ b) :=
  inferInstanceAs (Decidable (a.secs < b.secs ∨ (a.secs = b.secs ∧ a.frac ≤ b.frac)))

instance (a b : Instant) : Decidable (a < b) :=
  inferInstanceAs (Decidable (a.secs < b.secs ∨ (a.secs = b.secs ∧ a.frac < b.frac)))

theorem le_def (a b : Instant) : a ≤ b ↔ a.secs < b.secs ∨ (a.secs = b.secs ∧ a.frac ≤ b.frac) :=
  Iff.rfl

theorem lt_def (a b : Instant) : a < b ↔ a.secs < b.secs ∨ (a.secs = b.secs ∧ a.frac < b.frac) :=
  Iff.rfl

def inLeap (t : Instant) : Bool := decide (1000000000 ≤ t.frac)

/-- Adding a span that does not lead out of the leap second moves inside it. A longer span counts
the leap second as the second that it follows when it leads forward, and as a second of its own
when it leads back. -/
def add? (t : Instant) (d : Span) : Option Instant :=
  let inside := t.frac + d.nanos
  if t.inLeap && decide (d.wholeSeconds = 0) && decide (inside < 2000000000) then
    ofParts? t.secs inside.toNat
  else
    let counted := if t.inLeap && decide (0 ≤ d.nanos) then (t.frac : Int) - 1000000000 else t.frac
    let total := t.secs * 1000000000 + counted + d.nanos
    ofParts? (total / 1000000000) (total % 1000000000).toNat

/-- The instant a span later, or the latest one where the calendar ends. -/
def deadline (t : Instant) (d : Span) : Instant := (t.add? d).getD latest

end Instant
end ListKeeper
