import ListKeeper.Instant

/-! The calendar. Days are counted from the start of 1970 and named by year, month and day of the
Gregorian calendar carried on in both directions, with a year zero. The year is taken to begin in
March, so that the day added in a leap year is its last. -/
namespace ListKeeper

structure Civil where
  year : Int
  month : Nat
  day : Nat
  deriving DecidableEq

namespace Civil

def isLeapYear (y : Int) : Bool := y % 4 = 0 && (y % 100 ≠ 0 || y % 400 = 0)

def daysInMonth (y : Int) (m : Nat) : Nat :=
  if m = 2 then if isLeapYear y then 29 else 28
  else if m = 4 || m = 6 || m = 9 || m = 11 then 30 else 31

def Exists (c : Civil) : Prop :=
  1 ≤ c.month ∧ c.month ≤ 12 ∧ 1 ≤ c.day ∧ c.day ≤ daysInMonth c.year c.month

instance (c : Civil) : Decidable c.Exists :=
  inferInstanceAs
    (Decidable (1 ≤ c.month ∧ c.month ≤ 12 ∧ 1 ≤ c.day ∧ c.day ≤ daysInMonth c.year c.month))

/-- Days from the first of March of the year zero to the start of 1970. -/
def daysTo1970 : Int := 719468

def toDays (c : Civil) : Int :=
  -- the year is taken from March on, so that a leap day is its last
  let y := if c.month ≤ 2 then c.year - 1 else c.year
  let m : Int := if c.month ≤ 2 then c.month + 9 else c.month - 3
  365 * y + y / 4 - y / 100 + y / 400 + (153 * m + 2) / 5 + (c.day - 1) - daysTo1970

/-- The day with the given count. Four centuries have 146097 days, a century 36524 and one more at
the end of the fourth, four years 1461 and a year 365 and one more at the end of the fourth. -/
def ofDays (n : Int) : Civil :=
  let d := n + daysTo1970
  let era := d / 146097
  let inEra := d % 146097
  let century := min (inEra / 36524) 3
  let inCentury := inEra - 36524 * century
  let quad := inCentury / 1461
  let inQuad := inCentury % 1461
  let single := min (inQuad / 365) 3
  let inYear := inQuad - 365 * single
  let y := 400 * era + 100 * century + 4 * quad + single
  let m := (5 * inYear + 2) / 153
  let day := inYear - (153 * m + 2) / 5 + 1
  if m < 10 then ⟨y, (m + 3).toNat, day.toNat⟩ else ⟨y + 1, (m - 9).toNat, day.toNat⟩

end Civil
end ListKeeper
