import Mathlib.Tactic.IntervalCases
import ListKeeper.Instant.Civil

/-! The calendar and the count of days. A day is told by the year that began in March and by its
place in that year, and both ways of going between counts and names are read off these two numbers.
Main statements: `toDays_ofDays`, `exists_ofDays`, and `year_ofDays`, by which the calendar ends
with the instants. -/
namespace ListKeeper.Civil

/-- The days before the first of March of a year, from the first of March of the year zero. -/
def marchDays (y : Int) : Int := 365 * y + y / 4 - y / 100 + y / 400

/-- The day with the given place in a year that begins in March. -/
def ofMarch (y inYear : Int) : Civil :=
  let m := (5 * inYear + 2) / 153
  let day := inYear - (153 * m + 2) / 5 + 1
  if m < 10 then ⟨y, (m + 3).toNat, day.toNat⟩ else ⟨y + 1, (m - 9).toNat, day.toNat⟩

theorem marchDays_succ (y : Int) : marchDays y + 365 ≤ marchDays (y + 1) := by
  unfold marchDays
  omega

theorem marchDays_mono {y y' : Int} (h : y ≤ y') : marchDays y ≤ marchDays y' := by
  obtain ⟨k, rfl⟩ := Int.le.dest h
  clear h
  induction k with
  | zero => simp
  | succ k ih =>
    have hstep := marchDays_succ (y + k)
    rw [Int.add_assoc] at hstep
    exact ih.trans (by push_cast; omega)

/-- Four centuries, a century, four years and a year have so many days. -/
theorem marchDays_of_digits (era century quad single : Int) (hcentury : 0 ≤ century ∧ century ≤ 3)
    (hquad : 0 ≤ quad ∧ quad ≤ 24) (hsingle : 0 ≤ single ∧ single ≤ 3) :
    marchDays (400 * era + 100 * century + 4 * quad + single) =
      146097 * era + 36524 * century + 1461 * quad + 365 * single := by
  have hfour : (400 * era + 100 * century + 4 * quad + single) / 4 =
      100 * era + 25 * century + quad := by omega
  have hhundred : (400 * era + 100 * century + 4 * quad + single) / 100 = 4 * era + century := by
    omega
  have hall : (400 * era + 100 * century + 4 * quad + single) / 400 = era := by omega
  rw [marchDays, hfour, hhundred, hall]
  omega

/-- A day is counted as one of a year; that year has a 366th day only where the February at its end
has a 29th. -/
theorem ofDays_eq (n : Int) :
    ∃ y i, ofDays n = ofMarch y i ∧ n + daysTo1970 = marchDays y + i ∧ 0 ≤ i ∧ i ≤ 365 ∧
      (i = 365 → isLeapYear (y + 1) = true) := by
  obtain ⟨d, hd⟩ : ∃ d, d = n + daysTo1970 := ⟨_, rfl⟩
  obtain ⟨era, hera⟩ : ∃ era, era = d / 146097 := ⟨_, rfl⟩
  obtain ⟨century, hcentury⟩ : ∃ century, century = min (d % 146097 / 36524) 3 := ⟨_, rfl⟩
  obtain ⟨inCentury, hin⟩ : ∃ inCentury, inCentury = d % 146097 - 36524 * century := ⟨_, rfl⟩
  obtain ⟨single, hsingle⟩ : ∃ single, single = min (inCentury % 1461 / 365) 3 := ⟨_, rfl⟩
  have hcenturies : 0 ≤ century ∧ century ≤ 3 ∧ 0 ≤ inCentury ∧ inCentury ≤ 36524 ∧
      (inCentury = 36524 → century = 3) := by omega
  have hsingles : 0 ≤ single ∧ single ≤ 3 ∧ 0 ≤ inCentury % 1461 - 365 * single ∧
      inCentury % 1461 - 365 * single ≤ 365 ∧
      (inCentury % 1461 - 365 * single = 365 → single = 3) := by omega
  refine ⟨400 * era + 100 * century + 4 * (inCentury / 1461) + single,
    inCentury % 1461 - 365 * single, ?_, ?_, hsingles.2.2.1, hsingles.2.2.2.1, fun hlast => ?_⟩
  · rw [hsingle, hin, hcentury, hera, hd]
    rfl
  · rw [marchDays_of_digits era century (inCentury / 1461) single (by omega) (by omega) (by omega)]
    omega
  · have hthird := hsingles.2.2.2.2 hlast
    have hfour : (400 * era + 100 * century + 4 * (inCentury / 1461) + single + 1) % 4 = 0 := by
      omega
    have hhundred : (400 * era + 100 * century + 4 * (inCentury / 1461) + single + 1) % 100 ≠ 0 ∨
        (400 * era + 100 * century + 4 * (inCentury / 1461) + single + 1) % 400 = 0 := by
      omega
    simp only [isLeapYear, hfour, decide_true, Bool.true_and, Bool.or_eq_true, decide_eq_true_eq]
    exact hhundred

section

variable {y i : Int}

/-- The month that a place in a year lies in, from March on. -/
theorem month_cases (hi : 0 ≤ i) (hi' : i ≤ 365) :
    0 ≤ (5 * i + 2) / 153 ∧ (5 * i + 2) / 153 ≤ 11 := by
  omega

theorem toDays_ofMarch (hi : 0 ≤ i) (hi' : i ≤ 365) :
    (ofMarch y i).toDays = marchDays y + i - daysTo1970 := by
  obtain ⟨m, hm⟩ : ∃ m, m = (5 * i + 2) / 153 := ⟨_, rfl⟩
  have hmonth := month_cases hi hi'
  rw [← hm] at hmonth
  unfold ofMarch marchDays
  rw [← hm]
  by_cases hlate : m < 10
  · simp only [if_pos hlate, toDays]
    rw [if_neg (by omega), if_neg (by omega)]
    omega
  · simp only [if_neg hlate, toDays]
    rw [if_pos (by omega), if_pos (by omega)]
    omega

theorem exists_ofMarch (hi : 0 ≤ i) (hi' : i ≤ 365) (hlast : i = 365 → isLeapYear (y + 1) = true) :
    (ofMarch y i).Exists := by
  obtain ⟨m, hm⟩ : ∃ m, m = (5 * i + 2) / 153 := ⟨_, rfl⟩
  obtain ⟨hfirst, hfinal⟩ := month_cases hi hi'
  have hplace : 153 * m ≤ 5 * i + 2 ∧ 5 * i + 2 < 153 * (m + 1) := by omega
  have hfebruary : i - 336 ≤ if isLeapYear (y + 1) = true then 29 else 28 := by
    by_cases hend : i = 365
    · rw [if_pos (hlast hend)]
      omega
    · split <;> omega
  unfold ofMarch Exists
  rw [← hm] at hfirst hfinal ⊢
  clear hm
  -- one case for each month, of which February is the last
  interval_cases m <;> simp [daysInMonth] <;> omega

end

theorem daysInMonth_le (y : Int) (m : Nat) : daysInMonth y m ≤ 31 := by
  unfold daysInMonth
  split
  · split <;> decide
  · split <;> decide

@[simp]
theorem toDays_ofDays (n : Int) : (ofDays n).toDays = n := by
  obtain ⟨y, i, heq, hsum, hi, hi', -⟩ := ofDays_eq n
  rw [heq, toDays_ofMarch hi hi']
  omega

theorem exists_ofDays (n : Int) : (ofDays n).Exists := by
  obtain ⟨y, i, heq, -, hi, hi', hlast⟩ := ofDays_eq n
  rw [heq]
  exact exists_ofMarch hi hi' hlast

/-- The year changes with the first of January, 306 days after the first of March. -/
theorem year_ofMarch (y i : Int) : (ofMarch y i).year = if i < 306 then y else y + 1 := by
  by_cases hearly : i < 306
  · have hmonth : (5 * i + 2) / 153 < 10 := by omega
    rw [if_pos hearly, ofMarch, if_pos hmonth]
  · have hmonth : ¬ (5 * i + 2) / 153 < 10 := by omega
    rw [if_neg hearly, ofMarch, if_neg hmonth]

/-- A day that is no earlier than the first of January of a year lies in that year or later. -/
theorem le_year_ofDays (y n : Int) (h : marchDays (y - 1) + 306 ≤ n + daysTo1970) :
    y ≤ (ofDays n).year := by
  obtain ⟨y', i, heq, hsum, hi, hi', -⟩ := ofDays_eq n
  rw [heq, year_ofMarch]
  by_contra hlt
  split at hlt
  · have hmono := marchDays_mono (show y' ≤ y - 1 by omega)
    omega
  · have hmono := marchDays_mono (show y' + 1 ≤ y - 1 by omega)
    have hstep := marchDays_succ y'
    omega

/-- A day before the first of January of a year lies in an earlier year. -/
theorem year_ofDays_lt (y n : Int) (h : n + daysTo1970 < marchDays (y - 1) + 306) :
    (ofDays n).year < y := by
  obtain ⟨y', i, heq, hsum, hi, hi', -⟩ := ofDays_eq n
  rw [heq, year_ofMarch]
  by_contra hle
  split at hle
  · have hmono := marchDays_mono (show y ≤ y' by omega)
    have hstep := marchDays_succ (y - 1)
    rw [Int.sub_add_cancel] at hstep
    omega
  · have hmono := marchDays_mono (show y - 1 ≤ y' by omega)
    omega

/-- The days of the instants lie in the years of the calendar. -/
theorem year_ofDays (secs : Int) (hfirst : firstSecond ≤ secs) (hlast : secs ≤ lastSecond) :
    -262143 ≤ (ofDays (secs / 86400)).year ∧ (ofDays (secs / 86400)).year ≤ 262142 := by
  have hstart : marchDays (-262143 - 1) + 306 = firstSecond / 86400 + daysTo1970 := by decide
  have hend : marchDays (262143 - 1) + 306 = (lastSecond + 1) / 86400 + daysTo1970 := by decide
  unfold firstSecond at hfirst hstart
  unfold lastSecond at hlast hend
  have hlow := le_year_ofDays (-262143) (secs / 86400) (by omega)
  have hhigh := year_ofDays_lt 262143 (secs / 86400) (by omega)
  omega

end ListKeeper.Civil
