import ListKeeper.Proofs.Calendar
import ListKeeper.Proofs.Spellings

/-! The text of an instant. Of its spellings one is written: in universal time, with all of its
parts in full, and with the fewest digits of the fraction that are exact. Being a spelling, it is
read as that instant again. Main statements: `Instant.canonical_text` and
`Instant.ofText?_text`. -/
namespace ListKeeper.Instant

/-! ### The form that is written -/

/-- A year of four digits, or of more where it needs them, and with a sign where it does not lie
from 0 to 9999. -/
inductive CanonicalYear : Int → List Char → Prop
  | bare {ds : List Char} {n : Nat} (hds : Decimal n ds) (hfour : ds.length = 4) :
      CanonicalYear n ds
  | beyond {ds : List Char} {n : Nat} (hds : Decimal n ds) (hlate : 9999 < n)
      (hfirst : ds.head? ≠ some '0') : CanonicalYear n ('+' :: ds)
  | before {ds : List Char} {n : Nat} (hds : Decimal n ds) (hpos : 0 < n)
      (hlength : ds.length = 4 ∨ 9999 < n ∧ ds.head? ≠ some '0') : CanonicalYear (-n) ('-' :: ds)

/-- The fewest of 0, 3, 6 or 9 digits that are exact. -/
inductive CanonicalFraction : Nat → List Char → Prop
  | whole : CanonicalFraction 0 []
  | part {ds : List Char} {n : Nat} (hds : Decimal n ds)
      (hlength : ds.length = 3 ∨ ds.length = 6 ∨ ds.length = 9) (hfew : n % 1000 ≠ 0) :
      CanonicalFraction (n * 10 ^ (9 - ds.length)) ('.' :: ds)

/-- The text of an instant in universal time, with all of its parts in full and nothing between them
but one mark. -/
inductive Canonical (t : Instant) : List Char → Prop
  | mk {d : Civil} {hour minute second nanos : Nat} {year month day hs ms ss fraction : List Char}
      (hyear : CanonicalYear d.year year) (hmonth : Pair d.month month) (hday : Pair d.day day)
      (hhour : Pair hour hs) (hminute : Pair minute ms) (hsecond : Pair second ss)
      (hfraction : CanonicalFraction nanos fraction) (hexists : d.Exists)
      (hrange : -262143 ≤ d.year ∧ d.year ≤ 262142) (hdays : d.toDays = t.secs / 86400)
      (hhour_lt : hour < 24) (hminute_lt : minute < 60) (hsecond_le : second ≤ 60)
      (hseconds : (hour * 3600 + minute * 60 + min second 59 : Nat) = t.secs % 86400)
      (hfrac : t.frac = if second = 60 then nanos + 1000000000 else nanos) :
      Canonical t (year ++ '-' :: (month ++ '-' :: (day ++ 'T' :: (hs ++ ':' :: (ms ++ ':' ::
        (ss ++ (fraction ++ ['Z'])))))))

theorem Pair.numeral {n : Nat} {ds : List Char} (h : Pair n ds) : Numeral 2 n ds :=
  ⟨[], ds, rfl, by simp [Blank], h.1, Nat.le_of_eq h.2⟩

theorem marked_self (c : Char) : Marked c [c] := ⟨[], rfl, by simp [Blank]⟩

theorem CanonicalYear.spelled {y : Int} {cs : List Char} (h : CanonicalYear y cs) :
    YearSpelled y cs := by
  have hblank : Blank [] := by simp [Blank]
  cases h with
  | bare hds hfour => exact .bare hblank hds (Nat.le_of_eq hfour)
  | beyond hds => exact .plus hblank hds
  | before hds => exact .minus hblank hds

theorem CanonicalFraction.spelled {nanos : Nat} {cs : List Char} (h : CanonicalFraction nanos cs) :
    FractionSpelled nanos cs := by
  cases h with
  | whole => exact .whole
  | @part ds n hds hlength =>
    have hspelled := FractionSpelled.part hds
    rwa [List.take_of_length_le (by omega), hds.value] at hspelled

theorem Canonical.spelled {t : Instant} {cs : List Char} (h : t.Canonical cs) : t.Spelled cs := by
  obtain @⟨d, hour, minute, second, nanos, year, month, day, hs, ms, ss, fraction, hyear, hmonth,
    hday, hhour, hminute, hsecond, hfraction, hexists, hrange, hdays, hhour_lt, hminute_lt,
    hsecond_le, hseconds, hfrac⟩ := h
  have hdate := DateSpelled.mk hyear.spelled (marked_self '-') hmonth.numeral (marked_self '-')
    hday.numeral
  have htime := TimeSpelled.mk hhour.numeral (marked_self ':') hminute.numeral (marked_self ':')
    hsecond.numeral hfraction.spelled hhour_lt hminute_lt hsecond_le
  have hblank : Blank [] := by simp [Blank]
  have hspelled : t.Spelled _ := .mk hdate (.inl rfl) htime hblank (.zulu (.inl rfl)) hblank hexists
    hrange (by decide) (by omega) hfrac
  simpa using hspelled

/-! ### Numbers -/

theorem decimal_padded (width n : Nat) : Decimal n (padded width n) where
  ne_nil := by simp [padded, Nat.toDigits_ne_nil]
  digits c hc := by
    rcases List.mem_append.mp hc with hzero | hdigit
    · rw [(List.mem_replicate.mp hzero).2]
      rfl
    · exact Nat.isDigit_of_mem_toDigits (by decide) (by decide) hdigit
  value := by rw [padded, digitsValue_zeros, digitsValue_toDigits]

/-- A number below the power of ten has no more digits than are asked for. -/
theorem length_padded {width n : Nat} (hwidth : 0 < width) (h : n < 10 ^ width) :
    (padded width n).length = width := by
  have hle := (Nat.length_toDigits_le_iff (by decide) hwidth).mpr h
  simp only [padded, List.length_append, List.length_replicate]
  omega

/-- A number from the power of ten on has just the digits that it needs. -/
theorem head?_padded {width n : Nat} (hwidth : 0 < width) (h : 10 ^ width ≤ n) :
    (padded width n).head? ≠ some '0' := by
  have hlong : ¬ (Nat.toDigits 10 n).length ≤ width := by
    rw [Nat.length_toDigits_le_iff (by decide) hwidth]
    omega
  have hpos : 0 < n := Nat.lt_of_lt_of_le (Nat.pow_pos (by decide)) h
  rw [padded, Nat.sub_eq_zero_of_le (by omega), List.replicate_zero, List.nil_append]
  exact head?_toDigits n hpos

theorem pair_padded {n : Nat} (h : n < 100) : Pair n (padded 2 n) :=
  ⟨decimal_padded 2 n, length_padded (by decide) h⟩

theorem canonicalYear_yearText (y : Int) : CanonicalYear y (yearText y) := by
  have hds := decimal_padded 4 y.natAbs
  unfold yearText
  split
  · have hy : y = -(y.natAbs : Int) := by omega
    rw [hy, Int.natAbs_neg, Int.natAbs_natCast]
    refine .before hds (by omega) ?_
    by_cases hfour : y.natAbs < 10 ^ 4
    · exact .inl (length_padded (by decide) hfour)
    · exact .inr ⟨by omega, head?_padded (by decide) (by omega)⟩
  · have hy : y = (y.natAbs : Int) := by omega
    split
    · rw [hy, Int.natAbs_natCast]
      exact .beyond hds (by omega) (head?_padded (by decide) (by omega))
    · rw [hy, Int.natAbs_natCast]
      exact .bare hds (length_padded (by decide) (by omega))

theorem canonicalFraction_fractionText (nanos : Nat) (h : nanos < 1000000000) :
    CanonicalFraction nanos (fractionText nanos) := by
  have hpart (width n : Nat) (hwidth : width = 3 ∨ width = 6 ∨ width = 9) (hn : n < 10 ^ width)
      (hfew : n % 1000 ≠ 0) : CanonicalFraction (n * 10 ^ (9 - width)) ('.' :: padded width n) := by
    have hlength : (padded width n).length = width := length_padded (by omega) hn
    have hcanonical := CanonicalFraction.part (decimal_padded width n) (by rwa [hlength]) hfew
    rwa [hlength] at hcanonical
  unfold fractionText
  split
  · rename_i hzero
    rw [hzero]
    exact .whole
  split
  · have hmillis := hpart 3 (nanos / 1000000) (by decide) (by omega) (by omega)
    rwa [show nanos / 1000000 * 10 ^ (9 - 3) = nanos by omega] at hmillis
  split
  · have hmicros := hpart 6 (nanos / 1000) (by decide) (by omega) (by omega)
    rwa [show nanos / 1000 * 10 ^ (9 - 6) = nanos by omega] at hmicros
  · have hnanos := hpart 9 nanos (by decide) (by omega) (by omega)
    rwa [show nanos * 10 ^ (9 - 9) = nanos by omega] at hnanos

/-- The seconds that the time of day stands for, and the fraction that stands beside them. -/
theorem timeOfDay (t : Instant) {inDay second : Nat} (hinDay : (inDay : Int) = t.secs % 86400)
    (hsecond : second = if t.inLeap then inDay % 60 + 1 else inDay % 60) :
    second ≤ 60 ∧ inDay / 3600 * 3600 + inDay / 60 % 60 * 60 + min second 59 = inDay ∧
      t.frac = if second = 60 then t.frac % 1000000000 + 1000000000 else t.frac % 1000000000 := by
  have hfrac := t.frac_lt
  by_cases hleap : 1000000000 ≤ t.frac
  · have hin : t.inLeap = true := by simpa [inLeap] using hleap
    have hlast := t.leap_at hleap
    rw [hin, if_pos rfl] at hsecond
    have hsixty : second = 60 := by omega
    rw [if_pos hsixty]
    omega
  · have hin : t.inLeap = false := by simpa [inLeap] using hleap
    rw [hin, if_neg (by decide)] at hsecond
    have hfewer : ¬ second = 60 := by omega
    rw [if_neg hfewer]
    omega

/-- An instant is written in its canonical form. -/
theorem canonical_chars (t : Instant) : t.Canonical t.chars := by
  obtain ⟨d, hd⟩ : ∃ d, d = Civil.ofDays (t.secs / 86400) := ⟨_, rfl⟩
  obtain ⟨inDay, hinDay⟩ : ∃ inDay, inDay = (t.secs % 86400).toNat := ⟨_, rfl⟩
  obtain ⟨second, hsecond⟩ :
    ∃ second, second = if t.inLeap then inDay % 60 + 1 else inDay % 60 := ⟨_, rfl⟩
  have hchars : t.chars = yearText d.year ++ '-' :: (padded 2 d.month ++ '-' :: (padded 2 d.day ++
      'T' :: (padded 2 (inDay / 3600) ++ ':' :: (padded 2 (inDay / 60 % 60) ++ ':' ::
        (padded 2 second ++ (fractionText (t.frac % 1000000000) ++ ['Z'])))))) := by
    simp only [chars, hsecond, hinDay, hd, List.append_assoc, List.cons_append]
  have hexists : d.Exists := hd ▸ Civil.exists_ofDays _
  have hday : d.day < 100 := by
    have hle := hexists.2.2.2
    have hmost := Civil.daysInMonth_le d.year d.month
    omega
  have hmonth : d.month < 100 := by
    have hle := hexists.2.1
    omega
  have hin : (inDay : Int) = t.secs % 86400 := by omega
  obtain ⟨hsixty, hseconds, hfrac⟩ := t.timeOfDay hin hsecond
  rw [hchars]
  exact .mk (canonicalYear_yearText d.year) (pair_padded hmonth) (pair_padded hday)
    (pair_padded (by omega)) (pair_padded (by omega)) (pair_padded (by omega))
    (canonicalFraction_fractionText _ (by omega)) hexists
    (hd ▸ Civil.year_ofDays t.secs t.first_le t.le_last)
    (by rw [hd, Civil.toDays_ofDays]) (by omega) (by omega) hsixty (by omega) hfrac

/-- The text of an instant is read as that instant, to the nanosecond, in any year and in a leap
second. -/
theorem ofChars?_chars (t : Instant) : ofChars? t.chars = some t := t.canonical_chars.spelled.read

theorem canonical_text (t : Instant) : t.Canonical t.text.toList := by
  rw [text, String.toList_ofList]
  exact t.canonical_chars

@[simp]
theorem ofText?_text (t : Instant) : ofText? t.text = some t := by
  rw [ofText?, text, String.toList_ofList, ofChars?_chars]

end ListKeeper.Instant
