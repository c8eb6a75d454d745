import ListKeeper.Proofs.Waiting

/-! Deadlines and the clock. A deadline rises with the clock reading that it is counted from, except
into a leap second, and it lies behind that reading except at the end of the calendar. When as much
time has passed, the deadline is there. Main statements: `deadline_le_deadline`, `lt_deadline` and
`deadline_le`. -/
namespace ListKeeper

namespace Instant

theorem lt_of_lt_of_le (a b c : Instant) (hab : a < b) (hbc : b ≤ c) : a < c := by
  rw [lt_def] at hab ⊢
  rw [le_def] at hbc
  omega

theorem lt_irrefl (a : Instant) : ¬ a < a := by
  rw [lt_def]
  omega

theorem ofParts?_cases (secs : Int) (frac : Nat) (hfrac : frac < 1000000000)
    (hfirst : firstSecond ≤ secs) :
    (∃ t, ofParts? secs frac = some t ∧ t.secs = secs ∧ t.frac = frac ∧ secs ≤ lastSecond) ∨
      ofParts? secs frac = none ∧ lastSecond < secs := by
  unfold ofParts?
  by_cases hlast : secs ≤ lastSecond
  · rw [dif_pos ⟨⟨hfirst, hlast⟩, by omega, fun h => by omega⟩]
    exact .inl ⟨_, rfl, rfl, rfl, hlast⟩
  · rw [dif_neg fun h => hlast h.1.2]
    exact .inr ⟨rfl, by omega⟩

/-- A deadline counted in nanoseconds lies there, or it is the last instant. -/
theorem getD_latest_cases (total : Int) (hfirst : firstSecond * 1000000000 ≤ total) :
    (∃ t, (ofParts? (total / 1000000000) (total % 1000000000).toNat).getD latest = t ∧
        t.secs * 1000000000 + t.frac = total ∧ t.frac < 1000000000) ∨
      (ofParts? (total / 1000000000) (total % 1000000000).toNat).getD latest = latest ∧
        (lastSecond + 1) * 1000000000 ≤ total := by
  have hmod := Int.emod_nonneg total (by decide : (1000000000 : Int) ≠ 0)
  have hlt := Int.emod_lt_of_pos total (by decide : (0 : Int) < 1000000000)
  rcases ofParts?_cases (total / 1000000000) (total % 1000000000).toNat (by omega) (by omega) with
    ⟨t, ht, hsecs, hfrac, -⟩ | ⟨hnone, hlast⟩
  · exact .inl ⟨t, by rw [ht]; rfl, by omega, by omega⟩
  · exact .inr ⟨by rw [hnone]; rfl, by omega⟩

theorem deadline_eq (t : Instant) (d : Span) (h : t.inLeap = false) :
    t.deadline d = (ofParts? ((t.secs * 1000000000 + t.frac + d.nanos) / 1000000000)
      ((t.secs * 1000000000 + t.frac + d.nanos) % 1000000000).toNat).getD latest := by
  simp [deadline, add?, h]

/-- Out of leap seconds, a later reading has a later deadline. -/
theorem deadline_le_deadline (a b : Instant) (d : Span) (hd : 0 ≤ d.nanos) (ha : a.inLeap = false)
    (hb : b.inLeap = false) (hab : a ≤ b) : a.deadline d ≤ b.deadline d := by
  have hfirst := a.first_le
  have hfirst' := b.first_le
  have hfrac : a.frac < 1000000000 := by simpa [inLeap] using ha
  have hsecs : latest.secs = lastSecond := rfl
  have hlatest : latest.frac = 999999999 := rfl
  rw [le_def] at hab
  rw [deadline_eq a d ha, deadline_eq b d hb]
  rcases getD_latest_cases (a.secs * 1000000000 + a.frac + d.nanos) (by omega) with
    ⟨x, hx, hxn, hxf⟩ | ⟨hx, hxn⟩
  · rcases getD_latest_cases (b.secs * 1000000000 + b.frac + d.nanos) (by omega) with
      ⟨y, hy, hyn, hyf⟩ | ⟨hy, hyn⟩
    · rw [hx, hy, le_def]
      omega
    · have hlast := x.le_last
      rw [hx, hy, le_def]
      omega
  · rcases getD_latest_cases (b.secs * 1000000000 + b.frac + d.nanos) (by omega) with
      ⟨y, hy, hyn, hyf⟩ | ⟨hy, hyn⟩
    · have hlast := y.le_last
      omega
    · rw [hx, hy]
      exact le_refl latest

def nanos (t : Instant) : Int := t.secs * 1000000000 + t.frac

/-- Out of leap seconds, a deadline is not behind a reading by which the span has passed. -/
theorem deadline_le (a b : Instant) (d : Span) (hd : 0 ≤ d.nanos) (ha : a.inLeap = false)
    (hb : b.inLeap = false) (hab : a.nanos + d.nanos ≤ b.nanos) : a.deadline d ≤ b := by
  have hfirst := a.first_le
  have hlast := b.le_last
  have hfrac : b.frac < 1000000000 := by simpa [inLeap] using hb
  unfold nanos at hab
  rw [deadline_eq a d ha]
  rcases getD_latest_cases (a.secs * 1000000000 + a.frac + d.nanos) (by omega) with
    ⟨x, hx, hxn, hxf⟩ | ⟨-, hxn⟩
  · rw [hx, le_def]
    omega
  · omega

/-- Out of leap seconds, a deadline does not lie before the reading that it is counted from. -/
theorem le_deadline (t : Instant) (d : Span) (hd : 0 ≤ d.nanos) (ht : t.inLeap = false) :
    t ≤ t.deadline d := by
  have hfirst := t.first_le
  have hlast := t.le_last
  have hfrac : t.frac < 1000000000 := by simpa [inLeap] using ht
  have hsecs : latest.secs = lastSecond := rfl
  have hlatest : latest.frac = 999999999 := rfl
  rw [deadline_eq t d ht]
  rcases getD_latest_cases (t.secs * 1000000000 + t.frac + d.nanos) (by omega) with
    ⟨x, hx, hxn, hxf⟩ | ⟨hx, -⟩
  · rw [hx, le_def]
    omega
  · rw [hx, le_def]
    omega

/-- A deadline that is counted from a leap second lies in it, or it is counted from the second that
the leap second follows. -/
theorem deadline_of_inLeap (t : Instant) (d : Span) (hd : 0 < d.nanos) (ht : 1000000000 ≤ t.frac) :
    ((t.deadline d).secs = t.secs ∧ ((t.deadline d).frac : Int) = t.frac + d.nanos) ∨
      2000000000 ≤ (t.frac : Int) + d.nanos ∧
        ∃ total : Int, total = t.secs * 1000000000 + (t.frac - 1000000000) + d.nanos ∧
          t.deadline d =
            (ofParts? (total / 1000000000) (total % 1000000000).toNat).getD latest := by
  have hin : t.inLeap = true := by simpa [inLeap] using ht
  by_cases hinside : d.wholeSeconds = 0 ∧ (t.frac : Int) + d.nanos < 2000000000
  · obtain ⟨hwhole, hshort⟩ := hinside
    have hparts : ofParts? t.secs ((t.frac : Int) + d.nanos).toNat =
        some ⟨t.secs, ((t.frac : Int) + d.nanos).toNat, t.first_le, t.le_last, by omega,
          fun _ => t.leap_at ht⟩ :=
      dif_pos ⟨⟨t.first_le, t.le_last⟩, by omega, fun _ => t.leap_at ht⟩
    have hadd : t.add? d = ofParts? t.secs ((t.frac : Int) + d.nanos).toNat := by
      simp [add?, hin, hwhole, hshort]
    left
    rw [deadline, hadd, hparts]
    exact ⟨rfl, Int.toNat_of_nonneg (by omega)⟩
  · have hlong : 2000000000 ≤ (t.frac : Int) + d.nanos := by
      by_contra hshort
      refine hinside ⟨?_, by omega⟩
      exact Int.tdiv_eq_zero_of_lt (by omega) (by omega)
    have hcond : (t.inLeap && decide (d.wholeSeconds = 0) &&
        decide ((t.frac : Int) + d.nanos < 2000000000)) = false := by
      simp only [Bool.and_eq_false_iff, decide_eq_false_iff_not]
      right
      omega
    have hpos : decide (0 ≤ d.nanos) = true := by simpa using Int.le_of_lt hd
    refine .inr ⟨hlong, _, rfl, ?_⟩
    unfold deadline add?
    simp only [hcond, Bool.false_eq_true, ↓reduceIte]
    simp only [hin, hpos, Bool.and_self, ↓reduceIte]

/-- A deadline lies behind the reading that it is counted from. -/
theorem lt_deadline (t : Instant) (d : Span) (hd : 0 < d.nanos) (ht : t < latest) :
    t < t.deadline d := by
  have hfirst := t.first_le
  have hbound := t.frac_lt
  -- where the count of nanoseconds leads behind the second of `t`, or on within it
  have hcount (total : Int)
      (h : (t.secs + 1) * 1000000000 ≤ total ∨
        t.frac < 1000000000 ∧ t.secs * 1000000000 + t.frac < total) :
      t < (ofParts? (total / 1000000000) (total % 1000000000).toNat).getD latest := by
    rcases getD_latest_cases total (by omega) with ⟨x, hx, hxn, hxf⟩ | ⟨hx, -⟩
    · rw [hx, lt_def]
      omega
    · rwa [hx]
  by_cases hleap : 1000000000 ≤ t.frac
  · rcases t.deadline_of_inLeap d hd hleap with ⟨hsecs, hfrac⟩ | ⟨hlong, total, htotal, hdeadline⟩
    · rw [lt_def]
      omega
    · rw [hdeadline]
      exact hcount total (.inl (by omega))
  · have hin : t.inLeap = false := by simpa [inLeap] using hleap
    rw [deadline_eq t d hin]
    exact hcount _ (.inr ⟨by omega, by omega⟩)

/-- A deadline that is counted from the end of the calendar does not lie before it. -/
theorem latest_le_deadline (t : Instant) (d : Span) (hd : 0 < d.nanos) (ht : latest ≤ t) :
    latest ≤ t.deadline d := by
  have hfirst := t.first_le
  have hlast := t.le_last
  have hsecs : latest.secs = lastSecond := rfl
  have hlatest : latest.frac = 999999999 := rfl
  rw [le_def] at ht
  have hcount (total : Int) (h : (lastSecond + 1) * 1000000000 ≤ total) :
      latest ≤ (ofParts? (total / 1000000000) (total % 1000000000).toNat).getD latest := by
    rcases getD_latest_cases total (by omega) with ⟨x, -, hxn, hxf⟩ | ⟨hx, -⟩
    · have hxlast := x.le_last
      omega
    · rw [hx]
      exact le_refl latest
  by_cases hleap : 1000000000 ≤ t.frac
  · rcases t.deadline_of_inLeap d hd hleap with ⟨hsame, hfrac⟩ | ⟨hlong, total, htotal, hdeadline⟩
    · rw [le_def]
      omega
    · rw [hdeadline]
      exact hcount total (by omega)
  · have hin : t.inLeap = false := by simpa [inLeap] using hleap
    rw [deadline_eq t d hin]
    exact hcount _ (by omega)

/-- What is added to a time of the calendar does not lead behind its last instant. -/
theorem le_latest_of_add? (t x : Instant) (d : Span) (ht : t ≤ latest) (h : t.add? d = some x) :
    x ≤ latest := by
  have hsecs : latest.secs = lastSecond := rfl
  have hlatest : latest.frac = 999999999 := rfl
  have hparts (secs : Int) (frac : Nat) (hsome : ofParts? secs frac = some x) :
      x.secs = secs ∧ x.frac = frac ∧ secs ≤ lastSecond := by
    unfold ofParts? at hsome
    split at hsome
    · rename_i hbounds
      obtain rfl := Option.some.inj hsome
      exact ⟨rfl, rfl, hbounds.1.2⟩
    · cases hsome
  rw [le_def] at ht
  unfold add? at h
  dsimp only at h
  split at h
  · rename_i hinside
    have hleap : 1000000000 ≤ t.frac := by
      simp only [inLeap, Bool.and_eq_true, decide_eq_true_eq] at hinside
      exact hinside.1.1
    obtain ⟨hx, -, -⟩ := hparts _ _ h
    rw [le_def]
    omega
  · obtain ⟨hx, hfrac, hlast⟩ := hparts _ _ h
    rw [le_def]
    omega

/-- Out of leap seconds, a deadline is the sum, or the last instant where the sum lies behind it. -/
theorem nanos_deadline (t : Instant) (d : Span) (hd : 0 ≤ d.nanos) (ht : t.inLeap = false) :
    (t.deadline d).inLeap = false ∧
      (t.deadline d).nanos = min (t.nanos + d.nanos) latest.nanos := by
  have hfirst := t.first_le
  have hfrac : t.frac < 1000000000 := by simpa [inLeap] using ht
  have hnanos : latest.nanos = lastSecond * 1000000000 + 999999999 := rfl
  rw [deadline_eq t d ht]
  unfold nanos at hnanos ⊢
  rcases getD_latest_cases (t.secs * 1000000000 + t.frac + d.nanos) (by omega) with
    ⟨x, hx, hxn, hxf⟩ | ⟨hx, hxn⟩
  · have hlast := x.le_last
    rw [hx]
    exact ⟨by simpa [inLeap] using hxf, by omega⟩
  · rw [hx]
    exact ⟨rfl, by omega⟩

end Instant

/-- What was just put off is not due. -/
theorem Entry.isDue_reserve (e : Entry) (now : Instant) (period : Span) (hperiod : 0 < period.nanos)
    (hnow : now < .latest) : (e.reserve now period).isDue now = false := by
  apply Bool.eq_false_iff.mpr
  intro hdue
  obtain ⟨-, hle⟩ := (Entry.isDue_iff _ now).mp hdue
  have hlater := now.lt_deadline period hperiod hnow
  exact Instant.lt_irrefl now (Instant.lt_of_lt_of_le _ _ _ hlater hle)

/-- In an accepted configuration the distance of a deadline is as long as the sleep between two
passes, and an hour at least. -/
theorem Config.period_eq (fetchable : String → Bool) (c : Config)
    (hc : c.fault? fetchable = none) :
    c.sync.period = .ofSeconds c.sync.sleepSeconds.toNat ∧
      3600000000000 ≤ c.sync.period.nanos := by
  have hvalid := (c.fault?_eq_none_iff fetchable).mp hc
  have hpos := hvalid.hours_pos
  have hle := hvalid.hours_le
  have hsleep : c.sync.sleepSeconds.toNat = c.sync.hours.toNat * 3600 := by
    rw [SyncSettings.sleepSeconds, if_pos (by omega), UInt64.toNat_mul]
    exact Nat.mod_eq_of_lt (by simp; omega)
  have hperiod : c.sync.period = .ofSeconds c.sync.sleepSeconds.toNat :=
    if_pos (by rw [hsleep, SyncSettings.maxSpanSeconds]; omega)
  refine ⟨hperiod, ?_⟩
  rw [hperiod, hsleep]
  change 3600000000000 ≤ ((c.sync.hours.toNat * 3600 : Nat) : Int) * 1000000000
  omega

end ListKeeper
