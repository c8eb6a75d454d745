import ListKeeper.Proofs.Deadlines

/-! The period of the refreshes. As a length of sleep it stops at the largest 64-bit number of
seconds, as a distance between deadlines at the longest span, and a deadline stops at the end of the
calendar; below these ends all three are exact. Main statement: `SyncSettings.period_saturates`. -/
namespace ListKeeper

namespace SyncSettings

variable (s s' : SyncSettings)

theorem toNat_sleepSeconds : s.sleepSeconds.toNat = min (3600 * s.hours.toNat) (2 ^ 64 - 1) := by
  unfold sleepSeconds
  split
  · rename_i hfits
    have hmul : (s.hours * 3600).toNat = s.hours.toNat * 3600 := by
      rw [UInt64.toNat_mul]
      exact Nat.mod_eq_of_lt hfits
    omega
  · rename_i hover
    have hmax : (18446744073709551615 : UInt64).toNat = 2 ^ 64 - 1 := rfl
    omega

/-- The most seconds of a span are fewer than a length of sleep can have, so the product is exact
wherever the span is. -/
theorem nanos_period :
    s.period.nanos = min (3600 * (s.hours.toNat : Int) * 10 ^ 9) ((2 ^ 63 - 1) * 10 ^ 6) := by
  have hsleep := s.toNat_sleepSeconds
  have hseconds (n : Int) : (Span.ofSeconds n).nanos = n * 1000000000 := rfl
  have hlongest : Span.longest.nanos = 9223372036854775807 * 1000000 := rfl
  unfold period maxSpanSeconds
  split
  · rw [hseconds]
    omega
  · rw [hlongest]
    omega

theorem nanos_period_nonneg : 0 ≤ s.period.nanos := by
  rw [nanos_period]
  omega

variable {s s'}

theorem sleepSeconds_mono (h : s.hours ≤ s'.hours) : s.sleepSeconds ≤ s'.sleepSeconds := by
  rw [UInt64.le_iff_toNat_le] at h ⊢
  rw [toNat_sleepSeconds, toNat_sleepSeconds]
  omega

theorem period_mono (h : s.hours ≤ s'.hours) : s.period.nanos ≤ s'.period.nanos := by
  rw [UInt64.le_iff_toNat_le] at h
  rw [nanos_period, nanos_period]
  omega

/-- The hours of an accepted configuration are far from every end. -/
theorem accepted_period {fetchable : String → Bool} {c : Config}
    (hc : c.fault? fetchable = none) (hhours : s.hours = c.sync.hours) :
    s.sleepSeconds.toNat = 3600 * s.hours.toNat ∧ 0 < s.sleepSeconds.toNat ∧
      s.sleepSeconds.toNat < 2 ^ 64 - 1 ∧ s.period = .ofSeconds s.sleepSeconds.toNat ∧
      s.period.nanos < Span.longest.nanos := by
  have hvalid := (c.fault?_eq_none_iff fetchable).mp hc
  have hpos := hvalid.hours_pos
  have hle := hvalid.hours_le
  rw [← hhours] at hpos hle
  have hsleep := s.toNat_sleepSeconds
  have hnanos := s.nanos_period
  have hlongest : Span.longest.nanos = 9223372036854775807 * 1000000 := rfl
  have hperiod : s.period = .ofSeconds s.sleepSeconds.toNat :=
    if_pos (by rw [maxSpanSeconds]; omega)
  exact ⟨by omega, by omega, by omega, hperiod, by omega⟩

variable (s)

/-- The two periods are exact products up to their ends, and both rise with the hours. For the hours
of an accepted configuration they are one and the same positive length of time, which neither end
cuts. A deadline out of leap seconds is the exact sum or the last instant, and it lies behind the
time that it is counted from, unless there are no hours or that time is the last instant. -/
theorem period_saturates :
    s.sleepSeconds.toNat = min (3600 * s.hours.toNat) (2 ^ 64 - 1) ∧
    s.period.nanos = min (3600 * (s.hours.toNat : Int) * 10 ^ 9) ((2 ^ 63 - 1) * 10 ^ 6) ∧
    (∀ s' : SyncSettings, s.hours ≤ s'.hours →
      s.sleepSeconds ≤ s'.sleepSeconds ∧ s.period.nanos ≤ s'.period.nanos) ∧
    (∀ (fetchable : String → Bool) (c : Config), c.fault? fetchable = none →
      s.hours = c.sync.hours →
      s.sleepSeconds.toNat = 3600 * s.hours.toNat ∧ 0 < s.sleepSeconds.toNat ∧
        s.sleepSeconds.toNat < 2 ^ 64 - 1 ∧ s.period = .ofSeconds s.sleepSeconds.toNat ∧
        s.period.nanos < Span.longest.nanos) ∧
    ∀ t : Instant, t ≤ .latest → t.inLeap = false →
      (t.deadline s.period).inLeap = false ∧
        (t.deadline s.period).nanos = min (t.nanos + s.period.nanos) Instant.latest.nanos ∧
        t ≤ t.deadline s.period ∧
        (0 < s.hours → t < .latest → t < t.deadline s.period) := by
  refine ⟨s.toNat_sleepSeconds, s.nanos_period,
    fun s' h => ⟨sleepSeconds_mono h, period_mono h⟩,
    fun fetchable c hc hhours => accepted_period hc hhours, fun t _ hleap => ?_⟩
  obtain ⟨hout, hsum⟩ := t.nanos_deadline s.period s.nanos_period_nonneg hleap
  refine ⟨hout, hsum, t.le_deadline s.period s.nanos_period_nonneg hleap, fun hhours hlast => ?_⟩
  have hpos : 0 < s.period.nanos := by
    rw [UInt64.lt_iff_toNat_lt, UInt64.toNat_zero] at hhours
    rw [nanos_period]
    omega
  exact t.lt_deadline s.period hpos hlast

/-- The hours at which the span stops are fewer than those at which the sleep stops. -/
example :
    let s : SyncSettings := { standard with hours := 2562047788016 }
    s.period = .longest ∧ s.sleepSeconds = 9223372036857600 ∧
      ({ s with hours := 2562047788015 } : SyncSettings).period = .ofSeconds 9223372036854000 := by
  decide

end SyncSettings
end ListKeeper
