import ListKeeper.Ids

/-! Fresh ids. As long as the largest id known is not the largest there can be, the next one is
greater, and it rises above the clock's seconds by one at a time. -/
namespace ListKeeper.IdSource

/-- Two to the 63rd: so many ids there are above those that a configuration may hold. -/
def room : Nat := 9223372036854775808

theorem toNat_max (a b : UInt64) : (max a b).toNat = max a.toNat b.toNat := by
  by_cases h : a ≤ b
  · have hn : a.toNat ≤ b.toNat := UInt64.le_iff_toNat_le.mp h
    rw [show max a b = b from if_pos h, Nat.max_eq_right hn]
  · have hn : ¬ a.toNat ≤ b.toNat := fun hn => h (UInt64.le_iff_toNat_le.mpr hn)
    rw [show max a b = a from if_neg h, Nat.max_eq_left (by omega)]

theorem toNat_clockId (now : Instant) : (clockId now).toNat = (max now.secs 1).toNat := by
  -- the last second that a clock can show is far below the number of ids
  have hlast := now.le_last
  unfold lastSecond at hlast
  have hsize : UInt64.size = 18446744073709551616 := rfl
  rw [clockId, UInt64.toNat_ofNat_of_lt']
  omega

theorem toNat_successor (id : UInt64) (h : id.toNat < 18446744073709551615) :
    (successor id).toNat = id.toNat + 1 := by
  have hne : id ≠ maxId := by
    rintro rfl
    exact absurd h (by decide)
  have hone : (1 : UInt64).toNat = 1 := rfl
  rw [successor, if_neg hne, UInt64.toNat_add, hone, Nat.mod_eq_of_lt (by omega)]

theorem toNat_next (s : IdSource) (now : Instant) (h : s.last.toNat < 18446744073709551615) :
    (s.next now).toNat = max (max now.secs 1).toNat (s.last.toNat + 1) := by
  rw [next, toNat_max, toNat_clockId, toNat_successor _ h]

theorem last_lt_next (s : IdSource) (now : Instant) (h : s.last.toNat < 18446744073709551615) :
    s.last.toNat < (s.next now).toNat := by
  rw [toNat_next s now h]
  omega

/-- No clock leads beyond the ids that a configuration may hold. -/
theorem next_le (s : IdSource) (now : Instant) (h : s.last.toNat < 18446744073709551615) (n : Nat)
    (hn : s.last.toNat < room + n) : (s.next now).toNat < room + (n + 1) := by
  -- the next id is the clock's or the successor of the last one, and both stay below
  have hlast := now.le_last
  unfold lastSecond at hlast
  unfold room at hn ⊢
  rw [toNat_next s now h]
  omega

end ListKeeper.IdSource
