import ListKeeper.Proofs.Ids

/-! Ids over the life of a source. What the source keeps is the largest id that it gave out or was
told of, so an id that is given out is the clock's or follows the largest one known, whatever the
clock shows. As long as fewer ids are given out than there are above those of a configuration, the
largest 64-bit number is not reached. Main statement: `IdSource.given_fresh`. -/
namespace ListKeeper

/-- What a source of ids is asked for: to mark an id as in use, or to give out the next one. -/
inductive IdCall
  | observe (id : UInt64)
  | next (now : Instant)
  deriving DecidableEq

def IdCall.takes : IdCall → Bool
  | observe _ => false
  | next _ => true

namespace IdSource

def call (s : IdSource) : IdCall → IdSource
  | .observe id => s.observe id
  | .next now => s.advance now

/-- The id that is known after a call: the one in use, or the one that is given out. -/
def known (s : IdSource) : IdCall → UInt64
  | .observe id => id
  | .next now => s.next now

def after (s : IdSource) (calls : List IdCall) : IdSource := calls.foldl call s

def log (s : IdSource) : List IdCall → List UInt64
  | [] => []
  | c :: calls => s.known c :: (s.call c).log calls

/-- The largest of some ids, or zero. -/
def largest (ids : List UInt64) : Nat := (ids.map UInt64.toNat).foldl max 0

theorem log_append (s : IdSource) (calls more : List IdCall) :
    s.log (calls ++ more) = s.log calls ++ (s.after calls).log more := by
  induction calls generalizing s with
  | nil => rfl
  | cons c calls ih =>
    rw [List.cons_append, log, ih, log, List.cons_append]
    rfl

theorem length_log (s : IdSource) (calls : List IdCall) : (s.log calls).length = calls.length := by
  induction calls generalizing s with
  | nil => rfl
  | cons c calls ih => rw [log, List.length_cons, ih, List.length_cons]

/-! ### What the source keeps -/

/-- The next id is never below the last one, even where there is none above it. -/
theorem last_le_next (s : IdSource) (now : Instant) : s.last.toNat ≤ (s.next now).toNat := by
  rw [next, toNat_max]
  by_cases hmax : s.last = maxId
  · rw [successor, if_pos hmax]
    exact Nat.le_max_right _ _
  · have hne : s.last.toNat ≠ maxId.toNat := fun h => hmax (UInt64.toNat_inj.mp h)
    have hbound := s.last.toNat_lt
    have hlast : maxId.toNat = 18446744073709551615 := rfl
    rw [toNat_successor s.last (by omega)]
    omega

/-- A call leaves the larger one of the last id and the one that it makes known. -/
theorem last_call (s : IdSource) (c : IdCall) :
    (s.call c).last.toNat = max s.last.toNat (s.known c).toNat := by
  cases c with
  | observe id => exact toNat_max s.last id
  | next now => exact (Nat.max_eq_right (s.last_le_next now)).symm

theorem last_after (s : IdSource) (calls : List IdCall) :
    (s.after calls).last.toNat = ((s.log calls).map UInt64.toNat).foldl max s.last.toNat := by
  induction calls generalizing s with
  | nil => rfl
  | cons c calls ih =>
    rw [log, List.map_cons, List.foldl_cons, ← s.last_call c]
    exact ih (s.call c)

/-- The last id is the largest one known. -/
theorem last_fresh (calls : List IdCall) :
    (fresh.after calls).last.toNat = largest (fresh.log calls) := fresh.last_after calls

/-- No id that is known is above the last one. -/
theorem le_last_of_mem_log (s : IdSource) (calls : List IdCall) :
    s.last.toNat ≤ (s.after calls).last.toNat ∧
      ∀ x ∈ s.log calls, x.toNat ≤ (s.after calls).last.toNat := by
  induction calls generalizing s with
  | nil => exact ⟨Nat.le_refl _, by simp [log]⟩
  | cons c calls ih =>
    obtain ⟨hlast, hlog⟩ := ih (s.call c)
    have hcall := s.last_call c
    have hafter : s.after (c :: calls) = (s.call c).after calls := rfl
    rw [hafter]
    refine ⟨by omega, ?_⟩
    intro x hx
    rcases List.mem_cons.mp hx with rfl | hx
    · omega
    · exact hlog x hx

/-- With each id that is given out the last one rises above those of a configuration by one at most.
-/
theorem last_lt_room (s : IdSource) (calls : List IdCall) (n : Nat)
    (hs : s.last.toNat < room + n)
    (hseen : ∀ id, .observe id ∈ calls → id.toNat ≤ 9223372036854775807)
    (hfew : n + calls.countP IdCall.takes < room) :
    (s.after calls).last.toNat < room + (n + calls.countP IdCall.takes) := by
  induction calls generalizing s n with
  | nil => exact hs
  | cons c calls ih =>
    have hrest : ∀ id, .observe id ∈ calls → id.toNat ≤ 9223372036854775807 :=
      fun id hid => hseen id (List.mem_cons_of_mem c hid)
    have hroom : room = 9223372036854775808 := rfl
    cases c with
    | observe id =>
      have hid := hseen id List.mem_cons_self
      have hcall := s.last_call (.observe id)
      simp only [known] at hcall
      have hcount : (IdCall.observe id :: calls).countP IdCall.takes =
          calls.countP IdCall.takes := List.countP_cons_of_neg (by simp [IdCall.takes])
      rw [hcount] at hfew ⊢
      exact ih (s.call (.observe id)) n (by omega) hrest hfew
    | next now =>
      have hcount : (IdCall.next now :: calls).countP IdCall.takes =
          calls.countP IdCall.takes + 1 := List.countP_cons_of_pos rfl
      rw [hcount] at hfew ⊢
      have hnext := s.next_le now (by omega) n hs
      have hgoal := ih (s.call (.next now)) (n + 1) hnext hrest (by omega)
      have hsum : n + 1 + calls.countP IdCall.takes = n + (calls.countP IdCall.takes + 1) := by
        omega
      rwa [hsum] at hgoal

/-! ### What is given out -/

/-- Whatever the clock shows, an id that is given out is new and greater than all ids known. It is
the clock's or follows the largest of them, and there is always one to follow. -/
theorem given_fresh (calls : List IdCall)
    (hseen : ∀ id, .observe id ∈ calls → id.toNat ≤ 9223372036854775807)
    (hfew : calls.countP IdCall.takes < 9223372036854775808) (before rest : List IdCall)
    (now : Instant) (hcalls : calls = before ++ .next now :: rest) :
    ∃ id, (fresh.log calls)[before.length]? = some id ∧ id = (fresh.after before).next now ∧
      id ≠ 0 ∧ (∀ x ∈ fresh.log before, x < id) ∧
      id.toNat = max (max now.secs 1).toNat (largest (fresh.log before) + 1) ∧
      (fresh.after before).last ≠ maxId ∧ id ≠ maxId := by
  subst hcalls
  have hcount : (before ++ .next now :: rest).countP IdCall.takes =
      before.countP IdCall.takes + (rest.countP IdCall.takes + 1) := by
    rw [List.countP_append, List.countP_cons_of_pos rfl]
  rw [hcount] at hfew
  have hroom : room = 9223372036854775808 := rfl
  have hbefore : (fresh.after before).last.toNat < room + (0 + before.countP IdCall.takes) :=
    fresh.last_lt_room before 0 (by decide)
      (fun id hid => hseen id (List.mem_append_left _ hid)) (by omega)
  have hlast : (fresh.after before).last.toNat < 18446744073709551615 := by omega
  have hnext := (fresh.after before).toNat_next now hlast
  have hbound := (fresh.after before).next_le now hlast _ hbefore
  have hmax : maxId.toNat = 18446744073709551615 := rfl
  refine ⟨(fresh.after before).next now, ?_, rfl, ?_, ?_, ?_, ?_, ?_⟩
  · rw [log_append, ← fresh.length_log before, List.getElem?_append_right (Nat.le_refl _),
      Nat.sub_self]
    rfl
  · intro hzero
    have hzero' : ((fresh.after before).next now).toNat = 0 := by rw [hzero]; rfl
    omega
  · intro x hx
    have hle := (fresh.le_last_of_mem_log before).2 x hx
    exact UInt64.lt_iff_toNat_lt.mpr (by omega)
  · rw [hnext, last_fresh]
  · intro h
    rw [h] at hlast
    omega
  · intro h
    rw [h] at hbound
    omega

/-- An id ahead of the clock is in use, and the clock stands still; a smaller id turns out to be in
use, and the clock goes back to the start of the calendar and on to its end. -/
def unsteadyCalls : List IdCall :=
  [.observe 1700000005, .next (Instant.epoch.deadline (.ofSeconds 1700000000)),
    .next (Instant.epoch.deadline (.ofSeconds 1700000000)), .observe 3, .next .earliest,
    .next .latest]

theorem given_fresh_clockBack :
    (∀ id, .observe id ∈ unsteadyCalls → id.toNat ≤ 9223372036854775807) ∧
      unsteadyCalls.countP IdCall.takes < 9223372036854775808 ∧
      unsteadyCalls = unsteadyCalls.take 4 ++ .next .earliest :: [.next .latest] ∧
      ∃ id, (fresh.log unsteadyCalls)[4]? = some id ∧ id = 1700000008 ∧
        ∀ x ∈ fresh.log (unsteadyCalls.take 4), x < id := by
  have hseen : ∀ id, .observe id ∈ unsteadyCalls → id.toNat ≤ 9223372036854775807 := by
    intro id hid
    rcases (by simpa [unsteadyCalls] using hid : id = 1700000005 ∨ id = 3) with rfl | rfl <;> decide
  have hfew : unsteadyCalls.countP IdCall.takes < 9223372036854775808 := by decide
  have hcalls : unsteadyCalls = unsteadyCalls.take 4 ++ .next .earliest :: [.next .latest] := rfl
  obtain ⟨id, hid, hnext, -, hgreater, -⟩ :=
    given_fresh unsteadyCalls hseen hfew (unsteadyCalls.take 4) [.next .latest] .earliest hcalls
  exact ⟨hseen, hfew, hcalls, id, hid, by rw [hnext]; decide +kernel, hgreater⟩

end IdSource
end ListKeeper
