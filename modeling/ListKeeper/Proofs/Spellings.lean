import Mathlib.Algebra.Group.Nat.Defs
import Mathlib.Data.List.TakeWhile
import ListKeeper.Instant.Rfc3339
import ListKeeper.Proofs.Digits

/-! The texts that spell an instant. A spelling has the parts of a date and of a time of day in
their order; there can be blanks in front of each part, numbers can have fewer digits than they have
room for, and the distance from universal time has several forms. For each reader it is told what it
takes from the front of a text, and that it takes all of that. Main statement:
`Instant.ofText?_eq_some_iff`. -/
namespace ListKeeper

/-! ### Blanks and digits -/

theorem isWhitespace_of_isDigit (c : Char) (h : c.isDigit = true) : isWhitespace c = false := by
  simp only [Char.isDigit, ge_iff_le, Bool.and_eq_true, decide_eq_true_eq, UInt32.le_iff_toNat_le]
    at h
  have hlow : 48 ≤ c.toNat := h.1
  have hhigh : c.toNat ≤ 57 := h.2
  simp only [isWhitespace, Bool.or_eq_false_iff, Bool.and_eq_false_iff, decide_eq_false_iff_not,
    beq_eq_false_iff_ne]
  omega

def Blank (cs : List Char) : Prop := ∀ c ∈ cs, isWhitespace c = true

theorem Blank.append {bs bs' : List Char} (h : Blank bs) (h' : Blank bs') : Blank (bs ++ bs') := by
  intro c hc
  rcases List.mem_append.mp hc with hc | hc
  · exact h c hc
  · exact h' c hc

theorem trimLeft_append {bs : List Char} (h : Blank bs) (cs : List Char) :
    trimLeft (bs ++ cs) = trimLeft cs := List.dropWhile_append_of_pos h

theorem trimLeft_cons {c : Char} (h : isWhitespace c = false) (cs : List Char) :
    trimLeft (c :: cs) = c :: cs := List.dropWhile_cons_of_neg (by simp [h])

/-- A blank is neither a digit nor a point. -/
theorem outside_of_isWhitespace {c : Char} (h : isWhitespace c = true) :
    c.isDigit = false ∧ c ≠ '.' := by
  constructor
  · by_contra hdigit
    rw [isWhitespace_of_isDigit c (by simpa using hdigit)] at h
    cases h
  · rintro rfl
    exact absurd h (by decide)

/-- What blanks and the character behind them have in common, the first of both has. -/
theorem head_append {P : Char → Prop} {bs cs : List Char} (hbs : Blank bs)
    (hblank : ∀ c, isWhitespace c = true → P c) (hcs : ∀ c ∈ cs.head?, P c) :
    ∀ c ∈ (bs ++ cs).head?, P c := by
  cases bs with
  | nil => exact hcs
  | cons b bs =>
    intro c hc
    obtain rfl := Option.some.inj hc
    exact hblank b (hbs b List.mem_cons_self)

theorem exists_blank (cs : List Char) : ∃ bs, cs = bs ++ trimLeft cs ∧ Blank bs :=
  ⟨cs.takeWhile isWhitespace, List.takeWhile_append_dropWhile.symm,
    fun _ => List.mem_takeWhile_imp⟩

/-- Small letters are made of themselves and of their capitals. -/
theorem eq_of_toLower {c d : Char} (h : c.toLower = d) : c = d ∨ c = Char.ofNat (d.toNat - 32) := by
  unfold Char.toLower at h
  split at h
  · rename_i hupper
    right
    -- the capital stands 32 places in front of its small letter
    have hsum := congrArg (fun x : Char => x.val.toNat) h
    have hlow := UInt32.le_iff_toNat_le.mp hupper.1
    have hhigh := UInt32.le_iff_toNat_le.mp hupper.2
    simp only [UInt32.toNat_add] at hsum
    change (c.val.toNat + 32) % 2 ^ 32 = d.toNat at hsum
    change c.val.toNat ≤ 90 at hhigh
    have hc : c.toNat = d.toNat - 32 := by
      change c.val.toNat = _
      omega
    rw [← hc, Char.ofNat_toNat]
  · exact .inl h

structure Decimal (n : Nat) (ds : List Char) : Prop where
  ne_nil : ds ≠ []
  digits : ∀ c ∈ ds, c.isDigit = true
  value : digitsValue ds = n

theorem Decimal.head {n : Nat} {ds : List Char} (h : Decimal n ds) (rest : List Char) :
    ∃ c cs, ds ++ rest = c :: cs ∧ c.isDigit = true := by
  obtain ⟨c, cs, rfl⟩ := List.exists_cons_of_ne_nil h.ne_nil
  exact ⟨c, cs ++ rest, rfl, h.digits c List.mem_cons_self⟩

theorem Decimal.trimLeft {n : Nat} {ds : List Char} (h : Decimal n ds) (rest : List Char) :
    trimLeft (ds ++ rest) = ds ++ rest := by
  obtain ⟨c, cs, hcs, hdigit⟩ := h.head rest
  rw [hcs, trimLeft_cons (isWhitespace_of_isDigit c hdigit)]

theorem Decimal.spanDigits {n : Nat} {ds : List Char} (h : Decimal n ds) {rest : List Char}
    (hrest : ∀ c ∈ rest.head?, c.isDigit = false) : spanDigits (ds ++ rest) = (ds, rest) :=
  spanDigits_append ds rest h.digits hrest

theorem spanDigits_eq (cs : List Char) :
    spanDigits cs = (cs.takeWhile (·.isDigit), cs.dropWhile (·.isDigit)) :=
  List.span_eq_takeWhile_dropWhile ..

theorem decimal_of_spanDigits {cs : List Char} (hne : (spanDigits cs).1.isEmpty = false) :
    Decimal (digitsValue (spanDigits cs).1) (spanDigits cs).1 ∧
      (spanDigits cs).1 ++ (spanDigits cs).2 = cs := by
  rw [spanDigits_eq] at hne ⊢
  exact ⟨⟨by simpa using hne, fun _ => List.mem_takeWhile_imp, rfl⟩,
    List.takeWhile_append_dropWhile⟩

namespace Instant

/-! ### Numbers, marks and years -/

/-- A number of at most so many digits, behind blanks. -/
def Numeral (most n : Nat) (cs : List Char) : Prop :=
  ∃ bs ds, cs = bs ++ ds ∧ Blank bs ∧ Decimal n ds ∧ ds.length ≤ most

def Marked (c : Char) (cs : List Char) : Prop := ∃ bs, cs = bs ++ [c] ∧ Blank bs

/-- A year: up to four digits, or a sign and any number of them. -/
inductive YearSpelled : Int → List Char → Prop
  | bare {bs ds : List Char} {n : Nat} (hbs : Blank bs) (hds : Decimal n ds)
      (hfour : ds.length ≤ 4) : YearSpelled n (bs ++ ds)
  | plus {bs ds : List Char} {n : Nat} (hbs : Blank bs) (hds : Decimal n ds) :
      YearSpelled n (bs ++ '+' :: ds)
  | minus {bs ds : List Char} {n : Nat} (hbs : Blank bs) (hds : Decimal n ds) :
      YearSpelled (-n) (bs ++ '-' :: ds)

theorem Numeral.read {most n : Nat} {cs : List Char} (h : Numeral most n cs) {rest : List Char}
    (hrest : ∀ c ∈ rest.head?, c.isDigit = false) :
    takeNumber? most (cs ++ rest) = some (n, rest) := by
  obtain ⟨bs, ds, rfl, hbs, hds, hlength⟩ := h
  have htrim : trimLeft (bs ++ ds ++ rest) = ds ++ rest := by
    rw [List.append_assoc, trimLeft_append hbs, hds.trimLeft]
  have hspan := hds.spanDigits hrest
  rw [spanDigits_eq, Prod.mk.injEq] at hspan
  have hempty : ds.isEmpty = false := by simpa using hds.ne_nil
  simp only [takeNumber?, htrim, hspan.1, List.take_of_length_le hlength, hempty, hds.value,
    Bool.false_eq_true, ↓reduceIte, List.drop_left]

theorem numeral_of_read {most n : Nat} {cs rest : List Char}
    (h : takeNumber? most cs = some (n, rest)) : ∃ p, cs = p ++ rest ∧ Numeral most n p := by
  obtain ⟨bs, hcs, hbs⟩ := exists_blank cs
  simp only [takeNumber?] at h
  split at h
  · cases h
  · rename_i hne
    obtain ⟨hn, hrest⟩ := Prod.mk.inj (Option.some.inj h)
    refine ⟨bs ++ ((trimLeft cs).takeWhile (·.isDigit)).take most, ?_, bs, _, rfl, hbs,
      ⟨by simpa using hne, fun c hc => ?_, hn⟩, List.length_take_le _ _⟩
    · have hfront : ((trimLeft cs).takeWhile (·.isDigit)).take most <+: trimLeft cs :=
        (List.take_prefix _ _).trans (List.takeWhile_prefix _)
      rw [List.append_assoc, ← hrest, List.prefix_iff_eq_append.mp hfront]
      exact hcs
    · exact List.mem_takeWhile_imp (List.mem_of_mem_take hc)

theorem Marked.read {c : Char} {cs : List Char} (h : Marked c cs) (hc : isWhitespace c = false)
    (rest : List Char) : takeMark? c (cs ++ rest) = some rest := by
  obtain ⟨bs, rfl, hbs⟩ := h
  rw [takeMark?, List.append_assoc, trimLeft_append hbs, List.singleton_append,
    trimLeft_cons hc]
  exact if_pos rfl

theorem marked_of_read {c : Char} {cs rest : List Char} (h : takeMark? c cs = some rest) :
    ∃ p, cs = p ++ rest ∧ Marked c p := by
  obtain ⟨bs, hcs, hbs⟩ := exists_blank cs
  rw [takeMark?] at h
  split at h
  · rename_i d more htrim
    split at h
    · rename_i hd
      obtain rfl := Option.some.inj h
      rw [htrim, hd] at hcs
      exact ⟨bs ++ [c], by simpa using hcs, bs, rfl, hbs⟩
    · cases h
  · cases h

/-- A digit is no mark, and neither is a blank. -/
theorem Marked.head {c : Char} {cs : List Char} (h : Marked c cs) (hc : c.isDigit = false)
    (rest : List Char) : ∀ d ∈ (cs ++ rest).head?, d.isDigit = false := by
  obtain ⟨bs, rfl, hbs⟩ := h
  rw [List.append_assoc]
  exact head_append hbs (fun _ hblank => (outside_of_isWhitespace hblank).1) (by simpa using hc)

theorem YearSpelled.read {y : Int} {cs : List Char} (h : YearSpelled y cs) {rest : List Char}
    (hrest : ∀ c ∈ rest.head?, c.isDigit = false) : takeYear? (cs ++ rest) = some (y, rest) := by
  cases h with
  | @bare bs ds n hbs hds hfour =>
    have htrim : trimLeft (bs ++ ds ++ rest) = ds ++ rest := by
      rw [List.append_assoc, trimLeft_append hbs, hds.trimLeft]
    have hread : takeNumber? 4 (ds ++ rest) = some (n, rest) :=
      Numeral.read ⟨[], ds, rfl, by simp [Blank], hds, hfour⟩ hrest
    obtain ⟨c, cs, hcs, hdigit⟩ := hds.head rest
    rw [takeYear?, htrim]
    -- a digit is no sign
    split
    · rename_i hsign
      obtain ⟨rfl, -⟩ := List.cons.inj (hcs.symm.trans hsign)
      exact absurd hdigit (by decide)
    · rename_i hsign
      obtain ⟨rfl, -⟩ := List.cons.inj (hcs.symm.trans hsign)
      exact absurd hdigit (by decide)
    · rw [hread, Option.map_some]
  | @plus bs ds n hbs hds =>
    have hempty : ds.isEmpty = false := by simpa using hds.ne_nil
    rw [takeYear?, List.append_assoc, trimLeft_append hbs, List.cons_append,
      trimLeft_cons (by decide)]
    simp [hds.spanDigits hrest, hempty, hds.value]
  | @minus bs ds n hbs hds =>
    have hempty : ds.isEmpty = false := by simpa using hds.ne_nil
    rw [takeYear?, List.append_assoc, trimLeft_append hbs, List.cons_append,
      trimLeft_cons (by decide)]
    simp [hds.spanDigits hrest, hempty, hds.value]

/-- What was taken behind a sign is spelled by a sign and digits. -/
theorem exists_signed {cs more : List Char} {sign : Char} (htrim : trimLeft cs = sign :: more)
    (hne : (spanDigits more).1.isEmpty = false) :
    ∃ bs ds, cs = bs ++ sign :: ds ++ (spanDigits more).2 ∧ Blank bs ∧
      Decimal (digitsValue (spanDigits more).1) ds := by
  obtain ⟨bs, hcs, hbs⟩ := exists_blank cs
  obtain ⟨hds, hmore⟩ := decimal_of_spanDigits hne
  refine ⟨bs, (spanDigits more).1, ?_, hbs, hds⟩
  rw [List.append_assoc, List.cons_append, hmore, ← htrim]
  exact hcs

theorem yearSpelled_of_read {y : Int} {cs rest : List Char} (h : takeYear? cs = some (y, rest)) :
    ∃ p, cs = p ++ rest ∧ YearSpelled y p := by
  rw [takeYear?] at h
  split at h
  · rename_i more htrim
    simp only at h
    split at h
    · cases h
    rename_i hne
    obtain ⟨bs, ds, hcs, hbs, hds⟩ := exists_signed htrim (Bool.eq_false_iff.mpr hne)
    obtain ⟨rfl, rfl⟩ := Prod.mk.inj (Option.some.inj h)
    exact ⟨_, hcs, .minus hbs hds⟩
  · rename_i more htrim
    simp only at h
    split at h
    · cases h
    rename_i hne
    obtain ⟨bs, ds, hcs, hbs, hds⟩ := exists_signed htrim (Bool.eq_false_iff.mpr hne)
    obtain ⟨rfl, rfl⟩ := Prod.mk.inj (Option.some.inj h)
    exact ⟨_, hcs, .plus hbs hds⟩
  · obtain ⟨bs, hcs, hbs⟩ := exists_blank cs
    obtain ⟨⟨n, more⟩, hread, hpair⟩ := Option.map_eq_some_iff.mp h
    obtain ⟨rfl, rfl⟩ := Prod.mk.inj hpair
    obtain ⟨p, hp, bs', ds, rfl, hbs', hds, hfour⟩ := numeral_of_read hread
    refine ⟨bs ++ bs' ++ ds, ?_, .bare (Blank.append hbs hbs') hds hfour⟩
    rw [hcs, hp, List.append_assoc, List.append_assoc, List.append_assoc]

/-! ### Fractions and distances -/

/-- The fraction of a second in nanoseconds: nothing, or a point and digits, of which the first nine
count. -/
inductive FractionSpelled : Nat → List Char → Prop
  | whole : FractionSpelled 0 []
  | part {ds : List Char} {n : Nat} (hds : Decimal n ds) :
      FractionSpelled (digitsValue (ds.take 9) * 10 ^ (9 - (ds.take 9).length)) ('.' :: ds)

theorem FractionSpelled.opens {nanos : Nat} {cs : List Char} (h : FractionSpelled nanos cs) :
    cs = [] ∨ ∃ ds, cs = '.' :: ds := by
  cases h with
  | whole => exact .inl rfl
  | part => exact .inr ⟨_, rfl⟩

theorem FractionSpelled.read {nanos : Nat} {cs : List Char} (h : FractionSpelled nanos cs)
    {rest : List Char} (hrest : ∀ c ∈ rest.head?, c.isDigit = false ∧ c ≠ '.') :
    takeFraction? (cs ++ rest) = some (nanos, rest) := by
  cases h with
  | whole =>
    rw [List.nil_append, takeFraction?.eq_def]
    split
    · exact absurd rfl (hrest '.' rfl).2
    · rfl
  | @part ds n hds =>
    have hempty : ds.isEmpty = false := by simpa using hds.ne_nil
    have hspan := hds.spanDigits fun c hc => (hrest c hc).1
    simp only [List.cons_append, takeFraction?, hspan, hempty, Bool.false_eq_true, ↓reduceIte]
    rfl

theorem fractionSpelled_of_read {nanos : Nat} {cs rest : List Char}
    (h : takeFraction? cs = some (nanos, rest)) :
    ∃ p, cs = p ++ rest ∧ FractionSpelled nanos p := by
  rw [takeFraction?.eq_def] at h
  split at h
  · rename_i more
    simp only at h
    split at h
    · cases h
    · rename_i hne
      obtain ⟨hds, hmore⟩ := decimal_of_spanDigits (Bool.eq_false_iff.mpr hne)
      obtain ⟨rfl, rfl⟩ := Prod.mk.inj (Option.some.inj h)
      exact ⟨'.' :: (spanDigits more).1, by rw [List.cons_append, hmore], .part hds⟩
  · obtain ⟨rfl, rfl⟩ := Prod.mk.inj (Option.some.inj h)
    exact ⟨[], rfl, .whole⟩

def Pair (n : Nat) (ds : List Char) : Prop := Decimal n ds ∧ ds.length = 2

inductive SizeSpelled : Nat → List Char → Prop
  | mk {hs seps ms : List Char} {hours minutes : Nat} (hhours : Pair hours hs)
      (hseps : ∀ c ∈ seps, c = ':' ∨ isWhitespace c = true) (hminutes : Pair minutes ms)
      (hfits : minutes ≤ 59) : SizeSpelled (hours * 3600 + minutes * 60) (hs ++ (seps ++ ms))

inductive OffsetSpelled : Int → List Char → Prop
  | zulu {z : Char} (hz : z = 'Z' ∨ z = 'z') : OffsetSpelled 0 [z]
  | utc {u t c : Char} (hu : u = 'u' ∨ u = 'U') (ht : t = 't' ∨ t = 'T') (hc : c = 'c' ∨ c = 'C') :
      OffsetSpelled 0 [u, t, c]
  | ahead {cs : List Char} {n : Nat} (h : SizeSpelled n cs) : OffsetSpelled n ('+' :: cs)
  | behind {sign : Char} {cs : List Char} {n : Nat} (hsign : sign = '-' ∨ sign = '−')
      (h : SizeSpelled n cs) : OffsetSpelled (-n) (sign :: cs)

theorem Pair.read {n : Nat} {ds : List Char} (h : Pair n ds) (rest : List Char) :
    takeTwo? (ds ++ rest) = some (n, rest) := by
  obtain ⟨hds, htwo⟩ := h
  obtain ⟨a, b, rfl⟩ : ∃ a b, ds = [a, b] := by
    rcases ds with _ | ⟨a, _ | ⟨b, _ | _⟩⟩
    all_goals simp_all
  have ha := hds.digits a (by simp)
  have hb := hds.digits b (by simp)
  simp [takeTwo?, ha, hb, hds.value]

theorem pair_of_read {n : Nat} {cs rest : List Char} (h : takeTwo? cs = some (n, rest)) :
    ∃ p, cs = p ++ rest ∧ Pair n p := by
  rw [takeTwo?.eq_def] at h
  split at h
  · rename_i a b more
    split at h
    · rename_i hdigits
      obtain ⟨rfl, rfl⟩ := Prod.mk.inj (Option.some.inj h)
      exact ⟨[a, b], rfl, ⟨by simp, by simpa using hdigits, rfl⟩, rfl⟩
    · cases h
  · cases h

theorem SizeSpelled.read {n : Nat} {cs : List Char} (h : SizeSpelled n cs) (rest : List Char) :
    takeOffsetSize? (cs ++ rest) = some (n, rest) := by
  obtain @⟨hs, seps, ms, hours, minutes, hhours, hseps, hminutes, hfits⟩ := h
  have hdrop : (seps ++ (ms ++ rest)).dropWhile (fun c => c == ':' || isWhitespace c) =
      ms ++ rest := by
    rw [List.dropWhile_append_of_pos (by simpa using hseps)]
    obtain ⟨c, cs, hcs, hdigit⟩ := hminutes.1.head rest
    have hcolon : c ≠ ':' := by
      rintro rfl
      exact absurd hdigit (by decide)
    rw [hcs, List.dropWhile_cons_of_neg (by simp [hcolon, isWhitespace_of_isDigit c hdigit])]
  have hfit : ¬ 59 < minutes := by omega
  simp only [takeOffsetSize?, List.append_assoc, hhours.read, hdrop, hminutes.read, hfit, if_false]

theorem sizeSpelled_of_read {n : Nat} {cs rest : List Char}
    (h : takeOffsetSize? cs = some (n, rest)) : ∃ p, cs = p ++ rest ∧ SizeSpelled n p := by
  rw [takeOffsetSize?] at h
  split at h
  · cases h
  rename_i hours more hreadHours
  split at h
  · cases h
  rename_i minutes rest' hreadMinutes
  split at h
  · cases h
  rename_i hfits
  obtain ⟨rfl, rfl⟩ := Prod.mk.inj (Option.some.inj h)
  obtain ⟨hs, rfl, hhours⟩ := pair_of_read hreadHours
  obtain ⟨ms, hmore, hminutes⟩ := pair_of_read hreadMinutes
  refine ⟨hs ++ (more.takeWhile (fun c => c == ':' || isWhitespace c) ++ ms), ?_,
    .mk hhours (fun c hc => by simpa using List.mem_takeWhile_imp hc) hminutes (by omega)⟩
  rw [List.append_assoc, List.append_assoc, ← hmore, List.takeWhile_append_dropWhile]

theorem OffsetSpelled.read {o : Int} {cs : List Char} (h : OffsetSpelled o cs) (rest : List Char) :
    takeOffset? (cs ++ rest) = some (o, rest) := by
  cases h with
  | zulu hz => rcases hz with rfl | rfl <;> rfl
  | utc hu ht hc =>
    rcases hu with rfl | rfl <;> rcases ht with rfl | rfl <;> rcases hc with rfl | rfl <;> rfl
  | ahead h => simp [takeOffset?, h.read]
  | behind hsign h => rcases hsign with rfl | rfl <;> simp [takeOffset?, h.read]

theorem offsetSpelled_of_read {o : Int} {cs rest : List Char}
    (h : takeOffset? cs = some (o, rest)) : ∃ p, cs = p ++ rest ∧ OffsetSpelled o p := by
  -- behind a sign stands a size, which counts up or down
  have hsize (f : Nat → Int) {more : List Char}
      (hmap : ((takeOffsetSize? more).map fun r => (f r.1, r.2)) = some (o, rest)) :
      ∃ p n, more = p ++ rest ∧ SizeSpelled n p ∧ f n = o := by
    obtain ⟨⟨n, _⟩, hread, hpair⟩ := Option.map_eq_some_iff.mp hmap
    obtain ⟨hn, rfl⟩ := Prod.mk.inj hpair
    obtain ⟨p, hmore, hp⟩ := sizeSpelled_of_read hread
    exact ⟨p, n, hmore, hp, hn⟩
  rw [takeOffset?.eq_def] at h
  simp only at h
  split at h
  · obtain ⟨rfl, rfl⟩ := Prod.mk.inj (Option.some.inj h)
    exact ⟨['Z'], rfl, .zulu (.inl rfl)⟩
  · obtain ⟨rfl, rfl⟩ := Prod.mk.inj (Option.some.inj h)
    exact ⟨['z'], rfl, .zulu (.inr rfl)⟩
  · obtain ⟨p, n, rfl, hp, rfl⟩ := hsize (fun n => n) h
    exact ⟨'+' :: p, rfl, .ahead hp⟩
  · obtain ⟨p, n, rfl, hp, rfl⟩ := hsize (fun n => -(n : Int)) h
    exact ⟨'-' :: p, rfl, .behind (.inl rfl) hp⟩
  · obtain ⟨p, n, rfl, hp, rfl⟩ := hsize (fun n => -(n : Int)) h
    exact ⟨'−' :: p, rfl, .behind (.inr rfl) hp⟩
  · split at h
    · rename_i u t c more _ _ _ _ _ hutc
      simp only [Bool.and_eq_true, decide_eq_true_eq] at hutc
      obtain ⟨rfl, rfl⟩ := Prod.mk.inj (Option.some.inj h)
      exact ⟨[u, t, c], rfl, .utc (eq_of_toLower hutc.1.1) (eq_of_toLower hutc.1.2)
        (eq_of_toLower hutc.2)⟩
    · cases h
  · cases h

theorem OffsetSpelled.opens {o : Int} {cs : List Char} (h : OffsetSpelled o cs) :
    ∃ c more, cs = c :: more ∧ isWhitespace c = false ∧ c.isDigit = false ∧ c ≠ '.' := by
  cases h with
  | zulu hz => rcases hz with rfl | rfl <;> exact ⟨_, _, rfl, by decide⟩
  | utc hu => rcases hu with rfl | rfl <;> exact ⟨_, _, rfl, by decide⟩
  | ahead => exact ⟨_, _, rfl, by decide⟩
  | behind hsign => rcases hsign with rfl | rfl <;> exact ⟨_, _, rfl, by decide⟩

/-! ### Whole times -/

/-- A date with its parts in their order and lines between them. -/
inductive DateSpelled : Civil → List Char → Prop
  | mk {d : Civil} {year yearEnd month monthEnd day : List Char} (hyear : YearSpelled d.year year)
      (hyearEnd : Marked '-' yearEnd) (hmonth : Numeral 2 d.month month)
      (hmonthEnd : Marked '-' monthEnd) (hday : Numeral 2 d.day day) :
      DateSpelled d (year ++ (yearEnd ++ (month ++ (monthEnd ++ day))))

/-- A time of day as its seconds and their fraction. Second 60 is the leap second behind second 59,
in any minute. -/
inductive TimeSpelled : Nat → Nat → List Char → Prop
  | mk {hour minute second nanos : Nat} {hs hourEnd ms minuteEnd ss fraction : List Char}
      (hhour : Numeral 2 hour hs) (hhourEnd : Marked ':' hourEnd) (hminute : Numeral 2 minute ms)
      (hminuteEnd : Marked ':' minuteEnd) (hsecond : Numeral 2 second ss)
      (hfraction : FractionSpelled nanos fraction) (hhour_lt : hour < 24) (hminute_lt : minute < 60)
      (hsecond_le : second ≤ 60) :
      TimeSpelled (hour * 3600 + minute * 60 + min second 59)
        (if second = 60 then nanos + 1000000000 else nanos)
        (hs ++ (hourEnd ++ (ms ++ (minuteEnd ++ (ss ++ fraction)))))

/-- A text that spells an instant: a date that the calendar has, a time of day, and how far both are
from universal time. -/
inductive Spelled (t : Instant) : List Char → Prop
  | mk {d : Civil} {seconds frac : Nat} {offset : Int} {date time front os back : List Char}
      {separator : Char} (hdate : DateSpelled d date)
      (hseparator : separator = 'T' ∨ separator = 't' ∨ separator = ' ')
      (htime : TimeSpelled seconds frac time) (hfront : Blank front)
      (hoffset : OffsetSpelled offset os) (hback : Blank back) (hexists : d.Exists)
      (hyear : -262143 ≤ d.year ∧ d.year ≤ 262142) (hnear : offset.natAbs < 86400)
      (hsecs : t.secs = d.toDays * 86400 + seconds - offset) (hfrac : t.frac = frac) :
      Spelled t (date ++ separator :: (time ++ (front ++ (os ++ back))))

theorem DateSpelled.read {d : Civil} {cs : List Char} (h : DateSpelled d cs) {rest : List Char}
    (hrest : ∀ c ∈ rest.head?, c.isDigit = false) : takeDate? (cs ++ rest) = some (d, rest) := by
  obtain @⟨year, yearEnd, month, monthEnd, day, hyear, hyearEnd, hmonth, hmonthEnd, hday⟩ := h
  simp only [takeDate?, List.append_assoc, hyear.read (hyearEnd.head rfl _),
    hyearEnd.read (by decide), hmonth.read (hmonthEnd.head rfl _), hmonthEnd.read (by decide),
    hday.read hrest, Option.bind_eq_bind, Option.bind_some]

theorem dateSpelled_of_read {d : Civil} {cs rest : List Char} (h : takeDate? cs = some (d, rest)) :
    ∃ p, cs = p ++ rest ∧ DateSpelled d p := by
  simp only [takeDate?, Option.bind_eq_bind, Option.bind_eq_some_iff, Prod.exists,
    Option.some.injEq, Prod.mk.injEq] at h
  obtain ⟨y, _, hyear, _, hyearEnd, m, _, hmonth, _, hmonthEnd, n, _, hday, rfl, rfl⟩ := h
  obtain ⟨year, rfl, hyear'⟩ := yearSpelled_of_read hyear
  obtain ⟨yearEnd, rfl, hyearEnd'⟩ := marked_of_read hyearEnd
  obtain ⟨month, rfl, hmonth'⟩ := numeral_of_read hmonth
  obtain ⟨monthEnd, rfl, hmonthEnd'⟩ := marked_of_read hmonthEnd
  obtain ⟨day, rfl, hday'⟩ := numeral_of_read hday
  exact ⟨_, by simp only [List.append_assoc], .mk hyear' hyearEnd' hmonth' hmonthEnd' hday'⟩

theorem TimeSpelled.read {seconds frac : Nat} {cs : List Char} (h : TimeSpelled seconds frac cs)
    {rest : List Char} (hrest : ∀ c ∈ rest.head?, c.isDigit = false ∧ c ≠ '.') :
    takeTime? (cs ++ rest) = some ((seconds, frac), rest) := by
  obtain @⟨hour, minute, second, nanos, hs, hourEnd, ms, minuteEnd, ss, fraction, hhour, hhourEnd,
    hminute, hminuteEnd, hsecond, hfraction, hhour_lt, hminute_lt, hsecond_le⟩ := h
  have hfits : (decide (23 < hour) || decide (59 < minute) || decide (60 < second)) = false := by
    simp
    omega
  have hafter : ∀ c ∈ (fraction ++ rest).head?, c.isDigit = false := by
    rcases hfraction.opens with hnone | ⟨ds, hds⟩
    · rw [hnone]
      exact fun c hc => (hrest c hc).1
    · rw [hds]
      simp
  simp only [takeTime?, List.append_assoc, hhour.read (hhourEnd.head rfl _),
    hhourEnd.read (by decide), hminute.read (hminuteEnd.head rfl _), hminuteEnd.read (by decide),
    hsecond.read hafter, hfraction.read hrest, Option.bind_eq_bind, Option.bind_some, hfits,
    Bool.false_eq_true, ↓reduceIte]
  split
  · rename_i hsixty
    rw [hsixty]
    rfl
  · rw [Nat.min_eq_left (by omega)]

theorem timeSpelled_of_read {seconds frac : Nat} {cs rest : List Char}
    (h : takeTime? cs = some ((seconds, frac), rest)) :
    ∃ p, cs = p ++ rest ∧ TimeSpelled seconds frac p := by
  simp only [takeTime?, Option.bind_eq_bind, Option.bind_eq_some_iff, Prod.exists] at h
  obtain ⟨hour, _, hhour, _, hhourEnd, minute, _, hminute, _, hminuteEnd, second, _, hsecond,
    nanos, _, hfraction, h⟩ := h
  obtain ⟨hs, rfl, hhour'⟩ := numeral_of_read hhour
  obtain ⟨hourEnd, rfl, hhourEnd'⟩ := marked_of_read hhourEnd
  obtain ⟨ms, rfl, hminute'⟩ := numeral_of_read hminute
  obtain ⟨minuteEnd, rfl, hminuteEnd'⟩ := marked_of_read hminuteEnd
  obtain ⟨ss, rfl, hsecond'⟩ := numeral_of_read hsecond
  obtain ⟨fraction, rfl, hfraction'⟩ := fractionSpelled_of_read hfraction
  split at h
  · cases h
  rename_i hfits
  simp only [Bool.or_eq_true, decide_eq_true_eq, not_or, Nat.not_lt] at hfits
  obtain ⟨⟨hhour_lt, hminute_lt⟩, hsecond_le⟩ := hfits
  have hspelled := TimeSpelled.mk hhour' hhourEnd' hminute' hminuteEnd' hsecond' hfraction'
    (by omega) (by omega) hsecond_le
  split at h
  · rename_i hsixty
    obtain ⟨hvalues, rfl⟩ := Prod.mk.inj (Option.some.inj h)
    obtain ⟨rfl, rfl⟩ := Prod.mk.inj hvalues
    rw [if_pos hsixty, hsixty] at hspelled
    exact ⟨_, by simp only [List.append_assoc], hspelled⟩
  · rename_i hfewer
    obtain ⟨hvalues, rfl⟩ := Prod.mk.inj (Option.some.inj h)
    obtain ⟨rfl, rfl⟩ := Prod.mk.inj hvalues
    rw [if_neg hfewer, Nat.min_eq_left (by omega)] at hspelled
    exact ⟨_, by simp only [List.append_assoc], hspelled⟩

theorem ofParts?_eq_some_iff (secs : Int) (frac : Nat) (t : Instant) :
    ofParts? secs frac = some t ↔ t.secs = secs ∧ t.frac = frac := by
  unfold ofParts?
  constructor
  · intro h
    split at h
    · obtain rfl := Option.some.inj h
      exact ⟨rfl, rfl⟩
    · cases h
  · rintro ⟨rfl, rfl⟩
    exact dif_pos ⟨⟨t.first_le, t.le_last⟩, t.frac_lt, t.leap_at⟩

theorem Spelled.read {t : Instant} {cs : List Char} (h : t.Spelled cs) : ofChars? cs = some t := by
  obtain @⟨d, seconds, frac, offset, date, time, front, os, back, separator, hdate, hseparator,
    htime, hfront, hoffset, hback, hexists, hyear, hnear, hsecs, hfrac⟩ := h
  obtain ⟨c, more, hos, hblank, hc⟩ := hoffset.opens
  have hdigit (rest : List Char) : ∀ c ∈ (separator :: rest).head?, c.isDigit = false := by
    intro c hc
    obtain rfl := Option.some.inj hc
    rcases hseparator with rfl | rfl | rfl <;> rfl
  have hafter : ∀ c ∈ (front ++ (os ++ back)).head?, c.isDigit = false ∧ c ≠ '.' := by
    rw [hos]
    exact head_append hfront (fun _ => outside_of_isWhitespace) (by simpa using hc)
  have htaken (rest : List Char) : takeSeparator? (separator :: rest) = some rest := by
    rw [takeSeparator?, if_pos]
    simpa [or_assoc] using hseparator
  have hfront' : trimLeft (front ++ (os ++ back)) = os ++ back := by
    rw [trimLeft_append hfront, hos, List.cons_append, trimLeft_cons hblank]
  have hback' : trimLeft back = [] := by
    have hall := trimLeft_append hback []
    rwa [List.append_nil] at hall
  simp only [ofChars?, hdate.read (hdigit _), htaken, htime.read hafter, hfront', hoffset.read,
    hback', Option.bind_eq_bind, Option.bind_some]
  rw [if_neg (by simpa using hnear), if_pos ⟨hexists, hyear⟩, ofParts?_eq_some_iff]
  exact ⟨hsecs, hfrac⟩

theorem spelled_of_read {t : Instant} {cs : List Char} (h : ofChars? cs = some t) :
    t.Spelled cs := by
  simp only [ofChars?, Option.bind_eq_bind, Option.bind_eq_some_iff, Prod.exists] at h
  obtain ⟨d, _, hdate, more, hseparator, seconds, frac, rest, htime, offset, back, hoffset, h⟩ := h
  obtain ⟨date, rfl, hdate'⟩ := dateSpelled_of_read hdate
  obtain ⟨time, rfl, htime'⟩ := timeSpelled_of_read htime
  obtain ⟨front, hrest, hfront⟩ := exists_blank rest
  obtain ⟨os, hos, hoffset'⟩ := offsetSpelled_of_read hoffset
  rw [takeSeparator?.eq_def] at hseparator
  split at hseparator
  · rename_i separator _
    split at hseparator
    · rename_i hmark
      obtain rfl := Option.some.inj hseparator
      split at h
      · cases h
      rename_i hend
      split at h
      · rename_i hin
        simp only [Bool.or_eq_true, Bool.not_eq_true', decide_eq_true_eq, not_or,
          Bool.not_eq_false, List.isEmpty_iff] at hend
        obtain ⟨hback, hnear⟩ := hend
        obtain ⟨hsecs, hfrac⟩ := (ofParts?_eq_some_iff _ _ t).mp h
        obtain ⟨bs, hbs, hblank⟩ := exists_blank back
        rw [hback, List.append_nil] at hbs
        rw [hrest, hos]
        exact .mk hdate' (by simpa [or_assoc] using hmark) htime' hfront hoffset' (hbs ▸ hblank)
          hin.1 hin.2 (by omega) hsecs hfrac
      · cases h
    · cases hseparator
  · cases hseparator

/-- A text is read as an instant exactly if it spells it. -/
theorem ofChars?_eq_some_iff (t : Instant) (cs : List Char) : ofChars? cs = some t ↔ t.Spelled cs :=
  ⟨spelled_of_read, Spelled.read⟩

theorem ofText?_eq_some_iff (t : Instant) (text : String) :
    ofText? text = some t ↔ t.Spelled text.toList := ofChars?_eq_some_iff t text.toList

end Instant
end ListKeeper
