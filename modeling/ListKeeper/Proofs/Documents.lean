import ListKeeper.Json.Printer
import ListKeeper.Json.Reader
import ListKeeper.Proofs.Digits

/-! Documents as text and back. A document without fractions, whose whole numbers 64 bits hold and
whose objects have no name twice, is read from its text as it is, as long as it is not nested too
deep. Main statement: `Json.read?_text`. -/
namespace ListKeeper.Json

/-! ### What is read back -/

mutual

/-- A document that is read back from its text, nested at most so deep. -/
def Legible : Nat → Json → Prop
  | _, .null => True
  | _, .bool _ => True
  | _, .int n => -9223372036854775808 ≤ n ∧ n < 18446744073709551616
  | _, .float _ => False
  | _, .str _ => True
  | 0, .arr _ => False
  | depth + 1, .arr items => LegibleItems depth items
  | 0, .obj _ => False
  | depth + 1, .obj fields => LegibleFields depth fields

def LegibleItems : Nat → List Json → Prop
  | _, [] => True
  | depth, v :: rest => Legible depth v ∧ LegibleItems depth rest

def LegibleFields : Nat → List (String × Json) → Prop
  | _, [] => True
  | depth, (key, v) :: rest =>
    (∀ f ∈ rest, f.1 ≠ key) ∧ Legible depth v ∧ LegibleFields depth rest

end

def Ends (rest : List Char) : Prop := ∀ c ∈ rest.head?, c = ',' ∨ c = ']' ∨ c = '\x7d'

/-! ### Strings -/

theorem hexDigit?_hexChar : ∀ n < 16, hexDigit? (hexChar n) = some n := by decide

theorem unicode?_control (c : Char) (h : c.toNat < 0x20) (rest : List Char) :
    unicode? ('0' :: '0' :: hexChar (c.toNat / 16) :: hexChar (c.toNat % 16) :: rest) =
      some (c, rest) := by
  have hzero : hexDigit? '0' = some 0 := by decide
  have hunit : hexUnit? ('0' :: '0' :: hexChar (c.toNat / 16) :: hexChar (c.toNat % 16) :: rest) =
      some (c.toNat, rest) := by
    simp only [hexUnit?, hzero, hexDigit?_hexChar _ (by omega : c.toNat / 16 < 16),
      hexDigit?_hexChar _ (by omega : c.toNat % 16 < 16), Option.some.injEq, Prod.mk.injEq,
      and_true]
    omega
  have hlow : (decide (c.toNat < 0xd800) || decide (0xdfff < c.toNat)) = true := by
    simp
    omega
  simp only [unicode?, hunit, hlow, if_true, Char.ofNat_toNat]

/-- A character is written as itself, as a backslash and a letter for it, or by its number. -/
theorem escaped_cases (c : Char) :
    (∃ d, escaped c = ['\\', d] ∧ d ≠ 'u' ∧ escape? d = some c) ∨
      (c.toNat < 0x20 ∧
        escaped c = ['\\', 'u', '0', '0', hexChar (c.toNat / 16), hexChar (c.toNat % 16)]) ∨
      (c ≠ '"' ∧ c ≠ '\\' ∧ ¬ c.toNat < 0x20 ∧ escaped c = [c]) := by
  by_cases hletter : c ∈ ['"', '\\', '\x08', '\x0c', '\n', '\r', '\t']
  · left
    simp only [List.mem_cons, List.not_mem_nil, or_false] at hletter
    rcases hletter with rfl | rfl | rfl | rfl | rfl | rfl | rfl <;> exact ⟨_, rfl, by decide, rfl⟩
  · right
    simp only [List.mem_cons, List.not_mem_nil, or_false, not_or] at hletter
    obtain ⟨hquote, hslash, hback, hfeed, hline, hreturn, htab⟩ := hletter
    by_cases hcontrol : c.toNat < 0x20
    · simp [escaped, hquote, hslash, hback, hfeed, hline, hreturn, htab, hcontrol]
    · simp [escaped, hquote, hslash, hback, hfeed, hline, hreturn, htab, hcontrol]

/-- A character is read as it was written, with a backslash or without. -/
theorem readString_escaped (fuel : Nat) (acc : List Char) (c : Char) (rest : List Char) :
    readString (fuel + 1) acc (escaped c ++ rest) = readString fuel (c :: acc) rest := by
  rcases escaped_cases c with ⟨d, hd, hu, hescape⟩ | ⟨hcontrol, hc⟩ | ⟨hquote, hslash, hplain, hc⟩
  · rw [hd, List.cons_append, List.singleton_append, readString.eq_def]
    simp [hescape]
  · rw [hc]
    simp only [List.cons_append, List.nil_append, readString, unicode?_control c hcontrol rest]
  · rw [hc, List.singleton_append, readString.eq_def]
    simp [hslash, hplain]

/-- The rest of a string is read up to its closing quote. -/
theorem readString_flatMap (cs : List Char) (fuel : Nat) (acc rest : List Char)
    (hfuel : cs.length < fuel) :
    readString fuel acc (cs.flatMap escaped ++ '"' :: rest) =
      some (String.ofList (acc.reverse ++ cs), rest) := by
  induction cs generalizing fuel acc with
  | nil =>
    obtain ⟨fuel, rfl⟩ : ∃ n, fuel = n + 1 := ⟨fuel - 1, by simp at hfuel; omega⟩
    simp [readString]
  | cons c cs ih =>
    obtain ⟨fuel, rfl⟩ : ∃ n, fuel = n + 1 := ⟨fuel - 1, by simp at hfuel; omega⟩
    rw [List.flatMap_cons, List.append_assoc, readString_escaped, ih fuel _ (by simpa using hfuel)]
    simp

theorem toList_quoted (s : String) (rest : List Char) :
    (quoted s).toList ++ rest = '"' :: (s.toList.flatMap escaped ++ '"' :: rest) := by
  simp [quoted]

theorem length_le_escaped (cs : List Char) : cs.length ≤ (cs.flatMap escaped).length := by
  induction cs with
  | nil => exact Nat.le_refl _
  | cons c cs ih =>
    have hc : 0 < (escaped c).length := by
      rcases escaped_cases c with ⟨d, hd, -⟩ | ⟨-, hc⟩ | ⟨-, -, -, hc⟩
      · simp [hd]
      · simp [hc]
      · simp [hc]
    rw [List.flatMap_cons, List.length_append, List.length_cons]
    omega

/-- A string behind its opening quote is read with as much fuel as there are characters. -/
theorem readString_quoted (s : String) (rest : List Char) :
    readString ((s.toList.flatMap escaped ++ '"' :: rest).length + 1) []
      (s.toList.flatMap escaped ++ '"' :: rest) = some (s, rest) := by
  have hlength := length_le_escaped s.toList
  rw [readString_flatMap s.toList _ [] rest (by rw [List.length_append]; omega)]
  simp

/-! ### Numbers -/

theorem toList_text_ofNat (k : Nat) : (text (.int k)).toList = Nat.toDigits 10 k := by
  simp [text, toString, Int.repr]

theorem toList_text_negSucc (k : Nat) :
    (text (.int (.negSucc k))).toList = '-' :: Nat.toDigits 10 (k + 1) := by
  simp [text, toString, Int.repr]

theorem Ends.number {rest : List Char} (h : Ends rest) :
    (∀ c ∈ rest.head?, c.isDigit = false) ∧ readPart? rest = some ([], rest) ∧
      readPower? rest = some (none, rest) := by
  cases rest with
  | nil => exact ⟨by simp, rfl, rfl⟩
  | cons c rest =>
    refine ⟨fun d hd => ?_, ?_, ?_⟩
    · obtain rfl := Option.some.inj hd
      rcases h c rfl with rfl | rfl | rfl <;> rfl
    · rcases h c rfl with rfl | rfl | rfl <;> rfl
    · rcases h c rfl with rfl | rfl | rfl <;> rfl

/-- A number opens with a zero only if that is its only digit. -/
theorem toDigits_whole (k : Nat) :
    ((Nat.toDigits 10 k).isEmpty ||
      (decide ((Nat.toDigits 10 k).head? = some '0') && decide (1 < (Nat.toDigits 10 k).length))) =
        false := by
  have hempty : (Nat.toDigits 10 k).isEmpty = false := by simp [Nat.toDigits_ne_nil]
  rw [hempty, Bool.false_or]
  by_cases hk : 0 < k
  · simp [head?_toDigits k hk]
  · rw [show k = 0 by omega]
    rfl

theorem spanDigits_toDigits (k : Nat) {rest : List Char} (h : Ends rest) :
    spanDigits (Nat.toDigits 10 k ++ rest) = (Nat.toDigits 10 k, rest) :=
  spanDigits_append _ rest
    (fun _ hc => Nat.isDigit_of_mem_toDigits (by decide) (by decide) hc) h.number.1

theorem readNumber_ofNat (k : Nat) (hk : k ≤ Digits.maxKept) {rest : List Char} (h : Ends rest) :
    readNumber (Nat.toDigits 10 k ++ rest) = some (.int k, rest) := by
  have hspan := spanDigits_toDigits k h
  -- The first character is a digit and so no sign.
  obtain ⟨c, cs, hcs, hd⟩ := toDigits_opens k
  have hc : c ≠ '-' := by
    rintro rfl
    exact absurd hd (by decide)
  have hfront : Nat.toDigits 10 k ++ rest = c :: (cs ++ rest) := by rw [hcs, List.cons_append]
  rw [hfront] at hspan ⊢
  simp [readNumber, hc, hspan, -Bool.or_eq_true, toDigits_whole, h.number, digitsValue_toDigits, hk]

theorem readNumber_negSucc (k : Nat) (hk : k + 1 ≤ 9223372036854775808) {rest : List Char}
    (h : Ends rest) :
    readNumber ('-' :: Nat.toDigits 10 (k + 1) ++ rest) = some (.int (.negSucc k), rest) := by
  simp [readNumber, spanDigits_toDigits _ h, -Bool.or_eq_true, toDigits_whole, h.number,
    digitsValue_toDigits, hk, Int.negSucc_eq]

/-- The digits of a whole number are read with its sign. -/
theorem readNumber_int (n : Int) (h : -9223372036854775808 ≤ n ∧ n < 18446744073709551616)
    (rest : List Char) (hrest : Ends rest) :
    readNumber ((text (.int n)).toList ++ rest) = some (.int n, rest) := by
  cases n with
  | ofNat k =>
    rw [Int.ofNat_eq_natCast] at h ⊢
    rw [toList_text_ofNat]
    exact readNumber_ofNat k (by rw [Digits.maxKept]; omega) hrest
  | negSucc k =>
    rw [toList_text_negSucc]
    exact readNumber_negSucc k (by omega) hrest

/-! ### Values, lists and objects -/

theorem skipBlanks_cons {c : Char} (h : isBlank c = false) (cs : List Char) :
    skipBlanks (c :: cs) = c :: cs := List.dropWhile_cons_of_neg (by simp [h])

theorem text_int_opens (n : Int) :
    ∃ c cs, (text (.int n)).toList = c :: cs ∧ (c = '-' ∨ c.isDigit = true) := by
  cases n with
  | ofNat k =>
    obtain ⟨c, cs, hcs, hc⟩ := toDigits_opens k
    exact ⟨c, cs, (toList_text_ofNat k).trans hcs, .inr hc⟩
  | negSucc k => exact ⟨'-', _, toList_text_negSucc k, .inl rfl⟩

/-- The character that opens a number opens nothing else. -/
theorem opens_number {c : Char} (h : c = '-' ∨ c.isDigit = true) :
    isBlank c = false ∧ ∀ d ∈ ['n', 't', 'f', '"', '[', ']', '\x7b'], c ≠ d := by
  constructor
  · by_contra hblank
    simp only [isBlank, Bool.not_eq_false, Bool.or_eq_true, beq_iff_eq] at hblank
    rcases hblank with ((rfl | rfl) | rfl) | rfl <;> revert h <;> decide
  · rintro d hd rfl
    revert h
    simp only [List.mem_cons, List.not_mem_nil, or_false] at hd
    rcases hd with rfl | rfl | rfl | rfl | rfl | rfl | rfl <;> decide

/-- The text of a document opens with a character that tells what kind of document it is. -/
theorem text_opens (v : Json) (h : Legible depth v) :
    ∃ c cs, v.text.toList = c :: cs ∧ isBlank c = false ∧ c ≠ ']' := by
  cases v with
  | null => exact ⟨'n', _, rfl, by decide, by decide⟩
  | bool b => cases b <;> exact ⟨_, _, rfl, by decide, by decide⟩
  | int n =>
    obtain ⟨c, cs, hcs, hc⟩ := text_int_opens n
    exact ⟨c, cs, hcs, (opens_number hc).1, (opens_number hc).2 _ (by decide)⟩
  | float x => cases h
  | str s => exact ⟨'"', _, by simp [text, quoted]; rfl, by decide, by decide⟩
  | arr items => exact ⟨'[', _, by simp [text]; rfl, by decide, by decide⟩
  | obj fields => exact ⟨'\x7b', _, by simp [text]; rfl, by decide, by decide⟩

theorem readValue_number {c : Char} (hc : c = '-' ∨ c.isDigit = true) (fuel depth : Nat)
    (cs : List Char) : readValue (fuel + 1) depth (c :: cs) = readNumber (c :: cs) := by
  obtain ⟨hblank, hother⟩ := opens_number hc
  simp only [List.forall_mem_cons] at hother
  rw [readValue, skipBlanks_cons hblank]
  simp [hother]

theorem readValue_arr {c : Char} (hblank : isBlank c = false) (hend : c ≠ ']') (fuel depth : Nat)
    (cs : List Char) :
    readValue (fuel + 1) (depth + 1) ('[' :: c :: cs) = readItems fuel depth [] (c :: cs) := by
  simp [readValue, skipBlanks_cons (by decide : isBlank '[' = false), skipBlanks_cons hblank, hend]

theorem readValue_obj (fuel depth : Nat) (cs : List Char) :
    readValue (fuel + 1) (depth + 1) ('\x7b' :: '"' :: cs) =
      readFields fuel depth [] ('"' :: cs) := by
  simp [readValue, skipBlanks_cons (by decide : isBlank '\x7b' = false),
    skipBlanks_cons (by decide : isBlank '"' = false)]

theorem readItems_next {fuel depth : Nat} {cs rest : List Char} {v : Json}
    (h : readValue fuel depth cs = some (v, ',' :: rest)) (acc : List Json) :
    readItems (fuel + 1) depth acc cs = readItems fuel depth (v :: acc) rest := by
  simp only [readItems, h, skipBlanks_cons (by decide : isBlank ',' = false)]

theorem readItems_last {fuel depth : Nat} {cs rest : List Char} {v : Json}
    (h : readValue fuel depth cs = some (v, ']' :: rest)) (acc : List Json) :
    readItems (fuel + 1) depth acc cs = some (.arr (v :: acc).reverse, rest) := by
  simp only [readItems, h, skipBlanks_cons (by decide : isBlank ']' = false)]

theorem readFields_next {fuel depth : Nat} {cs rest : List Char} {v : Json} (key : String)
    (h : readValue fuel depth cs = some (v, ',' :: rest)) (acc : List (String × Json)) :
    readFields (fuel + 1) depth acc ((quoted key).toList ++ ':' :: cs) =
      readFields fuel depth (setField acc key v) rest := by
  simp only [readFields, toList_quoted, readString_quoted, h,
    skipBlanks_cons (by decide : isBlank '"' = false),
    skipBlanks_cons (by decide : isBlank ':' = false),
    skipBlanks_cons (by decide : isBlank ',' = false)]

theorem readFields_last {fuel depth : Nat} {cs rest : List Char} {v : Json} (key : String)
    (h : readValue fuel depth cs = some (v, '\x7d' :: rest)) (acc : List (String × Json)) :
    readFields (fuel + 1) depth acc ((quoted key).toList ++ ':' :: cs) =
      some (.obj (setField acc key v), rest) := by
  simp only [readFields, toList_quoted, readString_quoted, h,
    skipBlanks_cons (by decide : isBlank '"' = false),
    skipBlanks_cons (by decide : isBlank ':' = false),
    skipBlanks_cons (by decide : isBlank '\x7d' = false)]

theorem setField_new {acc : List (String × Json)} {key : String} (h : ∀ f ∈ acc, f.1 ≠ key)
    (v : Json) : setField acc key v = acc ++ [(key, v)] := by
  have hnone : acc.any (fun f => f.1 == key) = false := by simpa using h
  simp [setField, hnone]

def itemChars (items : List Json) : List Char := (String.intercalate "," (itemTexts items)).toList

def fieldChars (fields : List (String × Json)) : List Char :=
  (String.intercalate "," (fieldTexts fields)).toList

theorem toList_text_arr (items : List Json) :
    (text (.arr items)).toList = '[' :: (itemChars items ++ [']']) := by
  simp [text, itemChars]

theorem toList_text_obj (fields : List (String × Json)) :
    (text (.obj fields)).toList = '\x7b' :: (fieldChars fields ++ ['\x7d']) := by
  simp [text, fieldChars]

theorem itemChars_singleton (v : Json) : itemChars [v] = v.text.toList := by
  simp [itemChars, itemTexts]

theorem itemChars_cons (v w : Json) (items : List Json) :
    itemChars (v :: w :: items) = v.text.toList ++ ',' :: itemChars (w :: items) := by
  simp [itemChars, itemTexts, String.intercalate_cons_cons]

theorem fieldChars_singleton (key : String) (v : Json) :
    fieldChars [(key, v)] = (quoted key).toList ++ ':' :: v.text.toList := by
  simp [fieldChars, fieldTexts]

theorem fieldChars_cons (key : String) (v : Json) (f : String × Json)
    (fields : List (String × Json)) :
    fieldChars ((key, v) :: f :: fields) =
      (quoted key).toList ++ ':' :: (v.text.toList ++ ',' :: fieldChars (f :: fields)) := by
  simp [fieldChars, fieldTexts, String.intercalate_cons_cons]

theorem itemChars_opens {v : Json} (h : Legible depth v) (items : List Json) :
    ∃ c cs, itemChars (v :: items) = c :: cs ∧ isBlank c = false ∧ c ≠ ']' := by
  obtain ⟨c, cs, hcs, hblank, hend⟩ := text_opens v h
  cases items with
  | nil => exact ⟨c, cs, by rw [itemChars_singleton, hcs], hblank, hend⟩
  | cons w items => exact ⟨c, _, by rw [itemChars_cons, hcs, List.cons_append], hblank, hend⟩

theorem fieldChars_opens (f : String × Json) (fields : List (String × Json)) :
    ∃ cs, fieldChars (f :: fields) = '"' :: cs := by
  cases fields with
  | nil => exact ⟨_, by rw [fieldChars_singleton, toList_quoted]⟩
  | cons g fields => exact ⟨_, by rw [fieldChars_cons, toList_quoted]⟩

/-- What the fuel of a reader suffices for: a document inside of another one is read up to its end,
and so are the items of a list and the fields of an object whose names did not come before. The two
brackets of a list or an object cost one step of fuel, so inside of them one more is left. -/
structure Reads (fuel : Nat) : Prop where
  value : ∀ depth v rest, Legible depth v → v.text.toList.length < fuel → Ends rest →
    readValue fuel depth (v.text.toList ++ rest) = some (v, rest)
  items : ∀ depth acc v items rest, LegibleItems depth (v :: items) →
    (itemChars (v :: items)).length + 1 < fuel →
    readItems fuel depth acc (itemChars (v :: items) ++ ']' :: rest) =
      some (.arr (acc.reverse ++ v :: items), rest)
  fields : ∀ depth acc f fields rest, LegibleFields depth (f :: fields) →
    (∀ a ∈ acc, ∀ g ∈ f :: fields, a.1 ≠ g.1) →
    (fieldChars (f :: fields)).length + 1 < fuel →
    readFields fuel depth acc (fieldChars (f :: fields) ++ '\x7d' :: rest) =
      some (.obj (acc ++ f :: fields), rest)

theorem Reads.readList {fuel : Nat} (ih : Reads fuel) (items : List Json) (rest : List Char)
    (hv : Legible depth (.arr items)) (hfuel : (text (.arr items)).toList.length < fuel + 1) :
    readValue (fuel + 1) depth ((text (.arr items)).toList ++ rest) = some (.arr items, rest) := by
  cases depth with
  | zero => cases hv
  | succ depth =>
    rw [toList_text_arr] at hfuel ⊢
    cases items with
    | nil => rfl
    | cons v items =>
      obtain ⟨c, cs, hcs, hblank, hend⟩ := itemChars_opens hv.1 items
      have hinner : (itemChars (v :: items)).length + 1 < fuel := by
        rw [List.length_cons, List.length_append, List.length_singleton] at hfuel
        omega
      have hread := ih.items depth [] v items rest hv hinner
      rw [List.cons_append, List.append_assoc, List.singleton_append]
      rw [hcs, List.cons_append] at hread ⊢
      rw [readValue_arr hblank hend, hread, List.reverse_nil, List.nil_append]

theorem Reads.readObject {fuel : Nat} (ih : Reads fuel) (fields : List (String × Json))
    (rest : List Char) (hv : Legible depth (.obj fields))
    (hfuel : (text (.obj fields)).toList.length < fuel + 1) :
    readValue (fuel + 1) depth ((text (.obj fields)).toList ++ rest) =
      some (.obj fields, rest) := by
  cases depth with
  | zero => cases hv
  | succ depth =>
    rw [toList_text_obj] at hfuel ⊢
    cases fields with
    | nil => rfl
    | cons f fields =>
      obtain ⟨cs, hcs⟩ := fieldChars_opens f fields
      have hinner : (fieldChars (f :: fields)).length + 1 < fuel := by
        rw [List.length_cons, List.length_append, List.length_singleton] at hfuel
        omega
      have hread := ih.fields depth [] f fields rest hv (by simp) hinner
      rw [List.cons_append, List.append_assoc, List.singleton_append]
      rw [hcs, List.cons_append] at hread ⊢
      rw [readValue_obj, hread, List.nil_append]

theorem Reads.readValue_succ {fuel : Nat} (ih : Reads fuel) (v : Json) (rest : List Char)
    (hv : Legible depth v) (hfuel : v.text.toList.length < fuel + 1) (hrest : Ends rest) :
    readValue (fuel + 1) depth (v.text.toList ++ rest) = some (v, rest) := by
  cases v with
  | null => rfl
  | bool b => cases b <;> rfl
  | int n =>
    -- its sign or first digit opens no other kind of document
    obtain ⟨c, cs, hcs, hc⟩ := text_int_opens n
    have hread := readNumber_int n hv rest hrest
    rw [hcs, List.cons_append] at hread ⊢
    rw [readValue_number hc, hread]
  | float x => cases hv
  | str s =>
    rw [text, toList_quoted]
    simp only [readValue, skipBlanks_cons (by decide : isBlank '"' = false), readString_quoted,
      Option.map_some]
  | arr items => exact ih.readList items rest hv hfuel
  | obj fields => exact ih.readObject fields rest hv hfuel

theorem Reads.readItems_succ {fuel : Nat} (ih : Reads fuel) (acc : List Json) (v : Json)
    (items : List Json) (rest : List Char) (hv : LegibleItems depth (v :: items))
    (hfuel : (itemChars (v :: items)).length + 1 < fuel + 1) :
    readItems (fuel + 1) depth acc (itemChars (v :: items) ++ ']' :: rest) =
      some (.arr (acc.reverse ++ v :: items), rest) := by
  cases items with
  | nil =>
    rw [itemChars_singleton] at hfuel ⊢
    rw [readItems_last (ih.value depth v _ hv.1 (by omega) (by simp [Ends]))]
    simp
  | cons w items =>
    rw [itemChars_cons, List.length_append, List.length_cons] at hfuel
    rw [itemChars_cons, List.append_assoc, List.cons_append,
      readItems_next (ih.value depth v _ hv.1 (by omega) (by simp [Ends])),
      ih.items depth (v :: acc) w items rest hv.2 (by omega)]
    simp

theorem Reads.readFields_succ {fuel : Nat} (ih : Reads fuel) (acc : List (String × Json))
    (f : String × Json) (fields : List (String × Json)) (rest : List Char)
    (hv : LegibleFields depth (f :: fields)) (hnew : ∀ a ∈ acc, ∀ g ∈ f :: fields, a.1 ≠ g.1)
    (hfuel : (fieldChars (f :: fields)).length + 1 < fuel + 1) :
    readFields (fuel + 1) depth acc (fieldChars (f :: fields) ++ '\x7d' :: rest) =
      some (.obj (acc ++ f :: fields), rest) := by
  obtain ⟨key, v⟩ := f
  obtain ⟨hdistinct, hv, hfields⟩ := hv
  have hset := setField_new (fun a ha => hnew a ha _ List.mem_cons_self) v
  cases fields with
  | nil =>
    rw [fieldChars_singleton, List.length_append, List.length_cons] at hfuel
    rw [fieldChars_singleton, List.append_assoc, List.cons_append,
      readFields_last key (ih.value depth v _ hv (by omega) (by simp [Ends])), hset]
  | cons g fields =>
    rw [fieldChars_cons, List.length_append, List.length_cons, List.length_append,
      List.length_cons] at hfuel
    -- the fields that are left share no name with those read so far, this one among them
    have hlater : ∀ a ∈ acc ++ [(key, v)], ∀ h ∈ g :: fields, a.1 ≠ h.1 := by
      intro a ha h hh
      rcases List.mem_append.mp ha with ha | ha
      · exact hnew a ha h (List.mem_cons_of_mem _ hh)
      · rw [List.mem_singleton.mp ha]
        exact fun e => hdistinct h hh e.symm
    rw [fieldChars_cons, List.append_assoc, List.cons_append, List.append_assoc, List.cons_append,
      readFields_next key (ih.value depth v _ hv (by omega) (by simp [Ends])), hset,
      ih.fields depth _ g fields rest hfields hlater (by omega)]
    simp

/-- Documents, items and fields are read together, each with the fuel that is left of the one that
it is in. -/
theorem reads (fuel : Nat) : Reads fuel := by
  induction fuel with
  | zero =>
    exact ⟨fun _ _ _ _ h => absurd h (Nat.not_lt_zero _),
      fun _ _ _ _ _ _ h => absurd h (Nat.not_lt_zero _),
      fun _ _ _ _ _ _ _ h => absurd h (Nat.not_lt_zero _)⟩
  | succ fuel ih =>
    exact ⟨fun _ => ih.readValue_succ, fun _ => ih.readItems_succ, fun _ => ih.readFields_succ⟩

/-- A document is read from its text as it is. -/
theorem read?_text (v : Json) (h : Legible maxDepth v) : read? v.text = some v := by
  have hread := (reads (2 * v.text.toList.length + 2)).value maxDepth v [] h (by omega)
    (by simp [Ends])
  rw [List.append_nil] at hread
  simp [read?, hread, skipBlanks]

end ListKeeper.Json
