import Mathlib.Data.List.Infix
import ListKeeper.Proofs.Layers
import ListKeeper.Settings.EnvFile

/-! What a file of variables adds to an environment. A variable that is set keeps its value, and of
two lines for one name the first counts. A line can ask for the value of another variable; a file
that nowhere asks for a certain one reads the same whatever that one is. Main statements:
`Environment.find?_fill` and `EnvFile.assigned_congr`. -/
namespace ListKeeper

namespace Environment

/-- Two environments with the same variables in the same order, one name apart. -/
def EqOff (name : String) (env env' : Environment) : Prop :=
  env.filter (fun v => v.1 ≠ name) = env'.filter (fun v => v.1 ≠ name)

instance (name : String) (env env' : Environment) : Decidable (EqOff name env env') :=
  inferInstanceAs (Decidable (env.filter _ = env'.filter _))

def fill (env added : Environment) : Environment :=
  added.foldl (fun env v => env.setDefault v.1 v.2) env

variable {name : String} {env env' : Environment}

theorem EqOff.find? (h : EqOff name env env') (p : String → Bool) (hp : p name = false) :
    env.find? (fun v => p v.1) = env'.find? (fun v => p v.1) := by
  have hoff (env : Environment) : env.find? (fun v => p v.1) =
      (env.filter fun v => v.1 ≠ name).find? (fun v => p v.1) := by
    rw [List.find?_filter]
    refine congrArg (env.find? ·) (funext fun v => ?_)
    by_cases hv : v.1 = name
    · simp [hv, hp]
    · simp [hv]
  rw [hoff env, hoff env', h]

theorem EqOff.get? (h : EqOff name env env') (other : String) (hne : name ≠ other) :
    env.get? other = env'.get? other := by
  have hfind := h.find? (fun n => n == other) (by simpa using hne)
  rw [Environment.get?, hfind]
  rfl

theorem filter_setDefault (env : Environment) (other value : String) :
    (env.setDefault other value).filter (fun v => v.1 ≠ name) =
      if (env.get? other).isSome ∨ other = name then env.filter fun v => v.1 ≠ name
      else (env.filter fun v => v.1 ≠ name) ++ [(other, value)] := by
  unfold setDefault
  split
  · rename_i hsome
    simp [hsome]
  · rename_i hnone
    by_cases hother : other = name
    · simp [hother]
    · simp [hother, hnone]

theorem EqOff.setDefault (h : EqOff name env env') (other value : String) :
    EqOff name (env.setDefault other value) (env'.setDefault other value) := by
  rw [EqOff, filter_setDefault, filter_setDefault]
  by_cases hother : other = name
  · simp only [hother, or_true, if_true]
    exact h
  · rw [h.get? other (Ne.symm hother), h]

theorem EqOff.fill (h : EqOff name env env') (added : Environment) :
    EqOff name (env.fill added) (env'.fill added) := by
  induction added generalizing env env' with
  | nil => exact h
  | cons v added ih => exact ih (h.setDefault v.1 v.2)

/-- A name is first looked up in the environment, then in what is added to it, from its front. -/
theorem find?_fill (p : String → Bool) (env added : Environment) :
    (env.fill added).find? (fun v => p v.1) =
      (env.find? fun v => p v.1).or (added.find? fun v => p v.1) := by
  induction added generalizing env with
  | nil => simp [Environment.fill]
  | cons v added ih =>
    obtain ⟨n, x⟩ := v
    change ((env.setDefault n x).fill added).find? _ = _
    rw [ih]
    unfold Environment.setDefault
    split
    · rename_i hsome
      -- where the name counts, the environment has an answer
      by_cases hn : p n = true
      · obtain ⟨v, hv, hvn⟩ : ∃ v ∈ env, v.1 = n := by
          simpa [Environment.get?] using hsome
        have hfound : (env.find? fun v => p v.1).isSome = true :=
          List.find?_isSome.mpr ⟨v, hv, by rw [hvn, hn]⟩
        obtain ⟨w, hw⟩ := Option.isSome_iff_exists.mp hfound
        simp [hw]
      · simp [hn]
    · by_cases hn : p n = true
      · simp [List.find?_append, hn]
      · simp [List.find?_append, hn]

end Environment

namespace EnvFile

open Characters

/-- The variables that logical lines name, with their values, up to the first that cannot be read.
-/
def assigned (k : Known) : List Logical → Environment
  | [] => []
  | .broken :: _ => []
  | .line cs :: rest =>
    match readLine? k cs with
    | none => []
    | some none => assigned k rest
    | some (some (name, v)) =>
      (name, v) :: assigned ⟨k.env.setDefault name v, (name, v) :: k.own⟩ rest

theorem apply_eq_fill (k : Known) (lines : List Logical) :
    apply k lines = k.env.fill (assigned k lines) := by
  fun_induction apply k lines with
  | case1 k => rfl
  | case2 k rest => rfl
  | case3 k cs rest hread => simp [assigned, hread, Environment.fill]
  | case4 k cs rest hread ih => simp [assigned, hread, ih]
  | case5 k cs rest name v hread ih =>
    rw [ih]
    simp [assigned, hread, Environment.fill]

namespace Part

def opened : Part → List Char
  | name _ letters => '$' :: letters.reverse
  | braced _ letters => '$' :: '\x7b' :: letters.reverse
  | _ => []

end Part

def Logical.text : Logical → List Char
  | line cs => cs
  | broken => []

def reference (name : String) : List Char := '$' :: '\x7b' :: (name.toList ++ ['\x7d'])

structure Known.EqOff (name : String) (k k' : Known) : Prop where
  env : k.env.EqOff name k'.env
  own : k.own = k'.own

theorem Known.EqOff.value {name : String} {k k' : Known} (h : k.EqOff name k')
    (letters : List Char) (hne : letters ≠ name.toList) : k.value letters = k'.value letters := by
  have hname : name ≠ String.ofList letters := by
    rintro rfl
    exact hne String.toList_ofList.symm
  simp only [Known.value, h.env.get? _ hname, h.own]

namespace Part

/-- No reference to a variable stands in what is left to read. -/
structure Clear (name : String) (p : Part) (cs : List Char) : Prop where
  letters : ∀ quoted letters, p = .name quoted letters → ∀ c ∈ letters, isAlphanumeric c = true
  free : ¬ reference name <:+: p.opened ++ cs

section

variable {name : String} {p : Part} {c : Char} {cs : List Char}

/-- What follows a character is clear. -/
theorem Clear.rest (h : p.Clear name (c :: cs)) (p' : Part) (hp : p'.opened = []) :
    p'.Clear name cs where
  letters := by
    rintro quoted letters rfl
    cases hp
  free hmem := by
    rw [hp, List.nil_append] at hmem
    exact h.free (hmem.trans ((List.suffix_cons c cs).trans (List.suffix_append _ _)).isInfix)

/-- What follows a dollar sign is clear. -/
theorem Clear.dollar (h : p.Clear name ('$' :: cs)) (quoted : Bool) :
    (Part.name quoted []).Clear name cs where
  letters := by
    intro quoted' letters heq
    obtain ⟨-, rfl⟩ := Part.name.inj heq
    simp
  free hmem := h.free (hmem.trans (List.suffix_append _ _).isInfix)

/-- A name without a brace has no underscore, so it is not the name that is kept out. -/
theorem Clear.ne_of_name (hname : ∃ c ∈ name.toList, isAlphanumeric c = false) {quoted : Bool}
    {letters : List Char} (h : (Part.name quoted letters).Clear name cs) :
    letters.reverse ≠ name.toList := by
  obtain ⟨c, hc, hodd⟩ := hname
  intro heq
  rw [← heq, List.mem_reverse] at hc
  rw [h.letters quoted letters rfl c hc] at hodd
  cases hodd

theorem Clear.ne_of_braced {quoted : Bool} {letters : List Char}
    (h : (Part.braced quoted letters).Clear name ('\x7d' :: cs)) :
    letters.reverse ≠ name.toList := by
  intro heq
  apply h.free
  refine ⟨[], cs, ?_⟩
  simp [reference, opened, heq]

theorem Clear.letter {quoted : Bool} {letters : List Char}
    (h : (Part.name quoted letters).Clear name (c :: cs)) (hc : isAlphanumeric c = true) :
    (Part.name quoted (c :: letters)).Clear name cs where
  letters := by
    intro quoted' letters' heq x hx
    obtain ⟨-, rfl⟩ := Part.name.inj heq
    rcases List.mem_cons.mp hx with rfl | hx
    · exact hc
    · exact h.letters quoted letters rfl x hx
  free := by simpa [opened] using h.free

theorem Clear.brace {quoted : Bool} (h : (Part.name quoted []).Clear name ('\x7b' :: cs)) :
    (Part.braced quoted []).Clear name cs where
  letters := by
    intro quoted' letters' heq
    cases heq
  free := by simpa [opened] using h.free

theorem Clear.inBrace {quoted : Bool} {letters : List Char}
    (h : (Part.braced quoted letters).Clear name (c :: cs)) :
    (Part.braced quoted (c :: letters)).Clear name cs where
  letters := by
    intro quoted' letters' heq
    cases heq
  free := by simpa [opened] using h.free

/-- A value without a reference to a variable does not depend on it. -/
theorem read?_congr (hname : ∃ c ∈ name.toList, isAlphanumeric c = false) {k k' : Known}
    (h : k.EqOff name k') (acc : List Char) (hclear : p.Clear name cs) :
    p.read? k acc cs = p.read? k' acc cs := by
  induction cs generalizing p acc with
  | nil =>
    cases p with
    | name quoted letters =>
      have hvalue := h.value letters.reverse (hclear.ne_of_name hname)
      cases quoted <;> simp [read?, hvalue]
    | escaped quoted => cases quoted <;> rfl
    | _ => rfl
  | cons c cs ih =>
    -- outside a reference nothing of the text before is kept
    have hrest (p' : Part) (hp : p'.opened = []) (acc) := ih acc (hclear.rest p' hp)
    have hbare := hrest .bare rfl
    have hsingle := hrest .single rfl
    have hdouble := hrest .double rfl
    have htrailing := hrest .trailing rfl
    have hescaped (quoted : Bool) := hrest (.escaped quoted) rfl
    have hback (quoted : Bool) := hrest (back quoted) (by cases quoted <;> rfl)
    cases p with
    | bare =>
      by_cases hc : c = '$'
      · subst hc
        exact ih acc (hclear.dollar false)
      · simp [read?, hc, hbare, hsingle, hdouble, hescaped, htrailing]
    | double =>
      by_cases hc : c = '$'
      · subst hc
        exact ih acc (hclear.dollar true)
      · simp [read?, hc, hbare, hdouble, hescaped]
    | escaped quoted => simp [read?, hback]
    | single => simp [read?, hbare, hsingle]
    | trailing => simp [read?, htrailing]
    | name quoted letters =>
      have hvalue := h.value letters.reverse (hclear.ne_of_name hname)
      by_cases hletter : isAlphanumeric c = true
      · simp only [read?, hletter, if_true]
        exact ih acc (hclear.letter hletter)
      · by_cases hbrace : c = '\x7b' ∧ letters = []
        · obtain ⟨rfl, rfl⟩ := hbrace
          simpa [read?, hletter] using ih acc hclear.brace
        · by_cases hc : c = '$'
          · subst hc
            simp only [read?, hvalue]
            exact ih _ (hclear.dollar quoted)
          · simp [read?, hletter, hbrace, hc, hvalue, hback]
    | braced quoted letters =>
      by_cases hc : c = '\x7d'
      · subst hc
        simp only [read?, h.value letters.reverse hclear.ne_of_braced]
        exact hback quoted _
      · simpa [read?, hc] using ih acc hclear.inBrace

end

end Part

/-! ### The lines of a file -/

theorem isInfix_trimBoth (cs : List Char) : trimBoth cs <:+: cs := by
  have hright : trimRight (trimLeft cs) <+: trimLeft cs := by
    rw [← List.reverse_suffix, trimRight, List.reverse_reverse]
    exact List.dropWhile_suffix isWhitespace
  have hleft : trimLeft cs <:+ cs := List.dropWhile_suffix isWhitespace
  exact hright.isInfix.trans hleft.isInfix

theorem takeName?_suffix (cs name rest : List Char) (h : takeName? cs = some (name, rest)) :
    rest <:+ cs := by
  unfold takeName? at h
  split at h
  · split at h
    · rw [List.span_eq_takeWhile_dropWhile] at h
      obtain ⟨-, rfl⟩ := Prod.mk.inj (Option.some.inj h)
      exact (List.dropWhile_suffix _).trans (List.dropWhile_suffix _)
    · cases h
  · cases h

theorem takeHead?_suffix (cs name rest : List Char) (h : takeHead? cs = some (name, rest)) :
    rest <:+ cs := by
  -- what follows an equals sign, without its blanks
  have hvalue (cs more name' : List Char) (hname : takeName? cs = some (name', '=' :: more)) :
      trimLeft more <:+ cs :=
    (List.dropWhile_suffix _).trans
      ((List.suffix_cons '=' more).trans (takeName?_suffix cs name' _ hname))
  unfold takeHead? at h
  split at h
  · cases h
  · rename_i name' more hname
    obtain ⟨-, rfl⟩ := Prod.mk.inj (Option.some.inj h)
    exact hvalue cs more name' hname
  · rename_i name' more hother hname
    split at h
    · split at h
      · rename_i name'' more' hname'
        obtain ⟨-, rfl⟩ := Prod.mk.inj (Option.some.inj h)
        exact (hvalue more more' name'' hname').trans (takeName?_suffix cs name' more hname)
      · cases h
    · cases h

section

variable {name : String} {k k' : Known}

theorem readLine?_congr (hname : ∃ c ∈ name.toList, isAlphanumeric c = false) (h : k.EqOff name k')
    (cs : List Char) (hfree : ¬ reference name <:+: cs) : readLine? k cs = readLine? k' cs := by
  simp only [readLine?]
  cases hhead : takeHead? (trimBoth cs) with
  | none => rfl
  | some r =>
    obtain ⟨n, rest⟩ := r
    have hclear : Part.bare.Clear name rest := by
      refine ⟨by simp, fun hmem => hfree ?_⟩
      exact hmem.trans ((takeHead?_suffix _ n rest hhead).isInfix.trans (isInfix_trimBoth cs))
    simp only [Part.read?_congr hname h [] hclear]

def Unreferenced (name : String) (lines : List Logical) : Prop :=
  ∀ line ∈ lines, ¬ reference name <:+: line.text

instance (name : String) (lines : List Logical) : Decidable (Unreferenced name lines) :=
  inferInstanceAs (Decidable (∀ line ∈ lines, ¬ reference name <:+: line.text))

/-- A file that does not refer to a variable says the same whatever that variable is. -/
theorem assigned_congr (hname : ∃ c ∈ name.toList, isAlphanumeric c = false) (h : k.EqOff name k')
    (lines : List Logical) (hfree : Unreferenced name lines) :
    assigned k lines = assigned k' lines := by
  induction lines generalizing k k' with
  | nil => rfl
  | cons line rest ih =>
    have hrest : Unreferenced name rest := fun l hl => hfree l (List.mem_cons_of_mem _ hl)
    cases line with
    | broken => rfl
    | line cs =>
      have hread := readLine?_congr hname h cs (hfree (.line cs) (by simp))
      simp only [assigned, ← hread]
      split
      · rfl
      · exact ih h hrest
      · rename_i n v _
        have hnext : Known.EqOff name ⟨k.env.setDefault n v, (n, v) :: k.own⟩
            ⟨k'.env.setDefault n v, (n, v) :: k'.own⟩ :=
          ⟨h.env.setDefault n v, congrArg ((n, v) :: ·) h.own⟩
        rw [ih hnext hrest]

end

end EnvFile
end ListKeeper
