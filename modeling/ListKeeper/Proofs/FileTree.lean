import ListKeeper.FileTree

/-! What the changes of a file tree leave as it was. A path is open if it and all the paths above it
are directories; which paths are open decides where every written path leads. Main statements: a
change keeps what lies neither at nor below the places that it touches (`get?_put`, `get?_erase`,
`get?_move`), and such a change opens and closes no path (`SameOpen.of_agree`). -/
namespace ListKeeper.FileTree

/-! ### Reading behind a change -/

theorem get?_of_ne_nil (t : FileTree) (p : Path) (hp : p ≠ []) :
    t.get? p = (t.nodes.find? fun n => n.1 == p).map (·.2) := by
  simp [get?, hp]

theorem get?_put (t : FileTree) (p q : Path) (n : Node) (hp : p ≠ []) :
    (t.put p n).get? q = if q = p then some n else t.get? q := by
  by_cases hqp : q = p
  · subst hqp
    simp [get?_of_ne_nil _ _ hp, put]
  · by_cases hq : q = []
    · simp [get?, hq, hp.symm]
    · have hpq : (p == q) = false := by simpa using Ne.symm hqp
      rw [if_neg hqp, get?_of_ne_nil _ _ hq, get?_of_ne_nil _ _ hq]
      simp only [put, List.find?_cons, hpq, List.find?_filter]
      congr 2
      funext m
      by_cases hm : m.1 = q <;> simp [hm, hqp]

theorem get?_erase (t : FileTree) (p q : Path) (hp : p ≠ []) :
    (t.erase p).get? q = if q = p then none else t.get? q := by
  by_cases hqp : q = p
  · subst hqp
    simp [get?_of_ne_nil _ _ hp, erase]
  · by_cases hq : q = []
    · simp [get?, hq, hp.symm]
    · rw [if_neg hqp, get?_of_ne_nil _ _ hq, get?_of_ne_nil _ _ hq]
      simp only [erase, List.find?_filter]
      congr 2
      funext m
      by_cases hm : m.1 = q <;> simp [hm, hqp]

def moved (src dst : Path) (n : Path × Node) : Path × Node :=
  if src.isPrefixOf n.1 then (dst ++ n.1.drop src.length, n.2) else n

theorem nodes_move (t : FileTree) (src dst : Path) :
    (t.move src dst).nodes = (t.nodes.filter fun n => n.1 != dst).map (moved src dst) := rfl

theorem moved_fst_of_below (src dst : Path) (n : Path × Node) (h : src <+: n.1) :
    moved src dst n = (dst ++ n.1.drop src.length, n.2) := by
  simp [moved, List.isPrefixOf_iff_prefix.mpr h]

theorem moved_of_not_below (src dst : Path) (n : Path × Node) (h : ¬ src <+: n.1) :
    moved src dst n = n := by
  have hb : src.isPrefixOf n.1 = false := by
    rw [Bool.eq_false_iff]
    exact fun hb => h (List.isPrefixOf_iff_prefix.mp hb)
  simp [moved, hb]

/-- A move changes nothing off its two ends and what lies below them. -/
theorem get?_move_other (t : FileTree) (src dst q : Path) (hsrc : ¬ src <+: q)
    (hdst : ¬ dst <+: q) : (t.move src dst).get? q = t.get? q := by
  by_cases hq : q = []
  · simp [get?, hq]
  -- induction on the nodes: the first one at `q` before the move is the first one there after it
  rw [get?_of_ne_nil _ _ hq, get?_of_ne_nil _ _ hq, nodes_move]
  congr 1
  induction t.nodes with
  | nil => rfl
  | cons n ns ih =>
    have hqd : q ≠ dst := by
      rintro rfl
      exact hdst (List.prefix_refl _)
    by_cases hnq : n.1 = q
    · have hkeep : (n.1 != dst) = true := by simpa [hnq] using hqd
      have hstay : moved src dst n = n := by
        apply moved_of_not_below
        rwa [hnq]
      simp only [List.filter_cons, hkeep, ↓reduceIte, List.map_cons, hstay, List.find?_cons]
      simp [hnq]
    · -- a node off `q` stays off it wherever it is taken
      have hoff : ∀ m, m = moved src dst n → m.1 ≠ q := by
        rintro m rfl hm
        by_cases hp : src <+: n.1
        · rw [moved_fst_of_below src dst n hp] at hm
          exact hdst (hm ▸ List.prefix_append dst _)
        · rw [moved_of_not_below src dst n hp] at hm
          exact hnq hm
      have hm : ((moved src dst n).1 == q) = false := by simpa using hoff _ rfl
      have hn : (n.1 == q) = false := by simpa using hnq
      by_cases hkeep : n.1 = dst
      · simpa [List.filter_cons, hkeep, List.find?_cons, hkeep ▸ hn] using ih
      · simpa [List.filter_cons, hkeep, List.find?_cons, hm, hn] using ih

/-- Nothing is left where a move began. -/
theorem get?_move_src (t : FileTree) (src dst : Path) (hne : src ≠ []) (h : ¬ dst <+: src) :
    (t.move src dst).get? src = none := by
  rw [get?_of_ne_nil _ _ hne, nodes_move, Option.map_eq_none_iff, List.find?_eq_none]
  intro m hm hms
  obtain ⟨n, -, rfl⟩ := List.mem_map.mp hm
  have hms : (moved src dst n).1 = src := by simpa using hms
  by_cases hp : src <+: n.1
  · rw [moved_fst_of_below src dst n hp] at hms
    exact h (hms ▸ List.prefix_append dst _)
  · rw [moved_of_not_below src dst n hp] at hms
    exact hp (hms ▸ List.prefix_refl _)

/-- What was at the beginning of a move is at its end. -/
theorem get?_move_dst (t : FileTree) (src dst : Path) (n : Node) (hsne : src ≠ []) (hdne : dst ≠ [])
    (h : ¬ src <+: dst) (hn : t.get? src = some n) : (t.move src dst).get? dst = some n := by
  rw [get?_of_ne_nil _ _ hsne] at hn
  rw [get?_of_ne_nil _ _ hdne, nodes_move]
  have hsd : src ≠ dst := by
    rintro rfl
    exact h (List.prefix_refl _)
  -- of the nodes at `src`, the first one is found at `dst`: the others there were filtered out
  generalize t.nodes = ms at hn
  induction ms with
  | nil => simp at hn
  | cons m ms ih =>
    by_cases hms : m.1 = src
    · have hm2 : m.2 = n := by simpa [List.find?_cons, hms] using hn
      have hmv : moved src dst m = (dst, n) := by
        rw [moved_fst_of_below src dst m (hms ▸ List.prefix_refl _), hms, hm2]
        simp
      have hkeep : (m.1 != dst) = true := by simpa [hms] using hsd
      simp [hkeep, hmv]
    · have hm : (m.1 == src) = false := by simpa using hms
      have hrest : ((ms.find? fun n => n.1 == src).map (·.2)) = some n := by
        simpa [List.find?_cons, hm] using hn
      by_cases hkeep : m.1 = dst
      · simpa [List.filter_cons, hkeep] using ih hrest
      · -- a longer path than `src` is taken to a longer one than `dst`
        have hoff : (moved src dst m).1 ≠ dst := by
          intro hmd
          by_cases hp : src <+: m.1
          · rw [moved_fst_of_below src dst m hp] at hmd
            have hlen := congrArg List.length hmd
            have hle := hp.length_le
            simp only [List.length_append, List.length_drop] at hlen
            exact hms (hp.eq_of_length (by omega)).symm
          · rw [moved_of_not_below src dst m hp] at hmd
            exact hkeep hmd
        have hb : ((moved src dst m).1 == dst) = false := by simpa using hoff
        simpa [List.filter_cons, hkeep, List.find?_cons, hb] using ih hrest

/-! ### Open paths -/

/-- The path and all the paths above it are directories. -/
def Open (t : FileTree) (p : Path) : Prop := ∀ q, q <+: p → t.get? q = some .dir

/-- The same paths are open, and relative paths start in the same directory. -/
structure SameOpen (t t' : FileTree) : Prop where
  cwd : t'.cwd = t.cwd
  opens : ∀ p, t.Open p ↔ t'.Open p

theorem SameOpen.refl (t : FileTree) : t.SameOpen t := ⟨rfl, fun _ => Iff.rfl⟩

theorem SameOpen.trans {t t' t'' : FileTree} (h : t.SameOpen t') (h' : t'.SameOpen t'') :
    t.SameOpen t'' := ⟨h'.cwd.trans h.cwd, fun p => (h.opens p).trans (h'.opens p)⟩

theorem SameOpen.symm {t t' : FileTree} (h : t.SameOpen t') : t'.SameOpen t :=
  ⟨h.cwd.symm, fun p => (h.opens p).symm⟩

/-- The trees hold the same off some places and what lies below them. -/
structure Agree (t t' : FileTree) (ps : List Path) : Prop where
  cwd : t'.cwd = t.cwd
  same : ∀ q, (∀ p ∈ ps, ¬ p <+: q) → t'.get? q = t.get? q

theorem open_nil (t : FileTree) : t.Open [] := by
  intro q hq
  simp [List.prefix_nil.mp hq, get?]

theorem Open.dropLast (t : FileTree) (p : Path) (h : t.Open p) : t.Open p.dropLast :=
  fun q hq => h q (hq.trans (List.dropLast_prefix p))

theorem open_append_iff (t : FileTree) (p : Path) (name : String) :
    t.Open (p ++ [name]) ↔ t.Open p ∧ t.get? (p ++ [name]) = some .dir := by
  constructor
  · intro h
    exact ⟨fun q hq => h q (hq.trans (List.prefix_append p _)), h _ (List.prefix_refl _)⟩
  · rintro ⟨hp, hn⟩ q hq
    rcases List.prefix_concat_iff.mp hq with rfl | hq
    · exact hn
    · exact hp q hq

/-- Nothing is opened or closed where no directory comes or goes. -/
theorem SameOpen.of_agree (t t' : FileTree) (ps : List Path) (ha : t.Agree t' ps)
    (ht : ∀ p ∈ ps, t.get? p ≠ some .dir) (ht' : ∀ p ∈ ps, t'.get? p ≠ some .dir) :
    t.SameOpen t' := by
  refine ⟨ha.cwd, fun p => ?_⟩
  constructor
  · intro h q hq
    -- no touched place lies on an open path, since it would be a directory there
    rw [ha.same q fun x hx hxq => ht x hx (h x (hxq.trans hq))]
    exact h q hq
  · intro h q hq
    rw [← ha.same q fun x hx hxq => ht' x hx (h x (hxq.trans hq))]
    exact h q hq

/-! ### Following a path -/

/-- The last step of a path is made in the directory to which the names before it lead. -/
theorem walk_concat (t : FileTree) (asDirectory : Bool) (here : Path) (names : List String)
    (name : String) :
    t.walk asDirectory here (names ++ [name]) =
      (t.enter here names).bind fun d => t.walk asDirectory d [name] := by
  induction names generalizing here with
  | nil => rfl
  | cons first rest ih =>
    obtain ⟨x, xs, hx⟩ : ∃ x xs, rest ++ [name] = x :: xs := by
      cases rest with
      | nil => exact ⟨name, [], rfl⟩
      | cons y ys => exact ⟨y, ys ++ [name], rfl⟩
    rw [List.cons_append, hx]
    by_cases hup : first = ".."
    · simp only [walk, enter, hup, ↓reduceIte]
      rw [← hx, ih]
      rfl
    · simp only [walk, enter, hup, ↓reduceIte]
      -- both go on only where the lookup finds a directory
      cases hl : t.lookup here first with
      | error e => rfl
      | ok found =>
        match found with
        | none => rfl
        | some (.file _ _) => rfl
        | some .dir =>
          simp only []
          rw [← hx, ih]
          rfl

/-- A name at the end of a path stands in the directory to which the names before it lead. -/
theorem walk_append (t : FileTree) (asDirectory : Bool) (here : Path) (names : List String)
    (name : String) (hname : name ≠ "..") :
    t.walk asDirectory here (names ++ [name]) =
      (t.enter here names).map fun d => .named d name asDirectory := by
  rw [walk_concat]
  cases t.enter here names <;> simp [walk, hname, Except.map, Except.bind]

/-- A directory that is entered is the one that its path names, as a directory or not. -/
theorem eq_of_enter (t : FileTree) (asDirectory asDirectory' : Bool) (here d parent : Path)
    (names : List String) (name : String) (hd : t.enter here names = .ok d)
    (h : t.walk asDirectory here names = .ok (.named parent name asDirectory')) :
    d = parent ++ [name] ∧ asDirectory' = asDirectory := by
  induction names generalizing here with
  -- the last name is treated apart, so the induction looks two names ahead
  | nil => cases h
  | cons first rest ih =>
    cases rest with
    | nil =>
      simp only [walk] at h
      simp only [enter] at hd
      split at h
      · cases h
      · rename_i hup
        rw [if_neg hup] at hd
        obtain ⟨rfl, rfl, rfl⟩ := Place.named.inj (Except.ok.inj h)
        split at hd
        · cases hd
        · cases hd
        · cases hd
        · exact ⟨(Except.ok.inj hd).symm, rfl⟩
    | cons second rest =>
      simp only [walk] at h
      rw [enter] at hd
      split at h
      · rename_i hup
        rw [if_pos hup] at hd
        exact ih _ hd h
      · rename_i hup
        rw [if_neg hup] at hd
        split at h
        · cases h
        · cases h
        · cases h
        · rename_i hl
          rw [hl] at hd
          exact ih _ hd h

/-- Names lead from an open path to an open path, and to the same one where the same paths are open.
-/
theorem enter_congr (t t' : FileTree) (hsame : t.SameOpen t') (here d : Path) (names : List String)
    (hopen : t.Open here) (h : t.enter here names = .ok d) :
    t.Open d ∧ t'.enter here names = .ok d := by
  induction names generalizing here with
  | nil => exact ⟨Except.ok.inj h ▸ hopen, h⟩
  | cons name rest ih =>
    simp only [enter] at h ⊢
    split at h
    · rename_i hup
      rw [if_pos hup]
      exact ih _ hopen.dropLast h
    · rename_i hup
      rw [if_neg hup]
      split at h
      · cases h
      · cases h
      · cases h
      · rename_i hl
        unfold lookup at hl ⊢
        split at hl
        · cases hl
        · rename_i hlen
          -- the step leads to an open path, which is open in the other tree too
          have hdir : t.get? (here ++ [name]) = some .dir := Except.ok.inj hl
          have hnext : t.Open (here ++ [name]) := (open_append_iff t here name).mpr ⟨hopen, hdir⟩
          have hdir' : t'.get? (here ++ [name]) = some .dir :=
            ((hsame.opens _).mp hnext) _ (List.prefix_refl _)
          rw [if_neg hlen, hdir']
          exact ih _ hnext h

/-- Paths start in an open directory, which is the same one where the same paths are open. -/
theorem start_congr (t t' : FileTree) (hsame : t.SameOpen t') (absolute : Bool) (here : Path)
    (h : t.start absolute = .ok here) : t.Open here ∧ t'.start absolute = .ok here := by
  unfold start at h ⊢
  split at h
  · rename_i habs
    rw [if_pos habs]
    exact ⟨Except.ok.inj h ▸ open_nil t, h⟩
  · rename_i habs
    rw [if_neg habs, hsame.cwd]
    exact enter_congr t t' hsame [] here _ (open_nil t) h

theorem agree_put (t : FileTree) (p : Path) (n : Node) (hp : p ≠ []) : t.Agree (t.put p n) [p] := by
  refine ⟨rfl, fun q hq => ?_⟩
  rw [get?_put _ _ _ _ hp, if_neg]
  rintro rfl
  exact hq _ (by simp) (List.prefix_refl _)

theorem agree_erase (t : FileTree) (p : Path) (hp : p ≠ []) : t.Agree (t.erase p) [p] := by
  refine ⟨rfl, fun q hq => ?_⟩
  rw [get?_erase _ _ _ hp, if_neg]
  rintro rfl
  exact hq _ (by simp) (List.prefix_refl _)

theorem agree_move (t : FileTree) (src dst : Path) : t.Agree (t.move src dst) [src, dst] :=
  ⟨rfl, fun q hq => get?_move_other t src dst q (hq _ (by simp)) (hq _ (by simp))⟩

end ListKeeper.FileTree
