import ListKeeper.Proofs.FileTree

/-! Where written paths lead. The name at the end of a written path stands in an open directory, so
which path leads where depends on the open paths alone. An operation on a file changes what is found
under the paths that lead to its places and under no other. Main statements: `create_iff`,
`remove_iff`, `rename_iff` and `OnlyAt.rename`. -/
namespace ListKeeper.FileTree

def Names (t : FileTree) (text : String) (p : Path) : Prop :=
  ∃ parent name asDirectory,
    t.locate text = .ok (.named parent name asDirectory) ∧ p = parent ++ [name]

/-- The written path is a name for the place under which a file can be asked for. -/
def Leads (t : FileTree) (text : String) (p : Path) : Prop :=
  ∃ parent name, t.locate text = .ok (.named parent name false) ∧
    ¬ maxName < name.utf8ByteSize ∧ p = parent ++ [name]

def SamePlace (t : FileTree) (text text' : String) : Prop :=
  ∃ p, t.Names text p ∧ t.Names text' p

def Takes (t : FileTree) (text : String) : Prop := ∃ p, t.Leads text p ∧ t.get? p ≠ some .dir

def seen (t : FileTree) (text : String) : Option (Path × Node) := (t.find text).toOption

variable {t t' t'' : FileTree} {text text' : String} {p q : Path}

theorem Leads.names (h : t.Leads text p) : t.Names text p := by
  obtain ⟨parent, name, hloc, -, hp⟩ := h
  exact ⟨parent, name, false, hloc, hp⟩

theorem Names.unique (h : t.Names text p) (h' : t.Names text q) : p = q := by
  obtain ⟨parent, name, asDirectory, hloc, rfl⟩ := h
  obtain ⟨parent', name', asDirectory', hloc', rfl⟩ := h'
  rw [hloc] at hloc'
  obtain ⟨rfl, rfl, -⟩ := Place.named.inj (Except.ok.inj hloc')
  rfl

theorem Names.ne_nil (h : t.Names text p) : p ≠ [] := by
  obtain ⟨parent, name, -, -, rfl⟩ := h
  simp

/-! ### Paths and open directories -/

/-- The directory in which a path names something is open. -/
theorem open_of_walk (t : FileTree) (asDirectory asDirectory' : Bool) (here parent : Path)
    (names : List String) (name : String) (hopen : t.Open here)
    (h : t.walk asDirectory here names = .ok (.named parent name asDirectory')) :
    t.Open parent := by
  induction names generalizing here with
  | nil => cases h
  | cons first rest ih =>
    cases rest with
    | nil =>
      simp only [walk] at h
      split at h
      · cases h
      · obtain ⟨rfl, -⟩ := Place.named.inj (Except.ok.inj h)
        exact hopen
    | cons second rest =>
      simp only [walk] at h
      split at h
      · exact ih _ hopen.dropLast h
      · split at h
        · cases h
        · cases h
        · cases h
        · rename_i hl
          unfold lookup at hl
          split at hl
          · cases hl
          · -- the step leads to a directory, and on from there
            have hdir : t.get? (here ++ [first]) = some .dir := Except.ok.inj hl
            exact ih _ ((open_append_iff t here first).mpr ⟨hopen, hdir⟩) h

/-- Where the same paths are open, a path leads to the same place. -/
theorem walk_congr (hsame : t.SameOpen t') (asDirectory : Bool) (here : Path) (place : Place)
    (names : List String) (hopen : t.Open here)
    (h : t.walk asDirectory here names = .ok place) :
    t'.walk asDirectory here names = .ok place := by
  induction names generalizing here with
  | nil => exact h
  | cons first rest ih =>
    cases rest with
    | nil => exact h
    | cons second rest =>
      simp only [walk] at h ⊢
      split at h
      · rename_i hup
        rw [if_pos hup]
        exact ih _ hopen.dropLast h
      · rename_i hup
        rw [if_neg hup]
        split at h
        · cases h
        · cases h
        · cases h
        · rename_i hl
          unfold lookup at hl ⊢
          split at hl
          · cases hl
          · rename_i hlen
            have hdir : t.get? (here ++ [first]) = some .dir := Except.ok.inj hl
            have hnext : t.Open (here ++ [first]) :=
              (open_append_iff t here first).mpr ⟨hopen, hdir⟩
            have hdir' : t'.get? (here ++ [first]) = some .dir :=
              ((hsame.opens _).mp hnext) _ (List.prefix_refl _)
            rw [if_neg hlen, hdir']
            exact ih _ hnext h

theorem locate_congr (hsame : t.SameOpen t') (place : Place) (h : t.locate text = .ok place) :
    t'.locate text = .ok place := by
  unfold locate at h ⊢
  split at h
  · cases h
  · rename_i hlen
    rw [if_neg hlen]
    split at h
    · cases h
    · rename_i l _
      cases hstart : t.start l.absolute with
      | error e =>
        rw [hstart] at h
        cases h
      | ok here =>
        obtain ⟨hopen, hstart'⟩ := start_congr t t' hsame _ here hstart
        rw [hstart] at h
        rw [hstart']
        exact walk_congr hsame _ _ _ _ hopen h

theorem Names.congr (h : t.Names text p) (hsame : t.SameOpen t') : t'.Names text p := by
  obtain ⟨parent, name, asDirectory, hloc, hp⟩ := h
  exact ⟨parent, name, asDirectory, locate_congr hsame _ hloc, hp⟩

theorem Leads.congr (h : t.Leads text p) (hsame : t.SameOpen t') : t'.Leads text p := by
  obtain ⟨parent, name, hloc, hname, hp⟩ := h
  exact ⟨parent, name, locate_congr hsame _ hloc, hname, hp⟩

theorem open_of_locate {parent : Path} {name : String} {asDirectory : Bool}
    (h : t.locate text = .ok (.named parent name asDirectory)) : t.Open parent := by
  unfold locate at h
  split at h
  · cases h
  · split at h
    · cases h
    · rename_i l _
      cases hstart : t.start l.absolute with
      | error e =>
        rw [hstart] at h
        cases h
      | ok here =>
        rw [hstart] at h
        exact open_of_walk t _ _ here parent _ name (start_congr t t (.refl t) _ here hstart).1 h

/-- What stands above a named place is a directory. -/
theorem Names.above (h : t.Names text p) (hqp : q <+: p) (hne : q ≠ p) : t.get? q = some .dir := by
  obtain ⟨parent, name, asDirectory, hloc, rfl⟩ := h
  rcases List.prefix_concat_iff.mp hqp with heq | hfront
  · exact absurd heq hne
  · exact open_of_locate hloc q hfront

/-- Where a file can be put depends on the open paths alone. -/
theorem Takes.congr (h : t.Takes text) (hsame : t.SameOpen t') : t'.Takes text := by
  obtain ⟨p, hp, hfree⟩ := h
  refine ⟨p, hp.congr hsame, fun hdir => hfree ?_⟩
  obtain ⟨parent, name, hloc, -, rfl⟩ := hp
  -- a directory in an open one is open, there as here
  have hopen' : t'.Open (parent ++ [name]) :=
    (open_append_iff t' parent name).mpr ⟨(hsame.opens parent).mp (open_of_locate hloc), hdir⟩
  exact ((open_append_iff t parent name).mp ((hsame.opens _).mpr hopen')).2

theorem SamePlace.congr (h : t.SamePlace text text') (hsame : t.SameOpen t') :
    t'.SamePlace text text' := by
  obtain ⟨p, hp, hp'⟩ := h
  exact ⟨p, hp.congr hsame, hp'.congr hsame⟩

/-- What is found depends on the open paths and on the place that is named. -/
theorem seen_congr (hsame : t.SameOpen t') (h : ∀ p, t.Names text p → t'.get? p = t.get? p) :
    t'.seen text = t.seen text := by
  unfold seen find
  cases hloc : t.locate text with
  | error e =>
    cases hloc' : t'.locate text with
    | error e' => rfl
    | ok place =>
      -- what can be located in one of them can be located in the other
      rw [locate_congr hsame.symm place hloc'] at hloc
      cases hloc
  | ok place =>
    rw [locate_congr hsame place hloc]
    cases place with
    | direct d => rfl
    | named parent name asDirectory =>
      have hget := h (parent ++ [name]) ⟨parent, name, asDirectory, hloc, rfl⟩
      simp only [bind, Except.bind, lookup, hget]

/-! ### Paths with and without an ending -/

/-- A plain ending makes a name of the last piece of a path. -/
theorem ofText?_append (text ending : String) (hplain : ∀ c ∈ ending.toList, c ≠ '/')
    (hlong : 2 < ending.toList.length) (l : Location) (hl : Location.ofText? text = some l) :
    ∃ above last, last ++ ending.toList ≠ "..".toList ∧
      Location.ofText? (text ++ ending) =
        some ⟨above ++ [String.ofList (last ++ ending.toList)], l.absolute, false⟩ ∧
      (l.names = above ++ [String.ofList last] ∨ l.names = above ∧ l.asDirectory = true) := by
  unfold Location.ofText? at hl ⊢
  split at hl
  · cases hl
  rename_i hne
  obtain rfl := Option.some.inj hl
  -- the ending has no slash, so it stands behind the last piece of the text
  obtain ⟨init, last, hpieces, hall⟩ := pieces_append_of_none Location.isSlash text.toList
    ending.toList fun c hc => by simpa [Location.isSlash] using hplain c hc
  have hlen : 2 < (last ++ ending.toList).length := by
    rw [List.length_append]
    omega
  have hcounts : Location.counts (last ++ ending.toList) = true := by
    simp only [Location.counts, Bool.and_eq_true, decide_eq_true_eq]
    constructor <;> intro heq <;> simp [heq] at hlen
  have hhead : (text.toList ++ ending.toList).head? = text.toList.head? := by
    cases htext : text.toList with
    | nil => exact absurd (by simpa using htext) hne
    | cons c rest => rfl
  refine ⟨(init.filter Location.counts).map String.ofList, last, ?_, ?_, ?_⟩
  · intro heq
    simp [heq] at hlen
  · simp [hne, hall, hcounts, hhead]
  · by_cases hlast : Location.counts last = true
    · exact .inl (by simp [hpieces, hlast])
    · exact .inr (by simp [hpieces, hlast])

/-- With an ending a path leads to a longer name in the same directory, or it leads into what the
path without it names as a directory. -/
theorem locate_append {ending : String} (hplain : ∀ c ∈ ending.toList, c ≠ '/')
    (hlong : 2 < ending.toList.length) {parent parent' : Path} {name name' : String}
    {asDirectory asDirectory' : Bool}
    (h : t.locate text = .ok (.named parent name asDirectory))
    (h' : t.locate (text ++ ending) = .ok (.named parent' name' asDirectory')) :
    (parent' = parent ∧ name' = name ++ ending) ∨
      (asDirectory = true ∧ parent' = parent ++ [name]) := by
  unfold locate at h h'
  split at h
  · cases h
  split at h'
  · cases h'
  split at h
  · cases h
  rename_i l hl
  obtain ⟨above, last, hup, hl', hnames⟩ := ofText?_append text ending hplain hlong l hl
  rw [hl'] at h'
  simp only at h'
  cases hstart : t.start l.absolute with
  | error e =>
    rw [hstart] at h
    cases h
  | ok here =>
  rw [hstart] at h h'
  simp only [Except.bind] at h h'
  rw [walk_append _ _ _ _ _ (fun hdots => hup (by rw [← hdots, String.toList_ofList]))] at h'
  cases hd : t.enter here above with
  | error e =>
    rw [hd] at h'
    cases h'
  | ok d =>
    rw [hd] at h'
    obtain ⟨rfl, rfl, -⟩ := Place.named.inj (Except.ok.inj h')
    -- without the ending the last piece is a name of its own, or there is none behind a slash
    rcases hnames with hnames | ⟨hnames, hdirectory⟩
    · left
      rw [hnames, walk_concat, hd] at h
      simp only [Except.bind, walk] at h
      split at h
      · cases h
      · obtain ⟨rfl, rfl, -⟩ := Place.named.inj (Except.ok.inj h)
        exact ⟨rfl, by simp⟩
    · right
      rw [hnames, hdirectory] at h
      obtain ⟨rfl, rfl⟩ := t.eq_of_enter _ _ here d parent above name hd h
      exact ⟨rfl, rfl⟩

/-- No path leads to the same place with an ending and without. -/
theorem not_samePlace_append (t : FileTree) (text ending : String)
    (hplain : ∀ c ∈ ending.toList, c ≠ '/') (hlong : 2 < ending.toList.length) :
    ¬ t.SamePlace text (text ++ ending) := by
  rintro ⟨p, ⟨parent, name, asDirectory, hloc, rfl⟩, parent', name', asDirectory', hloc', heq⟩
  rcases locate_append hplain hlong hloc hloc' with ⟨rfl, rfl⟩ | ⟨-, rfl⟩
  · have hname : name = name ++ ending := by simpa using heq
    have hlength := congrArg (fun name => name.toList.length) hname
    simp only [String.toList_append, List.length_append] at hlength
    omega
  · have hlength := congrArg List.length heq
    simp at hlength

/-- Files with an ending and without stand side by side. -/
theorem Leads.beside {ending : String} (hplain : ∀ c ∈ ending.toList, c ≠ '/')
    (hlong : 2 < ending.toList.length) (hp : t.Leads text p) (hq : t.Leads (text ++ ending) q) :
    ¬ p <+: q ∧ ¬ q <+: p := by
  -- both stand at one depth, so neither could be below the other without being the same
  have hne : p ≠ q := by
    rintro rfl
    exact not_samePlace_append t text ending hplain hlong ⟨p, hp.names, hq.names⟩
  have hlen : p.length = q.length := by
    obtain ⟨parent, name, hloc, -, rfl⟩ := hp
    obtain ⟨parent', name', hloc', -, rfl⟩ := hq
    rcases locate_append hplain hlong hloc hloc' with ⟨rfl, -⟩ | ⟨hdirectory, -⟩
    · simp
    · cases hdirectory
  exact ⟨fun hpre => hne (hpre.eq_of_length hlen),
    fun hpre => hne (hpre.eq_of_length hlen.symm).symm⟩

/-! ### When an operation succeeds -/

/-- A chain of steps succeeds if each of them does. -/
theorem bind_eq_ok {α β : Type} (x : Except IoError α) (f : α → Except IoError β) (b : β) :
    (x >>= f) = .ok b ↔ ∃ a, x = .ok a ∧ f a = .ok b := by
  cases x <;> simp [bind, Except.bind]

theorem lookup_eq_ok_iff (parent : Path) (name : String) (found : Option Node) :
    t.lookup parent name = .ok found ↔
      ¬ maxName < name.utf8ByteSize ∧ t.get? (parent ++ [name]) = found := by
  unfold lookup
  split <;> simp_all

theorem create_iff (now : Instant) :
    t.create text now = .ok t' ↔
      ∃ p, t.Leads text p ∧ t.get? p ≠ some .dir ∧ t' = t.put p (.file [] now) := by
  simp only [create, bind_eq_ok]
  constructor
  · rintro ⟨place, hloc, h⟩
    cases place with
    | direct d => cases h
    | named parent name asDirectory =>
      cases asDirectory with
      | true => cases h
      | false =>
        simp only [Bool.false_eq_true, ↓reduceIte, bind_eq_ok, lookup_eq_ok_iff] at h
        obtain ⟨found, ⟨hname, hget⟩, h⟩ := h
        split at h
        · cases h
        · rename_i hdir
          exact ⟨_, ⟨parent, name, hloc, hname, rfl⟩, hget ▸ hdir, (Except.ok.inj h).symm⟩
  · rintro ⟨p, ⟨parent, name, hloc, hname, rfl⟩, hdir, rfl⟩
    refine ⟨_, hloc, ?_⟩
    simp only [Bool.false_eq_true, ↓reduceIte, bind_eq_ok, lookup_eq_ok_iff]
    refine ⟨_, ⟨hname, rfl⟩, ?_⟩
    split
    · contradiction
    · rfl

/-- A file is found under a path that leads to it. -/
theorem find_eq_file_iff (body : Bytes) (m : Instant) :
    t.find text = .ok (p, .file body m) ↔ t.Leads text p ∧ t.get? p = some (.file body m) := by
  simp only [find, bind_eq_ok]
  constructor
  · rintro ⟨place, hloc, h⟩
    cases place with
    | direct d => cases h
    | named parent name asDirectory =>
      simp only [bind_eq_ok, lookup_eq_ok_iff] at h
      obtain ⟨found, ⟨hname, hget⟩, h⟩ := h
      split at h
      · cases h
      · cases asDirectory with
        | true => cases h
        | false =>
          obtain ⟨rfl, heq⟩ := Prod.mk.inj (Except.ok.inj h)
          exact ⟨⟨parent, name, hloc, hname, rfl⟩, heq ▸ hget⟩
      · cases h
  · rintro ⟨⟨parent, name, hloc, hname, rfl⟩, hget⟩
    refine ⟨_, hloc, ?_⟩
    simp only [bind_eq_ok, lookup_eq_ok_iff]
    exact ⟨_, ⟨hname, hget⟩, rfl⟩

/-- Nothing is found under a path that leads to a place where nothing is. -/
theorem find_eq_notFound (hp : t.Leads text p) (h : t.get? p = none) :
    t.find text = .error .notFound := by
  obtain ⟨parent, name, hloc, hname, rfl⟩ := hp
  simp only [find, hloc, bind, Except.bind, (lookup_eq_ok_iff parent name none).mpr ⟨hname, h⟩]

/-- What is read is a file that is found. -/
theorem read_iff (body : Bytes) (m : Instant) :
    t.read text = .ok (body, m) ↔ ∃ p, t.Leads text p ∧ t.get? p = some (.file body m) := by
  simp only [read, bind_eq_ok, ← find_eq_file_iff]
  constructor
  · rintro ⟨⟨p, node⟩, hfind, h⟩
    cases node with
    | dir => cases h
    | file body' m' =>
      cases h
      exact ⟨p, hfind⟩
  · rintro ⟨p, hfind⟩
    exact ⟨_, hfind, rfl⟩

theorem append_iff (more : Bytes) (now : Instant) :
    t.append text more now = .ok t' ↔
      ∃ p body m, t.Leads text p ∧ t.get? p = some (.file body m) ∧
        t' = t.put p (.file (body ++ more) now) := by
  simp only [append, bind_eq_ok]
  constructor
  · rintro ⟨⟨p, node⟩, hfind, h⟩
    cases node with
    | dir => cases h
    | file body m =>
      obtain ⟨hp, hget⟩ := (find_eq_file_iff body m).mp hfind
      exact ⟨p, body, m, hp, hget, (Except.ok.inj h).symm⟩
  · rintro ⟨p, body, m, hp, hget, rfl⟩
    exact ⟨_, (find_eq_file_iff body m).mpr ⟨hp, hget⟩, rfl⟩

theorem remove_iff :
    t.remove text = .ok t' ↔
      ∃ p body m, t.Leads text p ∧ t.get? p = some (.file body m) ∧ t' = t.erase p := by
  simp only [remove, bind_eq_ok]
  constructor
  · rintro ⟨place, hloc, h⟩
    cases place with
    | direct d => cases h
    | named parent name asDirectory =>
      simp only [bind_eq_ok, lookup_eq_ok_iff] at h
      obtain ⟨found, ⟨hname, hget⟩, h⟩ := h
      split at h
      · cases h
      · cases h
      · rename_i body m
        cases asDirectory with
        | true => cases h
        | false =>
          exact ⟨_, body, m, ⟨parent, name, hloc, hname, rfl⟩, hget, (Except.ok.inj h).symm⟩
  · rintro ⟨p, body, m, ⟨parent, name, hloc, hname, rfl⟩, hget, rfl⟩
    refine ⟨_, hloc, ?_⟩
    simp only [bind_eq_ok, lookup_eq_ok_iff]
    exact ⟨_, ⟨hname, hget⟩, rfl⟩

/-- What can be renamed and is no directory is a file. -/
theorem file_of_rename (h : t.rename text text' = .ok t') (hdir : t.isDirectory text = false) :
    ∃ p body m, t.Leads text p ∧ t.get? p = some (.file body m) := by
  simp only [rename, bind_eq_ok] at h
  obtain ⟨place, hloc, place', hloc', h⟩ := h
  cases place with
  | direct d => cases h
  | named parent name asDirectory =>
    cases place' with
    | direct d => cases h
    | named parent' name' asDirectory' =>
      simp only [bind_eq_ok, lookup_eq_ok_iff] at h
      obtain ⟨old, ⟨hname, hget⟩, h⟩ := h
      cases old with
      | none => cases h
      | some node =>
        cases node with
        | dir =>
          have hfound : t.lookup parent name = .ok (some .dir) :=
            (lookup_eq_ok_iff parent name _).mpr ⟨hname, hget⟩
          simp [isDirectory, find, hloc, hfound, bind, Except.bind] at hdir
        | file body m =>
          simp only [bind_eq_ok] at h
          obtain ⟨there, -, h⟩ := h
          cases asDirectory with
          | true => simp at h
          | false => exact ⟨_, body, m, ⟨parent, name, hloc, hname, rfl⟩, hget⟩

theorem move_of_rename {body : Bytes} {m : Instant} (hp : t.Leads text p)
    (hfile : t.get? p = some (.file body m)) (hother : ¬ t.Names text' p)
    (h : t.rename text text' = .ok t') :
    ∃ q, t.Leads text' q ∧ t.get? q ≠ some .dir ∧ ¬ p <+: q ∧ ¬ q <+: p ∧ t' = t.move p q := by
  obtain ⟨parent, name, hloc, hname, rfl⟩ := hp
  simp only [rename, bind_eq_ok] at h
  obtain ⟨place, hplace, place', hloc', h⟩ := h
  obtain rfl := Except.ok.inj (hloc.symm.trans hplace)
  cases place' with
  | direct d => cases h
  | named parent' name' asDirectory =>
    have hne : parent ++ [name] ≠ parent' ++ [name'] :=
      fun heq => hother ⟨parent', name', asDirectory, hloc', heq⟩
    simp only [bind_eq_ok, lookup_eq_ok_iff] at h
    obtain ⟨old, ⟨-, hold⟩, h⟩ := h
    obtain rfl := hold.symm.trans hfile
    simp only [bind_eq_ok, lookup_eq_ok_iff] at h
    obtain ⟨there, ⟨hname', hthere⟩, h⟩ := h
    simp only [hne, ne_eq, not_false_eq_true, decide_true, Bool.and_true, Bool.true_and,
      Bool.false_or, reduceCtorEq, ↓reduceIte] at h
    -- each check that was passed tells one thing of the new place
    split at h
    · cases h
    rename_i hdirectory
    obtain rfl : asDirectory = false := by simpa using hdirectory
    split at h
    · cases h
    rename_i hbelow
    split at h
    · cases h
    rename_i habove
    refine ⟨_, ⟨parent', name', hloc', hname', rfl⟩, ?nodir, ?below, ?above, ?moved⟩
    case nodir =>
      intro hdir
      obtain rfl := hthere.symm.trans hdir
      cases h
    case below => exact fun hpre => hbelow (List.isPrefixOf_iff_prefix.mpr hpre)
    case above => exact fun hpre => habove (List.isPrefixOf_iff_prefix.mpr hpre)
    case moved =>
      split at h
      · exact (Except.ok.inj h).symm
      · cases h
      · cases h
      · exact (Except.ok.inj h).symm
      · rename_i hnode
        cases hnode

theorem rename_eq_move {body : Bytes} {m : Instant} (hp : t.Leads text p)
    (hfile : t.get? p = some (.file body m)) (hother : ¬ t.Names text' p) (hq : t.Leads text' q)
    (hdir : t.get? q ≠ some .dir) (hbelow : ¬ p <+: q) (habove : ¬ q <+: p) :
    t.rename text text' = .ok (t.move p q) := by
  obtain ⟨parent, name, hloc, hname, rfl⟩ := hp
  obtain ⟨parent', name', hloc', hname', rfl⟩ := hq
  have hne : parent ++ [name] ≠ parent' ++ [name'] :=
    fun heq => hother ⟨parent', name', false, hloc', heq⟩
  have hb : (parent ++ [name]).isPrefixOf (parent' ++ [name']) = false := by
    rw [Bool.eq_false_iff]
    exact fun hpre => hbelow (List.isPrefixOf_iff_prefix.mp hpre)
  have ha : (parent' ++ [name']).isPrefixOf (parent ++ [name]) = false := by
    rw [Bool.eq_false_iff]
    exact fun hpre => habove (List.isPrefixOf_iff_prefix.mp hpre)
  simp only [rename, bind_eq_ok]
  refine ⟨_, hloc, _, hloc', ?_⟩
  simp only [bind_eq_ok, lookup_eq_ok_iff]
  refine ⟨_, ⟨hname, hfile⟩, ?_⟩
  simp only [bind_eq_ok, lookup_eq_ok_iff]
  refine ⟨_, ⟨hname', rfl⟩, ?_⟩
  simp only [hne, hb, ha, ↓reduceIte, Bool.false_and, Bool.or_self, Bool.and_false,
    Bool.false_eq_true]
  -- a file goes where nothing is, and in the place of a file
  split
  · rfl
  · rename_i hnode _
    cases hnode
  · contradiction
  · rfl
  · rename_i hnode _
    cases hnode

/-- A file is renamed to a path under which a file can be asked for and where no directory is. -/
theorem rename_iff {body : Bytes} {m : Instant} (hp : t.Leads text p)
    (hfile : t.get? p = some (.file body m)) (hother : ¬ t.Names text' p) :
    t.rename text text' = .ok t' ↔
      ∃ q, t.Leads text' q ∧ t.get? q ≠ some .dir ∧ ¬ p <+: q ∧ ¬ q <+: p ∧ t' = t.move p q := by
  constructor
  · exact move_of_rename hp hfile hother
  · rintro ⟨q, hq, hdir, hbelow, habove, rfl⟩
    exact rename_eq_move hp hfile hother hq hdir hbelow habove

/-! ### What an operation touches -/

/-- The same paths are open in two trees, and what is found under a written path differs only if the
path leads to where some others lead. -/
structure OnlyAt (t t' : FileTree) (texts : List String) : Prop where
  sameOpen : t.SameOpen t'
  seen : ∀ text, (∀ x ∈ texts, ¬ t.SamePlace text x) → t'.seen text = t.seen text

namespace OnlyAt

theorem refl (t : FileTree) (texts : List String) : t.OnlyAt t texts := ⟨.refl t, by simp⟩

theorem mono {texts more : List String} (h : t.OnlyAt t' texts) (hsub : ∀ x ∈ texts, x ∈ more) :
    t.OnlyAt t' more := ⟨h.sameOpen, fun text htext => h.seen text fun x hx => htext x (hsub x hx)⟩

theorem trans {texts : List String} (h : t.OnlyAt t' texts) (h' : t'.OnlyAt t'' texts) :
    t.OnlyAt t'' texts := by
  refine ⟨h.sameOpen.trans h'.sameOpen, fun text htext => ?_⟩
  rw [h'.seen text fun x hx hsame => htext x hx (hsame.congr h.sameOpen.symm), h.seen text htext]

/-- A change at one place alone. -/
theorem of_place (hp : t.Names text p) (hsame : t.SameOpen t')
    (h : ∀ q, q ≠ p → t'.get? q = t.get? q) : t.OnlyAt t' [text] := by
  refine ⟨hsame, fun other hother => seen_congr hsame fun q hq => h q ?_⟩
  rintro rfl
  exact hother text (by simp) ⟨q, hq, hp⟩

theorem put (hp : t.Leads text p) (hdir : t.get? p ≠ some .dir) (body : Bytes) (m : Instant) :
    t.OnlyAt (t.put p (.file body m)) [text] := by
  have hne := hp.names.ne_nil
  have hsame : t.SameOpen (t.put p (.file body m)) := by
    refine SameOpen.of_agree t _ [p] (agree_put t p _ hne) (by simpa using hdir) ?_
    simp [get?_put t p p _ hne]
  exact of_place hp.names hsame fun q hq => by rw [get?_put t p q _ hne, if_neg hq]

theorem erase {body : Bytes} {m : Instant} (hp : t.Leads text p)
    (hfile : t.get? p = some (.file body m)) : t.OnlyAt (t.erase p) [text] := by
  have hne := hp.names.ne_nil
  have hsame : t.SameOpen (t.erase p) := by
    refine SameOpen.of_agree t _ [p] (agree_erase t p hne) (by simp [hfile]) ?_
    simp [get?_erase t p p hne]
  exact of_place hp.names hsame fun q hq => by rw [get?_erase t p q hne, if_neg hq]

theorem move {body : Bytes} {m : Instant} (hp : t.Leads text p) (hq : t.Leads text' q)
    (hfile : t.get? p = some (.file body m)) (hdir : t.get? q ≠ some .dir) (hpq : ¬ p <+: q)
    (hqp : ¬ q <+: p) : t.OnlyAt (t.move p q) [text, text'] := by
  have hsrc := get?_move_src t p q hp.names.ne_nil hqp
  have hdst := get?_move_dst t p q _ hp.names.ne_nil hq.names.ne_nil hpq hfile
  have hsame : t.SameOpen (t.move p q) := by
    refine SameOpen.of_agree t _ [p, q] (agree_move t p q) ?_ ?_
    · simp [hfile, hdir]
    · simp [hsrc, hdst]
  refine ⟨hsame, fun other hother => seen_congr hsame fun r hr => ?_⟩
  -- what stands below either end is named by no path, since neither is a directory
  apply get?_move_other
  · intro hpr
    by_cases heq : p = r
    · exact hother text (by simp) ⟨r, hr, heq ▸ hp.names⟩
    · have hopen := hr.above hpr heq
      rw [hfile] at hopen
      cases hopen
  · intro hqr
    by_cases heq : q = r
    · exact hother text' (by simp) ⟨r, hr, heq ▸ hq.names⟩
    · exact hdir (hr.above hqr heq)

end OnlyAt

theorem read_put (hp : t.Leads text p) (hdir : t.get? p ≠ some .dir) (body : Bytes) (m : Instant) :
    (t.put p (.file body m)).read text = .ok (body, m) := by
  have hself : (t.put p (.file body m)).get? p = some (.file body m) := by
    rw [get?_put t p p _ hp.names.ne_nil, if_pos rfl]
  exact (read_iff body m).mpr ⟨p, hp.congr (OnlyAt.put hp hdir body m).sameOpen, hself⟩

namespace OnlyAt

/-- A file that is made is empty. -/
theorem create {now : Instant} (h : t.create text now = .ok t') :
    t.OnlyAt t' [text] ∧ t'.read text = .ok ([], now) := by
  obtain ⟨p, hp, hdir, rfl⟩ := (create_iff now).mp h
  exact ⟨put hp hdir [] now, read_put hp hdir [] now⟩

/-- A file that is made under an absolute path is found under one from the working directory. -/
example :
    let t : FileTree :=
      { nodes := [(["srv"], .dir), (["srv", "app"], .dir), (["srv", "lists"], .dir)]
        cwd := ⟨["srv", "app"]⟩ }
    ((t.create "/srv/lists/7.txt" .epoch).bind fun t' => t'.read "../lists/7.txt").toOption =
      some ([], .epoch) := by
  decide

/-- A file that is written on holds the new bytes behind the old ones. -/
theorem append {body more : Bytes} {m now : Instant} (hread : t.read text = .ok (body, m))
    (h : t.append text more now = .ok t') :
    t.OnlyAt t' [text] ∧ t'.read text = .ok (body ++ more, now) := by
  obtain ⟨p, body', m', hp, hfile, rfl⟩ := (append_iff more now).mp h
  have hdir : t.get? p ≠ some .dir := by simp [hfile]
  rw [(read_iff body' m').mpr ⟨p, hp, hfile⟩] at hread
  obtain ⟨rfl, -⟩ := Prod.mk.inj (Except.ok.inj hread)
  exact ⟨put hp hdir _ now, read_put hp hdir _ now⟩

theorem remove (h : t.remove text = .ok t') : t.OnlyAt t' [text] := by
  obtain ⟨p, body, m, hp, hfile, rfl⟩ := remove_iff.mp h
  exact erase hp hfile

/-- A file that is renamed is read under its new path, and nothing is found under the old one. -/
theorem rename {body : Bytes} {m : Instant} (hother : ¬ t.SamePlace text' text)
    (hread : t.read text = .ok (body, m)) (h : t.rename text text' = .ok t') :
    t.OnlyAt t' [text, text'] ∧ t'.read text' = .ok (body, m) ∧
      t'.find text = .error .notFound := by
  obtain ⟨p, hp, hfile⟩ := (read_iff body m).mp hread
  obtain ⟨q, hq, hdir, hpq, hqp, rfl⟩ :=
    (rename_iff hp hfile fun hp' => hother ⟨p, hp', hp.names⟩).mp h
  have hmove := move hp hq hfile hdir hpq hqp
  have hdst := get?_move_dst t p q _ hp.names.ne_nil hq.names.ne_nil hpq hfile
  exact ⟨hmove, (read_iff body m).mpr ⟨q, hq.congr hmove.sameOpen, hdst⟩,
    find_eq_notFound (hp.congr hmove.sameOpen) (get?_move_src t p q hp.names.ne_nil hqp)⟩

end OnlyAt

end ListKeeper.FileTree
