import ListKeeper.Proofs.FileNames
import ListKeeper.Proofs.WrittenPaths

/-! File operations on the slots of a store. A file can be made at a slot that can be asked for and
where no directory is; it can be written, taken away or renamed where it is there. An operation that
succeeds gives its slot what it says and leaves every other slot as it was. The directory of the
store may be written in any way, as long as the extension leads nowhere else. Main statements:
`create_iff`, `rename_iff`, `put_slot` and `rename_slot`. -/
namespace ListKeeper

open FileTree

namespace Store

/-- The store's directory is found, and it is `d`. -/
structure Home (s : Store) (t : FileTree) (d : Path) : Prop where
  entered : ((t.start (Location.fromRoot s.dir)).bind fun here =>
    t.enter here (Location.dirNames s.dir)) = .ok d

/-- The slot can be asked for, and it stands in the directory `d`. -/
structure Located (s : Store) (t : FileTree) (x : Slot) (d : Path) : Prop where
  home : s.Home t d
  short : ¬ maxPath ≤ (x.path s).utf8ByteSize
  named : ¬ maxName < (x.name s).utf8ByteSize

def Keeps (s : Store) (t t' : FileTree) (xs : List Slot) : Prop :=
  ∀ y, y ∉ xs → t'.find (y.path s) = t.find (y.path s)

def Has (s : Store) (t : FileTree) (x : Slot) (body : Bytes) : Prop :=
  ∃ modified, t.read (x.path s) = .ok (body, modified)

/-- The slot holds a file with a front of some content, which is all of it where `whole` says so. -/
def Holds (s : Store) (whole : Prop) (t : FileTree) (x : Slot) (body : Bytes) : Prop :=
  ∃ front, s.Has t x front ∧ front <+: body ∧ (whole → front = body)

def spot (s : Store) (d : Path) (x : Slot) : Path := d ++ [x.name s]

theorem spot_ne_nil (s : Store) (d : Path) (x : Slot) : s.spot d x ≠ [] := by simp [spot]

theorem eq_of_spot_below (s : Store) (d : Path) (x y : Slot) (h : s.spot d x <+: s.spot d y) :
    x = y := by
  -- both stand one level below `d`
  have he : d ++ [x.name s] = d ++ [y.name s] := h.eq_of_length (by simp [spot])
  exact name_injective s x y (by simpa using he)

theorem locate_slot (s : Store) (hs : s.Plain) (t : FileTree) (x : Slot) :
    t.locate (x.path s) =
      if maxPath ≤ (x.path s).utf8ByteSize then .error .nameTooLong
      else ((t.start (Location.fromRoot s.dir)).bind fun here =>
        t.enter here (Location.dirNames s.dir)).map fun d => .named d (x.name s) false := by
  have hloc := Location.ofText?_joinPath s.dir (x.name s) (name_no_slash s hs x) (name_counts s x).1
  unfold locate
  rw [show Location.ofText? (x.path s) = _ from hloc]
  simp only [walk_append _ _ _ _ _ (name_counts s x).2]
  cases t.start (Location.fromRoot s.dir) <;> rfl

theorem Located.locate {s : Store} {t : FileTree} {x : Slot} {d : Path} (h : s.Located t x d)
    (hs : s.Plain) : t.locate (x.path s) = .ok (.named d (x.name s) false) := by
  rw [locate_slot s hs, if_neg h.short, h.home.entered]
  rfl

theorem Located.lookup {s : Store} {t : FileTree} {x : Slot} {d : Path} (h : s.Located t x d) :
    t.lookup d (x.name s) = .ok (t.get? (s.spot d x)) := by
  rw [FileTree.lookup, if_neg h.named]
  rfl

/-- A slot can be asked for, or else every question for it ends in an error. -/
theorem located_or_error (s : Store) (hs : s.Plain) (t : FileTree) (x : Slot) :
    (∃ d, s.Located t x d) ∨ (∃ e, t.locate (x.path s) = .error e) ∨
      ∃ d e, t.locate (x.path s) = .ok (.named d (x.name s) false) ∧
        t.lookup d (x.name s) = .error e := by
  by_cases hshort : maxPath ≤ (x.path s).utf8ByteSize
  · exact .inr (.inl ⟨_, by rw [locate_slot s hs, if_pos hshort]⟩)
  cases hd : (t.start (Location.fromRoot s.dir)).bind fun here =>
    t.enter here (Location.dirNames s.dir) with
  | error e =>
    refine .inr (.inl ⟨e, ?_⟩)
    rw [locate_slot s hs, if_neg hshort, hd]
    rfl
  | ok d =>
    by_cases hlong : maxName < (x.name s).utf8ByteSize
    · refine .inr (.inr ⟨d, .nameTooLong, ?_, by rw [FileTree.lookup, if_pos hlong]⟩)
      rw [locate_slot s hs, if_neg hshort, hd]
      rfl
    · exact .inl ⟨d, ⟨hd⟩, hshort, hlong⟩

/-- A file can be asked for at the slots that can be asked for, in their places. -/
theorem leads_iff {s : Store} (hs : s.Plain) {t : FileTree} {x : Slot} {p : Path} :
    t.Leads (x.path s) p ↔ ∃ d, s.Located t x d ∧ p = s.spot d x := by
  constructor
  · rintro ⟨parent, name, hloc, hname, rfl⟩
    rcases located_or_error s hs t x with ⟨d, hd⟩ | ⟨e, he⟩ | ⟨d, e, hd, he⟩
    · rw [hd.locate hs] at hloc
      obtain ⟨rfl, rfl, -⟩ := Place.named.inj (Except.ok.inj hloc)
      exact ⟨d, hd, rfl⟩
    · rw [he] at hloc
      cases hloc
    · rw [hd] at hloc
      obtain ⟨rfl, rfl, -⟩ := Place.named.inj (Except.ok.inj hloc)
      rw [FileTree.lookup, if_neg hname] at he
      cases he
  · rintro ⟨d, hd, rfl⟩
    exact ⟨d, x.name s, hd.locate hs, hd.named, rfl⟩

/-- A slot's path names no other place of the store's directory. -/
theorem Home.names {s : Store} {t : FileTree} {x : Slot} {d p : Path} (h : s.Home t d)
    (hs : s.Plain) (hp : t.Names (x.path s) p) : p = s.spot d x := by
  obtain ⟨parent, name, asDirectory, hloc, rfl⟩ := hp
  rw [locate_slot s hs, h.entered] at hloc
  split at hloc
  · cases hloc
  · obtain ⟨rfl, rfl, -⟩ := Place.named.inj (Except.ok.inj hloc)
    rfl

theorem Home.congr {s : Store} {t t' : FileTree} {d : Path} (h : s.Home t d)
    (hsame : t.SameOpen t') : s.Home t' d := by
  have hentered := h.entered
  cases hstart : t.start (Location.fromRoot s.dir) with
  | error e =>
    rw [hstart] at hentered
    cases hentered
  | ok here =>
    obtain ⟨hopen, hstart'⟩ := start_congr t t' hsame _ here hstart
    rw [hstart] at hentered
    refine ⟨?_⟩
    rw [hstart']
    exact (enter_congr t t' hsame here d _ hopen hentered).2

/-- What is found at a slot depends on the open paths and on the slot's own place. -/
theorem find_congr (s : Store) (hs : s.Plain) (t t' : FileTree) (d : Path) (h : s.Home t d)
    (hsame : t.SameOpen t') (y : Slot) (hy : t'.get? (s.spot d y) = t.get? (s.spot d y)) :
    t'.find (y.path s) = t.find (y.path s) := by
  have h' := h.congr hsame
  unfold FileTree.find
  rw [locate_slot s hs, locate_slot s hs, h.entered, h'.entered]
  by_cases hshort : maxPath ≤ (y.path s).utf8ByteSize
  · simp [hshort, bind, Except.bind]
  · simp only [spot] at hy
    simp [hshort, Except.map, bind, Except.bind, FileTree.lookup, hy]

/-- A change at the places of some slots, where no directory comes or goes, keeps the other ones. -/
theorem keeps_of_agree (s : Store) (hs : s.Plain) (t t' : FileTree) (d : Path) (h : s.Home t d)
    (xs : List Slot) (ha : t.Agree t' (xs.map (s.spot d)))
    (ht : ∀ x ∈ xs, t.get? (s.spot d x) ≠ some .dir)
    (ht' : ∀ x ∈ xs, t'.get? (s.spot d x) ≠ some .dir) :
    s.Keeps t t' xs ∧ s.Home t' d := by
  have hsame : t.SameOpen t' := by
    refine SameOpen.of_agree t t' _ ha ?_ ?_
    · intro p hp
      obtain ⟨x, hx, rfl⟩ := List.mem_map.mp hp
      exact ht x hx
    · intro p hp
      obtain ⟨x, hx, rfl⟩ := List.mem_map.mp hp
      exact ht' x hx
  refine ⟨?_, h.congr hsame⟩
  intro y hy
  -- no other slot stands at or below a place that changed
  apply find_congr s hs t t' d h hsame
  apply ha.same
  intro p hp hpy
  obtain ⟨x, hx, rfl⟩ := List.mem_map.mp hp
  exact hy (eq_of_spot_below s d x y hpy ▸ hx)

/-! ### What is found at a slot -/

theorem Located.read {s : Store} {t : FileTree} {x : Slot} {d : Path} (h : s.Located t x d)
    (hs : s.Plain) (body : Bytes) (m : Instant) (hx : t.get? (s.spot d x) = some (.file body m)) :
    t.read (x.path s) = .ok (body, m) :=
  (read_iff body m).mpr ⟨_, (leads_iff hs).mpr ⟨d, h, rfl⟩, hx⟩

theorem Located.find {s : Store} {t : FileTree} {x : Slot} {d : Path} (h : s.Located t x d)
    (hs : s.Plain) (r : Path × Node) (hr : t.find (x.path s) = .ok r) :
    t.get? (s.spot d x) = some r.2 ∧ r.1 = s.spot d x := by
  unfold FileTree.find at hr
  simp only [h.locate hs, h.lookup, bind, Except.bind] at hr
  cases hg : t.get? (s.spot d x) with
  | none =>
    rw [hg] at hr
    cases hr
  | some node =>
    cases node <;>
    · simp only [hg, Bool.false_eq_true, ↓reduceIte] at hr
      obtain rfl := Except.ok.inj hr
      exact ⟨rfl, rfl⟩

theorem located_of_find (s : Store) (hs : s.Plain) (t : FileTree) (x : Slot) (r : Path × Node)
    (hr : t.find (x.path s) = .ok r) : ∃ d, s.Located t x d := by
  rcases located_or_error s hs t x with h | ⟨e, he⟩ | ⟨d, e, hd, he⟩
  · exact h
  · simp [FileTree.find, he, bind, Except.bind] at hr
  · simp [FileTree.find, hd, he, bind, Except.bind] at hr

/-- A slot that holds a file stands in the store's directory with that file. -/
theorem get?_of_read (s : Store) (hs : s.Plain) (t : FileTree) (x : Slot) (body : Bytes)
    (m : Instant) (h : t.read (x.path s) = .ok (body, m)) :
    ∃ d, s.Located t x d ∧ t.get? (s.spot d x) = some (.file body m) := by
  obtain ⟨p, hp, hg⟩ := (read_iff body m).mp h
  obtain ⟨d, hd, rfl⟩ := (leads_iff hs).mp hp
  exact ⟨d, hd, hg⟩

theorem Keeps.read {s : Store} {t t' : FileTree} {xs : List Slot} (h : s.Keeps t t' xs) (y : Slot)
    (hy : y ∉ xs) : t'.read (y.path s) = t.read (y.path s) := by
  rw [FileTree.read, h y hy, FileTree.read]

theorem Keeps.has {s : Store} {t t' : FileTree} {xs : List Slot} (h : s.Keeps t t' xs) (y : Slot)
    (hy : y ∉ xs) (body : Bytes) (hb : s.Has t y body) : s.Has t' y body := by
  obtain ⟨m, hm⟩ := hb
  refine ⟨m, ?_⟩
  rw [h.read y hy]
  exact hm

section

variable {s : Store} {whole whole' : Prop} {t t' : FileTree} {x y : Slot} {body : Bytes}

theorem Has.holds (h : s.Has t x body) : s.Holds whole t x body :=
  ⟨body, h, List.prefix_refl body, fun _ => rfl⟩

theorem Holds.has (h : s.Holds whole t x body) : ∃ front, s.Has t x front := by
  obtain ⟨front, hfront, -, -⟩ := h
  exact ⟨front, hfront⟩

theorem Holds.all (h : s.Holds whole t x body) (hwhole : whole) : s.Has t x body := by
  obtain ⟨front, hfront, -, hall⟩ := h
  exact hall hwhole ▸ hfront

theorem Holds.mono (h : s.Holds whole t x body) (hwhole : whole' → whole) :
    s.Holds whole' t x body := by
  obtain ⟨front, hfront, hprefix, hall⟩ := h
  exact ⟨front, hfront, hprefix, fun hw => hall (hwhole hw)⟩

/-- What is held is held wherever the file gets. -/
theorem Holds.move (h : s.Holds whole t x body) (hmoved : ∀ b, s.Has t x b → s.Has t' y b) :
    s.Holds whole t' y body := by
  obtain ⟨front, hfront, hrest⟩ := h
  exact ⟨front, hmoved front hfront, hrest⟩

theorem Keeps.holds {xs : List Slot} (h : s.Keeps t t' xs) (hx : x ∉ xs)
    (hb : s.Holds whole t x body) : s.Holds whole t' x body := hb.move fun b => h.has x hx b

end

section

variable {s : Store} {t t' : FileTree} {x y : Slot} {d : Path}

theorem Home.unique {d' : Path} (h : s.Home t d) (h' : s.Home t d') : d' = d := by
  have he := h'.entered
  rw [h.entered] at he
  exact (Except.ok.inj he).symm

theorem isDirectory_iff (hs : s.Plain) :
    t.isDirectory (x.path s) = true ↔ ∃ d, s.Located t x d ∧ t.get? (s.spot d x) = some .dir := by
  unfold FileTree.isDirectory
  constructor
  · intro h
    cases hf : t.find (x.path s) with
    | error e => simp [hf] at h
    | ok r =>
      obtain ⟨p, node⟩ := r
      obtain ⟨d, hd⟩ := located_of_find s hs t x _ hf
      cases node with
      | dir => exact ⟨d, hd, (hd.find hs _ hf).1⟩
      | file body m => simp [hf] at h
  · rintro ⟨d, hd, hg⟩
    simp [FileTree.find, hd.locate hs, hd.lookup, hg, bind, Except.bind]

theorem Located.isDirectory (h : s.Located t x d) (hs : s.Plain) :
    t.isDirectory (x.path s) = false ↔ t.get? (s.spot d x) ≠ some .dir := by
  rw [← Bool.not_eq_true, isDirectory_iff hs]
  refine not_congr ⟨?_, fun hg => ⟨d, h, hg⟩⟩
  rintro ⟨d', hd', hg⟩
  rwa [h.home.unique hd'.home] at hg

theorem Has.isDirectory {body : Bytes} (h : s.Has t x body) :
    t.isDirectory (x.path s) = false := by
  obtain ⟨m, hm⟩ := h
  unfold FileTree.read at hm
  unfold FileTree.isDirectory
  cases hf : t.find (x.path s) with
  | error e => rfl
  | ok r =>
    obtain ⟨p, node⟩ := r
    cases node with
    | dir => simp [hf, bind, Except.bind] at hm
    | file body' m' => rfl

theorem Holds.isDirectory {whole : Prop} {body : Bytes} (h : s.Holds whole t x body) :
    t.isDirectory (x.path s) = false := by
  obtain ⟨front, hfront⟩ := h.has
  exact hfront.isDirectory

/-! ### When an operation succeeds -/

theorem create_iff (hs : s.Plain) (now : Instant) :
    t.create (x.path s) now = .ok t' ↔
      ∃ d, s.Located t x d ∧ t.get? (s.spot d x) ≠ some .dir ∧
        t' = t.put (s.spot d x) (.file [] now) := by
  rw [FileTree.create_iff]
  constructor
  · rintro ⟨p, hp, hrest⟩
    obtain ⟨d, hd, rfl⟩ := (leads_iff hs).mp hp
    exact ⟨d, hd, hrest⟩
  · rintro ⟨d, hd, hrest⟩
    exact ⟨_, (leads_iff hs).mpr ⟨d, hd, rfl⟩, hrest⟩

theorem append_iff (hs : s.Plain) (more : Bytes) (now : Instant) :
    t.append (x.path s) more now = .ok t' ↔
      ∃ d body m, s.Located t x d ∧ t.get? (s.spot d x) = some (.file body m) ∧
        t' = t.put (s.spot d x) (.file (body ++ more) now) := by
  rw [FileTree.append_iff]
  constructor
  · rintro ⟨p, body, m, hp, hrest⟩
    obtain ⟨d, hd, rfl⟩ := (leads_iff hs).mp hp
    exact ⟨d, body, m, hd, hrest⟩
  · rintro ⟨d, body, m, hd, hrest⟩
    exact ⟨_, body, m, (leads_iff hs).mpr ⟨d, hd, rfl⟩, hrest⟩

theorem remove_iff (hs : s.Plain) :
    t.remove (x.path s) = .ok t' ↔
      ∃ d body m, s.Located t x d ∧ t.get? (s.spot d x) = some (.file body m) ∧
        t' = t.erase (s.spot d x) := by
  rw [FileTree.remove_iff]
  constructor
  · rintro ⟨p, body, m, hp, hrest⟩
    obtain ⟨d, hd, rfl⟩ := (leads_iff hs).mp hp
    exact ⟨d, body, m, hd, hrest⟩
  · rintro ⟨d, body, m, hd, hrest⟩
    exact ⟨_, body, m, (leads_iff hs).mpr ⟨d, hd, rfl⟩, hrest⟩

/-- A rename succeeds from a slot where a file is to one where a file can be put. -/
theorem rename_iff (hs : s.Plain) (hxy : x ≠ y) (hx : t.isDirectory (x.path s) = false) :
    t.rename (x.path s) (y.path s) = .ok t' ↔
      ∃ d body m, s.Located t x d ∧ s.Located t y d ∧ t.get? (s.spot d x) = some (.file body m) ∧
        t.get? (s.spot d y) ≠ some .dir ∧ t' = t.move (s.spot d x) (s.spot d y) := by
  -- the other slot's path leads elsewhere
  have hother (d : Path) (hd : s.Located t x d) : ¬ t.Names (y.path s) (s.spot d x) := by
    intro hy
    have heq : s.spot d x = s.spot d y := hd.home.names hs hy
    exact hxy (eq_of_spot_below s d x y (heq ▸ List.prefix_refl _))
  constructor
  · intro h
    obtain ⟨p, body, m, hp, hg⟩ := file_of_rename h hx
    obtain ⟨d, hd, rfl⟩ := (leads_iff hs).mp hp
    obtain ⟨q, hq, hgy, -, -, rfl⟩ := (FileTree.rename_iff hp hg (hother d hd)).mp h
    obtain ⟨d', hd', rfl⟩ := (leads_iff hs).mp hq
    obtain rfl := hd.home.unique hd'.home
    exact ⟨d', body, m, hd, hd', hg, hgy, rfl⟩
  · rintro ⟨d, body, m, hd, hd', hg, hgy, rfl⟩
    have hp := (leads_iff hs).mpr ⟨d, hd, rfl⟩
    have hq := (leads_iff hs).mpr ⟨d, hd', rfl⟩
    -- neither slot stands below the other
    exact (FileTree.rename_iff hp hg (hother d hd)).mpr
      ⟨s.spot d y, hq, hgy, fun hb => hxy (eq_of_spot_below s d x y hb),
        fun hb => hxy (eq_of_spot_below s d y x hb).symm, rfl⟩

end

/-! ### What an operation leaves -/

/-- A move between two slots leaves nothing at the one and puts at the other what was there. -/
theorem get?_move_spot (s : Store) (t : FileTree) (d : Path) (x y : Slot) (hxy : x ≠ y) {n : Node}
    (hg : t.get? (s.spot d x) = some n) :
    (t.move (s.spot d x) (s.spot d y)).get? (s.spot d y) = some n ∧
      (t.move (s.spot d x) (s.spot d y)).get? (s.spot d x) = none := by
  -- neither slot stands below the other
  have hxny : ¬ s.spot d x <+: s.spot d y := fun hp => hxy (eq_of_spot_below s d x y hp)
  have hynx : ¬ s.spot d y <+: s.spot d x := fun hp => hxy (eq_of_spot_below s d y x hp).symm
  exact ⟨get?_move_dst t _ _ _ (spot_ne_nil s d x) (spot_ne_nil s d y) hxny hg,
    get?_move_src t _ (s.spot d y) (spot_ne_nil s d x) hynx⟩

/-- A file put at a slot where no directory is. -/
theorem put_slot (s : Store) (hs : s.Plain) (t : FileTree) (x : Slot) (d : Path)
    (h : s.Located t x d) (hdir : t.get? (s.spot d x) ≠ some .dir) (body : Bytes) (m : Instant) :
    (t.put (s.spot d x) (.file body m)).read (x.path s) = .ok (body, m) ∧
      s.Keeps t (t.put (s.spot d x) (.file body m)) [x] := by
  refine ⟨read_put ((leads_iff hs).mpr ⟨d, h, rfl⟩) hdir body m, ?_⟩
  refine (keeps_of_agree s hs t _ d h.home [x] (agree_put t _ _ (spot_ne_nil s d x))
    (by simpa using hdir) ?_).1
  simp [get?_put t (s.spot d x) (s.spot d x) _ (spot_ne_nil s d x)]

theorem create_slot (s : Store) (hs : s.Plain) (t t' : FileTree) (x : Slot) (now : Instant)
    (h : t.create (x.path s) now = .ok t') :
    t'.read (x.path s) = .ok ([], now) ∧ s.Keeps t t' [x] := by
  obtain ⟨d, hd, hdir, rfl⟩ := (create_iff hs now).mp h
  exact put_slot s hs t x d hd hdir [] now

theorem append_slot (s : Store) (hs : s.Plain) (t t' : FileTree) (x : Slot) (more : Bytes)
    (now : Instant) (h : t.append (x.path s) more now = .ok t') :
    s.Keeps t t' [x] ∧ ∀ body, s.Has t x body → s.Has t' x (body ++ more) := by
  obtain ⟨d, body, m, hd, hg, rfl⟩ := (append_iff hs more now).mp h
  obtain ⟨hread, hkeeps⟩ := put_slot s hs t x d hd (by simp [hg]) (body ++ more) now
  refine ⟨hkeeps, ?_⟩
  rintro body' ⟨m', hm'⟩
  rw [hd.read hs body m hg] at hm'
  obtain ⟨rfl, -⟩ := Prod.mk.inj (Except.ok.inj hm')
  exact ⟨now, hread⟩

theorem remove_slot (s : Store) (hs : s.Plain) (t t' : FileTree) (x : Slot)
    (h : t.remove (x.path s) = .ok t') : s.Keeps t t' [x] := by
  obtain ⟨d, body, m, hd, hg, rfl⟩ := (remove_iff hs).mp h
  refine (keeps_of_agree s hs t _ d hd.home [x] (agree_erase t _ (spot_ne_nil s d x))
    (by simp [hg]) ?_).1
  simp [get?_erase _ _ _ (spot_ne_nil s d x)]

/-- A file that is renamed to another slot is found there as it was. -/
theorem rename_slot (s : Store) (hs : s.Plain) (t t' : FileTree) (x y : Slot) (hxy : x ≠ y)
    (body : Bytes) (m : Instant) (hx : t.read (x.path s) = .ok (body, m))
    (h : t.rename (x.path s) (y.path s) = .ok t') :
    t'.read (y.path s) = .ok (body, m) ∧ s.Keeps t t' [x, y] := by
  obtain ⟨d, body', m', hd, hd', hg, hgy, rfl⟩ :=
    (rename_iff hs hxy (Has.isDirectory ⟨m, hx⟩)).mp h
  rw [hd.read hs body' m' hg] at hx
  obtain ⟨rfl, rfl⟩ := Prod.mk.inj (Except.ok.inj hx)
  obtain ⟨hdst, hsrc⟩ := s.get?_move_spot t d x y hxy hg
  obtain ⟨hkeeps, hhome⟩ := keeps_of_agree s hs t (t.move (s.spot d x) (s.spot d y)) d hd.home
    [x, y] (agree_move t _ _) (by simp [hg, hgy]) (by simp [hdst, hsrc])
  exact ⟨Located.read ⟨hhome, hd'.short, hd'.named⟩ hs body' m' hdst, hkeeps⟩

end Store
end ListKeeper
