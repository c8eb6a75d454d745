import ListKeeper.Proofs.Writing

/-! Where files can be put. No operation on the slots of a store makes or takes away a directory, so
what can be put where does not change, and on a disk without faults a write goes where its files can
be put. Main statements: `Alters.admits` and `writeStep_goes`. -/
namespace ListKeeper

open FileTree

namespace Store

variable {s : Store} {t t' t'' : FileTree} {x y : Slot} {d : Path}

theorem Located.congr (h : s.Located t x d) (hsame : t.SameOpen t') : s.Located t' x d :=
  ⟨h.home.congr hsame, h.short, h.named⟩

/-- A file can be put at the slot. -/
structure Admits (s : Store) (t : FileTree) (x : Slot) : Prop where
  located : ∃ d, s.Located t x d
  free : t.isDirectory (x.path s) = false

/-- Where the directory of a store can be entered and names are short, a file can be put at every
slot at which there is no directory. -/
theorem admits_of_home (hs : s.Plain) (hhome : s.Home t d)
    (hname : s.extension.utf8ByteSize + 25 ≤ FileTree.maxName)
    (hpath : s.dir.utf8ByteSize + s.extension.utf8ByteSize + 26 < FileTree.maxPath)
    (hfree : t.get? (s.spot d x) ≠ some .dir) : s.Admits t x := by
  have hlocated : s.Located t x d := by
    refine ⟨hhome, Nat.not_le.mpr (Nat.lt_of_le_of_lt (s.size_path_le x) hpath), ?_⟩
    exact Nat.not_lt.mpr (Nat.le_trans (s.size_name_le x) hname)
  exact ⟨⟨d, hlocated⟩, (hlocated.isDirectory hs).mpr hfree⟩

/-- The slots other than some hold what they held, these hold no directory, and no directory came or
went anywhere. -/
structure Alters (s : Store) (t t' : FileTree) (xs : List Slot) : Prop where
  sameOpen : t.SameOpen t'
  keeps : s.Keeps t t' xs
  free : ∀ x ∈ xs, t'.isDirectory (x.path s) = false

theorem Alters.refl (s : Store) (t : FileTree) : s.Alters t t [] :=
  ⟨.refl t, Keeps.refl s t [], by simp⟩

theorem Keeps.isDirectory {xs : List Slot} (h : s.Keeps t t' xs) (hx : x ∉ xs) :
    t'.isDirectory (x.path s) = t.isDirectory (x.path s) := by
  rw [FileTree.isDirectory, h x hx, FileTree.isDirectory]

/-- What can be put somewhere can be put there ever after. -/
theorem Alters.admits {xs : List Slot} (h : s.Alters t t' xs) (hx : s.Admits t x) :
    s.Admits t' x := by
  obtain ⟨d, hd⟩ := hx.located
  refine ⟨⟨d, hd.congr h.sameOpen⟩, ?_⟩
  by_cases hmem : x ∈ xs
  · exact h.free x hmem
  · rw [h.keeps.isDirectory hmem]
    exact hx.free

/-- A change at the places of some slots, where no directory comes or goes. -/
theorem alters_of_agree (hs : s.Plain) (h : s.Home t d) (xs : List Slot)
    (ha : t.Agree t' (xs.map (s.spot d))) (ht : ∀ x ∈ xs, t.get? (s.spot d x) ≠ some .dir)
    (ht' : ∀ x ∈ xs, t'.get? (s.spot d x) ≠ some .dir) : s.Alters t t' xs := by
  obtain ⟨hkeeps, hhome⟩ := keeps_of_agree s hs t t' d h xs ha ht ht'
  refine ⟨SameOpen.of_agree t t' _ ha ?_ ?_, hkeeps, ?_⟩
  · simpa using ht
  · simpa using ht'
  · intro x hx
    rw [← Bool.not_eq_true, isDirectory_iff hs]
    rintro ⟨d', hd', hg⟩
    rw [hhome.unique hd'.home] at hg
    exact ht' x hx hg

/-! ### What an operation alters -/

theorem alters_put (hs : s.Plain) (h : s.Located t x d) (hx : t.get? (s.spot d x) ≠ some .dir)
    (body : Bytes) (m : Instant) : s.Alters t (t.put (s.spot d x) (.file body m)) [x] := by
  refine alters_of_agree hs h.home [x] (agree_put t _ _ (spot_ne_nil s d x)) (by simpa using hx) ?_
  simp [get?_put _ _ _ _ (spot_ne_nil s d x)]

theorem create_alters (hs : s.Plain) (now : Instant) (h : t.create (x.path s) now = .ok t') :
    s.Alters t t' [x] := by
  obtain ⟨d, hd, hx, rfl⟩ := (create_iff hs now).mp h
  exact alters_put hs hd hx [] now

theorem append_alters (hs : s.Plain) (more : Bytes) (now : Instant)
    (h : t.append (x.path s) more now = .ok t') : s.Alters t t' [x] := by
  obtain ⟨d, body, m, hd, hg, rfl⟩ := (append_iff hs more now).mp h
  exact alters_put hs hd (by simp [hg]) (body ++ more) now

theorem remove_alters (hs : s.Plain) (h : t.remove (x.path s) = .ok t') : s.Alters t t' [x] := by
  obtain ⟨d, body, m, hd, hg, rfl⟩ := (remove_iff hs).mp h
  refine alters_of_agree hs hd.home [x] (agree_erase t _ (spot_ne_nil s d x)) (by simp [hg]) ?_
  simp [get?_erase _ _ _ (spot_ne_nil s d x)]

theorem rename_alters (hs : s.Plain) (hxy : x ≠ y) (hx : t.isDirectory (x.path s) = false)
    (h : t.rename (x.path s) (y.path s) = .ok t') : s.Alters t t' [x, y] := by
  obtain ⟨d, body, m, hd, -, hg, hgy, rfl⟩ := (rename_iff hs hxy hx).mp h
  obtain ⟨hdst, hsrc⟩ := s.get?_move_spot t d x y hxy hg
  exact alters_of_agree hs hd.home [x, y] (agree_move t _ _) (by simp [hg, hgy])
    (by simp [hdst, hsrc])

/-- A file can be renamed to where a file can be put. -/
theorem rename_ok (hs : s.Plain) (hxy : x ≠ y) {body : Bytes} (hx : s.Has t x body)
    (hy : s.Admits t y) : ∃ t', t.rename (x.path s) (y.path s) = .ok t' := by
  obtain ⟨m, hm⟩ := hx
  obtain ⟨d, hd, hg⟩ := get?_of_read s hs t x body m hm
  obtain ⟨d', hd'⟩ := hy.located
  obtain rfl := hd.home.unique hd'.home
  exact ⟨_, (rename_iff hs hxy (Has.isDirectory ⟨m, hm⟩)).mpr
    ⟨d', body, m, hd, hd', hg, (hd'.isDirectory hs).mp hy.free, rfl⟩⟩

/-- What can be renamed is a file, and it goes where a file can be put. -/
theorem of_rename (hs : s.Plain) (hxy : x ≠ y) (hx : t.isDirectory (x.path s) = false)
    (h : t.rename (x.path s) (y.path s) = .ok t') :
    (∃ body, s.Has t x body) ∧ s.Admits t y := by
  obtain ⟨d, body, m, hd, hd', hg, hgy, -⟩ := (rename_iff hs hxy hx).mp h
  exact ⟨⟨body, m, hd.read hs body m hg⟩, ⟨d, hd'⟩, (hd'.isDirectory hs).mpr hgy⟩

/-- Nothing is found any more where a file was renamed from or taken away. -/
theorem not_has_of_get? (hs : s.Plain) (h : s.Located t x d) (hg : t.get? (s.spot d x) = none)
    (body : Bytes) : ¬ s.Has t x body := by
  rintro ⟨m, hm⟩
  obtain ⟨d', hd', hg'⟩ := get?_of_read s hs t x body m hm
  rw [h.home.unique hd'.home, hg] at hg'
  cases hg'

theorem remove_ok (hs : s.Plain) {body : Bytes} (hx : s.Has t x body) :
    ∃ t', t.remove (x.path s) = .ok t' := by
  obtain ⟨m, hm⟩ := hx
  obtain ⟨d, hd, hg⟩ := get?_of_read s hs t x body m hm
  exact ⟨_, (remove_iff hs).mpr ⟨d, body, m, hd, hg, rfl⟩⟩

theorem not_has_of_remove (hs : s.Plain) (h : t.remove (x.path s) = .ok t') (body : Bytes) :
    ¬ s.Has t' x body := by
  have hopen := (remove_alters hs h).sameOpen
  obtain ⟨d, _, _, hd, -, rfl⟩ := (remove_iff hs).mp h
  exact not_has_of_get? hs (hd.congr hopen)
    (by rw [get?_erase _ _ _ (spot_ne_nil s d x), if_pos rfl]) body

theorem not_has_of_rename (hs : s.Plain) (hxy : x ≠ y) (hx : t.isDirectory (x.path s) = false)
    (h : t.rename (x.path s) (y.path s) = .ok t') (body : Bytes) : ¬ s.Has t' x body := by
  have hopen := (rename_alters hs hxy hx h).sameOpen
  obtain ⟨d, _, _, hd, -, hg, -, rfl⟩ := (rename_iff hs hxy hx).mp h
  exact not_has_of_get? hs (hd.congr hopen) (s.get?_move_spot t d x y hxy hg).2 body

/-! ### Writes -/

theorem of_attempt {α : Type} (disk : Disk) (op : Except IoError α) (a : α)
    (h : attempt disk op = .ok a) : disk.fault = none ∧ op = .ok a := by
  refine ⟨?_, ok_of_attempt disk op a h⟩
  unfold attempt at h
  split at h
  · cases h
  · assumption

/-- A step of a write alters at most the file of its id and the temporary one. -/
theorem writeStep_alters (hs : s.Plain) (id : UInt64) (body : Bytes) (disk : Disk) (w : Writing)
    {whole : Prop} (h : s.Progress whole t id body w) :
    ∃ xs, s.Alters t (s.writeStep id body disk t w).1 xs ∧
      ∀ x ∈ xs, x = .file id ∨ x = .temp id := by
  cases w with
  | create =>
    simp only [writeStep]
    split
    · exact ⟨_, create_alters (x := .temp id) hs _ (ok_of_attempt disk _ _ ‹_›), by simp⟩
    · exact ⟨[], .refl s t, by simp⟩
  | fill rest =>
    simp only [writeStep]
    split
    · exact ⟨_, append_alters (x := .temp id) hs _ _ (ok_of_attempt disk _ _ ‹_›), by simp⟩
    · exact ⟨[], .refl s t, by simp⟩
  | sync =>
    simp only [writeStep]
    split
    · obtain rfl := Except.ok.inj (ok_of_attempt disk _ _ ‹_›)
      exact ⟨[], .refl s _, by simp⟩
    · exact ⟨[], .refl s t, by simp⟩
  | publish =>
    simp only [writeStep]
    split
    · exact ⟨_, rename_alters (x := .temp id) (y := .file id) hs (by simp)
        (Holds.isDirectory h) (ok_of_attempt disk _ _ ‹_›), by simp⟩
    · exact ⟨[], .refl s t, by simp⟩
  | discard cause =>
    simp only [writeStep]
    split
    · exact ⟨_, remove_alters (x := .temp id) hs (ok_of_attempt disk _ _ ‹_›), by simp⟩
    · exact ⟨[], .refl s t, by simp⟩
  | done outcome => exact ⟨[], .refl s t, by simp⟩

end Store

def Writing.Goes : Writing → Prop
  | .discard _ => False
  | .done (.error _) => False
  | _ => True

namespace Store

variable {s : Store} {t : FileTree}

theorem goes_fillOrSync (rest : Bytes) : (fillOrSync rest).Goes := by
  unfold fillOrSync
  split <;> trivial

/-- Where a file and a temporary one can be put, no write fails on a disk without faults. -/
theorem writeStep_goes (hs : s.Plain) (id : UInt64) (body : Bytes) (disk : Disk) (w : Writing)
    (hdisk : disk.fault = none) (hfile : s.Admits t (.file id)) (htemp : s.Admits t (.temp id))
    {whole : Prop} (h : s.Progress whole t id body w) (hw : w.Goes) :
    (s.writeStep id body disk t w).2.Goes := by
  have hattempt (op : Except IoError FileTree) : attempt disk op = op := by simp [attempt, hdisk]
  cases w with
  | create =>
    obtain ⟨d, hd⟩ := htemp.located
    have hok := (create_iff hs disk.stamp).mpr ⟨d, hd, (hd.isDirectory hs).mp htemp.free, rfl⟩
    rw [Slot.path_temp] at hok
    simp only [writeStep, hattempt, hok]
    exact goes_fillOrSync body
  | fill rest =>
    obtain ⟨front, -, m, hm⟩ := h
    obtain ⟨d, hd, hg⟩ := get?_of_read s hs t (.temp id) front m hm
    have hok := (append_iff hs (rest.take (disk.chunk + 1)) disk.stamp).mpr
      ⟨d, front, m, hd, hg, rfl⟩
    rw [Slot.path_temp] at hok
    simp only [writeStep, hattempt, hok]
    exact goes_fillOrSync _
  | sync =>
    simp only [writeStep, hattempt]
    trivial
  | publish =>
    obtain ⟨front, hfront⟩ := Holds.has h
    obtain ⟨t', ht'⟩ := rename_ok (x := .temp id) (y := .file id) hs (by simp) hfront hfile
    rw [Slot.path_temp, Slot.path_file] at ht'
    simp only [writeStep, hattempt, ht']
    trivial
  | discard cause => exact hw.elim
  | done outcome => exact hw

end Store

/-- Taking a file away alters at most that one. -/
theorem System.discard_alters (s : System) (hs : s.store.Plain) (disk : Disk) (id : UInt64) :
    ∃ xs, s.store.Alters s.tree (s.discard disk id).tree xs ∧ ∀ x ∈ xs, x = .file id := by
  unfold discard
  split
  · rename_i t' ht'
    exact ⟨_, Store.remove_alters (x := .file id) hs (Store.ok_of_attempt disk _ t' ht'), by simp⟩
  · exact ⟨[], .refl _ _, by simp⟩

end ListKeeper
