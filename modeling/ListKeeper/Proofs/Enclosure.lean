import ListKeeper.Proofs.Slots
import ListKeeper.Proofs.Validation
import ListKeeper.Service

/-! The store's directory holds its files. Every path of an accepted store is the directory's path
with one plain name behind it, and wherever the directory leads, the path leads to that name in it.
No two ids share a path, and no temporary file has the path of a list. Main statement:
`Service.paths_enclosed`. -/
namespace ListKeeper

namespace Location

/-- Two written paths that agree name by name. -/
def Same (p q : String) : Prop := ofText? p = ofText? q

/-- A name that makes one step down from a directory. -/
structure StepsDown (name : String) : Prop where
  ne_empty : name ≠ ""
  ne_dot : name ≠ "."
  ne_dots : name ≠ ".."
  no_separator : ∀ c ∈ name.toList, c ≠ '/' ∧ c ≠ '\\'

theorem ofText?_eq (dir : String) (h : dir ≠ "") :
    ∃ asDirectory, ofText? dir = some ⟨dirNames dir, fromRoot dir, asDirectory⟩ :=
  ⟨_, if_neg h⟩

end Location

namespace FileTree

theorem enter_append (t : FileTree) (here : Path) (front back : List String) :
    t.enter here (front ++ back) = (t.enter here front).bind fun d => t.enter d back := by
  induction front generalizing here with
  | nil => rfl
  | cons name rest ih =>
    simp only [List.cons_append, enter]
    split
    · exact ih _
    · -- both go on only where the lookup finds a directory
      rcases t.lookup here name with e | _ | _ | _
      · rfl
      · rfl
      · rfl
      · exact ih _

/-- A directory that is entered is found under its path. -/
theorem find_of_enter (t : FileTree) (dir : String) (here d : Path) (hne : dir ≠ "")
    (hshort : ¬ maxPath ≤ dir.utf8ByteSize)
    (hstart : t.start (Location.fromRoot dir) = .ok here)
    (h : t.enter here (Location.dirNames dir) = .ok d) : t.find dir = .ok (d, .dir) := by
  obtain ⟨asDirectory, htext⟩ := Location.ofText?_eq dir hne
  have hlocate : t.locate dir = t.walk asDirectory here (Location.dirNames dir) := by
    rw [locate, if_neg hshort, htext]
    simp only [hstart, Except.bind]
  rw [find, hlocate]
  -- the last name is looked up in the directory to which those before it lead
  rcases List.eq_nil_or_concat (Location.dirNames dir) with hnil | ⟨front, last, hconcat⟩
  · rw [hnil] at h ⊢
    obtain rfl := Except.ok.inj h
    rfl
  · rw [List.concat_eq_append] at hconcat
    rw [hconcat, enter_append] at h
    rw [hconcat, walk_concat]
    cases hfront : t.enter here front with
    | error e =>
      rw [hfront] at h
      cases h
    | ok above =>
      rw [hfront] at h
      simp only [Except.bind, enter] at h
      simp only [Except.bind, walk]
      split at h
      · rename_i hup
        obtain rfl := Except.ok.inj h
        rw [if_pos hup]
        rfl
      · rename_i hup
        rw [if_neg hup]
        split at h
        · cases h
        · cases h
        · cases h
        · rename_i hl
          obtain rfl := Except.ok.inj h
          simp [bind, Except.bind, hl]

end FileTree

namespace Store

/-- The path is the directory's with one name more, and it leads there wherever the directory leads.
-/
structure Encloses (s : Store) (path name : String) : Prop where
  joined : path = joinPath s.dir name
  stepsDown : Location.StepsDown name
  /-- Taken apart, the path has one name more than the directory's. -/
  below : ∃ l, Location.ofText? s.dir = some l ∧
    Location.ofText? path = some ⟨l.names ++ [name], l.absolute, false⟩
  /-- No operation looks for it anywhere but in the directory. -/
  inside : ∀ (t : FileTree) (place : Place), t.locate path = .ok place →
    ∃ d, t.find s.dir = .ok (d, .dir) ∧ place = .named d name false

variable {s : Store}

theorem same_path_iff (hs : s.Plain) (x y : Slot) :
    Location.Same (x.path s) (y.path s) ↔ x = y := by
  constructor
  · intro h
    have hx := Location.ofText?_joinPath s.dir (x.name s) (name_no_slash s hs x) (name_counts s x).1
    have hy := Location.ofText?_joinPath s.dir (y.name s) (name_no_slash s hs y) (name_counts s y).1
    have hnames := hx.symm.trans (h.trans hy)
    simp only [Option.some.injEq, Location.mk.injEq, List.append_cancel_left_eq, List.cons.injEq,
      and_true] at hnames
    exact name_injective s x y hnames
  · rintro rfl
    rfl

theorem size_dir_le (s : Store) (x : Slot) : s.dir.utf8ByteSize ≤ (x.path s).utf8ByteSize := by
  unfold Slot.path joinPath
  split
  · rename_i hempty
    rw [hempty]
    exact Nat.zero_le _
  · split <;> simp only [String.utf8ByteSize_append] <;> omega

/-- No character of a name separates anything where none of the extension's does. -/
theorem name_no_separator (hs : ∀ c ∈ s.extension.toList, c ≠ '/' ∧ c ≠ '\\') (x : Slot) :
    ∀ c ∈ (x.name s).toList, c ≠ '/' ∧ c ≠ '\\' := by
  intro c hc
  refine ⟨name_no_slash s (fun c hc => (hs c hc).1) x c hc, ?_⟩
  cases x with
  | file id =>
    rw [Slot.name, toList_fileName, List.mem_append, List.mem_cons] at hc
    rcases hc with hc | rfl | hc
    · exact ne_of_mem_digits id c '\\' rfl hc
    · decide
    · exact (hs c hc).2
  | temp id =>
    rw [Slot.name, toList_tempName, List.mem_append, List.mem_cons, List.mem_append] at hc
    rcases hc with hc | rfl | hc | hc
    · exact ne_of_mem_digits id c '\\' rfl hc
    · decide
    · exact (hs c hc).2
    · rintro rfl
      exact absurd hc (by decide)

theorem name_stepsDown (hs : ∀ c ∈ s.extension.toList, c ≠ '/' ∧ c ≠ '\\') (x : Slot) :
    Location.StepsDown (x.name s) := by
  obtain ⟨hcounts, hdots⟩ := name_counts s x
  refine ⟨?_, ?_, hdots, name_no_separator hs x⟩
  · intro h
    rw [h] at hcounts
    exact absurd hcounts (by decide)
  · intro h
    rw [h] at hcounts
    exact absurd hcounts (by decide)

theorem encloses (hdir : s.dir ≠ "") (hs : ∀ c ∈ s.extension.toList, c ≠ '/' ∧ c ≠ '\\')
    (x : Slot) : s.Encloses (x.path s) (x.name s) where
  joined := rfl
  stepsDown := name_stepsDown hs x
  below := by
    obtain ⟨asDirectory, htext⟩ := Location.ofText?_eq s.dir hdir
    exact ⟨_, htext, Location.ofText?_joinPath s.dir (x.name s)
      (fun c hc => (name_no_separator hs x c hc).1) (name_counts s x).1⟩
  inside t place h := by
    rw [locate_slot s (fun c hc => (hs c hc).1)] at h
    split at h
    · cases h
    rename_i hshort
    cases hstart : t.start (Location.fromRoot s.dir) with
    | error e =>
      rw [hstart] at h
      cases h
    | ok here =>
    cases hd : t.enter here (Location.dirNames s.dir) with
    | error e =>
      rw [hstart, Except.bind, hd] at h
      cases h
    | ok d =>
      rw [hstart, Except.bind, hd] at h
      have hsize := s.size_dir_le x
      exact ⟨d, t.find_of_enter s.dir here d hdir (by omega) hstart hd,
        (Except.ok.inj h).symm⟩

end Store

namespace Service

/-- With accepted settings every id has a path of its own and a temporary path of its own, and none
is both. Each of them is the directory's path with one plain name behind it, so whatever the ids and
the extension are, nothing outside the directory is named. -/
theorem paths_enclosed (c : Config) (h : c.sync.fault? = none) :
    (∀ a b : UInt64,
      ((store c).pathFor a = (store c).pathFor b ↔ a = b) ∧
      ((store c).tempPathFor a = (store c).tempPathFor b ↔ a = b) ∧
      (store c).tempPathFor a ≠ (store c).pathFor b) ∧
    (∀ a b : UInt64,
      (Location.Same ((store c).pathFor a) ((store c).pathFor b) ↔ a = b) ∧
      (Location.Same ((store c).tempPathFor a) ((store c).tempPathFor b) ↔ a = b) ∧
      ¬ Location.Same ((store c).tempPathFor a) ((store c).pathFor b)) ∧
    ∀ id : UInt64,
      (store c).Encloses ((store c).pathFor id) ((store c).fileName id) ∧
      (store c).Encloses ((store c).tempPathFor id) ((store c).tempName id) := by
  have hvalid := c.sync.fault?_eq_none_iff_valid.mp h
  have hseparators : ∀ ch ∈ (store c).extension.toList, ch ≠ '/' ∧ ch ≠ '\\' := fun ch hch =>
    ⟨(hvalid.extension_plain ch hch).1, (hvalid.extension_plain ch hch).2.1⟩
  have hplain : (store c).Plain := fun ch hch => (hseparators ch hch).1
  -- all is said by names once: texts that are equal have the same names
  have hsame := Store.same_path_iff hplain
  have hfiles (a b : UInt64) : Location.Same ((store c).pathFor a) ((store c).pathFor b) ↔ a = b :=
    (hsame (.file a) (.file b)).trans (by simp)
  have htemps (a b : UInt64) :
      Location.Same ((store c).tempPathFor a) ((store c).tempPathFor b) ↔ a = b :=
    (hsame (.temp a) (.temp b)).trans (by simp)
  have hapart (a b : UInt64) :
      ¬ Location.Same ((store c).tempPathFor a) ((store c).pathFor b) := by
    rw [← Slot.path_temp, ← Slot.path_file, hsame]
    simp
  refine ⟨fun a b => ⟨⟨fun heq => ?_, fun heq => by rw [heq]⟩,
    ⟨fun heq => ?_, fun heq => by rw [heq]⟩, fun heq => ?_⟩,
    fun a b => ⟨hfiles a b, htemps a b, hapart a b⟩,
    fun id => ⟨Store.encloses hvalid.dir_ne hseparators (.file id),
      Store.encloses hvalid.dir_ne hseparators (.temp id)⟩⟩
  · exact (hfiles a b).mp (congrArg Location.ofText? heq)
  · exact (htemps a b).mp (congrArg Location.ofText? heq)
  · exact hapart a b (congrArg Location.ofText? heq)

/-- Settings whose directory is written as a detour, and whose extension looks like the end of a
temporary file's name. -/
def detour : Config :=
  { Config.standard with
    sync := { SyncSettings.standard with dir := "a/..//lists/", extension := "tmp" } }

theorem paths_enclosed_detour :
    detour.sync.fault? = none ∧
      (store detour).tempPathFor 7 = "a/..//lists/7.tmp.tmp" ∧
      (store detour).tempPathFor 7 ≠ (store detour).pathFor 7 ∧
      ∃ d, FileTree.find ⟨[(["a"], .dir), (["lists"], .dir)]⟩ "a/..//lists/" = .ok (d, .dir) ∧
        FileTree.locate ⟨[(["a"], .dir), (["lists"], .dir)]⟩ ((store detour).pathFor 7) =
          .ok (.named d "7.tmp" false) := by
  have hok : detour.sync.fault? = none := by decide
  obtain ⟨htexts, -, hencloses⟩ := paths_enclosed detour hok
  have hlocate : FileTree.locate ⟨[(["a"], .dir), (["lists"], .dir)]⟩ ((store detour).pathFor 7) =
      .ok (.named ["lists"] "7.tmp" false) := by rfl
  obtain ⟨d, hd, hplace⟩ := (hencloses 7).1.inside _ _ hlocate
  exact ⟨hok, by decide, (htexts 7 7).2.2, d, hd, hlocate.trans (congrArg _ hplace)⟩

end Service
end ListKeeper
