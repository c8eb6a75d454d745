import ListKeeper.Proofs.Admission

/-! Changes in their places. An operation on the slots of a store changes nothing anywhere else in
the tree of files, neither beside the store nor in it. Main statements: `rename_confined` and
`writeStep_confined`. -/
namespace ListKeeper

open FileTree

namespace Store

variable {s : Store} {t t' t'' : FileTree} {x y : Slot} {d : Path} {xs ys : List Slot}

/-- No directory comes or goes, and nothing changes off the places of some slots and what lies below
them. -/
structure Confined (s : Store) (t t' : FileTree) (xs : List Slot) : Prop where
  sameOpen : t.SameOpen t'
  only : ∀ q, t'.get? q ≠ t.get? q → ∃ d, s.Home t d ∧ ∃ x ∈ xs, s.spot d x <+: q

namespace Confined

theorem refl (s : Store) (t : FileTree) (xs : List Slot) : s.Confined t t xs :=
  ⟨.refl t, fun _ hq => absurd rfl hq⟩

theorem mono (h : s.Confined t t' xs) (hxs : ∀ x ∈ xs, x ∈ ys) : s.Confined t t' ys := by
  refine ⟨h.sameOpen, fun q hq => ?_⟩
  obtain ⟨d, hd, x, hx, hbelow⟩ := h.only q hq
  exact ⟨d, hd, x, hxs x hx, hbelow⟩

theorem trans (h : s.Confined t t' xs) (h' : s.Confined t' t'' xs) : s.Confined t t'' xs := by
  refine ⟨h.sameOpen.trans h'.sameOpen, fun q hq => ?_⟩
  -- what differs in the end was changed by the first or by the second
  by_cases hfirst : t'.get? q = t.get? q
  · obtain ⟨d, hd, x, hx, hbelow⟩ := h'.only q fun heq => hq (heq.trans hfirst)
    exact ⟨d, hd.congr h.sameOpen.symm, x, hx, hbelow⟩
  · exact h.only q hfirst

theorem of_agree (h : s.Home t d) (ha : t.Agree t' (xs.map (s.spot d)))
    (ht : ∀ x ∈ xs, t.get? (s.spot d x) ≠ some .dir)
    (ht' : ∀ x ∈ xs, t'.get? (s.spot d x) ≠ some .dir) : s.Confined t t' xs := by
  refine ⟨SameOpen.of_agree t t' _ ha (by simpa using ht) (by simpa using ht'), fun q hq => ?_⟩
  by_contra hnone
  apply hq
  apply ha.same
  intro p hp hpq
  obtain ⟨x, hx, rfl⟩ := List.mem_map.mp hp
  exact hnone ⟨d, h, x, hx, hpq⟩

end Confined

/-! ### What an operation changes -/

theorem put_confined (h : s.Located t x d) (hx : t.get? (s.spot d x) ≠ some .dir) (body : Bytes)
    (m : Instant) : s.Confined t (t.put (s.spot d x) (.file body m)) [x] := by
  refine .of_agree h.home (agree_put t _ _ (spot_ne_nil s d x)) (by simpa using hx) ?_
  simp [get?_put _ _ _ _ (spot_ne_nil s d x)]

theorem create_confined (hs : s.Plain) (now : Instant) (h : t.create (x.path s) now = .ok t') :
    s.Confined t t' [x] := by
  obtain ⟨d, hd, hx, rfl⟩ := (create_iff hs now).mp h
  exact put_confined hd hx [] now

theorem append_confined (hs : s.Plain) (more : Bytes) (now : Instant)
    (h : t.append (x.path s) more now = .ok t') : s.Confined t t' [x] := by
  obtain ⟨d, body, m, hd, hg, rfl⟩ := (append_iff hs more now).mp h
  exact put_confined hd (by simp [hg]) (body ++ more) now

theorem remove_confined (hs : s.Plain) (h : t.remove (x.path s) = .ok t') :
    s.Confined t t' [x] := by
  obtain ⟨d, body, m, hd, hg, rfl⟩ := (remove_iff hs).mp h
  refine .of_agree hd.home (agree_erase t _ (spot_ne_nil s d x)) (by simp [hg]) ?_
  simp [get?_erase _ _ _ (spot_ne_nil s d x)]

theorem rename_confined (hs : s.Plain) (hxy : x ≠ y) (hx : t.isDirectory (x.path s) = false)
    (h : t.rename (x.path s) (y.path s) = .ok t') : s.Confined t t' [x, y] := by
  obtain ⟨d, body, m, hd, -, hg, hgy, rfl⟩ := (rename_iff hs hxy hx).mp h
  obtain ⟨hdst, hsrc⟩ := s.get?_move_spot t d x y hxy hg
  exact .of_agree hd.home (agree_move t _ _) (by simp [hg, hgy]) (by simp [hdst, hsrc])

/-- A step of a write changes the file of its id and the temporary one only. -/
theorem writeStep_confined (hs : s.Plain) (id : UInt64) (body : Bytes) (disk : Disk) (w : Writing)
    {whole : Prop} (h : s.Progress whole t id body w) :
    s.Confined t (s.writeStep id body disk t w).1 [.file id, .temp id] := by
  cases w with
  | create =>
    simp only [writeStep]
    split
    · exact (create_confined (x := .temp id) hs _ (ok_of_attempt disk _ _ ‹_›)).mono (by simp)
    · exact .refl s t _
  | fill rest =>
    simp only [writeStep]
    split
    · exact (append_confined (x := .temp id) hs _ _ (ok_of_attempt disk _ _ ‹_›)).mono (by simp)
    · exact .refl s t _
  | sync =>
    simp only [writeStep]
    split
    · obtain rfl := Except.ok.inj (ok_of_attempt disk _ _ ‹_›)
      exact .refl s _ _
    · exact .refl s t _
  | publish =>
    simp only [writeStep]
    split
    · exact (rename_confined (x := .temp id) (y := .file id) hs (by simp) (Holds.isDirectory h)
        (ok_of_attempt disk _ _ ‹_›)).mono (by simp)
    · exact .refl s t _
  | discard cause =>
    simp only [writeStep]
    split
    · exact (remove_confined (x := .temp id) hs (ok_of_attempt disk _ _ ‹_›)).mono (by simp)
    · exact .refl s t _
  | done outcome => exact .refl s t _

/-! ### What is not there -/

theorem Located.missing (h : s.Located t x d) (hs : s.Plain) (hg : t.get? (s.spot d x) = none) :
    t.find (x.path s) = .error .notFound := by
  simp [FileTree.find, h.locate hs, h.lookup, hg, bind, Except.bind]

/-- A file that is renamed is found in its new place and nothing in its old one. -/
theorem rename_moves (hs : s.Plain) (hxy : x ≠ y) (hx : t.isDirectory (x.path s) = false)
    (h : t.rename (x.path s) (y.path s) = .ok t') :
    (∃ content, t.read (x.path s) = .ok content ∧ t'.read (y.path s) = .ok content) ∧
      t'.find (x.path s) = .error .notFound := by
  have hopen := (rename_alters hs hxy hx h).sameOpen
  obtain ⟨d, body, m, hd, hd', hg, -, rfl⟩ := (rename_iff hs hxy hx).mp h
  obtain ⟨hdst, hsrc⟩ := s.get?_move_spot t d x y hxy hg
  exact ⟨⟨(body, m), hd.read hs body m hg, (hd'.congr hopen).read hs body m hdst⟩,
    (hd.congr hopen).missing hs hsrc⟩

end Store

/-- Taking a file away changes that one only. -/
theorem System.discard_confined (s : System) (hs : s.store.Plain) (disk : Disk) (id : UInt64) :
    s.store.Confined s.tree (s.discard disk id).tree [.file id] := by
  unfold discard
  split
  · rename_i t' ht'
    exact Store.remove_confined (x := .file id) hs (Store.ok_of_attempt disk _ t' ht')
  · exact .refl _ _ _

end ListKeeper
