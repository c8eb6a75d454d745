import ListKeeper.Proofs.Places
import ListKeeper.Proofs.Promotions

/-! The renamings of a commit, one after another. Each goes to its own two files, so that what
becomes of a pair depends on that pair alone and the order does not matter. Main statement:
`Store.Renamings.done`. -/
namespace ListKeeper

def Renaming.pair (r : Renaming) : UInt64 × UInt64 := (r.id, r.stagedId)

/-- Pairs of an id with a staged file's of which no two share an id. -/
structure Apart (pairs : List (UInt64 × UInt64)) : Prop where
  ids : (pairs.map (·.1)).Nodup
  staged : (pairs.map (·.2)).Nodup
  ne : ∀ p ∈ pairs, ∀ q ∈ pairs, p.2 ≠ q.1

theorem Apart.tail {p : UInt64 × UInt64} {pairs : List (UInt64 × UInt64)}
    (h : Apart (p :: pairs)) : Apart pairs where
  ids := (List.nodup_cons.mp h.ids).2
  staged := (List.nodup_cons.mp h.staged).2
  ne a ha b hb := h.ne a (List.mem_cons_of_mem p ha) b (List.mem_cons_of_mem p hb)

def Renaming.slots (r : Renaming) : List Slot :=
  if r.succeeded then [.file r.stagedId, .file r.id] else []

theorem Renaming.mem_slots (r : Renaming) (x : Slot) (h : x ∈ r.slots) :
    x = .file r.stagedId ∨ x = .file r.id := by
  unfold slots at h
  split at h
  · simpa using h
  · cases h

namespace Apart

variable {r q : Renaming} {tried : List Renaming}

theorem head_ne (h : Apart ((r :: tried).map Renaming.pair)) : r.stagedId ≠ r.id :=
  h.ne r.pair List.mem_cons_self r.pair List.mem_cons_self

theorem ne_of_mem (h : Apart ((r :: tried).map Renaming.pair)) (hq : q ∈ tried) :
    (q.id ≠ r.id ∧ q.stagedId ≠ r.stagedId) ∧ q.stagedId ≠ r.id ∧ r.stagedId ≠ q.id := by
  have hpair : q.pair ∈ tried.map Renaming.pair := List.mem_map_of_mem hq
  have hid : q.id ≠ r.id := fun heq =>
    (List.nodup_cons.mp h.ids).1 (List.mem_map.mpr ⟨q.pair, hpair, heq⟩)
  have hstaged : q.stagedId ≠ r.stagedId := fun heq =>
    (List.nodup_cons.mp h.staged).1 (List.mem_map.mpr ⟨q.pair, hpair, heq⟩)
  exact ⟨⟨hid, hstaged⟩, h.ne q.pair (List.mem_cons_of_mem _ hpair) r.pair List.mem_cons_self,
    h.ne r.pair List.mem_cons_self q.pair (List.mem_cons_of_mem _ hpair)⟩

/-- No renaming changes the files of another pair, neither a later one those of an earlier. -/
theorem not_mem_slots (h : Apart ((r :: tried).map Renaming.pair)) :
    .file r.id ∉ tried.flatMap Renaming.slots ∧
      .file r.stagedId ∉ tried.flatMap Renaming.slots := by
  constructor
  · intro hmem
    obtain ⟨q, hq, hslot⟩ := List.mem_flatMap.mp hmem
    obtain ⟨⟨hid, -⟩, hother, -⟩ := h.ne_of_mem hq
    rcases q.mem_slots _ hslot with heq | heq
    · exact hother (Slot.file.inj heq).symm
    · exact hid (Slot.file.inj heq).symm
  · intro hmem
    obtain ⟨q, hq, hslot⟩ := List.mem_flatMap.mp hmem
    obtain ⟨⟨-, hstaged⟩, -, hother⟩ := h.ne_of_mem hq
    rcases q.mem_slots _ hslot with heq | heq
    · exact hstaged (Slot.file.inj heq).symm
    · exact hother (Slot.file.inj heq)

/-- Nor an earlier one those of a later. -/
theorem spares (h : Apart ((r :: tried).map Renaming.pair)) (hq : q ∈ tried) :
    .file q.id ∉ [Slot.file r.stagedId, .file r.id] ∧
      .file q.stagedId ∉ [Slot.file r.stagedId, .file r.id] := by
  obtain ⟨⟨hid, hstaged⟩, hother, hother'⟩ := h.ne_of_mem hq
  simp [hid, hstaged, hother, hother'.symm]

end Apart

namespace Store

/-- Renamings that are attempted one after another, and what they make of the files. One fails if
the disk does or if it is not possible. -/
inductive Renamings (s : Store) : FileTree → List Renaming → FileTree → Prop
  | nil (t : FileTree) : Renamings s t [] t
  | moved (t t₁ t' : FileTree) (id stagedId : UInt64) (tried : List Renaming)
      (hmove : s.promote t stagedId id = .ok t₁) (hrest : Renamings s t₁ tried t') :
    Renamings s t (⟨id, stagedId, none, true⟩ :: tried) t'
  | kept (t t' : FileTree) (id stagedId : UInt64) (fault : Option Fault) (tried : List Renaming)
      (hfail : fault = none → ∀ t₁, s.promote t stagedId id ≠ .ok t₁)
      (hrest : Renamings s t tried t') :
    Renamings s t (⟨id, stagedId, fault, false⟩ :: tried) t'

end Store

/-- What a renaming comes to between two states of the files: the list's file is what was staged,
byte for byte, and nothing is staged any more, or both are as they were. It fails only with the
disk, or where no file is staged or none can be put. -/
structure Renaming.Done (s : Store) (t t' : FileTree) (r : Renaming) : Prop where
  succeeded_iff : r.succeeded = true ↔
    r.fault = none ∧ s.Admits t (.file r.id) ∧ ∃ body, s.Has t (.file r.stagedId) body
  moved : r.succeeded = true →
    (∃ content, s.load t r.stagedId = .ok content ∧ s.load t' r.id = .ok content) ∧
      t'.find (s.pathFor r.stagedId) = .error .notFound
  kept : r.succeeded = false → s.SameFile t t' r.id ∧ s.SameFile t t' r.stagedId

namespace Renaming.Done

variable {s : Store} {t t₁ t' : FileTree} {r : Renaming}

/-- It is enough that the two files were not touched before. -/
theorem before (h : r.Done s t₁ t') (hopen : t.SameOpen t₁) (hid : s.SameFile t t₁ r.id)
    (hstaged : s.SameFile t t₁ r.stagedId) : r.Done s t t' where
  succeeded_iff := by
    rw [h.succeeded_iff, Store.admits_congr hopen hid]
    exact and_congr_right fun _ => and_congr_right fun _ => exists_congr hstaged.has_iff
  moved hyes := by
    obtain ⟨⟨content, hfrom, hto⟩, hgone⟩ := h.moved hyes
    exact ⟨⟨content, hstaged.load ▸ hfrom, hto⟩, hgone⟩
  kept hno := ⟨hid.trans (h.kept hno).1, hstaged.trans (h.kept hno).2⟩

/-- And that they are not touched afterwards. -/
theorem onward (h : r.Done s t t₁) (hid : s.SameFile t₁ t' r.id)
    (hstaged : s.SameFile t₁ t' r.stagedId) : r.Done s t t' where
  succeeded_iff := h.succeeded_iff
  moved hyes := by
    obtain ⟨⟨content, hfrom, hto⟩, hgone⟩ := h.moved hyes
    exact ⟨⟨content, hfrom, hid.load.trans hto⟩, Eq.trans hstaged hgone⟩
  kept hno := ⟨(h.kept hno).1.trans hid, (h.kept hno).2.trans hstaged⟩

/-- A file that is renamed. -/
theorem of_move (hs : s.Plain) (id stagedId : UInt64) (hne : stagedId ≠ id)
    (hfree : t.isDirectory (s.pathFor stagedId) = false)
    (hmove : s.promote t stagedId id = .ok t') :
    (Renaming.mk id stagedId none true).Done s t t' := by
  have hslots : Slot.file stagedId ≠ Slot.file id := by simpa using hne
  obtain ⟨hhas, hadmits⟩ := Store.of_rename hs hslots hfree hmove
  have hmoves := Store.rename_moves hs hslots hfree hmove
  exact ⟨by simp [hhas, hadmits], fun _ => hmoves, by simp⟩

/-- A file that is not renamed. -/
theorem of_fail (hs : s.Plain) (id stagedId : UInt64) (hne : stagedId ≠ id) (fault : Option Fault)
    (hfail : fault = none → ∀ t₁, s.promote t stagedId id ≠ .ok t₁) :
    (Renaming.mk id stagedId fault false).Done s t t := by
  refine ⟨?_, by simp, fun _ => ⟨.refl s t id, .refl s t stagedId⟩⟩
  simp only [Bool.false_eq_true, false_iff]
  rintro ⟨hfault, hadmits, body, hhas⟩
  have hslots : Slot.file stagedId ≠ Slot.file id := by simpa using hne
  obtain ⟨t₁, ht₁⟩ := Store.rename_ok hs hslots hhas hadmits
  exact hfail hfault t₁ ht₁

end Renaming.Done

/-- Where nothing that is staged is a directory, each pair comes out as its own renaming leaves it,
and nothing else changes. -/
theorem Store.Renamings.done {s : Store} {t t' : FileTree} {tried : List Renaming} (hs : s.Plain)
    (h : s.Renamings t tried t') (hapart : Apart (tried.map Renaming.pair))
    (hfree : ∀ r ∈ tried, t.isDirectory (s.pathFor r.stagedId) = false) :
    (∀ r ∈ tried, r.Done s t t') ∧ s.Keeps t t' (tried.flatMap Renaming.slots) ∧
      s.Confined t t' (tried.flatMap Renaming.slots) := by
  -- along the attempts; what was done so far is no matter of the pairs that are left
  induction h with
  | nil t => exact ⟨by simp, .refl s t _, .refl s t _⟩
  | moved t t₁ t' id stagedId tried hmove hrest ih =>
    have hne : stagedId ≠ id := hapart.head_ne
    have hslots : Slot.file stagedId ≠ Slot.file id := by simpa using hne
    have hnow : t.isDirectory (s.pathFor stagedId) = false :=
      hfree ⟨id, stagedId, none, true⟩ List.mem_cons_self
    have halters := rename_alters hs hslots hnow hmove
    have hsame (q : Renaming) (hq : q ∈ tried) :
        s.SameFile t t₁ q.id ∧ s.SameFile t t₁ q.stagedId := by
      obtain ⟨hid, hstaged⟩ := hapart.spares hq
      exact ⟨halters.keeps (.file q.id) hid, halters.keeps (.file q.stagedId) hstaged⟩
    have hlater : ∀ q ∈ tried, t₁.isDirectory (s.pathFor q.stagedId) = false := by
      intro q hq
      rw [(hsame q hq).2.isDirectory]
      exact hfree q (List.mem_cons_of_mem _ hq)
    obtain ⟨hdone, hkeeps, hconfined⟩ := ih hapart.tail hlater
    obtain ⟨hid, hstaged⟩ := hapart.not_mem_slots
    refine ⟨?_, ?_, ?_⟩
    · intro r hr
      rcases List.mem_cons.mp hr with rfl | hr
      · exact (Renaming.Done.of_move hs id stagedId hne hnow hmove).onward
          (hkeeps (.file id) hid) (hkeeps (.file stagedId) hstaged)
      · exact (hdone r hr).before halters.sameOpen (hsame r hr).1 (hsame r hr).2
    · intro y hy
      rw [List.flatMap_cons, List.mem_append, not_or] at hy
      exact (hkeeps y hy.2).trans (halters.keeps y hy.1)
    · have hfirst := rename_confined hs hslots hnow hmove
      exact (hfirst.mono fun x hx => List.mem_append_left _ hx).trans
        (hconfined.mono fun x hx => List.mem_append_right _ hx)
  | kept t t' id stagedId fault tried hfail hrest ih =>
    have hne : stagedId ≠ id := hapart.head_ne
    obtain ⟨hdone, hkeeps, hconfined⟩ :=
      ih hapart.tail fun q hq => hfree q (List.mem_cons_of_mem _ hq)
    obtain ⟨hid, hstaged⟩ := hapart.not_mem_slots
    refine ⟨?_, hkeeps, hconfined⟩
    intro r hr
    rcases List.mem_cons.mp hr with rfl | hr
    · exact (Renaming.Done.of_fail hs id stagedId hne fault hfail).onward
        (hkeeps (.file id) hid) (hkeeps (.file stagedId) hstaged)
    · exact hdone r hr

end ListKeeper
