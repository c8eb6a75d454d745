import ListKeeper.Proofs.Slots
import ListKeeper.System

/-! Writing a file. At every step of a write the temporary file holds what was written so far, and
the file of the id is touched only when nothing more is to be written. Then the temporary one holds
the whole body, or a front of it where the disk failed and nobody told. Main statement:
`writeStep_progress`. -/
namespace ListKeeper.Store

theorem ok_of_attempt {α : Type} (disk : Disk) (op : Except IoError α) (a : α)
    (h : attempt disk op = .ok a) : op = .ok a := by
  unfold attempt at h
  split at h
  · cases h
  · exact h

theorem fillOrSync_ne_done (rest : Bytes) (outcome : Except IoError Unit) :
    fillOrSync rest ≠ .done outcome := by
  unfold fillOrSync
  split <;> simp

theorem afterFault_ne_done (disk : Disk) (body rest : Bytes) (cause : IoError)
    (outcome : Except IoError Unit) : afterFault disk body rest cause ≠ .done outcome := by
  unfold afterFault
  split <;> simp

/-- What a write has brought about when it stands at a certain point. `whole` stands for what keeps
a body from being cut short. -/
def Progress (s : Store) (whole : Prop) (t : FileTree) (id : UInt64) (body : Bytes) :
    Writing → Prop
  | .create => True
  | .fill rest => ∃ front, front ++ rest = body ∧ s.Has t (.temp id) front
  | .sync => s.Holds whole t (.temp id) body
  | .publish => s.Holds whole t (.temp id) body
  | .discard _ => True
  | .done (.ok ()) => s.Holds whole t (.file id) body
  | .done (.error _) => True

theorem Keeps.refl (s : Store) (t : FileTree) (xs : List Slot) : s.Keeps t t xs := fun _ _ => rfl

theorem Keeps.mono {s : Store} {t t' : FileTree} {xs ys : List Slot} (h : s.Keeps t t' xs)
    (hsub : ∀ x ∈ xs, x ∈ ys) : s.Keeps t t' ys := fun y hy => h y fun hx => hy (hsub y hx)

section

variable {whole : Prop} {t t' : FileTree} {id : UInt64} {body : Bytes} {w : Writing}

/-- A write under way depends on its own two slots alone. -/
theorem Progress.keep {s : Store} {xs : List Slot} (h : s.Progress whole t id body w)
    (hk : s.Keeps t t' xs) (hf : .file id ∉ xs) (ht : .temp id ∉ xs) :
    s.Progress whole t' id body w := by
  cases w with
  | create => trivial
  | fill rest =>
    obtain ⟨front, hbody, hhas⟩ := h
    exact ⟨front, hbody, hk.has _ ht _ hhas⟩
  | sync => exact hk.holds ht h
  | publish => exact hk.holds ht h
  | discard cause => trivial
  | done outcome =>
    cases outcome with
    | ok u => exact hk.holds hf h
    | error e => trivial

theorem Progress.mono {s : Store} {whole' : Prop} (h : s.Progress whole t id body w)
    (hwhole : whole' → whole) : s.Progress whole' t id body w := by
  cases w with
  | create => trivial
  | fill rest => exact h
  | sync => exact Holds.mono h hwhole
  | publish => exact Holds.mono h hwhole
  | discard cause => trivial
  | done outcome =>
    cases outcome with
    | ok u => exact Holds.mono h hwhole
    | error e => trivial

/-- What is written so far and what is left make up the body. -/
theorem progress_fillOrSync (s : Store) (t : FileTree) (id : UInt64) (body front rest : Bytes)
    (hbody : front ++ rest = body) (h : s.Has t (.temp id) front) :
    s.Progress whole t id body (fillOrSync rest) := by
  unfold fillOrSync
  split
  · rename_i hrest
    rw [hrest, List.append_nil] at hbody
    exact (hbody ▸ h).holds
  · exact ⟨front, hbody, h⟩

/-- After a failure of which nobody tells a front of the body is there. -/
theorem progress_afterFault (s : Store) (t : FileTree) (id : UInt64) (body front rest : Bytes)
    (disk : Disk) (cause : IoError) (htold : whole → disk.hides = false)
    (hbody : front ++ rest = body) (h : s.Has t (.temp id) front) :
    s.Progress whole t id body (afterFault disk body rest cause) := by
  unfold afterFault
  split
  · rename_i hhidden
    refine ⟨front, h, ⟨rest, hbody⟩, fun hwhole => ?_⟩
    simp [htold hwhole] at hhidden
  · trivial

/-- A step of a write goes on from what it had brought about, and touches nothing but the file of
its id and the temporary one. -/
theorem writeStep_progress (s : Store) (hs : s.Plain) (id : UInt64) (body : Bytes) (disk : Disk)
    (htold : whole → disk.hides = false) (t : FileTree) (w : Writing)
    (h : s.Progress whole t id body w) :
    s.Progress whole (s.writeStep id body disk t w).1 id body (s.writeStep id body disk t w).2 ∧
      s.Keeps t (s.writeStep id body disk t w).1 [.file id, .temp id] := by
  have htemp : ∀ x ∈ [Slot.temp id], x ∈ [Slot.file id, Slot.temp id] := by simp
  cases w with
  | create =>
    simp only [writeStep]
    split
    · rename_i t' ht'
      obtain ⟨hread, hkeeps⟩ := create_slot s hs t t' (.temp id) _ (ok_of_attempt disk _ t' ht')
      exact ⟨progress_fillOrSync s t' id body [] body rfl ⟨_, hread⟩, hkeeps.mono htemp⟩
    · exact ⟨trivial, Keeps.refl s t _⟩
  | fill rest =>
    obtain ⟨front, hbody, hhas⟩ := h
    simp only [writeStep]
    split
    · rename_i t' ht'
      obtain ⟨hkeeps, happ⟩ := append_slot s hs t t' (.temp id) _ _ (ok_of_attempt disk _ t' ht')
      -- what is written grows by what is taken from the rest
      refine ⟨progress_fillOrSync s t' id body _ _ ?_ (happ front hhas), hkeeps.mono htemp⟩
      rw [List.append_assoc, List.take_append_drop, hbody]
    · exact ⟨progress_afterFault s t id body front rest disk _ htold hbody hhas, Keeps.refl s t _⟩
  | sync =>
    simp only [writeStep]
    split
    · rename_i t' ht'
      -- to bring a file to the disk changes no file
      obtain rfl : t = t' := Except.ok.inj (ok_of_attempt disk _ t' ht')
      exact ⟨h, Keeps.refl s t _⟩
    · exact ⟨trivial, Keeps.refl s t _⟩
  | publish =>
    obtain ⟨front, ⟨m, hm⟩, hfront⟩ := h
    simp only [writeStep]
    split
    · rename_i t' ht'
      -- only here the file of the id is touched, and nothing more is to be written by then
      obtain ⟨hread, hkeeps⟩ := rename_slot s hs t t' (.temp id) (.file id) (by simp) front m hm
        (ok_of_attempt disk _ t' ht')
      exact ⟨⟨front, ⟨m, hread⟩, hfront⟩, hkeeps.mono (by simp)⟩
    · exact ⟨trivial, Keeps.refl s t _⟩
  | discard cause =>
    simp only [writeStep]
    split
    · rename_i t' ht'
      exact ⟨trivial, (remove_slot s hs t t' (.temp id) (ok_of_attempt disk _ t' ht')).mono htemp⟩
    · exact ⟨trivial, Keeps.refl s t _⟩
  | done outcome => exact ⟨h, Keeps.refl s t _⟩

end

end ListKeeper.Store

namespace ListKeeper.System

theorem discard_tree (s : System) (disk : Disk) (id : UInt64) :
    (s.discard disk id).tree =
      match Store.attempt disk (s.tree.remove ((Slot.file id).path s.store)) with
      | .ok t' => t'
      | .error _ => s.tree := by
  unfold discard
  change (match Store.attempt disk (s.tree.remove ((Slot.file id).path s.store)) with
    | .ok t => { s with tree := t }
    | .error _ => s).tree = _
  split <;> rfl

/-- Taking a file away touches nothing else. -/
theorem discard_keeps (s : System) (hs : s.store.Plain) (disk : Disk) (id : UInt64) :
    s.store.Keeps s.tree (s.discard disk id).tree [.file id] := by
  unfold discard
  split
  · rename_i t' ht'
    exact s.store.remove_slot hs s.tree t' (.file id) (Store.ok_of_attempt disk _ t' ht')
  · exact Store.Keeps.refl _ _ _

end ListKeeper.System
