import ListKeeper.Proofs.Edits
import ListKeeper.Proofs.Leftovers
import ListKeeper.Proofs.Operations

/-! Files and who answers for them. Whoever writes a file answers for it until it is taken away or
handed on, to the entry that it belongs to or to the commit that it waits for. Main statement:
`Store.writeStep_answers`, by which a write never lets go of a file that is still there. -/
namespace ListKeeper

def Act.moment? : Act → Option Moment
  | .add _ m => some m
  | .refresh m => some m
  | _ => none

namespace FileOp

def puts? : FileOp → Option String
  | create path => some path
  | append path _ => some path
  | rename _ target => some target
  | _ => none

/-- The path at which an operation puts a file, where the disk carries it out. -/
def putsOn? (disk : Disk) (t : FileTree) (op : FileOp) : Option String :=
  match Store.attempt disk (op.apply disk.stamp t) with
  | .ok _ => op.puts?
  | .error _ => none

theorem putsOn?_remove (disk : Disk) (t : FileTree) (path : String) :
    (FileOp.remove path).putsOn? disk t = none := by
  unfold putsOn?
  split <;> rfl

end FileOp

def World.puts? (w : World) (a : Act) : Option String :=
  a.moment?.bind fun m => (w.op? a).bind fun op => op.putsOn? m.disk w.system.tree

/-- The paths at which files were put in some acts. -/
def Run.written (k : Run) : List Act → List String
  | [] => []
  | a :: acts => (k.world.puts? a).toList ++ (k.step a).written acts

theorem Run.written_concat (k : Run) (acts : List Act) (a : Act) :
    k.written (acts ++ [a]) = k.written acts ++ ((k.after acts).world.puts? a).toList := by
  induction acts generalizing k with
  | nil => simp [written]
  | cons b acts ih =>
    rw [List.cons_append, written, ih, written, List.append_assoc]
    rfl

/-- What a write answers for: first for its temporary file, in the end for the file itself. -/
def Writing.Owns (id : UInt64) : Writing → Slot → Prop
  | .create, _ => False
  | .done (.ok ()), x => x = .file id
  | .done (.error _), _ => False
  | _, x => x = .temp id

/-- What a write has put there. -/
def Writing.Relies (id : UInt64) : Writing → Slot → Prop
  | .create, _ => False
  | .discard _, _ => False
  | .done (.ok ()), x => x = .file id
  | .done (.error _), _ => False
  | _, x => x = .temp id

namespace Store

variable {s : Store} {t t' : FileTree} {xs : List Slot} {written more : List String}
variable {own own' : Slot → Prop}

/-- How files change under one who answers for some of them. At what was written no directory comes
up, and what was written and is still there afterwards is answered for anew, or it was no matter of
this one. -/
structure Answers (s : Store) (t t' : FileTree) (written more : List String)
    (own own' : Slot → Prop) : Prop where
  free : ∀ x : Slot, x.path s ∈ written ++ more → t'.isDirectory (x.path s) = false
  owned : ∀ x : Slot, x.path s ∈ written ++ more → (∃ body, s.Has t' x body) →
    own' x ∨ (¬ own x ∧ x.path s ∈ written ∧ ∃ body, s.Has t x body)

/-- It is enough to answer for the slots that are altered. -/
theorem Alters.answers (h : s.Alters t t' xs)
    (hfree : ∀ x : Slot, x.path s ∈ written → t.isDirectory (x.path s) = false)
    (hmore : ∀ x : Slot, x.path s ∈ more → x ∈ xs)
    (hown : ∀ x, x ∉ xs → own x → x.path s ∈ written → (∃ body, s.Has t x body) → own' x)
    (hxs : ∀ x ∈ xs, (∃ body, s.Has t' x body) → own' x) :
    s.Answers t t' written more own own' := by
  refine ⟨?_, ?_⟩
  · intro x hx
    by_cases hmem : x ∈ xs
    · exact h.free x hmem
    · rw [h.keeps.isDirectory hmem]
      apply hfree
      rcases List.mem_append.mp hx with hx | hx
      · exact hx
      · exact absurd (hmore x hx) hmem
  · rintro x hx ⟨body, hhas⟩
    by_cases hmem : x ∈ xs
    · exact .inl (hxs x hmem ⟨body, hhas⟩)
    -- elsewhere the file is the one that was there before
    · have hbefore := (h.keeps.has_iff hmem body).mp hhas
      have hwritten : x.path s ∈ written := by
        rcases List.mem_append.mp hx with hx | hx
        · exact hx
        · exact absurd (hmore x hx) hmem
      by_cases hmine : own x
      · exact .inl (hown x hmem hmine hwritten ⟨body, hbefore⟩)
      · exact .inr ⟨hmine, hwritten, body, hbefore⟩

theorem Answers.still (hfree : ∀ x : Slot, x.path s ∈ written → t.isDirectory (x.path s) = false)
    (hown : ∀ x, own x → own' x) : s.Answers t t written [] own own' :=
  (Alters.refl s t).answers hfree (by simp) (fun x _ hx _ _ => hown x hx) (by simp)

theorem relies_fillOrSync (id : UInt64) (rest : Bytes) (x : Slot) :
    (fillOrSync rest).Relies id x ↔ x = .temp id := by
  unfold fillOrSync
  split <;> rfl

theorem owns_fillOrSync (id : UInt64) (rest : Bytes) (x : Slot) :
    (fillOrSync rest).Owns id x ↔ x = .temp id := by
  unfold fillOrSync
  split <;> rfl

theorem owns_afterFault (id : UInt64) (disk : Disk) (body rest : Bytes) (cause : IoError)
    (x : Slot) : (afterFault disk body rest cause).Owns id x ↔ x = .temp id := by
  unfold afterFault
  split <;> rfl

theorem relies_afterFault {id : UInt64} {disk : Disk} {body rest : Bytes} {cause : IoError}
    {x : Slot} (h : (afterFault disk body rest cause).Relies id x) : x = .temp id := by
  unfold afterFault at h
  split at h
  · exact h
  · exact h.elim

/-- A file that was written can be taken away where it is there. -/
def Removable (disk : Disk) (t : FileTree) (written : List String) (op? : Option FileOp) : Prop :=
  ∀ path, op? = some (.remove path) → path ∈ written → (∃ r, t.read path = .ok r) →
    ∃ t', attempt disk (t.remove path) = .ok t'

/-- Where a file that was written is taken away, nobody has to answer for it any more. -/
theorem remove_answers (hs : s.Plain) (disk : Disk) (x : Slot)
    (hfree : ∀ x : Slot, x.path s ∈ written → t.isDirectory (x.path s) = false)
    (hremove : Removable disk t written (some (.remove (x.path s)))) :
    s.Answers t (match attempt disk (t.remove (x.path s)) with | .ok t' => t' | .error _ => t)
      written [] (· = x) fun _ => False := by
  cases hattempt : attempt disk (t.remove (x.path s)) with
  | ok t' =>
    have hok := ok_of_attempt disk _ t' hattempt
    refine (remove_alters hs hok).answers hfree (by simp) ?_ ?_
    · rintro y hy rfl
      simp at hy
    · intro y hy ⟨body, hhas⟩
      obtain rfl := List.mem_singleton.mp hy
      exact not_has_of_remove hs hok body hhas
  | error e =>
    refine (Alters.refl s t).answers hfree (by simp) ?_ (by simp)
    rintro y - rfl hwritten ⟨body, m, hread⟩
    obtain ⟨t', ht'⟩ := hremove _ rfl hwritten ⟨_, hread⟩
    rw [hattempt] at ht'
    cases ht'

def writePuts (s : Store) (id : UInt64) (disk : Disk) (t : FileTree) (w : Writing) : List String :=
  ((s.writeOp? id disk.chunk w).bind fun op => op.putsOn? disk t).toList

theorem eq_of_mem_puts {x y : Slot} (h : x.path s ∈ [y.path s]) : x = y :=
  Slot.path_injective s x y (List.mem_singleton.mp h)

/-- A write answers for what it puts somewhere, and lets go of nothing that is still there. -/
theorem writeStep_answers (hs : s.Plain) (id : UInt64) (body : Bytes) (disk : Disk) (w : Writing)
    (hfree : ∀ x : Slot, x.path s ∈ written → t.isDirectory (x.path s) = false)
    (hrelies : ∀ x : Slot, w.Relies id x → x.path s ∈ written)
    (hremove : Removable disk t written (s.writeOp? id disk.chunk w)) :
    s.Answers t (s.writeStep id body disk t w).1 written (s.writePuts id disk t w) (w.Owns id)
        ((s.writeStep id body disk t w).2.Owns id) ∧
      ∀ x : Slot, (s.writeStep id body disk t w).2.Relies id x →
        x.path s ∈ written ++ s.writePuts id disk t w := by
  have htemp : s.tempPathFor id = (Slot.temp id).path s := rfl
  have hfile : s.pathFor id = (Slot.file id).path s := rfl
  cases w with
  | create =>
    simp only [writeStep, writePuts, writeOp?, Option.bind_some, FileOp.putsOn?, FileOp.apply]
    cases hattempt : attempt disk (t.create (s.tempPathFor id) disk.stamp) with
    | ok t' =>
      have halters := create_alters (x := .temp id) hs _ (ok_of_attempt disk _ t' hattempt)
      refine ⟨halters.answers hfree (fun x hx => ?_) (fun x _ hx => hx.elim) ?_, ?_⟩
      · exact List.mem_singleton.mpr (eq_of_mem_puts hx)
      · intro x hx _
        exact (owns_fillOrSync id body x).mpr (List.mem_singleton.mp hx)
      · intro x hx
        obtain rfl := (relies_fillOrSync id body x).mp hx
        simp [FileOp.puts?, htemp]
    | error e => exact ⟨.still hfree fun x hx => hx.elim, fun x hx => hx.elim⟩
  | fill rest =>
    simp only [writeStep, writePuts, writeOp?, Option.bind_some, FileOp.putsOn?, FileOp.apply]
    cases hattempt : attempt disk
        (t.append (s.tempPathFor id) (rest.take (disk.chunk + 1)) disk.stamp) with
    | ok t' =>
      have halters := append_alters (x := .temp id) hs _ _ (ok_of_attempt disk _ t' hattempt)
      refine ⟨halters.answers hfree (fun x hx => ?_) (fun x hno hx => ?_) ?_, ?_⟩
      · exact List.mem_singleton.mpr (eq_of_mem_puts hx)
      · exact absurd (List.mem_singleton.mpr hx) hno
      · intro x hx _
        exact (owns_fillOrSync id _ x).mpr (List.mem_singleton.mp hx)
      · intro x hx
        obtain rfl := (relies_fillOrSync id _ x).mp hx
        simp [FileOp.puts?, htemp]
    | error e =>
      refine ⟨.still hfree fun x hx => (owns_afterFault id disk body rest e x).mpr hx, ?_⟩
      intro x hx
      simpa using hrelies x (relies_afterFault hx)
  | sync =>
    simp only [writeStep, writePuts, writeOp?, Option.bind_some, FileOp.putsOn?, FileOp.apply]
    cases hattempt : attempt disk (.ok t) with
    | ok t' =>
      obtain rfl : t = t' := Except.ok.inj (ok_of_attempt disk _ t' hattempt)
      exact ⟨.still hfree fun x hx => hx, fun x hx => by simpa [FileOp.puts?] using hrelies x hx⟩
    | error e => exact ⟨.still hfree fun x hx => hx, fun x hx => hx.elim⟩
  | publish =>
    have hopen : t.isDirectory ((Slot.temp id).path s) = false := hfree _ (hrelies (.temp id) rfl)
    simp only [writeStep, writePuts, writeOp?, Option.bind_some, FileOp.putsOn?, FileOp.apply]
    cases hattempt : attempt disk (t.rename (s.tempPathFor id) (s.pathFor id)) with
    | ok t' =>
      have hok := ok_of_attempt disk _ t' hattempt
      have halters := rename_alters (x := .temp id) (y := .file id) hs (by simp) hopen hok
      refine ⟨halters.answers hfree (fun x hx => ?_) (fun x hno hx => ?_) ?_, ?_⟩
      · rw [eq_of_mem_puts (y := .file id) hx]
        simp
      · obtain rfl : x = .temp id := hx
        simp at hno
      -- the temporary file is gone, and the write answers for the one that took its place
      · rintro x hx ⟨body', hhas⟩
        rcases List.mem_cons.mp hx with rfl | hx
        · have hgone := not_has_of_rename (x := .temp id) (y := .file id) hs (by simp) hopen hok
          exact absurd hhas (hgone body')
        · exact List.mem_singleton.mp hx
      · rintro x rfl
        simp [FileOp.puts?, hfile]
    | error e => exact ⟨.still hfree fun x hx => hx, fun x hx => hx.elim⟩
  | discard cause =>
    have hanswers := remove_answers hs disk (.temp id) hfree hremove
    simp only [writeStep, writePuts, writeOp?, Option.bind_some, FileOp.putsOn?, FileOp.apply]
    rw [Slot.path_temp] at hanswers
    cases hattempt : attempt disk (t.remove (s.tempPathFor id)) with
    | ok t' =>
      rw [hattempt] at hanswers
      exact ⟨hanswers, fun x hx => hx.elim⟩
    | error e =>
      rw [hattempt] at hanswers
      exact ⟨hanswers, fun x hx => hx.elim⟩
  | done outcome =>
    refine ⟨.still hfree fun x hx => hx, fun x hx => ?_⟩
    simpa [writePuts, writeOp?] using hrelies x hx

end Store
end ListKeeper
