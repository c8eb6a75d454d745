import ListKeeper.Proofs.Roles
import ListKeeper.Proofs.Steps
import ListKeeper.Proofs.Writing

/-! Announced operations. Whatever a step does to the files it does by the one operation that it
announces; a step that announces none leaves them alone. Main statement: `World.step_explained`. -/
namespace ListKeeper

def System.settings (s : System) : Store × Span := (s.store, s.period)

def Adding.op? (s : Store) (chunk : Nat) : Adding → Option FileOp
  | .write id _ w => s.writeOp? id chunk w
  | .withdraw id => some (.remove (s.pathFor id))
  | _ => none

def World.op? (w : World) : Act → Option FileOp
  | .add caller m =>
    match w.adds[caller]? with
    | some (_, stage) => stage.op? w.system.store m.disk.chunk
    | none => none
  | .refresh m => w.refresher.op? w.system.store m.disk.chunk
  | _ => none

namespace FileOp

def names : FileOp → List String
  | create path => [path]
  | append path _ => [path]
  | sync path => [path]
  | rename source target => [source, target]
  | remove path => [path]

/-- The files are the same, or what an announced operation makes of them. -/
def Explains (op? : Option FileOp) (stamp : Instant) (t t' : FileTree) : Prop :=
  t' = t ∨ ∃ op, op? = some op ∧ op.apply stamp t = .ok t'

theorem Explains.of_attempt (disk : Disk) (op : FileOp) (t t' : FileTree)
    (h : Store.attempt disk (op.apply disk.stamp t) = .ok t') :
    Explains (some op) disk.stamp t t' := .inr ⟨op, rfl, Store.ok_of_attempt disk _ t' h⟩

end FileOp

open FileOp

theorem Store.writeStep_explained (s : Store) (id : UInt64) (body : Bytes) (disk : Disk)
    (t : FileTree) (w : Writing) :
    Explains (s.writeOp? id disk.chunk w) disk.stamp t (s.writeStep id body disk t w).1 := by
  cases w with
  | create =>
    simp only [writeStep]
    split
    · exact .of_attempt disk (.create (s.tempPathFor id)) t _ ‹_›
    · exact .inl rfl
  | fill rest =>
    simp only [writeStep]
    split
    · exact .of_attempt disk (.append (s.tempPathFor id) (rest.take (disk.chunk + 1))) t _ ‹_›
    · exact .inl rfl
  | sync =>
    simp only [writeStep]
    split
    · exact .of_attempt disk (.sync (s.tempPathFor id)) t _ ‹_›
    · exact .inl rfl
  | publish =>
    simp only [writeStep]
    split
    · exact .of_attempt disk (.rename (s.tempPathFor id) (s.pathFor id)) t _ ‹_›
    · exact .inl rfl
  | discard cause =>
    simp only [writeStep]
    split
    · exact .of_attempt disk (.remove (s.tempPathFor id)) t _ ‹_›
    · exact .inl rfl
  | done outcome => exact .inl rfl

/-- A write is directed at the file of its id and the temporary one. -/
theorem Store.writeOp?_names (s : Store) (id : UInt64) (chunk : Nat) (w : Writing) (op : FileOp)
    (h : s.writeOp? id chunk w = some op) :
    ∀ path ∈ op.names, ∃ x ∈ [Slot.file id, Slot.temp id], x.path s = path := by
  have hfile : s.pathFor id = (Slot.file id).path s := rfl
  have htemp : s.tempPathFor id = (Slot.temp id).path s := rfl
  cases w with
  | done outcome => cases h
  | _ =>
    obtain rfl := Option.some.inj h
    simp [names, hfile, htemp]

theorem Adding.op?_names (stage : Adding) (s : Store) (chunk : Nat) (op : FileOp)
    (h : stage.op? s chunk = some op) :
    ∃ id, stage.id? = some id ∧
      ∀ path ∈ op.names, ∃ x ∈ [Slot.file id, Slot.temp id], x.path s = path := by
  cases stage with
  | write id body w => exact ⟨id, rfl, s.writeOp?_names id chunk w op h⟩
  | withdraw id =>
    obtain rfl := Option.some.inj h
    exact ⟨id, rfl, by simp [names, Slot.path_file]⟩
  | _ => cases h

theorem System.discard_settings (s : System) (disk : Disk) (id : UInt64) :
    (s.discard disk id).settings = s.settings := by
  obtain ⟨t, ht⟩ := s.discard_eq disk id
  rw [ht]
  rfl

theorem System.discard_explained (s : System) (disk : Disk) (id : UInt64) :
    Explains (some (.remove (s.store.pathFor id))) disk.stamp s.tree (s.discard disk id).tree := by
  unfold discard
  split
  · exact .of_attempt disk (.remove (s.store.pathFor id)) s.tree _ ‹_›
  · exact .inl rfl

theorem Adding.step_explained (c : Candidate) (ticket : Nat) (m : Moment) (s : System)
    (stage : Adding) :
    (stage.step c ticket m s).1.settings = s.settings ∧
      Explains (stage.op? s.store m.disk.chunk) m.disk.stamp s.tree
        (stage.step c ticket m s).1.tree := by
  have hsteps := stage.steps c ticket m s
  generalize stage.step c ticket m s = out at hsteps ⊢
  cases hsteps with
  | quiet stage stage' s' hquiet hstill =>
    exact ⟨Prod.ext hstill.store hstill.period, .inl hstill.tree⟩
  | minted => exact ⟨rfl, .inl rfl⟩
  | writing id body w => exact ⟨rfl, s.store.writeStep_explained id body m.disk s.tree w⟩
  | inserted id body => exact ⟨rfl, .inl rfl⟩
  | withdrawn id => exact ⟨s.discard_settings m.disk id, s.discard_explained m.disk id⟩

theorem Committing.step_explained (m : Moment) (s : System) (c : Committing) :
    (c.step m s).1.settings = s.settings ∧
      Explains (c.op? s.store) m.disk.stamp s.tree (c.step m s).1.tree := by
  cases c with
  | snapshot =>
    simp only [step]
    split <;> exact ⟨rfl, .inl rfl⟩
  | close pairs =>
    simp only [step]
    split <;> exact ⟨rfl, .inl rfl⟩
  | promote pairs report =>
    cases pairs with
    | nil => exact ⟨rfl, .inl rfl⟩
    | cons q rest =>
      obtain ⟨id, stagedId⟩ := q
      simp only [step, op?]
      split
      · exact ⟨rfl, .inl rfl⟩
      · split
        · exact ⟨rfl, .of_attempt m.disk (.rename (s.store.pathFor stagedId) (s.store.pathFor id))
            s.tree _ ‹_›⟩
        · exact ⟨rfl, .inl rfl⟩
  | clear id stagedId rest report => exact ⟨rfl, .inl rfl⟩
  | restart report =>
    simp only [step]
    split <;> exact ⟨rfl, .inl rfl⟩
  | count report => exact ⟨rfl, .inl rfl⟩
  | done report => exact ⟨rfl, .inl rfl⟩

theorem Refresher.step_explained (ticket : Nat) (m : Moment) (s : System) (r : Refresher) :
    (r.step ticket m s).1.settings = s.settings ∧
      Explains (r.op? s.store m.disk.chunk) m.disk.stamp s.tree (r.step ticket m s).1.tree := by
  have hsteps := r.steps ticket m s
  generalize r.step ticket m s = out at hsteps ⊢
  cases hsteps with
  | quiet stage stage' dirty dirty' report report' s' hquiet hstill =>
    exact ⟨Prod.ext hstill.store hstill.period, .inl hstill.tree⟩
  | selected pre post x => exact ⟨rfl, .inl rfl⟩
  | exhausted dirty report => exact ⟨rfl, .inl rfl⟩
  | minted e body => exact ⟨rfl, .inl rfl⟩
  | writing e stagedId body w =>
    exact ⟨rfl, s.store.writeStep_explained stagedId body m.disk s.tree w⟩
  | recorded pre post x e stagedId body => exact ⟨rfl, .inl rfl⟩
  | orphaned e stagedId body => exact ⟨rfl, .inl rfl⟩
  | tidied file => exact ⟨s.discard_settings m.disk file, s.discard_explained m.disk file⟩
  | committing c => exact c.step_explained m s

/-- A step changes the files by the operation that it announces and by nothing else. -/
theorem World.step_explained (w : World) (a : Act) :
    (w.step a).system.settings = w.system.settings ∧
      ∃ stamp, Explains (w.op? a) stamp w.system.tree (w.step a).system.tree := by
  cases a with
  | call c => exact ⟨rfl, .epoch, .inl rfl⟩
  | add caller m =>
    cases hadd : w.adds[caller]? with
    | none =>
      simp only [step, hadd]
      exact ⟨trivial, .epoch, .inl rfl⟩
    | some q =>
      obtain ⟨c, stage⟩ := q
      simp only [step, op?, hadd]
      obtain ⟨hsettings, hexplains⟩ := stage.step_explained c (caller + 1) m w.system
      exact ⟨hsettings, m.disk.stamp, hexplains⟩
  | delete url =>
    -- a deleted list leaves its files where they are
    obtain ⟨es, journal, heq, -⟩ := w.system.delete_eq url
    simp only [step, heq]
    exact ⟨rfl, .epoch, .inl rfl⟩
  | startPass =>
    simp only [step]
    split <;> exact ⟨rfl, .epoch, .inl rfl⟩
  | refresh m =>
    obtain ⟨hsettings, hexplains⟩ := w.refresher.step_explained 0 m w.system
    exact ⟨hsettings, m.disk.stamp, hexplains⟩

end ListKeeper
