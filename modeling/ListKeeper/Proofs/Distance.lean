import Mathlib.Data.Prod.Lex
import Mathlib.Order.WellFounded
import ListKeeper.Proofs.Queue

/-! How far a pass is from its end. A step that does not select an entry brings a pass nearer to its
end, provided that a download whose turn has come is served. The distance counts phases first, since
nothing bounds what a download brings. Main statement: `Refresher.step_nearer`. -/
namespace ListKeeper

/-- How many steps a write of a body takes at most. -/
def Writing.toGo (body : Bytes) : Writing → Nat
  | .create => body.length + 5
  | .fill rest => rest.length + 4
  | .sync => 3
  | .publish => 2
  | .discard _ => 1
  | .done _ => 0

/-- The phases of a pass that are still to come, and the steps of the present one. -/
def Stage.toGo : Stage → Nat × Nat
  | .fetch _ .arrive => (3, 2)
  | .fetch _ .wait => (3, 1)
  | .fetch _ .exchange => (3, 0)
  | .fetch _ (.done (.ok body)) => (2, body.length + 11)
  | .fetch _ (.done (.error _)) => (2, 2)
  | .mint _ body => (2, body.length + 10)
  | .write _ _ body w => (2, w.toGo body + 4)
  | .record _ _ _ => (2, 3)
  | .tidy _ => (2, 2)
  | .tally _ => (2, 1)
  | .select => (2, 0)
  | .commit .snapshot => (1, 0)
  | .commit (.close pairs) => (0, 2 * pairs.length + 5)
  | .commit (.promote pairs _) => (0, 2 * pairs.length + 4)
  | .commit (.clear _ _ rest _) => (0, 2 * rest.length + 5)
  | .commit (.restart _) => (0, 3)
  | .commit (.count _) => (0, 2)
  | .commit (.done _) => (0, 1)
  | .idle => (0, 0)

/-- One stage is nearer to the end of a pass than another. -/
def Stage.Nearer (stage stage' : Stage) : Prop := Prod.Lex (· < ·) (· < ·) stage.toGo stage'.toGo

theorem Stage.nearer_of_phase {stage stage' : Stage} (h : stage.toGo.1 < stage'.toGo.1) :
    stage.Nearer stage' := (Prod.lex_def).mpr (.inl h)

theorem Stage.nearer_of_steps {stage stage' : Stage} (h : stage.toGo.1 = stage'.toGo.1)
    (hsteps : stage.toGo.2 < stage'.toGo.2) : stage.Nearer stage' :=
  (Prod.lex_def).mpr (.inr ⟨h, hsteps⟩)

theorem Store.fillOrSync_toGo (body rest : Bytes) :
    (fillOrSync rest).toGo body < rest.length + 5 := by
  unfold fillOrSync
  split <;> simp only [Writing.toGo] <;> omega

theorem Store.afterFault_toGo (disk : Disk) (body rest : Bytes) (cause : IoError) :
    (afterFault disk body rest cause).toGo body < rest.length + 4 := by
  unfold afterFault
  split <;> simp only [Writing.toGo] <;> omega

/-- Every step of a write comes nearer to its end. -/
theorem Store.writeStep_toGo (s : Store) (id : UInt64) (body : Bytes) (disk : Disk) (t : FileTree)
    (w : Writing) (hw : 0 < w.toGo body) :
    (s.writeStep id body disk t w).2.toGo body < w.toGo body := by
  cases w with
  | create =>
    simp only [writeStep]
    split
    · exact fillOrSync_toGo body body
    · simp only [Writing.toGo]
      omega
  | fill rest =>
    simp only [writeStep]
    split
    · -- at least one byte is taken, where one is left
      have hlen : (rest.drop (disk.chunk + 1)).length = rest.length - (disk.chunk + 1) :=
        List.length_drop
      unfold fillOrSync
      split
      · simp only [Writing.toGo]
        omega
      · rename_i hrest
        have hpos : 0 < (rest.drop (disk.chunk + 1)).length := List.length_pos_iff.mpr hrest
        simp only [Writing.toGo]
        omega
    · exact afterFault_toGo disk body rest _
  | sync =>
    simp only [writeStep]
    split <;> simp only [Writing.toGo] <;> omega
  | publish =>
    simp only [writeStep]
    split <;> simp only [Writing.toGo] <;> omega
  | discard cause =>
    simp only [writeStep]
    split <;> simp only [Writing.toGo] <;> omega
  | done outcome => cases hw

theorem System.write_nearer (s : System) (m : Moment) (e : Entry) (stagedId : UInt64) (body : Bytes)
    (w : Writing) (hw : 0 < w.toGo body) :
    Stage.Nearer (.write e stagedId body (s.write m stagedId body w).2)
      (.write e stagedId body w) :=
  Stage.nearer_of_steps rfl
    (Nat.add_lt_add_right (s.store.writeStep_toGo stagedId body m.disk s.tree w hw) 4)

theorem Committing.step_nearer (m : Moment) (s : System) (c : Committing)
    (hc : ∀ report, c ≠ .done report) :
    Stage.Nearer (.commit (c.step m s).2) (.commit c) := by
  cases c with
  | snapshot =>
    simp only [step]
    split <;> exact Stage.nearer_of_phase (by simp [Stage.toGo])
  | close pairs =>
    simp only [step]
    split <;> exact Stage.nearer_of_steps rfl (by simp [Stage.toGo])
  | promote pairs report =>
    cases pairs with
    | nil => exact Stage.nearer_of_steps rfl (by simp [step, Stage.toGo])
    | cons q rest =>
      obtain ⟨id, stagedId⟩ := q
      simp only [step]
      split
      · exact Stage.nearer_of_steps rfl (by simp [Stage.toGo])
      · split
        · exact Stage.nearer_of_steps rfl (by simp only [Stage.toGo, List.length_cons]; omega)
        · exact Stage.nearer_of_steps rfl (by simp [Stage.toGo])
  | clear id stagedId rest report => exact Stage.nearer_of_steps rfl (by simp [step, Stage.toGo])
  | restart report =>
    simp only [step]
    split <;> exact Stage.nearer_of_steps rfl (by simp [Stage.toGo])
  | count report => exact Stage.nearer_of_steps rfl (by simp [step, Stage.toGo])
  | done report => exact absurd rfl (hc report)

/-- A step of a pass selects an entry or comes nearer to the end. -/
theorem Refresher.step_nearer (ticket : Nat) (m : Moment) (s : System) (r : Refresher)
    (hidle : r.isIdle = false)
    (hserved : r.stage.waits = true → s.gate.head? = some ticket) :
    (r.stage = .select ∧ (s.registry.selectDue m.now s.period).isSome = true) ∨
      (r.step ticket m s).2.stage.Nearer r.stage := by
  obtain ⟨stage, dirty, report⟩ := r
  cases stage with
  | select =>
    simp only [step]
    cases hselect : s.registry.selectDue m.now s.period with
    | some q => exact .inl ⟨trivial, rfl⟩
    | none =>
      right
      cases dirty || s.registry.hasPending <;>
        exact Stage.nearer_of_phase (by simp [enter, Stage.toGo])
  | fetch e f =>
    right
    cases f with
    | arrive => exact Stage.nearer_of_steps rfl (by simp [step, enter, Fetching.step, Stage.toGo])
    | wait =>
      -- it is served, so it does not have to wait once more
      have hhead : s.gate.head? = some ticket := hserved rfl
      simp only [step, Fetching.step, hhead, ↓reduceIte]
      exact Stage.nearer_of_steps rfl (by simp [enter, Stage.toGo])
    | exchange =>
      -- whatever was answered, the download is over
      have hphase (f : Except FetchError Bytes) : (Stage.fetch e (.done f)).toGo.1 = 2 := by
        cases f <;> rfl
      exact Stage.nearer_of_phase
        ((hphase (m.answer.content e.url)).trans_lt (by decide : 2 < 3))
    | done outcome =>
      cases outcome <;> exact Stage.nearer_of_steps rfl (by simp [step, enter, Stage.toGo])
  | mint e body =>
    right
    exact Stage.nearer_of_steps rfl (by simp [step, enter, Stage.toGo, Writing.toGo])
  | write e stagedId body w =>
    right
    cases w with
    | done outcome =>
      cases outcome <;>
        exact Stage.nearer_of_steps rfl (by simp [step, enter, Stage.toGo, Writing.toGo])
    | create => exact s.write_nearer m e stagedId body .create (by simp [Writing.toGo])
    | fill rest => exact s.write_nearer m e stagedId body (.fill rest) (by simp [Writing.toGo])
    | sync => exact s.write_nearer m e stagedId body .sync (by simp [Writing.toGo])
    | publish => exact s.write_nearer m e stagedId body .publish (by simp [Writing.toGo])
    | discard cause =>
      exact s.write_nearer m e stagedId body (.discard cause) (by simp [Writing.toGo])
  | record e stagedId body =>
    right
    have hsteps := steps_record ticket m s e stagedId body dirty report
    generalize step ticket m s ⟨.record e stagedId body, dirty, report⟩ = out at hsteps ⊢
    cases hsteps with
    | quiet stage stage' dirty dirty' report report' s' hquiet => cases hquiet
    | recorded pre post x e stagedId body dirty report next hsplit hid hnext =>
      rcases hnext with ⟨rfl, -⟩ | ⟨old, rfl, -⟩ <;>
        exact Stage.nearer_of_steps rfl (by simp [Stage.toGo])
    | orphaned => exact Stage.nearer_of_steps rfl (by simp [Stage.toGo])
  | tidy file => exact .inr (Stage.nearer_of_steps rfl (by simp [step, enter, Stage.toGo]))
  | tally succeeded =>
    right
    cases succeeded <;> exact Stage.nearer_of_steps rfl (by simp [step, Stage.toGo])
  | commit c =>
    right
    cases c with
    | done rep => exact Stage.nearer_of_steps rfl (by simp [step, Stage.toGo])
    | snapshot => exact Committing.step_nearer m s .snapshot (by simp)
    | close pairs => exact Committing.step_nearer m s (.close pairs) (by simp)
    | promote pairs rep => exact Committing.step_nearer m s (.promote pairs rep) (by simp)
    | clear id stagedId rest rep =>
      exact Committing.step_nearer m s (.clear id stagedId rest rep) (by simp)
    | restart rep => exact Committing.step_nearer m s (.restart rep) (by simp)
    | count rep => exact Committing.step_nearer m s (.count rep) (by simp)
  | idle => cases hidle

end ListKeeper
