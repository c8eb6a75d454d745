import ListKeeper.Proofs.Distance
import ListKeeper.Proofs.Promotions
import Mathlib.Data.List.Perm.Subperm

/-! Whole passes. A pass that nobody disturbs and that takes less than a period refreshes what is
due, each entry once, and commits. Main statements: `World.Pass.step`, by which every step of a pass
goes on in order, and `Run.pass_over`, by which it comes to an end. -/
namespace ListKeeper

theorem Refresher.isIdle_iff (r : Refresher) : r.isIdle = true ↔ r.stage = .idle := by
  unfold isIdle
  split <;> simp_all

/-- How many ids a pass takes until it selects again. -/
def Stage.owes : Stage → Nat
  | .fetch _ _ => 1
  | .mint _ _ => 1
  | _ => 0

/-- An id is taken for an entry that was selected. -/
theorem World.mints_refresh (w : World) (m : Moment) :
    (w.mints (.refresh m)).toNat + (w.step (.refresh m)).refresher.stage.owes ≤
      w.refresher.stage.owes + (w.selects? (.refresh m)).toList.length := by
  obtain ⟨s, adds, r⟩ := w
  have hsteps := r.steps 0 m s
  simp only [World.step]
  generalize r.step 0 m s = out at hsteps ⊢
  cases hsteps with
  | quiet stage stage' dirty dirty' report report' s' hquiet =>
    rw [mints_of_quiet hquiet]
    cases hquiet <;> exact Nat.le_of_ble_eq_true rfl
  | selected pre post x dirty report hsplit hdue hpre hselect =>
    simp [World.mints, World.selects?, hselect, Stage.owes]
  | exhausted dirty report =>
    cases dirty || s.registry.hasPending <;> exact Nat.zero_le _
  | minted e body => exact Nat.le_of_ble_eq_true rfl
  | writing e stagedId body wr => exact Nat.zero_le _
  | recorded pre post x e stagedId body dirty report next hsplit hid hnext =>
    rcases hnext with ⟨rfl, -⟩ | ⟨old, rfl, -⟩ <;> exact Nat.zero_le _
  | orphaned e stagedId body => exact Nat.zero_le _
  | tidied file => exact Nat.zero_le _
  | committing c => exact Nat.zero_le _

/-- A pass leaves its refreshing only where it finds nothing that is due. -/
theorem Refresher.leaves (m : Moment) (s : System) (r : Refresher)
    (hnow : r.stage.refreshing = true) (hnext : (r.step 0 m s).2.stage.refreshing = false) :
    r.stage = .select ∧ (∀ e ∈ s.registry.entries, e.isDue m.now = false) ∧
      (r.step 0 m s).1 = s ∧
      ((r.step 0 m s).2.stage = .commit .snapshot ∨
        (r.step 0 m s).2.stage = .idle ∧ s.registry.hasPending = false) := by
  have hsteps := r.steps 0 m s
  generalize r.step 0 m s = out at hsteps hnext ⊢
  cases hsteps with
  | quiet stage stage' dirty dirty' report report' s' hquiet =>
    cases hquiet with
    | committed => cases hnow
    | idle => cases hnow
    | _ => cases hnext
  | exhausted dirty report hnone =>
    refine ⟨rfl, hnone, rfl, ?_⟩
    cases hpending : s.registry.hasPending with
    | true => exact .inl (by simp)
    | false => cases dirty <;> simp
  | recorded pre post x e stagedId body dirty report next hsplit hid hnext' =>
    rcases hnext' with ⟨rfl, -⟩ | ⟨old, rfl, -⟩ <;> cases hnext
  | committing c => cases hnow
  | _ => cases hnext

/-- A pass that started in `w₀`: it refreshes, or it found nothing due any more and commits what
waited then. -/
inductive World.Pass (w₀ w : World) (l : Log) : Prop
  | refreshing (h : w₀.Refreshing w l) (hstage : w.refresher.stage.refreshing = true)
  | promoting (w₁ : World) (now : Instant) (h : w₀.Refreshing w₁ l)
      (hend : w₁.refresher.stage = .select) (hlast : l.looked.getLast? = some now)
      (hnone : ∀ e ∈ w₁.entries, e.isDue now = false) (hcommit : w₁.Promoting w l.renamed)

namespace World

variable {w₀ w : World} {l : Log} {role : UInt64 → Role} {n : Nat}

theorem Refreshing.congr (h : w₀.Refreshing w l) (l' : Log) (hsel : l'.selected = l.selected)
    (hcon : l'.concluded = l.concluded) (hans : l'.answered = l.answered)
    (htold : l'.told = true → l.told = true) : w₀.Refreshing w l' := by
  refine ⟨h.settings, ?_, h.canonical, h.sameOpen, hsel ▸ h.selected, hsel ▸ h.once, ?_, ?_,
    h.written.mono htold⟩
  · refine forall₂_of_mem h.entries fun e _ e' _ hturned => ?_
    exact hturned.onward [] [] (by simp [hsel]) (by simp [hcon]) htold (by simp) (by simp)
      fun p _ => .refl _ _ p
  · rw [hsel, hcon]
    exact h.concluded
  · rw [hans, hcon]
    exact h.answered

/-- No entry waits for a directory. -/
def Free (w : World) : Prop :=
  ∀ e ∈ w.entries, ∀ p, e.pending = some p →
    w.system.tree.isDirectory (w.system.store.pathFor p) = false

theorem Refreshing.free (h : w₀.Refreshing w l) (hfree : w₀.Free) : w.Free := by
  intro e' he' p hp
  obtain ⟨e, he, hturned⟩ := exists_left_of_forall₂ h.entries e' he'
  rw [h.store]
  cases hturned with
  | waiting _ hfile => exact (hfile p hp).isDirectory.trans (hfree _ he p hp)
  | reserved _ _ _ hfile => exact (hfile p hp).isDirectory.trans (hfree _ he p hp)
  | recorded now stagedId body stamp _ _ hfile =>
    obtain rfl : stagedId = p := Option.some.inj hp
    exact hfile.isDirectory

/-- A commit begins with everything as it stands. -/
theorem promoting_start (w w' : World) (renamed : List Renaming) (hsystem : w'.system = w.system)
    (hstage : w'.refresher.stage = .commit .snapshot ∨
      w'.refresher.stage = .idle ∧ w.system.registry.hasPending = false) :
    w.Promoting w' renamed := by
  have hentries : w'.entries = w.entries := congrArg (·.registry.entries) hsystem
  refine ⟨by rw [hsystem], ?_, ?_, ?_, by rw [hsystem]; exact .refl _⟩
  · rcases hstage with hstage | ⟨hstage, -⟩ <;> rw [hstage] <;> rfl
  · rw [hentries, hsystem]
    refine List.forall₂_same.mpr fun e he => ?_
    cases hp : e.pending with
    | none => exact .still hp (.refl _ _ _)
    | some p =>
      refine .ahead p hp ?_ (.refl _ _ _) (.refl _ _ _)
      rcases hstage with hstage | ⟨-, hnone⟩
      · rw [hstage]
        trivial
      · have hno := List.any_eq_false.mp hnone e he
        simp [hp] at hno
  · rcases hstage with hstage | ⟨hstage, -⟩ <;> simp [hstage, Stage.pairs, Committing.pairs]

/-- Where nothing is due, nothing is selected. -/
theorem selects?_of_none (w : World) (m : Moment)
    (hnone : ∀ e ∈ w.entries, e.isDue m.now = false) : w.selects? (.refresh m) = none := by
  cases hselects : w.selects? (.refresh m) with
  | none => rfl
  | some s =>
    obtain ⟨pre, x, post, hsplit, -, -, hdue, -, hreads⟩ :=
      w.selects?_eq_some (.refresh m) s.1 s.2 hselects
    have hnow : m.now = s.2 := by
      revert hreads
      simp only [reads?]
      split <;> simp
    rw [← hnow, hnone x (by simp [hsplit])] at hdue
    cases hdue

/-- Every step of a pass goes on in order. -/
theorem Pass.step (h : w₀.Pass w l) (hs : w.Sound role n) (hplain : w₀.system.store.Plain)
    (hfree : w₀.Free) (m : Moment)
    (hbrief : w.refresher.stage = .select →
      ∀ s ∈ l.selected, m.now < s.2.deadline w₀.system.period) :
    w₀.Pass (w.step (.refresh m)) (l.note w (.refresh m)) := by
  cases h with
  | refreshing h hstage =>
    cases hnext : (w.step (.refresh m)).refresher.stage.refreshing with
    | true => exact .refreshing (h.step hs hplain m hbrief hnext) hnext
    | false =>
      obtain ⟨hselect, hnone, hsame, hstage'⟩ := w.refresher.leaves m w.system hstage hnext
      have hlog := w.selects?_of_none m hnone
      have hquiet : w.concludes? (.refresh m) = none ∧ w.answers? (.refresh m) = none ∧
          w.looks? (.refresh m) = some m.now := by
        simp [concludes?, answers?, looks?, hselect]
      refine .promoting w m.now ?_ hselect ?_ hnone ?_
      · exact h.congr _ (by simp [Log.note, hlog]) (by simp [Log.note, hquiet.1])
          (by simp [Log.note, hquiet.2.1]) fun h => (Log.told_note h).1
      · simp [Log.note, hquiet.2.2]
      · exact promoting_start w (w.step (.refresh m)) _ hsame hstage'
  | promoting w₁ now h hend hlast hnone hcommit =>
    have hstage := hcommit.stage
    have hquiet : w.selects? (.refresh m) = none ∧ w.concludes? (.refresh m) = none ∧
        w.answers? (.refresh m) = none ∧ w.looks? (.refresh m) = none := by
      simp only [selects?, concludes?, answers?, looks?]
      cases hw : w.refresher.stage with
      | commit c => exact ⟨rfl, rfl, rfl, rfl⟩
      | idle => exact ⟨rfl, rfl, rfl, rfl⟩
      | _ =>
        rw [hw] at hstage
        cases hstage
    have hstore : w₁.system.store.Plain := h.store ▸ hplain
    refine .promoting w₁ now ?_ hend ?_ hnone (hcommit.step hs hstore (h.free hfree) m)
    · exact h.congr _ (by simp [Log.note, hquiet.1]) (by simp [Log.note, hquiet.2.1])
        (by simp [Log.note, hquiet.2.2.1]) fun h => (Log.told_note h).1
    · simp [Log.note, hquiet.2.2.2, hlast]

/-- A pass is served as soon as it waits where all additions have ended. -/
theorem Queued.served (h : w.Queued) (hdone : ∀ a ∈ w.adds, ∃ outcome, a.2 = .done outcome)
    (hwaits : w.refresher.stage.waits = true) : w.system.gate.head? = some 0 := by
  refine h.head 0 hwaits fun ticket hwaiting => ?_
  cases ticket with
  | zero => rfl
  | succ caller =>
    -- no addition waits, since all have ended
    obtain ⟨c, stage, hadd, hwaits⟩ := exists_of_waits hwaiting
    obtain ⟨outcome, hdone⟩ := hdone _ (List.mem_of_getElem? hadd)
    rw [show stage = .done outcome from hdone] at hwaits
    cases hwaits

/-- No more entries are selected than there are. -/
theorem Pass.selected_le (h : w₀.Pass w l) : l.selected.length ≤ w₀.entries.length := by
  have hle (w' : World) (h' : w₀.Refreshing w' l) : l.selected.length ≤ w₀.entries.length := by
    have hsub : l.selected.map (·.1.id) ⊆ w₀.entries.map (·.id) := by
      intro id hid
      obtain ⟨s, hs, rfl⟩ := List.mem_map.mp hid
      obtain ⟨e, he, heq, -⟩ := h'.selected s hs
      exact List.mem_map.mpr ⟨e, he, by rw [heq]; rfl⟩
    have hlen := (List.subperm_of_subset h'.once hsub).length_le
    simpa using hlen
  cases h with
  | refreshing h' => exact hle w h'
  | promoting w₁ now h' => exact hle w₁ h'

end World

namespace Run

def pass (k : Run) (ms : Nat → Moment) : Nat → Run
  | 0 => k.step .startPass
  | n + 1 => (k.pass ms n).step (.refresh (ms n))

def passLog (k : Run) (ms : Nat → Moment) : Nat → Log
  | 0 => .empty
  | n + 1 => (k.passLog ms n).note (k.pass ms n).world (.refresh (ms n))

/-- Neither a pass nor an addition is under way. -/
structure Resting (k : Run) : Prop where
  idle : k.world.refresher.isIdle = true
  done : ∀ a ∈ k.world.adds, ∃ outcome, a.2 = .done outcome

/-- A pass can start: nothing is under way, all is in order, no entry waits for a directory, and
there are ids for all entries. -/
structure Ready (k : Run) : Prop where
  resting : k.Resting
  sound : ∃ role, k.world.Sound role k.past.minted
  plain : k.world.system.store.Plain
  queued : k.world.Queued
  free : k.world.Free
  room : k.past.minted + k.world.entries.length < IdSource.room

/-- What holds of a pass on its own after some of its steps. -/
structure Midway (k : Run) (ms : Nat → Moment) (n : Nat) : Prop where
  sound : ∃ role, (k.pass ms n).world.Sound role (k.pass ms n).past.minted
  pass : k.world.Pass (k.pass ms n).world (k.passLog ms n)
  queued : (k.pass ms n).world.Queued
  adds : (k.pass ms n).world.adds = k.world.adds
  minted : (k.pass ms n).past.minted + (k.pass ms n).world.refresher.stage.owes ≤
    k.past.minted + (k.passLog ms n).selected.length

variable {k : Run} {ms : Nat → Moment} {n : Nat}

theorem midway_zero (h : k.Ready) (ms : Nat → Moment) : k.Midway ms 0 := by
  -- the first act only starts the pass
  have hworld :
      (k.pass ms 0).world = { k.world with refresher := k.world.refresher.startPass } := by
    simp only [pass, step, World.step, h.resting.idle, ↓reduceIte]
  have hminted : (k.pass ms 0).past.minted = k.past.minted := rfl
  obtain ⟨role, hsound⟩ := h.sound
  refine ⟨⟨role, hsound.startPass⟩, .refreshing ?refreshing ?on, h.queued.step .startPass, ?adds,
    ?minted⟩
  case refreshing =>
    rw [hworld]
    refine ⟨rfl, List.forall₂_same.mpr fun e _ => ?_, fun _ _ => .refl _ _ _, .refl _, ?_, ?_, ?_,
      ?_, trivial⟩
    · exact .waiting (by simp [passLog, Log.empty]) fun p _ => .refl _ _ p
    all_goals simp [passLog, Log.empty, Refresher.startPass, Stage.entry?, Stage.got?]
  case on =>
    rw [hworld]
    rfl
  case adds => rw [hworld]
  case minted =>
    rw [hworld, hminted]
    exact Nat.le_refl _

/-- A pass that takes less than a period goes on in order. -/
theorem midway_succ (h : k.Ready) (hmid : k.Midway ms n)
    (hbrief : (k.pass ms n).world.refresher.stage = .select →
      ∀ s ∈ (k.passLog ms n).selected, (ms n).now < s.2.deadline k.world.system.period) :
    k.Midway ms (n + 1) := by
  obtain ⟨role, hsound⟩ := hmid.sound
  have hpass := hmid.pass.step hsound h.plain h.free (ms n) hbrief
  have hmints := (k.pass ms n).world.mints_refresh (ms n)
  have hsel : (k.passLog ms (n + 1)).selected.length = (k.passLog ms n).selected.length +
      ((k.pass ms n).world.selects? (.refresh (ms n))).toList.length := List.length_append
  have hnow : (k.pass ms (n + 1)).past.minted = (k.pass ms n).past.minted +
      ((k.pass ms n).world.mints (.refresh (ms n))).toNat := rfl
  have hminted : (k.pass ms (n + 1)).past.minted +
      (k.pass ms (n + 1)).world.refresher.stage.owes ≤
        k.past.minted + (k.passLog ms (n + 1)).selected.length := by
    have hbefore := hmid.minted
    have howes : (k.pass ms (n + 1)).world.refresher.stage.owes =
        ((k.pass ms n).world.step (.refresh (ms n))).refresher.stage.owes := rfl
    omega
  -- an id is taken for each selected entry only, and there are ids for all
  have hroom : (k.pass ms (n + 1)).past.minted < IdSource.room := by
    have hle : (k.passLog ms (n + 1)).selected.length ≤ k.world.entries.length := hpass.selected_le
    have henough := h.room
    omega
  obtain ⟨role', hsound', -⟩ := hsound.step (.refresh (ms n)) hroom
  exact ⟨⟨role', hsound'⟩, hpass, hmid.queued.step (.refresh (ms n)), hmid.adds, hminted⟩

theorem midway (h : k.Ready)
    (hbrief : ∀ n, (k.pass ms n).world.refresher.stage = .select →
      ∀ s ∈ (k.passLog ms n).selected, (ms n).now < s.2.deadline k.world.system.period) (n : Nat) :
    k.Midway ms n := by
  induction n with
  | zero => exact midway_zero h ms
  | succ n ih => exact midway_succ h ih (hbrief n)

/-- The entries that are not selected yet, and the distance from the end of the pass. -/
def left (k : Run) (ms : Nat → Moment) (n : Nat) : Nat × Nat × Nat :=
  (k.world.entries.length - (k.passLog ms n).selected.length,
    (k.pass ms n).world.refresher.stage.toGo)

theorem left_succ (hmid : k.Midway ms n) (hmid' : k.Midway ms (n + 1)) (hrest : k.Resting)
    (hidle : (k.pass ms n).world.refresher.isIdle = false) :
    Prod.Lex (· < ·) (Prod.Lex (· < ·) (· < ·)) (k.left ms (n + 1)) (k.left ms n) := by
  have hsel : (k.passLog ms (n + 1)).selected.length = (k.passLog ms n).selected.length +
      ((k.pass ms n).world.selects? (.refresh (ms n))).toList.length := List.length_append
  have hle := hmid'.pass.selected_le
  rw [Prod.lex_def]
  cases hselects : (k.pass ms n).world.selects? (.refresh (ms n)) with
  | some s =>
    left
    rw [hselects] at hsel
    simp only [Option.toList_some, List.length_singleton] at hsel
    simp only [left]
    omega
  | none =>
    right
    rw [hselects] at hsel
    refine ⟨by simp [left, hsel], ?_⟩
    rcases (k.pass ms n).world.refresher.step_nearer 0 (ms n) (k.pass ms n).world.system hidle
      (hmid.queued.served (hmid.adds ▸ hrest.done)) with ⟨hselect, hsome⟩ | hnearer
    · simp [World.selects?, hselect] at hselects
      simp [hselects] at hsome
    · exact hnearer

/-- A pass on its own that takes less than a period comes to an end. -/
theorem pass_over (h : k.Ready)
    (hbrief : ∀ n, (k.pass ms n).world.refresher.stage = .select →
      ∀ s ∈ (k.passLog ms n).selected, (ms n).now < s.2.deadline k.world.system.period) :
    ∃ n, (k.pass ms n).world.refresher.isIdle = true := by
  have hwf : IsWellFounded (Nat × Nat × Nat) (Prod.Lex (· < ·) (Prod.Lex (· < ·) (· < ·))) :=
    ⟨WellFounded.prod_lex Nat.lt_wfRel.wf (WellFounded.prod_lex Nat.lt_wfRel.wf Nat.lt_wfRel.wf)⟩
  obtain ⟨n, hn⟩ := WellFounded.not_rel_apply_succ (h := hwf) (k.left ms)
  refine ⟨n, ?_⟩
  by_contra hidle
  exact hn
    (left_succ (midway h hbrief n) (midway h hbrief (n + 1)) h.resting (by simpa using hidle))

end Run
end ListKeeper
