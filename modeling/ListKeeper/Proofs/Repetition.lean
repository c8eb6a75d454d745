import ListKeeper.Proofs.Commits
import ListKeeper.Proofs.Startup

/-! Passes at a time that stands still. Whatever a pass came to, one that follows it at the same
time finds nothing due, and so it requests nothing and attempts just the renamings that failed
before. Main statements: `Run.exhausts`, by which a pass comes to have nothing left that is due,
`Run.closes` and `Run.pass_repeats`. -/
namespace ListKeeper

def World.due (w : World) (now : Instant) : Nat := w.entries.countP (·.isDue now)

/-- A record makes nothing due that was not. -/
theorem Entry.isDue_of_staged (e : Entry) (stagedId count : UInt64) (stamp now : Instant)
    (h : (e.staged stagedId count stamp).isDue now = true) : e.isDue now = true := by
  obtain ⟨hon, hle⟩ := (Entry.isDue_iff _ now).mp h
  exact (e.isDue_iff now).mpr
    ⟨hon, Instant.le_trans _ _ _ (e.nextUpdate_le_staged stagedId count stamp) hle⟩

/-- Where one entry is replaced and does not come to be due, no more entries are due. -/
theorem due_replaced (pre post : List Entry) (x y : Entry) (now : Instant)
    (h : y.isDue now = true → x.isDue now = true) :
    (pre ++ y :: post).countP (·.isDue now) ≤ (pre ++ x :: post).countP (·.isDue now) := by
  simp only [List.countP_append, List.countP_cons]
  cases hy : y.isDue now with
  | true => simp [h hy]
  | false => simp

/-- While a pass refreshes, nothing comes to be due, and what it selects is due no more. -/
theorem World.due_refresh (w : World) (m : Moment) (hstage : w.refresher.stage.refreshing = true)
    (hperiod : 0 < w.system.period.nanos) (hnow : m.now < .latest) :
    (w.step (.refresh m)).due m.now + (w.selects? (.refresh m)).toList.length ≤ w.due m.now := by
  obtain ⟨s, adds, r⟩ := w
  have hsteps := r.steps 0 m s
  simp only [World.step]
  generalize r.step 0 m s = out at hsteps ⊢
  have hkeep (s' : System) (r' : Refresher) (hreg : s'.registry = s.registry)
      (hno : World.selects? ⟨s, adds, r⟩ (.refresh m) = none) :
      World.due ⟨s', adds, r'⟩ m.now + (World.selects? ⟨s, adds, r⟩ (.refresh m)).toList.length ≤
        World.due ⟨s, adds, r⟩ m.now := by
    simp [World.due, World.entries, hreg, hno]
  cases hsteps with
  | quiet stage stage' dirty dirty' report report' s' hquiet hstill =>
    refine hkeep _ _ hstill.registry ?_
    cases hquiet <;> rfl
  | selected pre post x dirty report hsplit hdue hpre hselect =>
    have hlater := x.isDue_reserve m.now s.period hperiod hnow
    simp [World.due, World.entries, World.selects?, System.note, hselect, hsplit, hdue, hlater,
      Nat.add_assoc]
  | exhausted dirty report hnone =>
    exact hkeep _ _ rfl (World.selects?_of_none _ m hnone)
  | minted e body => exact hkeep _ _ rfl rfl
  | writing e stagedId body wr => exact hkeep _ _ rfl rfl
  | recorded pre post x e stagedId body dirty report next hsplit hid hnext =>
    have hle := due_replaced pre post x (x.staged stagedId (Rules.recorded body) m.now) m.now
      (x.isDue_of_staged stagedId (Rules.recorded body) m.now m.now)
    simpa [World.due, World.entries, System.note, World.selects?, hsplit] using hle
  | orphaned e stagedId body => exact hkeep _ _ rfl rfl
  | tidied file => exact hkeep _ _ (s.discard_registry m.disk file) rfl
  | committing c => cases hstage

/-- A pass goes on with its commit as long as that is not over. -/
theorem Refresher.step_commit (ticket : Nat) (m : Moment) (s : System) (r : Refresher)
    (c : Committing) (hc : ∀ report, c ≠ .done report) :
    (r.enter (.commit c)).step ticket m s =
      ((c.step m s).1, r.enter (.commit (c.step m s).2)) := by
  cases c with
  | done report => exact absurd rfl (hc report)
  | _ => rfl

theorem World.renames?_commit (w : World) (m : Moment) (c : Committing)
    (hstage : w.refresher.stage = .commit c) :
    w.renames? (.refresh m) = c.renames? m w.system := by
  simp only [renames?, hstage]
  cases c with
  | promote pairs report => cases pairs <;> rfl
  | _ => rfl

/-- When a commit on its own is over it has made all its attempts, and it was not over before. -/
theorem System.Commits.over {s s' : System} {ms : Nat → Moment} {tried : List Renaming}
    (h : s.Commits ms tried s') :
    ∃ n, Committing.run ms (s, .snapshot) n = (s', .done (CommitReport.empty.count tried)) ∧
      Committing.tried ms (s, .snapshot) n = tried ∧
      ∀ i < n, ∀ report, (Committing.run ms (s, .snapshot) i).2 ≠ .done report := by
  cases h with
  | nothing hnone hdone =>
    refine ⟨1, hdone, rfl, fun i hi report hover => ?_⟩
    obtain rfl : i = 0 := by omega
    cases hover
  | window n tried t hsome hpairs htold hfiles hrestart hdone =>
    have hcount : Committing.run ms (s, .snapshot) (n + 1) =
        (((s.note .closed).renamed tried t).note .restarted,
          .count (CommitReport.empty.count tried)) := by
      rw [Committing.run, hrestart, Committing.step_restart]
    refine ⟨n + 2, hdone, ?_, fun i hi => ?_⟩
    · rw [Committing.tried, Committing.tried, hcount, hrestart, htold]
      simp [Committing.renames?]
    · apply Committing.not_done_of_later ms _ i (n + 1) (by omega)
      rw [hcount]
      exact fun report hover => by cases hover

theorem Registry.hasPending_eq_false_iff (r : Registry) :
    r.hasPending = false ↔ r.staged = [] := by
  simp [hasPending, staged, List.filterMap_eq_nil_iff]

/-- A commit makes nothing due. -/
theorem System.Commits.none_due {s s' : System} {ms : Nat → Moment} {tried : List Renaming}
    (h : s.Commits ms tried s') (now : Instant)
    (hnone : ∀ e ∈ s.registry.entries, e.isDue now = false) :
    ∀ e ∈ s'.registry.entries, e.isDue now = false := by
  cases h with
  | nothing => exact hnone
  | window n tried t =>
    intro e' he'
    obtain ⟨e, he, rfl⟩ := List.mem_map.mp he'
    split
    · exact hnone e he
    · exact hnone e he

/-- How a pass ends that finds nothing due: what it renames, and what it makes of the system and of
its report. -/
inductive Refresher.Closes (s : System) (r : Refresher) (ms : Nat → Moment) :
    List Renaming → System → PassReport → Prop
  | clean (hclean : (r.dirty || s.registry.hasPending) = false) : Closes s r ms [] s r.report
  | committed (tried : List Renaming) (s' : System)
      (hopen : (r.dirty || s.registry.hasPending) = true) (hcommits : s.Commits ms tried s') :
    Closes s r ms tried s' { r.report with commit := some (CommitReport.empty.count tried) }

/-- What such a pass leaves: nothing is due, and what it could not rename waits. -/
theorem Refresher.Closes.left {s s' : System} {r : Refresher} {ms : Nat → Moment}
    {tried : List Renaming} {report : PassReport} (h : r.Closes s ms tried s' report)
    (hids : (s.registry.entries.map (·.id)).Nodup) (hapart : Apart s.registry.staged)
    (now : Instant) (hnone : ∀ e ∈ s.registry.entries, e.isDue now = false) :
    (s'.registry.entries.map (·.id)).Nodup ∧ Apart s'.registry.staged ∧
      s'.registry.staged = Renaming.failures tried ∧
      ∀ e ∈ s'.registry.entries, e.isDue now = false := by
  cases h with
  | clean hclean =>
    have hpending := (Bool.or_eq_false_iff.mp hclean).2
    exact ⟨hids, hapart, (s.registry.hasPending_eq_false_iff).mp hpending, hnone⟩
  | committed tried s' hopen hcommits =>
    obtain ⟨hsame, hleft⟩ := hcommits.left hapart
    exact ⟨hsame ▸ hids, hcommits.apart hapart, hleft, hcommits.none_due now hnone⟩

theorem Renaming.failures_eq_nil_iff (tried : List Renaming) :
    failures tried = [] ↔ ∀ r ∈ tried, r.succeeded = true := by
  simp [failures, List.filter_eq_nil_iff]

/-- Pausing the consumer, renaming and resuming the consumer request nothing. -/
theorem System.requests_window (s : System) (tried : List Renaming) (t : FileTree) :
    ((s.note .closed).renamed tried t).resumed.requests = s.requests := by
  have hjournal : ((s.note .closed).renamed tried t).resumed.journal =
      s.journal ++ [.closed] ++ tried.map Renaming.event ++ [.restarted] := rfl
  have hnone : (tried.map Renaming.event).filterMap Event.request? = [] := by
    rw [List.filterMap_map, List.filterMap_eq_nil_iff]
    exact fun _ _ => rfl
  rw [requests, hjournal, List.filterMap_append, List.filterMap_append, List.filterMap_append,
    hnone]
  simp [requests, Event.request?]

namespace Run

variable {k : Run} {ms : Nat → Moment} {now : Instant} {n : Nat}

/-- What holds of a pass on its own while it refreshes and the clock stands still. There are ids for
all that is due. -/
structure Paced (k : Run) (ms : Nat → Moment) (now : Instant) (n : Nat) : Prop where
  refreshing : (k.pass ms n).world.refresher.stage.refreshing = true
  sound : ∃ role, (k.pass ms n).world.Sound role (k.pass ms n).past.minted
  queued : (k.pass ms n).world.Queued
  adds : (k.pass ms n).world.adds = k.world.adds
  settings : (k.pass ms n).world.system.settings = k.world.system.settings
  minted : (k.pass ms n).past.minted + (k.pass ms n).world.refresher.stage.owes +
    (k.pass ms n).world.due now ≤ k.past.minted + k.world.due now
  renamed : (k.passLog ms n).renamed = []

theorem pass_zero (k : Run) (hidle : k.world.refresher.isIdle = true) (ms : Nat → Moment) :
    k.pass ms 0 = ⟨{ k.world with refresher := k.world.refresher.startPass }, k.past⟩ := by
  simp only [pass, step, World.step, hidle, ↓reduceIte]
  rfl

theorem paced_zero (hidle : k.world.refresher.isIdle = true)
    (hsound : ∃ role, k.world.Sound role k.past.minted) (hqueued : k.world.Queued)
    (ms : Nat → Moment) (now : Instant) : k.Paced ms now 0 := by
  obtain ⟨role, hsound⟩ := hsound
  have hstart := k.pass_zero hidle ms
  refine ⟨?refreshing, ⟨role, hsound.startPass⟩, hqueued.step .startPass, ?adds, ?settings,
    ?minted, rfl⟩
  case refreshing =>
    rw [hstart]
    rfl
  case adds => rw [hstart]
  case settings => rw [hstart]
  case minted =>
    rw [hstart]
    exact Nat.le_refl _

theorem Paced.step (h : k.Paced ms now n) (hperiod : 0 < k.world.system.period.nanos)
    (hroom : k.past.minted + k.world.entries.length < IdSource.room) (hms : (ms n).now = now)
    (hnow : now < .latest)
    (hmore : (k.pass ms n).world.refresher.stage = .select →
      ∃ e ∈ (k.pass ms n).world.entries, e.isDue now = true) : k.Paced ms now (n + 1) := by
  obtain ⟨role, hsound⟩ := h.sound
  have hspan : (k.pass ms n).world.system.period = k.world.system.period :=
    congrArg Prod.snd h.settings
  have hmints := (k.pass ms n).world.mints_refresh (ms n)
  have hdue := (k.pass ms n).world.due_refresh (ms n) h.refreshing (hspan ▸ hperiod) (hms ▸ hnow)
  rw [hms] at hdue
  -- an id is taken only for an entry that was due and is not any more
  have hminted : (k.pass ms (n + 1)).past.minted +
      (k.pass ms (n + 1)).world.refresher.stage.owes + (k.pass ms (n + 1)).world.due now ≤
        k.past.minted + k.world.due now := by
    have hbefore := h.minted
    have hpast : (k.pass ms (n + 1)).past.minted = (k.pass ms n).past.minted +
        ((k.pass ms n).world.mints (.refresh (ms n))).toNat := rfl
    have hworld : (k.pass ms (n + 1)).world = (k.pass ms n).world.step (.refresh (ms n)) := rfl
    rw [hpast, hworld]
    omega
  have hless : (k.pass ms (n + 1)).past.minted < IdSource.room := by
    have hlen : k.world.due now ≤ k.world.entries.length := List.countP_le_length
    omega
  obtain ⟨role', hsound', -⟩ := hsound.step (.refresh (ms n)) hless
  refine ⟨?refreshing, ⟨role', hsound'⟩, h.queued.step (.refresh (ms n)), h.adds, ?settings,
    hminted, ?renamed⟩
  case refreshing =>
    -- it leaves off refreshing only where nothing is due
    by_contra hleaves
    obtain ⟨hselect, hnone, -⟩ := (k.pass ms n).world.refresher.leaves (ms n) _ h.refreshing
      (Bool.eq_false_iff.mpr hleaves)
    obtain ⟨e, he, hdue⟩ := hmore hselect
    rw [← hms, hnone e he] at hdue
    cases hdue
  case settings => exact ((k.pass ms n).world.step_explained (.refresh (ms n))).1.trans h.settings
  case renamed =>
    have hno : (k.pass ms n).world.renames? (.refresh (ms n)) = none := by
      have hon := h.refreshing
      revert hon
      simp only [World.renames?]
      split
      · rename_i hstage
        rw [hstage]
        exact fun hon => by cases hon
      · exact fun _ => rfl
    rw [passLog, Log.note, h.renamed, hno]
    rfl

/-- Each step selects an entry or comes nearer to the end. -/
theorem Paced.nearer (h : k.Paced ms now n)
    (hdone : ∀ a ∈ k.world.adds, ∃ outcome, a.2 = .done outcome)
    (hperiod : 0 < k.world.system.period.nanos) (hms : (ms n).now = now) (hnow : now < .latest) :
    Prod.Lex (· < ·) (Prod.Lex (· < ·) (· < ·))
      ((k.pass ms (n + 1)).world.due now, (k.pass ms (n + 1)).world.refresher.stage.toGo)
      ((k.pass ms n).world.due now, (k.pass ms n).world.refresher.stage.toGo) := by
  have hspan : (k.pass ms n).world.system.period = k.world.system.period :=
    congrArg Prod.snd h.settings
  have hdue := (k.pass ms n).world.due_refresh (ms n) h.refreshing (hspan ▸ hperiod) (hms ▸ hnow)
  have hworld : (k.pass ms (n + 1)).world = (k.pass ms n).world.step (.refresh (ms n)) := rfl
  rw [hms, ← hworld] at hdue
  have hidle : (k.pass ms n).world.refresher.isIdle = false := by
    apply Bool.eq_false_iff.mpr
    intro hidle
    have hon := h.refreshing
    rw [(Refresher.isIdle_iff _).mp hidle] at hon
    cases hon
  have hserved := h.queued.served (h.adds ▸ hdone)
  rw [Prod.lex_def]
  cases hselects : (k.pass ms n).world.selects? (.refresh (ms n)) with
  | some s =>
    rw [hselects] at hdue
    exact .inl (Nat.lt_of_succ_le hdue)
  | none =>
    rw [hselects] at hdue
    rcases (k.pass ms n).world.refresher.step_nearer 0 (ms n) (k.pass ms n).world.system hidle
      hserved with ⟨hselect, hsome⟩ | hnearer
    · simp [World.selects?, hselect] at hselects
      simp [hselects] at hsome
    · rcases Nat.lt_or_eq_of_le hdue with hless | hsame
      · exact .inl hless
      · exact .inr ⟨hsame, hnearer⟩

/-- While the clock stands still, a pass comes to have nothing left that is due, and by then it has
renamed nothing. -/
theorem exhausts (hdone : k.Resting) (hsound : ∃ role, k.world.Sound role k.past.minted)
    (hqueued : k.world.Queued) (hperiod : 0 < k.world.system.period.nanos)
    (hroom : k.past.minted + k.world.entries.length < IdSource.room) (hms : ∀ i, (ms i).now = now)
    (hnow : now < .latest) :
    ∃ n, k.Paced ms now n ∧ (k.pass ms n).world.refresher.stage = .select ∧
      ∀ e ∈ (k.pass ms n).world.entries, e.isDue now = false := by
  have hwf : IsWellFounded (Nat × Nat × Nat) (Prod.Lex (· < ·) (Prod.Lex (· < ·) (· < ·))) :=
    ⟨WellFounded.prod_lex Nat.lt_wfRel.wf (WellFounded.prod_lex Nat.lt_wfRel.wf Nat.lt_wfRel.wf)⟩
  by_contra hnever
  -- otherwise it would select and refresh for ever
  have hpaced (n : Nat) : k.Paced ms now n := by
    induction n with
    | zero => exact paced_zero hdone.idle hsound hqueued ms now
    | succ n ih =>
      apply ih.step hperiod hroom (hms n) hnow
      intro hselect
      by_contra hnone
      exact hnever ⟨n, ih, hselect, by simpa using hnone⟩
  obtain ⟨n, hn⟩ := WellFounded.not_rel_apply_succ (h := hwf) fun n =>
    ((k.pass ms n).world.due now, (k.pass ms n).world.refresher.stage.toGo)
  exact hn ((hpaced n).nearer hdone.done hperiod (hms n) hnow)

def turned (k : Run) (s : System) (r : Refresher) : Run :=
  { k with world := { k.world with system := s, refresher := r } }

/-- Within a pass a commit goes as on its own. -/
theorem pass_commit (k : Run) (ms : Nat → Moment) (j : Nat) (c : Committing)
    (hstage : (k.pass ms j).world.refresher.stage = .commit c) (x : Nat → System × Committing)
    (hx : x = Committing.run (fun i => ms (j + i)) ((k.pass ms j).world.system, c)) (n : Nat)
    (hlasts : ∀ i < n, ∀ report, (x i).2 ≠ .done report) :
    k.pass ms (j + n) =
        (k.pass ms j).turned (x n).1 ((k.pass ms j).world.refresher.enter (.commit (x n).2)) ∧
      (k.passLog ms (j + n)).renamed = (k.passLog ms j).renamed ++
        Committing.tried (fun i => ms (j + i)) ((k.pass ms j).world.system, c) n := by
  induction n with
  | zero =>
    subst hx
    constructor
    · rw [Nat.add_zero, Committing.run, Refresher.enter, ← hstage]
      rfl
    · simp [Committing.tried]
  | succ n ih =>
    obtain ⟨hpass, hlog⟩ := ih fun i hi => hlasts i (by omega)
    have hgoes := hlasts n (by omega)
    constructor
    · have hnext : x (n + 1) = (x n).2.step (ms (j + n)) (x n).1 := by
        rw [hx]
        rfl
      rw [← Nat.add_assoc, pass, hpass, hnext, step, World.step]
      simp only [turned, Refresher.step_commit _ _ _ _ _ hgoes]
      rfl
    · have hnow : (k.pass ms (j + n)).world.refresher.stage = .commit (x n).2 := by
        rw [hpass]
        rfl
      rw [← Nat.add_assoc, passLog, Log.note, World.renames?_commit _ _ _ hnow, hlog, hpass,
        Committing.tried, List.append_assoc, ← hx]
      rfl

/-- A pass that begins to commit comes to its end. -/
theorem pass_committed (k : Run) (ms : Nat → Moment) (j : Nat)
    (hstage : (k.pass ms j).world.refresher.stage = .commit .snapshot) (tried : List Renaming)
    (s' : System) (hcommits : (k.pass ms j).world.system.Commits (fun i => ms (j + i)) tried s') :
    ∃ n, k.pass ms n = (k.pass ms j).turned s' ⟨.idle, false,
          { (k.pass ms j).world.refresher.report with
            commit := some (CommitReport.empty.count tried) }⟩ ∧
      (k.passLog ms n).renamed = (k.passLog ms j).renamed ++ tried := by
  obtain ⟨n, hover, htold, hlasts⟩ := hcommits.over
  obtain ⟨hpass, hlog⟩ := k.pass_commit ms j .snapshot hstage _ rfl n hlasts
  rw [htold] at hlog
  rw [hover] at hpass
  refine ⟨j + n + 1, ?_, ?_⟩
  · rw [pass, hpass]
    rfl
  · rw [passLog, Log.note, hlog, hpass]
    simp [World.renames?, turned, Refresher.enter]

/-- A pass that finds nothing due comes to its end. -/
theorem closes (k : Run) (ms : Nat → Moment) (j : Nat)
    (hselect : (k.pass ms j).world.refresher.stage = .select)
    (hnone : ∀ e ∈ (k.pass ms j).world.entries, e.isDue (ms j).now = false)
    (hids : ((k.pass ms j).world.entries.map (·.id)).Nodup)
    (hapart : Apart (k.pass ms j).world.system.registry.staged) :
    ∃ n tried s' report, (k.pass ms j).world.refresher.Closes (k.pass ms j).world.system
        (fun i => ms (j + 1 + i)) tried s' report ∧
      k.pass ms n = (k.pass ms j).turned s' ⟨.idle, false, report⟩ ∧
      (k.passLog ms n).renamed = (k.passLog ms j).renamed ++ tried := by
  have hlog : (k.passLog ms (j + 1)).renamed = (k.passLog ms j).renamed := by
    simp [passLog, Log.note, World.renames?, hselect]
  -- nothing is due, so the next step ends the refreshing
  have hnext : k.pass ms (j + 1) = (k.pass ms j).turned (k.pass ms j).world.system
      ((k.pass ms j).world.refresher.enter
        (if (k.pass ms j).world.refresher.dirty || (k.pass ms j).world.system.registry.hasPending
        then .commit .snapshot else .idle)) := by
    have hselects := (k.pass ms j).world.selects?_of_none (ms j) hnone
    simp only [World.selects?, hselect, Option.map_eq_none_iff] at hselects
    simp only [pass, step, World.step, Refresher.step, hselect, hselects, turned]
    congr 1
    simp [Past.note, World.mints, World.obtains?, World.receives?, hselect]
  cases hopen : (k.pass ms j).world.refresher.dirty ||
      (k.pass ms j).world.system.registry.hasPending with
  | false =>
    rw [hopen] at hnext
    have hclean := (Bool.or_eq_false_iff.mp hopen).1
    refine ⟨j + 1, [], _, _, .clean hopen, ?_, by simpa using hlog⟩
    rw [hnext]
    simp [Refresher.enter, hclean]
  | true =>
    rw [hopen] at hnext
    have hstage : (k.pass ms (j + 1)).world.refresher.stage = .commit .snapshot := by
      rw [hnext]
      rfl
    obtain ⟨tried, s', hcommits⟩ := Committing.ends (fun i => ms (j + 1 + i))
      (k.pass ms j).world.system hids hapart
    obtain ⟨n, hpass, hrenamed⟩ := k.pass_committed ms (j + 1) hstage tried s' (by
      rw [hnext]
      exact hcommits)
    rw [hnext] at hpass
    rw [hlog] at hrenamed
    exact ⟨n, tried, s', _, .committed tried s' hopen hcommits, hpass, hrenamed⟩

/-- What a pass comes to that follows another one, whose renamings are given, at the same time. It
gives out no id and requests nothing. Where all renamings had succeeded, or none was attempted, it
leaves everything alone. Else it pauses the consumer, attempts those that failed, each once and in
their order, and resumes the consumer, and nothing else changes. -/
structure Repeats (k : Run) (before : List Renaming) (ms : Nat → Moment) (n : Nat) : Prop where
  idle : (k.pass ms n).world.refresher.isIdle = true
  past : (k.pass ms n).past = k.past
  ids : (k.pass ms n).world.system.ids = k.world.system.ids
  requests : (k.pass ms n).world.system.requests = k.world.system.requests
  untouched : (∀ r ∈ before, r.succeeded = true) →
    (k.pass ms n).world = { k.world with refresher := ⟨.idle, false, .empty⟩ }
  retried : (∃ r ∈ before, r.succeeded = false) →
    ∃ t, ((k.passLog ms n).renamed).map Renaming.pair = Renaming.failures before ∧
      k.world.system.store.Renamings k.world.system.tree (k.passLog ms n).renamed t ∧
      (k.pass ms n).world = { k.world with
        system := ((k.world.system.note .closed).renamed (k.passLog ms n).renamed t).resumed
        refresher := ⟨.idle, false,
          ⟨0, 0, some (CommitReport.empty.count (k.passLog ms n).renamed)⟩⟩ }

/-- A pass that starts with nothing due does no more than the renamings that wait. -/
theorem repeats (k : Run) (hidle : k.world.refresher.isIdle = true)
    (hdirty : k.world.refresher.dirty = false)
    (hids : (k.world.entries.map (·.id)).Nodup) (hapart : Apart k.world.system.registry.staged)
    (before : List Renaming) (hleft : k.world.system.registry.staged = Renaming.failures before)
    (ms : Nat → Moment) (hnone : ∀ e ∈ k.world.entries, e.isDue (ms 0).now = false) :
    ∃ n, k.Repeats before ms n := by
  have hstart := k.pass_zero hidle ms
  obtain ⟨n, tried, s', report, hcloses, hpass, hlog⟩ := k.closes ms 0 (by rw [hstart]; rfl)
    (by rw [hstart]; exact hnone) (by rw [hstart]; exact hids) (by rw [hstart]; exact hapart)
  rw [hstart] at hcloses hpass
  have hrenamed : (k.passLog ms n).renamed = tried := hlog
  refine ⟨n, ?_⟩
  cases hcloses with
  -- nothing waits, so no renaming had failed
  | clean hclean =>
    have hnil : k.world.system.registry.staged = [] :=
      (Registry.hasPending_eq_false_iff _).mp (Bool.or_eq_false_iff.mp hclean).2
    have hall := (Renaming.failures_eq_nil_iff before).mp (hleft.symm.trans hnil)
    refine ⟨by rw [hpass]; rfl, by rw [hpass]; rfl, by rw [hpass]; rfl, by rw [hpass]; rfl,
      fun _ => by rw [hpass]; rfl, ?_⟩
    rintro ⟨r, hr, hno⟩
    rw [hall r hr] at hno
    cases hno
  | committed tried s' hopen hcommits =>
    have hsome : k.world.system.registry.staged ≠ [] := by
      intro hnil
      have hno := (Registry.hasPending_eq_false_iff _).mpr hnil
      simp [Refresher.startPass, hdirty, hno] at hopen
    cases hcommits with
    | nothing hnil => exact absurd hnil hsome
    | window i tried t _ hpairs _ hfiles =>
      refine ⟨by rw [hpass]; rfl, by rw [hpass]; rfl, by rw [hpass]; rfl, ?_, ?_, fun _ => ?_⟩
      · rw [hpass]
        exact k.world.system.requests_window tried t
      · intro hall
        exact absurd (hleft.trans ((Renaming.failures_eq_nil_iff before).mpr hall)) hsome
      · rw [hrenamed]
        refine ⟨t, hpairs.trans hleft, hfiles, ?_⟩
        rw [hpass]
        rfl

/-- In every state between two passes, over any files and with any answers, a pass during which the
clock stands still comes to an end; and every pass that follows it at the same time, with nobody
else about, comes to an end, requests nothing and does no more than the renamings that had
failed. -/
theorem pass_repeats (fetchable : String → Bool) (c : Config) (hc : c.fault? fetchable = none)
    (period : Span) (hperiod : 0 < period.nanos) (t₀ : FileTree) (disks : UInt64 → Disk)
    (acts : List Act) (t : FileTree) (k : Run)
    (hk : k = ((loaded c period t₀ disks).after acts).withTree t) (hrest : k.Resting)
    (hroom : k.past.minted + k.world.entries.length < IdSource.room) (now : Instant)
    (hnow : now < .latest) (ms : Nat → Moment) (hms : ∀ i, (ms i).now = now) :
    ∃ n, (k.pass ms n).world.refresher.isIdle = true ∧
      ∀ ms', (∀ i, (ms' i).now = now) →
        ∃ n', (k.pass ms n).Repeats (k.passLog ms n).renamed ms' n' := by
  have hspan : k.world.system.period = period := by
    rw [hk]
    exact congrArg Prod.snd ((loaded c period t₀ disks).settings_after acts)
  have hsound : ∃ role, k.world.Sound role k.past.minted := by
    subst hk
    obtain ⟨role, h⟩ := sound_after fetchable c hc period t₀ disks acts
      (Nat.lt_of_le_of_lt (Nat.le_add_right _ _) hroom)
    exact ⟨role, h.table, h.numbered, h.held, h.stage⟩
  have hqueued : k.world.Queued := by
    subst hk
    obtain ⟨hnodup, hmem⟩ := queued_after _ (loaded_queued c period t₀ disks) acts
    exact ⟨hnodup, hmem⟩
  -- first the pass refreshes until nothing is due, then it closes
  obtain ⟨j, hpaced, hselect, hnone⟩ :=
    exhausts hrest hsound hqueued (hspan ▸ hperiod) hroom hms hnow
  obtain ⟨role, hsound'⟩ := hpaced.sound
  have hless : (k.pass ms j).past.minted < IdSource.room := by
    have hlen : k.world.due now ≤ k.world.entries.length := List.countP_le_length
    have hminted := hpaced.minted
    omega
  have hidentified := hsound'.identified hless
  obtain ⟨n, tried, s', report, hcloses, hpass, hlog⟩ := k.closes ms j hselect
    ((hms j).symm ▸ hnone) hidentified.ids_nodup hidentified.apart
  obtain ⟨hids, hapart, hleft, hnone'⟩ :=
    hcloses.left hidentified.ids_nodup hidentified.apart now hnone
  rw [hpaced.renamed, List.nil_append] at hlog
  refine ⟨n, by rw [hpass]; rfl, fun ms' hms' => ?_⟩
  rw [hlog, hpass]
  have hstill : ∀ e ∈ s'.registry.entries, e.isDue (ms' 0).now = false := by
    rw [hms' 0]
    exact hnone'
  exact repeats ((k.pass ms j).turned s' ⟨.idle, false, report⟩) rfl rfl hids hapart tried hleft
    ms' hstill

/-- The next pass after `strandedFirst`, with a disk that still fails. -/
def brokenLater : Moment := { laterMoment with disk := ⟨some ⟨.busy, true⟩, 0, .epoch⟩ }

theorem pass_repeats_stranded :
    Config.pair.fault? (fun _ => true) = none ∧ 0 < (Span.ofSeconds 10).nanos ∧
      strandedRun.Resting ∧
      strandedRun.past.minted + strandedRun.world.entries.length < IdSource.room ∧
      brokenLater.now < .latest ∧
      ∃ n, (strandedRun.pass (fun _ => brokenLater) n).world.refresher.isIdle = true ∧
        ∀ ms', (∀ i, (ms' i).now = brokenLater.now) →
          ∃ n', (strandedRun.pass (fun _ => brokenLater) n).Repeats
            (strandedRun.passLog (fun _ => brokenLater) n).renamed ms' n' := by
  have hc : Config.pair.fault? (fun _ => true) = none := by decide +kernel
  have hroom : strandedRun.past.minted + strandedRun.world.entries.length < IdSource.room := by
    decide +kernel
  have hnow : brokenLater.now < .latest := by decide +kernel
  exact ⟨hc, by decide, strandedRun_resting, hroom, hnow,
    pass_repeats (fun _ => true) .pair hc (.ofSeconds 10) (by decide) .withLists .readsAll
      strandedFirst _ strandedRun rfl strandedRun_resting hroom brokenLater.now hnow
      (fun _ => brokenLater) fun _ => rfl⟩

end Run
end ListKeeper
