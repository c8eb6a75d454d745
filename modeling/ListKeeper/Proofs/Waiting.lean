import ListKeeper.Proofs.Edits
import ListKeeper.Proofs.Identity
import ListKeeper.Proofs.Operations

/-! Waiting lists. A list that was due when a pass read the clock first keeps its place until it is
selected. What is selected again before it stands before it, and a full period has passed since it
was selected. Main statement: `Run.overtakes_after_period`. -/
namespace ListKeeper

namespace Instant

theorem le_refl (a : Instant) : a ≤ a := .inr ⟨rfl, Nat.le_refl _⟩

theorem le_trans (a b c : Instant) (hab : a ≤ b) (hbc : b ≤ c) : a ≤ c := by
  rw [le_def] at hab hbc ⊢
  omega

theorem le_of_lt (a b : Instant) (h : a < b) : a ≤ b := by
  rw [lt_def] at h
  rw [le_def]
  omega

end Instant

theorem Entry.isDue_iff (e : Entry) (now : Instant) :
    e.isDue now = true ↔ e.enabled = true ∧ e.nextUpdate ≤ now := by
  simp [Entry.isDue]

/-- A record never puts the next update back. -/
theorem Entry.nextUpdate_le_staged (e : Entry) (stagedId count : UInt64) (now : Instant) :
    e.nextUpdate ≤ (e.staged stagedId count now).nextUpdate := by
  simp only [Entry.staged]
  split
  · exact Instant.le_of_lt _ _ ‹_›
  · exact Instant.le_refl _

def Stage.entry? : Stage → Option Entry
  | .fetch e _ => some e
  | .mint e _ => some e
  | .write e _ _ _ => some e
  | .record e _ _ => some e
  | _ => none

def World.reads? (w : World) : Act → Option Instant
  | .refresh m =>
    match w.refresher.stage with
    | .select => some m.now
    | .mint _ _ => some m.now
    | .record _ _ _ => some m.now
    | _ => none
  | _ => none

namespace Run

def readings (k : Run) : List Act → List Instant
  | [] => []
  | a :: acts => (k.world.reads? a).toList ++ (k.step a).readings acts

/-- The entries that are selected in some acts, each with the clock reading by which it is due. -/
def selections (k : Run) : List Act → List (Entry × Instant)
  | [] => []
  | a :: acts => (k.world.selects? a).toList ++ (k.step a).selections acts

end Run

/-- How an entry comes out of a step: as it was, selected, or recorded with a staged file. -/
inductive Entry.Follows (w : World) (a : Act) (e e' : Entry) : Prop
  | same (h : e'.nextUpdate = e.nextUpdate)
  | selected (now : Instant) (hselects : w.selects? a = some (e', now))
      (hreads : w.reads? a = some now) (hdue : e.nextUpdate ≤ now)
      (h : e'.nextUpdate = now.deadline w.system.period)
  | recorded (x : Entry) (hentry : w.refresher.stage.entry? = some x) (hid : x.id = e'.id)
      (h : e.nextUpdate ≤ e'.nextUpdate)

namespace World

variable {w : World} {role : UInt64 → Role} {n : Nat}

theorem follows_of_split {a : Act} {pre post : List Entry} (x y : Entry) (hid : x.id = y.id)
    (henabled : x.enabled = y.enabled) (h : x.Follows w a y) (e' : Entry)
    (he' : e' ∈ pre ++ y :: post) :
    ∃ e ∈ pre ++ x :: post, e.id = e'.id ∧ e.enabled = e'.enabled ∧ e.Follows w a e' := by
  rcases Registry.eq_or_mem_of_replaced x he' with rfl | he'
  · exact ⟨x, by simp, hid, henabled, h⟩
  · exact ⟨e', he', rfl, rfl, .same rfl⟩

/-- What is selected is the first entry that is due, with its next update put off. -/
theorem selects?_eq_some (w : World) (a : Act) (e : Entry) (now : Instant)
    (h : w.selects? a = some (e, now)) :
    ∃ pre x post, w.entries = pre ++ x :: post ∧ (w.step a).entries = pre ++ e :: post ∧
      e = x.reserve now w.system.period ∧ x.isDue now = true ∧
      (∀ y ∈ pre, y.isDue now = false) ∧ w.reads? a = some now := by
  obtain ⟨s, adds, ⟨stage, dirty, report⟩⟩ := w
  cases a with
  | refresh m =>
    cases stage with
    | select =>
      obtain ⟨⟨y, registry⟩, hsel, heq⟩ := Option.map_eq_some_iff.mp h
      obtain ⟨rfl, rfl⟩ := Prod.mk.inj heq
      obtain ⟨pre, x, post, hsplit, hentries, he, hdue, hpre⟩ :=
        s.registry.selectDue_eq_some registry m.now s.period y hsel
      refine ⟨pre, x, post, hsplit, ?_, he, hdue, hpre, rfl⟩
      simp only [World.step, Refresher.step, hsel]
      exact hentries
    | _ => cases h
  | _ => cases h

/-- The entries after a step follow from those before it, or their ids were not canonical yet. -/
theorem Sound.step_follows (h : w.Sound role n) (a : Act) (e' : Entry)
    (he' : e' ∈ (w.step a).entries) :
    role e'.id ≠ .canonical ∨
      ∃ e ∈ w.entries, e.id = e'.id ∧ e.enabled = e'.enabled ∧ e.Follows w a e' := by
  have hsame (hmem : e' ∈ w.entries) :
      ∃ e ∈ w.entries, e.id = e'.id ∧ e.enabled = e'.enabled ∧ e.Follows w a e' :=
    ⟨e', hmem, rfl, rfl, .same rfl⟩
  cases w.step_edits a with
  | same hnone hentries =>
    rw [hentries] at he'
    exact .inr (hsame he')
  | selected pre post x m hact hselects hsplit hdue hentries =>
    obtain ⟨-, -, -, -, -, -, -, -, hreads⟩ := w.selects?_eq_some a _ m.now hselects
    have hle : x.nextUpdate ≤ m.now := ((x.isDue_iff m.now).mp hdue).2
    rw [hentries] at he'
    rw [hsplit]
    exact .inr (follows_of_split x (x.reserve m.now w.system.period) rfl rfl
      (.selected m.now hselects hreads hle rfl) e' he')
  | recorded pre post x e stagedId body m hact hstage hsplit hid hentries =>
    have hle := x.nextUpdate_le_staged stagedId (Rules.recorded body) m.now
    rw [hentries] at he'
    rw [hsplit]
    exact .inr (follows_of_split x (x.staged stagedId (Rules.recorded body) m.now) rfl rfl
      (.recorded e (by rw [hstage]; rfl) hid.symm hle) e' he')
  | settled pre post x p m c hact hstage hsettles hpend hsplit hentries =>
    rw [hentries] at he'
    rw [hsplit]
    exact .inr (follows_of_split x x.settled rfl rfl (.same rfl) e' he')
  | added caller m c id body hact hadd hfree hentries =>
    rw [hentries] at he'
    rcases List.mem_append.mp he' with he' | he'
    · exact .inr (hsame he')
    · rw [List.mem_singleton.mp he']
      -- the id of a new entry was that of an addition
      have hrole : role id = .adding caller := h.held caller c _ id hadd rfl
      left
      change role id ≠ .canonical
      simp [hrole]
  | removed pre post x hact hdeletes hsplit hentries =>
    rw [hentries] at he'
    apply Or.inr
    apply hsame
    rw [hsplit]
    exact Registry.mem_of_removed x he'

/-- What a pass keeps, from some entries on, while it selects and reads the clock. -/
structure Passing (w : World) (role : UInt64 → Role) (start : List Entry)
    (selected : List (Entry × Instant)) (readings : List Instant) : Prop where
  deadlines : ∀ s ∈ selected, ∀ e ∈ w.entries, e.id = s.1.id →
    s.2.deadline w.system.period ≤ e.nextUpdate ∨
      ∃ r ∈ readings, s.2.deadline w.system.period ≤ r
  waiting : ∀ y ∈ start, (∀ s ∈ selected, s.1.id ≠ y.id) → ∀ e ∈ w.entries, e.id = y.id →
    e.enabled = y.enabled ∧ e.nextUpdate = y.nextUpdate
  underway : ∀ e, w.refresher.stage.entry? = some e → ∃ s ∈ selected, s.1.id = e.id
  selected_canonical : ∀ s ∈ selected, role s.1.id = .canonical
  start_canonical : ∀ y ∈ start, role y.id = .canonical

/-- An entry under refresh was selected in this step of a pass, or was under refresh before it. -/
theorem entry?_refresh (w : World) (m : Moment) (e : Entry)
    (h : (w.step (.refresh m)).refresher.stage.entry? = some e) :
    w.refresher.stage.entry? = some e ∨ ∃ now, w.selects? (.refresh m) = some (e, now) := by
  obtain ⟨s, adds, r⟩ := w
  have hsteps := r.steps 0 m s
  simp only [World.step] at h
  generalize r.step 0 m s = out at hsteps h
  cases hsteps with
  | quiet stage stage' dirty dirty' report report' s' hquiet =>
    left
    cases hquiet <;> first | exact h | cases h
  | selected pre post x dirty report hsplit hdue hpre hselect =>
    obtain rfl := Option.some.inj h
    exact .inr ⟨m.now, by simp [selects?, hselect]⟩
  | exhausted dirty report =>
    revert h
    cases dirty || s.registry.hasPending <;> exact fun h => by cases h
  | minted x body => exact .inl h
  | writing x stagedId body wr => exact .inl h
  | recorded pre post x y stagedId body dirty report next hsplit hid hnext =>
    rcases hnext with ⟨rfl, -⟩ | ⟨old, rfl, -⟩ <;> cases h
  | orphaned x stagedId body => cases h
  | tidied file => cases h
  | committing c => cases h

/-- An entry under refresh was selected in this act, or was under refresh before it. -/
theorem entry?_step (w : World) (a : Act) (e : Entry)
    (h : (w.step a).refresher.stage.entry? = some e) :
    w.refresher.stage.entry? = some e ∨ ∃ now, w.selects? a = some (e, now) := by
  cases a with
  | call c => exact .inl h
  | add caller m =>
    cases hadd : w.adds[caller]? with
    | none =>
      simp only [World.step, hadd] at h
      exact .inl h
    | some q =>
      simp only [World.step, hadd] at h
      exact .inl h
  | delete url => exact .inl h
  | startPass =>
    simp only [World.step] at h
    split at h
    · cases h
    · exact .inl h
  | refresh m => exact w.entry?_refresh m e h

section

variable {start : List Entry} {selected : List (Entry × Instant)} {readings : List Instant}

/-- A selected entry is put off by a period, until a reading by which the period has passed. -/
theorem Passing.deadlines_step (h : w.Passing role start selected readings) (hs : w.Sound role n)
    (a : Act) (s : Entry × Instant) (hsel : s ∈ selected) (e' : Entry)
    (he' : e' ∈ (w.step a).entries) (hid : e'.id = s.1.id) :
    s.2.deadline w.system.period ≤ e'.nextUpdate ∨
      ∃ r ∈ readings ++ (w.reads? a).toList, s.2.deadline w.system.period ≤ r := by
  rcases hs.step_follows a e' he' with hnew | ⟨e, he, heid, -, hfollows⟩
  · rw [hid] at hnew
    exact absurd (h.selected_canonical s hsel) hnew
  · rcases h.deadlines s hsel e he (heid.trans hid) with hnext | ⟨r, hr, hpast⟩
    · cases hfollows with
      | same hsame => exact .inl (hsame ▸ hnext)
      | selected now hselects hreads hdue =>
        -- due again, so its deadline has passed by the reading that selects it
        exact .inr ⟨now, by simp [hreads], Instant.le_trans _ _ _ hnext hdue⟩
      | recorded x hentry hxid hle => exact .inl (Instant.le_trans _ _ _ hnext hle)
    · exact .inr ⟨r, by simp [hr], hpast⟩

/-- An entry that was not selected stays as it was at the start. -/
theorem Passing.waiting_step (h : w.Passing role start selected readings) (hs : w.Sound role n)
    (a : Act) (y : Entry) (hy : y ∈ start)
    (hno : ∀ s ∈ selected ++ (w.selects? a).toList, s.1.id ≠ y.id) (e' : Entry)
    (he' : e' ∈ (w.step a).entries) (hid : e'.id = y.id) :
    e'.enabled = y.enabled ∧ e'.nextUpdate = y.nextUpdate := by
  have hbefore : ∀ s ∈ selected, s.1.id ≠ y.id := fun s hsel => hno s (by simp [hsel])
  rcases hs.step_follows a e' he' with hnew | ⟨e, he, heid, henabled, hfollows⟩
  · rw [hid] at hnew
    exact absurd (h.start_canonical y hy) hnew
  · obtain ⟨hon, hnext⟩ := h.waiting y hy hbefore e he (heid.trans hid)
    refine ⟨henabled.symm.trans hon, ?_⟩
    cases hfollows with
    | same hsame => exact hsame.trans hnext
    | selected now hselects => exact absurd hid (hno (e', now) (by simp [hselects]))
    | recorded x hentry hxid =>
      -- only an entry under refresh is recorded, and that one was selected
      obtain ⟨s, hsel, hsid⟩ := h.underway x hentry
      exact absurd (hsid.trans (hxid.trans hid)) (hbefore s hsel)

/-- A step of a pass, or of anything else meanwhile. -/
theorem Passing.step (h : w.Passing role start selected readings) (hs : w.Sound role n) (a : Act)
    (role' : UInt64 → Role) (n' : Nat) (hs' : (w.step a).Sound role' n')
    (hlasts : ∀ x, (role x).Lasts → role' x = role x) :
    (w.step a).Passing role' start (selected ++ (w.selects? a).toList)
      (readings ++ (w.reads? a).toList) := by
  have hperiod : (w.step a).system.period = w.system.period :=
    congrArg Prod.snd (w.step_explained a).1
  have hkeep (id : UInt64) (hid : role id = .canonical) : role' id = .canonical := by
    rw [hlasts id (by rw [hid]; trivial), hid]
  refine ⟨?_, fun y hy hno e' he' hid => h.waiting_step hs a y hy hno e' he' hid, ?_, ?_,
    fun y hy => hkeep _ (h.start_canonical y hy)⟩
  · intro s hsel e' he' hid
    rw [hperiod]
    rcases List.mem_append.mp hsel with hsel | hsel
    · exact h.deadlines_step hs a s hsel e' he' hid
    · have hnow : w.selects? a = some (s.1, s.2) := by simpa using hsel
      obtain ⟨pre, x, post, -, hentries, hx, -⟩ := w.selects?_eq_some a s.1 s.2 hnow
      have hmem : s.1 ∈ (w.step a).entries := by simp [hentries]
      rw [hs'.table.eq_of_id e' s.1 he' hmem hid, hx]
      exact .inl (Instant.le_refl _)
  · intro e hentry
    rcases w.entry?_step a e hentry with hold | ⟨now, hselects⟩
    · obtain ⟨s, hsel, hid⟩ := h.underway e hold
      exact ⟨s, by simp [hsel], hid⟩
    · exact ⟨(e, now), by simp [hselects], rfl⟩
  · intro s hsel
    rcases List.mem_append.mp hsel with hsel | hsel
    · exact hkeep _ (h.selected_canonical s hsel)
    · have hnow : w.selects? a = some (s.1, s.2) := by simpa using hsel
      obtain ⟨pre, x, post, hsplit, -, hx, -⟩ := w.selects?_eq_some a s.1 s.2 hnow
      rw [hx]
      exact hkeep x.id (hs.table.canonical x (by simp [hsplit]))

/-- When a pass selects its first entry it has put off none. -/
theorem Sound.passing (hs : w.Sound role n) (hstage : w.refresher.stage = .select) :
    w.Passing role w.entries [] [] := by
  refine ⟨by simp, ?_, ?_, by simp, hs.table.canonical⟩
  · intro y hy _ e he hid
    rw [hs.table.eq_of_id e y he hy hid]
    exact ⟨rfl, rfl⟩
  · intro e hentry
    rw [hstage] at hentry
    cases hentry

end

end World

namespace Run

/-- A pass overtakes: it selects an entry once more, while another one that was due by its first
reading of the clock, and is still registered, was not selected yet. -/
structure Overtakes (k : Run) (acts : List Act) (m : Moment) (earlier again : Entry × Instant)
    (y : Entry) : Prop where
  selecting : k.world.refresher.stage = .select
  one_pass : ∀ a ∈ acts, a ≠ .startPass
  clock : (k.readings (acts ++ [.refresh m])).Pairwise (· ≤ ·)
  selected : earlier ∈ k.selections acts
  selected_again : (k.after acts).world.selects? (.refresh m) = some again
  same_id : earlier.1.id = again.1.id
  due : y ∈ k.world.entries ∧ ∃ first, (k.readings acts).head? = some first ∧ y.isDue first = true
  registered : ∃ z ∈ (k.after acts).world.entries, z.id = y.id
  waiting : ∀ s ∈ k.selections acts ++ [again], s.1.id ≠ y.id

theorem readings_concat (k : Run) (acts : List Act) (a : Act) :
    k.readings (acts ++ [a]) = k.readings acts ++ ((k.after acts).world.reads? a).toList := by
  induction acts generalizing k with
  | nil => simp [readings]
  | cons b acts ih =>
    rw [List.cons_append, readings, ih, readings, List.append_assoc]
    rfl

theorem selections_concat (k : Run) (acts : List Act) (a : Act) :
    k.selections (acts ++ [a]) = k.selections acts ++ ((k.after acts).world.selects? a).toList := by
  induction acts generalizing k with
  | nil => simp [selections]
  | cons b acts ih =>
    rw [List.cons_append, selections, ih, selections, List.append_assoc]
    rfl

theorem selections_eq_trace (k : Run) (acts : List Act) :
    k.selections acts = k.trace World.selects? acts := by
  induction acts generalizing k with
  | nil => rfl
  | cons a acts ih => exact congrArg _ (ih (k.step a))

theorem settings_after (k : Run) (acts : List Act) :
    (k.after acts).world.system.settings = k.world.system.settings := by
  induction acts generalizing k with
  | nil => rfl
  | cons a acts ih => exact (ih (k.step a)).trans (k.world.step_explained a).1

/-- A pass keeps what it is to keep, as far as it goes. -/
theorem passing_after (k : Run) (role : UInt64 → Role) (hs : k.world.Sound role k.past.minted)
    (start : List Entry) (selected : List (Entry × Instant)) (readings : List Instant)
    (h : k.world.Passing role start selected readings) (acts : List Act)
    (hm : (k.after acts).past.minted < IdSource.room) :
    ∃ role', (k.after acts).world.Sound role' (k.after acts).past.minted ∧
      (k.after acts).world.Passing role' start (selected ++ k.selections acts)
        (readings ++ k.readings acts) := by
  induction acts generalizing k role selected readings with
  | nil => exact ⟨role, hs, by simpa [selections, Run.readings] using h⟩
  | cons a acts ih =>
    have hfirst : (k.step a).past.minted < IdSource.room :=
      Nat.lt_of_le_of_lt ((k.step a).minted_le_after acts) hm
    obtain ⟨role', hs', hlasts⟩ := hs.step a hfirst
    have hstep := h.step hs a role' (k.step a).past.minted hs' hlasts
    obtain ⟨role'', hs'', hpassing⟩ := ih (k.step a) role' hs' _ _ hstep hm
    refine ⟨role'', hs'', ?_⟩
    rw [selections, Run.readings, ← List.append_assoc, ← List.append_assoc]
    exact hpassing

/-- In every run, a pass overtakes a waiting list only after a full period, counted from the earlier
selection, or at the end of the calendar, and only with a list that stands before it. -/
theorem overtakes_after_period (fetchable : String → Bool) (c : Config)
    (hc : c.fault? fetchable = none) (period : Span) (t : FileTree) (disks : UInt64 → Disk)
    (before acts : List Act)
    (hm : (((loaded c period t disks).after before).after acts).past.minted < IdSource.room)
    (m : Moment) (earlier again : Entry × Instant) (y : Entry)
    (h : ((loaded c period t disks).after before).Overtakes acts m earlier again y) :
    earlier.2.deadline period ≤ again.2 ∧
      ∃ pre x post z, (((loaded c period t disks).after before).after acts).world.entries =
          pre ++ x :: post ∧ x.id = again.1.id ∧ z ∈ post ∧ z.id = y.id := by
  have hfirst := minted_le_after ((loaded c period t disks).after before) acts
  obtain ⟨role, hs⟩ :=
    sound_after fetchable c hc period t disks before (Nat.lt_of_le_of_lt hfirst hm)
  have hsettings := (((loaded c period t disks).after before).settings_after acts).trans
    ((loaded c period t disks).settings_after before)
  have hperiod :
      (((loaded c period t disks).after before).after acts).world.system.period = period :=
    congrArg Prod.snd hsettings
  generalize (loaded c period t disks).after before = k at h hm hs hperiod ⊢
  obtain ⟨role', hs', hpassing⟩ :=
    k.passing_after role hs _ _ _ (hs.passing h.selecting) acts hm
  simp only [List.nil_append] at hpassing
  obtain ⟨pre, x, post, hsplit, -, hx, hdue, hpre, hreads⟩ :=
    (k.after acts).world.selects?_eq_some (.refresh m) again.1 again.2 h.selected_again
  have hid : x.id = again.1.id := by rw [hx]; rfl
  have hxdue : x.nextUpdate ≤ again.2 := ((x.isDue_iff again.2).mp hdue).2
  -- the clock goes on, so every reading of the pass is at most the last one
  have hclock : ∀ r ∈ k.readings acts, r ≤ again.2 := by
    have hpairs := h.clock
    rw [k.readings_concat, hreads, List.pairwise_append] at hpairs
    exact fun r hr => hpairs.2.2 r hr again.2 (by simp)
  constructor
  · have hdeadline := hpassing.deadlines earlier h.selected x (by simp [hsplit])
      (hid.trans h.same_id.symm)
    rw [hperiod] at hdeadline
    rcases hdeadline with hnext | ⟨r, hr, hpast⟩
    · exact Instant.le_trans _ _ _ hnext hxdue
    · exact Instant.le_trans _ _ _ hpast (hclock r hr)
  · obtain ⟨hy, first, hread, hydue⟩ := h.due
    obtain ⟨z, hz, hzid⟩ := h.registered
    obtain ⟨hon, hnext⟩ := hpassing.waiting y hy
      (fun s hsel => h.waiting s (by simp [hsel])) z hz hzid
    -- the waiting list is due by now, so it cannot stand before the one that is selected
    have hzdue : z.isDue again.2 = true := by
      obtain ⟨hyon, hyle⟩ := (y.isDue_iff first).mp hydue
      rw [z.isDue_iff, hon, hnext]
      exact ⟨hyon, Instant.le_trans _ _ _ hyle (hclock first (List.mem_of_head? hread))⟩
    refine ⟨pre, x, post, z, hsplit, hid, ?_, hzid⟩
    rw [World.entries] at hz hsplit
    rw [hsplit] at hz
    rcases List.mem_append.mp hz with hz | hz
    · have hno := hpre z hz
      rw [hzdue] at hno
      cases hno
    · rcases List.mem_cons.mp hz with rfl | hz
      · exact absurd (hid.symm.trans hzid) (h.waiting again (by simp))
      · exact hz

/-! ### A slow list -/

def refusedMoment : Moment := { Moment.calm with answer := .failure "timed out" }

def slowMoment : Moment :=
  { refusedMoment with now := Instant.epoch.deadline (.ofSeconds 1100) }

def slowEntry (now : Instant) : Entry :=
  (Entry.unread ⟨1, true, "ads", "http://a.example/"⟩).reserve now (.ofSeconds 10)

def slowRun : List Act := List.replicate 6 (.refresh refusedMoment)

def waitingEntry : Entry := .unread ⟨2, true, "trackers", "http://b.example/"⟩

theorem overtakes_slow :
    ((loaded .pair (.ofSeconds 10) .empty).after [.startPass]).Overtakes slowRun slowMoment
      (slowEntry refusedMoment.now, refusedMoment.now) (slowEntry slowMoment.now, slowMoment.now)
      waitingEntry where
  selecting := rfl
  one_pass := by
    intro a ha
    rw [List.eq_of_mem_replicate ha]
    simp
  clock := by decide +kernel
  selected := by decide +kernel
  selected_again := by decide +kernel
  same_id := rfl
  due := ⟨by decide +kernel, refusedMoment.now, by decide +kernel, by decide +kernel⟩
  registered := ⟨waitingEntry, by decide +kernel, rfl⟩
  waiting := by decide +kernel

/-- One pass can select a list twice before another one that was due when it began. -/
theorem overtakes_within_pass :
    0 < (Span.ofSeconds 10).nanos ∧ Config.pair.fault? (fun _ => true) = none ∧
      ((loaded .pair (.ofSeconds 10) .empty).after [.startPass]).Overtakes slowRun slowMoment
        (slowEntry refusedMoment.now, refusedMoment.now)
        (slowEntry slowMoment.now, slowMoment.now) waitingEntry :=
  ⟨by decide, by decide +kernel, overtakes_slow⟩

theorem overtakes_after_period_slow :
    Config.pair.fault? (fun _ => true) = none ∧
      (((loaded .pair (.ofSeconds 10) .empty).after [.startPass]).after slowRun).past.minted <
        IdSource.room ∧
      ((loaded .pair (.ofSeconds 10) .empty).after [.startPass]).Overtakes slowRun slowMoment
        (slowEntry refusedMoment.now, refusedMoment.now)
        (slowEntry slowMoment.now, slowMoment.now) waitingEntry ∧
      refusedMoment.now.deadline (.ofSeconds 10) ≤ slowMoment.now := by
  have hc : Config.pair.fault? (fun _ => true) = none := by decide +kernel
  have hm : (((loaded .pair (.ofSeconds 10) .empty).after [.startPass]).after
      slowRun).past.minted < IdSource.room := by
    decide +kernel
  exact ⟨hc, hm, overtakes_slow, (overtakes_after_period (fun _ => true) .pair hc (.ofSeconds 10)
    .empty .readsAll [.startPass] slowRun hm slowMoment _ _ _ overtakes_slow).1⟩

end Run
end ListKeeper
