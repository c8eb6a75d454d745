import ListKeeper.Proofs.Passes
import ListKeeper.Proofs.Updates

/-! What a whole pass comes to. A pass on its own, which takes less than a period, selects what is
due once, and what it makes of an entry follows from how the refresh and the renaming of that entry
ended. Main statement: `Run.pass_completes`. -/
namespace ListKeeper

/-- An entry with which a pass records nothing: it stays as it was, or its selection put off its
next update and nothing else. -/
inductive Entry.Unrecorded (period : Span) (l : Log) (e : Entry) : Entry → Prop
  | waiting (hsel : ∀ s ∈ l.selected, s.1.id ≠ e.id) : Unrecorded period l e e
  | reserved (now : Instant) (hsel : (e.reserve now period, now) ∈ l.selected)
      (hnot : ∀ c ∈ l.concluded, c.1.id = e.id →
        ∀ stagedId body stamp, c.2 ≠ .recorded stagedId body stamp) :
    Unrecorded period l e (e.reserve now period)

/-- Whether the renaming of a staged file to the file of a list was tried, with what success. -/
def Log.Renamed (l : Log) (id stagedId : UInt64) (succeeded : Bool) : Prop :=
  ∃ r ∈ l.renamed, r.id = id ∧ r.stagedId = stagedId ∧ r.succeeded = succeeded

/-- What a whole pass makes of an entry and its files. -/
inductive Entry.Passed (w₀ w : World) (l : Log) (e : Entry) : Entry → Prop
  | updated (now stamp : Instant) (stagedId : UInt64) (body : Bytes)
      (hsel : (e.reserve now w₀.system.period, now) ∈ l.selected)
      (hcon : (e.reserve now w₀.system.period, .recorded stagedId body stamp) ∈ l.concluded)
      (hrenamed : l.Renamed e.id stagedId true)
      (hfile : w₀.system.store.Holds (l.told = true) w.system.tree (.file e.id) body) :
    Passed w₀ w l e
      ((e.reserve now w₀.system.period).staged stagedId (Rules.recorded body) stamp).settled
  | unrenamed (now stamp : Instant) (stagedId : UInt64) (body : Bytes)
      (hsel : (e.reserve now w₀.system.period, now) ∈ l.selected)
      (hcon : (e.reserve now w₀.system.period, .recorded stagedId body stamp) ∈ l.concluded)
      (hrenamed : l.Renamed e.id stagedId false)
      (hfile : w₀.system.store.SameFile w₀.system.tree w.system.tree e.id)
      (hstaged : w₀.system.store.Holds (l.told = true) w.system.tree (.file stagedId) body) :
    Passed w₀ w l e ((e.reserve now w₀.system.period).staged stagedId (Rules.recorded body) stamp)
  | promoted (x : Entry) (p : UInt64) (hx : e.Unrecorded w₀.system.period l x)
      (hp : e.pending = some p) (hrenamed : l.Renamed e.id p true)
      (hfile : ∃ body, w₀.system.store.Has w₀.system.tree (.file p) body ∧
        w₀.system.store.Has w.system.tree (.file e.id) body) :
    Passed w₀ w l e x.settled
  | kept (x : Entry) (hx : e.Unrecorded w₀.system.period l x)
      (hfile : w₀.system.store.SameFile w₀.system.tree w.system.tree e.id)
      (hpending : ∀ p, e.pending = some p → l.Renamed e.id p false ∧
        w₀.system.store.SameFile w₀.system.tree w.system.tree p) :
    Passed w₀ w l e x

structure World.Passed (w₀ w : World) (l : Log) : Prop where
  ended : w.refresher.isIdle = true
  once : (l.selected.map (·.1.id)).Nodup
  selected : ∀ s ∈ l.selected,
    ∃ e ∈ w₀.entries, s.1 = e.reserve s.2 w₀.system.period ∧ e.isDue s.2 = true
  due : ∃ first, l.readings.head? = some first ∧
    ∀ e ∈ w₀.entries, e.isDue first = true → ∃ s ∈ l.selected, s.1.id = e.id
  finished : ∃ last, l.looked.getLast? = some last ∧ ∀ e ∈ w.entries, e.isDue last = false
  concluded : l.concluded.map (·.1) = l.selected.map (·.1)
  answered : l.answered.map (fun a => (a.1, a.2.content a.1.url)) =
    l.concluded.map fun c => (c.1, c.2.content)
  entries : List.Forall₂ (Entry.Passed w₀ w l) w₀.entries w.entries

/-- What a pass does by the clock, it does by one of its readings. -/
structure Log.Timely (l : Log) : Prop where
  looked : ∀ now ∈ l.looked, now ∈ l.readings
  selected : ∀ s ∈ l.selected, s.2 ∈ l.readings
  recorded : ∀ c ∈ l.concluded, ∀ stagedId body stamp, c.2 = .recorded stagedId body stamp →
    stamp ∈ l.readings

theorem Log.Timely.note {l : Log} (h : l.Timely) (w : World) (a : Act) : (l.note w a).Timely := by
  have hold (now : Instant) (hnow : now ∈ l.readings) : now ∈ (l.note w a).readings :=
    List.mem_append_left _ hnow
  have hnew (now : Instant) (hnow : w.reads? a = some now) : now ∈ (l.note w a).readings :=
    List.mem_append_right _ (by simp [hnow])
  refine ⟨?_, ?_, ?_⟩
  · intro now hnow
    rcases List.mem_append.mp hnow with hnow | hnow
    · exact hold now (h.looked now hnow)
    -- a pass looks for due entries by the reading that it takes in the same act
    · refine hnew now ?_
      rw [Option.mem_toList] at hnow
      revert hnow
      cases a with
      | refresh m =>
        cases hstage : w.refresher.stage <;> simp [World.looks?, World.reads?, hstage]
      | _ => simp [World.looks?]
  · intro s hs
    rcases List.mem_append.mp hs with hs | hs
    · exact hold s.2 (h.selected s hs)
    · rw [Option.mem_toList] at hs
      obtain ⟨pre, x, post, -, -, -, -, -, hreads⟩ := w.selects?_eq_some a s.1 s.2 hs
      exact hnew s.2 hreads
  · intro c hc stagedId body stamp hrec
    rcases List.mem_append.mp hc with hc | hc
    · exact hold stamp (h.recorded c hc stagedId body stamp hrec)
    -- only the act that records an entry ends its refresh with a time
    · refine hnew stamp ?_
      rw [Option.mem_toList] at hc
      revert hc
      cases a with
      | refresh m =>
        simp only [World.concludes?, World.reads?]
        split
        · rintro ⟨⟩
          cases hrec
        · rintro ⟨⟩
          cases hrec
        · rename_i hstage
          rintro ⟨⟩
          cases hrec
          rw [hstage]
        · exact fun hnone => by cases hnone
      | _ => exact fun hnone => by cases hnone

namespace World

variable {w₀ w w₁ : World} {l : Log}

/-- What a pass that is over made of an entry with which it recorded nothing. -/
theorem passed_of_unrecorded {e x e' : Entry} (hx : e.Unrecorded w₀.system.period l x)
    (hown : w₀.system.store.SameFile w₀.system.tree w₁.system.tree e.id)
    (hfile : ∀ p, e.pending = some p →
      w₀.system.store.SameFile w₀.system.tree w₁.system.tree p)
    (hstanding : x.Standing w₀.system.store w₁.system.tree w.system.tree .idle l.renamed e') :
    e.Passed w₀ w l e' := by
  have hid : x.id = e.id := by cases hx <;> rfl
  have hpending : x.pending = e.pending := by cases hx <;> rfl
  cases hstanding with
  | still hnone hsame =>
    rw [hpending] at hnone
    exact .kept x hx (hown.trans (hid ▸ hsame)) (by simp [hnone])
  | ahead p hp hahead => cases hahead
  | moved p rest report hp hstage => cases hstage
  | promoted p hp hmoved =>
    rw [hpending] at hp
    obtain ⟨⟨r, hr, hrid, hrp, hok, -⟩, -, body, hbody, hhas⟩ := hmoved
    rw [hid] at hrid hhas
    exact .promoted x p hx hp ⟨r, hr, hrid, hrp, hok⟩
      ⟨body, ((hfile p hp).has_iff body).mp hbody, hhas⟩
  | kept p hp hdone hlate hrefused =>
    rw [hpending] at hp
    obtain ⟨⟨r, hr, hrid, hrp, hno, -⟩, hsame, hstaged⟩ := hrefused
    rw [hid] at hrid hsame
    refine .kept x hx (hown.trans hsame) fun q hq => ?_
    obtain rfl : p = q := Option.some.inj (hp.symm.trans hq)
    exact ⟨⟨r, hr, hrid, hrp, hno⟩, (hfile p hp).trans hstaged⟩

/-- What a pass that is over made of an entry, by its turn and by its standing in the commit. -/
theorem passed_of_standing {e x e' : Entry} (h : w₀.Refreshing w₁ l) (he : e ∈ w₀.entries)
    (hturned : e.Turned w₀ w₁ l x)
    (hstanding : x.Standing w₀.system.store w₁.system.tree w.system.tree .idle l.renamed e') :
    e.Passed w₀ w l e' := by
  have hown := h.canonical e he
  cases hturned with
  | waiting hsel hfile => exact passed_of_unrecorded (.waiting hsel) hown hfile hstanding
  | reserved now hsel hnot hfile =>
    exact passed_of_unrecorded (.reserved now hsel hnot) hown hfile hstanding
  | recorded now stagedId body stamp hsel hcon hfile =>
    cases hstanding with
    | still hnone => cases hnone
    | ahead p hp hahead => cases hahead
    | moved p rest report hp hstage => cases hstage
    | promoted p hp hmoved =>
      obtain rfl : stagedId = p := Option.some.inj hp
      obtain ⟨⟨r, hr, hrid, hrp, hok, -⟩, -, body', hbody', hhas⟩ := hmoved
      refine .updated now stamp stagedId body hsel hcon ⟨r, hr, hrid, hrp, hok⟩ (hfile.move ?_)
      intro front hfront
      obtain rfl : front = body' := Store.eq_of_has hfront hbody'
      exact hhas
    | kept p hp hdone hlate hrefused =>
      obtain rfl : stagedId = p := Option.some.inj hp
      obtain ⟨⟨r, hr, hrid, hrp, hno, -⟩, hsame, hstaged⟩ := hrefused
      exact .unrenamed now stamp stagedId body hsel hcon ⟨r, hr, hrid, hrp, hno⟩
        (hown.trans hsame) (hstaged.holds hfile)

end World

namespace Run

def withTree (k : Run) (t : FileTree) : Run :=
  { k with world := { k.world with system := { k.world.system with tree := t } } }

/-- How the clock goes during a pass on its own that takes less than a period. It counts the seconds
that passed, so it never goes back and shows no leap second. -/
structure Clocked (k : Run) (ms : Nat → Moment) : Prop where
  ordered : ∀ n, (k.passLog ms n).readings.Pairwise (· ≤ ·)
  within : ∀ n, ∀ r ∈ (k.passLog ms n).readings, r < (ms 0).now.deadline k.world.system.period
  counted : ∀ n, ∀ r ∈ (k.passLog ms n).readings, r.inLeap = false

variable {k : Run} {ms : Nat → Moment} {n : Nat}

theorem passLog_timely (k : Run) (ms : Nat → Moment) (n : Nat) : (k.passLog ms n).Timely := by
  induction n with
  | zero => refine ⟨?_, ?_, ?_⟩ <;> simp [passLog, Log.empty]
  | succ n ih => exact ih.note (k.pass ms n).world (.refresh (ms n))

theorem passLog_told (htold : ∀ n, (ms n).disk.hides = false) (n : Nat) :
    (k.passLog ms n).told = true := by
  induction n with
  | zero => rfl
  | succ n ih => simp [passLog, Log.note, ih, Act.hides, htold n]

/-- A pass begins with a look at the clock. -/
theorem passLog_readings (hidle : k.world.refresher.isIdle = true) (ms : Nat → Moment) (n : Nat) :
    ∃ rest, (k.passLog ms (n + 1)).readings = (ms 0).now :: rest := by
  induction n with
  | zero =>
    have hstage : (k.pass ms 0).world.refresher.stage = .select := by
      simp only [pass, step, World.step, hidle, ↓reduceIte, Refresher.startPass]
    exact ⟨[], by simp [passLog, Log.note, Log.empty, World.reads?, hstage]⟩
  | succ n ih =>
    obtain ⟨rest, hrest⟩ := ih
    exact ⟨_, by rw [passLog, Log.note, hrest, List.cons_append]⟩

theorem now_mem_readings (k : Run) (ms : Nat → Moment) (n : Nat)
    (hselect : (k.pass ms n).world.refresher.stage = .select) :
    (ms n).now ∈ (k.passLog ms (n + 1)).readings := by
  simp [passLog, Log.note, World.reads?, hselect]

/-- While the clock stands still, nothing that was selected comes to be due again. -/
theorem brief_of_still (now : Instant) (hstill : ∀ n, ∀ r ∈ (k.passLog ms n).readings, r = now)
    (hlater : now < now.deadline k.world.system.period) (n : Nat)
    (hselect : (k.pass ms n).world.refresher.stage = .select) (s : Entry × Instant)
    (hs : s ∈ (k.passLog ms n).selected) :
    (ms n).now < s.2.deadline k.world.system.period := by
  have hsread : s.2 ∈ (k.passLog ms n).readings := (k.passLog_timely ms n).selected s hs
  rw [hstill (n + 1) _ (k.now_mem_readings ms n hselect), hstill n _ hsread]
  exact hlater

theorem Clocked.first_le (h : k.Clocked ms) (hidle : k.world.refresher.isIdle = true) (r : Instant)
    (hr : r ∈ (k.passLog ms n).readings) :
    (ms 0).now ∈ (k.passLog ms n).readings ∧ (ms 0).now ≤ r := by
  have hordered := h.ordered n
  cases n with
  | zero => simp [passLog, Log.empty] at hr
  | succ n =>
    obtain ⟨rest, hrest⟩ := passLog_readings hidle ms n
    rw [hrest] at hordered hr ⊢
    refine ⟨by simp, ?_⟩
    rcases List.mem_cons.mp hr with heq | hmem
    · rw [heq]
      exact Instant.le_refl _
    · exact List.rel_of_pairwise_cons hordered hmem

/-- What a pass that is over came to, where the clock did not go back behind its first reading. -/
theorem Midway.passed (h : k.Midway ms n)
    (hfirst : ∀ r ∈ (k.passLog ms n).readings, (ms 0).now ≤ r)
    (hidle : k.world.refresher.isIdle = true)
    (hover : (k.pass ms n).world.refresher.isIdle = true) :
    k.world.Passed (k.pass ms n).world (k.passLog ms n) := by
  have hstage := (Refresher.isIdle_iff _).mp hover
  cases h.pass with
  | refreshing hrefresh hon =>
    rw [hstage] at hon
    cases hon
  | promoting w₁ now hrefresh hend hlast hnone hcommit =>
    have hconcluded := hrefresh.concluded
    have hanswered := hrefresh.answered
    have hlooked := List.mem_of_getLast? hlast
    have htimely := k.passLog_timely ms n
    refine ⟨hover, hrefresh.once, hrefresh.selected, ?due, ⟨now, hlast, ?finished⟩, ?concluded,
      ?answered, ?entries⟩
    case due =>
      cases n with
      | zero => simp [passLog, Log.empty] at hlast
      | succ n =>
        obtain ⟨rest, hrest⟩ := passLog_readings hidle ms n
        refine ⟨(ms 0).now, by simp [hrest], fun e he hdue => ?_⟩
        obtain ⟨e₁, he₁, hturned⟩ := exists_right_of_forall₂ hrefresh.entries e he
        cases hturned with
        | waiting hsel =>
          -- it would still be due at the last reading
          obtain ⟨hon, hle⟩ := (e.isDue_iff _).mp hdue
          have hlater := hfirst now (htimely.looked now hlooked)
          have hstill := (e.isDue_iff now).mpr ⟨hon, Instant.le_trans _ _ _ hle hlater⟩
          rw [hnone e he₁] at hstill
          cases hstill
        | reserved r hsel => exact ⟨_, hsel, rfl⟩
        | recorded r stagedId body stamp hsel => exact ⟨_, hsel, rfl⟩
    case finished =>
      intro e' he'
      obtain ⟨e₁, he₁, hstanding⟩ := exists_left_of_forall₂ hcommit.entries e' he'
      have hno := hnone e₁ he₁
      cases hstanding <;> exact hno
    case concluded =>
      rw [hconcluded, hend]
      simp [Stage.entry?]
    case answered =>
      rw [hanswered, hend]
      simp [Stage.got?]
    case entries =>
      have hentries := hcommit.entries
      rw [hstage, hrefresh.store] at hentries
      refine List.forall₂_iff_get.mpr ⟨hrefresh.entries.length_eq.trans hentries.length_eq, ?_⟩
      intro i hi hi'
      have hi₁ : i < w₁.entries.length := hrefresh.entries.length_eq ▸ hi
      exact World.passed_of_standing hrefresh (List.get_mem _ _)
        (hrefresh.entries.get hi hi₁) (hentries.get hi₁ hi')

theorem loaded_queued (c : Config) (period : Span) (t : FileTree) (disks : UInt64 → Disk) :
    (loaded c period t disks).world.Queued := by
  refine ⟨List.nodup_nil, fun ticket => ?_⟩
  cases ticket <;>
    simp [loaded, System.fresh, System.load, World.waits, Refresher.fresh, Stage.waits]

def brokenMoment : Moment := { Moment.calm with disk := ⟨some ⟨.busy, true⟩, 0, .epoch⟩ }

/-- A pass that stages the first list, and whose commit fails. -/
def strandedFirst : List Act := stagedFirst ++ List.replicate 20 (.refresh brokenMoment)

/-- The moment of the next pass, in which both lists are due. -/
def laterMoment : Moment := { Moment.calm with now := Instant.epoch.deadline (.ofSeconds 1020) }

/-- Between the two passes, with the staged file of the first list in place. -/
def strandedRun : Run :=
  ((loaded .pair (.ofSeconds 10) .withLists).after strandedFirst).withTree
    ((loaded .pair (.ofSeconds 10) .withLists).after strandedFirst).world.system.tree

theorem strandedRun_resting : strandedRun.Resting := by
  have hadds : strandedRun.world.adds = [] := by rfl
  exact ⟨by decide +kernel, by simp [hadds]⟩

end Run
end ListKeeper
