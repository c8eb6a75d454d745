import ListKeeper.Proofs.Completion

/-! What one list sees of the others. In a pass during which the clock stands still, what becomes of
a list and its files is a function of what they were, of the answer to its own request, and of
whether its own renaming goes. Main statements: `Run.Midway.view_committed`, and `Run.passes_agree`
for two passes in which the other lists are answered differently. -/
namespace ListKeeper

/-- What can be seen of a list: what its entry says, but for the id of the staged file, the content
of its own file and, where it waits for a commit, that of the staged one. -/
structure View where
  list : Entry
  content : Except IoError Bytes
  staged : Option (Except IoError Bytes)

def Entry.view (s : Store) (t : FileTree) (e : Entry) : View where
  list := e.settled
  content := (s.load t e.id).map Prod.fst
  staged := e.pending.map fun p => (s.load t p).map Prod.fst

def World.view (w : World) (e : Entry) : View := e.view w.system.store w.system.tree

namespace View

/-- The view after the turn of a list in a pass, by what a request for it brings. -/
def turned (v : View) (now : Instant) (period : Span) (got : Except FetchError Bytes) : View :=
  if v.list.isDue now then
    match got with
    | .ok body =>
      { v with
        list := ((v.list.reserve now period).staged 0 (Rules.recorded body) now).settled
        staged := some (.ok body) }
    | .error _ => { v with list := v.list.reserve now period }
  else v

/-- The view after a commit, by whether the staged file can be renamed. -/
def committed (v : View) (goes : Bool) : View :=
  match v.staged with
  | some content => if goes then { v with content := content, staged := none } else v
  | none => v

end View

theorem Store.load_of_has {s : Store} {t : FileTree} {id : UInt64} {body : Bytes}
    (h : s.Has t (.file id) body) : (s.load t id).map Prod.fst = .ok body := by
  obtain ⟨modified, hread⟩ := h
  have hload : s.load t id = .ok (body, modified) := hread
  rw [hload]
  rfl

def Outcome.stored : Outcome → Bool
  | .unwritten _ _ => false
  | _ => true

/-- What a pass did while the clock stood still, a transport answered, and every write succeeded. -/
structure Log.Still (l : Log) (now : Instant) (transport : String → Answer) : Prop where
  readings : ∀ r ∈ l.readings, r = now
  answered : ∀ a ∈ l.answered, a.2 = transport a.1.url
  stored : ∀ c ∈ l.concluded, c.2.stored = true

structure Log.Within (l l' : Log) : Prop where
  readings : ∀ r ∈ l.readings, r ∈ l'.readings
  answered : ∀ a ∈ l.answered, a ∈ l'.answered
  concluded : ∀ c ∈ l.concluded, c ∈ l'.concluded
  renamed : ∀ r ∈ l.renamed, r ∈ l'.renamed

namespace Log.Within

variable {l l' l'' : Log}

theorem refl (l : Log) : l.Within l := ⟨fun _ h => h, fun _ h => h, fun _ h => h, fun _ h => h⟩

theorem trans (h : l.Within l') (h' : l'.Within l'') : l.Within l'' where
  readings r hr := h'.readings r (h.readings r hr)
  answered a ha := h'.answered a (h.answered a ha)
  concluded c hc := h'.concluded c (h.concluded c hc)
  renamed r hr := h'.renamed r (h.renamed r hr)

theorem note (l : Log) (w : World) (a : Act) : l.Within (l.note w a) where
  readings _ hr := List.mem_append_left _ hr
  answered _ ha := List.mem_append_left _ ha
  concluded _ hc := List.mem_append_left _ hc
  renamed _ hr := List.mem_append_left _ hr

end Log.Within

namespace World

variable {w₀ w w₁ : World} {l : Log} {now : Instant} {transport : String → Answer}

/-- How the refresh of an entry ended follows from an answer to its request. -/
theorem Refreshing.answer (h : w₀.Refreshing w₁ l) (hend : w₁.refresher.stage = .select)
    (c : Entry × Outcome) (hc : c ∈ l.concluded) :
    ∃ answer, (c.1, answer) ∈ l.answered ∧ answer.content c.1.url = c.2.content := by
  have hanswered := h.answered
  rw [hend] at hanswered
  have hmem : (c.1, c.2.content) ∈ l.answered.map (fun a => (a.1, a.2.content a.1.url)) := by
    rw [hanswered]
    exact List.mem_append_left _ (List.mem_map.mpr ⟨c, hc, rfl⟩)
  obtain ⟨a, ha, heq⟩ := List.mem_map.mp hmem
  obtain ⟨hentry, hcontent⟩ := Prod.mk.inj heq
  refine ⟨a.2, ?_, ?_⟩
  · rw [← hentry]
    exact ha
  · rw [← hentry]
    exact hcontent

/-- What is selected was due. -/
theorem Refreshing.due (h : w₀.Refreshing w₁ l) (hids : (w₀.entries.map (·.id)).Nodup) (e : Entry)
    (he : e ∈ w₀.entries) (r : Instant) (hsel : (e.reserve r w₀.system.period, r) ∈ l.selected) :
    e.isDue r = true := by
  obtain ⟨e₀, he₀, heq, hdue⟩ := h.selected _ hsel
  have hid : e.id = e₀.id := by
    change (e.reserve r w₀.system.period).id = e₀.id
    rw [show e.reserve r w₀.system.period = _ from heq]
    rfl
  obtain rfl : e = e₀ := List.inj_on_of_nodup_map hids he he₀ hid
  exact hdue

/-- The turn of an entry shows as it should. -/
theorem Refreshing.view_turned (h : w₀.Refreshing w₁ l) (hend : w₁.refresher.stage = .select)
    (htimely : l.Timely) (hstill : l.Still now transport)
    (hnone : ∀ e ∈ w₁.entries, e.isDue now = false) (hids : (w₀.entries.map (·.id)).Nodup)
    (htold : l.told = true) (e x : Entry) (he : e ∈ w₀.entries) (hx : x ∈ w₁.entries)
    (hturned : e.Turned w₀ w₁ l x) :
    x.view w₀.system.store w₁.system.tree =
      (w₀.view e).turned now w₀.system.period ((transport e.url).content e.url) := by
  have hown : w₀.system.store.load w₁.system.tree e.id = w₀.system.store.load w₀.system.tree e.id :=
    (h.canonical e he).load
  have hpending (hfile : ∀ p, e.pending = some p →
      w₀.system.store.SameFile w₀.system.tree w₁.system.tree p) :
      e.pending.map (fun p => (w₀.system.store.load w₁.system.tree p).map Prod.fst) =
        e.pending.map (fun p => (w₀.system.store.load w₀.system.tree p).map Prod.fst) := by
    cases hp : e.pending with
    | none => rfl
    | some p => rw [Option.map_some, Option.map_some, (hfile p hp).load]
  have hlist (now : Instant) : e.settled.isDue now = e.isDue now := rfl
  cases hturned with
  | waiting hsel hfile =>
    have hno := hnone e hx
    simp only [View.turned, World.view, Entry.view, hlist, hno, hown, hpending hfile,
      Bool.false_eq_true, ↓reduceIte]
  | reserved r hsel hnot hfile =>
    obtain rfl : r = now := hstill.readings r (htimely.selected _ hsel)
    have hdue := h.due hids e he r hsel
    -- its refresh ended without a record, and no write failed
    have hmem : e.reserve r w₀.system.period ∈ l.concluded.map (·.1) := by
      have hconcluded := h.concluded
      rw [hend] at hconcluded
      simp only [Stage.entry?, Option.toList_none, List.append_nil] at hconcluded
      rw [← hconcluded]
      exact List.mem_map.mpr ⟨_, hsel, rfl⟩
    obtain ⟨⟨x, outcome⟩, hc, rfl⟩ := List.mem_map.mp hmem
    obtain ⟨answer, hanswer, hcontent⟩ := h.answer hend _ hc
    have htransport : answer = transport e.url := hstill.answered _ hanswer
    have hurl : answer.content e.url = outcome.content := hcontent
    rw [htransport] at hurl
    cases outcome with
    | refused cause =>
      simp only [Outcome.content] at hurl
      simp only [View.turned, World.view, Entry.view, hlist, hdue, hurl, ↓reduceIte]
      simp only [Entry.reserve, Entry.settled, hown, hpending hfile]
    | unwritten body cause => exact absurd (hstill.stored _ hc) (by simp [Outcome.stored])
    | recorded stagedId body stamp => exact absurd rfl (hnot _ hc rfl stagedId body stamp)
  | recorded r stagedId body stamp hsel hcon hfile =>
    obtain rfl : r = now := hstill.readings r (htimely.selected _ hsel)
    obtain rfl : stamp = r :=
      hstill.readings stamp (htimely.recorded _ hcon stagedId body stamp rfl)
    have hdue := h.due hids e he stamp hsel
    obtain ⟨answer, hanswer, hcontent⟩ := h.answer hend _ hcon
    have htransport : answer = transport e.url := hstill.answered _ hanswer
    have hurl : answer.content e.url = .ok body := hcontent
    rw [htransport] at hurl
    simp only [View.turned, World.view, Entry.view, hlist, hdue, hurl, ↓reduceIte]
    simp only [Entry.reserve, Entry.staged, Entry.settled, hown, Option.map_some,
      Store.load_of_has (hfile.all htold)]
    rfl

end World

/-- The end of a commit shows as it should. -/
theorem Entry.Standing.view_committed {s : Store} {t₁ t : FileTree} {renamed : List Renaming}
    {e e' : Entry} (h : e.Standing s t₁ t .idle renamed e')
    (hhas : ∀ p, e.pending = some p → ∃ body, s.Has t₁ (.file p) body) (fault : Option Fault)
    (hfault : ∀ r ∈ renamed, r.id = e.id → r.fault = fault) (goes : Bool)
    (hgoes : goes = true ↔ fault = none ∧ s.Admits t₁ (.file e.id)) :
    e'.view s t = (e.view s t₁).committed goes := by
  cases h with
  | still hnone hfile => simp [View.committed, Entry.view, hnone, hfile.load]
  | ahead p hp hahead => cases hahead
  | moved p rest report hp hstage => cases hstage
  | promoted p hp hmoved =>
    obtain ⟨⟨r, hr, hrid, -, -, hnofault⟩, hadmits, body, hbody, hheld⟩ := hmoved
    have hgo : goes = true := hgoes.mpr ⟨(hfault r hr hrid).symm.trans hnofault, hadmits⟩
    have hfrom := Store.load_of_has hbody
    have hto : (s.load t e.settled.id).map Prod.fst = .ok body := Store.load_of_has hheld
    simp only [View.committed, Entry.view, hp, hgo, hfrom, hto, Option.map_some, ↓reduceIte]
    rfl
  | kept p hp hdone hlate hrefused =>
    obtain ⟨⟨r, hr, hrid, -, -, hwhy⟩, hfile, hstaged⟩ := hrefused
    have hstay : goes = false := by
      rw [← Bool.not_eq_true, hgoes]
      rintro ⟨hnofault, hadmits⟩
      exact hwhy ((hfault r hr hrid).trans hnofault) ⟨hadmits, hhas p hp⟩
    simp [View.committed, Entry.view, hp, hstay, hfile.load, hstaged.load]

/-- Where no pass is under way, the staged file of an entry can be read. -/
theorem World.Filled.has_pending {whole : Prop} {w : World} {p : Past} (h : w.Filled whole p)
    (hidle : w.refresher.stage = .idle) (e : Entry) (he : e ∈ w.entries) (q : UInt64)
    (hq : e.pending = some q) : ∃ body, w.system.store.Has w.system.tree (.file q) body := by
  obtain ⟨hheld, hdown⟩ := h.entries e he
  obtain ⟨body, hlatest, -⟩ := hdown q hq
  obtain ⟨hholds, -⟩ := hheld body hlatest
  obtain ⟨front, hhas⟩ := hholds.has
  rw [hidle] at hhas
  have hplace : e.place (Stage.promoting? .idle) = q := by simp [Entry.place, Stage.promoting?, hq]
  exact ⟨front, hplace ▸ hhas⟩

namespace Run

variable {k : Run} {ms : Nat → Moment} {n : Nat} {now : Instant} {transport : String → Answer}
variable {id : UInt64} {fault : Option Fault}

/-- In a pass during which the clock stands still, what becomes of a list is a function of what it
was, of the answer to its own request, and of whether its own renaming goes. -/
theorem Midway.view_committed (h : k.Midway ms n) (hids : (k.world.entries.map (·.id)).Nodup)
    (hstill : (k.passLog ms n).Still now transport) (htold : (k.passLog ms n).told = true)
    (hover : (k.pass ms n).world.refresher.isIdle = true) (e : Entry) (he : e ∈ k.world.entries)
    (hhas : ∀ p, e.pending = some p →
      ∃ body, k.world.system.store.Has k.world.system.tree (.file p) body)
    (fault : Option Fault)
    (hfault : ∀ r ∈ (k.passLog ms n).renamed, r.id = e.id → r.fault = fault) (goes : Bool)
    (hgoes : goes = true ↔
      fault = none ∧ k.world.system.store.Admits k.world.system.tree (.file e.id)) :
    ∃ e' ∈ (k.pass ms n).world.entries, e'.id = e.id ∧
      (k.pass ms n).world.view e' =
        ((k.world.view e).turned now k.world.system.period
          ((transport e.url).content e.url)).committed goes := by
  have hidle := (Refresher.isIdle_iff _).mp hover
  cases h.pass with
  | refreshing hrefresh hon =>
    rw [hidle] at hon
    cases hon
  | promoting w₁ last hrefresh hend hlast hnone hcommit =>
    have htimely := k.passLog_timely ms n
    obtain rfl : last = now :=
      hstill.readings last (htimely.looked last (List.mem_of_getLast? hlast))
    have hentries := hcommit.entries
    have hstore : (k.pass ms n).world.system.store = w₁.system.store :=
      congrArg Prod.fst hcommit.settings
    rw [hidle] at hentries
    obtain ⟨x, hx, hturned⟩ := exists_right_of_forall₂ hrefresh.entries e he
    obtain ⟨e', he', hstanding⟩ := exists_right_of_forall₂ hentries x hx
    have hturn := hrefresh.view_turned hend htimely hstill hnone hids htold e x he hx hturned
    have hid := hturned.id_eq
    rw [hrefresh.store] at hstanding
    refine ⟨e', he', hstanding.id_eq.trans hid, ?_⟩
    rw [World.view, hstore, hrefresh.store, ← hturn]
    refine hstanding.view_committed ?_ fault (fun r hr hrid => hfault r hr (hrid.trans hid)) goes ?_
    -- the staged file is there: it was before the pass, or the pass wrote it
    · intro p hp
      cases hturned with
      | waiting hsel hfile =>
        obtain ⟨body, hbody⟩ := hhas p hp
        exact ⟨body, ((hfile p hp).has_iff body).mpr hbody⟩
      | reserved r hsel hnot hfile =>
        obtain ⟨body, hbody⟩ := hhas p hp
        exact ⟨body, ((hfile p hp).has_iff body).mpr hbody⟩
      | recorded r stagedId body stamp hsel hcon hfile =>
        obtain rfl : stagedId = p := Option.some.inj hp
        exact hfile.has
    · rw [hgoes, hid, Store.admits_congr hrefresh.sameOpen (hrefresh.canonical e he)]

/-- What a pass on its own meets: the clock stands still, a transport answers, every write succeeds
and is not cut short, and the disk treats the renamings to the file of one list alike. -/
structure Held (k : Run) (ms : Nat → Moment) (now : Instant) (transport : String → Answer)
    (id : UInt64) (fault : Option Fault) : Prop where
  still : ∀ n, (k.passLog ms n).Still now transport
  told : ∀ n, (ms n).disk.hides = false
  renamed : ∀ n, ∀ r ∈ (k.passLog ms n).renamed, r.id = id → r.fault = fault

/-- A pass during which the clock stands still comes to an end. -/
theorem Held.over (h : k.Held ms now transport id fault) (hready : k.Ready)
    (hperiod : 0 < k.world.system.period.nanos) (hnow : now < .latest) :
    (∀ n, k.Midway ms n) ∧ ∃ n, (k.pass ms n).world.refresher.isIdle = true := by
  have hbrief := brief_of_still now (fun n => (h.still n).readings)
    (now.lt_deadline k.world.system.period hperiod hnow)
  exact ⟨midway hready hbrief, pass_over hready hbrief⟩

/-- Failures of one list never influence another. In two passes from one state between passes, the
clock standing still at the same time, with answers that differ for the other lists as they may, a
list comes to look the same, and so do its files. -/
theorem passes_agree (fetchable : String → Bool) (c : Config) (hc : c.fault? fetchable = none)
    (period : Span) (hperiod : 0 < period.nanos) (t : FileTree) (disks : UInt64 → Disk)
    (acts : List Act) (k : Run) (hk : k = (loaded c period t disks).after acts)
    (hrest : k.Resting) (hroom : k.past.minted + k.world.entries.length < IdSource.room)
    (b : Entry) (hb : b ∈ k.world.entries) (now : Instant) (hnow : now < .latest)
    (fault : Option Fault) (transport₁ transport₂ : String → Answer)
    (hagree : transport₁ b.url = transport₂ b.url)
    (ms₁ ms₂ : Nat → Moment) (h₁ : k.Held ms₁ now transport₁ b.id fault)
    (h₂ : k.Held ms₂ now transport₂ b.id fault) :
    ∃ n₁ n₂, (k.pass ms₁ n₁).world.refresher.isIdle = true ∧
      (k.pass ms₂ n₂).world.refresher.isIdle = true ∧
      ∃ b₁ ∈ (k.pass ms₁ n₁).world.entries, ∃ b₂ ∈ (k.pass ms₂ n₂).world.entries,
        b₁.id = b.id ∧ b₂.id = b.id ∧
          (k.pass ms₁ n₁).world.view b₁ = (k.pass ms₂ n₂).world.view b₂ := by
  have hspan : k.world.system.period = period := by
    rw [hk]
    exact congrArg Prod.snd ((loaded c period t disks).settings_after acts)
  have hidle := (Refresher.isIdle_iff _).mp hrest.idle
  obtain ⟨role, hsound, hfilled⟩ : ∃ role, k.world.Sound role k.past.minted ∧
      k.world.Filled False k.past := by
    subst hk
    exact filled_after fetchable c hc period t disks acts False.elim
      (Nat.lt_of_le_of_lt (Nat.le_add_right _ _) hroom)
  have hhas := hfilled.has_pending hidle
  have hready : k.Ready := by
    refine ⟨hrest, ⟨role, hsound⟩, hfilled.plain, ?_, ?_, hroom⟩
    · rw [hk]
      exact queued_after _ (loaded_queued c period t disks) acts
    · intro e he p hp
      obtain ⟨body, hbody⟩ := hhas e he p hp
      exact hbody.isDirectory
  obtain ⟨hmid₁, n₁, hover₁⟩ := h₁.over hready (hspan ▸ hperiod) hnow
  obtain ⟨hmid₂, n₂, hover₂⟩ := h₂.over hready (hspan ▸ hperiod) hnow
  -- whether the staged file of the list can be renamed is settled before either pass
  obtain ⟨goes, hgoes⟩ : ∃ goes : Bool, goes = true ↔
      fault = none ∧ k.world.system.store.Admits k.world.system.tree (.file b.id) := by
    classical exact ⟨decide _, decide_eq_true_iff⟩
  obtain ⟨b₁, hb₁, hid₁, hview₁⟩ := (hmid₁ n₁).view_committed hsound.table.ids (h₁.still n₁)
    (passLog_told h₁.told n₁) hover₁ b hb (hhas b hb) fault (h₁.renamed n₁) goes hgoes
  obtain ⟨b₂, hb₂, hid₂, hview₂⟩ := (hmid₂ n₂).view_committed hsound.table.ids (h₂.still n₂)
    (passLog_told h₂.told n₂) hover₂ b hb (hhas b hb) fault (h₂.renamed n₂) goes hgoes
  refine ⟨n₁, n₂, hover₁, hover₂, b₁, hb₁, b₂, hb₂, hid₁, hid₂, ?_⟩
  rw [hview₁, hview₂, hagree]

/-! ### Two lists, of which one fails -/

theorem passLog_mono (k : Run) (ms : Nat → Moment) (n j : Nat) :
    (k.passLog ms n).Within (k.passLog ms (n + j)) := by
  induction j with
  | zero => exact .refl _
  | succ j ih => exact ih.trans (.note _ _ _)

/-- A pass that is over does nothing. -/
theorem note_within_of_idle (l : Log) (w : World) (m : Moment) (h : w.refresher.stage = .idle) :
    (l.note w (.refresh m)).Within l := by
  refine ⟨?_, ?_, ?_, ?_⟩ <;>
    simp [Log.note, World.reads?, World.answers?, World.concludes?, World.renames?, h]

theorem passLog_of_over (hover : (k.pass ms n).world.refresher.isIdle = true) (j : Nat) :
    (k.pass ms (n + j)).world.refresher.isIdle = true ∧
      (k.passLog ms (n + j)).Within (k.passLog ms n) := by
  induction j with
  | zero => exact ⟨hover, .refl _⟩
  | succ j ih =>
    obtain ⟨hidle, hlog⟩ := ih
    have hstage := (Refresher.isIdle_iff _).mp hidle
    refine ⟨?_, (note_within_of_idle _ _ (ms (n + j)) hstage).trans hlog⟩
    rw [Refresher.isIdle_iff]
    simp [pass, step, World.step, Refresher.step, hstage]

/-- What a pass meets is what it has met by its end. -/
theorem held_of_over (hover : (k.pass ms n).world.refresher.isIdle = true)
    (hstill : (k.passLog ms n).Still now transport) (htold : ∀ n, (ms n).disk.hides = false)
    (hrenamed : ∀ r ∈ (k.passLog ms n).renamed, r.id = id → r.fault = fault) :
    k.Held ms now transport id fault := by
  have hwithin (m : Nat) : (k.passLog ms m).Within (k.passLog ms n) := by
    rcases Nat.le_total m n with hle | hle
    · obtain ⟨j, rfl⟩ := Nat.exists_eq_add_of_le hle
      exact k.passLog_mono ms m j
    · obtain ⟨j, rfl⟩ := Nat.exists_eq_add_of_le hle
      exact (passLog_of_over hover j).2
  refine ⟨fun m => ⟨?_, ?_, ?_⟩, htold, fun m r hr => hrenamed r ((hwithin m).renamed r hr)⟩
  · exact fun r hr => hstill.readings r ((hwithin m).readings r hr)
  · exact fun a ha => hstill.answered a ((hwithin m).answered a ha)
  · exact fun c hc => hstill.stored c ((hwithin m).concluded c hc)

def pairRun : Run := loaded .pair (.ofSeconds 10) .withLists

def secondEntry : Entry := .unread ⟨2, true, "trackers", "http://b.example/"⟩

/-- The first list is answered in one way or another, the second one with one rule. -/
def firstAnswered (answer : Answer) (url : String) : Answer :=
  if url = "http://a.example/" then answer else .response 200 [0x61]

/-- The moments of a pass in which the first list, which is asked for in the fourth step, is
answered so. -/
def firstMoments (answer : Answer) (n : Nat) : Moment :=
  if n = 3 then { Moment.calm with answer := answer } else .calm

theorem firstMoments_told (answer : Answer) (n : Nat) :
    (firstMoments answer n).disk.hides = false := by
  unfold firstMoments
  split <;> rfl

theorem held_timedOut : pairRun.Held (firstMoments (.failure "timed out")) Moment.calm.now
    (firstAnswered (.failure "timed out")) secondEntry.id none := by
  have hover :
      (pairRun.pass (firstMoments (.failure "timed out")) 28).world.refresher.isIdle = true := by
    decide +kernel
  exact held_of_over hover ⟨by decide +kernel, by decide +kernel, by decide +kernel⟩
    (firstMoments_told _) (by decide +kernel)

theorem held_notFound : pairRun.Held (firstMoments (.response 404 [])) Moment.calm.now
    (firstAnswered (.response 404 [])) secondEntry.id none := by
  have hover :
      (pairRun.pass (firstMoments (.response 404 [])) 28).world.refresher.isIdle = true := by
    decide +kernel
  exact held_of_over hover ⟨by decide +kernel, by decide +kernel, by decide +kernel⟩
    (firstMoments_told _) (by decide +kernel)

theorem passes_agree_firstFails :
    Config.pair.fault? (fun _ => true) = none ∧ 0 < (Span.ofSeconds 10).nanos ∧ pairRun.Resting ∧
      pairRun.past.minted + pairRun.world.entries.length < IdSource.room ∧
      secondEntry ∈ pairRun.world.entries ∧ Moment.calm.now < .latest ∧
      firstAnswered (.failure "timed out") secondEntry.url =
        firstAnswered (.response 404 []) secondEntry.url ∧
      ∃ n₁ n₂,
        (pairRun.pass (firstMoments (.failure "timed out")) n₁).world.refresher.isIdle = true ∧
        (pairRun.pass (firstMoments (.response 404 [])) n₂).world.refresher.isIdle = true ∧
        ∃ b₁ ∈ (pairRun.pass (firstMoments (.failure "timed out")) n₁).world.entries,
          ∃ b₂ ∈ (pairRun.pass (firstMoments (.response 404 [])) n₂).world.entries,
            b₁.id = secondEntry.id ∧ b₂.id = secondEntry.id ∧
              (pairRun.pass (firstMoments (.failure "timed out")) n₁).world.view b₁ =
                (pairRun.pass (firstMoments (.response 404 [])) n₂).world.view b₂ := by
  have hc : Config.pair.fault? (fun _ => true) = none := by decide +kernel
  have hrest : pairRun.Resting := ⟨by decide +kernel, by simp [pairRun, loaded]⟩
  have hroom : pairRun.past.minted + pairRun.world.entries.length < IdSource.room := by
    decide +kernel
  have hb : secondEntry ∈ pairRun.world.entries := by decide +kernel
  have hnow : Moment.calm.now < .latest := by decide +kernel
  have hagree : firstAnswered (.failure "timed out") secondEntry.url =
      firstAnswered (.response 404 []) secondEntry.url := by
    decide +kernel
  exact ⟨hc, by decide, hrest, hroom, hb, hnow, hagree, passes_agree (fun _ => true) .pair hc
    (.ofSeconds 10) (by decide) .withLists .readsAll [] pairRun rfl hrest hroom secondEntry hb
    Moment.calm.now hnow none _ _ hagree _ _ held_timedOut held_notFound⟩

end Run
end ListKeeper
