import ListKeeper.Proofs.Consumer
import ListKeeper.Proofs.Turns

/-! No refresh is put off by more than one sleep. A list that was selected in one pass is due when
the next pass reads the clock first, however the refresh went and however long the pass took, and
that pass does not end before it has selected the list again. Main statement:
`Watch.due_in_next_pass`. -/
namespace ListKeeper

/-- An entry is registered and due at a time. -/
def Registry.DueBy (r : Registry) (e : Entry) (limit : Instant) : Prop :=
  ∃ x ∈ r.entries, x.id = e.id ∧ x.name = e.name ∧ x.url = e.url ∧ x.isDue limit = true

namespace Registry.DueBy

variable {e : Entry} {limit : Instant}

theorem mono {r : Registry} (h : r.DueBy e limit) (limit' : Instant) (hle : limit ≤ limit') :
    r.DueBy e limit' := by
  obtain ⟨x, hx, hid, hname, hurl, hdue⟩ := h
  obtain ⟨hon, hnext⟩ := (x.isDue_iff limit).mp hdue
  exact ⟨x, hx, hid, hname, hurl,
    (x.isDue_iff limit').mpr ⟨hon, Instant.le_trans _ _ _ hnext hle⟩⟩

/-- One entry is replaced by another state of the same list. -/
theorem replace {r r' : Registry} {pre post : List Entry} {x y : Entry}
    (h : r.DueBy e limit) (hsplit : r.entries = pre ++ x :: post)
    (hentries : r'.entries = pre ++ y :: post)
    (hsame : y.id = x.id ∧ y.name = x.name ∧ y.url = x.url)
    (hdue : x.url = e.url → x.isDue limit = true → y.isDue limit = true) : r'.DueBy e limit := by
  obtain ⟨z, hz, hid, hname, hurl, hzdue⟩ := h
  obtain ⟨hyid, hyname, hyurl⟩ := hsame
  rw [hsplit] at hz
  rcases eq_or_mem_of_replaced y hz with rfl | hz
  · exact ⟨y, by simp [hentries], hyid.trans hid, hyname.trans hname, hyurl.trans hurl,
      hdue hurl hzdue⟩
  · exact ⟨z, hentries ▸ hz, hid, hname, hurl, hzdue⟩

end Registry.DueBy

namespace SyncSettings

def nap (s : SyncSettings) : Span := .ofSeconds s.sleepSeconds.toNat

end SyncSettings

/-- The url of an entry leads to it where no other has that url. -/
theorem Registry.get?_of_mem (r : Registry) (h : (r.entries.map (·.url)).Nodup) (x : Entry)
    (hx : x ∈ r.entries) : r.get? x.url = some x := r.find?_of_mem (·.url) h x hx

namespace World

variable {w : World}

/-- What is due by some time stays so, as long as the pass reads the clock before that time and puts
nothing off beyond it. -/
theorem dueBy_step {e : Entry} {limit : Instant} (h : w.system.registry.DueBy e limit) (a : Act)
    (hkept : a ≠ .delete e.url) (hread : ∀ m, a = .refresh m → m.now ≤ limit)
    (hput : ∀ x now, w.selects? a = some (x, now) → x.url = e.url →
      now.deadline w.system.period ≤ limit) :
    (w.step a).system.registry.DueBy e limit := by
  cases w.step_edits a with
  | same hnone hentries =>
    rw [Registry.DueBy]
    rw [World.entries, World.entries] at hentries
    rwa [hentries]
  | selected pre post x m hact hselects hsplit hdue hentries =>
    apply h.replace hsplit hentries ⟨rfl, rfl, rfl⟩
    intro hurl hxdue
    obtain ⟨hon, -⟩ := (x.isDue_iff limit).mp hxdue
    exact (Entry.isDue_iff _ limit).mpr ⟨hon, hput _ m.now hselects hurl⟩
  | recorded pre post x y stagedId body m hact hstage hsplit hid hentries =>
    apply h.replace hsplit hentries ⟨rfl, rfl, rfl⟩
    intro _ hxdue
    obtain ⟨hon, hnext⟩ := (x.isDue_iff limit).mp hxdue
    refine (Entry.isDue_iff _ limit).mpr ⟨hon, ?_⟩
    -- a record raises the next update at most to its own reading
    change (if x.nextUpdate < m.now then m.now else x.nextUpdate) ≤ limit
    split
    · exact hread m hact
    · exact hnext
  | settled pre post x p m c hact hstage hsettles hpend hsplit hentries =>
    exact h.replace hsplit hentries ⟨rfl, rfl, rfl⟩ fun _ hxdue => hxdue
  | added caller m c id body hact hadd hfree hentries =>
    obtain ⟨x, hx, hrest⟩ := h
    rw [World.entries, World.entries] at hentries
    exact ⟨x, by simp [hentries, hx], hrest⟩
  | removed pre post x hact hdeletes hsplit hentries =>
    obtain ⟨z, hz, hid, hname, hurl, hdue⟩ := h
    rw [World.entries] at hsplit hentries
    rw [hsplit] at hz
    rcases Registry.eq_or_mem_of_removed hz with rfl | hz
    · exact absurd (hact.trans (congrArg Act.delete hurl)) hkept
    · exact ⟨z, hentries ▸ hz, hid, hname, hurl, hdue⟩

theorem selects?_now (m : Moment) (x : Entry) (now : Instant)
    (h : w.selects? (.refresh m) = some (x, now)) : now = m.now := by
  obtain ⟨s, adds, ⟨stage, dirty, report⟩⟩ := w
  cases stage with
  | select =>
    obtain ⟨y, -, heq⟩ := Option.map_eq_some_iff.mp h
    exact (Prod.mk.inj heq).2.symm
  | _ => cases h

/-- No two entries get the same url. -/
theorem urls_nodup_step (h : (w.entries.map (·.url)).Nodup) (a : Act) :
    ((w.step a).entries.map (·.url)).Nodup := by
  cases w.step_edits a with
  | same hnone hentries => rwa [hentries]
  | selected pre post x m hact hselects hsplit hdue hentries =>
    rw [hsplit] at h
    rw [hentries]
    simpa [Entry.reserve] using h
  | recorded pre post x y stagedId body m hact hstage hsplit hid hentries =>
    rw [hsplit] at h
    rw [hentries]
    simpa [Entry.staged] using h
  | settled pre post x p m c hact hstage hsettles hpend hsplit hentries =>
    rw [hsplit] at h
    rw [hentries]
    simpa [Entry.settled] using h
  | added caller m c id body hact hadd hfree hentries =>
    have hnew : ∀ x ∈ w.entries, x.url ≠ c.url := fun x hx =>
      (w.system.registry.taken_eq_false c.name c.url hfree x hx).2
    rw [hentries, List.map_append, List.nodup_append]
    refine ⟨h, List.nodup_singleton _, ?_⟩
    intro u hu v hv
    obtain ⟨x, hx, rfl⟩ := List.mem_map.mp hu
    rw [List.mem_singleton.mp hv]
    exact hnew x hx
  | removed pre post x hact hdeletes hsplit hentries =>
    rw [hsplit] at h
    rw [hentries]
    refine List.Nodup.sublist ?_ h
    exact ((List.sublist_cons_self x post).append_left pre).map _

end World

/-- A pass that finds an entry due goes on to refresh. -/
theorem Refresher.step_refreshing (ticket : Nat) (m : Moment) (s : System) (r : Refresher)
    (h : r.stage.refreshing = true) (x : Entry) (hx : x ∈ s.registry.entries)
    (hdue : x.isDue m.now = true) : (r.step ticket m s).2.stage.refreshing = true := by
  have hsteps := r.steps ticket m s
  generalize r.step ticket m s = out at hsteps ⊢
  cases hsteps with
  | quiet stage stage' dirty dirty' report report' s' hquiet =>
    cases hquiet <;> first | rfl | cases h
  | exhausted dirty report hnone =>
    rw [hnone x hx] at hdue
    cases hdue
  | recorded pre post y e stagedId body dirty report next hsplit hid hnext =>
    rcases hnext with ⟨rfl, -⟩ | ⟨old, rfl, -⟩ <;> rfl
  | committing c => cases h
  | _ => rfl

def Deed.time? : Deed → Option Instant
  | turn _ m => some m.now
  | _ => none

namespace Watch

def world (w : Watch) : World :=
  { system := w.system
    adds := w.adds
    refresher :=
      match w.loop with
      | .passing r => r
      | .sleeping r => r
      | .stopped => .fresh }

def act? (w : Watch) : Deed → Option Act
  | .call c => some (.call c)
  | .add caller m => some (.add caller m)
  | .delete url => some (.delete url)
  | .tell => none
  | .turn _ m =>
    match w.loop with
    | .passing r => if r.isIdle then none else some (.refresh m)
    | _ => none

/-- The entry that a deed selects for its refresh, and the clock reading by which it is due. -/
def selects? (w : Watch) (d : Deed) : Option (Entry × Instant) := (w.act? d).bind w.world.selects?

def dozes? (w : Watch) : Deed → Option Instant
  | .turn _ m =>
    match w.loop with
    | .passing r => if r.isIdle then some m.now else none
    | _ => none
  | _ => none

def wakes? (w : Watch) : Deed → Option Instant
  | .turn call m =>
    match w.loop, w.heard call with
    | .sleeping _, some .wake => some m.now
    | _, _ => none
  | _ => none

def seen {α : Type} (enabled : Bool) (look : Watch → Deed → Option α) (w : Watch) :
    List Deed → List α
  | [] => []
  | d :: deeds => (look w d).toList ++ (w.step enabled d).seen enabled look deeds

/-- The sleeps that end within some deeds, each with its first and its last moment. A sleep that
lasts at the start began at `since`. -/
def sleeps (enabled : Bool) (w : Watch) (since : Option Instant) :
    List Deed → List (Instant × Instant)
  | [] => []
  | d :: deeds =>
    since.toList.zip (w.wakes? d).toList ++
      (w.step enabled d).sleeps enabled ((w.dozes? d).or since) deeds

/-- The clock of the loop. It never goes back and shows no leap second, and in each sleep it goes on
by the span for which the loop means to sleep. -/
structure Clock (enabled : Bool) (nap : Span) (w : Watch) (deeds : List Deed) : Prop where
  forward : (deeds.filterMap Deed.time?).Pairwise (· ≤ ·)
  plain : ∀ t ∈ deeds.filterMap Deed.time?, t.inLeap = false
  naps : ∀ s ∈ w.sleeps enabled none deeds, s.1.nanos + nap.nanos ≤ s.2.nanos

def refreshing (w : Watch) : Prop := ∃ r, w.loop = .passing r ∧ r.stage.refreshing = true

/-- A list is selected in a pass. The loop goes to sleep and wakes again, and the pass that then
begins has not selected the list yet when the loop takes its turn in the moment `m`. The list was
not deleted meanwhile. -/
structure NextPass (enabled : Bool) (nap : Span) (w : Watch) (first : Deed) (rest : List Deed)
    (wake : Deed) (again : List Deed) (call : Option Loop.Call) (m : Moment) (e : Entry) :
    Prop where
  selected : ∃ now, w.selects? first = some (e, now)
  asleep_once : (w.step enabled first).seen enabled wakes? rest = []
  woken : ((w.step enabled first).after enabled rest).wakes? wake ≠ none
  waiting : ∀ s ∈ (((w.step enabled first).after enabled rest).step enabled wake).seen enabled
    selects? again, s.1.url ≠ e.url
  registered : .delete e.url ∉ rest ++ again
  clock : w.Clock enabled nap (first :: rest ++ wake :: again ++ [.turn call m])

section

variable (enabled : Bool) {w : Watch}

theorem step_system (d : Deed) :
    (w.step enabled d).system =
      match w.act? d with
      | some a => (w.world.step a).system
      | none => w.system := by
  obtain ⟨s, adds, loop, told⟩ := w
  cases d with
  | add caller m =>
    simp only [step, beside, act?, World.step, world]
    cases adds[caller]? <;> rfl
  | turn call m =>
    cases loop with
    | passing r => cases hidle : r.isIdle <;> simp [step, Loop.step, act?, hidle, World.step, world]
    | sleeping r =>
      simp only [step, Loop.step, act?]
      cases heard ⟨s, adds, .sleeping r, told⟩ call with
      | none => rfl
      | some c => cases c <;> rfl
    | stopped => rfl
  | _ => rfl

/-- What every act on a system keeps is kept by all deeds. -/
theorem system_after (P : System → Prop)
    (hstep : ∀ (v : World) (a : Act), P v.system → P (v.step a).system) (hw : P w.system)
    (deeds : List Deed) : P (w.after enabled deeds).system := by
  induction deeds generalizing w with
  | nil => exact hw
  | cons d deeds ih =>
    apply ih (w := w.step enabled d)
    rw [step_system]
    cases w.act? d with
    | none => exact hw
    | some a => exact hstep w.world a hw

/-- The moment from which the next pass is awaited: the last reading of the clock, and once the loop
sleeps, that in which it fell asleep. -/
def origin (w : Watch) (last : Instant) (since : Option Instant) : Option Instant :=
  match w.loop with
  | .passing _ => some last
  | _ => since

/-- The entry is due a period after the moment from which the next pass is awaited. -/
def Awaits (w : Watch) (e : Entry) (last : Instant) (since : Option Instant) : Prop :=
  ∃ t, w.origin last since = some t ∧ t.inLeap = false ∧
    w.system.registry.DueBy e (t.deadline w.system.period)

/-- The entry is due and the pass that is under way still refreshes. -/
def Pursues (w : Watch) (e : Entry) (last : Instant) : Prop :=
  w.refreshing ∧ w.system.registry.DueBy e last

variable {e : Entry} {last : Instant} {since : Option Instant}

theorem period_after (deeds : List Deed) :
    (w.after enabled deeds).system.period = w.system.period :=
  w.system_after enabled (fun s => s.period = w.system.period)
    (fun v a hv => (congrArg Prod.snd (v.step_explained a).1).trans hv) rfl deeds

theorem period_step (d : Deed) : (w.step enabled d).system.period = w.system.period :=
  period_after enabled [d]

/-- What others do puts no entry off. -/
theorem dueBy_beside (d : Deed) (hturn : d.isTurn = false) (hkept : d ≠ .delete e.url)
    {limit : Instant} (h : w.system.registry.DueBy e limit) :
    (w.step enabled d).system.registry.DueBy e limit := by
  have hact (a : Act) (hne : a ≠ .delete e.url) (hquiet : w.world.selects? a = none)
      (hno : ∀ m, a ≠ .refresh m) : (w.world.step a).system.registry.DueBy e limit := by
    refine World.dueBy_step (w := w.world) h a hne (fun m ha => absurd ha (hno m)) ?_
    intro x now hsel
    rw [hquiet] at hsel
    cases hsel
  rw [step_system]
  cases d with
  | call c => exact hact (.call c) (by simp) rfl (by simp)
  | add caller m => exact hact (.add caller m) (by simp) rfl (by simp)
  | delete url =>
    refine hact (.delete url) ?_ rfl (by simp)
    rintro ⟨rfl⟩
    exact hkept rfl
  | tell => exact h
  | turn call m => cases hturn

/-- A step of a pass puts an entry off by a period from its own reading at most. -/
theorem dueBy_pass (r : Refresher) (hloop : w.loop = .passing r) (call : Option Loop.Call)
    (m : Moment) {limit : Instant} (hread : m.now ≤ limit)
    (hput : (∃ s, w.selects? (.turn call m) = some s ∧ s.1.url = e.url) →
      m.now.deadline w.system.period ≤ limit)
    (h : w.system.registry.DueBy e limit) :
    (w.step enabled (.turn call m)).system.registry.DueBy e limit := by
  rw [step_system]
  have hact : w.act? (.turn call m) = if r.isIdle then none else some (.refresh m) := by
    simp only [act?, hloop]
  cases hidle : r.isIdle with
  | true => simpa [hact, hidle] using h
  | false =>
    simp only [hact, hidle, Bool.false_eq_true, ↓reduceIte]
    refine World.dueBy_step (w := w.world) h (.refresh m) (by simp) ?_ ?_
    · rintro m' ⟨rfl⟩
      exact hread
    · intro x now hsel hurl
      rw [World.selects?_now m x now hsel]
      exact hput ⟨(x, now), by simp [selects?, hact, hidle, hsel], hurl⟩

/-- A loop that is in no pass leaves the system alone. -/
theorem turn_still (h : ∀ r, w.loop ≠ .passing r) (call : Option Loop.Call) (m : Moment) :
    (w.step enabled (.turn call m)).system = w.system ∧ w.dozes? (.turn call m) = none := by
  rw [step_system]
  cases hloop : w.loop with
  | passing r => exact absurd hloop (h r)
  | _ => simp [act?, dozes?, hloop]

/-- A turn of the loop that does not wake it puts the entry off by a period from its own reading at
most; when the loop falls asleep, that is the reading that counts. -/
theorem Awaits.turn (h : w.Awaits e last since) (hperiod : 0 ≤ w.system.period.nanos)
    (call : Option Loop.Call) (m : Moment) (hwake : w.wakes? (.turn call m) = none)
    (hlast : last ≤ m.now) (hplain : m.now.inLeap = false) :
    (w.step enabled (.turn call m)).Awaits e m.now ((w.dozes? (.turn call m)).or since) := by
  obtain ⟨t, horigin, htplain, hdue⟩ := h
  rw [Awaits, period_step]
  cases hloop : w.loop with
  | passing r =>
    obtain rfl : last = t := by simpa [origin, hloop] using horigin
    have hlater := Instant.deadline_le_deadline last m.now w.system.period hperiod htplain hplain
      hlast
    refine ⟨m.now, ?_, hplain, ?_⟩
    · cases hidle : r.isIdle <;> simp [origin, dozes?, step, Loop.step, hloop, hidle]
    · exact dueBy_pass enabled r hloop call m (Instant.le_deadline _ _ hperiod hplain)
        (fun _ => Instant.le_refl _) (hdue.mono _ hlater)
  | sleeping r =>
    have hsince : since = some t := by simpa [origin, hloop] using horigin
    obtain ⟨hsystem, hdozes⟩ := turn_still enabled (w := w) (by simp [hloop]) call m
    refine ⟨t, ?_, htplain, by rwa [hsystem]⟩
    rw [hdozes, hsince]
    cases hcall : w.heard call with
    | none => simp [origin, step, Loop.step, hloop, hcall]
    | some c =>
      cases c with
      | wake => simp [wakes?, hloop, hcall] at hwake
      | shutdown => simp [origin, step, Loop.step, hloop, hcall]
  | stopped =>
    have hsince : since = some t := by simpa [origin, hloop] using horigin
    obtain ⟨hsystem, hdozes⟩ := turn_still enabled (w := w) (by simp [hloop]) call m
    refine ⟨t, ?_, htplain, by rwa [hsystem]⟩
    simp [origin, hdozes, step, Loop.step, hloop, hsince]

/-- Until the loop wakes, the entry is due a period after the moment from which that is awaited. -/
theorem Awaits.step (h : w.Awaits e last since) (hperiod : 0 ≤ w.system.period.nanos) (d : Deed)
    (hkept : d ≠ .delete e.url) (hwake : w.wakes? d = none)
    (htime : ∀ t, d.time? = some t → last ≤ t ∧ t.inLeap = false) :
    (w.step enabled d).Awaits e (d.time?.getD last) ((w.dozes? d).or since) := by
  cases hturn : d.isTurn with
  | false =>
    obtain ⟨t, horigin, hplain, hdue⟩ := h
    have hloop := (step_of_not_turn enabled (w := w) d hturn).1
    refine ⟨t, ?_, hplain, ?_⟩
    · cases d with
      | turn call m => cases hturn
      | _ => exact horigin
    · rw [period_step]
      exact dueBy_beside enabled d hturn hkept hdue
  | true =>
    cases d with
    | turn call m =>
      obtain ⟨hlast, hplain⟩ := htime m.now rfl
      exact h.turn enabled hperiod call m hwake hlast hplain
    | _ => cases hturn

/-- A selected entry is due a period after the reading by which it was selected. -/
theorem awaits_of_selects (d : Deed) (now : Instant) (hselects : w.selects? d = some (e, now))
    (hplain : ∀ t, d.time? = some t → t.inLeap = false) :
    d.time? = some now ∧ w.dozes? d = none ∧ (w.step enabled d).Awaits e now none := by
  obtain ⟨a, hact, hsel⟩ := Option.bind_eq_some_iff.mp hselects
  cases d with
  | turn call m =>
    cases hloop : w.loop with
    | passing r =>
      cases hidle : r.isIdle with
      | true => simp [act?, hloop, hidle] at hact
      | false =>
        obtain rfl : Act.refresh m = a := by simpa [act?, hloop, hidle] using hact
        obtain rfl := World.selects?_now m e now hsel
        obtain ⟨pre, x, post, -, hentries, rfl, hdue, -⟩ :=
          w.world.selects?_eq_some (.refresh m) e m.now hsel
        refine ⟨rfl, by simp [dozes?, hloop, hidle], m.now, ?_, hplain m.now rfl, ?_⟩
        · simp [origin, step, Loop.step, hloop, hidle]
        · have hsystem := step_system enabled (w := w) (.turn call m)
          rw [hact] at hsystem
          rw [period_step, hsystem]
          refine ⟨_, ?_, rfl, rfl, rfl, ?_⟩
          · change _ ∈ (w.world.step (.refresh m)).entries
            rw [hentries]
            simp
          · obtain ⟨hon, -⟩ := (x.isDue_iff m.now).mp hdue
            exact (Entry.isDue_iff _ _).mpr ⟨hon, Instant.le_refl _⟩
    | sleeping r => simp [act?, hloop] at hact
    | stopped => simp [act?, hloop] at hact
  | _ => cases hact <;> cases hsel

/-- Until the loop wakes, the entry is awaited, and the sleep that then ends began in the moment
from which it is. -/
theorem Awaits.after (h : w.Awaits e last since) (hperiod : 0 ≤ w.system.period.nanos)
    (deeds : List Deed) (hkept : .delete e.url ∉ deeds)
    (hasleep : w.seen enabled wakes? deeds = [])
    (hforward : (last :: deeds.filterMap Deed.time?).Pairwise (· ≤ ·))
    (hplain : ∀ t ∈ deeds.filterMap Deed.time?, t.inLeap = false) (wake : Deed)
    (more : List Deed) :
    ∃ last' since', (w.after enabled deeds).Awaits e last' since' ∧
      ∀ t b, since' = some t → (w.after enabled deeds).wakes? wake = some b →
        (t, b) ∈ w.sleeps enabled since (deeds ++ wake :: more) := by
  induction deeds generalizing w last since with
  | nil =>
    refine ⟨last, since, h, ?_⟩
    rintro t b rfl hwake
    rw [after, List.foldl_nil] at hwake
    simp [sleeps, hwake]
  | cons d deeds ih =>
    obtain ⟨hawake, hasleep⟩ := List.append_eq_nil_iff.mp hasleep
    have hwake : w.wakes? d = none := by simpa using hawake
    simp only [List.mem_cons, not_or] at hkept
    -- a turn reads the clock no earlier than the last one did
    have htime : ∀ t, d.time? = some t → last ≤ t ∧ t.inLeap = false := by
      intro t ht
      constructor
      · exact (List.pairwise_cons.mp hforward).1 t (by simp [ht])
      · exact hplain t (by simp [ht])
    -- the readings that are left go on from the present one
    have hrest : (d.time?.getD last :: deeds.filterMap Deed.time?).Pairwise (· ≤ ·) := by
      cases ht : d.time? with
      | none => simpa [ht] using hforward
      | some t =>
        rw [List.filterMap_cons_some ht] at hforward
        exact (List.pairwise_cons.mp hforward).2
    have hstep := h.step enabled hperiod d (Ne.symm hkept.1) hwake htime
    have hplain' : ∀ t ∈ deeds.filterMap Deed.time?, t.inLeap = false := by
      intro t ht
      obtain ⟨x, hx, hxt⟩ := List.mem_filterMap.mp ht
      exact hplain t (List.mem_filterMap.mpr ⟨x, by simp [hx], hxt⟩)
    obtain ⟨last', since', hawaits, hsleeps⟩ :=
      ih hstep (by rwa [period_step]) hkept.2 hasleep hrest hplain'
    refine ⟨last', since', hawaits, fun t b ht hb => ?_⟩
    exact List.mem_append_right _ (hsleeps t b ht hb)

/-- Until the pass selects the entry, that is due by every reading of the clock. -/
theorem Pursues.step (h : w.Pursues e last) (d : Deed) (hkept : d ≠ .delete e.url)
    (hnot : ∀ s, w.selects? d = some s → s.1.url ≠ e.url)
    (htime : ∀ t, d.time? = some t → last ≤ t) :
    (w.step enabled d).Pursues e (d.time?.getD last) := by
  obtain ⟨⟨r, hloop, hrefreshing⟩, hdue⟩ := h
  cases hturn : d.isTurn with
  | false =>
    have hsame := (step_of_not_turn enabled (w := w) d hturn).1
    have htime : d.time?.getD last = last := by
      cases d with
      | turn call m => cases hturn
      | _ => rfl
    rw [htime]
    exact ⟨⟨r, hsame.trans hloop, hrefreshing⟩, dueBy_beside enabled d hturn hkept hdue⟩
  | true =>
    cases d with
    | turn call m =>
      have hnow := hdue.mono m.now (htime m.now rfl)
      have hidle : r.isIdle = false := by
        obtain ⟨stage, dirty, report⟩ := r
        cases stage with
        | idle => cases hrefreshing
        | _ => rfl
      constructor
      · refine ⟨(r.step 0 m w.system).2, ?_, ?_⟩
        · simp [Watch.step, Loop.step, hloop, hidle]
        · obtain ⟨x, hx, -, -, -, hxdue⟩ := hnow
          exact r.step_refreshing 0 m w.system hrefreshing x hx hxdue
      · apply dueBy_pass enabled r hloop call m (Instant.le_refl _) ?_ hnow
        rintro ⟨s, hs, hurl⟩
        exact absurd hurl (hnot s hs)
    | _ => cases hturn

theorem Pursues.after (h : w.Pursues e last) (deeds : List Deed) (hkept : .delete e.url ∉ deeds)
    (hnot : ∀ s ∈ w.seen enabled selects? deeds, s.1.url ≠ e.url) (m : Moment)
    (hforward : (last :: deeds.filterMap Deed.time? ++ [m.now]).Pairwise (· ≤ ·)) :
    (w.after enabled deeds).Pursues e m.now := by
  induction deeds generalizing w last with
  | nil =>
    obtain ⟨hrefreshing, hdue⟩ := h
    exact ⟨hrefreshing, hdue.mono m.now (by simpa using hforward)⟩
  | cons d deeds ih =>
    simp only [List.mem_cons, not_or] at hkept
    have htime : ∀ t, d.time? = some t → last ≤ t := fun t ht =>
      (List.pairwise_cons.mp hforward).1 t (by simp [ht])
    have hstep := h.step enabled d (Ne.symm hkept.1)
      (fun s hs => hnot s (by simp [seen, hs])) htime
    apply ih hstep hkept.2
    · intro s hs
      exact hnot s (List.mem_append_right _ hs)
    · cases ht : d.time? with
      | none => simpa [ht] using hforward
      | some t =>
        rw [List.filterMap_cons_some ht] at hforward
        exact (List.pairwise_cons.mp hforward).2

/-- A loop that wakes slept until then and begins a pass. -/
theorem wakes?_eq_some (d : Deed) (now : Instant) (h : w.wakes? d = some now) :
    d.time? = some now ∧ (∀ last since, w.origin last since = since) ∧
      (w.step true d).system = w.system ∧ (w.step true d).refreshing := by
  cases d with
  | turn call m =>
    cases hloop : w.loop with
    | sleeping r =>
      cases hcall : w.heard call with
      | none => simp [wakes?, hloop, hcall] at h
      | some c =>
        cases c with
        | shutdown => simp [wakes?, hloop, hcall] at h
        | wake =>
          obtain rfl : m.now = now := by simpa [wakes?, hloop, hcall] using h
          refine ⟨rfl, fun _ _ => by simp [origin, hloop], ?_, r.startPass, ?_, rfl⟩
          · simp [step, Loop.step, hloop, hcall]
          · simp [step, Loop.step, hloop, hcall, Loop.turn]
    | _ => simp [wakes?, hloop] at h
  | _ => cases h

/-- A list that was selected in one pass is due in the next one until that selects it. -/
theorem NextPass.pursues {nap : Span} {first wake : Deed} {rest again : List Deed}
    {call : Option Loop.Call} {m : Moment} (h : w.NextPass true nap first rest wake again call m e)
    (hperiod : w.system.period = nap) (hpos : 0 ≤ nap.nanos) :
    ((((w.step true first).after true rest).step true wake).after true again).Pursues e m.now := by
  obtain ⟨now, hselects⟩ := h.selected
  obtain ⟨woke, hwoke⟩ := Option.ne_none_iff_exists'.mp h.woken
  obtain ⟨hkept, hkept'⟩ : .delete e.url ∉ rest ∧ .delete e.url ∉ again := by
    simpa only [List.mem_append, not_or] using h.registered
  obtain ⟨hwakeTime, horigin, hsystem, hrefreshing⟩ := wakes?_eq_some _ _ hwoke
  obtain ⟨hfirstTime, hdozes, hawaits⟩ := awaits_of_selects true first now hselects
    fun t ht => h.clock.plain t (by simp [ht])
  have htimes : (first :: rest ++ wake :: again ++ [Deed.turn call m]).filterMap Deed.time? =
      now :: (rest.filterMap Deed.time? ++ woke :: (again.filterMap Deed.time? ++ [m.now])) := by
    rw [List.cons_append, List.cons_append, List.filterMap_cons_some hfirstTime, List.append_assoc,
      List.filterMap_append, List.cons_append, List.filterMap_cons_some hwakeTime,
      List.filterMap_append]
    rfl
  have hforward := h.clock.forward
  have hplain := h.clock.plain
  rw [htimes] at hforward hplain
  -- until the loop wakes
  have hperiod' : (w.step true first).system.period = nap := (period_step true first).trans hperiod
  obtain ⟨last, since, ⟨t, ht, htplain, hdue⟩, hsleeps⟩ := hawaits.after true
    (by rw [hperiod']; exact hpos) rest hkept h.asleep_once
    (hforward.sublist (by simp)) (fun t ht => hplain t (by simp [ht])) wake
    (again ++ [.turn call m])
  rw [horigin] at ht
  have hnap : t.nanos + nap.nanos ≤ woke.nanos := by
    apply h.clock.naps (t, woke)
    apply List.mem_append_right
    rw [hdozes]
    simpa using hsleeps t woke ht hwoke
  have hlate : t.deadline nap ≤ woke :=
    Instant.deadline_le t woke nap hpos htplain (hplain woke (by simp)) hnap
  rw [period_after, hperiod'] at hdue
  -- from then on
  have hpursues : (((w.step true first).after true rest).step true wake).Pursues e woke := by
    refine ⟨hrefreshing, ?_⟩
    rw [hsystem]
    exact hdue.mono woke hlate
  exact hpursues.after true again hkept' h.waiting m (hforward.sublist (by simp))

end

end Watch

/-- The loop of a service that is up, before its first step. -/
def Service.watch (s : Service) : Watch := ⟨s.system, [], s.loop, false⟩

namespace Watch

/-- Whatever is added, deleted and answered and however long the passes take, a list that was
selected in one pass and not deleted is due when the next pass reads the clock first, and it stays
due, and that pass goes on to refresh, until the pass has selected it. -/
theorem due_in_next_pass (fetchable : String → Bool) (c : Config)
    (hc : c.fault? fetchable = none) (hon : c.sync.enabled = true) (client : Client)
    (t : FileTree) (disks : UInt64 → Disk) (before : List Deed) (first : Deed) (rest : List Deed)
    (wake : Deed) (again : List Deed) (call : Option Loop.Call) (m : Moment) (e : Entry)
    (h : ((Service.up c client t disks).watch.after c.sync.enabled before).NextPass c.sync.enabled
      c.sync.nap first rest wake again call m e) :
    let w := (Service.up c client t disks).watch.after c.sync.enabled
      (before ++ first :: rest ++ wake :: again)
    w.refreshing ∧ ∃ x, w.system.registry.get? e.url = some x ∧ x.id = e.id ∧ x.name = e.name ∧
      x.isDue m.now = true := by
  obtain ⟨hperiod, hhour⟩ := c.period_eq fetchable hc
  intro w
  rw [hon] at h
  have hw : w = (((((Service.up c client t disks).watch.after true before).step true
      first).after true rest).step true wake).after true again := by
    simp only [w, hon, after, List.foldl_append, List.foldl_cons]
  obtain ⟨role, hs⟩ := Run.loaded_sound fetchable c hc c.sync.period t disks
  have hurls : (w.system.registry.entries.map (·.url)).Nodup :=
    system_after c.sync.enabled (fun s => (s.registry.entries.map (·.url)).Nodup)
      (fun v a hv => v.urls_nodup_step hv a) hs.table.urls _
  obtain ⟨hrefreshing, x, hx, hid, hname, hurl, hdue⟩ : w.Pursues e m.now := by
    rw [hw]
    apply h.pursues ?_ ?_
    · rw [period_after]
      exact hperiod
    · rw [SyncSettings.nap, ← hperiod]
      omega
  refine ⟨hrefreshing, x, ?_, hid, hname, hdue⟩
  rw [← hurl]
  exact w.system.registry.get?_of_mem hurls x hx

/-! ### A slow pass -/

/-- A turn after so many seconds, in which all goes well. -/
def turnAt (seconds : Int) (call : Option Loop.Call) : Deed :=
  .turn call { Moment.calm with now := Instant.epoch.deadline (.ofSeconds seconds) }

/-- The rest of a pass, which takes 100 seconds for its list. -/
def slowPass : List Deed := List.replicate 22 (turnAt 1100 none)

def pairWatch : Watch := (Service.up .pair ⟨"filtersync/0.1.0", none⟩ .withLists).watch

def selectedSecond : Entry :=
  Run.waitingEntry.reserve Moment.calm.now SyncSettings.standard.period

/-- The moment in which the next pass reads the clock first. -/
def dayLater : Moment := { Moment.calm with now := Instant.epoch.deadline (.ofSeconds 87500) }

theorem nextPass_slow :
    (pairWatch.after true []).NextPass true SyncSettings.standard.nap (turnAt 1000 none) slowPass
      (turnAt 87500 (some .wake)) [.delete "http://a.example/"] none
      dayLater selectedSecond where
  selected := ⟨Moment.calm.now, by decide +kernel⟩
  asleep_once := by decide +kernel
  woken := by decide +kernel
  waiting := by decide +kernel
  registered := by
    have hurl : selectedSecond.url ≠ "http://a.example/" := by decide +kernel
    simp [slowPass, turnAt, hurl]
  clock := ⟨by decide +kernel, by decide +kernel, by decide +kernel⟩

theorem due_in_next_pass_slow :
    Config.pair.fault? (fun _ => true) = none ∧ Config.pair.sync.enabled = true ∧
      (pairWatch.after true []).NextPass true SyncSettings.standard.nap (turnAt 1000 none) slowPass
        (turnAt 87500 (some .wake)) [.delete "http://a.example/"] none
        dayLater selectedSecond ∧
      (pairWatch.after true (turnAt 1000 none :: slowPass ++
        [turnAt 87500 (some .wake), .delete "http://a.example/"])).refreshing := by
  have hc : Config.pair.fault? (fun _ => true) = none := by decide +kernel
  exact ⟨hc, rfl, nextPass_slow, (due_in_next_pass (fun _ => true) .pair hc rfl _ .withLists
    .readsAll [] (turnAt 1000 none) slowPass _ _ none _ _ nextPass_slow).1⟩

end Watch
end ListKeeper
