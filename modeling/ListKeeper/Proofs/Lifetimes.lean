import ListKeeper.Job
import ListKeeper.Proofs.Deadlines

/-! Deadlines over the life of an entry. Whatever is asked of a registry, in whatever order and
whatever the clock shows up to the last instant, no deadline lies before the last update of its
list, and none is moved back. Main statement: `Traffic.timely_after`. -/
namespace ListKeeper

/-- A system with everything that is under way on it. -/
structure Traffic where
  system : System
  jobs : List Job

/-- What is asked of a registry: one of its operations, or a job, which then goes on step by step.
At every load the files are what they have become by then. -/
inductive Errand
  | load (files : FileTree) (filters : List FilterSpec)
  | start (j : Job)
  | go (job : Nat) (m : Moment)
  | delete (url : String)
  | select (now : Instant)
  | stage (id stagedId count : UInt64) (now : Instant)
  | clear (id stagedId : UInt64)

/-- The times that an errand may count deadlines from: readings of the clock, and the times of
change of the files that a load reads. -/
def Errand.readings (store : Store) : Errand → List Instant
  | .load files filters => filters.filterMap fun f => (store.load files f.id).toOption.map (·.2)
  | .go _ m => [m.now]
  | .select now => [now]
  | _ => []

namespace Traffic

def fresh (store : Store) (period : Span) (t : FileTree) : Traffic :=
  ⟨System.fresh store period t, []⟩

def entries (d : Traffic) : List Entry := d.system.registry.entries

def step (d : Traffic) : Errand → Traffic
  | .load files filters => { d with system := { d.system with tree := files }.load filters }
  | .start j => { d with jobs := d.jobs ++ [j] }
  | .go job m =>
    match d.jobs[job]? with
    | none => d
    | some j =>
      let (s, j') := j.step job m d.system
      ⟨s, d.jobs.set job j'⟩
  | .delete url => { d with system := (d.system.delete url).2 }
  | .select now =>
    match d.system.registry.selectDue now d.system.period with
    | none => d
    | some (_, registry) => { d with system := { d.system with registry := registry } }
  | .stage id stagedId count now =>
    { d with
      system :=
        { d.system with registry := (d.system.registry.stage id stagedId count now).2 } }
  | .clear id stagedId =>
    { d with
      system :=
        { d.system with registry := (d.system.registry.clearPending id stagedId).2 } }

def after (d : Traffic) (errands : List Errand) : Traffic := errands.foldl step d

/-- Where an entry stands after an errand. A deletion takes one entry out, and those behind it move
up. -/
def place? (d : Traffic) (i : Nat) : Errand → Option Nat
  | .delete url =>
    match d.entries.findIdx? fun e => e.url == url with
    | none => some i
    | some k => if i < k then some i else if i = k then none else some (i - 1)
  | _ => some i

/-- Where an entry stands after some errands, unless it was taken out. -/
def placeAfter? (d : Traffic) (i : Nat) : List Errand → Option Nat
  | [] => some i
  | a :: errands => (d.place? i a).bind fun j => (d.step a).placeAfter? j errands

end Traffic

namespace Instant

/-- Leap seconds included, a deadline does not lie before the reading that it is counted from. -/
theorem le_deadline_of_le_latest (t : Instant) (d : Span) (hd : 0 ≤ d.nanos) (ht : t ≤ latest) :
    t ≤ t.deadline d := by
  by_cases hleap : t.inLeap = true
  · have hfrac : 1000000000 ≤ t.frac := by simpa [inLeap] using hleap
    have hsecs : latest.secs = lastSecond := rfl
    have hlatest : latest.frac = 999999999 := rfl
    rw [le_def] at ht
    by_cases hpos : 0 < d.nanos
    · apply le_of_lt
      apply lt_deadline t d hpos
      rw [lt_def]
      omega
    -- a span of no length does not lead out of the leap second
    · have hzero : d.nanos = 0 := by omega
      have hbound := t.frac_lt
      have hinside : (t.frac : Int) < 2000000000 := by omega
      have hparts : ofParts? t.secs t.frac = some t :=
        dif_pos ⟨⟨t.first_le, t.le_last⟩, t.frac_lt, t.leap_at⟩
      have hadd : t.add? d = some t := by
        simp [add?, hleap, Span.wholeSeconds, hzero, hinside, hparts]
      rw [deadline, hadd]
      exact le_refl t
  · exact le_deadline t d hd (by simpa using hleap)

end Instant

namespace Entry

/-- The next update does not lie before the last one. -/
def Timely (e : Entry) : Prop := e.lastUpdated ≤ e.nextUpdate

/-- An entry at two times of its life: it is the same list, and its next update was not moved
back. -/
structure Ages (e e' : Entry) : Prop where
  id_eq : e'.id = e.id
  enabled_eq : e'.enabled = e.enabled
  name_eq : e'.name = e.name
  url_eq : e'.url = e.url
  next_le : e.nextUpdate ≤ e'.nextUpdate

theorem Ages.refl (e : Entry) : e.Ages e := ⟨rfl, rfl, rfl, rfl, Instant.le_refl _⟩

theorem Ages.trans {e e' e'' : Entry} (h : e.Ages e') (h' : e'.Ages e'') : e.Ages e'' where
  id_eq := h'.id_eq.trans h.id_eq
  enabled_eq := h'.enabled_eq.trans h.enabled_eq
  name_eq := h'.name_eq.trans h.name_eq
  url_eq := h'.url_eq.trans h.url_eq
  next_le := Instant.le_trans _ _ _ h.next_le h'.next_le

theorem unread_timely (f : FilterSpec) : (unread f).Timely := Instant.le_refl _

variable (e : Entry)

/-- An entry that is due is put off, not moved back, whatever was recorded with it. -/
theorem ages_reserve (now : Instant) (period : Span) (hperiod : 0 ≤ period.nanos)
    (hnow : now ≤ .latest) (hdue : e.isDue now = true) : e.Ages (e.reserve now period) := by
  have hle : e.nextUpdate ≤ now := ((e.isDue_iff now).mp hdue).2
  have hdeadline := now.le_deadline_of_le_latest period hperiod hnow
  exact ⟨rfl, rfl, rfl, rfl, Instant.le_trans _ _ _ hle hdeadline⟩

theorem Timely.reserve {e : Entry} (h : e.Timely) (now : Instant) (period : Span)
    (hages : e.Ages (e.reserve now period)) : (e.reserve now period).Timely :=
  Instant.le_trans _ _ _ h hages.next_le

theorem ages_staged (stagedId count : UInt64) (now : Instant) :
    e.Ages (e.staged stagedId count now) :=
  ⟨rfl, rfl, rfl, rfl, e.nextUpdate_le_staged stagedId count now⟩

theorem staged_timely (stagedId count : UInt64) (now : Instant) :
    (e.staged stagedId count now).Timely := by
  simp only [Timely, staged]
  by_cases hlt : e.nextUpdate < now
  · rw [if_pos hlt]
    exact Instant.le_refl now
  · rw [if_neg hlt]
    rw [Instant.lt_def] at hlt
    rw [Instant.le_def]
    omega

end Entry

theorem Candidate.entry_timely (c : Candidate) (id : UInt64) (body : Bytes) (now : Instant)
    (period : Span) (hperiod : 0 ≤ period.nanos) (hnow : now ≤ .latest) :
    (c.entry id body now period).Timely := now.le_deadline_of_le_latest period hperiod hnow

inductive Revised (es : List Entry) : List Entry → Prop
  | same : Revised es es
  | replaced (pre post : List Entry) (x y : Entry) (hsplit : es = pre ++ x :: post)
      (hages : x.Ages y) (htimely : x.Timely → y.Timely) :
    Revised es (pre ++ y :: post)
  | appended (more : List Entry) (hmore : ∀ e ∈ more, e.Timely) : Revised es (es ++ more)

namespace Revised

variable {es es' : List Entry}

theorem of_eq (h : es' = es) : Revised es es' := h ▸ .same

theorem timely (h : Revised es es') (hes : ∀ e ∈ es, e.Timely) : ∀ e ∈ es', e.Timely := by
  intro e he
  cases h with
  | same => exact hes e he
  | replaced pre post x y hsplit hages htimely =>
    rcases Registry.eq_or_mem_of_replaced x he with rfl | he
    · exact htimely (hes x (by simp [hsplit]))
    · exact hes e (hsplit ▸ he)
  | appended more hmore =>
    rcases List.mem_append.mp he with he | he
    · exact hes e he
    · exact hmore e he

theorem ages (h : Revised es es') (i : Nat) (e : Entry) (he : es[i]? = some e) :
    ∃ e', es'[i]? = some e' ∧ e.Ages e' := by
  cases h with
  | same => exact ⟨e, he, .refl e⟩
  | replaced pre post x y hsplit hages htimely =>
    subst hsplit
    rcases Nat.lt_trichotomy i pre.length with hlt | heq | hgt
    · rw [List.getElem?_append_left hlt] at he ⊢
      exact ⟨e, he, .refl e⟩
    · rw [List.getElem?_append_right (by omega), heq, Nat.sub_self] at he ⊢
      obtain rfl : x = e := Option.some.inj he
      exact ⟨y, rfl, hages⟩
    · rw [List.getElem?_append_right (by omega)] at he ⊢
      obtain ⟨n, hn⟩ : ∃ n, i - pre.length = n + 1 := ⟨i - pre.length - 1, by omega⟩
      rw [hn, List.getElem?_cons_succ] at he ⊢
      exact ⟨e, he, .refl e⟩
  | appended more hmore =>
    obtain ⟨hlt, -⟩ := List.getElem?_eq_some_iff.mp he
    rw [List.getElem?_append_left hlt]
    exact ⟨e, he, .refl e⟩

end Revised

/-! ### What one step makes of the entries -/

theorem System.seed_timely (s : System) (f : FilterSpec) (disk : Disk)
    (hperiod : 0 ≤ s.period.nanos)
    (h : ∀ body modified, s.store.load s.tree f.id disk = .ok (body, modified) →
      modified ≤ .latest) : (s.seed f disk).Timely := by
  unfold seed
  split
  · rename_i body modified hload
    exact modified.le_deadline_of_le_latest s.period hperiod (h body modified hload)
  · exact Entry.unread_timely f

theorem Registry.selectDue_revised (r r' : Registry) (now : Instant) (period : Span) (e : Entry)
    (hperiod : 0 ≤ period.nanos) (hnow : now ≤ .latest)
    (h : r.selectDue now period = some (e, r')) : Revised r.entries r'.entries := by
  obtain ⟨pre, x, post, hsplit, hentries, rfl, hdue, -⟩ :=
    r.selectDue_eq_some r' now period e h
  have hages := x.ages_reserve now period hperiod hnow hdue
  rw [hentries]
  exact .replaced pre post x _ hsplit hages fun hx => hx.reserve now period hages

theorem Registry.stage_revised (r : Registry) (id stagedId count : UInt64) (now : Instant) :
    Revised r.entries (r.stage id stagedId count now).2.entries := by
  rcases r.stage_cases id stagedId count now with
    ⟨hmissing, -⟩ | ⟨pre, x, post, hstaged, hsplit, -⟩
  · rw [hmissing]
    exact .same
  · rw [hstaged]
    exact .replaced pre post x _ hsplit (x.ages_staged stagedId count now)
      fun _ => x.staged_timely stagedId count now

theorem Registry.clearPending_revised (r : Registry) (id stagedId : UInt64) :
    Revised r.entries (r.clearPending id stagedId).2.entries := by
  rcases r.clearPending_cases id stagedId with ⟨hsame, -⟩ | ⟨pre, x, post, hclear, hsplit, -⟩
  · exact .of_eq (congrArg Registry.entries hsame)
  · rw [hclear]
    exact .replaced pre post x x.settled hsplit ⟨rfl, rfl, rfl, rfl, Instant.le_refl _⟩ fun h => h

theorem Committing.step_revised (m : Moment) (s : System) (c : Committing) :
    Revised s.registry.entries (c.step m s).1.registry.entries := by
  rcases c.step_registry m s with hsame | ⟨pre, x, post, p, hsplit, hreg, -⟩
  · exact .of_eq (congrArg Registry.entries hsame)
  · rw [hreg]
    exact .replaced pre post x x.settled hsplit ⟨rfl, rfl, rfl, rfl, Instant.le_refl _⟩ fun h => h

section

variable (ticket : Nat) (m : Moment) (s : System)

theorem Adding.step_revised (hperiod : 0 ≤ s.period.nanos) (hnow : m.now ≤ .latest) (c : Candidate)
    (stage : Adding) :
    Revised s.registry.entries (stage.step c ticket m s).1.registry.entries := by
  have hsteps := stage.steps c ticket m s
  generalize stage.step c ticket m s = out at hsteps ⊢
  cases hsteps with
  | quiet stage stage' s' hquiet hstill => exact .of_eq (congrArg Registry.entries hstill.registry)
  | minted => exact .same
  | writing id body w => exact .same
  | inserted id body hfree =>
    refine .appended [c.entry id body m.now s.period] ?_
    intro e he
    obtain rfl := List.mem_singleton.mp he
    exact c.entry_timely id body m.now s.period hperiod hnow
  | withdrawn id => exact .of_eq (congrArg Registry.entries (s.discard_registry m.disk id))

theorem Refresher.step_revised (hperiod : 0 ≤ s.period.nanos) (hnow : m.now ≤ .latest)
    (r : Refresher) : Revised s.registry.entries (r.step ticket m s).1.registry.entries := by
  have hsteps := r.steps ticket m s
  generalize r.step ticket m s = out at hsteps ⊢
  cases hsteps with
  | quiet stage stage' dirty dirty' report report' s' hquiet hstill =>
    exact .of_eq (congrArg Registry.entries hstill.registry)
  | selected pre post x dirty report hsplit hdue hpre hselect =>
    exact s.registry.selectDue_revised _ m.now s.period _ hperiod hnow hselect
  | exhausted dirty report hnone => exact .same
  | minted e body dirty report => exact .same
  | writing e stagedId body w dirty report => exact .same
  | recorded pre post x e stagedId body dirty report next hsplit hid hnext =>
    exact .replaced pre post x _ hsplit (x.ages_staged stagedId (Rules.recorded body) m.now)
      fun _ => x.staged_timely stagedId (Rules.recorded body) m.now
  | orphaned e stagedId body dirty report hgone => exact .same
  | tidied file dirty report =>
    exact .of_eq (congrArg Registry.entries (s.discard_registry m.disk file))
  | committing c dirty report => exact c.step_revised m s

theorem Fetching.step_still (url : String) (f : Fetching) :
    (f.step url ticket m s).1.registry = s.registry ∧
      (f.step url ticket m s).1.settings = s.settings := by
  cases f with
  | wait =>
    simp only [step]
    split <;> exact ⟨rfl, rfl⟩
  | _ => exact ⟨rfl, rfl⟩

theorem Job.step_revised (hperiod : 0 ≤ s.period.nanos) (hnow : m.now ≤ .latest) (j : Job) :
    Revised s.registry.entries (j.step ticket m s).1.registry.entries := by
  cases j with
  | add c stage => exact stage.step_revised ticket m s hperiod hnow c
  | download url f => exact .of_eq (congrArg Registry.entries (f.step_still ticket m s url).1)
  | pass r => exact r.step_revised ticket m s hperiod hnow
  | commit c => exact c.step_revised m s

theorem Job.step_settings (j : Job) : (j.step ticket m s).1.settings = s.settings := by
  cases j with
  | add c stage => exact (stage.step_explained c ticket m s).1
  | download url f => exact (f.step_still ticket m s url).2
  | pass r => exact (r.step_explained ticket m s).1
  | commit c => exact (c.step_explained m s).1

end

/-! ### Errands -/

namespace Traffic

variable {d : Traffic} {store : Store} {period : Span}

theorem step_settings (d : Traffic) (a : Errand) :
    (d.step a).system.settings = d.system.settings := by
  cases a with
  | go job m =>
    simp only [step]
    split
    · rfl
    · rename_i j hjob
      exact j.step_settings job m d.system
  | delete url =>
    obtain ⟨es, journal, heq, -⟩ := d.system.delete_eq url
    simp only [step, heq]
    rfl
  | select now =>
    simp only [step]
    split <;> rfl
  | _ => rfl

/-- An errand that is no deletion changes entries in the ways told above. -/
theorem step_revised (hsettings : d.system.settings = (store, period)) (hperiod : 0 ≤ period.nanos)
    (a : Errand) (ha : ∀ url, a ≠ .delete url) (hreadings : ∀ t ∈ a.readings store, t ≤ .latest) :
    Revised d.entries (d.step a).entries := by
  obtain ⟨rfl, rfl⟩ := Prod.mk.inj hsettings
  cases a with
  | load files filters =>
    refine .appended _ ?_
    intro e he
    obtain ⟨f, hf, rfl⟩ := List.mem_map.mp he
    refine System.seed_timely _ f _ hperiod ?_
    intro body modified hload
    apply hreadings modified
    have hread : d.system.store.load files f.id = .ok (body, modified) := hload
    exact List.mem_filterMap.mpr ⟨f, hf, by rw [hread]; rfl⟩
  | start j => exact .same
  | go job m =>
    have hnow : m.now ≤ .latest := hreadings m.now (List.mem_singleton.mpr rfl)
    simp only [step]
    split
    · exact .same
    · rename_i j hjob
      exact j.step_revised job m d.system hperiod hnow
  | delete url => exact absurd rfl (ha url)
  | select now =>
    have hnow : now ≤ .latest := hreadings now (List.mem_singleton.mpr rfl)
    simp only [step]
    split
    · exact .same
    · rename_i e registry hselect
      exact d.system.registry.selectDue_revised registry now _ e hperiod hnow hselect
  | stage id stagedId count now => exact d.system.registry.stage_revised id stagedId count now
  | clear id stagedId => exact d.system.registry.clearPending_revised id stagedId

theorem delete_entries (d : Traffic) (url : String) :
    (d.step (.delete url)).entries = d.entries.eraseP fun e => e.url == url := by
  simp only [step, entries, System.delete]
  split
  · rename_i hnone
    exact (List.eraseP_of_forall_not (List.find?_eq_none.mp hnone)).symm
  · rfl

theorem timely_step (hsettings : d.system.settings = (store, period)) (hperiod : 0 ≤ period.nanos)
    (a : Errand) (hreadings : ∀ t ∈ a.readings store, t ≤ .latest)
    (h : ∀ e ∈ d.entries, e.Timely) : ∀ e ∈ (d.step a).entries, e.Timely := by
  by_cases hdelete : ∃ url, a = .delete url
  · obtain ⟨url, rfl⟩ := hdelete
    intro e he
    rw [delete_entries] at he
    exact h e (List.mem_of_mem_eraseP he)
  · have ha : ∀ url, a ≠ .delete url := fun url h => hdelete ⟨url, h⟩
    exact (step_revised hsettings hperiod a ha hreadings).timely h

/-- A deletion leaves an entry as it is, at the place where it then stands, unless it is the one
that is taken out. -/
theorem place?_delete (d : Traffic) (url : String) (i : Nat) (e : Entry)
    (he : d.entries[i]? = some e) :
    (∃ j, d.place? i (.delete url) = some j ∧ (d.step (.delete url)).entries[j]? = some e) ∨
      d.place? i (.delete url) = none ∧ e.url = url := by
  rw [delete_entries, List.eraseP_eq_eraseIdx]
  simp only [place?]
  cases hk : d.entries.findIdx? fun e => e.url == url with
  | none => exact .inl ⟨i, rfl, he⟩
  | some k =>
    dsimp only
    rcases Nat.lt_trichotomy i k with hlt | rfl | hgt
    · rw [if_pos hlt]
      exact .inl ⟨i, rfl, by rw [List.getElem?_eraseIdx, if_pos hlt, he]⟩
    · obtain ⟨hi, hurl, -⟩ := List.findIdx?_eq_some_iff_getElem.mp hk
      obtain ⟨hi', rfl⟩ := List.getElem?_eq_some_iff.mp he
      exact .inr ⟨by simp, by simpa using hurl⟩
    · rw [if_neg (by omega), if_neg (by omega)]
      refine .inl ⟨i - 1, rfl, ?_⟩
      rw [List.getElem?_eraseIdx, if_neg (by omega), Nat.sub_add_cancel (by omega), he]

/-- An errand does not move the deadline of an entry back, and only the deletion of its url takes it
out. -/
theorem ages_step (hsettings : d.system.settings = (store, period)) (hperiod : 0 ≤ period.nanos)
    (a : Errand) (hreadings : ∀ t ∈ a.readings store, t ≤ .latest) (i : Nat) (e : Entry)
    (he : d.entries[i]? = some e) :
    (∃ j e', d.place? i a = some j ∧ (d.step a).entries[j]? = some e' ∧ e.Ages e') ∨
      d.place? i a = none ∧ a = .delete e.url := by
  by_cases hdelete : ∃ url, a = .delete url
  · obtain ⟨url, rfl⟩ := hdelete
    rcases d.place?_delete url i e he with ⟨j, hplace, hj⟩ | ⟨hplace, rfl⟩
    · exact .inl ⟨j, e, hplace, hj, .refl e⟩
    · exact .inr ⟨hplace, rfl⟩
  · have ha : ∀ url, a ≠ .delete url := fun url h => hdelete ⟨url, h⟩
    have hplace : d.place? i a = some i := by
      cases a with
      | delete url => exact absurd rfl (ha url)
      | _ => rfl
    obtain ⟨e', he', hages⟩ := (step_revised hsettings hperiod a ha hreadings).ages i e he
    exact .inl ⟨i, e', hplace, he', hages⟩

theorem settings_after (d : Traffic) (errands : List Errand) :
    (d.after errands).system.settings = d.system.settings := by
  induction errands generalizing d with
  | nil => rfl
  | cons a errands ih => exact (ih (d.step a)).trans (d.step_settings a)

theorem after_append (d : Traffic) (before errands : List Errand) :
    d.after (before ++ errands) = (d.after before).after errands := by
  simp [after, List.foldl_append]

theorem entries_timely_after (hsettings : d.system.settings = (store, period))
    (hperiod : 0 ≤ period.nanos) (errands : List Errand)
    (hreadings : ∀ a ∈ errands, ∀ t ∈ a.readings store, t ≤ .latest)
    (h : ∀ e ∈ d.entries, e.Timely) : ∀ e ∈ (d.after errands).entries, e.Timely := by
  induction errands generalizing d with
  | nil => exact h
  | cons a errands ih =>
    obtain ⟨ha, hrest⟩ := List.forall_mem_cons.mp hreadings
    exact ih ((d.step_settings a).trans hsettings) hrest
      (timely_step hsettings hperiod a ha h)

/-- Along a run the entry at a place ages, until its url is deleted. -/
theorem ages_after (hsettings : d.system.settings = (store, period)) (hperiod : 0 ≤ period.nanos)
    (errands : List Errand) (hreadings : ∀ a ∈ errands, ∀ t ∈ a.readings store, t ≤ .latest)
    (i : Nat) (e : Entry) (he : d.entries[i]? = some e) :
    (∃ j e', d.placeAfter? i errands = some j ∧ (d.after errands).entries[j]? = some e' ∧
        e.Ages e') ∨
      d.placeAfter? i errands = none ∧ .delete e.url ∈ errands := by
  induction errands generalizing d i e with
  | nil => exact .inl ⟨i, e, rfl, he, .refl e⟩
  | cons a errands ih =>
    obtain ⟨ha, hrest⟩ := List.forall_mem_cons.mp hreadings
    simp only [placeAfter?]
    rcases ages_step hsettings hperiod a ha i e he with ⟨j, e', hplace, hj, hages⟩ | ⟨hplace, rfl⟩
    · rw [hplace]
      rcases ih ((d.step_settings a).trans hsettings) hrest j e' hj with
        ⟨l, e'', hl, hentry, hages'⟩ | ⟨hl, hmem⟩
      · exact .inl ⟨l, e'', hl, hentry, hages.trans hages'⟩
      · rw [hages.url_eq] at hmem
        exact .inr ⟨hl, List.mem_cons_of_mem a hmem⟩
    · rw [hplace]
      exact .inr ⟨rfl, List.mem_cons_self⟩

/-- In every run on a registry, no deadline lies before the last update of its list, and over the
life of an entry its deadline is never moved back. An entry is followed from place to place, and its
life ends with the deletion of its url only. -/
theorem timely_after (store : Store) (period : Span) (hperiod : 0 ≤ period.nanos) (t : FileTree)
    (before errands : List Errand)
    (hreadings : ∀ a ∈ before ++ errands, ∀ r ∈ a.readings store, r ≤ .latest) :
    (∀ e ∈ ((fresh store period t).after before).entries, e.Timely) ∧
      ∀ i e, ((fresh store period t).after before).entries[i]? = some e →
        (∃ j e', ((fresh store period t).after before).placeAfter? i errands = some j ∧
            (((fresh store period t).after before).after errands).entries[j]? = some e' ∧
            e.Ages e') ∨
          ((fresh store period t).after before).placeAfter? i errands = none ∧
            .delete e.url ∈ errands := by
  have hfresh : (fresh store period t).system.settings = (store, period) := rfl
  have hsettings := ((fresh store period t).settings_after before).trans hfresh
  obtain ⟨hbefore, herrands⟩ := List.forall_mem_append.mp hreadings
  constructor
  · apply entries_timely_after hfresh hperiod before hbefore
    intro e he
    cases he
  · intro i e he
    exact ages_after hsettings hperiod errands herrands i e he

/-! ### A clock that goes back -/

/-- Two lists are loaded, and the first is selected and recorded at the end of the calendar. -/
def lateErrands : List Errand :=
  [.load .withLists Config.pair.filters, .select .latest, .stage 1 7 3 .latest]

/-- The clock goes back by all that there is, and on; the first list is deleted, and a commit and an
addition begin. -/
def earlyErrands : List Errand :=
  [.stage 2 9 0 .earliest, .select .earliest, .select .epoch, .start (.commit .snapshot),
    .start (.add ⟨"extra", "http://c.example/"⟩ .check), .go 0 .calm, .go 1 .calm, .clear 2 9,
    .delete "http://a.example/", .load .empty Config.pair.filters]

def lateTraffic : Traffic :=
  (fresh (Service.store .pair) (.ofSeconds 10) .empty).after lateErrands

theorem timely_after_clockBack :
    0 ≤ (Span.ofSeconds 10).nanos ∧
      (∀ a ∈ lateErrands ++ earlyErrands, ∀ r ∈ a.readings (Service.store .pair), r ≤ .latest) ∧
      (∀ e ∈ lateTraffic.entries, e.Timely) ∧
      lateTraffic.entries[1]? = some Run.waitingEntry ∧
      lateTraffic.placeAfter? 1 earlyErrands = some 0 ∧
      ∃ e', (lateTraffic.after earlyErrands).entries[0]? = some e' ∧
        Run.waitingEntry.Ages e' := by
  have hperiod : 0 ≤ (Span.ofSeconds 10).nanos := by decide
  have hreadings : ∀ a ∈ lateErrands ++ earlyErrands,
      ∀ r ∈ a.readings (Service.store .pair), r ≤ .latest := by
    decide +kernel
  have hentry : lateTraffic.entries[1]? = some Run.waitingEntry := by decide +kernel
  have hplace : lateTraffic.placeAfter? 1 earlyErrands = some 0 := by decide +kernel
  obtain ⟨htimely, hlives⟩ := timely_after (Service.store .pair) (.ofSeconds 10) hperiod .empty
    lateErrands earlyErrands hreadings
  refine ⟨hperiod, hreadings, htimely, hentry, hplace, ?_⟩
  rcases hlives 1 Run.waitingEntry hentry with ⟨j, e', hj, he', hages⟩ | ⟨hnone, -⟩
  · obtain rfl : j = 0 := Option.some.inj (hj.symm.trans hplace)
    exact ⟨e', he', hages⟩
  · exact absurd (hnone.symm.trans hplace) (by simp)

end Traffic
end ListKeeper
