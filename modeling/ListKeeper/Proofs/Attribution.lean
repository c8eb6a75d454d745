import Mathlib.Data.List.Induction
import ListKeeper.Proofs.Leftovers
import ListKeeper.Proofs.Waiting

/-! Downloads and their entries. What a refresh downloads is recorded with the entry that was
selected for it, or with none where that entry was deleted meanwhile, be it that another one came
under its name and url. A file that was not recorded never takes the place of another one, and a
commit settles no file but the one that it has just renamed. Main statement:
`Run.download_attributed`. -/
namespace ListKeeper

def Event.renaming? : Event → Option (UInt64 × UInt64 × Bool)
  | renamed id stagedId succeeded => some (id, stagedId, succeeded)
  | _ => none

def renamings (journal : List Event) : List (UInt64 × UInt64 × Bool) :=
  journal.filterMap Event.renaming?

/-- A refresher does not hold a file: it is neither about to record it nor to rename it. And it does
not pause the consumer for nothing. -/
def Stage.Disowns (file : UInt64) : Stage → Prop
  | .write _ stagedId _ _ => stagedId ≠ file
  | .record _ stagedId _ => stagedId ≠ file
  | .commit c => c ≠ .close [] ∧ ∀ q ∈ c.pairs, q.2 ≠ file
  | _ => True

/-- Nobody waits for a file, and its id is not given out again. -/
structure World.Forgotten (w : World) (file : UInt64) : Prop where
  known : file.toNat ≤ w.system.ids.last.toNat
  entries : ∀ e ∈ w.entries, e.pending ≠ some file
  stage : w.refresher.stage.Disowns file

/-- What happens is noted, and renamings only of other files than this one. -/
def System.RenamesOthers (file : UInt64) (s s' : System) : Prop :=
  ∃ events, s'.journal = s.journal ++ events ∧ ∀ r ∈ renamings events, r.2.1 ≠ file

namespace System

variable {s s' : System}

theorem RenamesOthers.of_eq (file : UInt64) (h : s'.journal = s.journal) :
    s.RenamesOthers file s' :=
  ⟨[], by simp [h], by simp [renamings]⟩

theorem RenamesOthers.of_note (file : UInt64) (event : Event)
    (h : s'.journal = s.journal ++ [event])
    (hother : ∀ r ∈ event.renaming?, r.2.1 ≠ file) : s.RenamesOthers file s' := by
  refine ⟨[event], h, ?_⟩
  intro r hr
  obtain ⟨x, hx, hxr⟩ := List.mem_filterMap.mp hr
  rw [List.mem_singleton.mp hx] at hxr
  exact hother r hxr

theorem RenamesOthers.trans {s'' : System} {file : UInt64} (h : s.RenamesOthers file s')
    (h' : s'.RenamesOthers file s'') : s.RenamesOthers file s'' := by
  obtain ⟨events, heq, hother⟩ := h
  obtain ⟨events', heq', hother'⟩ := h'
  refine ⟨events ++ events', by rw [heq', heq, List.append_assoc], ?_⟩
  intro r hr
  rw [renamings, List.filterMap_append] at hr
  rcases List.mem_append.mp hr with hr | hr
  · exact hother r hr
  · exact hother' r hr

theorem Still.renamesOthers (h : s.Still s') (file : UInt64) : s.RenamesOthers file s' := by
  rcases h.journal with heq | ⟨url, heq⟩
  · exact .of_eq file heq
  · exact .of_note file _ heq (by simp [Event.renaming?])

end System

namespace World

variable {w : World} {role : UInt64 → Role} {n : Nat}

/-! ### A deleted entry does not come back -/

/-- An entry stays until it is deleted, and no other one ever gets its id. -/
theorem Sound.registered_step (h : w.Sound role n) (a : Act) (id : UInt64)
    (hrole : role id = .canonical) :
    id ∈ (w.step a).entries.map (·.id) ↔
      id ∈ w.entries.map (·.id) ∧ ∀ d ∈ w.deletes? a, d.id ≠ id := by
  have hstay (hno : w.deletes? a = none)
      (hsame : id ∈ (w.step a).entries.map (·.id) ↔ id ∈ w.entries.map (·.id)) :
      id ∈ (w.step a).entries.map (·.id) ↔
        id ∈ w.entries.map (·.id) ∧ ∀ d ∈ w.deletes? a, d.id ≠ id := by
    rw [hsame, hno]
    simp
  cases w.step_edits a with
  | same hnone hentries => exact hstay hnone (by rw [hentries])
  | selected pre post x m hact hselects hsplit hdue hentries =>
    exact hstay (by rw [hact]; rfl) (by simp [hentries, hsplit, Entry.reserve])
  | recorded pre post x e stagedId body m hact hstage hsplit hid hentries =>
    exact hstay (by rw [hact]; rfl) (by simp [hentries, hsplit, Entry.staged])
  | settled pre post x p m c hact hstage hsettles hpend hsplit hentries =>
    exact hstay (by rw [hact]; rfl) (by simp [hentries, hsplit, Entry.settled])
  | added caller m c newId body hact hadd hfree hentries =>
    -- the id of an addition is not that of an entry yet
    have hadding : role newId = .adding caller := h.held caller c _ newId hadd rfl
    have hne : id ≠ newId := by
      rintro rfl
      rw [hrole] at hadding
      cases hadding
    exact hstay (by rw [hact]; rfl) (by simp [hentries, Candidate.entry, hne])
  | removed pre post x hact hdeletes hsplit hentries =>
    have hids := h.table.ids
    rw [hsplit, List.map_append, List.map_cons, List.nodup_middle, List.nodup_cons,
      ← List.map_append] at hids
    rw [hdeletes, hsplit, hentries]
    constructor
    · intro hmem
      refine ⟨?_, ?_⟩
      · simp only [List.map_append, List.map_cons, List.mem_append, List.mem_cons] at hmem ⊢
        tauto
      · intro d hd
        obtain rfl := Option.some.inj hd
        rintro rfl
        exact hids.1 hmem
    · rintro ⟨hmem, hno⟩
      have hne : id ≠ x.id := fun he => hno x rfl he.symm
      simpa [hne] using hmem

/-- A download is recorded with the entry that has the id of the selected one, or nothing is done
where there is none. -/
theorem Sound.record_cases (h : w.Sound role n) (e : Entry) (stagedId : UInt64) (body : Bytes)
    (hstage : w.refresher.stage = .record e stagedId body) (m : Moment) :
    (e.id ∉ w.entries.map (·.id) ∧ w.step (.refresh m) =
        { w with refresher := w.refresher.enter (.tidy stagedId) }) ∨
      ∃ pre x post, w.entries = pre ++ x :: post ∧ x.id = e.id ∧ x.name = e.name ∧ x.url = e.url ∧
        (w.step (.refresh m)).entries =
          pre ++ x.staged stagedId (Rules.recorded body) m.now :: post := by
  obtain ⟨s, adds, ⟨stage, dirty, report⟩⟩ := w
  subst hstage
  obtain ⟨hknown, -⟩ : Known role s.registry.entries e ∧ role stagedId = .staging := h.stage
  rcases s.registry.stage_cases e.id stagedId (Rules.recorded body) m.now with
    ⟨hmissing, hgone⟩ | ⟨pre, x, post, hstaged, hsplit, hid⟩
  · refine .inl ⟨by simpa [World.entries] using hgone, ?_⟩
    simp only [World.step, Refresher.step, hmissing]
  · obtain ⟨hname, hurl⟩ := hknown.same x (by simp [hsplit]) hid
    refine .inr ⟨pre, x, post, hsplit, hid, hname, hurl, ?_⟩
    simp only [World.step, Refresher.step, hstaged]
    rfl

/-! ### A file that nobody waits for -/

/-- A commit takes no file that nobody waits for. -/
theorem Forgotten.commit {file : UInt64} (h : w.Forgotten file) (m : Moment) (c : Committing)
    (hc : c ≠ .close [] ∧ ∀ q ∈ c.pairs, q.2 ≠ file) :
    ((c.step m w.system).2 ≠ .close [] ∧ ∀ q ∈ (c.step m w.system).2.pairs, q.2 ≠ file) ∧
      w.system.RenamesOthers file (c.step m w.system).1 := by
  obtain ⟨hopen, hpairs⟩ := hc
  cases c with
  | snapshot =>
    simp only [Committing.step]
    split
    · exact ⟨⟨by simp, by simp [Committing.pairs]⟩, .of_eq file rfl⟩
    · rename_i hne
      refine ⟨⟨by simpa using hne, ?_⟩, .of_eq file rfl⟩
      -- a pair of the snapshot stands for an entry that waits, and none waits for this file
      intro q hq hqf
      obtain ⟨e, he, -, hpend⟩ := (w.system.registry.mem_staged q.1 q.2).mp hq
      exact h.entries e he (hqf ▸ hpend)
  | close pairs =>
    simp only [Committing.step]
    split <;> exact ⟨⟨by simp, hpairs⟩, .of_note file _ rfl (by simp [Event.renaming?])⟩
  | promote pairs rep =>
    cases pairs with
    | nil => exact ⟨⟨by simp [Committing.step], by simp [Committing.step, Committing.pairs]⟩,
        .of_eq file rfl⟩
    | cons q rest =>
      obtain ⟨id, stagedId⟩ := q
      have hne : stagedId ≠ file := hpairs (id, stagedId) (by simp [Committing.pairs])
      have hrest : ∀ q ∈ rest, q.2 ≠ file := fun q hq => hpairs q (by simp [Committing.pairs, hq])
      simp only [Committing.step]
      split
      · exact ⟨⟨by simp, hrest⟩, .of_eq file rfl⟩
      · split
        · exact ⟨⟨by simp, hpairs⟩, .of_note file _ rfl (by simpa [Event.renaming?] using hne)⟩
        · exact ⟨⟨by simp, hrest⟩, .of_note file _ rfl (by simpa [Event.renaming?] using hne)⟩
  | clear id stagedId rest rep =>
    exact ⟨⟨by simp [Committing.step], fun q hq => hpairs q (List.mem_cons_of_mem _ hq)⟩,
      .of_eq file rfl⟩
  | restart rep =>
    simp only [Committing.step]
    split <;> exact ⟨⟨by simp, by simp [Committing.pairs]⟩,
      .of_note file _ rfl (by simp [Event.renaming?])⟩
  | count rep =>
    exact ⟨⟨by simp [Committing.step], by simp [Committing.step, Committing.pairs]⟩,
      .of_eq file rfl⟩
  | done rep => exact ⟨⟨hopen, hpairs⟩, .of_eq file rfl⟩

/-- No entry comes to wait for a file that nobody holds. -/
theorem Forgotten.entries_step {file : UInt64} (h : w.Forgotten file) (a : Act) :
    ∀ e ∈ (w.step a).entries, e.pending ≠ some file := by
  -- where one entry is changed it is enough to look at that one
  have hreplace {pre post : List Entry} {x y : Entry} (hsplit : w.entries = pre ++ x :: post)
      (hy : y.pending ≠ some file) : ∀ e ∈ pre ++ y :: post, e.pending ≠ some file := by
    intro e he
    rcases Registry.eq_or_mem_of_replaced x he with rfl | he
    · exact hy
    · exact h.entries e (hsplit ▸ he)
  cases w.step_edits a with
  | same hnone hentries => rw [hentries]; exact h.entries
  | selected pre post x m hact hselects hsplit hdue hentries =>
    rw [hentries]
    exact hreplace hsplit (h.entries x (by simp [hsplit]))
  | recorded pre post x e stagedId body m hact hstage hsplit hid hentries =>
    have hs := h.stage
    rw [hstage] at hs
    rw [hentries]
    -- the refresher does not hold the file, so this is another one
    exact hreplace hsplit fun hp => hs (Option.some.inj hp)
  | settled pre post x p m c hact hstage hsettles hpend hsplit hentries =>
    rw [hentries]
    exact hreplace hsplit (by simp [Entry.settled])
  | added caller m c newId body hact hadd hfree hentries =>
    rw [hentries]
    intro e he
    rcases List.mem_append.mp he with he | he
    · exact h.entries e he
    · rw [List.mem_singleton.mp he]
      simp [Candidate.entry]
  | removed pre post x hact hdeletes hsplit hentries =>
    rw [hentries]
    intro e he
    apply h.entries e
    rw [hsplit]
    exact Registry.mem_of_removed x he

theorem Forgotten.add {file : UInt64} (h : w.Forgotten file) (hs : w.Sound role n) (caller : Nat)
    (m : Moment) (hm : n < IdSource.room) :
    (w.step (.add caller m)).Forgotten file ∧
      w.system.RenamesOthers file (w.step (.add caller m)).system := by
  have hentries := h.entries_step (.add caller m)
  have hlast := w.system.ids.last_lt_next m.now (by
    have hroom := hs.numbered.room
    unfold IdSource.room at hroom hm
    omega)
  have hknown := h.known
  cases hadd : w.adds[caller]? with
  | none =>
    simp only [World.step, hadd]
    exact ⟨h, .of_eq file rfl⟩
  | some q =>
    obtain ⟨c, stage⟩ := q
    have hsteps := stage.steps c (caller + 1) m w.system
    simp only [World.step, World.entries, hadd] at hentries ⊢
    generalize stage.step c (caller + 1) m w.system = out at hsteps hentries ⊢
    cases hsteps with
    | quiet stage stage' s' hquiet hstill =>
      exact ⟨⟨by rw [hstill.ids]; exact h.known, hentries, h.stage⟩, hstill.renamesOthers file⟩
    | minted =>
      refine ⟨⟨?_, hentries, h.stage⟩, .of_eq file rfl⟩
      change file.toNat ≤ (w.system.ids.next m.now).toNat
      omega
    | writing id body wr => exact ⟨⟨h.known, hentries, h.stage⟩, .of_eq file rfl⟩
    | inserted id body hfree =>
      exact ⟨⟨h.known, hentries, h.stage⟩, .of_note file _ rfl (by simp [Event.renaming?])⟩
    | withdrawn id =>
      refine ⟨⟨?_, hentries, h.stage⟩, .of_eq file (w.system.discard_journal m.disk id)⟩
      rw [w.system.discard_ids m.disk id]
      exact h.known

theorem Forgotten.refresh {file : UInt64} (h : w.Forgotten file) (hs : w.Sound role n) (m : Moment)
    (hm : n < IdSource.room) :
    (w.step (.refresh m)).Forgotten file ∧
      w.system.RenamesOthers file (w.step (.refresh m)).system := by
  have hentries := h.entries_step (.refresh m)
  have hlast := w.system.ids.last_lt_next m.now (by
    have hroom := hs.numbered.room
    unfold IdSource.room at hroom hm
    omega)
  have hknown := h.known
  have hstage := h.stage
  obtain ⟨s, adds, r⟩ := w
  have hsteps := r.steps 0 m s
  simp only [World.step, World.entries] at hentries hlast hknown ⊢
  generalize r.step 0 m s = out at hsteps hentries ⊢
  cases hsteps with
  | quiet stage stage' dirty dirty' report report' s' hquiet hstill =>
    refine ⟨⟨by rw [hstill.ids]; exact hknown, hentries, ?_⟩, hstill.renamesOthers file⟩
    cases hquiet <;> first | exact hstage | trivial
  | selected pre post x dirty report =>
    exact ⟨⟨hknown, hentries, trivial⟩, .of_note file _ rfl (by simp [Event.renaming?])⟩
  | exhausted dirty report =>
    refine ⟨⟨hknown, hentries, ?_⟩, .of_eq file rfl⟩
    cases dirty || s.registry.hasPending with
    | true => exact ⟨by simp, by simp [Committing.pairs]⟩
    | false => trivial
  | minted e body dirty report =>
    refine ⟨⟨?_, hentries, ?_⟩, .of_eq file rfl⟩
    · change file.toNat ≤ (s.ids.next m.now).toNat
      omega
    -- the new id is above all that are known
    · intro heq
      rw [heq] at hlast
      omega
  | writing e stagedId body wr => exact ⟨⟨hknown, hentries, hstage⟩, .of_eq file rfl⟩
  | recorded pre post x e stagedId body dirty report next hsplit hid hnext =>
    refine ⟨⟨hknown, hentries, ?_⟩, .of_note file _ rfl (by simp [Event.renaming?])⟩
    rcases hnext with ⟨rfl, -⟩ | ⟨old, rfl, -⟩ <;> trivial
  | orphaned e stagedId body => exact ⟨⟨hknown, hentries, trivial⟩, .of_eq file rfl⟩
  | tidied stray =>
    refine ⟨⟨?_, hentries, trivial⟩, .of_eq file (s.discard_journal m.disk stray)⟩
    rw [s.discard_ids m.disk stray]
    exact hknown
  | committing c =>
    obtain ⟨hc, hothers⟩ := h.commit m c hstage
    exact ⟨⟨by rw [c.step_ids m s]; exact hknown, hentries, hc⟩, hothers⟩

/-- A file that nobody waits for stays one, and it is never renamed. -/
theorem Forgotten.step {file : UInt64} (h : w.Forgotten file) (hs : w.Sound role n) (a : Act)
    (hm : n < IdSource.room) :
    (w.step a).Forgotten file ∧ w.system.RenamesOthers file (w.step a).system := by
  cases a with
  | call c => exact ⟨⟨h.known, h.entries, h.stage⟩, .of_eq file rfl⟩
  | add caller m => exact h.add hs caller m hm
  | delete url =>
    have hentries := h.entries_step (.delete url)
    rcases w.system.delete_cases url with
      ⟨hsame, -⟩ | ⟨pre, x, post, -, -, -, hdelete⟩
    · simp only [World.step, hsame]
      exact ⟨h, .of_eq file rfl⟩
    · simp only [World.step, hdelete] at hentries ⊢
      exact ⟨⟨h.known, hentries, h.stage⟩, .of_note file _ rfl (by simp [Event.renaming?])⟩
  | startPass =>
    simp only [World.step]
    split
    · exact ⟨⟨h.known, h.entries, trivial⟩, .of_eq file rfl⟩
    · exact ⟨h, .of_eq file rfl⟩
  | refresh m => exact h.refresh hs m hm

/-! ### What a commit settles -/

/-- Whoever is not the refresher renames no staged file, and leaves a pass under way alone. -/
theorem beside_step (w : World) (a : Act) (ha : ∀ m, a ≠ .refresh m) :
    ((w.step a).refresher = w.refresher ∨
        w.refresher.isIdle = true ∧ (w.step a).refresher = w.refresher.startPass) ∧
      renamings (w.step a).system.journal = renamings w.system.journal := by
  cases a with
  | call c => exact ⟨.inl rfl, rfl⟩
  | add caller m =>
    cases hadd : w.adds[caller]? with
    | none =>
      simp only [World.step, hadd]
      exact ⟨.inl trivial, trivial⟩
    | some q =>
      obtain ⟨c, stage⟩ := q
      have hsteps := stage.steps c (caller + 1) m w.system
      simp only [World.step, hadd]
      generalize stage.step c (caller + 1) m w.system = out at hsteps ⊢
      refine ⟨.inl trivial, ?_⟩
      cases hsteps with
      | quiet stage stage' s' hquiet hstill =>
        -- an addition notes a request at most, and that is no renaming
        rcases hstill.journal with heq | ⟨url, heq⟩ <;> simp [renamings, heq, Event.renaming?]
      | minted => rfl
      | writing id body wr => rfl
      | inserted id body hfree => simp [renamings, System.note, Event.renaming?]
      | withdrawn id => rw [w.system.discard_journal m.disk id]
  | delete url =>
    rcases w.system.delete_cases url with ⟨hsame, -⟩ | ⟨pre, x, post, -, -, -, hdelete⟩
    · simp only [World.step, hsame]
      exact ⟨.inl trivial, trivial⟩
    · simp only [World.step, hdelete]
      exact ⟨.inl trivial, by simp [renamings, System.note, Event.renaming?]⟩
  | startPass =>
    simp only [World.step]
    split
    · exact ⟨.inr ⟨‹_›, rfl⟩, rfl⟩
    · exact ⟨.inl rfl, rfl⟩
  | refresh m => exact absurd rfl (ha m)

/-- A commit that is about to settle a pair has just renamed its file. -/
def Settling (w : World) : Prop :=
  ∀ id stagedId rest report, w.refresher.stage = .commit (.clear id stagedId rest report) →
    (renamings w.system.journal).getLast? = some (id, stagedId, true)

theorem settling_commit (m : Moment) (s : System) (c : Committing) (id stagedId : UInt64)
    (rest : List (UInt64 × UInt64)) (report : CommitReport)
    (h : (c.step m s).2 = .clear id stagedId rest report) :
    (c.step m s).1.journal = s.journal ++ [.renamed id stagedId true] := by
  cases c with
  | promote pairs rep =>
    cases pairs with
    | nil => cases h
    | cons q rest' =>
      obtain ⟨id', stagedId'⟩ := q
      by_cases hsame : stagedId' = id'
      · simp only [Committing.step, if_pos hsame] at h
        cases h
      · simp only [Committing.step, if_neg hsame] at h ⊢
        cases hattempt : Store.attempt m.disk (s.store.promote s.tree stagedId' id') with
        | ok t =>
          simp only [hattempt] at h ⊢
          obtain ⟨rfl, rfl, -, -⟩ := Committing.clear.inj h
          rfl
        | error e =>
          simp only [hattempt] at h
          cases h
  | snapshot =>
    simp only [Committing.step] at h
    split at h <;> cases h
  | close pairs =>
    simp only [Committing.step] at h
    split at h <;> cases h
  | restart rep =>
    simp only [Committing.step] at h
    split at h <;> cases h
  | _ => cases h

theorem settling_refresh (w : World) (m : Moment) : (w.step (.refresh m)).Settling := by
  intro id stagedId rest report hstage
  obtain ⟨s, adds, r⟩ := w
  have hsteps := r.steps 0 m s
  simp only [World.step] at hstage ⊢
  generalize r.step 0 m s = out at hsteps hstage ⊢
  cases hsteps with
  | quiet stage stage' dirty dirty' report' report'' s' hquiet => cases hquiet <;> cases hstage
  | exhausted dirty report' =>
    revert hstage
    cases dirty || s.registry.hasPending <;> exact fun hstage => by cases hstage
  | recorded pre post x e file body dirty report' next hsplit hid hnext =>
    rcases hnext with ⟨rfl, -⟩ | ⟨old, rfl, -⟩ <;> cases hstage
  | committing c =>
    have hjournal := settling_commit m s c id stagedId rest report (Stage.commit.inj hstage)
    simp [renamings, hjournal, Event.renaming?]
  | _ => cases hstage

theorem Settling.step (h : w.Settling) (a : Act) : (w.step a).Settling := by
  by_cases ha : ∃ m, a = .refresh m
  · obtain ⟨m, rfl⟩ := ha
    exact w.settling_refresh m
  · simp only [not_exists] at ha
    obtain ⟨hrefresher, hrenamings⟩ := w.beside_step a ha
    intro id stagedId rest report hstage
    rcases hrefresher with hsame | ⟨-, hstart⟩
    · rw [hsame] at hstage
      rw [hrenamings]
      exact h id stagedId rest report hstage
    · rw [hstart] at hstage
      cases hstage

/-- The entry that a settled pair is about waits no more, and the others are left as they are; where
it was deleted, nothing changes. -/
theorem Sound.clear_cases (h : w.Sound role n) (id stagedId : UInt64)
    (rest : List (UInt64 × UInt64)) (report : CommitReport)
    (hstage : w.refresher.stage = .commit (.clear id stagedId rest report)) (m : Moment) :
    ((w.step (.refresh m)).entries = w.entries ∧ id ∉ w.entries.map (·.id)) ∨
      ∃ pre x post, w.entries = pre ++ x :: post ∧ x.id = id ∧ x.pending = some stagedId ∧
        (w.step (.refresh m)).entries = pre ++ x.settled :: post := by
  obtain ⟨s, adds, ⟨stage, dirty, rep⟩⟩ := w
  subst hstage
  have hpairs : Awaited role s.registry.entries ((id, stagedId) :: rest) := h.stage
  have hstep : (World.step ⟨s, adds, ⟨.commit (.clear id stagedId rest report), dirty, rep⟩⟩
      (.refresh m)).entries = (s.registry.clearPending id stagedId).2.entries := rfl
  rw [hstep]
  rcases s.registry.clearPending_cases id stagedId with
    ⟨hsame, hno⟩ | ⟨pre, x, post, hclear, hsplit, hid, hpend⟩
  · refine .inl ⟨congrArg Registry.entries hsame, ?_⟩
    intro hmem
    obtain ⟨e, he, rfl⟩ := List.mem_map.mp hmem
    -- a registered entry still waits for the file that was staged for it
    exact hno e he rfl (hpairs.pending (e.id, stagedId) (by simp) e he rfl)
  · exact .inr ⟨pre, x, post, hsplit, hid, hpend, congrArg Registry.entries hclear⟩

/-- An entry stops waiting for a file only when a commit settles the two. -/
theorem Sound.settled_step (h : w.Sound role n) (a : Act) (x y : Entry) (p : UInt64)
    (hx : x ∈ w.entries) (hpend : x.pending = some p) (hy : y ∈ (w.step a).entries)
    (hid : y.id = x.id) (hnone : y.pending = none) :
    ∃ m rest report, a = .refresh m ∧
      w.refresher.stage = .commit (.clear x.id p rest report) := by
  have heq (z : Entry) (hz : z ∈ w.entries) (hzid : z.id = x.id) : z = x :=
    h.table.eq_of_id z x hz hx hzid
  have hkept (hmem : y ∈ w.entries) : False := by
    rw [heq y hmem hid, hpend] at hnone
    cases hnone
  -- of the entries in the place of another one only a settled one waits for nothing
  have hsplit_cases {pre post : List Entry} {z z' : Entry} (hsplit : w.entries = pre ++ z :: post)
      (hmem : y ∈ pre ++ z' :: post) : y = z' := by
    rcases Registry.eq_or_mem_of_replaced z hmem with rfl | hmem
    · rfl
    · exact (hkept (hsplit ▸ hmem)).elim
  cases w.step_edits a with
  | same hno hentries => exact (hkept (hentries ▸ hy)).elim
  | selected pre post z m hact hselects hsplit hdue hentries =>
    obtain rfl := hsplit_cases hsplit (hentries ▸ hy)
    rw [heq z (by simp [hsplit]) hid] at hnone
    rw [show (x.reserve m.now w.system.period).pending = x.pending from rfl, hpend] at hnone
    cases hnone
  | recorded pre post z e stagedId body m hact hstage hsplit hzid hentries =>
    obtain rfl := hsplit_cases hsplit (hentries ▸ hy)
    cases hnone
  | settled pre post z q m c hact hstage hsettles hq hsplit hentries =>
    obtain rfl := hsplit_cases hsplit (hentries ▸ hy)
    obtain rfl := heq z (by simp [hsplit]) hid
    obtain rfl := Option.some.inj (hpend.symm.trans hq)
    have hs := h.stage
    rw [hstage] at hs
    cases c with
    | promote pairs rep =>
      cases pairs with
      | nil => cases hsettles
      | cons pair rest =>
        obtain ⟨id, stagedId⟩ := pair
        -- a staged file is never a list's own one
        have hne := Awaited.ne hs id stagedId (by simp [Committing.pairs])
        simp [Committing.settles?, hne] at hsettles
    | clear id stagedId rest rep =>
      obtain ⟨rfl, rfl⟩ := Prod.mk.inj (Option.some.inj hsettles)
      exact ⟨m, rest, rep, hact, hstage⟩
    | _ => cases hsettles
  | added caller m c newId body hact hadd hfree hentries =>
    rw [hentries] at hy
    rcases List.mem_append.mp hy with hy | hy
    · exact (hkept hy).elim
    · have hadding : role newId = .adding caller := h.held caller c _ newId hadd rfl
      obtain rfl := List.mem_singleton.mp hy
      have hid' : newId = x.id := hid
      rw [hid', h.table.canonical x hx] at hadding
      cases hadding
  | removed pre post z hact hdeletes hsplit hentries =>
    rw [hentries] at hy
    refine (hkept ?_).elim
    rw [hsplit]
    exact Registry.mem_of_removed z hy

end World

namespace Run

def deletions (k : Run) : List Act → List Entry
  | [] => []
  | a :: acts => (k.world.deletes? a).toList ++ (k.step a).deletions acts

/-- A download is recorded with an entry that is the selected one by its id, name and url, and no
other entry is changed. -/
def RecordsOn (k : Run) (e : Entry) (stagedId : UInt64) (body : Bytes) (m : Moment) : Prop :=
  ∃ pre x post, k.world.entries = pre ++ x :: post ∧ x.id = e.id ∧ x.name = e.name ∧ x.url = e.url ∧
    (k.step (.refresh m)).world.entries =
      pre ++ x.staged stagedId (Rules.recorded body) m.now :: post

/-- A download is not recorded: the file that was written for it is taken away instead. -/
structure Drops (k : Run) (e : Entry) (stagedId : UInt64) (body : Bytes) : Prop where
  gone : ∀ x ∈ k.world.entries, x.id ≠ e.id
  written : ∃ front, k.world.system.store.Has k.world.system.tree (.file stagedId) front ∧
    front <+: body
  /-- The pass goes on to take the file away, and nothing else happens. -/
  unchanged : ∀ m, (k.step (.refresh m)).world =
    { k.world with refresher := k.world.refresher.enter (.tidy stagedId) }
  /-- Whatever others do meanwhile, the next step of the pass takes the file away. -/
  removed : ∀ m meanwhile m', (∀ a ∈ meanwhile, ∀ m'', a ≠ .refresh m'') →
    let waiting := (k.step (.refresh m)).after meanwhile
    waiting.world.op? (.refresh m') = some (.remove (k.world.system.store.pathFor stagedId)) ∧
      (waiting.step (.refresh m')).world.entries = waiting.world.entries ∧
      (waiting.step (.refresh m')).world.refresher.dirty = k.world.refresher.dirty ∧
      (m'.disk.fault = none → k.world.system.store.Vacant
        (waiting.step (.refresh m')).world.system.tree (.file stagedId))
  /-- The file is never renamed, and never is the consumer paused for it. -/
  unused : ∀ m later, ((k.step (.refresh m)).after later).past.minted < IdSource.room →
    k.world.system.RenamesOthers stagedId ((k.step (.refresh m)).after later).world.system ∧
      ∀ pairs, ((k.step (.refresh m)).after later).world.refresher.stage = .commit (.close pairs) →
        pairs ≠ [] ∧ ∀ q ∈ pairs, q.2 ≠ stagedId

/-- What is downloaded and what is committed goes to the entry that it is meant for. -/
structure Attributed (k : Run) (acts : List Act) : Prop where
  /-- What is about to be recorded was downloaded for the entry that was selected last. It is
  recorded with that entry, unless this was deleted since. -/
  recorded : ∀ e stagedId body, (k.after acts).world.refresher.stage = .record e stagedId body →
    ∃ before a between now, acts = before ++ a :: between ∧
      (k.after before).world.selects? a = some (e, now) ∧
      ((k.after before).step a).selections between = [] ∧
      ((∀ d ∈ ((k.after before).step a).deletions between, d.id ≠ e.id) →
        ∀ m, (k.after acts).RecordsOn e stagedId body m) ∧
      ((∃ d ∈ ((k.after before).step a).deletions between, d.id = e.id) →
        (k.after acts).Drops e stagedId body)
  /-- What is about to be settled was renamed just before. Its entry forgets that very file, unless
  it was deleted, and no other entry is changed. -/
  cleared : ∀ id stagedId rest report,
    (k.after acts).world.refresher.stage = .commit (.clear id stagedId rest report) →
    (renamings (k.after acts).world.system.journal).getLast? = some (id, stagedId, true) ∧
      ∀ m, (((k.after acts).step (.refresh m)).world.entries = (k.after acts).world.entries ∧
          ∀ x ∈ (k.after acts).world.entries, x.id ≠ id) ∨
        ∃ pre x post, (k.after acts).world.entries = pre ++ x :: post ∧ x.id = id ∧
          x.pending = some stagedId ∧
          ((k.after acts).step (.refresh m)).world.entries = pre ++ x.settled :: post
  /-- No other act makes an entry forget its file. -/
  settled : ∀ a x y p, x ∈ (k.after acts).world.entries → x.pending = some p →
    y ∈ ((k.after acts).step a).world.entries → y.id = x.id → y.pending = none →
    ∃ m rest report, a = .refresh m ∧
      (k.after acts).world.refresher.stage = .commit (.clear x.id p rest report)

/-- An entry with a canonical id stays until it is deleted, and it never comes back. -/
theorem registered_after (k : Run) (role : UInt64 → Role) (hs : k.world.Sound role k.past.minted)
    (id : UInt64) (hrole : role id = .canonical) (acts : List Act)
    (hm : (k.after acts).past.minted < IdSource.room) :
    id ∈ (k.after acts).world.entries.map (·.id) ↔
      id ∈ k.world.entries.map (·.id) ∧ ∀ d ∈ k.deletions acts, d.id ≠ id := by
  induction acts generalizing k role with
  | nil => simp [deletions]
  | cons a acts ih =>
    have hfirst : (k.step a).past.minted < IdSource.room :=
      Nat.lt_of_le_of_lt ((k.step a).minted_le_after acts) hm
    obtain ⟨role', hs', hlasts⟩ := hs.step a hfirst
    have hrole' : role' id = .canonical := by
      rw [hlasts id (by rw [hrole]; trivial), hrole]
    have hfirst_iff := hs.registered_step a id hrole
    have hrest_iff := ih (k.step a) role' hs' hrole' hm
    rw [show k.after (a :: acts) = (k.step a).after acts from rfl, hrest_iff]
    rw [show (k.step a).world = k.world.step a from rfl, hfirst_iff, deletions]
    simp only [List.mem_append, Option.mem_toList, Option.mem_def, or_imp, forall_and, and_assoc]

/-- An entry that a pass refreshes is the one that it selected last. -/
theorem selected_before (k : Run) (hstart : k.world.refresher.stage.entry? = none)
    (acts : List Act) (e : Entry) (h : (k.after acts).world.refresher.stage.entry? = some e) :
    ∃ before a between now, acts = before ++ a :: between ∧
      (k.after before).world.selects? a = some (e, now) ∧
      ((k.after before).step a).selections between = [] := by
  induction acts using List.reverseRecOn with
  | nil =>
    rw [after_nil, hstart] at h
    cases h
  | append_singleton acts a ih =>
    rw [after_concat] at h
    rcases (k.after acts).world.entry?_step a e h with hold | ⟨now, hselects⟩
    · obtain ⟨before, a', between, now, rfl, hselects, hno⟩ := ih hold
      refine ⟨before, a', between ++ [a], now, by simp, hselects, ?_⟩
      rw [selections_concat, hno, ← after_append]
      -- a pass that refreshes an entry selects none
      have hnone : (k.after (before ++ a' :: between)).world.selects? a = none := by
        cases a with
        | refresh m =>
          generalize (k.after (before ++ a' :: between)).world = w at hold ⊢
          obtain ⟨s, adds, ⟨stage, dirty, report⟩⟩ := w
          cases stage with
          | select => cases hold
          | _ => rfl
        | _ => rfl
      simp [hnone]
    · exact ⟨acts, a, [], now, rfl, hselects, rfl⟩

theorem forgotten_after (k : Run) (role : UInt64 → Role) (hs : k.world.Sound role k.past.minted)
    (file : UInt64) (h : k.world.Forgotten file) (acts : List Act)
    (hm : (k.after acts).past.minted < IdSource.room) :
    (k.after acts).world.Forgotten file ∧
      k.world.system.RenamesOthers file (k.after acts).world.system := by
  induction acts generalizing k role with
  | nil => exact ⟨h, .of_eq file rfl⟩
  | cons a acts ih =>
    have hfirst : (k.step a).past.minted < IdSource.room :=
      Nat.lt_of_le_of_lt ((k.step a).minted_le_after acts) hm
    obtain ⟨role', hs', -⟩ := hs.step a hfirst
    obtain ⟨hstep, hothers⟩ := h.step hs a (Nat.lt_of_le_of_lt (k.minted_le_step a) hfirst)
    obtain ⟨hafter, hrest⟩ := ih (k.step a) role' hs' hstep hm
    exact ⟨hafter, hothers.trans hrest⟩

/-- A pass under way waits while others act. -/
theorem refresher_after (k : Run) (hbusy : k.world.refresher.isIdle = false) (acts : List Act)
    (hothers : ∀ a ∈ acts, ∀ m, a ≠ .refresh m) :
    (k.after acts).world.refresher = k.world.refresher := by
  induction acts generalizing k with
  | nil => rfl
  | cons a acts ih =>
    obtain ⟨hrefresher, -⟩ := k.world.beside_step a (hothers a (by simp))
    have hsame : (k.step a).world.refresher = k.world.refresher := by
      rcases hrefresher with hsame | ⟨hidle, -⟩
      · exact hsame
      · rw [hbusy] at hidle
        cases hidle
    rw [← hsame]
    exact ih (k.step a) (by rw [hsame, hbusy]) fun b hb => hothers b (by simp [hb])

/-- A pass that is about to take a file away does so in its next step. -/
theorem tidied_next (k : Run) (hplain : k.world.system.store.Plain) (file : UInt64)
    (hstage : k.world.refresher.stage = .tidy file) (m : Moment) :
    k.world.op? (.refresh m) = some (.remove (k.world.system.store.pathFor file)) ∧
      (k.step (.refresh m)).world.entries = k.world.entries ∧
      (k.step (.refresh m)).world.refresher.dirty = k.world.refresher.dirty ∧
      (m.disk.fault = none → k.world.system.store.Vacant
        (k.step (.refresh m)).world.system.tree (.file file)) := by
  obtain ⟨⟨s, adds, ⟨stage, dirty, report⟩⟩, past⟩ := k
  subst hstage
  refine ⟨rfl, ?_, rfl, ?_⟩
  · exact congrArg Registry.entries (s.discard_registry m.disk file)
  · exact s.discard_vacant hplain m.disk file

/-- A download whose entry is gone is dropped. -/
theorem drops_of_gone (k : Run) (role : UInt64 → Role) (hs : k.world.Sound role k.past.minted)
    {whole : Prop} (hf : k.world.Filled whole k.past) (e : Entry) (stagedId : UInt64)
    (body : Bytes)
    (hstage : k.world.refresher.stage = .record e stagedId body)
    (hgone : e.id ∉ k.world.entries.map (·.id)) : k.Drops e stagedId body := by
  -- without an entry to record it with, the file is to be taken away
  have hstep (m : Moment) : (k.step (.refresh m)).world =
      { k.world with refresher := k.world.refresher.enter (.tidy stagedId) } := by
    rcases hs.record_cases e stagedId body hstage m with ⟨-, hsame⟩ | ⟨pre, x, post, hsplit, hid, -⟩
    · exact hsame
    · apply absurd _ hgone
      simp [hsplit, hid]
  have hstaging : role stagedId = .staging := by
    have hsound := hs.stage
    rw [hstage] at hsound
    exact hsound.2
  -- its role is that of a staged file, so no entry waits for it
  have hforgotten (m : Moment) : (k.step (.refresh m)).world.Forgotten stagedId := by
    rw [hstep m]
    refine ⟨hs.numbered.le_last stagedId (by simp [hstaging]), ?_, trivial⟩
    intro x hx hp
    exact hs.table.pending_ne hstaging x hx stagedId hp rfl
  refine ⟨by simpa using hgone, ?written, hstep, ?removed, ?unused⟩
  case written =>
    have hfilled := hf.stage
    rw [hstage] at hfilled
    obtain ⟨front, hfront, hprefix, -⟩ := hfilled.2
    exact ⟨front, hfront, hprefix⟩
  case removed =>
    intro m meanwhile m' hothers waiting
    have hstore : waiting.world.system.store = k.world.system.store := by
      have hsettings := (k.step (.refresh m)).settings_after meanwhile
      rw [hstep m] at hsettings
      exact congrArg Prod.fst hsettings
    have hrefresher : waiting.world.refresher = k.world.refresher.enter (.tidy stagedId) := by
      have hwaits := (k.step (.refresh m)).refresher_after (by rw [hstep m]; rfl) meanwhile hothers
      rwa [hstep m] at hwaits
    have hnext := waiting.tidied_next (hstore ▸ hf.plain) stagedId (by rw [hrefresher]; rfl) m'
    rw [hstore, hrefresher] at hnext
    exact hnext
  case unused =>
    intro m later hlater
    have hfirst := Nat.lt_of_le_of_lt ((k.step (.refresh m)).minted_le_after later) hlater
    obtain ⟨role', hs', -⟩ := hs.step (.refresh m) hfirst
    obtain ⟨hafter, hothers⟩ :=
      (k.step (.refresh m)).forgotten_after role' hs' stagedId (hforgotten m) later hlater
    refine ⟨?_, ?_⟩
    · rwa [hstep m] at hothers
    · intro pairs hpairs
      have hdisowns := hafter.stage
      rw [hpairs] at hdisowns
      exact ⟨fun hnil => hdisowns.1 (by rw [hnil]), hdisowns.2⟩

/-- In every run, whatever is added, deleted and added again meanwhile, a download is recorded with
the entry that it was made for or with none, and a commit settles the file that it renamed. -/
theorem download_attributed (fetchable : String → Bool) (c : Config)
    (hc : c.fault? fetchable = none) (period : Span) (t : FileTree) (disks : UInt64 → Disk)
    (acts : List Act)
    (hm : ((loaded c period t disks).after acts).past.minted < IdSource.room) :
    (loaded c period t disks).Attributed acts := by
  obtain ⟨role, hs, hf⟩ := filled_after fetchable c hc period t disks acts False.elim hm
  refine ⟨?recorded, ?cleared, fun a x y p hx hpend hy hid hnone =>
    hs.settled_step a x y p hx hpend hy hid hnone⟩
  case recorded =>
    intro e stagedId body hstage
    obtain ⟨before, a, between, now, hacts, hselects, hno⟩ :=
      (loaded c period t disks).selected_before rfl acts e (by rw [hstage]; rfl)
    refine ⟨before, a, between, now, hacts, hselects, hno, ?_⟩
    have hsplit := (loaded c period t disks).after_append before a between
    rw [← hacts] at hsplit
    -- the selected entry is registered, so its id has its role from then on
    have hmiddle :
        (((loaded c period t disks).after before).step a).past.minted < IdSource.room := by
      rw [hsplit] at hm
      exact Nat.lt_of_le_of_lt (minted_le_after _ between) hm
    obtain ⟨role', hs', -⟩ := filled_after fetchable c hc period t disks (before ++ [a])
      False.elim (by rwa [after_concat])
    rw [after_concat] at hs'
    obtain ⟨pre, x, post, -, hentries, -⟩ :=
      ((loaded c period t disks).after before).world.selects?_eq_some a e now hselects
    have hmem : e ∈ (((loaded c period t disks).after before).step a).world.entries := by
      change e ∈ (((loaded c period t disks).after before).world.step a).entries
      simp [hentries]
    have hregistered := registered_after _ role' hs' e.id (hs'.table.canonical e hmem) between
      (hsplit ▸ hm)
    rw [← hsplit] at hregistered
    refine ⟨fun hkept m => ?_, fun hdeleted => ?_⟩
    · rcases hs.record_cases e stagedId body hstage m with ⟨hgone, -⟩ | hrecords
      · exact absurd (hregistered.mpr ⟨List.mem_map_of_mem hmem, hkept⟩) hgone
      · exact hrecords
    · apply drops_of_gone _ role hs hf e stagedId body hstage
      obtain ⟨d, hd, hid⟩ := hdeleted
      exact fun hstill => (hregistered.mp hstill).2 d hd hid
  case cleared =>
    intro id stagedId rest report hstage
    have hsettling : ((loaded c period t disks).after acts).world.Settling :=
      world_after World.Settling (fun w a h => h.step a) (loaded c period t disks)
        (fun _ _ _ _ hstart => by cases hstart) acts
    refine ⟨hsettling id stagedId rest report hstage, fun m => ?_⟩
    rcases hs.clear_cases id stagedId rest report hstage m with ⟨hsame, hgone⟩ | hcleared
    · exact .inl ⟨hsame, by simpa using hgone⟩
    · exact .inr hcleared

/-- The first list is deleted while its download is under way, and added again before the download
is recorded. -/
def readded : List Act :=
  .startPass :: List.replicate 5 (.refresh .calm) ++
    .delete "http://a.example/" :: .call ⟨"ads", "http://a.example/"⟩ ::
      List.replicate 12 (.add 0 .calm) ++ List.replicate 6 (.refresh .calm)

def selectedFirst : Entry :=
  { id := 1, enabled := true, name := "ads", url := "http://a.example/", ruleCount := 1
    lastUpdated := .epoch, nextUpdate := Moment.calm.now.deadline (.ofSeconds 10), pending := none }

/-- The download belongs to an entry that is gone, and another one has its name and url. -/
theorem download_attributed_readded :
    Config.pair.fault? (fun _ => true) = none ∧
      ((loaded .pair (.ofSeconds 10) .withLists).after readded).past.minted < IdSource.room ∧
      ((loaded .pair (.ofSeconds 10) .withLists).after readded).world.refresher.stage =
        .record selectedFirst 1001 [0x61] ∧
      (∃ x ∈ ((loaded .pair (.ofSeconds 10) .withLists).after readded).world.entries,
        x.id ≠ 1 ∧ x.name = "ads" ∧ x.url = "http://a.example/") ∧
      (loaded .pair (.ofSeconds 10) .withLists).Attributed readded := by
  have hc : Config.pair.fault? (fun _ => true) = none := by decide +kernel
  have hm : ((loaded .pair (.ofSeconds 10) .withLists).after readded).past.minted <
      IdSource.room := by
    decide +kernel
  have hagain : ∃ x ∈ ((loaded .pair (.ofSeconds 10) .withLists).after readded).world.entries,
      x.id ≠ 1 ∧ x.name = "ads" ∧ x.url = "http://a.example/" := by
    decide +kernel
  exact ⟨hc, hm, rfl, hagain, download_attributed (fun _ => true) .pair hc (.ofSeconds 10)
    .withLists .readsAll readded hm⟩

end Run
end ListKeeper
