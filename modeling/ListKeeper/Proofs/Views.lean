import ListKeeper.Proofs.Edits
import ListKeeper.Proofs.Identity
import ListKeeper.Proofs.Pages

/-! The views of the registry. In every state of every run the look-ups, the pages and the deletions
find the same entries, since no two of them have the same id, name or url; and what was deleted can
be added once more. Main statements: `Run.welcome_after` and `Run.views_agree`. -/
namespace ListKeeper

/-! ### Deletions -/

/-- Where an entry is set apart from all others, the first that fits is the only one that does. -/
theorem Registry.delete_eq_filter (r : Registry) (e : Entry) (h : (r.entries.map (·.url)).Nodup)
    (he : e ∈ r.entries) : r.delete e.url = ⟨r.entries.filter (· ≠ e)⟩ := by
  obtain ⟨pre, post, hsplit⟩ := List.append_of_mem he
  rw [hsplit, List.map_append, List.map_cons, List.nodup_middle, List.nodup_cons,
    ← List.map_append] at h
  have hother : ∀ x ∈ pre ++ post, x.url ≠ e.url := fun x hx heq =>
    h.1 (heq ▸ List.mem_map_of_mem hx)
  have hothers : (pre ++ post).filter (· ≠ e) = pre ++ post := by
    refine List.filter_eq_self.mpr fun x hx => ?_
    have hne : x ≠ e := fun heq => hother x hx (congrArg Entry.url heq)
    simpa using hne
  have herase : (pre ++ e :: post).eraseP (fun x => x.url == e.url) = pre ++ post := by
    rw [List.eraseP_append_right]
    · simp
    · intro x hx heq
      exact hother x (List.mem_append_left post hx) (eq_of_beq heq)
  have hfilter : (pre ++ e :: post).filter (· ≠ e) = (pre ++ post).filter (· ≠ e) := by
    simp [List.filter_append]
  rw [Registry.delete, hsplit, herase, hfilter, hothers]

/-- What the deletion of a registered entry comes to: the others are left, in their order. -/
structure System.Deletes (s : System) (e : Entry) : Prop where
  returned : (s.delete e.url).1 = some e
  left : (s.delete e.url).2 =
    { s with registry := ⟨s.registry.entries.filter (· ≠ e)⟩ }.note (.deleted e)
  gone : ∀ x ∈ (s.delete e.url).2.registry.entries, x.id ≠ e.id ∧ x.name ≠ e.name ∧ x.url ≠ e.url

namespace System

variable {s : System}

theorem delete_of_not_mem (url : String) (h : ∀ e ∈ s.registry.entries, e.url ≠ url) :
    s.delete url = (none, s) := by
  have hget : s.registry.get? url = none := by
    refine List.find?_eq_none.mpr fun e he heq => ?_
    exact h e he (eq_of_beq heq)
  rw [delete, hget]

theorem deletes (h : s.Identified) (e : Entry) (he : e ∈ s.registry.entries) : s.Deletes e := by
  have hget : s.registry.get? e.url = some e := s.registry.find?_of_mem (·.url) h.urls_nodup e he
  have hdelete : s.delete e.url = (some e,
      { s with registry := ⟨s.registry.entries.filter (· ≠ e)⟩ }.note (.deleted e)) := by
    rw [delete, hget, s.registry.delete_eq_filter e h.urls_nodup he]
  refine ⟨by rw [hdelete], by rw [hdelete], ?_⟩
  intro x hx
  rw [hdelete] at hx
  obtain ⟨hmem, hne⟩ := List.mem_filter.mp hx
  have hother : x ≠ e := by simpa using hne
  exact ⟨fun heq => hother (List.inj_on_of_nodup_map h.ids_nodup hmem he heq),
    fun heq => hother (List.inj_on_of_nodup_map h.names_nodup hmem he heq),
    fun heq => hother (List.inj_on_of_nodup_map h.urls_nodup hmem he heq)⟩

end System

/-! ### An addition after the deletion -/

/-- Another addition is about to put in an entry with the name or the url of a candidate. -/
def World.Rivals (w : World) (caller : Nat) (c : Candidate) (a : Act) : Prop :=
  ∃ i m q id body, a = .add i m ∧ i ≠ caller ∧ w.adds[i]? = some (q, .insert id body) ∧
    (q.name = c.name ∨ q.url = c.url)

/-- No other addition puts in an entry with the name or the url of a candidate. -/
def Run.Unrivalled (k : Run) (caller : Nat) (c : Candidate) (acts : List Act) : Prop :=
  ∀ before a, before ++ [a] <+: acts → ¬ (k.after before).world.Rivals caller c a

/-- An addition that was not turned away because of its name or its url. -/
def Adding.Welcome : Adding → Prop
  | .withdraw _ => False
  | .done (.error (.duplicate _ _)) => False
  | _ => True

/-- An addition was not turned away, and it will not be unless its name or its url gets taken. -/
def World.Welcomes (w : World) (caller : Nat) (c : Candidate) : Prop :=
  ∃ stage, w.adds[caller]? = some (c, stage) ∧ stage.Welcome ∧
    (w.system.registry.taken c.name c.url = false ∨ ∃ outcome, stage = .done outcome)

/-- A step of an addition whose name and url are free leaves them free or ends it. -/
theorem Adding.welcome_step (c : Candidate) (ticket : Nat) (m : Moment) (s : System)
    (stage : Adding) (h : stage.Welcome)
    (hfree : s.registry.taken c.name c.url = false ∨ ∃ outcome, stage = .done outcome) :
    (stage.step c ticket m s).2.Welcome ∧
      ((stage.step c ticket m s).1.registry.taken c.name c.url = false ∨
        ∃ outcome, (stage.step c ticket m s).2 = .done outcome) := by
  rcases hfree with hfree | ⟨outcome, rfl⟩
  · have hsteps := stage.steps c ticket m s
    generalize stage.step c ticket m s = out at hsteps ⊢
    cases hsteps with
    | quiet stage stage' s' hquiet hstill =>
      refine ⟨?_, .inl (hstill.registry ▸ hfree)⟩
      cases hquiet with
      | refused htaken => simp [hfree] at htaken
      | doubled id body htaken => simp [hfree] at htaken
      | unfetched id cause => cases cause <;> trivial
      | done outcome => exact h
      | _ => trivial
    | minted => exact ⟨trivial, .inl hfree⟩
    | writing id body w => exact ⟨trivial, .inl hfree⟩
    | inserted id body hfree => exact ⟨trivial, .inr ⟨_, rfl⟩⟩
    | withdrawn id => exact h.elim
  · exact ⟨h, .inr ⟨outcome, rfl⟩⟩

namespace World

variable {w : World} {caller : Nat} {c : Candidate}

/-- A name and a url stay free unless another addition takes them. -/
theorem free_step (hfree : w.system.registry.taken c.name c.url = false) (a : Act)
    (hown : ∀ m, a ≠ .add caller m) (hrival : ¬ w.Rivals caller c a) :
    (w.step a).system.registry.taken c.name c.url = false := by
  rw [Registry.taken_eq_false_iff] at hfree ⊢
  change ∀ e ∈ (w.step a).entries, _
  change ∀ e ∈ w.entries, _ at hfree
  -- a refresh and a commit put another state of the same list in an entry's place
  have hreplaced {pre post : List Entry} {x y : Entry} (hsplit : w.entries = pre ++ x :: post)
      (hname : y.name = x.name) (hurl : y.url = x.url) :
      ∀ e ∈ pre ++ y :: post, e.name ≠ c.name ∧ e.url ≠ c.url := by
    intro e he
    rw [hsplit] at hfree
    rcases Registry.eq_or_mem_of_replaced x he with rfl | he
    · rw [hname, hurl]
      exact hfree x (by simp)
    · exact hfree e he
  cases w.step_edits a with
  | same hnone hentries => rwa [hentries]
  | selected pre post x m hact hselects hsplit hdue hentries =>
    exact hentries ▸ hreplaced hsplit rfl rfl
  | recorded pre post x y stagedId body m hact hstage hsplit hid hentries =>
    exact hentries ▸ hreplaced hsplit rfl rfl
  | settled pre post x p m q hact hstage hsettles hpend hsplit hentries =>
    exact hentries ▸ hreplaced hsplit rfl rfl
  | added i m q id body hact hadd hnew hentries =>
    rw [hentries]
    intro e he
    rcases List.mem_append.mp he with he | he
    · exact hfree e he
    · obtain rfl := List.mem_singleton.mp he
      have hne : i ≠ caller := by
        rintro rfl
        exact hown m hact
      have hboth := fun hsame => hrival ⟨i, m, q, id, body, hact, hne, hadd, hsame⟩
      exact ⟨fun hname => hboth (.inl hname), fun hurl => hboth (.inr hurl)⟩
  | removed pre post x hact hdeletes hsplit hentries =>
    rw [hentries]
    intro e he
    exact hfree e (hsplit ▸ Registry.mem_of_removed x he)

theorem Welcomes.step (h : w.Welcomes caller c) (a : Act) (hrival : ¬ w.Rivals caller c a) :
    (w.step a).Welcomes caller c := by
  obtain ⟨stage, hadd, hwelcome, hfree⟩ := h
  by_cases hown : ∃ m, a = .add caller m
  · obtain ⟨m, rfl⟩ := hown
    obtain ⟨hsystem, hafter⟩ := step_add stage hadd m
    obtain ⟨hnext, hfree'⟩ := stage.welcome_step c (caller + 1) m w.system hwelcome hfree
    exact ⟨_, hafter, hnext, hsystem ▸ hfree'⟩
  · have hother : ∀ m, a ≠ .add caller m := fun m heq => hown ⟨m, heq⟩
    refine ⟨stage, adds_step_of_ne _ hadd a hother, hwelcome, ?_⟩
    exact hfree.imp_left fun hfree => free_step hfree a hother hrival

end World

namespace Run

variable {k : Run} {caller : Nat} {c : Candidate}

theorem welcome_after (h : k.world.Welcomes caller c) (acts : List Act)
    (hrivals : k.Unrivalled caller c acts) : (k.after acts).world.Welcomes caller c := by
  induction acts generalizing k with
  | nil => exact h
  | cons a acts ih =>
    have hfirst : ¬ k.world.Rivals caller c a := hrivals [] a (List.prefix_append [a] acts)
    refine ih (k := k.step a) (h.step a hfirst) fun before b hfront => ?_
    exact hrivals (a :: before) b ((List.prefix_cons_inj a).mpr hfront)

/-- An addition that nobody else's steps come between has no rival. -/
theorem unrivalled_of_alone (acts : List Act) (h : ∀ i m, .add i m ∈ acts → i = caller) :
    k.Unrivalled caller c acts := by
  rintro before a hfront ⟨i, m, q, id, body, rfl, hne, -⟩
  exact hne (h i m (hfront.subset (by simp)))

/-- What was deleted is called for once more, as the next of the additions. -/
def readd (k : Run) (e : Entry) : Run := (k.step (.delete e.url)).step (.call ⟨e.name, e.url⟩)

structure Views (k : Run) (updatesEnabled : Bool) : Prop where
  get? : ∀ e ∈ k.world.entries, k.world.system.registry.get? e.url = some e
  getById? : ∀ e ∈ k.world.entries, k.world.system.registry.getById? e.id = some e
  pages : ∃ items, Status.Shows k.world.system updatesEnabled items
  deletes : ∀ e ∈ k.world.entries, k.world.system.Deletes e
  unknown : ∀ url, (∀ e ∈ k.world.entries, e.url ≠ url) →
    k.world.system.delete url = (none, k.world.system)
  /-- The addition is turned away only if another one with its name or its url is put in first. -/
  readds : ∀ e ∈ k.world.entries, ∀ more,
    (k.readd e).Unrivalled k.world.adds.length ⟨e.name, e.url⟩ more →
      ∃ stage, ((k.readd e).after more).world.adds[k.world.adds.length]? =
          some (⟨e.name, e.url⟩, stage) ∧
        ∀ name url, stage ≠ .done (.error (.duplicate name url))

theorem welcomes_readd (h : k.world.system.Identified) (e : Entry) (he : e ∈ k.world.entries) :
    (k.readd e).world.Welcomes k.world.adds.length ⟨e.name, e.url⟩ := by
  refine ⟨.check, ?_, trivial, .inl ?_⟩
  · change (k.world.adds ++ [_])[k.world.adds.length]? = _
    rw [List.getElem?_append_right (Nat.le_refl _), Nat.sub_self]
    rfl
  · apply (Registry.taken_eq_false_iff _ _ _).mpr
    intro x hx
    exact ((System.deletes h e he).gone x hx).2

theorem views_of_identified (h : k.world.system.Identified) (updatesEnabled : Bool) :
    k.Views updatesEnabled where
  get? e he := k.world.system.registry.find?_of_mem (·.url) h.urls_nodup e he
  getById? e he := k.world.system.registry.find?_of_mem (·.id) h.ids_nodup e he
  pages := ⟨_, Status.shows k.world.system updatesEnabled h.ids_nodup⟩
  deletes e he := System.deletes h e he
  unknown url hno := System.delete_of_not_mem url hno
  readds e he more hrivals := by
    obtain ⟨stage, hadd, hwelcome, -⟩ := welcome_after (welcomes_readd h e he) more hrivals
    refine ⟨stage, hadd, ?_⟩
    rintro name url rfl
    exact hwelcome

/-- In every state of every run, the look-ups by url and by id find every entry that is listed; the
pages show each under its id and no other, and count them; the deletion of one gives it back and
leaves the others in their order, that of any other url changes nothing; and what was deleted can be
added once more. -/
theorem views_agree (fetchable : String → Bool) (c : Config) (hc : c.fault? fetchable = none)
    (period : Span) (t : FileTree) (disks : UInt64 → Disk) (acts : List Act)
    (hm : ((loaded c period t disks).after acts).past.minted < IdSource.room)
    (updatesEnabled : Bool) :
    ((loaded c period t disks).after acts).Views updatesEnabled := by
  obtain ⟨role, hsound⟩ := sound_after fetchable c hc period t disks acts hm
  exact views_of_identified (hsound.identified hm) updatesEnabled

/-- The first list waits for its commit, and one was added behind the second. -/
def waitingRun : Run := (loaded .pair (.ofSeconds 10) .withLists).after addedMeanwhile

theorem views_agree_readded :
    Config.pair.fault? (fun _ => true) = none ∧ waitingRun.past.minted < IdSource.room ∧
      waitingRun.world.entries.map (fun e => (e.id, e.pending.isSome)) =
        [(1, true), (2, false), (1001, false)] ∧
      waitingRun.Views true ∧
      ∃ e ∈ waitingRun.world.entries, e.id = 1 ∧
        (waitingRun.readd e).Unrivalled 1 ⟨e.name, e.url⟩ (List.replicate 12 (.add 1 .calm)) ∧
        ((waitingRun.readd e).after (List.replicate 12 (.add 1 .calm))).world.entries.map (·.id) =
          [2, 1001, 1002] := by
  have hc : Config.pair.fault? (fun _ => true) = none := by decide +kernel
  have hm : waitingRun.past.minted < IdSource.room := by decide +kernel
  have hne : waitingRun.world.entries ≠ [] := by decide +kernel
  refine ⟨hc, hm, by decide +kernel,
    views_agree (fun _ => true) .pair hc (.ofSeconds 10) .withLists .readsAll addedMeanwhile hm
      true,
    waitingRun.world.entries.head hne, List.head_mem hne, by decide +kernel +revert, ?_,
    by decide +kernel +revert⟩
  refine unrivalled_of_alone _ fun i m hi => ?_
  obtain ⟨-, hact⟩ := List.mem_replicate.mp hi
  exact (Act.add.inj hact).1

end Run
end ListKeeper
