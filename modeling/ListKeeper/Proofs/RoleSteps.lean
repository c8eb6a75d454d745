import ListKeeper.Proofs.Roles
import ListKeeper.Proofs.Steps
import ListKeeper.Proofs.Validation

/-! Ids keep their roles. Every step goes on with roles that fit, and no id gives up a role that
lasts. Main statement: `World.Sound.step`. -/
namespace ListKeeper

/-- A quiet step of an addition takes no id. -/
theorem Adding.Quiet.id?_eq {c : Candidate} {m : Moment} {s : System} {stage stage' : Adding}
    (h : stage.Quiet c m s stage') (id : UInt64) (hid : stage'.id? = some id) :
    stage.id? = some id := by
  cases h with
  | refused htaken => cases hid
  | checked hfree => cases hid
  | unfetched id cause => cases hid
  | unwritten id body cause => cases hid
  | done outcome => cases hid
  | _ => exact hid

/-- What a stage knows of the ids is still so after a quiet step. -/
theorem Stage.Quiet.sound {m : Moment} {stage stage' : Stage} (h : stage.Quiet m stage')
    {role : UInt64 → Role} {es : List Entry} (hs : stage.Sound role es) : stage'.Sound role es := by
  cases h with
  | refused e cause => trivial
  | unwritten e stagedId body cause => trivial
  | tallied succeeded => trivial
  | committed report => trivial
  | _ => exact hs

namespace World

variable {w : World} {role : UInt64 → Role} {n : Nat}

/-- Roles that fit a world and give up none that lasts. -/
def Onward (role : UInt64 → Role) (w : World) (n : Nat) : Prop :=
  ∃ role', w.Sound role' n ∧ ∀ x, (role x).Lasts → role' x = role x

theorem Sound.onward (h : w.Sound role n) : Onward role w n := ⟨role, h, fun _ _ => rfl⟩

theorem getElem?_set_cases {α : Type} (xs : List α) (i j : Nat) (x y : α)
    (h : (xs.set i x)[j]? = some y) : (i = j ∧ y = x) ∨ (i ≠ j ∧ xs[j]? = some y) := by
  rw [List.getElem?_set] at h
  split at h
  · rename_i he
    split at h
    · exact .inl ⟨he, (Option.some.inj h).symm⟩
    · cases h
  · rename_i hne
    exact .inr ⟨hne, h⟩

theorem held_set {adds : List (Candidate × Adding)} (h : Held role adds) (caller : Nat)
    (c : Candidate) (stage stage' : Adding) (hadd : adds[caller]? = some (c, stage))
    (hid : ∀ id, stage'.id? = some id → stage.id? = some id) :
    Held role (adds.set caller (c, stage')) := by
  intro i c' st id hi hst
  rcases getElem?_set_cases _ _ _ _ _ hi with ⟨rfl, he⟩ | ⟨-, hi⟩
  · obtain ⟨rfl, rfl⟩ := Prod.mk.inj he
    exact h caller c' stage id hadd (hid id hst)
  · exact h i c' st id hi hst

/-- An addition goes on, and neither registry nor ids change. -/
theorem Sound.addOn (h : w.Sound role n) (caller : Nat) (c : Candidate) (stage stage' : Adding)
    (hadd : w.adds[caller]? = some (c, stage)) (s : System)
    (hreg : s.registry = w.system.registry) (hids : s.ids = w.system.ids)
    (hid : ∀ id, stage'.id? = some id → stage.id? = some id) :
    World.Sound role { w with system := s, adds := w.adds.set caller (c, stage') } n where
  table := by simpa only [entries, hreg] using h.table
  numbered := hids.symm ▸ h.numbered
  held := held_set h.held caller c stage stage' hadd hid
  stage := by simpa only [entries, hreg] using h.stage

/-- An addition takes an id. -/
theorem Sound.addMinted (h : w.Sound role n) (caller : Nat) (c : Candidate)
    (hm : n + 1 < IdSource.room) (now : Instant) :
    Onward role
      { w with
        system := { w.system with ids := w.system.ids.advance now }
        adds := w.adds.set caller (c, .fetch (w.system.ids.next now) .arrive) } (n + 1) := by
  obtain ⟨hunused, hnumbered⟩ := h.numbered.mint (r := .adding caller) hm now
  -- an id that no one has can take any role
  have hlasts : ¬ (role (w.system.ids.next now)).Lasts := by simp [hunused, Role.Lasts]
  refine ⟨_, ⟨h.table.update hlasts, hnumbered, ?_, h.stage.update hlasts (by simp [hunused])⟩,
    fun x hx => update_of_lasts hlasts x hx⟩
  intro i c' st id hi hst
  rcases getElem?_set_cases _ _ _ _ _ hi with ⟨rfl, he⟩ | ⟨-, hi⟩
  · obtain ⟨rfl, rfl⟩ := Prod.mk.inj he
    obtain rfl := Option.some.inj hst
    exact Function.update_self _ _ _
  · exact h.held.update (by simp [hunused]) i c' st id hi hst

/-- The id of an addition goes to its entry, which no one knew before. -/
theorem Sound.addInserted (h : w.Sound role n) (caller : Nat) (c : Candidate) (id : UInt64)
    (body : Bytes) (hadd : w.adds[caller]? = some (c, .insert id body))
    (hfree : w.system.registry.taken c.name c.url = false) (now : Instant) (event : Event) :
    Onward role
      { w with
        system := { w.system with
          registry := w.system.registry.append (c.entry id body now w.system.period) }.note event
        adds := w.adds.set caller (c, .done (.ok (c.entry id body now w.system.period))) } n := by
  have hrole : role id = .adding caller := h.held caller c _ id hadd rfl
  have hlasts : ¬ (role id).Lasts := by simp [hrole, Role.Lasts]
  -- an id that an addition holds is not that of an entry
  have hnew : ∀ e ∈ w.entries, e.id ≠ id := by
    rintro e he rfl
    rw [h.table.canonical e he] at hrole
    cases hrole
  have hcont : Continues role w.entries
      (w.entries ++ [c.entry id body now w.system.period]) := by
    intro e he
    rcases List.mem_append.mp he with he | he
    · exact .inl ⟨e, he, rfl, rfl, rfl, rfl⟩
    · rw [List.mem_singleton.mp he]
      refine .inr ⟨?_, rfl⟩
      change role id ≠ .canonical
      simp [hrole]
  refine ⟨Function.update role id .canonical, ⟨?table, ?numbered, ?held, ?stage⟩,
    fun x hx => update_of_lasts hlasts x hx⟩
  case table =>
    exact (h.table.update hlasts).append hnew (w.system.registry.taken_eq_false _ _ hfree)
      (Function.update_self _ _ _) rfl
  case numbered => exact h.numbered.update (by simp [hrole])
  case held =>
    intro i c' st x hi hst
    rcases getElem?_set_cases _ _ _ _ _ hi with ⟨-, he⟩ | ⟨hne, hi⟩
    · obtain ⟨rfl, rfl⟩ := Prod.mk.inj he
      cases hst
    · -- the id of another addition is another id
      have hx := h.held i c' st x hi hst
      rw [Function.update_of_ne, hx]
      rintro rfl
      rw [hrole] at hx
      exact hne (Role.adding.inj hx)
  case stage => exact (h.stage.continue hcont).update hlasts (by simp [hrole])

/-- An addition takes a step. -/
theorem Sound.add (h : w.Sound role n) (caller : Nat) (m : Moment)
    (hm : n + (w.mints (.add caller m)).toNat < IdSource.room) :
    Onward role (w.step (.add caller m)) (n + (w.mints (.add caller m)).toNat) := by
  cases hadd : w.adds[caller]? with
  | none =>
    simp only [step, mints, hadd]
    exact h.onward
  | some q =>
    obtain ⟨c, stage⟩ := q
    have hsteps := stage.steps c (caller + 1) m w.system
    simp only [step, mints, hadd] at hm ⊢
    generalize stage.step c (caller + 1) m w.system = out at hsteps ⊢
    cases hsteps with
    | quiet stage stage' s' hquiet hstill =>
      have hgo := h.addOn caller c stage stage' hadd s' hstill.registry hstill.ids hquiet.id?_eq
      -- a quiet step gives out no id, whatever its stage
      cases hquiet <;> exact hgo.onward
    | minted => exact h.addMinted caller c hm m.now
    | writing id body wr =>
      exact (h.addOn caller c (.write id body wr) (.write id body (w.system.write m id body wr).2)
        hadd (w.system.write m id body wr).1 rfl rfl fun x hx => hx).onward
    | inserted id body hfree => exact h.addInserted caller c id body hadd hfree m.now _
    | withdrawn id =>
      exact (h.addOn caller c (.withdraw id) (.done (.error c.duplicate)) hadd
        (w.system.discard m.disk id) (w.system.discard_registry m.disk id)
        (w.system.discard_ids m.disk id) (by simp [Adding.id?])).onward

theorem call_cases (w : World) (c : Candidate) (i : Nat) (q : Candidate × Adding)
    (h : (w.step (.call c)).adds[i]? = some q) : w.adds[i]? = some q ∨ q = (c, .check) := by
  change (w.adds ++ [(c, .check)])[i]? = some q at h
  by_cases hlt : i < w.adds.length
  · rw [List.getElem?_append_left hlt] at h
    exact .inl h
  · rw [List.getElem?_append_right (by omega), List.getElem?_singleton] at h
    split at h
    · exact .inr (Option.some.inj h).symm
    · cases h

theorem Sound.call (h : w.Sound role n) (c : Candidate) : (w.step (.call c)).Sound role n := by
  refine ⟨h.table, h.numbered, ?_, h.stage⟩
  intro i c' st id hi hst
  rcases w.call_cases c i _ hi with hi | he
  · exact h.held i c' st id hi hst
  · obtain ⟨-, rfl⟩ := Prod.mk.inj he
    cases hst

theorem Sound.delete (h : w.Sound role n) (url : String) :
    (w.step (.delete url)).Sound role n := by
  obtain ⟨es, journal, heq, hsub⟩ := w.system.delete_eq url
  simp only [step, heq]
  exact ⟨h.table.sublist hsub, h.numbered, h.held,
    h.stage.continue (Continues.of_subset role fun e he => hsub.subset he)⟩

theorem Sound.startPass (h : w.Sound role n) : (w.step .startPass).Sound role n := by
  simp only [step]
  split
  · exact ⟨h.table, h.numbered, h.held, trivial⟩
  · exact h

theorem mints_of_quiet {s : System} {adds : List (Candidate × Adding)} {stage stage' : Stage}
    {dirty : Bool} {report : PassReport} {m : Moment} (h : stage.Quiet m stage') :
    World.mints ⟨s, adds, ⟨stage, dirty, report⟩⟩ (.refresh m) = false := by
  cases h <;> rfl

/-- The refresher goes on, and neither registry nor ids change. -/
theorem Sound.goOn (h : w.Sound role n) (s : System) (r : Refresher)
    (hreg : s.registry = w.system.registry) (hids : s.ids = w.system.ids)
    (hstage : r.stage.Sound role w.entries) :
    World.Sound role { w with system := s, refresher := r } n where
  table := by simpa only [entries, hreg] using h.table
  numbered := hids.symm ▸ h.numbered
  held := h.held
  stage := by simpa only [entries, hreg] using hstage

theorem awaited_nil {es : List Entry} : Awaited role es [] :=
  ⟨by simp, by simp, by simp, by simp⟩

/-- An entry waits no more for the file that took the place of its own. The others wait on. -/
theorem Sound.cleared (h : w.Sound role n) (id stagedId : UInt64) (rest : List (UInt64 × UInt64))
    (hpairs : Awaited role w.entries ((id, stagedId) :: rest)) (rep : CommitReport) (dirty : Bool)
    (report : PassReport) :
    World.Sound role
      { w with
        system := { w.system with registry := (w.system.registry.clearPending id stagedId).2 }
        refresher := ⟨.commit (.promote rest rep), dirty, report⟩ } n := by
  rcases w.system.registry.clearPending_cases id stagedId with
    ⟨hsame, -⟩ | ⟨pre, x, post, hclear, hsplit, hid, hpend⟩
  · rw [hsame]
    exact h.goOn _ _ rfl rfl hpairs.tail
  · rw [hclear]
    have htable : Table role (pre ++ x :: post) := by
      rw [← hsplit]
      exact h.table
    have hrest := hpairs.tail
    refine ⟨htable.replace rfl rfl rfl (by simp [Entry.settled]), h.numbered, h.held, hrest.nodup,
      hrest.canonical, hrest.staged, ?_⟩
    intro p hp e he hpid
    -- the pairs that are left are those of other entries
    have hpne : p.1 ≠ id := by
      rintro rfl
      exact (List.nodup_cons.mp hpairs.nodup).1 (List.mem_map.mpr ⟨p, hp, rfl⟩)
    apply hrest.pending p hp e _ hpid
    change e ∈ w.system.registry.entries
    rw [hsplit]
    rcases List.mem_append.mp he with he | he
    · simp [he]
    · rcases List.mem_cons.mp he with rfl | he
      · exact absurd (hpid.symm.trans hid) hpne
      · simp [he]

/-- A commit takes a step. -/
theorem Sound.commit (h : w.Sound role n) (m : Moment) (c : Committing) (dirty : Bool)
    (report : PassReport) (hw : w.refresher = ⟨.commit c, dirty, report⟩) :
    World.Sound role
      { w with
        system := (c.step m w.system).1
        refresher := ⟨.commit (c.step m w.system).2, dirty, report⟩ } n := by
  have hpairs : Awaited role w.entries c.pairs := by
    have hs := h.stage
    rw [hw] at hs
    exact hs
  cases c with
  | snapshot =>
    have ha := h.table.awaited w.system.registry
    cases hstaged : w.system.registry.staged with
    | nil =>
      simp only [Committing.step, hstaged]
      exact h.goOn _ _ rfl rfl awaited_nil
    | cons p rest =>
      rw [hstaged] at ha
      simp only [Committing.step, hstaged]
      exact h.goOn _ _ rfl rfl ha
  | close pairs =>
    simp only [Committing.step]
    split <;> exact h.goOn _ _ rfl rfl hpairs
  | promote pairs rep =>
    cases pairs with
    | nil => exact h.goOn _ _ rfl rfl awaited_nil
    | cons q rest =>
      obtain ⟨id, stagedId⟩ := q
      have hne := hpairs.ne id stagedId (by simp [Committing.pairs])
      simp only [Committing.step, if_neg hne]
      split
      · exact h.goOn _ _ rfl rfl hpairs
      · exact h.goOn _ _ rfl rfl hpairs.tail
  | clear id stagedId rest rep => exact h.cleared id stagedId rest hpairs _ dirty report
  | restart rep =>
    simp only [Committing.step]
    split <;> exact h.goOn _ _ rfl rfl awaited_nil
  | count rep => exact h.goOn _ _ rfl rfl awaited_nil
  | done rep => exact h.goOn _ _ rfl rfl awaited_nil

/-- A pass selects an entry. -/
theorem Sound.selected (h : w.Sound role n) (pre post : List Entry) (x : Entry)
    (hsplit : w.entries = pre ++ x :: post) (now : Instant) (event : Event) (dirty : Bool)
    (report : PassReport) :
    World.Sound role
      { w with
        system := { w.system with
          registry := ⟨pre ++ x.reserve now w.system.period :: post⟩ }.note event
        refresher := ⟨.fetch (x.reserve now w.system.period) .arrive, dirty, report⟩ } n := by
  have htable : Table role (pre ++ x :: post) := by
    rw [← hsplit]
    exact h.table
  -- an entry that is put off keeps its id, its name, its url and its staged file
  have hnew : Table role (pre ++ x.reserve now w.system.period :: post) :=
    htable.replace rfl rfl rfl fun p hp => htable.pending x (by simp) p hp
  have hx : x.reserve now w.system.period ∈ pre ++ x.reserve now w.system.period :: post := by
    simp
  refine ⟨hnew, h.numbered, h.held, hnew.canonical _ hx, ?_⟩
  intro y hy hid
  rw [hnew.eq_of_id y _ hy hx hid]
  exact ⟨rfl, rfl⟩

/-- A pass takes an id for a file that it is about to write. -/
theorem Sound.minted (h : w.Sound role n) (e : Entry) (body : Bytes) (dirty : Bool)
    (report : PassReport) (hw : w.refresher = ⟨.mint e body, dirty, report⟩)
    (hm : n + 1 < IdSource.room) (now : Instant) :
    Onward role
      { w with
        system := { w.system with ids := w.system.ids.advance now }
        refresher := ⟨.write e (w.system.ids.next now) body .create, dirty, report⟩ } (n + 1) := by
  have hstage := h.stage
  rw [hw] at hstage
  obtain ⟨hunused, hnumbered⟩ := h.numbered.mint (r := .staging) hm now
  -- an id that no one has can take any role
  have hlasts : ¬ (role (w.system.ids.next now)).Lasts := by simp [hunused, Role.Lasts]
  have hsound : World.Sound (Function.update role (w.system.ids.next now) .staging)
      { w with
        system := { w.system with ids := w.system.ids.advance now }
        refresher := ⟨.write e (w.system.ids.next now) body .create, dirty, report⟩ } (n + 1) :=
    ⟨h.table.update hlasts, hnumbered, h.held.update (by simp [hunused]),
      Known.update hstage hlasts, Function.update_self _ _ _⟩
  exact ⟨_, hsound, fun y hy => update_of_lasts hlasts y hy⟩

/-- A staged file is recorded with its entry. -/
theorem Sound.recorded (h : w.Sound role n) (pre post : List Entry) (x : Entry)
    (hsplit : w.entries = pre ++ x :: post) (e : Entry) (stagedId : UInt64) (body : Bytes)
    (dirty : Bool) (report : PassReport)
    (hw : w.refresher = ⟨.record e stagedId body, dirty, report⟩)
    (now : Instant) (event : Event) (next : Stage)
    (hnext : (next = .tally true ∧ ∀ old, x.pending = some old → old = e.id) ∨
      ∃ old, next = .tidy old ∧ x.pending = some old) :
    Onward role
      { w with
        system := { w.system with
          registry := ⟨pre ++ x.staged stagedId (Rules.recorded body) now :: post⟩ }.note event
        refresher := ⟨next, true, report⟩ } n := by
  have hstage := h.stage
  rw [hw] at hstage
  obtain ⟨-, hstaging⟩ := hstage
  have hlasts : ¬ (role stagedId).Lasts := by simp [hstaging, Role.Lasts]
  have hpending (old : UInt64) (hold : x.pending = some old) : old ≠ stagedId :=
    h.table.pending_ne hstaging x (by rw [hsplit]; simp) old hold
  -- from now on the file is that of its entry, and no step gives up this role
  have htable : Table (Function.update role stagedId (.staged x.id)) (pre ++ x :: post) := by
    rw [← hsplit]
    exact h.table.update hlasts
  refine ⟨Function.update role stagedId (.staged x.id), ⟨?table, ?numbered, ?held, ?stage⟩,
    fun y hy => update_of_lasts hlasts y hy⟩
  case table =>
    refine htable.replace rfl rfl rfl ?_
    intro p hp
    obtain rfl := Option.some.inj hp
    exact Function.update_self _ _ _
  case numbered => exact h.numbered.update (by simp [hstaging])
  case held => exact h.held.update (by simp [hstaging])
  case stage =>
    rcases hnext with ⟨rfl, -⟩ | ⟨old, rfl, hold⟩
    · trivial
    · apply htable.stray old hold
      intro hsame
      exact hpending old hold (Option.some.inj hsame).symm

/-- The refresher takes a step. -/
theorem Sound.refresh (h : w.Sound role n) (m : Moment)
    (hm : n + (w.mints (.refresh m)).toNat < IdSource.room) :
    Onward role (w.step (.refresh m)) (n + (w.mints (.refresh m)).toNat) := by
  obtain ⟨s, adds, r⟩ := w
  have hstage := h.stage
  have hsteps := r.steps 0 m s
  simp only [step]
  generalize r.step 0 m s = out at hsteps ⊢
  cases hsteps with
  | quiet stage stage' dirty dirty' report report' s' hquiet hstill =>
    -- a quiet step gives out no id
    rw [mints_of_quiet hquiet]
    exact (h.goOn s' ⟨stage', dirty', report'⟩ hstill.registry hstill.ids
      (hquiet.sound hstage)).onward
  | selected pre post x dirty report hsplit =>
    exact (h.selected pre post x hsplit m.now _ dirty report).onward
  | exhausted dirty report =>
    refine (h.goOn s _ rfl rfl ?_).onward
    cases dirty || s.registry.hasPending with
    | true => exact awaited_nil
    | false => trivial
  | minted e body dirty report => exact h.minted e body dirty report rfl hm m.now
  | writing e stagedId body wr dirty report =>
    exact (h.goOn (s.write m stagedId body wr).1
      ⟨.write e stagedId body (s.write m stagedId body wr).2, dirty, report⟩ rfl rfl hstage).onward
  | recorded pre post x e stagedId body dirty report next hsplit hid hnext =>
    exact h.recorded pre post x hsplit e stagedId body dirty report rfl m.now _ next hnext
  | orphaned e stagedId body dirty report =>
    obtain ⟨-, hstaging⟩ := hstage
    refine (h.goOn s ⟨.tidy stagedId, dirty, report⟩ rfl rfl ⟨.inl hstaging, ?_⟩).onward
    exact fun y hy hp => h.table.pending_ne hstaging y hy stagedId hp rfl
  | tidied file dirty report =>
    exact (h.goOn (s.discard m.disk file) ⟨.tally true, dirty, report⟩
      (s.discard_registry m.disk file) (s.discard_ids m.disk file) trivial).onward
  | committing c dirty report => exact (h.commit m c dirty report rfl).onward

/-- Every step goes on with ids in their roles. -/
theorem Sound.step (h : w.Sound role n) (a : Act) (hm : n + (w.mints a).toNat < IdSource.room) :
    Onward role (w.step a) (n + (w.mints a).toNat) := by
  cases a with
  | call c => exact (h.call c).onward
  | add caller m => exact h.add caller m hm
  | delete url => exact (h.delete url).onward
  | startPass => exact h.startPass.onward
  | refresh m => exact h.refresh m hm

end World
end ListKeeper
