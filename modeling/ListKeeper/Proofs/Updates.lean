import ListKeeper.Proofs.Contents
import ListKeeper.Proofs.Identity

/-! No update is lost. Whatever is added, deleted and refreshed meanwhile, and whatever fails, the
content that a list obtained last can be read where its entry says; all of it, as long as the disk
tells of its failures. Main statements: `World.Filled.step` and `Run.content_after`. -/
namespace ListKeeper

namespace World

variable {w : World} {role : UInt64 → Role} {n : Nat} {whole : Prop} {p : Past}

/-! ### An addition takes a step -/

/-- An addition goes on with the files of its id, and the registry stays. -/
theorem Filled.addOn (h : w.Filled whole p) (hs : w.Sound role n) (caller : Nat) (c : Candidate)
    (stage stage' : Adding) (hadd : w.adds[caller]? = some (c, stage)) (p' : Past) (hp : p.Keeps p')
    (s : System) (hstore : s.store = w.system.store) (hreg : s.registry = w.system.registry)
    (xs : List Slot) (hk : w.system.store.Keeps w.system.tree s.tree xs)
    (hxs : ∀ x ∈ xs, stage.id? = some x.id) (hnew : stage'.Filled whole w.system.store s.tree) :
    World.Filled { w with system := s, adds := w.adds.set caller (c, stage') } whole p' := by
  have hrole : ∀ x ∈ xs, role x.id = .adding caller := fun x hx =>
    hs.held caller c stage x.id hadd (hxs x hx)
  refine ⟨hstore ▸ h.plain, ?_, ?_, ?_⟩
  · intro e he
    rw [World.entries, hreg] at he
    -- the id of an addition is no entry's yet
    have hplace : .file (e.place w.refresher.stage.promoting?) ∉ xs :=
      hs.table.place_not_mem e he _ (by simp [Role.Lasts]) hrole
    exact hstore ▸ (h.entries e he).keep hk hplace (hp.latest e.id) hp.downloads
  · intro i c' st hi
    rcases getElem?_set_cases _ _ _ _ _ hi with ⟨rfl, he⟩ | ⟨hne, hi⟩
    · obtain ⟨rfl, rfl⟩ := Prod.mk.inj he
      exact hstore ▸ hnew
    · -- another addition holds another id
      refine hstore ▸ (h.adds i c' st hi).keep hk ?_
      rintro id hid x hx rfl
      have hother := hs.held i c' st x.id hi hid
      rw [hrole x hx] at hother
      exact hne (Role.adding.inj hother)
  · exact hstore ▸ h.stage.keep caller hs.stage hk hrole hp.downloads

/-- The entry of an addition is put in and obtains the content that was written for it. -/
theorem Filled.addInserted (h : w.Filled whole p) (hs : w.Sound role n) (caller : Nat)
    (c : Candidate) (id : UInt64) (body : Bytes)
    (hadd : w.adds[caller]? = some (c, .insert id body)) (p' : Past)
    (hlatest : ∀ y, p'.latest? y = if y = id then some body else p.latest? y)
    (hdown : ∀ d ∈ p.downloads, d ∈ p'.downloads) (now : Instant) (event : Event) :
    World.Filled
      { w with
        system := { w.system with
          registry := w.system.registry.append (c.entry id body now w.system.period) }.note event
        adds := w.adds.set caller (c, .done (.ok (c.entry id body now w.system.period))) }
      whole p' := by
  have hk := Store.Keeps.refl w.system.store w.system.tree []
  have hwritten : w.system.store.Holds whole w.system.tree (.file id) body :=
    h.adds caller c _ hadd
  have hid : role id = .adding caller := hs.held caller c _ id hadd rfl
  refine ⟨h.plain, ?_, ?_, h.stage.keep caller hs.stage hk (by simp) hdown⟩
  · intro e he
    rcases List.mem_append.mp he with he | he
    · refine (h.entries e he).keep hk (by simp) ?_ hdown
      rw [hlatest, if_neg]
      -- a registered entry has another id than one that is still being added
      intro he'
      rw [← he', hs.table.canonical e he] at hid
      cases hid
    · rw [List.mem_singleton.mp he]
      exact .inserted hwritten (by rw [hlatest, if_pos rfl]) c now w.system.period _
  · intro i c' st hi
    rcases getElem?_set_cases _ _ _ _ _ hi with ⟨rfl, he⟩ | ⟨-, hi⟩
    · obtain ⟨rfl, rfl⟩ := Prod.mk.inj he
      trivial
    · exact h.adds i c' st hi

/-- An addition takes a step. -/
theorem Filled.add (h : w.Filled whole p) (hs : w.Sound role n) (caller : Nat) (m : Moment)
    (htold : whole → m.disk.hides = false) :
    (w.step (.add caller m)).Filled whole (p.note w (.add caller m)) := by
  have hkeeps := p.keeps_note w (.add caller m)
  cases hadd : w.adds[caller]? with
  | none =>
    have hp := hkeeps (by simp only [obtains?, hadd])
    have hk := Store.Keeps.refl w.system.store w.system.tree []
    simp only [step, hadd]
    exact ⟨h.plain, fun e he => (h.entries e he).keep hk (by simp) (hp.latest e.id) hp.downloads,
      h.adds, h.stage.keep caller hs.stage hk (by simp) hp.downloads⟩
  | some q =>
    obtain ⟨c, stage⟩ := q
    have hfilled := h.adds caller c stage hadd
    have hsteps := stage.steps c (caller + 1) m w.system
    simp only [step, hadd]
    generalize stage.step c (caller + 1) m w.system = out at hsteps ⊢
    cases hsteps with
    | quiet stage stage' s' hquiet hstill =>
      -- a quiet step gives no list its content
      have hno : w.obtains? (.add caller m) = none := by
        simp only [obtains?, hadd]
        cases hquiet with
        | doubled id body htaken => simp [htaken]
        | _ => rfl
      exact h.addOn hs caller c stage stage' hadd _ (hkeeps hno) s' hstill.store
        hstill.registry [] (hstill.tree ▸ Store.Keeps.refl _ _ _) (by simp)
        (hstill.tree ▸ hquiet.filled hfilled)
    | minted =>
      exact h.addOn hs caller c .mint (.fetch (w.system.ids.next m.now) .arrive) hadd _
        (hkeeps (by simp only [obtains?, hadd])) { w.system with ids := w.system.ids.advance m.now }
        rfl rfl [] (Store.Keeps.refl _ _ _) (by simp) trivial
    | writing id body wr =>
      obtain ⟨hnew, hk⟩ :=
        w.system.store.writeStep_progress h.plain id body m.disk htold w.system.tree wr hfilled
      exact h.addOn hs caller c (.write id body wr)
        (.write id body (w.system.write m id body wr).2) hadd _
        (hkeeps (by simp only [obtains?, hadd])) (w.system.write m id body wr).1 rfl rfl
        [.file id, .temp id] hk (by simp [Adding.id?, Slot.id]) hnew
    | inserted id body hfree =>
      -- the entry that is put in has obtained what its addition wrote
      have hobtained : w.obtains? (.add caller m) = some (id, body) := by
        simp only [obtains?, hadd, hfree, Bool.false_eq_true, ↓reduceIte]
      exact h.addInserted hs caller c id body hadd _
        (p.latest?_obtained w (.add caller m) id body hobtained)
        (p.downloads_note w (.add caller m)) m.now _
    | withdrawn id =>
      exact h.addOn hs caller c (.withdraw id) (.done (.error c.duplicate)) hadd _
        (hkeeps (by simp only [obtains?, hadd])) (w.system.discard m.disk id)
        (w.system.discard_store m.disk id) (w.system.discard_registry m.disk id) [.file id]
        (w.system.discard_keeps h.plain m.disk id) (by simp [Adding.id?, Slot.id]) trivial

/-! ### The refresher goes on -/

/-- The refresher goes on with files that no addition holds, and the registry stays. -/
theorem Filled.goOn (h : w.Filled whole p) (hs : w.Sound role n) (p' : Past)
    (hp : p.Keeps p') (s : System) (r : Refresher) (hstore : s.store = w.system.store)
    (hreg : s.registry = w.system.registry) (xs : List Slot)
    (hk : w.system.store.Keeps w.system.tree s.tree xs)
    (hadds : ∀ x ∈ xs, ∀ caller, role x.id ≠ .adding caller)
    (hentries : ∀ e ∈ w.entries, .file (e.place w.refresher.stage.promoting?) ∉ xs)
    (hpromoting : r.stage.promoting? = w.refresher.stage.promoting?)
    (hstage : r.stage.Filled whole w.system.store s.tree p') :
    World.Filled { w with system := s, refresher := r } whole p' where
  plain := hstore ▸ h.plain
  entries := by
    intro e he
    rw [World.entries, hreg] at he
    rw [hstore, hpromoting]
    exact (h.entries e he).keep hk (hentries e he) (hp.latest e.id) hp.downloads
  adds := hstore ▸ hs.held.filled h.adds hk hadds
  stage := hstore ▸ hstage

/-- The refresher goes on, and neither files nor registry change. -/
theorem Filled.goOnQuietly (h : w.Filled whole p) (hs : w.Sound role n) (p' : Past)
    (hp : p.Keeps p') (s : System) (r : Refresher) (hstore : s.store = w.system.store)
    (hreg : s.registry = w.system.registry) (htree : s.tree = w.system.tree)
    (hpromoting : r.stage.promoting? = w.refresher.stage.promoting?)
    (hstage : r.stage.Filled whole w.system.store w.system.tree p') :
    World.Filled { w with system := s, refresher := r } whole p' :=
  h.goOn hs p' hp s r hstore hreg [] (htree ▸ Store.Keeps.refl _ _ _) (by simp) (by simp) hpromoting
    (htree ▸ hstage)

/-! ### A commit takes a step -/

/-- A staged file takes the place of its list's file, with the content that the list obtained last.
-/
theorem Filled.promoted (h : w.Filled whole p) (hs : w.Sound role n) (id stagedId : UInt64)
    (rest : List (UInt64 × UInt64)) (rep : CommitReport) (dirty : Bool) (report : PassReport)
    (hw : w.refresher = ⟨.commit (.promote ((id, stagedId) :: rest) rep), dirty, report⟩)
    (p' : Past) (hp : p.Keeps p') (t' : FileTree)
    (ht' : w.system.store.promote w.system.tree stagedId id = .ok t') :
    World.Filled
      { w with
        system := { w.system with tree := t' }.note (.renamed id stagedId true)
        refresher := ⟨.commit (.clear id stagedId rest rep), dirty, report⟩ } whole p' := by
  have hpairs : Awaited role w.entries ((id, stagedId) :: rest) := by
    have hstage := hs.stage
    rw [hw] at hstage
    exact hstage
  have hleft : ∀ q ∈ (id, stagedId) :: rest,
      ∃ body, w.system.store.Has w.system.tree (.file q.2) body := by
    have hstage := h.stage
    rw [hw] at hstage
    exact hstage
  have hnow : w.refresher.stage.promoting? = none := by rw [hw]; rfl
  have hid : role id = .canonical := hpairs.canonical (id, stagedId) (by simp)
  have hstaged : role stagedId = .staged id := hpairs.staged (id, stagedId) (by simp)
  have hne := hpairs.ne id stagedId (by simp)
  obtain ⟨body, modified, hread⟩ := hleft (id, stagedId) (by simp)
  obtain ⟨hread', hk⟩ := w.system.store.rename_slot h.plain w.system.tree t' (.file stagedId)
    (.file id) (by simpa using hne) body modified hread ht'
  -- what the staged file held before is what the list's own file holds now
  have hmoved (body' : Bytes) (hold : w.system.store.Has w.system.tree (.file stagedId) body') :
      w.system.store.Has t' (.file id) body' := by
    obtain ⟨modified', hread''⟩ := hold
    obtain ⟨rfl, -⟩ := Prod.mk.inj (Except.ok.inj (hread''.symm.trans hread))
    exact ⟨modified, hread'⟩
  refine ⟨h.plain, ?_, ?_, ?_⟩
  · intro e he
    have hfilled := h.entries e he
    rw [hnow] at hfilled
    change e.Filled whole w.system.store t' p' (some id)
    by_cases he' : e.id = id
    · have hpend : e.pending = some stagedId := hpairs.pending (id, stagedId) (by simp) e he he'
      subst he'
      exact hfilled.renamed hpend hmoved hp
    · have hsame : e.Filled whole w.system.store w.system.tree p (some id) :=
        hfilled.same rfl rfl rfl (e.place_of_ne id he') fun q hq => hq
      refine hsame.keep hk ?_ (hp.latest e.id) hp.downloads
      rw [e.place_of_ne id he']
      exact hs.table.place_not_mem_pair e he he' hid hstaged
  · refine hs.held.filled h.adds hk ?_
    simp [Slot.id, hid, hstaged]
  · intro q hq
    obtain ⟨body', hhas⟩ := hleft q (List.mem_cons_of_mem _ hq)
    exact ⟨body', hk.has _ (hpairs.not_mem_pair q hq) _ hhas⟩

/-- An entry whose staged file took its place waits for it no more. -/
theorem Filled.cleared (h : w.Filled whole p) (hs : w.Sound role n) (id stagedId : UInt64)
    (rest : List (UInt64 × UInt64)) (rep : CommitReport) (dirty : Bool) (report : PassReport)
    (hw : w.refresher = ⟨.commit (.clear id stagedId rest rep), dirty, report⟩)
    (p' : Past) (hp : p.Keeps p') :
    World.Filled
      { w with
        system := { w.system with registry := (w.system.registry.clearPending id stagedId).2 }
        refresher := ⟨.commit (.promote rest { rep with promoted := rep.promoted + 1 }), dirty,
          report⟩ } whole p' := by
  have hpairs : Awaited role w.entries ((id, stagedId) :: rest) := by
    have hstage := hs.stage
    rw [hw] at hstage
    exact hstage
  have hnow : w.refresher.stage.promoting? = some id := by rw [hw]; rfl
  have hk := Store.Keeps.refl w.system.store w.system.tree []
  have hstage := h.stage
  rw [hw] at hstage
  refine ⟨h.plain, ?_, h.adds, hstage⟩
  -- the entries of other lists do not notice
  have hother (e : Entry) (he : e ∈ w.entries) (hne : e.id ≠ id) :
      e.Filled whole w.system.store w.system.tree p' none := by
    have hfilled := h.entries e he
    rw [hnow] at hfilled
    have hsame : e.Filled whole w.system.store w.system.tree p none :=
      hfilled.same rfl rfl rfl (e.place_of_ne id hne).symm fun q hq => hq
    exact hsame.keep hk (by simp) (hp.latest e.id) hp.downloads
  rcases w.system.registry.clearPending_cases id stagedId with
    ⟨hsame, hno⟩ | ⟨pre, x, post, hclear, hsplit, hid, -⟩
  · intro e he
    rw [World.entries, hsame] at he
    -- had the list still an entry, this would wait for the staged file
    refine hother e he fun hid => ?_
    exact hno e he hid (hpairs.pending (id, stagedId) (by simp) e he hid)
  · have htable : Table role (pre ++ x :: post) := by
      rw [← hsplit]
      exact hs.table
    intro e he
    rw [World.entries, hclear] at he
    have hmem (hin : e ∈ pre ∨ e ∈ post) : e ∈ w.entries := by
      rw [World.entries, hsplit]
      rcases hin with hin | hin <;> simp [hin]
    have hdone (hin : e ∈ pre ∨ e ∈ post) : e.Filled whole w.system.store w.system.tree p' none :=
      hother e (hmem hin) (hid ▸ htable.id_ne_of_split e hin)
    rcases List.mem_append.mp he with he | he
    · exact hdone (.inl he)
    · rcases List.mem_cons.mp he with rfl | he
      · have hfilled := h.entries x (by rw [World.entries, hsplit]; simp)
        rw [hnow] at hfilled
        -- settled, it is found where the renaming left its content: under its own id
        have hplace : x.settled.place none = x.place (some id) := by
          rw [x.settled.place_eq_id none (.inr rfl), x.place_eq_id _ (.inl (by rw [hid]))]
          rfl
        have hsettled : x.settled.Filled whole w.system.store w.system.tree p none :=
          hfilled.same rfl rfl rfl hplace fun q hq => by cases hq
        exact hsettled.keep hk (by simp) (hp.latest x.id) hp.downloads
      · exact hdone (.inr he)

/-- A commit takes a step. -/
theorem Filled.commit (h : w.Filled whole p) (hs : w.Sound role n) (m : Moment) (c : Committing)
    (dirty : Bool) (report : PassReport) (hw : w.refresher = ⟨.commit c, dirty, report⟩)
    (p' : Past) (hp : p.Keeps p') :
    World.Filled
      { w with
        system := (c.step m w.system).1
        refresher := ⟨.commit (c.step m w.system).2, dirty, report⟩ } whole p' := by
  have hpairs : Awaited role w.entries c.pairs := by
    have hstage := hs.stage
    rw [hw] at hstage
    exact hstage
  have hleft : ∀ q ∈ c.left, ∃ body, w.system.store.Has w.system.tree (.file q.2) body := by
    have hstage := h.stage
    rw [hw] at hstage
    exact hstage
  have hquiet (s : System) (c' : Committing) (hstore : s.store = w.system.store)
      (hreg : s.registry = w.system.registry) (htree : s.tree = w.system.tree)
      (hpromoting : Stage.promoting? (.commit c') = Stage.promoting? (.commit c))
      (hleft' : ∀ q ∈ c'.left, ∃ body, w.system.store.Has w.system.tree (.file q.2) body) :
      World.Filled { w with system := s, refresher := ⟨.commit c', dirty, report⟩ } whole p' :=
    h.goOnQuietly hs p' hp s _ hstore hreg htree (by rw [hw]; exact hpromoting) hleft'
  have hnone : ∀ q ∈ ([] : List (UInt64 × UInt64)),
      ∃ body, w.system.store.Has w.system.tree (.file q.2) body := by simp
  cases c with
  | snapshot =>
    simp only [Committing.step]
    split
    · exact hquiet _ _ rfl rfl rfl rfl hnone
    · refine hquiet _ _ rfl rfl rfl rfl ?_
      intro q hq
      -- an entry that waits for a file has its content there
      obtain ⟨e, he, hid, hpend⟩ := (w.system.registry.mem_staged q.1 q.2).mp hq
      obtain ⟨body, hbody, -⟩ := (h.entries e he).downloaded q.2 hpend
      obtain ⟨hhas, -⟩ := (h.entries e he).held body hbody
      rw [hw] at hhas
      simp only [Entry.place, Stage.promoting?, hpend] at hhas
      exact hhas.has
  | close pairs =>
    simp only [Committing.step]
    split <;> exact hquiet _ _ rfl rfl rfl rfl hleft
  | promote pairs rep =>
    cases pairs with
    | nil => exact hquiet _ _ rfl rfl rfl rfl hnone
    | cons q rest =>
      obtain ⟨id, stagedId⟩ := q
      have hne := hpairs.ne id stagedId (by simp [Committing.pairs])
      simp only [Committing.step, if_neg hne]
      split
      · rename_i t' ht'
        exact h.promoted hs id stagedId rest rep dirty report hw p' hp t'
          (Store.ok_of_attempt m.disk _ t' ht')
      · refine hquiet _ _ rfl rfl rfl rfl ?_
        exact fun q hq => hleft q (List.mem_cons_of_mem _ hq)
  | clear id stagedId rest rep => exact h.cleared hs id stagedId rest rep dirty report hw p' hp
  | restart rep =>
    simp only [Committing.step]
    split <;> exact hquiet _ _ rfl rfl rfl rfl hnone
  | count rep => exact hquiet _ _ rfl rfl rfl rfl hnone
  | done rep => exact hquiet _ _ rfl rfl rfl rfl hnone

/-! ### A pass takes a step -/

/-- A pass selects an entry, which keeps its files. -/
theorem Filled.selected (h : w.Filled whole p) (hw : w.refresher.stage = .select) (p' : Past)
    (hp : p.Keeps p') (pre post : List Entry) (x : Entry) (hsplit : w.entries = pre ++ x :: post)
    (now : Instant) (event : Event) (dirty : Bool) (report : PassReport) :
    World.Filled
      { w with
        system := { w.system with
          registry := ⟨pre ++ x.reserve now w.system.period :: post⟩ }.note event
        refresher := ⟨.fetch (x.reserve now w.system.period) .arrive, dirty, report⟩ }
      whole p' := by
  have hk := Store.Keeps.refl w.system.store w.system.tree []
  have hold (e : Entry) (he : e ∈ pre ++ x :: post) :
      e.Filled whole w.system.store w.system.tree p' none := by
    have hfilled := h.entries e (by rwa [hsplit])
    rw [hw] at hfilled
    exact hfilled.keep hk (by simp) (hp.latest e.id) hp.downloads
  refine ⟨h.plain, ?_, h.adds, trivial⟩
  intro e he
  rcases List.mem_append.mp he with he | he
  · exact hold e (by simp [he])
  · rcases List.mem_cons.mp he with rfl | he
    · exact (hold x (by simp)).same rfl rfl rfl rfl fun q hq => hq
    · exact hold e (by simp [he])

/-- A staged file is recorded with its entry, which obtains its content. -/
theorem Filled.recorded (h : w.Filled whole p) (hs : w.Sound role n) (e : Entry) (stagedId : UInt64)
    (body : Bytes) (dirty : Bool) (report : PassReport)
    (hw : w.refresher = ⟨.record e stagedId body, dirty, report⟩) (p' : Past)
    (hlatest : ∀ y, p'.latest? y = if y = e.id then some body else p.latest? y)
    (hdown : ∀ d ∈ p.downloads, d ∈ p'.downloads) (pre post : List Entry) (x : Entry)
    (hsplit : w.entries = pre ++ x :: post) (hid : x.id = e.id) (now : Instant) (event : Event)
    (next : Stage) (hpromoting : next.promoting? = none)
    (hnext : next.Filled whole w.system.store w.system.tree p') :
    World.Filled
      { w with
        system := { w.system with
          registry := ⟨pre ++ x.staged stagedId (Rules.recorded body) now :: post⟩ }.note event
        refresher := ⟨next, true, report⟩ } whole p' := by
  have hk := Store.Keeps.refl w.system.store w.system.tree []
  have hknown := hs.stage
  have hfilled := h.stage
  rw [hw] at hknown hfilled
  obtain ⟨hfetched, hwritten⟩ := hfilled
  have htable : Table role (pre ++ x :: post) := by
    rw [← hsplit]
    exact hs.table
  -- only the entry of the list itself obtains something
  have hother (y : Entry) (hin : y ∈ pre ∨ y ∈ post) :
      y.Filled whole w.system.store w.system.tree p' none := by
    have hy : y ∈ w.entries := by
      rw [hsplit]
      rcases hin with hin | hin <;> simp [hin]
    have hold := h.entries y hy
    rw [hw] at hold
    refine hold.keep hk (by simp) ?_ hdown
    rw [hlatest, if_neg]
    exact hid ▸ htable.id_ne_of_split y hin
  refine ⟨h.plain, ?_, h.adds, hnext⟩
  intro y hy
  change y.Filled whole w.system.store w.system.tree p' next.promoting?
  rw [hpromoting]
  rcases List.mem_append.mp hy with hy | hy
  · exact hother y (.inl hy)
  · rcases List.mem_cons.mp hy with rfl | hy
    · refine .staged hwritten ?_ ?_
      · rw [hlatest, if_pos hid]
      · -- the entry has still the url from which its content was loaded
        rw [(hknown.1.same x (by rw [hsplit]; simp) hid).2]
        exact hdown _ hfetched
    · exact hother y (.inr hy)

/-- What a stage brought about is still there after a quiet step; an answer that comes in with it is
one of the past then. -/
theorem filled_of_quiet {s : System} {adds : List (Candidate × Adding)} {stage stage' : Stage}
    {dirty : Bool} {report : PassReport} {m : Moment} (hquiet : stage.Quiet m stage')
    (h : stage.Filled whole s.store s.tree p) :
    stage'.Filled whole s.store s.tree (p.note ⟨s, adds, ⟨stage, dirty, report⟩⟩ (.refresh m)) := by
  have hdown := p.downloads_note ⟨s, adds, ⟨stage, dirty, report⟩⟩ (.refresh m)
  cases hquiet with
  | answered e =>
    cases hanswer : m.answer.content e.url with
    | error cause => trivial
    | ok body =>
      apply List.mem_append_left
      simp [receives?, hanswer, Except.toOption]
  | fetched e body => exact hdown _ h
  | written e stagedId body => exact ⟨hdown _ h.1, h.2⟩
  | committed report => simp [Stage.Filled]
  | _ => trivial

/-- The refresher takes a step. -/
theorem Filled.refresh (h : w.Filled whole p) (hs : w.Sound role n) (m : Moment)
    (htold : whole → m.disk.hides = false) :
    (w.step (.refresh m)).Filled whole (p.note w (.refresh m)) := by
  obtain ⟨s, adds, r⟩ := w
  have hstage := h.stage
  have hsound := hs.stage
  have hkeeps := p.keeps_note ⟨s, adds, r⟩ (.refresh m)
  have hdown := p.downloads_note ⟨s, adds, r⟩ (.refresh m)
  have hsteps := r.steps 0 m s
  simp only [step]
  generalize r.step 0 m s = out at hsteps ⊢
  cases hsteps with
  | quiet stage stage' dirty dirty' report report' s' hquiet hstill =>
    have hno : obtains? ⟨s, adds, ⟨stage, dirty, report⟩⟩ (.refresh m) = none := by
      cases hquiet <;> rfl
    have hpromoting : stage'.promoting? = stage.promoting? := by cases hquiet <;> rfl
    exact h.goOnQuietly hs _ (hkeeps hno) s' ⟨stage', dirty', report'⟩ hstill.store
      hstill.registry hstill.tree hpromoting (filled_of_quiet hquiet hstage)
  | selected pre post x dirty report hsplit =>
    exact h.selected rfl _ (hkeeps rfl) pre post x hsplit m.now _ dirty report
  | exhausted dirty report =>
    cases dirty || s.registry.hasPending with
    | true =>
      exact h.goOnQuietly hs _ (hkeeps rfl) s ⟨.commit .snapshot, dirty, report⟩ rfl rfl rfl rfl
        (by simp [Stage.Filled, Committing.left])
    | false =>
      exact h.goOnQuietly hs _ (hkeeps rfl) s ⟨.idle, dirty, report⟩ rfl rfl rfl rfl trivial
  | minted e body dirty report =>
    exact h.goOnQuietly hs _ (hkeeps rfl) { s with ids := s.ids.advance m.now }
      ⟨.write e (s.ids.next m.now) body .create, dirty, report⟩ rfl rfl rfl rfl
      ⟨hdown _ hstage, trivial⟩
  | writing e stagedId body wr dirty report =>
    obtain ⟨hnext, hk⟩ :=
      s.store.writeStep_progress h.plain stagedId body m.disk htold s.tree wr hstage.2
    -- the pass writes to files that no addition and no entry has
    have hrole : ∀ x ∈ [Slot.file stagedId, Slot.temp stagedId], role x.id = .staging := by
      simp [Slot.id, hsound.2]
    refine h.goOn hs _ (hkeeps rfl) (s.write m stagedId body wr).1
      ⟨.write e stagedId body (s.write m stagedId body wr).2, dirty, report⟩ rfl rfl _ hk
      (fun x hx caller => by simp [hrole x hx]) ?_ rfl ⟨hdown _ hstage.1, hnext⟩
    exact fun e' he' => hs.table.place_not_mem e' he' none (by simp [Role.Lasts]) hrole
  | recorded pre post x e stagedId body dirty report next hsplit hid hnext =>
    obtain ⟨e', he'⟩ := (s.registry.getById?_isSome_iff e.id).mpr ⟨x, by simp [hsplit], hid⟩
    have hlatest := p.latest?_obtained ⟨s, adds, .record e stagedId body, dirty, report⟩
      (.refresh m) e.id body (by simp [obtains?, he'])
    have hpast : next.promoting? = none ∧ next.Filled whole s.store s.tree
        (p.note ⟨s, adds, .record e stagedId body, dirty, report⟩ (.refresh m)) := by
      rcases hnext with ⟨rfl, -⟩ | ⟨old, rfl, -⟩ <;> exact ⟨rfl, trivial⟩
    exact h.recorded hs e stagedId body dirty report rfl _ hlatest hdown pre post x hsplit hid
      m.now _ next hpast.1 hpast.2
  | orphaned e stagedId body dirty report hgone =>
    -- the entry was deleted meanwhile, so no list obtains the content
    have hno : s.registry.getById? e.id = none := by
      apply List.find?_eq_none.mpr
      simpa using hgone
    exact h.goOnQuietly hs _ (hkeeps (by simp [obtains?, hno])) s
      ⟨.tidy stagedId, dirty, report⟩ rfl rfl rfl rfl trivial
  | tidied file dirty report =>
    refine h.goOn hs _ (hkeeps rfl) (s.discard m.disk file) ⟨.tally true, dirty, report⟩
      (s.discard_store m.disk file) (s.discard_registry m.disk file) [.file file]
      (s.discard_keeps h.plain m.disk file) ?_ ?_ rfl trivial
    · intro x hx caller
      obtain rfl := List.mem_singleton.mp hx
      exact Stray.ne_adding hsound caller
    · intro e he hmem
      exact Stray.place_ne hsound hs.table e he (Slot.file.inj (List.mem_singleton.mp hmem))
  | committing c dirty report => exact h.commit hs m c dirty report rfl _ (hkeeps rfl)

/-- Every step goes on with files that hold what the past says. -/
theorem Filled.step (h : w.Filled whole p) (hs : w.Sound role n) (a : Act)
    (htold : whole → a.hides = false) :
    (w.step a).Filled whole (p.note w a) := by
  cases a with
  | call c =>
    change World.Filled _ whole p
    refine ⟨h.plain, h.entries, ?_, h.stage⟩
    intro i c' st hi
    rcases w.call_cases c i _ hi with hi | he
    · exact h.adds i c' st hi
    · obtain ⟨-, rfl⟩ := Prod.mk.inj he
      trivial
  | add caller m => exact h.add hs caller m htold
  | delete url =>
    change World.Filled _ whole p
    obtain ⟨es, journal, heq, hsub⟩ := w.system.delete_eq url
    simp only [World.step, heq]
    exact ⟨h.plain, fun e he => h.entries e (hsub.subset he), h.adds, h.stage⟩
  | startPass =>
    change World.Filled _ whole p
    simp only [World.step]
    split
    · rename_i hidle
      refine ⟨h.plain, ?_, h.adds, trivial⟩
      rw [show w.refresher.startPass.stage.promoting? = w.refresher.stage.promoting? by
        revert hidle
        unfold Refresher.isIdle
        cases w.refresher.stage <;> simp [Refresher.startPass, Stage.promoting?]]
      exact h.entries
    · exact h
  | refresh m => exact h.refresh hs m htold

end World

namespace Run

/-- What is found for a configured list is the content of its file. -/
theorem found?_eq_some (store : Store) (t : FileTree) (disks : UInt64 → Disk)
    (fs : List FilterSpec) (id : UInt64) (q : UInt64 × Bytes)
    (hq : (fs.filterMap (found? store t disks)).find? (fun c => c.1 == id) = some q) :
    q.1 = id ∧ ∃ modified, store.load t id (disks id) = .ok (q.2, modified) := by
  have hid : q.1 = id := by simpa using List.find?_some hq
  obtain ⟨f, -, hf⟩ := List.mem_filterMap.mp (List.mem_of_find?_eq_some hq)
  obtain ⟨⟨body, modified⟩, hload, rfl⟩ := Option.map_eq_some_iff.mp hf
  obtain rfl : f.id = id := hid
  refine ⟨rfl, modified, ?_⟩
  cases hread : store.load t f.id (disks f.id) with
  | error e => simp [hread, Except.toOption] at hload
  | ok r =>
    rw [hread] at hload
    exact congrArg Except.ok (Option.some.inj hload)

theorem loaded_filled (fetchable : String → Bool) (c : Config) (hc : c.fault? fetchable = none)
    (period : Span) (t : FileTree) (disks : UInt64 → Disk) (whole : Prop) :
    (loaded c period t disks).world.Filled whole (loaded c period t disks).past := by
  have hvalid := (c.fault?_eq_none_iff fetchable).mp hc
  refine ⟨fun ch hch => (hvalid.extension_plain ch hch).1, ?_, ?_, trivial⟩
  · intro e he
    rw [loaded_entries] at he
    obtain ⟨f, -, rfl⟩ := List.mem_map.mp he
    obtain ⟨hid, -, -, hpend⟩ :=
      (System.fresh (Service.store c) period t).seed_same f (disks f.id)
    refine ⟨?_, fun q hq => ?_⟩
    · intro body hbody
      obtain ⟨q, hq, rfl⟩ := Option.map_eq_some_iff.mp hbody
      obtain ⟨-, modified, hload⟩ := found?_eq_some _ _ _ _ _ _ hq
      rw [hid] at hload
      have hhas : (Service.store c).Has t (.file f.id) q.2 :=
        ⟨modified, Store.ok_of_attempt _ _ _ hload⟩
      have hread : (System.fresh (Service.store c) period t).store.load
          (System.fresh (Service.store c) period t).tree f.id (disks f.id) =
            .ok (q.2, modified) := hload
      rw [Entry.place_eq_id _ _ (.inr hpend), hid]
      refine ⟨hhas.holds, ?_⟩
      simp only [System.seed, hread]
    · rw [hpend] at hq
      cases hq
  · intro caller cand stage hadd
    simp [loaded] at hadd

/-- Throughout a run ids are in their roles and files hold what the past says. -/
theorem filled_after (fetchable : String → Bool) (c : Config) (hc : c.fault? fetchable = none)
    (period : Span) (t : FileTree) (disks : UInt64 → Disk) (acts : List Act) {whole : Prop}
    (htold : whole → DiskTells acts)
    (hm : ((loaded c period t disks).after acts).past.minted < IdSource.room) :
    ∃ role, ((loaded c period t disks).after acts).world.Sound role
        ((loaded c period t disks).after acts).past.minted ∧
      ((loaded c period t disks).after acts).world.Filled whole
        ((loaded c period t disks).after acts).past := by
  -- roles and files are kept together, since a step on the files is harmless only by the roles
  obtain ⟨role, hstart⟩ := loaded_sound fetchable c hc period t disks
  refine invariant_after
    (fun k => ∃ role, k.world.Sound role k.past.minted ∧ k.world.Filled whole k.past) _
    ⟨role, hstart, loaded_filled fetchable c hc period t disks _⟩ acts ?_ hm
  rintro k a ha ⟨role, hsound, hfilled⟩ hk
  obtain ⟨role', hsound', -⟩ := hsound.step a hk
  exact ⟨role', hsound', hfilled.step hsound a fun hw => htold hw a ha⟩

/-- The first list, whose file is there, is refreshed and waits for its commit. -/
def stagedFirst : List Act := .startPass :: List.replicate 12 (.refresh .calm)

end Run
end ListKeeper
