import ListKeeper.Proofs.Registry
import ListKeeper.Proofs.System

/-! What a step of an addition or of a pass can do. Most steps leave the registry, the ids and the
files alone; each of the others is told with what it does to them. Main statements: `Adding.steps`
and `Refresher.steps`, from which every invariant is derived. -/
namespace ListKeeper

/-- Registry, ids and files stay as they are, and nothing but a request is noted. -/
structure System.Still (s s' : System) : Prop where
  registry : s'.registry = s.registry
  ids : s'.ids = s.ids
  tree : s'.tree = s.tree
  store : s'.store = s.store
  period : s'.period = s.period
  journal : s'.journal = s.journal ∨ ∃ url, s'.journal = s.journal ++ [.requested url]

theorem System.Still.refl (s : System) : s.Still s := ⟨rfl, rfl, rfl, rfl, rfl, .inl rfl⟩

/-- How an addition goes on while registry, ids and files stay as they are. -/
inductive Adding.Quiet (c : Candidate) (m : Moment) (s : System) : Adding → Adding → Prop
  | refused (htaken : s.registry.taken c.name c.url = true) :
    Quiet c m s .check (.done (.error c.duplicate))
  | checked (hfree : s.registry.taken c.name c.url = false) : Quiet c m s .check .mint
  | queued (id : UInt64) : Quiet c m s (.fetch id .arrive) (.fetch id .wait)
  | held (id : UInt64) : Quiet c m s (.fetch id .wait) (.fetch id .wait)
  | requested (id : UInt64) : Quiet c m s (.fetch id .wait) (.fetch id .exchange)
  | answered (id : UInt64) :
    Quiet c m s (.fetch id .exchange) (.fetch id (.done (m.answer.content c.url)))
  | fetched (id : UInt64) (body : Bytes) :
    Quiet c m s (.fetch id (.done (.ok body))) (.write id body .create)
  | unfetched (id : UInt64) (cause : FetchError) :
    Quiet c m s (.fetch id (.done (.error cause))) (.done (.error (.ofFetch cause)))
  | written (id : UInt64) (body : Bytes) :
    Quiet c m s (.write id body (.done (.ok ()))) (.insert id body)
  | unwritten (id : UInt64) (body : Bytes) (cause : IoError) :
    Quiet c m s (.write id body (.done (.error cause))) (.done (.error (.io cause)))
  | doubled (id : UInt64) (body : Bytes) (htaken : s.registry.taken c.name c.url = true) :
    Quiet c m s (.insert id body) (.withdraw id)
  | done (outcome : Except SyncError Entry) : Quiet c m s (.done outcome) (.done outcome)

/-- What a step of an addition makes of the system and of itself. -/
inductive Adding.Steps (c : Candidate) (m : Moment) (s : System) : Adding → System × Adding → Prop
  | quiet (stage stage' : Adding) (s' : System) (hquiet : stage.Quiet c m s stage')
      (hstill : s.Still s') :
    Steps c m s stage (s', stage')
  | minted :
    Steps c m s .mint ({ s with ids := s.ids.advance m.now }, .fetch (s.ids.next m.now) .arrive)
  | writing (id : UInt64) (body : Bytes) (w : Writing) :
    Steps c m s (.write id body w)
      ((s.write m id body w).1, .write id body (s.write m id body w).2)
  | inserted (id : UInt64) (body : Bytes) (hfree : s.registry.taken c.name c.url = false) :
    Steps c m s (.insert id body)
      ({ s with registry := s.registry.append (c.entry id body m.now s.period) }.note
        (.added (c.entry id body m.now s.period)),
        .done (.ok (c.entry id body m.now s.period)))
  | withdrawn (id : UInt64) :
    Steps c m s (.withdraw id) (s.discard m.disk id, .done (.error c.duplicate))

/-- How a stage goes on while registry, ids and files stay as they are. -/
inductive Stage.Quiet (m : Moment) : Stage → Stage → Prop
  | queued (e : Entry) : Quiet m (.fetch e .arrive) (.fetch e .wait)
  | held (e : Entry) : Quiet m (.fetch e .wait) (.fetch e .wait)
  | requested (e : Entry) : Quiet m (.fetch e .wait) (.fetch e .exchange)
  | answered (e : Entry) : Quiet m (.fetch e .exchange) (.fetch e (.done (m.answer.content e.url)))
  | fetched (e : Entry) (body : Bytes) : Quiet m (.fetch e (.done (.ok body))) (.mint e body)
  | refused (e : Entry) (cause : FetchError) :
    Quiet m (.fetch e (.done (.error cause))) (.tally false)
  | written (e : Entry) (stagedId : UInt64) (body : Bytes) :
    Quiet m (.write e stagedId body (.done (.ok ()))) (.record e stagedId body)
  | unwritten (e : Entry) (stagedId : UInt64) (body : Bytes) (cause : IoError) :
    Quiet m (.write e stagedId body (.done (.error cause))) (.tally false)
  | tallied (succeeded : Bool) : Quiet m (.tally succeeded) .select
  | committed (report : CommitReport) : Quiet m (.commit (.done report)) .idle
  | idle : Quiet m .idle .idle

/-- What a step of a pass makes of the system and of itself. -/
inductive Refresher.Steps (m : Moment) (s : System) : Refresher → System × Refresher → Prop
  | quiet (stage stage' : Stage) (dirty dirty' : Bool) (report report' : PassReport) (s' : System)
      (hquiet : stage.Quiet m stage') (hstill : s.Still s') :
    Steps m s ⟨stage, dirty, report⟩ (s', ⟨stage', dirty', report'⟩)
  | selected (pre post : List Entry) (x : Entry) (dirty : Bool) (report : PassReport)
      (hsplit : s.registry.entries = pre ++ x :: post) (hdue : x.isDue m.now = true)
      (hpre : ∀ y ∈ pre, y.isDue m.now = false)
      (hselect : s.registry.selectDue m.now s.period =
        some (x.reserve m.now s.period, ⟨pre ++ x.reserve m.now s.period :: post⟩)) :
    Steps m s ⟨.select, dirty, report⟩
      ({ s with registry := ⟨pre ++ x.reserve m.now s.period :: post⟩ }.note
        (.selected (x.reserve m.now s.period)),
        ⟨.fetch (x.reserve m.now s.period) .arrive, dirty, report⟩)
  | exhausted (dirty : Bool) (report : PassReport)
      (hnone : ∀ x ∈ s.registry.entries, x.isDue m.now = false) :
    Steps m s ⟨.select, dirty, report⟩
      (s, ⟨if dirty || s.registry.hasPending then .commit .snapshot else .idle, dirty, report⟩)
  | minted (e : Entry) (body : Bytes) (dirty : Bool) (report : PassReport) :
    Steps m s ⟨.mint e body, dirty, report⟩
      ({ s with ids := s.ids.advance m.now },
        ⟨.write e (s.ids.next m.now) body .create, dirty, report⟩)
  | writing (e : Entry) (stagedId : UInt64) (body : Bytes) (w : Writing) (dirty : Bool)
      (report : PassReport) :
    Steps m s ⟨.write e stagedId body w, dirty, report⟩
      ((s.write m stagedId body w).1,
        ⟨.write e stagedId body (s.write m stagedId body w).2, dirty, report⟩)
  | recorded (pre post : List Entry) (x e : Entry) (stagedId : UInt64) (body : Bytes)
      (dirty : Bool) (report : PassReport) (next : Stage)
      (hsplit : s.registry.entries = pre ++ x :: post) (hid : x.id = e.id)
      (hnext : (next = .tally true ∧ ∀ old, x.pending = some old → old = e.id) ∨
        ∃ old, next = .tidy old ∧ x.pending = some old) :
    Steps m s ⟨.record e stagedId body, dirty, report⟩
      ({ s with registry := ⟨pre ++ x.staged stagedId (Rules.recorded body) m.now :: post⟩ }.note
        (.staged e.id stagedId), ⟨next, true, report⟩)
  | orphaned (e : Entry) (stagedId : UInt64) (body : Bytes) (dirty : Bool) (report : PassReport)
      (hgone : ∀ x ∈ s.registry.entries, x.id ≠ e.id) :
    Steps m s ⟨.record e stagedId body, dirty, report⟩ (s, ⟨.tidy stagedId, dirty, report⟩)
  | tidied (file : UInt64) (dirty : Bool) (report : PassReport) :
    Steps m s ⟨.tidy file, dirty, report⟩
      (s.discard m.disk file, ⟨.tally true, dirty, report⟩)
  | committing (c : Committing) (dirty : Bool) (report : PassReport) :
    Steps m s ⟨.commit c, dirty, report⟩
      ((c.step m s).1, ⟨.commit (c.step m s).2, dirty, report⟩)

namespace Adding

theorem steps_fetch (c : Candidate) (ticket : Nat) (m : Moment) (s : System) (id : UInt64)
    (f : Fetching) : Steps c m s (.fetch id f) (step c ticket m s (.fetch id f)) := by
  cases f with
  | arrive => exact .quiet _ _ _ (.queued id) ⟨rfl, rfl, rfl, rfl, rfl, .inl rfl⟩
  | wait =>
    simp only [step, Fetching.step]
    split
    · exact .quiet _ _ _ (.requested id) ⟨rfl, rfl, rfl, rfl, rfl, .inr ⟨c.url, rfl⟩⟩
    · exact .quiet _ _ _ (.held id) (.refl s)
  | exchange => exact .quiet _ _ _ (.answered id) ⟨rfl, rfl, rfl, rfl, rfl, .inl rfl⟩
  | done outcome =>
    cases outcome with
    | ok body => exact .quiet _ _ _ (.fetched id body) (.refl s)
    | error cause => exact .quiet _ _ _ (.unfetched id cause) (.refl s)

/-- Every step of an addition is one of those told above. -/
theorem steps (c : Candidate) (ticket : Nat) (m : Moment) (s : System) (stage : Adding) :
    stage.Steps c m s (stage.step c ticket m s) := by
  cases stage with
  | check =>
    by_cases htaken : s.registry.taken c.name c.url = true
    · simp only [step, if_pos htaken]
      exact .quiet _ _ s (.refused htaken) (.refl s)
    · simp only [step, if_neg htaken]
      exact .quiet _ _ s (.checked (by simpa using htaken)) (.refl s)
  | mint => exact .minted
  | fetch id f => exact steps_fetch c ticket m s id f
  | write id body w =>
    cases w with
    | done outcome =>
      cases outcome with
      | ok u => exact .quiet _ _ _ (.written id body) (.refl s)
      | error cause => exact .quiet _ _ _ (.unwritten id body cause) (.refl s)
    | _ => exact .writing id body _
  | insert id body =>
    by_cases htaken : s.registry.taken c.name c.url = true
    · simp only [step, if_pos htaken]
      exact .quiet _ _ s (.doubled id body htaken) (.refl s)
    · simp only [step, if_neg htaken]
      exact .inserted id body (by simpa using htaken)
  | withdraw id => exact .withdrawn id
  | done outcome => exact .quiet _ _ _ (.done outcome) (.refl s)

end Adding

namespace Refresher

/-- A staged file is recorded with its entry, whose earlier one is then taken away, or there is no
such entry and the file is taken away itself. -/
theorem steps_record (ticket : Nat) (m : Moment) (s : System) (e : Entry) (stagedId : UInt64)
    (body : Bytes) (dirty : Bool) (report : PassReport) :
    Steps m s ⟨.record e stagedId body, dirty, report⟩
      (step ticket m s ⟨.record e stagedId body, dirty, report⟩) := by
  simp only [step]
  rcases s.registry.stage_cases e.id stagedId (Rules.recorded body) m.now with
    ⟨hmissing, hgone⟩ | ⟨pre, x, post, hstaged, hsplit, hid⟩
  · rw [hmissing]
    exact .orphaned e stagedId body dirty report hgone
  · rw [hstaged]
    refine .recorded pre post x e stagedId body dirty report _ hsplit hid ?_
    cases hpend : x.pending with
    | none => exact .inl ⟨rfl, by simp⟩
    | some old =>
      by_cases hsame : old = e.id
      · exact .inl ⟨if_pos hsame, by simpa using hsame⟩
      · exact .inr ⟨old, if_neg hsame, rfl⟩

theorem steps_fetch (ticket : Nat) (m : Moment) (s : System) (e : Entry) (f : Fetching)
    (dirty : Bool) (report : PassReport) :
    Steps m s ⟨.fetch e f, dirty, report⟩ (step ticket m s ⟨.fetch e f, dirty, report⟩) := by
  cases f with
  | arrive => exact .quiet _ _ _ _ _ _ _ (.queued e) ⟨rfl, rfl, rfl, rfl, rfl, .inl rfl⟩
  | wait =>
    simp only [step, Fetching.step]
    split
    · exact .quiet _ _ _ _ _ _ _ (.requested e) ⟨rfl, rfl, rfl, rfl, rfl, .inr ⟨e.url, rfl⟩⟩
    · exact .quiet _ _ _ _ _ _ _ (.held e) (.refl s)
  | exchange => exact .quiet _ _ _ _ _ _ _ (.answered e) ⟨rfl, rfl, rfl, rfl, rfl, .inl rfl⟩
  | done outcome =>
    cases outcome with
    | ok body => exact .quiet _ _ _ _ _ _ _ (.fetched e body) (.refl s)
    | error cause => exact .quiet _ _ _ _ _ _ _ (.refused e cause) (.refl s)

/-- Every step of a pass is one of those told above. -/
theorem steps (ticket : Nat) (m : Moment) (s : System) (r : Refresher) :
    r.Steps m s (r.step ticket m s) := by
  obtain ⟨stage, dirty, report⟩ := r
  cases stage with
  | select =>
    simp only [step]
    split
    · rename_i y registry hselect
      -- the selected entry is the first that is due
      obtain ⟨pre, x, post, hsplit, hentries, rfl, hdue, hpre⟩ :=
        s.registry.selectDue_eq_some registry m.now s.period y hselect
      obtain rfl : registry = ⟨pre ++ x.reserve m.now s.period :: post⟩ :=
        congrArg Registry.mk hentries
      exact .selected pre post x dirty report hsplit hdue hpre hselect
    · rename_i hselect
      exact .exhausted dirty report (s.registry.selectDue_eq_none m.now s.period hselect)
  | fetch e f => exact steps_fetch ticket m s e f dirty report
  | mint e body => exact .minted e body dirty report
  | write e stagedId body w =>
    cases w with
    | done outcome =>
      cases outcome with
      | ok u => exact .quiet _ _ _ _ _ _ _ (.written e stagedId body) (.refl s)
      | error cause =>
        exact .quiet _ _ _ _ _ _ _ (.unwritten e stagedId body cause) (.refl s)
    | _ => exact .writing e stagedId body _ dirty report
  | record e stagedId body => exact steps_record ticket m s e stagedId body dirty report
  | tidy file => exact .tidied file dirty report
  | tally succeeded =>
    cases succeeded <;> exact .quiet _ _ _ _ _ _ _ (.tallied _) ⟨rfl, rfl, rfl, rfl, rfl, .inl rfl⟩
  | commit c =>
    cases c with
    | done rep => exact .quiet _ _ _ _ _ _ _ (.committed rep) (.refl s)
    | _ => exact .committing _ dirty report
  | idle => exact .quiet _ _ _ _ _ _ _ .idle (.refl s)

end Refresher
end ListKeeper
