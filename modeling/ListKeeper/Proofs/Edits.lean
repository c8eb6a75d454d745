import ListKeeper.Proofs.Run
import ListKeeper.Proofs.Steps

/-! What an act makes of the registered entries. It leaves them as they are, or one of them is put
off, recorded with a staged file, settled, put in or taken out, and nothing happens to the others.
Main statement: `World.step_edits`. -/
namespace ListKeeper

/-- The pair that a step of a commit settles: the staged file has taken the place of the list's own
one, or it is that very file. -/
def Committing.settles? : Committing → Option (UInt64 × UInt64)
  | .promote ((id, stagedId) :: _) _ => if stagedId = id then some (id, stagedId) else none
  | .clear id stagedId _ _ => some (id, stagedId)
  | _ => none

/-- A commit changes no entry but by forgetting a staged file that it settles. -/
theorem Committing.step_registry (m : Moment) (s : System) (c : Committing) :
    (c.step m s).1.registry = s.registry ∨
      ∃ pre x post p, s.registry.entries = pre ++ x :: post ∧
        (c.step m s).1.registry = ⟨pre ++ x.settled :: post⟩ ∧
        c.settles? = some (x.id, p) ∧ x.pending = some p := by
  -- only where a pair is settled an entry changes, and only one
  have hclear (id stagedId : UInt64) : (s.registry.clearPending id stagedId).2 = s.registry ∨
      ∃ pre x post p, s.registry.entries = pre ++ x :: post ∧
        (s.registry.clearPending id stagedId).2 = ⟨pre ++ x.settled :: post⟩ ∧
        some (id, stagedId) = some (x.id, p) ∧ x.pending = some p := by
    rcases s.registry.clearPending_cases id stagedId with
      ⟨hsame, -⟩ | ⟨pre, x, post, hclear, hsplit, rfl, hpend⟩
    · exact .inl hsame
    · exact .inr ⟨pre, x, post, stagedId, hsplit, hclear, rfl, hpend⟩
  cases c with
  | snapshot =>
    simp only [step]
    split <;> exact .inl rfl
  | close pairs =>
    simp only [step]
    split <;> exact .inl rfl
  | promote pairs rep =>
    cases pairs with
    | nil => exact .inl rfl
    | cons q rest =>
      obtain ⟨id, stagedId⟩ := q
      simp only [step, settles?]
      split
      · exact hclear id stagedId
      · split <;> exact .inl rfl
  | clear id stagedId rest rep => exact hclear id stagedId
  | restart rep =>
    simp only [step]
    split <;> exact .inl rfl
  | count rep => exact .inl rfl
  | done rep => exact .inl rfl

/-- A commit gives out no id. -/
theorem Committing.step_ids (m : Moment) (s : System) (c : Committing) :
    (c.step m s).1.ids = s.ids := by
  cases c with
  | promote pairs rep =>
    cases pairs with
    | nil => rfl
    | cons q rest =>
      simp only [step]
      split
      · rfl
      · split <;> rfl
  | snapshot => simp only [step]; split <;> rfl
  | close pairs => simp only [step]; split <;> rfl
  | restart rep => simp only [step]; split <;> rfl
  | _ => rfl

/-- A deletion takes out the first entry with the url, or there is none. -/
theorem System.delete_cases (s : System) (url : String) :
    ((s.delete url).2 = s ∧ s.registry.get? url = none) ∨
      ∃ pre x post, s.registry.get? url = some x ∧ x.url = url ∧
        s.registry.entries = pre ++ x :: post ∧
        (s.delete url).2 = { s with registry := ⟨pre ++ post⟩ }.note (.deleted x) := by
  unfold delete
  cases hget : s.registry.get? url with
  | none => exact .inl ⟨rfl, rfl⟩
  | some x =>
    obtain ⟨hx, pre, post, hsplit, hpre⟩ := List.find?_eq_some_iff_append.mp hget
    have hno : ∀ y ∈ pre, ¬ (y.url == url) = true := by simpa using hpre
    have herase : s.registry.delete url = ⟨pre ++ post⟩ := by
      rw [Registry.delete, hsplit, List.eraseP_append_right _ hno]
      exact congrArg (fun es => Registry.mk (pre ++ es))
        (List.eraseP_cons_of_pos (p := fun e : Entry => e.url == url) hx)
    exact .inr ⟨pre, x, post, rfl, by simpa using hx, hsplit, by rw [herase]⟩

def World.deletes? (w : World) : Act → Option Entry
  | .delete url => w.system.registry.get? url
  | _ => none

inductive World.Edits (w : World) (a : Act) (w' : World) : Prop
  | same (hnone : w.deletes? a = none) (hentries : w'.entries = w.entries)
  | selected (pre post : List Entry) (x : Entry) (m : Moment) (hact : a = .refresh m)
      (hselects : w.selects? a = some (x.reserve m.now w.system.period, m.now))
      (hsplit : w.entries = pre ++ x :: post) (hdue : x.isDue m.now = true)
      (hentries : w'.entries = pre ++ x.reserve m.now w.system.period :: post)
  | recorded (pre post : List Entry) (x e : Entry) (stagedId : UInt64) (body : Bytes) (m : Moment)
      (hact : a = .refresh m) (hstage : w.refresher.stage = .record e stagedId body)
      (hsplit : w.entries = pre ++ x :: post) (hid : x.id = e.id)
      (hentries : w'.entries = pre ++ x.staged stagedId (Rules.recorded body) m.now :: post)
  | settled (pre post : List Entry) (x : Entry) (p : UInt64) (m : Moment) (c : Committing)
      (hact : a = .refresh m) (hstage : w.refresher.stage = .commit c)
      (hsettles : c.settles? = some (x.id, p)) (hpend : x.pending = some p)
      (hsplit : w.entries = pre ++ x :: post) (hentries : w'.entries = pre ++ x.settled :: post)
  | added (caller : Nat) (m : Moment) (c : Candidate) (id : UInt64) (body : Bytes)
      (hact : a = .add caller m) (hadd : w.adds[caller]? = some (c, .insert id body))
      (hfree : w.system.registry.taken c.name c.url = false)
      (hentries : w'.entries = w.entries ++ [c.entry id body m.now w.system.period])
      (hjournal : w'.system.journal =
        w.system.journal ++ [.added (c.entry id body m.now w.system.period)])
  | removed (pre post : List Entry) (x : Entry) (hact : a = .delete x.url)
      (hdeletes : w.deletes? a = some x) (hsplit : w.entries = pre ++ x :: post)
      (hentries : w'.entries = pre ++ post)
      (hjournal : w'.system.journal = w.system.journal ++ [.deleted x])

namespace World

theorem add_edits (w : World) (caller : Nat) (m : Moment) :
    w.Edits (.add caller m) (w.step (.add caller m)) := by
  cases hadd : w.adds[caller]? with
  | none => exact .same rfl (by simp only [step, hadd])
  | some q =>
    obtain ⟨c, stage⟩ := q
    have hsteps := stage.steps c (caller + 1) m w.system
    simp only [step, hadd]
    generalize stage.step c (caller + 1) m w.system = out at hsteps ⊢
    cases hsteps with
    | quiet stage stage' s' hquiet hstill =>
      exact .same rfl (congrArg Registry.entries hstill.registry)
    | minted => exact .same rfl rfl
    | writing id body wr => exact .same rfl rfl
    | inserted id body hfree => exact .added caller m c id body rfl hadd hfree rfl rfl
    | withdrawn id =>
      exact .same rfl (congrArg Registry.entries (w.system.discard_registry m.disk id))

theorem refresh_edits (w : World) (m : Moment) :
    w.Edits (.refresh m) (w.step (.refresh m)) := by
  obtain ⟨s, adds, r⟩ := w
  have hsteps := r.steps 0 m s
  simp only [step]
  generalize r.step 0 m s = out at hsteps ⊢
  cases hsteps with
  | quiet stage stage' dirty dirty' report report' s' hquiet hstill =>
    exact .same rfl (congrArg Registry.entries hstill.registry)
  | selected pre post x dirty report hsplit hdue hpre hselect =>
    exact .selected pre post x m rfl (by simp [selects?, hselect]) hsplit hdue rfl
  | exhausted dirty report => exact .same rfl rfl
  | minted e body dirty report => exact .same rfl rfl
  | writing e stagedId body wr => exact .same rfl rfl
  | recorded pre post x e stagedId body dirty report next hsplit hid =>
    exact .recorded pre post x e stagedId body m rfl rfl hsplit hid rfl
  | orphaned e stagedId body => exact .same rfl rfl
  | tidied file => exact .same rfl (congrArg Registry.entries (s.discard_registry m.disk file))
  | committing c =>
    rcases c.step_registry m s with hreg | ⟨pre, x, post, p, hsplit, hreg, hsettles, hpend⟩
    · exact .same rfl (congrArg Registry.entries hreg)
    · exact .settled pre post x p m c rfl rfl hsettles hpend hsplit (congrArg Registry.entries hreg)

/-- What an act makes of the registered entries is one of the changes told above. -/
theorem step_edits (w : World) (a : Act) : w.Edits a (w.step a) := by
  cases a with
  | call c => exact .same rfl rfl
  | add caller m => exact w.add_edits caller m
  | delete url =>
    rcases w.system.delete_cases url with
      ⟨hsame, hnone⟩ | ⟨pre, x, post, hget, rfl, hsplit, hdelete⟩
    · exact .same hnone (by simp only [step, hsame])
    · exact .removed pre post x rfl hget hsplit (by simp only [step, hdelete]; rfl)
        (by simp only [step, hdelete]; rfl)
  | startPass =>
    simp only [step]
    split <;> exact .same rfl rfl
  | refresh m => exact w.refresh_edits m

end World
end ListKeeper
