import Mathlib.Data.Bool.Count
import Mathlib.Data.List.Induction
import ListKeeper.Proofs.Passes
import ListKeeper.Proofs.Sights

/-! The counters. What is counted is what happened: a refresh counts by its answer and its write, a
commit by its two calls to the consumer, and a renaming by its failure, and the reports of the
passes say the same. Main statements: `World.step_books`, by which every step is booked once, and
`Run.counters_audited`. -/
namespace ListKeeper

namespace Event

/-- An event that no counter counts. -/
def neutral : Event → Bool
  | requested _ => true
  | staged _ _ => true
  | renamed _ _ succeeded => succeeded
  | added _ => true
  | deleted _ => true
  | _ => false

def selected? : Event → Option Entry
  | selected e => some e
  | _ => none

def isRefusal : Event → Bool
  | renamed _ _ succeeded => !succeeded
  | _ => false

end Event

/-- What a pass has begun and not yet counted or reported: a refresh, a call to the consumer that
pauses it and one that resumes it, and the renamings that failed in the present commit. -/
structure Opened where
  refreshes : Nat
  closes : Nat
  restarts : Nat
  refusals : Nat

namespace Opened

def nothing : Opened := ⟨0, 0, 0, 0⟩

def refresh : Opened := ⟨1, 0, 0, 0⟩

end Opened

def Stage.opened : Stage → Opened
  | .select => .nothing
  | .commit .snapshot => .nothing
  | .commit (.close _) => .nothing
  | .commit (.promote _ report) => ⟨0, 1, 0, report.failed⟩
  | .commit (.clear _ _ _ report) => ⟨0, 1, 0, report.failed⟩
  | .commit (.restart report) => ⟨0, 1, 0, report.failed⟩
  | .commit (.count report) => ⟨0, 1, 1, report.failed⟩
  | .commit (.done report) => ⟨0, 0, 0, report.failed⟩
  | .idle => .nothing
  | _ => .refresh

namespace Counters

def tally (c : Counters) (succeeded : Bool) : Counters :=
  if succeeded then c.refreshSucceeded else c.refreshFailed

def refreshes (c : Counters) : Bool → UInt64
  | true => c.refreshesSucceeded
  | false => c.refreshesFailed

@[simp]
theorem refreshes_tally (c : Counters) (succeeded came : Bool) :
    (c.tally succeeded).refreshes came = c.refreshes came + .ofNat ([succeeded].count came) := by
  cases succeeded <;> cases came <;> simp [tally, refreshes, refreshSucceeded, refreshFailed]

@[simp]
theorem tally_commits (c : Counters) (succeeded : Bool) :
    (c.tally succeeded).commits = c.commits := by
  cases succeeded <;> rfl

@[simp]
theorem tally_renamesFailed (c : Counters) (succeeded : Bool) :
    (c.tally succeeded).renamesFailed = c.renamesFailed := by
  cases succeeded <;> rfl

@[simp]
theorem refreshes_renameFailed (c : Counters) (came : Bool) :
    c.renameFailed.refreshes came = c.refreshes came := by cases came <;> rfl

@[simp]
theorem refreshes_commitCompleted (c : Counters) (came : Bool) :
    c.commitCompleted.refreshes came = c.refreshes came := by cases came <;> rfl

@[simp]
theorem refreshes_zero (came : Bool) : zero.refreshes came = 0 := by cases came <;> rfl

@[simp]
theorem renameFailed_renamesFailed (c : Counters) :
    c.renameFailed.renamesFailed = c.renamesFailed + 1 := rfl

@[simp]
theorem renameFailed_commits (c : Counters) : c.renameFailed.commits = c.commits := rfl

@[simp]
theorem commitCompleted_renamesFailed (c : Counters) :
    c.commitCompleted.renamesFailed = c.renamesFailed := rfl

@[simp]
theorem commitCompleted_commits (c : Counters) :
    c.commitCompleted.commits = c.commits + 1 := rfl

end Counters

namespace PassReport

def tally (r : PassReport) (succeeded : Bool) : PassReport :=
  if succeeded then { r with refreshed := r.refreshed + 1 } else { r with failed := r.failed + 1 }

def refreshes (r : PassReport) : Bool → Nat
  | true => r.refreshed
  | false => r.failed

@[simp]
theorem refreshes_tally (r : PassReport) (succeeded came : Bool) :
    (r.tally succeeded).refreshes came = r.refreshes came + [succeeded].count came := by
  cases succeeded <;> cases came <;> simp [tally, refreshes]

@[simp]
theorem tally_commit (r : PassReport) (succeeded : Bool) :
    (r.tally succeeded).commit = r.commit := by
  cases succeeded <;> rfl

@[simp]
theorem refreshes_empty (came : Bool) : empty.refreshes came = 0 := by cases came <;> rfl

@[simp]
theorem refreshes_commit (r : PassReport) (report : Option CommitReport) (came : Bool) :
    ({ r with commit := report } : PassReport).refreshes came = r.refreshes came := by
  cases came <;> rfl

def refusals (r : PassReport) : Nat :=
  match r.commit with
  | some report => report.failed
  | none => 0

end PassReport

namespace World

def opened (w : World) : Opened := w.refresher.stage.opened

def progress (w : World) : PassReport :=
  if w.refresher.isIdle then .empty else w.refresher.report

def reports? (w : World) (a : Act) : Option PassReport :=
  if !w.refresher.isIdle && (w.step a).refresher.isIdle then some (w.step a).refresher.report
  else none

def tallies? (w : World) : Act → Option Bool
  | .refresh _ =>
    match w.refresher.stage with
    | .tally succeeded => some succeeded
    | _ => none
  | _ => none

/-- What an act does to the books: the events that are noted, a selection, a refresh that is
counted, and a report that is given. -/
inductive Books (w w' : World) :
    List Event → Option (Entry × Instant) → Option Bool → Option PassReport → Prop
  | quiet (events : List Event) (hneutral : ∀ e ∈ events, e.neutral = true)
      (hcounters : w'.system.counters = w.system.counters) (hprogress : w'.progress = w.progress)
      (hopened : w'.opened = w.opened) : Books w w' events none none none
  | selected (q : Entry × Instant) (hcounters : w'.system.counters = w.system.counters)
      (hprogress : w'.progress = w.progress) (hbefore : w.opened = .nothing)
      (hafter : w'.opened = .refresh) : Books w w' [.selected q.1] (some q) none none
  | tallied (succeeded : Bool) (hcounters : w'.system.counters = w.system.counters.tally succeeded)
      (hprogress : w'.progress = w.progress.tally succeeded) (hbefore : w.opened = .refresh)
      (hafter : w'.opened = .nothing) : Books w w' [] none (some succeeded) none
  | closed (hcounters : w'.system.counters = w.system.counters)
      (hprogress : w'.progress = w.progress) (hbefore : w.opened = .nothing)
      (hafter : w'.opened = ⟨0, 1, 0, 0⟩) : Books w w' [.closed] none none none
  | refused (id stagedId : UInt64) (n : Nat)
      (hcounters : w'.system.counters = w.system.counters.renameFailed)
      (hprogress : w'.progress = w.progress) (hbefore : w.opened = ⟨0, 1, 0, n⟩)
      (hafter : w'.opened = ⟨0, 1, 0, n + 1⟩) :
    Books w w' [.renamed id stagedId false] none none none
  | restarted (n : Nat) (hcounters : w'.system.counters = w.system.counters)
      (hprogress : w'.progress = w.progress) (hbefore : w.opened = ⟨0, 1, 0, n⟩)
      (hafter : w'.opened = ⟨0, 1, 1, n⟩) : Books w w' [.restarted] none none none
  | counted (n : Nat) (hcounters : w'.system.counters = w.system.counters.commitCompleted)
      (hprogress : w'.progress = w.progress) (hbefore : w.opened = ⟨0, 1, 1, n⟩)
      (hafter : w'.opened = ⟨0, 0, 0, n⟩) : Books w w' [] none none none
  | committed (report : CommitReport) (hcounters : w'.system.counters = w.system.counters)
      (hprogress : w'.progress = .empty) (hbefore : w.opened = ⟨0, 0, 0, report.failed⟩)
      (hafter : w'.opened = .nothing) :
    Books w w' [] none none (some { w.progress with commit := some report })
  | ended (hcounters : w'.system.counters = w.system.counters) (hprogress : w'.progress = .empty)
      (hbefore : w.opened = .nothing) (hafter : w'.opened = .nothing) :
    Books w w' [] none none (some w.progress)

end World

theorem System.discard_counters (s : System) (disk : Disk) (id : UInt64) :
    (s.discard disk id).counters = s.counters := by
  obtain ⟨t, ht⟩ := s.discard_eq disk id
  rw [ht]

/-- An addition counts nothing. -/
theorem Adding.step_neutral (c : Candidate) (ticket : Nat) (m : Moment) (s : System)
    (stage : Adding) :
    (stage.step c ticket m s).1.counters = s.counters ∧
      ∃ events, (stage.step c ticket m s).1.journal = s.journal ++ events ∧
        ∀ e ∈ events, e.neutral = true := by
  -- most steps note nothing at all
  have hsame : ∃ events, s.journal = s.journal ++ events ∧ ∀ e ∈ events, e.neutral = true :=
    ⟨[], by simp, by simp⟩
  cases stage with
  | check =>
    simp only [step]
    split <;> exact ⟨rfl, hsame⟩
  | mint => exact ⟨rfl, hsame⟩
  | fetch id f =>
    cases f with
    | wait =>
      simp only [step, Fetching.step]
      split
      · exact ⟨rfl, [.requested c.url], rfl, by simp [Event.neutral]⟩
      · exact ⟨rfl, hsame⟩
    | done outcome => cases outcome <;> exact ⟨rfl, hsame⟩
    | _ => exact ⟨rfl, hsame⟩
  | write id body w =>
    cases w with
    | done outcome => cases outcome <;> exact ⟨rfl, hsame⟩
    | _ => exact ⟨rfl, hsame⟩
  | insert id body =>
    simp only [step]
    split
    · exact ⟨rfl, hsame⟩
    · exact ⟨rfl, [.added _], rfl, by simp [Event.neutral]⟩
  -- taking the file away is not noted
  | withdraw id =>
    refine ⟨s.discard_counters m.disk id, ?_⟩
    simp only [step, s.discard_journal]
    exact hsame
  | done outcome => exact ⟨rfl, hsame⟩

namespace World

theorem commit_books (s : System) (adds : List (Candidate × Adding)) (c : Committing)
    (dirty : Bool) (report : PassReport) (m : Moment) :
    ∃ events, (step ⟨s, adds, ⟨.commit c, dirty, report⟩⟩ (.refresh m)).system.journal =
        s.journal ++ events ∧
      Books ⟨s, adds, ⟨.commit c, dirty, report⟩⟩
        (step ⟨s, adds, ⟨.commit c, dirty, report⟩⟩ (.refresh m)) events
        (selects? ⟨s, adds, ⟨.commit c, dirty, report⟩⟩ (.refresh m))
        (tallies? ⟨s, adds, ⟨.commit c, dirty, report⟩⟩ (.refresh m))
        (reports? ⟨s, adds, ⟨.commit c, dirty, report⟩⟩ (.refresh m)) := by
  cases c with
  | snapshot =>
    simp only [step, Refresher.step, Committing.step, selects?, tallies?, reports?]
    split <;> exact ⟨[], (List.append_nil _).symm, .quiet [] (by simp) rfl rfl rfl⟩
  | close pairs =>
    -- the call is noted whatever the consumer makes of it
    simp only [step, Refresher.step, Committing.step, selects?, tallies?, reports?]
    split <;> exact ⟨[.closed], rfl, .closed rfl rfl rfl rfl⟩
  | promote pairs rep =>
    cases pairs with
    | nil => exact ⟨[], (List.append_nil _).symm, .quiet [] (by simp) rfl rfl rfl⟩
    | cons q rest =>
      obtain ⟨id, stagedId⟩ := q
      simp only [step, Refresher.step, Committing.step, selects?, tallies?, reports?]
      split
      · exact ⟨[], (List.append_nil _).symm, .quiet [] (by simp) rfl rfl rfl⟩
      -- every renaming is noted, and one that fails is counted as well
      · split
        · exact ⟨[.renamed id stagedId true], rfl,
            .quiet _ (by simp [Event.neutral]) rfl rfl rfl⟩
        · exact ⟨[.renamed id stagedId false], rfl,
            .refused id stagedId rep.failed rfl rfl rfl rfl⟩
  | clear id stagedId rest rep =>
    exact ⟨[], (List.append_nil _).symm, .quiet [] (by simp) rfl rfl rfl⟩
  | restart rep =>
    simp only [step, Refresher.step, Committing.step, selects?, tallies?, reports?]
    split <;> exact ⟨[.restarted], rfl, .restarted rep.failed rfl rfl rfl rfl⟩
  | count rep => exact ⟨[], (List.append_nil _).symm, .counted rep.failed rfl rfl rfl rfl⟩
  | done rep => exact ⟨[], (List.append_nil _).symm, .committed rep rfl rfl rfl rfl⟩

/-- Every step of a pass is booked. -/
theorem refresh_books (w : World) (m : Moment) :
    ∃ events, (w.step (.refresh m)).system.journal = w.system.journal ++ events ∧
      Books w (w.step (.refresh m)) events (w.selects? (.refresh m)) (w.tallies? (.refresh m))
        (w.reports? (.refresh m)) := by
  obtain ⟨s, adds, ⟨stage, dirty, report⟩⟩ := w
  cases stage with
  | select =>
    cases hselect : s.registry.selectDue m.now s.period with
    | none =>
      refine ⟨[], ?_, ?_⟩
      · simp [step, Refresher.step, hselect]
      · simp only [step, Refresher.step, selects?, tallies?, reports?, hselect, Option.map_none]
        cases dirty || s.registry.hasPending with
        | true => exact .quiet [] (by simp) rfl rfl rfl
        | false => exact .ended rfl rfl rfl rfl
    | some q =>
      obtain ⟨e, registry⟩ := q
      refine ⟨[.selected e], ?_, ?_⟩
      · simp [step, Refresher.step, hselect, System.note]
      · simp only [step, Refresher.step, selects?, tallies?, reports?, hselect, Option.map_some]
        exact .selected (e, m.now) rfl rfl rfl rfl
  | fetch e f =>
    cases f with
    | wait =>
      simp only [step, Refresher.step, Fetching.step, selects?, tallies?, reports?]
      split
      · exact ⟨[.requested e.url], rfl, .quiet _ (by simp [Event.neutral]) rfl rfl rfl⟩
      · exact ⟨[], by simp, .quiet [] (by simp) rfl rfl rfl⟩
    | done outcome =>
      cases outcome <;>
        exact ⟨[], (List.append_nil _).symm, .quiet [] (by simp) rfl rfl rfl⟩
    | _ => exact ⟨[], (List.append_nil _).symm, .quiet [] (by simp) rfl rfl rfl⟩
  | mint e body => exact ⟨[], (List.append_nil _).symm, .quiet [] (by simp) rfl rfl rfl⟩
  -- a write changes files and notes nothing, nor does its end
  | write e stagedId body wr =>
    cases wr with
    | done outcome =>
      cases outcome <;>
        exact ⟨[], (List.append_nil _).symm, .quiet [] (by simp) rfl rfl rfl⟩
    | _ => exact ⟨[], (List.append_nil _).symm, .quiet [] (by simp) rfl rfl rfl⟩
  | record e stagedId body =>
    rcases s.registry.stage_cases e.id stagedId (Rules.recorded body) m.now with
      ⟨hmissing, -⟩ | ⟨pre, x, post, hstaged, -⟩
    · simp only [step, Refresher.step, selects?, tallies?, reports?, hmissing]
      exact ⟨[], (List.append_nil _).symm, .quiet [] (by simp) rfl rfl rfl⟩
    · simp only [step, Refresher.step, selects?, tallies?, reports?, hstaged]
      refine ⟨[.staged e.id stagedId], rfl, ?_⟩
      cases x.pending with
      | none => exact .quiet _ (by simp [Event.neutral]) rfl rfl rfl
      | some old =>
        by_cases hsame : old = e.id
        · simp only [if_pos hsame]
          exact .quiet _ (by simp [Event.neutral]) rfl rfl rfl
        · simp only [if_neg hsame]
          exact .quiet _ (by simp [Event.neutral]) rfl rfl rfl
  | tidy file =>
    refine ⟨[], ?_, .quiet [] (by simp) (s.discard_counters m.disk file) rfl rfl⟩
    exact (s.discard_journal m.disk file).trans (List.append_nil _).symm
  -- the refresh is counted here and nowhere else
  | tally succeeded =>
    refine ⟨[], ?_, ?_⟩
    · cases succeeded <;> exact (List.append_nil _).symm
    · cases succeeded with
      | true => exact .tallied true rfl rfl rfl rfl
      | false => exact .tallied false rfl rfl rfl rfl
  | commit c => exact commit_books s adds c dirty report m
  | idle => exact ⟨[], (List.append_nil _).symm, .quiet [] (by simp) rfl rfl rfl⟩

/-- Every step is booked. -/
theorem step_books (w : World) (a : Act) :
    ∃ events, (w.step a).system.journal = w.system.journal ++ events ∧
      Books w (w.step a) events (w.selects? a) (w.tallies? a) (w.reports? a) := by
  -- where the refresher does not move, no report is given
  have hstays (events : List Event) (hrefresher : (w.step a).refresher = w.refresher)
      (hcounters : (w.step a).system.counters = w.system.counters)
      (hneutral : ∀ e ∈ events, e.neutral = true) (hselects : w.selects? a = none)
      (htallies : w.tallies? a = none) :
      Books w (w.step a) events (w.selects? a) (w.tallies? a) (w.reports? a) := by
    have hreports : w.reports? a = none := by
      simp only [reports?, hrefresher]
      cases w.refresher.isIdle <;> rfl
    rw [hselects, htallies, hreports]
    exact .quiet events hneutral hcounters (by simp only [progress, hrefresher])
      (by simp only [opened, hrefresher])
  cases a with
  | call c => exact ⟨[], (List.append_nil _).symm, hstays [] rfl rfl (by simp) rfl rfl⟩
  | add caller m =>
    cases hadd : w.adds[caller]? with
    | none =>
      have hsame : w.step (.add caller m) = w := by simp only [step, hadd]
      refine ⟨[], ?_, hstays [] ?_ ?_ (by simp) rfl rfl⟩ <;> simp only [hsame, List.append_nil]
    | some q =>
      obtain ⟨c, stage⟩ := q
      obtain ⟨hsystem, -⟩ := step_add stage hadd m
      obtain ⟨hcounters, events, hjournal, hneutral⟩ :=
        stage.step_neutral c (caller + 1) m w.system
      rw [← hsystem] at hcounters hjournal
      exact ⟨events, hjournal, hstays events (by simp only [step, hadd]) hcounters hneutral rfl rfl⟩
  | delete url =>
    rcases w.system.delete_cases url with ⟨hsame, -⟩ | ⟨pre, x, post, -, -, -, hdelete⟩
    · refine ⟨[], ?_, hstays [] rfl ?_ (by simp) rfl rfl⟩ <;>
        simp only [step, hsame, List.append_nil]
    · refine ⟨[.deleted x], ?_, hstays _ rfl ?_ (by simp [Event.neutral]) rfl rfl⟩
      · simp only [step, hdelete]
        rfl
      · simp only [step, hdelete]
        rfl
  | startPass =>
    by_cases hidle : w.refresher.isIdle = true
    · have hstep : w.step .startPass = { w with refresher := w.refresher.startPass } := if_pos hidle
      have hreports : w.reports? .startPass = none := by simp [reports?, hidle]
      refine ⟨[], ?_, ?_⟩
      · simp only [hstep, List.append_nil]
      · rw [hreports, hstep]
        refine .quiet [] (by simp) rfl ?_ ?_
        · rw [progress, progress, if_pos hidle]
          rfl
        · rw [opened, opened, (w.refresher.isIdle_iff).mp hidle]
          rfl
    · have hsame : w.step .startPass = w := if_neg hidle
      refine ⟨[], ?_, hstays [] ?_ ?_ (by simp) rfl rfl⟩ <;> simp only [hsame, List.append_nil]
  | refresh m => exact w.refresh_books m

/-! ### What a booking says -/

namespace Books

variable {w w' : World} {events : List Event} {selection : Option (Entry × Instant)}
  {tally : Option Bool} {report : Option PassReport}

theorem counts_of_neutral (h : ∀ e ∈ events, e.neutral = true) :
    events.count .closed = 0 ∧ events.count .restarted = 0 ∧
      events.countP Event.isRefusal = 0 ∧ events.filterMap Event.selected? = [] := by
  refine ⟨List.count_eq_zero.mpr fun hmem => ?_, List.count_eq_zero.mpr fun hmem => ?_,
    List.countP_eq_zero.mpr fun e he => ?_, List.filterMap_eq_nil_iff.mpr fun e he => ?_⟩
  · exact Bool.noConfusion (h _ hmem)
  · exact Bool.noConfusion (h _ hmem)
  · have hneutral := h e he
    cases e <;> simp_all [Event.neutral, Event.isRefusal]
  · have hneutral := h e he
    cases e <;> first | rfl | cases hneutral

/-- A refresh that is counted is counted in the report, too, and the next pass begins with none. -/
theorem reported (h : Books w w' events selection tally report) (came : Bool) :
    (report.toList.map (·.refreshes came)).sum + w'.progress.refreshes came =
      w.progress.refreshes came + tally.toList.count came := by
  cases h with
  | quiet _ _ _ hprogress => simp [hprogress]
  | tallied succeeded hcounters hprogress => simp [hprogress]
  | _ =>
    rename_i hprogress _ _
    simp [hprogress]

/-- A selection opens a refresh, and its count closes it. -/
theorem refreshes (h : Books w w' events selection tally report) :
    tally.toList.length + w'.opened.refreshes = w.opened.refreshes + selection.toList.length := by
  cases h <;> simp [*, Opened.nothing, Opened.refresh]

theorem selects (h : Books w w' events selection tally report) :
    events.filterMap Event.selected? = selection.toList.map (·.1) := by
  cases h with
  | quiet _ hneutral => exact (counts_of_neutral hneutral).2.2.2
  | selected q => rfl
  | _ => rfl

/-- A commit is counted once, after a call that pauses the consumer and one that resumes it. -/
theorem commits (h : Books w w' events selection tally report) :
    ∃ n, w'.system.counters.commits = w.system.counters.commits + .ofNat n ∧
      events.count .closed + w.opened.closes = n + w'.opened.closes ∧
      events.count .restarted + w.opened.restarts = n + w'.opened.restarts := by
  cases h with
  | quiet _ hneutral hcounters hprogress hopened =>
    obtain ⟨hclosed, hrestarted, -⟩ := counts_of_neutral hneutral
    exact ⟨0, by simp [hcounters], by simp [hclosed, hopened], by simp [hrestarted, hopened]⟩
  | counted n hcounters hprogress hbefore hafter =>
    exact ⟨1, by simp [hcounters], by simp [hbefore, hafter], by simp [hbefore, hafter]⟩
  | _ =>
    rename_i hcounters hprogress hbefore hafter
    exact ⟨0, by simp [hcounters],
      by simp [hbefore, hafter, Opened.refresh, Opened.nothing],
      by simp [hbefore, hafter, Opened.refresh, Opened.nothing]⟩

theorem counts (h : Books w w' events selection tally report) :
    (∀ came, w'.system.counters.refreshes came =
        w.system.counters.refreshes came + .ofNat (tally.toList.count came)) ∧
      w'.system.counters.renamesFailed =
        w.system.counters.renamesFailed + .ofNat (events.countP Event.isRefusal) := by
  cases h with
  | quiet _ hneutral hcounters => simp [hcounters, counts_of_neutral hneutral]
  | _ =>
    rename_i hcounters _ _ _
    simp [hcounters, Event.isRefusal]

/-- A pass says in its report how many renamings failed in its commit. -/
theorem refusals (h : Books w w' events selection tally report)
    (huncommitted : w.progress.commit = none) :
    (report.toList.map PassReport.refusals).sum + w'.opened.refusals =
        w.opened.refusals + events.countP Event.isRefusal ∧ w'.progress.commit = none := by
  cases h with
  | quiet _ hneutral hcounters hprogress hopened =>
    simp [hopened, hprogress, huncommitted, counts_of_neutral hneutral]
  | committed report hcounters hprogress hbefore hafter =>
    simp [hprogress, hbefore, hafter, PassReport.refusals, PassReport.empty, Opened.nothing]
  | ended hcounters hprogress hbefore hafter =>
    simp [hprogress, hbefore, hafter, huncommitted, PassReport.refusals, PassReport.empty]
  | _ =>
    rename_i hprogress hbefore hafter
    simp [hprogress, hbefore, hafter, huncommitted, Event.isRefusal, Opened.refresh,
      Opened.nothing]

end Books

end World

/-! ### Refreshes -/

inductive Glimpse
  | selected (e : Entry)
  | answered (answer : Answer)
  | wrote (outcome : Except IoError Unit)
  | counted (succeeded : Bool)

namespace Glimpse

def selected? : Glimpse → Option Entry
  | selected e => some e
  | _ => none

def counted? : Glimpse → Option Bool
  | counted succeeded => some succeeded
  | _ => none

end Glimpse

/-- The refresh of a selected entry: the answer to its request, the outcome of its write if there
was one, and how it was counted. -/
structure Refresh where
  entry : Entry
  answer : Answer
  written : Option (Except IoError Unit)
  succeeded : Bool

namespace Refresh

def glimpses (r : Refresh) : List Glimpse :=
  [.selected r.entry, .answered r.answer] ++ r.written.toList.map .wrote ++ [.counted r.succeeded]

/-- What each refresh lets be seen once is seen of refreshes one after the other as often. -/
theorem filterMap_flatMap {β : Type} (f : Glimpse → Option β) (g : Refresh → β)
    (hone : ∀ r, r.glimpses.filterMap f = [g r]) (rs : List Refresh) :
    (rs.flatMap glimpses).filterMap f = rs.map g := by
  rw [List.filterMap_flatMap, List.map_eq_flatMap]
  exact congrArg (rs.flatMap ·) (funext hone)

theorem glimpses_counted (r : Refresh) : r.glimpses.filterMap Glimpse.counted? = [r.succeeded] := by
  unfold glimpses
  cases r.written <;> rfl

theorem glimpses_selected (r : Refresh) : r.glimpses.filterMap Glimpse.selected? = [r.entry] := by
  unfold glimpses
  cases r.written <;> rfl

/-- The answer had a status of success, and what it brought was written. -/
def Good (r : Refresh) : Prop :=
  (∃ code body, r.answer = .response code body ∧ 200 ≤ code ∧ code < 300) ∧
    r.written = some (.ok ())

theorem good_of_content (e : Entry) (answer : Answer) (body : Bytes)
    (hbody : answer.content e.url = .ok body) : Good ⟨e, answer, some (.ok ()), true⟩ := by
  obtain ⟨code, rfl, hcode⟩ := Answer.content_eq_ok hbody
  exact ⟨⟨code, body, rfl, hcode⟩, rfl⟩

end Refresh

inductive Stage.Shown : Stage → List Glimpse → Prop
  | select : Shown .select []
  | fetch (e : Entry) (f : Fetching) (hf : ∀ outcome, f ≠ .done outcome) :
    Shown (.fetch e f) [.selected e]
  | answered (e : Entry) (answer : Answer) :
    Shown (.fetch e (.done (answer.content e.url))) [.selected e, .answered answer]
  | mint (e : Entry) (answer : Answer) (body : Bytes) (hbody : answer.content e.url = .ok body) :
    Shown (.mint e body) [.selected e, .answered answer]
  | write (e : Entry) (answer : Answer) (body : Bytes) (hbody : answer.content e.url = .ok body)
      (stagedId : UInt64) (w : Writing) :
    Shown (.write e stagedId body w) [.selected e, .answered answer]
  | record (e : Entry) (answer : Answer) (body : Bytes) (hbody : answer.content e.url = .ok body)
      (stagedId : UInt64) :
    Shown (.record e stagedId body) [.selected e, .answered answer, .wrote (.ok ())]
  | tidy (e : Entry) (answer : Answer) (body : Bytes) (hbody : answer.content e.url = .ok body)
      (file : UInt64) : Shown (.tidy file) [.selected e, .answered answer, .wrote (.ok ())]
  | succeeded (e : Entry) (answer : Answer) (body : Bytes)
      (hbody : answer.content e.url = .ok body) :
    Shown (.tally true) [.selected e, .answered answer, .wrote (.ok ())]
  | refused (e : Entry) (answer : Answer) (cause : FetchError)
      (hcause : answer.content e.url = .error cause) :
    Shown (.tally false) [.selected e, .answered answer]
  | unwritten (e : Entry) (answer : Answer) (cause : IoError) :
    Shown (.tally false) [.selected e, .answered answer, .wrote (.error cause)]
  | commit (c : Committing) : Shown (.commit c) []
  | idle : Shown .idle []

namespace World

def glimpses? (w : World) : Act → Option Glimpse
  | .refresh m =>
    match w.refresher.stage with
    | .select => (w.selects? (.refresh m)).map fun q => .selected q.1
    | .fetch _ .exchange => some (.answered m.answer)
    | .write _ _ _ (.done outcome) => some (.wrote outcome)
    | .tally succeeded => some (.counted succeeded)
    | _ => none
  | _ => none

/-- What was seen and what is seen now are refreshes that are over, each counted by what it came to,
and the part of the one that is under way. -/
def Shows (gs : List Glimpse) (stage : Stage) : Prop :=
  ∃ (rs : List Refresh) (rest : List Glimpse), gs = rs.flatMap Refresh.glimpses ++ rest ∧
    (∀ r ∈ rs, r.succeeded = true ↔ r.Good) ∧ stage.Shown rest

theorem shows_of_shown {gs : List Glimpse} {stage : Stage} (h : stage.Shown gs) :
    Shows gs stage := ⟨[], gs, rfl, by simp, h⟩

/-- A refresh is over when it is counted. -/
theorem shows_counted (r : Refresh) (h : r.succeeded = true ↔ r.Good) :
    Shows r.glimpses .select := ⟨[r], [], by simp, by simpa using h, .select⟩

theorem refresh_shows (w : World) (m : Moment) {gs : List Glimpse}
    (h : w.refresher.stage.Shown gs) :
    Shows (gs ++ (w.glimpses? (.refresh m)).toList) (w.step (.refresh m)).refresher.stage := by
  obtain ⟨s, adds, ⟨stage, dirty, report⟩⟩ := w
  cases h with
  | select =>
    apply shows_of_shown
    cases hselect : s.registry.selectDue m.now s.period with
    | none =>
      simp only [step, Refresher.step, glimpses?, selects?, hselect]
      cases dirty || s.registry.hasPending with
      | true => exact .commit .snapshot
      | false => exact .idle
    | some q =>
      simp only [step, Refresher.step, glimpses?, selects?, hselect]
      exact .fetch q.1 .arrive (by simp)
  | fetch e f hf =>
    apply shows_of_shown
    cases f with
    | arrive => exact .fetch e .wait (by simp)
    | wait =>
      simp only [step, Refresher.step, Fetching.step, glimpses?]
      split
      · exact .fetch e .exchange (by simp)
      · exact .fetch e .wait (by simp)
    | exchange => exact .answered e m.answer
    | done outcome => exact absurd rfl (hf outcome)
  | answered e answer =>
    apply shows_of_shown
    -- the content of an answer decides alone how its refresh goes on
    cases hcontent : answer.content e.url with
    | ok body =>
      simp only [step, Refresher.step, glimpses?]
      exact .mint e answer body hcontent
    | error cause =>
      simp only [step, Refresher.step, glimpses?]
      exact .refused e answer cause hcontent
  | mint e answer body hbody => exact shows_of_shown (.write e answer body hbody _ .create)
  | write e answer body hbody stagedId wr =>
    apply shows_of_shown
    cases wr with
    | done outcome =>
      cases outcome with
      | ok u => exact .record e answer body hbody stagedId
      | error cause => exact .unwritten e answer cause
    | _ => exact .write e answer body hbody stagedId _
  | record e answer body hbody stagedId =>
    apply shows_of_shown
    -- the entry may be gone; the refresh goes on to be counted all the same
    rcases s.registry.stage_cases e.id stagedId (Rules.recorded body) m.now with
      ⟨hmissing, -⟩ | ⟨pre, x, post, hstaged, -⟩
    · simp only [step, Refresher.step, glimpses?, hmissing]
      exact .tidy e answer body hbody stagedId
    · simp only [step, Refresher.step, glimpses?, hstaged]
      cases x.pending with
      | none => exact .succeeded e answer body hbody
      | some old =>
        by_cases hsame : old = e.id
        · simp only [if_pos hsame]
          exact .succeeded e answer body hbody
        · simp only [if_neg hsame]
          exact .tidy e answer body hbody old
  | tidy e answer body hbody file => exact shows_of_shown (.succeeded e answer body hbody)
  | succeeded e answer body hbody =>
    exact shows_counted ⟨e, answer, some (.ok ()), true⟩
      ⟨fun _ => Refresh.good_of_content e answer body hbody, fun _ => rfl⟩
  | refused e answer cause hcause =>
    refine shows_counted ⟨e, answer, none, false⟩ ⟨by simp, ?_⟩
    rintro ⟨-, hwritten⟩
    cases hwritten
  | unwritten e answer cause =>
    refine shows_counted ⟨e, answer, some (.error cause), false⟩ ⟨by simp, ?_⟩
    rintro ⟨-, hwritten⟩
    cases hwritten
  | commit c =>
    apply shows_of_shown
    cases c with
    | done rep => exact .idle
    | _ => exact .commit _
  | idle => exact shows_of_shown .idle

theorem step_shows (w : World) (a : Act) {gs : List Glimpse} (h : w.refresher.stage.Shown gs) :
    Shows (gs ++ (w.glimpses? a).toList) (w.step a).refresher.stage := by
  cases a with
  | refresh m => exact w.refresh_shows m h
  | startPass =>
    apply shows_of_shown
    simp only [step, glimpses?, Option.toList_none, List.append_nil]
    split
    · rename_i hidle
      rw [(w.refresher.isIdle_iff).mp hidle] at h
      cases h
      exact .select
    · exact h
  | add caller m =>
    have hrefresher : (w.step (.add caller m)).refresher = w.refresher := by
      simp only [step]
      split <;> rfl
    rw [hrefresher]
    apply shows_of_shown
    simpa [glimpses?] using h
  | _ =>
    apply shows_of_shown
    simpa [glimpses?, step] using h

theorem counted_glimpses (w : World) (a : Act) :
    (w.glimpses? a).toList.filterMap Glimpse.counted? = (w.tallies? a).toList := by
  obtain ⟨s, adds, ⟨stage, dirty, report⟩⟩ := w
  cases a with
  | refresh m =>
    cases stage with
    | select => cases hselects : selects? ⟨s, adds, ⟨.select, dirty, report⟩⟩ (.refresh m) <;>
        simp [glimpses?, tallies?, hselects, Glimpse.counted?]
    | fetch e f => cases f <;> rfl
    | write e stagedId body wr => cases wr <;> rfl
    | _ => rfl
  | _ => rfl

theorem selected_glimpses (w : World) (a : Act) :
    (w.glimpses? a).toList.filterMap Glimpse.selected? =
      ((w.selects? a).map (·.1)).toList := by
  obtain ⟨s, adds, ⟨stage, dirty, report⟩⟩ := w
  cases a with
  | refresh m =>
    cases stage with
    | select => cases hselects : selects? ⟨s, adds, ⟨.select, dirty, report⟩⟩ (.refresh m) <;>
        simp [glimpses?, hselects, Glimpse.selected?]
    | fetch e f => cases f <;> rfl
    | write e stagedId body wr => cases wr <;> rfl
    | _ => rfl
  | _ => rfl

end World

/-! ### Whole runs -/

namespace Run

variable {k : Run} {acts : List Act}

def reports (k : Run) (acts : List Act) : List PassReport := k.trace World.reports? acts

def glimpses (k : Run) (acts : List Act) : List Glimpse := k.trace World.glimpses? acts

def tallies (k : Run) (acts : List Act) : List Bool := k.trace World.tallies? acts

def events (k : Run) (acts : List Act) : List Event :=
  (k.after acts).world.system.journal.drop k.world.system.journal.length

theorem glimpses_counted (k : Run) (acts : List Act) :
    (k.glimpses acts).filterMap Glimpse.counted? = k.tallies acts :=
  trace_filterMap _ _ World.counted_glimpses k acts

theorem glimpses_selected (k : Run) (acts : List Act) :
    (k.glimpses acts).filterMap Glimpse.selected? = (k.selections acts).map (·.1) := by
  have hglimpses := trace_filterMap Glimpse.selected? (fun w a => (w.selects? a).map (·.1))
    World.selected_glimpses k acts
  have hselections : (k.trace World.selects? acts).filterMap (fun q => some q.1) =
      k.trace (fun w a => (w.selects? a).map (·.1)) acts :=
    trace_filterMap _ _ (fun w a => by cases w.selects? a <;> rfl) k acts
  rw [selections_eq_trace, ← List.filterMap_eq_map]
  exact hglimpses.trans hselections.symm

/-- What was seen of the refreshes is that of whole ones, and of the one under way. -/
theorem glimpses_shown (k : Run) (hstage : k.world.refresher.stage.Shown []) (acts : List Act) :
    World.Shows (k.glimpses acts) (k.after acts).world.refresher.stage := by
  induction acts using List.reverseRecOn with
  | nil => exact World.shows_of_shown hstage
  | append_singleton acts a ih =>
    obtain ⟨rs, rest, hglimpses, hjust, hshown⟩ := ih
    obtain ⟨rs', rest', hnow, hjust', hshown'⟩ := (k.after acts).world.step_shows a hshown
    rw [after_concat]
    refine ⟨rs ++ rs', rest', ?_, ?_, hshown'⟩
    · rw [glimpses, trace_concat]
      change k.glimpses acts ++ _ = _
      rw [hglimpses, List.append_assoc, hnow, List.flatMap_append, List.append_assoc]
    · intro r hr
      exact (List.mem_append.mp hr).elim (hjust r) (hjust' r)

/-- The books of a run, with what is open at the moment. -/
structure Balanced (k : Run) (acts : List Act) (events : List Event) : Prop where
  journal : (k.after acts).world.system.journal = k.world.system.journal ++ events
  counted : ∀ came, (k.after acts).world.system.counters.refreshes came =
    .ofNat ((k.tallies acts).count came)
  reported : ∀ came, ((k.reports acts).map (·.refreshes came)).sum +
    (k.after acts).world.progress.refreshes came = (k.tallies acts).count came
  refreshes : (k.tallies acts).length + (k.after acts).world.opened.refreshes =
    (k.selections acts).length
  selected : events.filterMap Event.selected? = (k.selections acts).map (·.1)
  commits : ∃ n, (k.after acts).world.system.counters.commits = .ofNat n ∧
    events.count .closed = n + (k.after acts).world.opened.closes ∧
    events.count .restarted = n + (k.after acts).world.opened.restarts
  renames : (k.after acts).world.system.counters.renamesFailed =
    .ofNat (events.countP Event.isRefusal)
  refusals : ((k.reports acts).map PassReport.refusals).sum +
    (k.after acts).world.opened.refusals = events.countP Event.isRefusal
  uncommitted : (k.after acts).world.progress.commit = none

theorem Balanced.step {events : List Event} (h : k.Balanced acts events) (a : Act) :
    ∃ more, k.Balanced (acts ++ [a]) (events ++ more) := by
  obtain ⟨more, hjournal, hbooks⟩ := (k.after acts).world.step_books a
  -- what the booking adds is added to each account of the run
  have hworld : (k.after (acts ++ [a])).world = (k.after acts).world.step a :=
    congrArg Run.world (k.after_concat acts a)
  have hselections := k.selections_concat acts a
  have htallies : k.tallies (acts ++ [a]) =
      k.tallies acts ++ ((k.after acts).world.tallies? a).toList := k.trace_concat acts a
  have hreports : k.reports (acts ++ [a]) =
      k.reports acts ++ ((k.after acts).world.reports? a).toList := k.trace_concat acts a
  obtain ⟨hcounted, hrenames⟩ := hbooks.counts
  obtain ⟨n, hn, hclosed, hrestarted⟩ := h.commits
  obtain ⟨n', hn', hclosed', hrestarted'⟩ := hbooks.commits
  obtain ⟨hrefusals, huncommitted⟩ := hbooks.refusals h.uncommitted
  have hrefreshes := hbooks.refreshes
  refine ⟨more, ?_⟩
  constructor
  case journal => rw [hworld, hjournal, h.journal, List.append_assoc]
  case counted =>
    intro came
    rw [hworld, hcounted, h.counted, htallies, List.count_append, UInt64.ofNat_add]
  case reported =>
    intro came
    have hbefore := h.reported came
    have hreported := hbooks.reported came
    rw [hworld, hreports, htallies, List.map_append, List.sum_append, List.count_append]
    omega
  case refreshes =>
    have hbefore := h.refreshes
    rw [hworld, htallies, hselections, List.length_append, List.length_append]
    omega
  case selected =>
    rw [hselections, List.filterMap_append, h.selected, hbooks.selects, List.map_append]
  case commits =>
    refine ⟨n + n', ?_, ?_, ?_⟩
    · rw [hworld, hn', hn, UInt64.ofNat_add]
    · rw [hworld, List.count_append]
      omega
    · rw [hworld, List.count_append]
      omega
  case renames => rw [hworld, hrenames, h.renames, List.countP_append, UInt64.ofNat_add]
  case refusals =>
    have hbefore := h.refusals
    rw [hworld, hreports, List.map_append, List.sum_append, List.countP_append]
    omega
  case uncommitted =>
    rw [hworld]
    exact huncommitted

theorem balanced_after (k : Run) (hidle : k.world.refresher.isIdle = true)
    (hzero : k.world.system.counters = .zero) (acts : List Act) :
    k.Balanced acts (k.events acts) := by
  suffices h : ∃ events, k.Balanced acts events by
    obtain ⟨events, hbalanced⟩ := h
    rwa [Run.events, hbalanced.journal, List.drop_left]
  induction acts using List.reverseRecOn with
  | nil =>
    have hprogress : k.world.progress = .empty := if_pos hidle
    have hopened : k.world.opened = .nothing := by
      rw [World.opened, (k.world.refresher.isIdle_iff).mp hidle]
      rfl
    refine ⟨[], ?_⟩
    constructor
    case journal => exact (List.append_nil _).symm
    case counted => simp [hzero, tallies, trace]
    case reported => simp [hprogress, reports, tallies, trace]
    case refreshes => simp [hopened, Opened.nothing, tallies, trace, selections]
    case selected => simp [selections]
    case commits =>
      exact ⟨0, by simp [hzero, Counters.zero], by simp [hopened, Opened.nothing],
        by simp [hopened, Opened.nothing]⟩
    case renames => simp [hzero, Counters.zero]
    case refusals => simp [hopened, Opened.nothing, reports, trace]
    case uncommitted => exact congrArg PassReport.commit hprogress
  | append_singleton acts a ih =>
    obtain ⟨events, hbalanced⟩ := ih
    obtain ⟨more, hnext⟩ := hbalanced.step a
    exact ⟨events ++ more, hnext⟩

/-- The counters at the end of some acts say what happened in them. -/
structure Audited (k : Run) (acts : List Act) (c : Counters) : Prop where
  refreshed : c.refreshesSucceeded.toNat = ((k.reports acts).map (·.refreshed)).sum
  failed : c.refreshesFailed.toNat = ((k.reports acts).map (·.failed)).sum
  selected : c.refreshesSucceeded.toNat + c.refreshesFailed.toNat = (k.selections acts).length
  /-- Each selection led to one refresh, which was counted by its answer and its write alone. -/
  refreshes : ∃ rs : List Refresh, k.glimpses acts = rs.flatMap Refresh.glimpses ∧
    rs.map (·.entry) = (k.selections acts).map (·.1) ∧
    (∀ r ∈ rs, r.succeeded = true ↔ r.Good) ∧
    c.refreshesSucceeded.toNat = rs.countP (·.succeeded) ∧
    c.refreshesFailed.toNat = rs.countP (!·.succeeded)
  closed : c.commits.toNat = (k.events acts).count .closed
  restarted : c.commits.toNat = (k.events acts).count .restarted
  refusals : c.renamesFailed.toNat = ((k.reports acts).map PassReport.refusals).sum
  renames : c.renamesFailed.toNat = (k.events acts).countP Event.isRefusal

/-- However the steps of passes, additions and deletions are mixed and whatever comes from outside,
the counters agree with the reports and with what happened whenever no pass is under way, as long as
fewer events were noted than a counter can count. -/
theorem counters_audited (k : Run) (hidle : k.world.refresher.isIdle = true)
    (hzero : k.world.system.counters = .zero) (acts : List Act)
    (hover : (k.after acts).world.refresher.isIdle = true)
    (hfew : (k.events acts).length < 2 ^ 64) :
    k.Audited acts (k.after acts).world.system.counters := by
  have hbalanced := k.balanced_after hidle hzero acts
  have hprogress : (k.after acts).world.progress = .empty := if_pos hover
  -- between passes nothing is open, so the accounts of the run are settled
  have hend : (k.after acts).world.refresher.stage = .idle :=
    (Refresher.isIdle_iff _).mp hover
  have hopened : (k.after acts).world.opened = .nothing := by
    rw [World.opened, hend]
    rfl
  -- everything that is counted was noted
  have htoNat (n : Nat) (hn : n ≤ (k.events acts).length) : (UInt64.ofNat n).toNat = n :=
    UInt64.toNat_ofNat_of_lt' (Nat.lt_of_le_of_lt hn hfew)
  have hselections : (k.selections acts).length ≤ (k.events acts).length := by
    have hlen := congrArg List.length hbalanced.selected
    rw [List.length_map] at hlen
    exact hlen ▸ List.length_filterMap_le _ _
  have htallies : (k.tallies acts).length = (k.selections acts).length := by
    have hrefreshes := hbalanced.refreshes
    rwa [hopened] at hrefreshes
  have hboth := List.count_true_add_count_false (k.tallies acts)
  have hcounted (came : Bool) : ((k.after acts).world.system.counters.refreshes came).toNat =
      (k.tallies acts).count came := by
    have hle : (k.tallies acts).count came ≤ (k.tallies acts).length := List.count_le_length
    rw [hbalanced.counted, htoNat _ (by omega)]
  have hsucceeded : (k.after acts).world.system.counters.refreshesSucceeded.toNat =
      (k.tallies acts).count true := hcounted true
  have hfailed : (k.after acts).world.system.counters.refreshesFailed.toNat =
      (k.tallies acts).count false := hcounted false
  have hrenames : (k.after acts).world.system.counters.renamesFailed.toNat =
      (k.events acts).countP Event.isRefusal := by
    rw [hbalanced.renames, htoNat _ List.countP_le_length]
  obtain ⟨n, hn, hclosed, hrestarted⟩ := hbalanced.commits
  rw [hopened] at hclosed hrestarted
  have hcommits : (k.after acts).world.system.counters.commits.toNat = n := by
    have hle : n ≤ (k.events acts).count .closed := hclosed ▸ Nat.le_add_right n _
    rw [hn, htoNat n (Nat.le_trans hle List.count_le_length)]
  constructor
  case refreshed =>
    have hreported := hbalanced.reported true
    rw [hprogress] at hreported
    exact hsucceeded.trans hreported.symm
  case failed =>
    have hreported := hbalanced.reported false
    rw [hprogress] at hreported
    exact hfailed.trans hreported.symm
  case selected => omega
  case refreshes =>
    have hstage := (Refresher.isIdle_iff _).mp hidle
    obtain ⟨rs, rest, hglimpses, hjust, hshown⟩ :=
      k.glimpses_shown (by rw [hstage]; exact .idle) acts
    rw [hend] at hshown
    cases hshown
    rw [List.append_nil] at hglimpses
    have hcounted : k.tallies acts = rs.map (·.succeeded) := by
      rw [← glimpses_counted, hglimpses, Refresh.filterMap_flatMap _ _ Refresh.glimpses_counted]
    have hentries : rs.map (·.entry) = (k.selections acts).map (·.1) := by
      rw [← glimpses_selected, hglimpses, Refresh.filterMap_flatMap _ _ Refresh.glimpses_selected]
    refine ⟨rs, hglimpses, hentries, hjust, ?_, ?_⟩
    · rw [hsucceeded, hcounted]
      simp [List.count, List.countP_map, Function.comp_def]
    · rw [hfailed, hcounted]
      simp [List.count, List.countP_map, Function.comp_def]
  case closed => rw [hcommits, hclosed]; rfl
  case restarted => rw [hcommits, hrestarted]; rfl
  case refusals =>
    have hrefusals := hbalanced.refusals
    rw [hopened] at hrefusals
    exact hrenames.trans hrefusals.symm
  case renames => exact hrenames

/-- A pass refreshes two lists, of which the first is deleted while it is downloaded, and the
renaming of the second one's file fails. -/
def deletedMeanwhile : List Act :=
  let stuck : Moment := { Moment.calm with disk := ⟨some ⟨.busy, true⟩, 0, .epoch⟩ }
  .startPass :: List.replicate 3 (.refresh .calm) ++ .delete "http://a.example/" ::
    List.replicate 27 (.refresh .calm) ++ .refresh stuck :: List.replicate 4 (.refresh .calm)

theorem counters_audited_deletedMeanwhile :
    let k := loaded .pair (.ofSeconds 10) .withLists
    (k.world.refresher.isIdle = true ∧ k.world.system.counters = .zero ∧
      (k.after deletedMeanwhile).world.refresher.isIdle = true ∧
      (k.events deletedMeanwhile).length < 2 ^ 64) ∧
      k.Audited deletedMeanwhile (k.after deletedMeanwhile).world.system.counters ∧
      (k.after deletedMeanwhile).world.system.counters = ⟨2, 0, 1, 1⟩ := by
  have hover : ((loaded .pair (.ofSeconds 10) .withLists).after
      deletedMeanwhile).world.refresher.isIdle = true := by decide +kernel
  have hfew : ((loaded .pair (.ofSeconds 10) .withLists).events
      deletedMeanwhile).length < 2 ^ 64 := by decide +kernel
  exact ⟨⟨rfl, rfl, hover, hfew⟩, counters_audited _ rfl rfl deletedMeanwhile hover hfew,
    by decide +kernel⟩

end Run
end ListKeeper
