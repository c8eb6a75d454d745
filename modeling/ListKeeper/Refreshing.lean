import ListKeeper.Committing

/-! Refresh passes. A pass takes the entries that are due one by one, fetches each into a staged
file of its own, and commits what is staged when none is due any more. -/
namespace ListKeeper

structure PassReport where
  refreshed : Nat
  failed : Nat
  commit : Option CommitReport
  deriving DecidableEq

inductive Stage
  | select
  | fetch (e : Entry) (f : Fetching)
  | mint (e : Entry) (body : Bytes)
  | write (e : Entry) (stagedId : UInt64) (body : Bytes) (w : Writing)
  | record (e : Entry) (stagedId : UInt64) (body : Bytes)
  | tidy (file : UInt64)
  | tally (succeeded : Bool)
  | commit (c : Committing)
  | idle

/-- The one who makes the passes. `dirty` says that something was staged since the last commit. -/
structure Refresher where
  stage : Stage
  dirty : Bool
  report : PassReport

namespace PassReport

def empty : PassReport := ⟨0, 0, none⟩

end PassReport

namespace Refresher

def fresh : Refresher := ⟨.idle, false, .empty⟩

def startPass (r : Refresher) : Refresher := { r with stage := .select, report := .empty }

def isIdle (r : Refresher) : Bool :=
  match r.stage with
  | .idle => true
  | _ => false

def enter (r : Refresher) (stage : Stage) : Refresher := { r with stage := stage }

/-- One step of a pass. A failed refresh is counted and the pass goes on with the next entry. -/
def step (ticket : Nat) (m : Moment) (s : System) (r : Refresher) : System × Refresher :=
  match r.stage with
  | .select =>
    match s.registry.selectDue m.now s.period with
    | some (e, registry) =>
      ({ s with registry := registry }.note (.selected e), r.enter (.fetch e .arrive))
    -- a file that an earlier commit could not rename asks for one as well
    | none => (s, r.enter (if r.dirty || s.registry.hasPending then .commit .snapshot else .idle))
  | .fetch e (.done (.ok body)) => (s, r.enter (.mint e body))
  | .fetch _ (.done (.error _)) => (s, r.enter (.tally false))
  | .fetch e f =>
    let (s', f') := f.step e.url ticket m s
    (s', r.enter (.fetch e f'))
  | .mint e body =>
    let (stagedId, s') := s.mint m.now
    (s', r.enter (.write e stagedId body .create))
  | .write e stagedId body (.done (.ok ())) => (s, r.enter (.record e stagedId body))
  | .write _ _ _ (.done (.error _)) => (s, r.enter (.tally false))
  | .write e stagedId body w =>
    let (s', w') := s.write m stagedId body w
    (s', r.enter (.write e stagedId body w'))
  | .record e stagedId body =>
    match s.registry.stage e.id stagedId (Rules.recorded body) m.now with
    -- the entry was deleted while its list was downloaded
    | (.missing, _) => (s, r.enter (.tidy stagedId))
    | (.staged superseded, registry) =>
      ({ s with registry := registry }.note (.staged e.id stagedId),
        { r with
          dirty := true
          stage := match superseded with
            -- the file that was staged before is of no use any more, unless it is the list's own
            | some old => if old = e.id then .tally true else .tidy old
            | none => .tally true })
  | .tidy file => (s.discard m.disk file, r.enter (.tally true))
  | .tally true =>
    ({ s with counters := s.counters.refreshSucceeded },
      { r with stage := .select, report := { r.report with refreshed := r.report.refreshed + 1 } })
  | .tally false =>
    ({ s with counters := s.counters.refreshFailed },
      { r with stage := .select, report := { r.report with failed := r.report.failed + 1 } })
  | .commit (.done report) =>
    -- only a commit that came to its end takes the mark away
    (s, { stage := .idle, dirty := false, report := { r.report with commit := some report } })
  | .commit c =>
    let (s', c') := c.step m s
    (s', r.enter (.commit c'))
  | .idle => (s, r)

end Refresher

/-- The loop around the passes: a pass, a sleep of one period, and so on until it is told to stop,
which it hears only when it sleeps. -/
inductive Loop
  | passing (r : Refresher)
  | sleeping (r : Refresher)
  | stopped

namespace Loop

inductive Call
  | wake
  | shutdown

/-- The start of a pass, or of the sleep in its place where refreshing is switched off. -/
def turn (enabled : Bool) (r : Refresher) : Loop :=
  if enabled then .passing r.startPass else .sleeping r

def start (enabled : Bool) : Loop := turn enabled .fresh

def step (enabled : Bool) (ticket : Nat) (call : Option Call) (m : Moment) (s : System) :
    Loop → System × Loop
  | .passing r =>
    if r.isIdle then (s, .sleeping r)
    else
      let (s', r') := r.step ticket m s
      (s', .passing r')
  | .sleeping r =>
    match call with
    | none => (s, .sleeping r)
    | some .wake => (s, turn enabled r)
    | some .shutdown => (s, .stopped)
  | .stopped => (s, .stopped)

end Loop
end ListKeeper
