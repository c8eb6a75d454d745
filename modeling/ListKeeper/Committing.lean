import ListKeeper.System

/-! Commits. All staged files take the places of the files that are read while their consumer is
paused once. A rename that fails leaves its entry pending, for the next commit. -/
namespace ListKeeper

structure CommitReport where
  promoted : Nat
  failed : Nat
  deriving DecidableEq

/-- How far a commit has come. The pairs are ids with their staged files' ids. -/
inductive Committing
  | snapshot
  | close (pairs : List (UInt64 × UInt64))
  | promote (pairs : List (UInt64 × UInt64)) (report : CommitReport)
  | clear (id stagedId : UInt64) (rest : List (UInt64 × UInt64)) (report : CommitReport)
  | restart (report : CommitReport)
  | count (report : CommitReport)
  | done (report : CommitReport)

namespace CommitReport

def empty : CommitReport := ⟨0, 0⟩

end CommitReport

namespace Committing

/-- One step of a commit. What the consumer answers to the two calls is not asked: a commit that
could not pause it goes on, and one that could not resume it is complete. -/
def step (m : Moment) (s : System) : Committing → System × Committing
  | .snapshot =>
    match s.registry.staged with
    | [] => (s, .done .empty)
    | pairs => (s, .close pairs)
  | .close pairs =>
    match m.consumer with
    | .ok () | .error _ => (s.note .closed, .promote pairs .empty)
  | .promote [] report => (s, .restart report)
  | .promote ((id, stagedId) :: rest) report =>
    -- the file is in its place already, and is not renamed
    if stagedId = id then
      ({ s with registry := (s.registry.clearPending id stagedId).2 }, .promote rest report)
    else
      match Store.attempt m.disk (s.store.promote s.tree stagedId id) with
      | .ok t =>
        ({ s with tree := t }.note (.renamed id stagedId true), .clear id stagedId rest report)
      | .error _ =>
        ({ s with counters := s.counters.renameFailed }.note (.renamed id stagedId false),
          .promote rest { report with failed := report.failed + 1 })
  | .clear id stagedId rest report =>
    ({ s with registry := (s.registry.clearPending id stagedId).2 },
      .promote rest { report with promoted := report.promoted + 1 })
  | .restart report =>
    match m.consumer with
    | .ok () | .error _ => (s.note .restarted, .count report)
  | .count report => ({ s with counters := s.counters.commitCompleted }, .done report)
  | .done report => (s, .done report)

end Committing
end ListKeeper
