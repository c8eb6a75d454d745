import ListKeeper.Adding
import ListKeeper.Refreshing

/-! Everything that can be under way on a system, in one type. Several jobs run at the same time by
taking steps in any order; each holds a ticket of its own for the network. -/
namespace ListKeeper

inductive Job
  | add (c : Candidate) (stage : Adding)
  | download (url : String) (stage : Fetching)
  | pass (r : Refresher)
  | commit (stage : Committing)

namespace Job

def step (ticket : Nat) (m : Moment) (s : System) : Job → System × Job
  | .add c stage =>
    let (s', stage') := stage.step c ticket m s
    (s', .add c stage')
  | .download url stage =>
    let (s', stage') := stage.step url ticket m s
    (s', .download url stage')
  | .pass r =>
    let (s', r') := r.step ticket m s
    (s', .pass r')
  | .commit stage =>
    let (s', stage') := stage.step m s
    (s', .commit stage')

def isDone : Job → Bool
  | .add _ (.done _) => true
  | .download _ (.done _) => true
  | .pass r => r.isIdle
  | .commit (.done _) => true
  | _ => false

def fetching? : Job → Option Fetching
  | .add _ (.fetch _ f) => some f
  | .download _ f => some f
  | .pass ⟨.fetch _ f, _, _⟩ => some f
  | _ => none

def awaitsAnswer (j : Job) : Bool :=
  match j.fetching? with
  | some .exchange => true
  | _ => false

def awaitsTurn (j : Job) (ticket : Nat) (s : System) : Bool :=
  match j.fetching? with
  | some .wait => s.gate.head? != some ticket
  | _ => false

end Job
end ListKeeper
