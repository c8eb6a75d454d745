import ListKeeper.Refreshing

/-! What the next step of a pass does to the disk. A step is announced before it is taken, so that
it can be carried out on a real disk, whose fault the step is then told. Main statement:
`writeStep_tree`, by which a write does to the tree of files exactly what it announces. -/
namespace ListKeeper

inductive FileOp
  | create (path : String)
  | append (path : String) (more : Bytes)
  | sync (path : String)
  | rename (source target : String)
  | remove (path : String)
  deriving DecidableEq

namespace FileOp

def apply (stamp : Instant) (t : FileTree) : FileOp → Except IoError FileTree
  | create path => t.create path stamp
  | append path more => t.append path more stamp
  | sync _ => .ok t
  | rename source target => t.rename source target
  | remove path => t.remove path

/-- The tree after an operation, which is the same one where the operation fails. -/
def result (stamp : Instant) (t : FileTree) (op : FileOp) : FileTree :=
  match op.apply stamp t with
  | .ok t' => t'
  | .error _ => t

end FileOp

namespace Store

def writeOp? (s : Store) (id : UInt64) (chunk : Nat) : Writing → Option FileOp
  | .create => some (.create (s.tempPathFor id))
  | .fill rest => some (.append (s.tempPathFor id) (rest.take (chunk + 1)))
  | .sync => some (.sync (s.tempPathFor id))
  | .publish => some (.rename (s.tempPathFor id) (s.pathFor id))
  | .discard _ => some (.remove (s.tempPathFor id))
  | .done _ => none

theorem writeStep_tree (s : Store) (id : UInt64) (body : Bytes) (chunk : Nat) (stamp : Instant)
    (t : FileTree) (w : Writing) :
    (s.writeStep id body ⟨none, chunk, stamp⟩ t w).1 =
      match s.writeOp? id chunk w with
      | some op => op.result stamp t
      | none => t := by
  cases w with
  | done outcome => rfl
  | create =>
    simp only [writeStep, writeOp?, attempt, FileOp.result, FileOp.apply]
    split <;> simp_all
  | fill rest =>
    simp only [writeStep, writeOp?, attempt, FileOp.result, FileOp.apply]
    split <;> simp_all
  | sync => rfl
  | publish =>
    simp only [writeStep, writeOp?, attempt, FileOp.result, FileOp.apply]
    split <;> simp_all
  | discard cause =>
    simp only [writeStep, writeOp?, attempt, FileOp.result, FileOp.apply]
    split <;> simp_all

end Store

namespace Committing

def op? (s : Store) : Committing → Option FileOp
  | .promote ((id, stagedId) :: _) _ =>
    if stagedId = id then none else some (.rename (s.pathFor stagedId) (s.pathFor id))
  | _ => none

end Committing

namespace Refresher

def op? (s : Store) (chunk : Nat) (r : Refresher) : Option FileOp :=
  match r.stage with
  | .write _ stagedId _ w => s.writeOp? stagedId chunk w
  | .tidy file => some (.remove (s.pathFor file))
  | .commit c => c.op? s
  | _ => none

def asks? (r : Refresher) : Option String :=
  match r.stage with
  | .fetch e .exchange => some e.url
  | _ => none

end Refresher
end ListKeeper
