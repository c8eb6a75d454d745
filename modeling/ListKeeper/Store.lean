import ListKeeper.FileTree

/-! The files of the lists. Each id has one file in the store's directory, and a temporary one
beside it while that file is being written: `Writing` follows such a write through its steps. -/
namespace ListKeeper

structure Store where
  dir : String
  extension : String
  deriving DecidableEq

/-- A failure of the disk. Bytes go to the disk behind the back of the one who hands them over;
`told` says whether the wait for the disk at the end of a body tells of a failure till then. -/
structure Fault where
  error : IoError
  told : Bool
  deriving DecidableEq

/-- What the disk does in one step: it may fail, and it takes some bytes at a time. `stamp` is the
time that it notes for a change. -/
structure Disk where
  fault : Option Fault
  chunk : Nat
  stamp : Instant

namespace Disk

/-- A disk that never fails and takes any number of bytes at once. -/
def sound (body : Bytes) (stamp : Instant) : Disk := ⟨none, body.length, stamp⟩

/-- A disk from which the file of every id can be read. -/
def readsAll : UInt64 → Disk := fun _ => sound [] .epoch

/-- A disk that fails without a word. -/
def hides (d : Disk) : Bool :=
  match d.fault with
  | some f => !f.told
  | none => false

end Disk

/-- How far the write of a file has come. -/
inductive Writing
  | create
  | fill (rest : Bytes)
  | sync
  | publish
  | discard (cause : IoError)
  | done (outcome : Except IoError Unit)

namespace Store

def fileName (s : Store) (id : UInt64) : String := toString id.toNat ++ "." ++ s.extension

def tempName (s : Store) (id : UInt64) : String := s.fileName id ++ ".tmp"

def pathFor (s : Store) (id : UInt64) : String := joinPath s.dir (s.fileName id)

def tempPathFor (s : Store) (id : UInt64) : String := joinPath s.dir (s.tempName id)

def ensureDir (s : Store) (t : FileTree) : FileTree × Except IoError Unit := t.makeDirs s.dir

def attempt {α : Type} (disk : Disk) (op : Except IoError α) : Except IoError α :=
  match disk.fault with
  | some f => .error f.error
  | none => op

def load (s : Store) (t : FileTree) (id : UInt64) (disk : Disk := .sound [] .epoch) :
    Except IoError (Bytes × Instant) :=
  attempt disk (t.read (s.pathFor id))

def remove (s : Store) (t : FileTree) (id : UInt64) : Except IoError FileTree :=
  t.remove (s.pathFor id)

def promote (s : Store) (t : FileTree) (stagedId id : UInt64) : Except IoError FileTree :=
  t.rename (s.pathFor stagedId) (s.pathFor id)

def fillOrSync (rest : Bytes) : Writing := if rest = [] then .sync else .fill rest

/-- How many bytes are handed over at once. -/
def pieceSize : Nat := 2097152

/-- Whether what is left of a body belongs to its last piece. -/
def inLastPiece (body rest : Bytes) : Bool := rest.length ≤ (body.length - 1) % pieceSize + 1

/-- What is left to do when the disk did not take some bytes of a body. Whoever hands over the next
piece is told; behind the last one only the wait for the disk can tell. -/
def afterFault (disk : Disk) (body rest : Bytes) (cause : IoError) : Writing :=
  if disk.hides && inLastPiece body rest then .sync else .discard cause

/-- One step of writing a body to an id's file. The body goes to the temporary file, which takes the
place of the file only when nobody told of a failure; after a failure the temporary file is taken
away, and whether that succeeds is not asked. -/
def writeStep (s : Store) (id : UInt64) (body : Bytes) (disk : Disk) (t : FileTree) :
    Writing → FileTree × Writing
  | .create =>
    match attempt disk (t.create (s.tempPathFor id) disk.stamp) with
    | .ok t' => (t', fillOrSync body)
    | .error e => (t, .discard e)
  | .fill rest =>
    match attempt disk (t.append (s.tempPathFor id) (rest.take (disk.chunk + 1)) disk.stamp) with
    | .ok t' => (t', fillOrSync (rest.drop (disk.chunk + 1)))
    -- the bytes are with the disk by then, and who hands over the next piece hears of it
    | .error e => (t, afterFault disk body rest e)
  | .sync =>
    match attempt disk (.ok t) with
    | .ok t' => (t', .publish)
    | .error e => (t, .discard e)
  | .publish =>
    match attempt disk (t.rename (s.tempPathFor id) (s.pathFor id)) with
    | .ok t' => (t', .done (.ok ()))
    | .error e => (t, .discard e)
  | .discard cause =>
    match attempt disk (t.remove (s.tempPathFor id)) with
    | .ok t' => (t', .done (.error cause))
    | .error _ => (t, .done (.error cause))
  | .done outcome => (t, .done outcome)

def writeSteps (s : Store) (id : UInt64) (body : Bytes) (disk : Disk) :
    Nat → FileTree × Writing → FileTree × Writing
  | 0, w => w
  | n + 1, w => writeSteps s id body disk n (s.writeStep id body disk w.1 w.2)

/-- Writes a body to an id's file on a sound disk, which takes at most five steps. -/
def write (s : Store) (t : FileTree) (id : UInt64) (body : Bytes) (stamp : Instant) :
    FileTree × Except IoError Unit :=
  match s.writeSteps id body (.sound body stamp) 5 (t, .create) with
  | (t', .done outcome) => (t', outcome)
  | (t', _) => (t', .ok ())

end Store
end ListKeeper
