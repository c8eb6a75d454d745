import ListKeeper.Rules
import ListKeeper.Instant
import ListKeeper.FileTree.Location

/-! Files and directories. Absolute paths start at the root of the tree, relative ones in a working
directory. Every operation is one atomic step that either fails without a trace or changes the tree;
there are no links. Of two faults the one met first along the path is reported. -/
namespace ListKeeper

inductive IoError
  | notFound
  | busy
  | alreadyExists
  | notDirectory
  | isDirectory
  | invalid
  | nameTooLong
  | notEmpty
  | addressUnavailable
  | other (text : String)
  deriving DecidableEq

namespace IoError

/-- The words and the number by which an error is known to the operating system. -/
def message : IoError → String
  | notFound => "No such file or directory (os error 2)"
  | busy => "Device or resource busy (os error 16)"
  | alreadyExists => "File exists (os error 17)"
  | notDirectory => "Not a directory (os error 20)"
  | isDirectory => "Is a directory (os error 21)"
  | invalid => "Invalid argument (os error 22)"
  | nameTooLong => "File name too long (os error 36)"
  | notEmpty => "Directory not empty (os error 39)"
  | addressUnavailable => "Cannot assign requested address (os error 99)"
  | other text => text

end IoError

/-- The names that lead from the root to a place below it. -/
abbrev Path := List String

inductive Node
  | file (body : Bytes) (modified : Instant)
  | dir
  deriving DecidableEq

/-- The directory in which relative paths start: the root where nothing else is said. -/
class WorkingDir where
  path : Path

instance : WorkingDir := ⟨[]⟩

/-- The nodes below the root, each at its path, and the working directory. -/
structure FileTree where
  nodes : List (Path × Node)
  [cwd : WorkingDir]

/-- Where the last step of a path leads: to a name in a directory, or straight to a directory. -/
inductive Place
  | named (parent : Path) (name : String) (asDirectory : Bool)
  | direct (dir : Path)

namespace FileTree

/-- The root with nothing in it. -/
def empty : FileTree := ⟨[]⟩

/-- What a path holds. The root is always there. -/
def get? (t : FileTree) (p : Path) : Option Node :=
  if p = [] then some .dir else (t.nodes.find? fun n => n.1 == p).map (·.2)

def put (t : FileTree) (p : Path) (n : Node) : FileTree :=
  { t with nodes := (p, n) :: t.nodes.filter fun m => m.1 != p }

def erase (t : FileTree) (p : Path) : FileTree :=
  { t with nodes := t.nodes.filter fun m => m.1 != p }

def hasChildren (t : FileTree) (p : Path) : Bool :=
  t.nodes.any fun n => p.isPrefixOf n.1 && n.1 != p

/-- The longest name, and the longest path with its end mark, in bytes. -/
def maxName : Nat := 255

def maxPath : Nat := 4096

/-- The node under a name in a directory, where the name is one that can be asked for. -/
def lookup (t : FileTree) (parent : Path) (name : String) : Except IoError (Option Node) :=
  if maxName < name.utf8ByteSize then .error .nameTooLong else .ok (t.get? (parent ++ [name]))

/-- The directory to which some names lead, one after the other. Above the root is the root. -/
def enter (t : FileTree) (here : Path) : List String → Except IoError Path
  | [] => .ok here
  | name :: rest =>
    if name = ".." then enter t here.dropLast rest
    else match t.lookup here name with
      | .error e => .error e
      | .ok none => .error .notFound
      | .ok (some (.file _ _)) => .error .notDirectory
      | .ok (some .dir) => enter t (here ++ [name]) rest

/-- Follows names from a directory; all but the last must be directories. -/
def walk (t : FileTree) (asDirectory : Bool) (here : Path) : List String → Except IoError Place
  | [] => .ok (.direct here)
  | [name] =>
    if name = ".." then .ok (.direct here.dropLast) else .ok (.named here name asDirectory)
  | name :: rest =>
    if name = ".." then walk t asDirectory here.dropLast rest
    else match t.lookup here name with
      | .error e => .error e
      | .ok none => .error .notFound
      | .ok (some (.file _ _)) => .error .notDirectory
      | .ok (some .dir) => walk t asDirectory (here ++ [name]) rest

/-- The directory in which a path starts. The working directory is one only while it is there. -/
def start (t : FileTree) (absolute : Bool) : Except IoError Path :=
  if absolute then .ok [] else t.enter [] t.cwd.path

def locate (t : FileTree) (text : String) : Except IoError Place :=
  if maxPath ≤ text.utf8ByteSize then .error .nameTooLong
  else match Location.ofText? text with
    -- the empty text names nothing
    | none => .error .notFound
    | some l => (t.start l.absolute).bind fun here => t.walk l.asDirectory here l.names

def find (t : FileTree) (text : String) : Except IoError (Path × Node) := do
  match ← t.locate text with
  | .direct d => .ok (d, .dir)
  | .named parent name asDirectory =>
    match ← t.lookup parent name with
    | none => .error .notFound
    | some (.file body modified) =>
      if asDirectory then .error .notDirectory else .ok (parent ++ [name], .file body modified)
    | some .dir => .ok (parent ++ [name], .dir)

def isDirectory (t : FileTree) (text : String) : Bool :=
  match t.find text with
  | .ok (_, .dir) => true
  | _ => false

def read (t : FileTree) (text : String) : Except IoError (Bytes × Instant) := do
  match ← t.find text with
  | (_, .dir) => .error .isDirectory
  | (_, .file body modified) => .ok (body, modified)

/-- Opens a file for writing: makes it where it is missing and empties it where it is there. -/
def create (t : FileTree) (text : String) (now : Instant) : Except IoError FileTree := do
  match ← t.locate text with
  | .direct _ => .error .isDirectory
  | .named parent name asDirectory =>
    if asDirectory then .error .isDirectory
    else match ← t.lookup parent name with
      | some .dir => .error .isDirectory
      | _ => .ok (t.put (parent ++ [name]) (.file [] now))

def append (t : FileTree) (text : String) (more : Bytes) (now : Instant) :
    Except IoError FileTree := do
  match ← t.find text with
  | (_, .dir) => .error .isDirectory
  | (p, .file body _) => .ok (t.put p (.file (body ++ more) now))

def remove (t : FileTree) (text : String) : Except IoError FileTree := do
  match ← t.locate text with
  | .direct _ => .error .isDirectory
  | .named parent name asDirectory =>
    match ← t.lookup parent name with
    | none => .error .notFound
    | some .dir => .error .isDirectory
    | some (.file _ _) =>
      if asDirectory then .error .notDirectory else .ok (t.erase (parent ++ [name]))

def move (t : FileTree) (src dst : Path) : FileTree :=
  { t with
    nodes := (t.nodes.filter fun n => n.1 != dst).map fun n =>
      if src.isPrefixOf n.1 then (dst ++ n.1.drop src.length, n.2) else n }

/-- Renames a file or a directory. A file replaces a file and a directory an empty directory;
renaming something to its own name changes nothing. -/
def rename (t : FileTree) (source target : String) : Except IoError FileTree := do
  match ← t.locate source, ← t.locate target with
  | .named oldParent oldName oldDir, .named newParent newName newDir =>
    let old ← t.lookup oldParent oldName
    let src := oldParent ++ [oldName]
    let dst := newParent ++ [newName]
    match old with
    | none => .error .notFound
    | some node =>
      let there ← t.lookup newParent newName
      -- the checks stand in the order in which a kernel makes them
      if node ≠ .dir && (oldDir || newDir) then .error .notDirectory
      else if src.isPrefixOf dst && src ≠ dst then .error .invalid
      else if dst.isPrefixOf src && src ≠ dst then .error .notEmpty
      else if src = dst then .ok t
      else match node, there with
        | _, none => .ok (t.move src dst)
        | .dir, some (.file _ _) => .error .notDirectory
        | .file _ _, some .dir => .error .isDirectory
        | .file _ _, some (.file _ _) => .ok (t.move src dst)
        | .dir, some .dir => if t.hasChildren dst then .error .notEmpty else .ok (t.move src dst)
  | _, _ => .error .busy

def makeDir (t : FileTree) (text : String) : Except IoError FileTree := do
  match ← t.locate text with
  | .direct _ => .error .alreadyExists
  | .named parent name _ =>
    match ← t.lookup parent name with
    | some _ => .error .alreadyExists
    | none => .ok (t.put (parent ++ [name]) .dir)

/-- Makes a directory, given by its names from the last to the first, and those above it that are
missing. What was made stays when a later step fails. -/
def makeAbove (t : FileTree) (text : List String → String) :
    List String → FileTree × Except IoError Unit
  | [] => (t, .ok ())
  | name :: above =>
    let here := text (name :: above).reverse
    match t.makeDir here with
    | .ok made => (made, .ok ())
    | .error .notFound =>
      match makeAbove t text above with
      | (t', .error e) => (t', .error e)
      | (t', .ok ()) =>
        match t'.makeDir here with
        | .ok made => (made, .ok ())
        -- someone else may have made it, which is as good
        | .error e => (t', if t'.isDirectory here then .ok () else .error e)
    | .error e => (t, if t.isDirectory here then .ok () else .error e)

/-- Makes a directory and those above it that are missing; one that is there is as good. -/
def makeDirs (t : FileTree) (text : String) : FileTree × Except IoError Unit :=
  match Location.ofText? text with
  | none => (t, .ok ())
  | some l =>
    let root := if l.absolute then "/" else ""
    t.makeAbove (fun names => root ++ String.intercalate "/" names) l.names.reverse

def removeDirs (t : FileTree) (text : String) : Except IoError FileTree := do
  match ← t.find text with
  | (_, .file _ _) => .error .notDirectory
  | (p, .dir) => .ok { t with nodes := t.nodes.filter fun n => !p.isPrefixOf n.1 }

/-- Writes a whole file at once and sets the time of its last change. -/
def write (t : FileTree) (text : String) (body : Bytes) (modified : Instant) :
    Except IoError FileTree := do
  (← t.create text modified).append text body modified

end FileTree
end ListKeeper
