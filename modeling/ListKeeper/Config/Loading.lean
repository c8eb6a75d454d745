import ListKeeper.Config.Reading
import ListKeeper.Config.Validation
import ListKeeper.FileTree
import ListKeeper.Json.Reader
import ListKeeper.Settings.EnvFile
import ListKeeper.Settings.Toml.Document
import ListKeeper.Url.Reader

/-! Where a configuration comes from. A file is laid over the standard values, and the environment
over the file; a file of variables fills in what the environment leaves open. `Config.load` looks
for these files itself, `Config.loadFrom` takes a given one. -/
namespace ListKeeper

/-- What is found under a path, which may not be one that can be asked for. -/
inductive Found
  | nothing
  | refused
  | dir
  | file (body : Bytes)

/-- What the program is started in: its files, its variables and its working directory. -/
structure Surroundings where
  look : String → Found
  env : Environment
  [cwd : WorkingDir]

inductive ConfigError
  | unreadable
  | fault (f : ConfigFault)
  deriving DecidableEq

inductive Format
  | toml
  | json
  | yaml
  | ini
  | ron
  | json5
  deriving DecidableEq

def FileTree.look (t : FileTree) (path : String) : Found :=
  match t.find path with
  | .ok (_, .file body _) => .file body
  | .ok (_, .dir) => .dir
  | .error .notFound => .nothing
  | .error _ => .refused

namespace ConfigError

def message : ConfigError → String
  | unreadable => "Failed to load configuration"
  | fault f => s!"Configuration validation failed: {f.message}"

end ConfigError

namespace Format

/-- The extension of a file's name: what follows its last point, where something precedes it. -/
def extension (name : String) : String :=
  let tail := (name.toList.reverse.takeWhile (· != '.')).reverse
  if name.length ≤ tail.length + 1 then "" else String.ofList tail

def all : List Format := [.toml, .json, .yaml, .ini, .ron, .json5]

/-- The extensions of a format, in the order in which they are tried. -/
def extensions : Format → List String
  | toml => ["toml"]
  | json => ["json"]
  | yaml => ["yaml", "yml"]
  | ini => ["ini"]
  | ron => ["ron"]
  | json5 => ["json5"]

def ofName? (name : String) : Option Format :=
  all.find? fun format => extension name ∈ format.extensions

def lastName? (path : String) : Option String :=
  match Location.ofText? path with
  | some l => l.names.getLast?
  | none => none

/-- The text of a file. A mark of the byte order at its front does not count, and what is no text is
replaced. -/
def textOf (body : Bytes) : List Char :=
  match body with
  | 0xef :: 0xbb :: 0xbf :: rest => Utf8.decodeLossy rest
  | body => Utf8.decodeLossy body

end Format

/-- What reads the formats other than TOML and JSON: the settings in a text, unless it is malformed.
`order` is the one in which the formats are tried where a path leads to a directory. -/
structure Readers where
  yaml? : List Char → Option (List (String × Setting))
  ini? : List Char → Option (List (String × Setting))
  ron? : List Char → Option (List (String × Setting))
  json5? : List Char → Option (List (String × Setting))
  order : List Format
  order_perm : order.Perm Format.all

namespace Readers

/-- Only TOML and JSON are read. -/
def plain : Readers where
  yaml? _ := none
  ini? _ := none
  ron? _ := none
  json5? _ := none
  order := Format.all
  order_perm := .refl _

def read? (r : Readers) (cs : List Char) : Format → Option (List (String × Setting))
  | .toml => Toml.read? cs
  | .json =>
    match Json.read? (String.ofList cs) with
    | some (.obj fields) => some (Json.toFields Setting.ofWhole fields)
    | _ => none
  | .yaml => r.yaml? cs
  | .ini => r.ini? cs
  | .ron => r.ron? cs
  | .json5 => r.json5? cs

def besides (r : Readers) : List (String × Format) :=
  r.order.flatMap fun format => format.extensions.map (·, format)

end Readers

namespace Surroundings

/-- The variable that names the configuration file, and the file that is taken without it. -/
def pathVariable : String := "FILTERSYNC_CONFIG"

def standardPath : String := "config/filtersync.toml"

def variableFile : String := ".env"

def upwards (dir : Path) : List Path :=
  (List.range (dir.length + 1)).map fun n => dir.take (dir.length - n)

def variablePaths (dir : Path) : List String :=
  (upwards dir).map fun d => "/" ++ String.intercalate "/" (d ++ [variableFile])

def withExtension? (path ext : String) : Option String :=
  match Location.ofText? path with
  | some l =>
    match l.names.getLast? with
    | some name =>
      if name = ".." then none
      else some ((if l.absolute then "/" else "") ++ String.intercalate "/" l.names ++ "." ++ ext)
    | none => none
  | none => none

def beside? (s : Surroundings) (path : String) : List (String × Format) → Option (Bytes × Format)
  | [] => none
  | (ext, format) :: rest =>
    match (withExtension? path ext).map s.look with
    | some (.file body) => some (body, format)
    -- a directory of that name is no file either
    | _ => s.beside? path rest

/-- The configuration file under a path. A file whose name promises no known format is passed over;
for a directory the files beside it are asked. -/
def file? (s : Surroundings) (r : Readers) (path : String) : Option (Bytes × Format) :=
  match s.look path with
  | .nothing => none
  -- what cannot be looked at counts as missing
  | .refused => none
  | .dir => s.beside? path r.besides
  | .file body => ((Format.lastName? path).bind Format.ofName?).map fun format => (body, format)

def fileSettings? (s : Surroundings) (r : Readers) (path : String) :
    Option (List (String × Setting)) :=
  match s.file? r path with
  | none => some []
  | some (body, format) => r.read? (Format.textOf body) format

/-- All settings, those of the environment over those of the file. -/
def settings? (s : Surroundings) (r : Readers) (path : String) :
    Option (List (String × Setting)) :=
  (s.fileSettings? r path).map fun fields =>
    Setting.overlay (Setting.overlay [] fields) s.env.settings

/-- The first file among some paths. The search ends where one cannot be asked for. -/
def firstFile? (s : Surroundings) : List String → Option Bytes
  | [] => none
  | path :: rest =>
    match s.look path with
    | .file body => some body
    | .refused => none
    | _ => s.firstFile? rest

/-- The file of variables, which stands in the working directory or in the nearest one above it. -/
def variables? (s : Surroundings) : Option Bytes := s.firstFile? (variablePaths s.cwd.path)

def withVariableFile (s : Surroundings) : Surroundings :=
  match s.variables? with
  | some body => { s with env := EnvFile.load s.env body }
  | none => s

def path (s : Surroundings) : String := (s.env.get? pathVariable).getD standardPath

end Surroundings

namespace Config

def loadFrom (s : Surroundings) (path : String) (r : Readers := .plain) :
    Except ConfigError Config :=
  match (s.settings? r path).bind fun fields => Reading.lenient.config? (.table fields) with
  | none => .error .unreadable
  | some c =>
    match c.fault? Url.isFetchable with
    | some f => .error (.fault f)
    | none => .ok c

def load (s : Surroundings) (r : Readers := .plain) : Except ConfigError Config :=
  -- the file of variables may name the configuration file, so it comes first
  let s := s.withVariableFile
  loadFrom s s.path r

end Config
end ListKeeper
