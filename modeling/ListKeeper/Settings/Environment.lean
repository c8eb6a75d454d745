import ListKeeper.Settings.Setting

/-! Settings in the environment. A variable counts if its name opens with the program's mark; the
rest of the name is a path of keys. -/
namespace ListKeeper

abbrev Environment := List (String × String)

namespace Environment

def get? (env : Environment) (name : String) : Option String :=
  (env.find? fun v => v.1 == name).map (·.2)

def setDefault (env : Environment) (name value : String) : Environment :=
  if (env.get? name).isSome then env else env ++ [(name, value)]

def mark : String := "filtersync__"

/-- Two underscores part the keys of a path. -/
def keyPath : List Char → List Char
  | '_' :: '_' :: cs => '.' :: keyPath cs
  | c :: cs => c :: keyPath cs
  | [] => []

def path? (name : String) : Option String :=
  let low := Setting.lower name
  if mark.toList.isPrefixOf low.toList then
    some (String.ofList (keyPath (low.toList.drop mark.length)))
  else none

/-- A whole number with an optional sign, if 64 bits hold it. -/
def readInt? (cs : List Char) : Option Int :=
  let (negative, ds) := takeSign cs
  if ds.isEmpty || !ds.all (·.isDigit) then none
  else
    let n : Int := if negative then -(digitsValue ds : Int) else digitsValue ds
    if isSigned64 n then some n else none

/-- The value of a variable: a truth value, a number, or a text. -/
def value (s : String) : Setting :=
  if Setting.lower s = "true" then .bool true
  else if Setting.lower s = "false" then .bool false
  else match readInt? s.toList with
    | some n => .int n
    | none =>
      match Binary64.read? s.toList with
      | some x => .float x
      | none => .text s

/-- The settings of an environment. Of two variables for one path the later counts. -/
def settings (env : Environment) : List (String × Setting) :=
  env.foldl (fun fs v =>
    match path? v.1 with
    | some p => Setting.put fs p (value v.2)
    | none => fs) []

end Environment
end ListKeeper
