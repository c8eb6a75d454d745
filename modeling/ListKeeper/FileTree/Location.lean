import ListKeeper.Pieces

/-! Written paths. A location is a path as text, taken apart at its slashes; nothing in it is
resolved. -/
namespace ListKeeper

/-- A path taken apart: its names without empty ones and single dots, and whether it starts at the
root of all files and whether it can only name a directory. -/
structure Location where
  names : List String
  absolute : Bool
  asDirectory : Bool
  deriving DecidableEq

namespace Location

def isSlash (c : Char) : Bool := c == '/'

/-- Empty names and single dots do not count. -/
def counts (name : List Char) : Bool := name ≠ [] && name ≠ ['.']

/-- Takes a path apart; the empty text is no path. -/
def ofText? (text : String) : Option Location :=
  if text = "" then none
  else
    let parts := pieces isSlash text.toList
    some
      { names := (parts.filter counts).map String.ofList
        absolute := text.toList.head? = some '/'
        asDirectory := match parts.getLast? with
          | some last => !counts last
          | none => true }

end Location

/-- A name put behind a directory's path. A slash is added only where none stands, and nothing is
resolved. -/
def joinPath (dir name : String) : String :=
  if dir = "" then name
  else if dir.toList.getLast? = some '/' then dir ++ name
  else dir ++ "/" ++ name

end ListKeeper
