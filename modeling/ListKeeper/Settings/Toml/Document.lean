import ListKeeper.Settings.Toml.Scalar

/-! TOML files. A file is a sequence of lines: keys with their values, and headers that name the
table to which the keys behind them belong. What a header or a dotted key may still add to a table
depends on how that table came to be, which `Branch` keeps. -/
namespace ListKeeper
namespace Toml

/-- How a table came to be: on the way to the table of a header, by its own header, or on the way to
the last part of a dotted key. -/
inductive Origin
  | passed
  | header
  | dotted
  deriving DecidableEq

/-- What stands under a key while a file is read. Values, with the lists and tables written in one
place, are closed; tables and lists of tables can still grow. -/
inductive Branch
  | value (v : Setting)
  | table (origin : Origin) (fields : List (String × Branch))
  | tables (before : List (List (String × Branch))) (last : List (String × Branch))

abbrev Branches := List (String × Branch)

namespace Branches

def get? (bs : Branches) (key : String) : Option Branch := (bs.find? fun b => b.1 == key).map (·.2)

/-- Puts a branch under a key, in the place of the one that was there. -/
def put (bs : Branches) (key : String) (b : Branch) : Branches :=
  if bs.any (fun c => c.1 == key) then bs.map fun c => if c.1 == key then (key, b) else c
  else bs ++ [(key, b)]

/-- Changes the table that a header's path leads to. Tables on the way are made, and of a list of
tables the last is taken. -/
def follow (change : Branches → Option Branches) : List String → Branches → Option Branches
  | [], bs => change bs
  | k :: path, bs =>
    match bs.get? k with
    | none => (follow change path []).map fun fs => bs.put k (.table .passed fs)
    | some (.table origin fs) => (follow change path fs).map fun fs => bs.put k (.table origin fs)
    | some (.tables before last) =>
      (follow change path last).map fun fs => bs.put k (.tables before fs)
    | some (.value _) => none

/-- Opens a table by its header. It must be new, or known only from the headers of its parts. -/
def openTable (key : String) (bs : Branches) : Option Branches :=
  match bs.get? key with
  | none => some (bs.put key (.table .header []))
  | some (.table .passed fs) => some (bs.put key (.table .header fs))
  | _ => none

def openItem (key : String) (bs : Branches) : Option Branches :=
  match bs.get? key with
  | none => some (bs.put key (.tables [] []))
  | some (.tables before last) => some (bs.put key (.tables (before ++ [last]) []))
  | _ => none

/-- Gives a dotted key its value. It may lead through tables that have no header of their own, and
its last part must be new. -/
def assign (v : Setting) : List String → Branches → Option Branches
  | [], _ => none
  | [k], bs => if (bs.get? k).isNone then some (bs.put k (.value v)) else none
  | k :: path, bs =>
    match bs.get? k with
    | none => (assign v path []).map fun fs => bs.put k (.table .dotted fs)
    | some (.table .header _) => none
    | some (.table origin fs) => (assign v path fs).map fun fs => bs.put k (.table origin fs)
    | _ => none

end Branches

mutual

def Branch.toSetting : Branch → Setting
  | .value v => v
  | .table _ fields => .table (Branch.toFields fields)
  | .tables before last => .list (Branch.toItems before ++ [.table (Branch.toFields last)])

def Branch.toFields : List (String × Branch) → List (String × Setting)
  | [] => []
  | (k, b) :: rest => (k, b.toSetting) :: Branch.toFields rest

def Branch.toItems : List (List (String × Branch)) → List Setting
  | [] => []
  | fs :: rest => .table (Branch.toFields fs) :: Branch.toItems rest

end

def takeComment? (cs : List Char) : Option (List Char) :=
  let rest := cs.dropWhile isPlain
  if rest.isEmpty then some [] else takeNewline? rest

/-- What may stand between the items of a list: blanks, line ends and comments. -/
def skipSpace? : Nat → List Char → Option (List Char)
  | 0, cs => some cs
  | fuel + 1, cs =>
    match skipBlanks cs with
    | '#' :: rest => (takeComment? rest).bind (skipSpace? fuel)
    | rest =>
      match takeNewline? rest with
      | some rest => skipSpace? fuel rest
      | none => some rest

def endLine? (cs : List Char) : Option (List Char) :=
  match skipBlanks cs with
  | [] => some []
  | '#' :: rest => takeComment? rest
  | rest => takeNewline? rest

/-- How deep lists and tables written in one place may be nested. -/
def maxDepth : Nat := 80

mutual

/-- A value of any kind. Each step of fuel reads at least one character. -/
def takeValue? : Nat → Nat → List Char → Option (Setting × List Char)
  | 0, _, _ => none
  | fuel + 1, depth, cs =>
    match cs with
    | '[' :: rest =>
      match depth with
      | 0 => none
      | depth + 1 => takeItems? fuel depth [] rest
    | '\x7b' :: rest =>
      match depth with
      | 0 => none
      | depth + 1 =>
        match skipBlanks rest with
        | '\x7d' :: rest => some (.table [], rest)
        | rest => takeFields? fuel depth [] rest
    | cs => takeScalar? cs

/-- The items of a list up to its end; `acc` holds those before, the last first. -/
def takeItems? : Nat → Nat → List Setting → List Char → Option (Setting × List Char)
  | 0, _, _, _ => none
  | fuel + 1, depth, acc, cs =>
    match skipSpace? cs.length cs with
    | none => none
    | some (']' :: rest) => some (.list acc.reverse, rest)
    | some cs =>
      match takeValue? fuel depth cs with
      | none => none
      | some (v, rest) =>
        match skipSpace? rest.length rest with
        | some (',' :: rest) => takeItems? fuel depth (v :: acc) rest
        | some (']' :: rest) => some (.list (v :: acc).reverse, rest)
        | _ => none

def takeFields? : Nat → Nat → Branches → List Char → Option (Setting × List Char)
  | 0, _, _, _ => none
  | fuel + 1, depth, acc, cs =>
    match takeKey? cs.length cs with
    | some (key, '=' :: rest) =>
      match takeValue? fuel depth (skipBlanks rest) with
      | none => none
      | some (v, rest) =>
        match acc.assign v key with
        | none => none
        | some acc =>
          match skipBlanks rest with
          | ',' :: rest => takeFields? fuel depth acc rest
          | '\x7d' :: rest => some (.table (Branch.toFields acc), rest)
          | _ => none
    | _ => none

end

/-- A file that is read up to some line: its tables, and the path of the one that is open. -/
structure Draft where
  root : Branches
  path : List String

namespace Draft

/-- Opens the table of a header; `change` opens its last part. -/
def openAt (d : Draft) (change : String → Branches → Option Branches) (key : List String) :
    Option Draft :=
  match key.getLast? with
  | none => none
  | some last => (d.root.follow (change last) key.dropLast).map fun root => ⟨root, key⟩

def takeLine? (d : Draft) (cs : List Char) : Option (Draft × List Char) :=
  match cs with
  | '[' :: '[' :: rest =>
    match takeKey? rest.length rest with
    | some (key, ']' :: ']' :: rest) => do
      let d ← d.openAt Branches.openItem key
      some (d, ← endLine? rest)
    | _ => none
  | '[' :: rest =>
    match takeKey? rest.length rest with
    | some (key, ']' :: rest) => do
      let d ← d.openAt Branches.openTable key
      some (d, ← endLine? rest)
    | _ => none
  | cs =>
    match takeKey? cs.length cs with
    | some (key, '=' :: rest) => do
      let (v, rest) ← takeValue? (rest.length + 1) maxDepth (skipBlanks rest)
      let root ← d.root.follow (Branches.assign v key) d.path
      some ({ d with root := root }, ← endLine? rest)
    | _ => none

/-- The lines of a file. Each step of fuel reads at least one character. -/
def takeLines? : Nat → Draft → List Char → Option Draft
  | 0, d, cs => if cs.isEmpty then some d else none
  | fuel + 1, d, cs =>
    match skipSpace? cs.length cs with
    | none => none
    | some [] => some d
    | some cs => (d.takeLine? cs).bind fun r => takeLines? fuel r.1 r.2

end Draft

/-- Reads the text of a file. A mark of the byte order at its front does not count. -/
def read? (cs : List Char) : Option (List (String × Setting)) :=
  let cs := match cs with
    | '\ufeff' :: rest => rest
    | cs => cs
  (Draft.takeLines? (cs.length + 1) ⟨[], []⟩ cs).map fun d => Branch.toFields d.root

end Toml
end ListKeeper
