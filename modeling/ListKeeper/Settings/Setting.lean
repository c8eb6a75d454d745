import ListKeeper.Binary64
import ListKeeper.Json
import ListKeeper.Pieces
import ListKeeper.Utf8

/-! Settings as they are found in files and in the environment, before it is known what they are
for. Main definitions: the readings of a setting as a truth value, a count or a text, and
`Setting.assign`, which puts a value at a path of keys and merges tables key by key. -/
namespace ListKeeper

inductive Setting
  | nil
  | bool (b : Bool)
  | int (n : Int)
  | float (x : Binary64)
  | text (s : String)
  | list (items : List Setting)
  | table (fields : List (String × Setting))

namespace Setting

def yesWords : List String := ["true", "on", "yes"]

def noWords : List String := ["false", "off", "no"]

def lower (s : String) : String := String.ofList (s.toList.map Char.toLower)

/-- A setting as a truth value: a number is true unless it is zero, and a text is a word for yes or
no. -/
def toBool? : Setting → Option Bool
  | .bool b => some b
  | .int n => some (n ≠ 0)
  | .float x => some (!x.isZero)
  | .text s =>
    if lower s = "1" || yesWords.contains (lower s) then some true
    else if lower s = "0" || noWords.contains (lower s) then some false
    else none
  | _ => none

/-- A setting as a count: a fraction is rounded, and a text is a word for yes or no or a number. -/
def toCount? : Setting → Option UInt64
  | .bool b => some (if b then 1 else 0)
  | .int n => countOfInt? n
  | .float x => some x.toCount
  | .text s =>
    if yesWords.contains (lower s) then some 1
    else if noWords.contains (lower s) then some 0
    else (readCount? 18446744073709551616 s.toList).map UInt64.ofNat
  | _ => none

/-- A setting as a text: truth values and numbers are written out. -/
def toText? : Setting → Option String
  | .text s => some s
  | .bool b => some (if b then "true" else "false")
  | .int n => some (toString n)
  | .float x => some x.text
  | _ => none

/-- The fields of a table; anything else has none. -/
def fields : Setting → List (String × Setting)
  | .table fs => fs
  | _ => []

/-- The items of a list; anything else has none. -/
def items : Setting → List Setting
  | .list xs => xs
  | _ => []

def get? (fs : List (String × Setting)) (key : String) : Option Setting :=
  (fs.find? fun f => f.1 == key).map (·.2)

/-- Gives a key a value, in the place of the one it had. -/
def put (fs : List (String × Setting)) (key : String) (v : Setting) : List (String × Setting) :=
  if fs.any (fun f => f.1 == key) then fs.map fun f => if f.1 == key then (key, v) else f
  else fs ++ [(key, v)]

/-- One step of a path: a key of a table, or a place in a list, from its end where it is negative.
-/
inductive Step
  | key (k : String)
  | index (n : Int)
  deriving DecidableEq

def isKeyChar (c : Char) : Bool := c.isAlphanum || c == '_' || c == '-'

/-- The steps behind the first key of a path. Each step of fuel reads at least one character. -/
def readSteps? : Nat → List Char → Option (List Step)
  | _, [] => some []
  | 0, _ => none
  | fuel + 1, '.' :: cs =>
    let (k, rest) := cs.span isKeyChar
    if k.isEmpty then none
    else (readSteps? fuel rest).map (Step.key (String.ofList k) :: ·)
  | fuel + 1, '[' :: cs =>
    let (negative, cs) := match cs with
      | '-' :: cs => (true, cs)
      | cs => (false, cs)
    let (ds, rest) := spanDigits cs
    match rest with
    | ']' :: rest =>
      let n : Int := if negative then -(digitsValue ds : Int) else digitsValue ds
      if ds.isEmpty then none else (readSteps? fuel rest).map (Step.index n :: ·)
    | _ => none
  | _, _ => none

/-- Takes a path apart: keys with points between them, and places in brackets. What is no path is
one key as it stands. -/
def path (text : String) : String × List Step :=
  let cs := text.toList
  let (k, rest) := cs.span isKeyChar
  if k.isEmpty then (text, [])
  else match readSteps? rest.length rest with
    | some steps => (String.ofList k, steps)
    | none => (text, [])

mutual

/-- Puts a setting over another: tables are merged key by key, and anything else takes the place of
what was there. -/
def merge (old : Setting) : Setting → Setting
  | .table fs => .table (mergeFields old.fields fs)
  | v => v

def mergeFields (old : List (String × Setting)) : List (String × Setting) → List (String × Setting)
  | [] => old
  | (k, v) :: rest => mergeFields (put old k (merge ((get? old k).getD .nil) v)) rest

end

/-- A list that has the given place, and the place counted from the start. Missing items are nil. -/
def stretch (xs : List Setting) (n : Int) : List Setting × Nat :=
  if 0 ≤ n then (xs ++ List.replicate (n.toNat + 1 - xs.length) .nil, n.toNat)
  -- a place from the end is there, or the list grows at its front
  else if n.natAbs ≤ xs.length then (xs, xs.length - n.natAbs)
  else (List.replicate (n.natAbs - xs.length) .nil ++ xs, 0)

/-- Merges a value into what stands at the end of a path. What stands in the way becomes a table or
a list. -/
def assignSteps (v : Setting) : List Step → Setting → Setting
  | [], old => merge old v
  | .key k :: rest, old =>
    .table (put old.fields k (assignSteps v rest ((get? old.fields k).getD .nil)))
  | .index n :: rest, old =>
    let (xs, i) := stretch old.items n
    .list (xs.set i (assignSteps v rest (xs.getD i .nil)))

def assign (fs : List (String × Setting)) (written : String) (v : Setting) :
    List (String × Setting) :=
  let (k, steps) := path written
  put fs k (assignSteps v steps ((get? fs k).getD .nil))

/-- Lays one source of settings over another. Its keys are read as paths. -/
def overlay (base source : List (String × Setting)) : List (String × Setting) :=
  source.foldl (fun fs f => assign fs f.1 f.2) base

end Setting

/-- A whole number, which is rounded if 64 bits with a sign do not hold it. -/
def Setting.ofWhole (n : Int) : Setting :=
  if isSigned64 n then .int n else .float (Binary64.ofRatio (decide (n < 0)) n.natAbs 1)

mutual

/-- A document as a setting; `whole` takes its whole numbers. -/
def Json.toSetting (whole : Int → Setting) : Json → Setting
  | .null => .nil
  | .bool b => .bool b
  | .int n => whole n
  | .float x => .float x
  | .str s => .text s
  | .arr items => .list (Json.toSettings whole items)
  | .obj fields => .table (Json.toFields whole fields)

def Json.toSettings (whole : Int → Setting) : List Json → List Setting
  | [] => []
  | v :: rest => v.toSetting whole :: Json.toSettings whole rest

def Json.toFields (whole : Int → Setting) : List (String × Json) → List (String × Setting)
  | [] => []
  | (k, v) :: rest => (k, v.toSetting whole) :: Json.toFields whole rest

end

end ListKeeper
