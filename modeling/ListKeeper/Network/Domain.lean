import ListKeeper.Characters.Composition
import ListKeeper.Characters.Directions
import ListKeeper.Characters.Folding
import ListKeeper.Characters.Refused
import ListKeeper.Network.Punycode
import ListKeeper.Pieces

/-! Names of hosts in any script, in the plain form under which they are looked up. A name is folded
and composed, cut into labels at its points, and each label that is not plain is written in letters,
digits and hyphens behind a mark. -/
namespace ListKeeper
namespace Domain

def folded? (c : Char) : Option (List Char) :=
  if c.toNat < 0x80 then some [c.toLower]
  else if Characters.isRefused c then none
  else some ((Characters.fold? c).getD [c])

def normal? (name : List Char) : Option (List Char) :=
  (name.mapM folded?).map fun parts =>
    let cs := parts.flatten
    if cs.all Punycode.isPlain then cs else Characters.composed cs

/-- Characters that no name may have: controls, blanks, and those with a meaning in a url. -/
def isForbidden (c : Char) : Bool :=
  c.toNat ≤ 0x20 || c == '\x7f' ||
    ['%', '#', '/', ':', '<', '>', '?', '@', '[', '\\', ']', '^', '|'].contains c

/-- The mark of a label that stands for one in another script. -/
def mark : List Char := ['x', 'n', '-', '-']

def isJoiner (c : Char) : Bool := c == '\u200c' || c == '\u200d'

/-- The rank of the marks that take the vowel from a letter; joiners stand only behind them. -/
def vowelKiller : Nat := 9

def joinersOk : List Char → Bool
  | a :: b :: cs => (!isJoiner b || Characters.rank a = vowelKiller) && joinersOk (b :: cs)
  | _ => true

/-- Whether a label can be written: it opens with a letter, and its joiners stand where they may. -/
def isLabel (label : List Char) : Bool :=
  match label with
  | [] => true
  | c :: _ => !Characters.isMark c && !isJoiner c && joinersOk label

def ownLabel? (label : List Char) : Option (List Char) :=
  if mark.isPrefixOf label then
    match Punycode.decode? (label.drop mark.length) with
    | some name =>
      if name.all Punycode.isPlain || normal? name ≠ some name || !isLabel name then none
      else some name
    | none => none
  else if label.all Punycode.isPlain || isLabel label then some label
  else none

def plainLabel (label : List Char) : List Char :=
  if label.all Punycode.isPlain then label else mark ++ Punycode.encode label

/-- The plain form of a name. Where part of it runs from right to left, each label must keep to one
direction. -/
def toPlain? (name : List Char) : Option (List Char) := do
  let labels ← (pieces (· == '.') (← normal? name)).mapM ownLabel?
  let plain := List.intercalate ['.'] (labels.map plainLabel)
  if plain.any isForbidden then none
  else if labels.any Characters.runsRight && !labels.all Characters.keepsDirection then none
  else some plain

end Domain
end ListKeeper
