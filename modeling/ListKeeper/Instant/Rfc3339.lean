import ListKeeper.Binary64
import ListKeeper.Instant.Civil
import ListKeeper.Whitespace

/-! The text of instants. Writing gives one form: universal time with a final Z, the fewest of 0, 3,
6 or 9 digits of the fraction that are exact, and a sign on years that do not have four digits.
Reading takes that form and more: blanks, short numbers, any number of digits, and any offset. -/
namespace ListKeeper
namespace Instant

def padded (width n : Nat) : List Char :=
  let ds := Nat.toDigits 10 n
  List.replicate (width - ds.length) '0' ++ ds

/-- A year, with a sign where it does not lie from 0 to 9999. -/
def yearText (y : Int) : List Char :=
  if y < 0 then '-' :: padded 4 y.natAbs
  else if 9999 < y then '+' :: padded 4 y.natAbs
  else padded 4 y.natAbs

def fractionText (nanos : Nat) : List Char :=
  if nanos = 0 then []
  else if nanos % 1000000 = 0 then '.' :: padded 3 (nanos / 1000000)
  else if nanos % 1000 = 0 then '.' :: padded 6 (nanos / 1000)
  else '.' :: padded 9 nanos

/-- The text of an instant. A leap second is the sixtieth second of its minute. -/
def chars (t : Instant) : List Char :=
  let date := Civil.ofDays (t.secs / 86400)
  let inDay := (t.secs % 86400).toNat
  let second := if t.inLeap then inDay % 60 + 1 else inDay % 60
  yearText date.year ++ '-' :: padded 2 date.month ++ '-' :: padded 2 date.day ++
    'T' :: padded 2 (inDay / 3600) ++ ':' :: padded 2 (inDay / 60 % 60) ++
    ':' :: padded 2 second ++ fractionText (t.frac % 1000000000) ++ ['Z']

def text (t : Instant) : String := String.ofList t.chars

def takeNumber? (width : Nat) (cs : List Char) : Option (Nat × List Char) :=
  let cs := trimLeft cs
  let ds := (cs.takeWhile (·.isDigit)).take width
  if ds.isEmpty then none else some (digitsValue ds, cs.drop ds.length)

/-- A year: up to four digits, or a sign and any number of them. -/
def takeYear? (cs : List Char) : Option (Int × List Char) :=
  match trimLeft cs with
  | '-' :: rest =>
    let (ds, rest) := spanDigits rest
    if ds.isEmpty then none else some (-(digitsValue ds : Int), rest)
  | '+' :: rest =>
    let (ds, rest) := spanDigits rest
    if ds.isEmpty then none else some (digitsValue ds, rest)
  | rest => (takeNumber? 4 rest).map fun r => ((r.1 : Int), r.2)

def takeMark? (c : Char) (cs : List Char) : Option (List Char) :=
  match trimLeft cs with
  | d :: rest => if d = c then some rest else none
  | [] => none

/-- The fraction of a second in nanoseconds, where there is a point. Digits past the ninth are
dropped. -/
def takeFraction? : List Char → Option (Nat × List Char)
  | '.' :: rest =>
    let (ds, rest) := spanDigits rest
    if ds.isEmpty then none
    else
      let kept := ds.take 9
      some (digitsValue kept * Nat.pow 10 (9 - kept.length), rest)
  | cs => some (0, cs)

def takeTwo? : List Char → Option (Nat × List Char)
  | a :: b :: rest => if a.isDigit && b.isDigit then some (digitsValue [a, b], rest) else none
  | _ => none

/-- Hours and minutes of an offset, in seconds; colons and blanks between them do not count. -/
def takeOffsetSize? (cs : List Char) : Option (Nat × List Char) :=
  match takeTwo? cs with
  | none => none
  | some (hours, rest) =>
    match takeTwo? (rest.dropWhile fun c => c == ':' || isWhitespace c) with
    | none => none
    | some (minutes, rest) =>
      if 59 < minutes then none else some (hours * 3600 + minutes * 60, rest)

def takeOffset? (cs : List Char) : Option (Int × List Char) :=
  let up := fun rest =>
    (takeOffsetSize? rest).map fun (r : Nat × List Char) => ((r.1 : Int), r.2)
  let down := fun rest =>
    (takeOffsetSize? rest).map fun (r : Nat × List Char) => (-(r.1 : Int), r.2)
  match cs with
  | 'Z' :: rest => some (0, rest)
  | 'z' :: rest => some (0, rest)
  | '+' :: rest => up rest
  | '-' :: rest => down rest
  -- the minus sign of typography
  | '−' :: rest => down rest
  | u :: t :: c :: rest =>
    if u.toLower = 'u' && t.toLower = 't' && c.toLower = 'c' then some (0, rest) else none
  | _ => none

def takeDate? (cs : List Char) : Option (Civil × List Char) := do
  let (year, cs) ← takeYear? cs
  let cs ← takeMark? '-' cs
  let (month, cs) ← takeNumber? 2 cs
  let cs ← takeMark? '-' cs
  let (day, cs) ← takeNumber? 2 cs
  some (⟨year, month, day⟩, cs)

/-- The time of a day as seconds and nanoseconds. A second 60 becomes the leap second behind second
59, in any minute. -/
def takeTime? (cs : List Char) : Option ((Nat × Nat) × List Char) := do
  let (hour, cs) ← takeNumber? 2 cs
  let cs ← takeMark? ':' cs
  let (minute, cs) ← takeNumber? 2 cs
  let cs ← takeMark? ':' cs
  let (second, cs) ← takeNumber? 2 cs
  let (nanos, cs) ← takeFraction? cs
  if 23 < hour || 59 < minute || 60 < second then none
  else if second = 60 then some ((hour * 3600 + minute * 60 + 59, nanos + 1000000000), cs)
  else some ((hour * 3600 + minute * 60 + second, nanos), cs)

def takeSeparator? : List Char → Option (List Char)
  | c :: rest => if c = 'T' || c = 't' || c = ' ' then some rest else none
  | [] => none

def ofChars? (cs : List Char) : Option Instant := do
  let (date, cs) ← takeDate? cs
  let cs ← takeSeparator? cs
  let ((seconds, frac), cs) ← takeTime? cs
  let (offset, cs) ← takeOffset? (trimLeft cs)
  -- nothing but blanks may follow, and the offset is less than a day
  if !(trimLeft cs).isEmpty || 86400 ≤ offset.natAbs then none
  else if date.Exists ∧ -262143 ≤ date.year ∧ date.year ≤ 262142 then
    ofParts? (date.toDays * 86400 + seconds - offset) frac
  else none

def ofText? (s : String) : Option Instant := ofChars? s.toList

end Instant
end ListKeeper
