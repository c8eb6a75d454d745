/-! Names in any script written with letters, digits and hyphens. The plain characters stand first,
and behind a hyphen the others are given by the distances between their places in a list of all
characters at all positions. Each distance is a number whose digits are weighted by thresholds that
follow a bias. -/
namespace ListKeeper
namespace Punycode

/-- The threshold of the digit at a place, counted in steps of 36. -/
def threshold (place bias : Nat) : Nat :=
  if place ≤ bias then 1 else if bias + 26 ≤ place then 26 else place - bias

theorem threshold_pos (place bias : Nat) : 1 ≤ threshold place bias := by
  unfold threshold
  split
  · omega
  · split <;> omega

/-- Divides a distance until it is small, and counts the steps. -/
def shrink (delta place : Nat) : Nat × Nat :=
  if h : 455 < delta then shrink (delta / 35) (place + 36) else (delta, place)
termination_by delta
decreasing_by exact Nat.div_lt_self (by omega) (by omega)

def adapt (delta size : Nat) (first : Bool) : Nat :=
  let d := if first then delta / 700 else delta / 2
  let (rest, place) := shrink (d + d / size) 0
  place + 36 * rest / (rest + 38)

/-- The value of a digit: letters first, then figures. -/
def digit? (c : Char) : Option Nat :=
  if 'a' ≤ c && c ≤ 'z' then some (c.toNat - 97)
  else if 'A' ≤ c && c ≤ 'Z' then some (c.toNat - 65)
  else if c.isDigit then some (c.toNat - 22)
  else none

def digitChar (d : Nat) : Char := if d < 26 then Char.ofNat (97 + d) else Char.ofNat (22 + d)

/-- A name that is read in part. `sum` is the distance that is being read, counted from `start`. -/
structure Decoding where
  out : List Char
  next : Nat
  start : Nat
  bias : Nat
  sum : Nat
  weight : Nat
  place : Nat

def Decoding.insert? (d : Decoding) (sum : Nat) : Option Decoding :=
  let size := d.out.length + 1
  let n := d.next + sum / size
  let i := sum % size
  if h : n.isValidChar then
    some
      { out := d.out.take i ++ Char.ofNatAux n h :: d.out.drop i
        next := n
        start := i + 1
        bias := adapt (sum - d.start) size (d.start = 0)
        sum := i + 1
        weight := 1
        place := 36 }
  else none

/-- Reads one more digit. The first below its threshold ends a distance. -/
def Decoding.read? (d : Decoding) (digit : Nat) : Option Decoding :=
  let sum := d.sum + digit * d.weight
  let t := threshold d.place d.bias
  if digit < t then d.insert? sum
  else some { d with sum := sum, weight := d.weight * (36 - t), place := d.place + 36 }

/-- Reads all digits. The last must end a distance. -/
def Decoding.finish? (d : Decoding) : List Char → Option (List Char)
  | [] => if d.place = 36 then some d.out else none
  | c :: cs => (digit? c).bind fun n => (d.read? n).bind fun d => d.finish? cs

/-- What stands before the last hyphen and what stands behind it, if anything stands before one. -/
def splitLast (cs : List Char) : List Char × List Char :=
  let tail := (cs.reverse.takeWhile (· != '-')).reverse
  if cs.length ≤ tail.length + 1 then ([], cs)
  else (cs.take (cs.length - tail.length - 1), tail)

def decode? (cs : List Char) : Option (List Char) :=
  let (plain, digits) := splitLast cs
  Decoding.finish? ⟨plain, 128, 0, 72, 0, 1, 36⟩ digits

def digits (bias place q : Nat) : List Char :=
  let t := threshold place bias
  if h : t ≤ q ∧ t < 36 then
    digitChar (t + (q - t) % (36 - t)) :: digits bias (place + 36) ((q - t) / (36 - t))
  else [digitChar q]
termination_by q
decreasing_by
  have := threshold_pos place bias
  have : (q - threshold place bias) / (36 - threshold place bias) ≤ q - threshold place bias :=
    Nat.div_le_self _ _
  omega

/-- A name that is written in part: `done` characters of it are accounted for, and `delta` is the
distance since the last of them. -/
structure Encoding where
  out : List Char
  delta : Nat
  bias : Nat
  done : Nat

/-- Passes one character of the name in the search for those with a given number. -/
def Encoding.pass (plain n : Nat) (e : Encoding) (c : Char) : Encoding :=
  if c.toNat < n then { e with delta := e.delta + 1 }
  else if c.toNat = n then
    { out := e.out ++ digits e.bias 36 e.delta
      delta := 0
      bias := adapt e.delta (e.done + 1) (e.done = plain)
      done := e.done + 1 }
  else e

/-- Writes all characters with each number in turn, in rising order. -/
def Encoding.writeAll (name : List Char) (plain : Nat) : Nat → List Nat → Encoding → Encoding
  | _, [], e => e
  | n, m :: rest, e =>
    let e := { e with delta := e.delta + (m - n) * (e.done + 1) }
    let e := name.foldl (Encoding.pass plain m) e
    writeAll name plain (m + 1) rest { e with delta := e.delta + 1 }

def isPlain (c : Char) : Bool := c.toNat < 128

def encode (name : List Char) : List Char :=
  let plain := name.filter isPlain
  let others := ((name.filter (!isPlain ·)).map Char.toNat).mergeSort.eraseDups
  let start : List Char := if plain.isEmpty then [] else plain ++ ['-']
  (Encoding.writeAll name plain.length 128 others ⟨start, 0, 72, plain.length⟩).out

end Punycode
end ListKeeper
