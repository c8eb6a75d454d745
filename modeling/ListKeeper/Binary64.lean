/-! Floating-point numbers of 64 bits, held as exact integers. A finite number is a whole multiple
of a power of two; rounding goes to the nearest number and at a tie to the even multiple. Main
definitions: `ofRatio`, `ofDecimal`, and `shortest?`, the fewest digits that read back. -/
namespace ListKeeper

/-- A number that 64 bits hold: not a number, an infinity, or `mant * 2 ^ exp` with a sign. -/
inductive Binary64
  | nan
  | infinite (negative : Bool)
  | finite (negative : Bool) (mant : Nat) (exp : Int)
  deriving DecidableEq

namespace Binary64

/-- The multiples below which every number has 53 bits, and the smallest and largest exponent. -/
def mantLimit : Nat := 9007199254740992

def minExp : Int := -1074

def maxExp : Int := 971

def zero (negative : Bool) : Binary64 := .finite negative 0 minExp

def shift (num den : Nat) (e : Int) : Nat × Nat :=
  if e < 0 then (num, den * Nat.pow 2 e.natAbs) else (num * Nat.pow 2 e.toNat, den)

def shiftTen (num den : Nat) (e : Int) : Nat × Nat :=
  if e < 0 then (num, den * Nat.pow 10 e.natAbs) else (num * Nat.pow 10 e.toNat, den)

/-- The nearest whole number to a fraction, the even one at a tie. -/
def roundEven (num den : Nat) : Nat :=
  let q := num / den
  let r := num % den
  if 2 * r < den || (2 * r = den && q % 2 = 0) then q else q + 1

def ofRatio (negative : Bool) (num den : Nat) : Binary64 :=
  if num = 0 then zero negative
  else
    let guess : Int := (num.log2 : Int) - den.log2 - 52
    let scaled := shift num den (-guess)
    let exact := if scaled.1 / scaled.2 < mantLimit / 2 then guess - 1 else guess
    let exp := max exact minExp
    let s := shift num den (-exp)
    let mant := roundEven s.1 s.2
    let (mant, exp) := if mant = mantLimit then (mantLimit / 2, exp + 1) else (mant, exp)
    if maxExp < exp then .infinite negative else .finite negative mant exp

/-- The number of decimal digits of a natural number, where zero has one. -/
def digitCount (n : Nat) : Nat := (Nat.toDigits 10 n).length

/-- The number that is nearest to `digits * 10 ^ exp`. -/
def ofDecimal (negative : Bool) (digits : Nat) (exp : Int) : Binary64 :=
  if digits = 0 then zero negative
  else
    let size := digitCount digits + exp
    if 400 < size then .infinite negative
    else if size < -400 then zero negative
    else
      let s := shiftTen digits 1 exp
      ofRatio negative s.1 s.2

def leadingPower (num den : Nat) : Int :=
  if den ≤ num then digitCount (num / den) - 1
  else
    let d := digitCount (den / num)
    if den ≤ num * Nat.pow 10 (d - 1) then 1 - d else -d

/-- Looks on ever finer decimal grids for a point that reads back, and takes the nearer of two;
`low` and `high` bound the fractions that round to the number. -/
def search (num den : Nat) (fits : Nat × Nat → Bool) (power : Int) : Nat → Nat → Nat × Int
  | 0, n => (roundEven num den, n)
  | fuel + 1, n =>
    let unit := power - n
    let scaled := shiftTen num den (-unit)
    let low := scaled.1 / scaled.2
    let point := fun (k : Nat) => shiftTen k 1 unit
    match fits (point low), fits (point (low + 1)) with
    | true, true =>
      let r := 2 * (scaled.1 % scaled.2)
      if r < scaled.2 || (r = scaled.2 && low % 2 = 0) then (low, unit) else (low + 1, unit)
    | true, false => (low, unit)
    | false, true => (low + 1, unit)
    | false, false => search num den fits power fuel (n + 1)

/-- The fewest digits, as `digits * 10 ^ exp`, that read back as the positive number
`mant * 2 ^ exp`. -/
def shortest (mant : Nat) (exp : Int) : Nat × Int :=
  let v := shift mant 1 exp
  let up := shift (2 * mant + 1) 2 exp
  let down :=
    -- below a power of two the numbers stand closer
    if mant = mantLimit / 2 && exp ≠ minExp then shift (4 * mant - 1) 4 exp
    else shift (2 * mant - 1) 2 exp
  -- a neighbour with an odd last bit loses a tie, so the bounds belong to an even one
  let even := mant % 2 = 0
  let fits := fun (p : Nat × Nat) =>
    let a := down.1 * p.2
    let b := p.1 * down.2
    let c := p.1 * up.2
    let d := up.1 * p.2
    if even then a ≤ b && c ≤ d else a < b && c < d
  search v.1 v.2 fits (leadingPower v.1 v.2) 18 0

def isZero : Binary64 → Bool
  | .finite _ 0 _ => true
  | _ => false

/-- Digits with their power of ten written out in full, without an exponent. -/
def positional (digits : Nat) (exp : Int) : String :=
  let ds := Nat.toDigits 10 digits
  if 0 ≤ exp then String.ofList (ds ++ List.replicate exp.toNat '0')
  else
    let places := exp.natAbs
    let padded := List.replicate (places + 1 - ds.length) '0' ++ ds
    let whole := padded.take (padded.length - places)
    let part := (padded.drop (padded.length - places)).reverse.dropWhile (· == '0')
    String.ofList (if part.isEmpty then whole else whole ++ '.' :: part.reverse)

/-- The shortest text of a number that reads back, without an exponent and without a point where
nothing follows it. -/
def text : Binary64 → String
  | .nan => "NaN"
  | .infinite negative => if negative then "-inf" else "inf"
  | .finite negative mant exp =>
    let body :=
      if mant = 0 then "0"
      else
        let s := shortest mant exp
        positional s.1 s.2
    if negative then "-" ++ body else body

/-- The nearest natural number, a half going up, kept between zero and the largest 64-bit one. What
is not a number counts as zero. -/
def toCount : Binary64 → UInt64
  | .nan => 0
  | .infinite negative => if negative then 0 else 18446744073709551615
  | .finite negative mant exp =>
    if negative then 0
    else if 64 < exp then if mant = 0 then 0 else 18446744073709551615
    else
      let s := shift mant 1 exp
      UInt64.ofNat (min ((2 * s.1 + s.2) / (2 * s.2)) 18446744073709551615)

end Binary64

def spanDigits (cs : List Char) : List Char × List Char := cs.span (·.isDigit)

def digitsValue (ds : List Char) : Nat := ds.foldl (fun n c => 10 * n + (c.toNat - 48)) 0

def takeSign : List Char → Bool × List Char
  | '+' :: cs => (false, cs)
  | '-' :: cs => (true, cs)
  | cs => (false, cs)

/-- Reads a decimal exponent with its mark; no exponent is zero. -/
def readExponent? : List Char → Option Int
  | [] => some 0
  | c :: cs =>
    if c == 'e' || c == 'E' then
      let (negative, ds) := takeSign cs
      if ds.isEmpty || !ds.all (·.isDigit) then none
      else some (if negative then -(digitsValue ds : Int) else digitsValue ds)
    else none

/-- Reads a whole text as a floating-point number: an optional sign, then digits with an optional
point and exponent, or a word for an infinity or for what is not a number, in any case. -/
def Binary64.read? (cs : List Char) : Option Binary64 :=
  let (negative, body) := takeSign cs
  let word := String.ofList (body.map Char.toLower)
  if word = "inf" || word = "infinity" then some (.infinite negative)
  else if word = "nan" then some .nan
  else
    let (whole, rest) := spanDigits body
    let (part, rest) := match rest with
      | '.' :: rest => spanDigits rest
      | rest => ([], rest)
    if whole.isEmpty && part.isEmpty then none
    else (readExponent? rest).map fun e =>
      Binary64.ofDecimal negative (digitsValue (whole ++ part)) (e - part.length)

end ListKeeper
