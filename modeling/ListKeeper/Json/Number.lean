import ListKeeper.Json

/-! Numbers of documents. A whole number that 64 bits hold is exact. Any other number is made of the
leading digits that 64 bits hold and of a power of ten; it is rounded as a whole number first and
once more when it is scaled. Main definition: `Json.readNumber`. -/
namespace ListKeeper

namespace Binary64

/-- The exact value of a finite number as a fraction, without its sign. -/
def ratio : Binary64 → Nat × Nat
  | .finite _ mant exp => shift mant 1 exp
  | _ => (0, 1)

/-- A magnitude times the number that is nearest to a power of ten, or divided by it where the power
is negative. -/
def scaled (negative : Bool) (x : Binary64) (exp : Int) : Binary64 :=
  let a := x.ratio
  let p := (ofDecimal false 1 exp.natAbs).ratio
  if exp < 0 then ofRatio negative (a.1 * p.2) (a.2 * p.1)
  else ofRatio negative (a.1 * p.1) (a.2 * p.2)

def maxTen : Int := 308

/-- A whole number times a power of ten, if it is not too large. What is below the smallest power is
scaled twice. -/
def ofScaled? (negative : Bool) (digits : Nat) (exp : Int) : Option Binary64 :=
  let whole := ofRatio negative digits 1
  if digits = 0 || exp < -2 * maxTen then some (zero negative)
  else if maxTen < exp then none
  else if exp < -maxTen then
    some (scaled negative (scaled negative whole (-maxTen)) (exp + maxTen))
  else match scaled negative whole exp with
    | .infinite _ => none
    | x => some x

end Binary64

/-- The digits of a number so far: those that were kept, the power of ten that they are to be scaled
by, and whether one was left out. -/
structure Digits where
  kept : Nat
  exp : Int
  full : Bool

namespace Digits

def maxKept : Nat := 18446744073709551615

/-- Takes one digit more. A digit that is kept changes the power by one amount, one that is left out
by another; after one was left out none is kept. -/
def push (ifKept ifLeft : Int) (d : Digits) (c : Char) : Digits :=
  let n := 10 * d.kept + (c.toNat - 48)
  if d.full || maxKept < n then ⟨d.kept, d.exp + ifLeft, true⟩ else ⟨n, d.exp + ifKept, false⟩

def ofWhole (ds : List Char) : Digits := ds.foldl (push 0 1) ⟨0, 0, false⟩

def withPart (d : Digits) (ds : List Char) : Digits :=
  ds.foldl (push (-1) 0) { d with full := false }

end Digits

namespace Json

/-- The digits behind a point, where there is a point; it must have some. -/
def readPart? : List Char → Option (List Char × List Char)
  | '.' :: rest =>
    let (ds, rest) := spanDigits rest
    if ds.isEmpty then none else some (ds, rest)
  | rest => some ([], rest)

def readPower? : List Char → Option (Option Int × List Char)
  | [] => some (none, [])
  | c :: rest =>
    if c == 'e' || c == 'E' then
      let (down, rest) := takeSign rest
      let (ds, rest) := spanDigits rest
      if ds.isEmpty then none
      else some (some (if down then -(digitsValue ds : Int) else digitsValue ds), rest)
    else some (none, c :: rest)

/-- A number at the front of a text. Minus zero is no whole number. -/
def readNumber (cs : List Char) : Option (Json × List Char) := do
  let (negative, cs) := match cs with
    | '-' :: rest => (true, rest)
    | cs => (false, cs)
  let (whole, rest) := spanDigits cs
  if whole.isEmpty || (whole.head? = some '0' && 1 < whole.length) then none
  else
    let (part, rest) ← readPart? rest
    let (exp, rest) ← readPower? rest
    let n := digitsValue whole
    let digits := (Digits.ofWhole whole).withPart part
    if part.isEmpty && exp.isNone && !negative && n ≤ Digits.maxKept then some (.int n, rest)
    else if part.isEmpty && exp.isNone && negative && 0 < n && n ≤ 9223372036854775808 then
      some (.int (-n), rest)
    else
      let x ← Binary64.ofScaled? negative digits.kept (digits.exp + exp.getD 0)
      some (.float x, rest)

end Json
end ListKeeper
