import ListKeeper.Binary64
import ListKeeper.Utf8

/-! Internet addresses and their text. An address of version 4 is written as four numbers, one of
version 6 as groups of four hexadecimal digits in which the longest run of zeros is left out. -/
namespace ListKeeper

structure Ipv4 where
  a : UInt8
  b : UInt8
  c : UInt8
  d : UInt8
  deriving DecidableEq

/-- An address of version 6: its eight groups. -/
structure Ipv6 where
  groups : List UInt16
  eight : groups.length = 8
  deriving DecidableEq

namespace Ipv4

def text (ip : Ipv4) : String := s!"{ip.a.toNat}.{ip.b.toNat}.{ip.c.toNat}.{ip.d.toNat}"

def ofNat (n : Nat) : Ipv4 :=
  ⟨UInt8.ofNat (n / 16777216), UInt8.ofNat (n / 65536), UInt8.ofNat (n / 256), UInt8.ofNat n⟩

/-- One of the four numbers: at most three digits and no leading zero. -/
def takeOctet? (cs : List Char) : Option (UInt8 × List Char) :=
  let (ds, rest) := spanDigits cs
  if ds.isEmpty || 3 < ds.length || (1 < ds.length && ds.head? = some '0') || 255 < digitsValue ds
  then none
  else some (UInt8.ofNat (digitsValue ds), rest)

def takeChar? (c : Char) : List Char → Option (List Char)
  | d :: rest => if d = c then some rest else none
  | [] => none

def take? (cs : List Char) : Option (Ipv4 × List Char) := do
  let (a, cs) ← takeOctet? cs
  let (b, cs) ← takeOctet? (← takeChar? '.' cs)
  let (c, cs) ← takeOctet? (← takeChar? '.' cs)
  let (d, cs) ← takeOctet? (← takeChar? '.' cs)
  some (⟨a, b, c, d⟩, cs)

end Ipv4

namespace Ipv6

def ofGroups? (groups : List UInt16) : Option Ipv6 :=
  if h : groups.length = 8 then some ⟨groups, h⟩ else none

def isHex (c : Char) : Bool := c.isDigit || ('a' ≤ c && c ≤ 'f') || ('A' ≤ c && c ≤ 'F')

def hexValue (cs : List Char) : Nat :=
  cs.foldl (fun n c =>
    n * 16 + (if c.isDigit then c.toNat - 48 else if 'a' ≤ c then c.toNat - 87 else c.toNat - 55)) 0

def hexText (n : UInt16) : String := String.ofList (Nat.toDigits 16 n.toNat)

def takeGroup? (cs : List Char) : Option (UInt16 × List Char) :=
  let (ds, rest) := cs.span isHex
  if ds.isEmpty || 4 < ds.length then none else some (UInt16.ofNat (hexValue ds), rest)

def pairOf (ip : Ipv4) : List UInt16 :=
  [UInt16.ofNat (ip.a.toNat * 256 + ip.b.toNat), UInt16.ofNat (ip.c.toNat * 256 + ip.d.toNat)]

/-- Reads up to so many groups with colons between them, the last two of which may be written as an
address of version 4; says whether they were. -/
def takeGroups : Nat → Bool → List Char → List UInt16 × Bool × List Char
  | 0, _, cs => ([], false, cs)
  | limit + 1, first, cs =>
    let body? := if first then some cs else Ipv4.takeChar? ':' cs
    match body? with
    | none => ([], false, cs)
    | some body =>
      match if 1 ≤ limit then Ipv4.take? body else none with
      | some (ip, rest) => (pairOf ip, true, rest)
      | none =>
        match takeGroup? body with
        | none => ([], false, cs)
        | some (g, rest) =>
          let (gs, mapped, rest) := takeGroups limit false rest
          (g :: gs, mapped, rest)

/-- An address at the front of a text. Two colons stand for one or more groups of zeros. -/
def take? (cs : List Char) : Option (Ipv6 × List Char) :=
  let (head, mapped, rest) := takeGroups 8 true cs
  if head.length = 8 then (ofGroups? head).map fun ip => (ip, rest)
  else if mapped then none
  else match rest with
    | ':' :: ':' :: rest =>
      let (tail, _, rest) := takeGroups (7 - head.length) true rest
      let zeros := List.replicate (8 - head.length - tail.length) 0
      (ofGroups? (head ++ zeros ++ tail)).map fun ip => (ip, rest)
    | _ => none

def longestZeros : Nat → Nat × Nat → Nat × Nat → List UInt16 → Nat × Nat
  | _, best, _, [] => best
  | i, best, current, g :: gs =>
    if g = 0 then
      let current := if current.2 = 0 then (i, 1) else (current.1, current.2 + 1)
      -- the first of two runs of one length stays the best
      longestZeros (i + 1) (if best.2 < current.2 then current else best) current gs
    else longestZeros (i + 1) best (0, 0) gs

def joined (gs : List UInt16) : String := String.intercalate ":" (gs.map hexText)

/-- The groups with the first longest run of two or more zeros left out. -/
def groupText (gs : List UInt16) : String :=
  let (start, size) := longestZeros 0 (0, 0) (0, 0) gs
  if size ≤ 1 then joined gs else joined (gs.take start) ++ "::" ++ joined (gs.drop (start + size))

/-- The text of an address; one that stands for an address of version 4 ends like it. -/
def text (ip : Ipv6) : String :=
  match ip.groups with
  | [0, 0, 0, 0, 0, 0xffff, x, y] =>
    "::ffff:" ++ Ipv4.text (.ofNat (x.toNat * 65536 + y.toNat))
  | gs => groupText gs

end Ipv6
end ListKeeper
