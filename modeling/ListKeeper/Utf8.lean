import ListKeeper.Rules

/-! Text as bytes. Reading goes through the bytes character by character; a sequence that belongs to
no character is refused, or replaced as a whole by the replacement character. -/
namespace ListKeeper
namespace Utf8

def encode (cs : List Char) : Bytes := cs.flatMap String.utf8EncodeChar

def isFollower (b : UInt8) : Bool := 0x80 ≤ b && b ≤ 0xbf

/-- How many bytes follow a first byte, and the range of the first of them. -/
def followers? (b : UInt8) : Option (Nat × UInt8 × UInt8) :=
  if 0xc2 ≤ b && b ≤ 0xdf then some (1, 0x80, 0xbf)
  else if b == 0xe0 then some (2, 0xa0, 0xbf)
  else if b == 0xed then some (2, 0x80, 0x9f)
  else if 0xe1 ≤ b && b ≤ 0xef then some (2, 0x80, 0xbf)
  else if b == 0xf0 then some (3, 0x90, 0xbf)
  else if 0xf1 ≤ b && b ≤ 0xf3 then some (3, 0x80, 0xbf)
  else if b == 0xf4 then some (3, 0x80, 0x8f)
  else none

def addBits (n : Nat) (b : UInt8) : Nat := n * 64 + b.toNat % 64

/-- Takes so many following bytes; what was read so far is lost where one is missing. -/
def takeFollowers : Nat → Nat → Bytes → Option Char × Bytes
  | 0, n, rest => (some (Char.ofNat n), rest)
  | k + 1, n, rest =>
    match rest with
    | b :: more => if isFollower b then takeFollowers k (addBits n b) more else (none, rest)
    | [] => (none, [])

/-- The first character of some bytes behind its first byte, or none where no character stands
there, and what follows. -/
def takeChar (b : UInt8) (rest : Bytes) : Option Char × Bytes :=
  if b < 0x80 then (some (Char.ofNat b.toNat), rest)
  else match followers? b with
    | none => (none, rest)
    | some (k, low, high) =>
      match rest with
      | c :: more =>
        if low ≤ c && c ≤ high then
          takeFollowers (k - 1) (addBits (b.toNat % Nat.pow 2 (6 - k)) c) more
        else (none, rest)
      | [] => (none, [])

/-- Reads bytes from the left; `acc` holds the characters before, the last first. -/
def readWith (bad : Option Char) : Nat → List Char → Bytes → Option (List Char)
  | 0, acc, _ => some acc.reverse
  | _ + 1, acc, [] => some acc.reverse
  | fuel + 1, acc, b :: rest =>
    match takeChar b rest, bad with
    | (some c, rest), _ => readWith bad fuel (c :: acc) rest
    | (none, rest), some r => readWith bad fuel (r :: acc) rest
    | (none, _), none => none

/-- The text of bytes, if all of them belong to characters. -/
def decode? (bs : Bytes) : Option (List Char) := readWith none bs.length [] bs

/-- The text of bytes, with a replacement character for each sequence that belongs to none. -/
def decodeLossy (bs : Bytes) : List Char :=
  (readWith (some '\ufffd') bs.length [] bs).getD []

end Utf8

def readCount? (limit : Nat) (cs : List Char) : Option Nat :=
  let ds := match cs with
    | '+' :: ds => ds
    | ds => ds
  if ds.isEmpty || !ds.all (·.isDigit) then none
  else
    let n := ds.foldl (fun n c => 10 * n + (c.toNat - 48)) 0
    if n < limit then some n else none

end ListKeeper
