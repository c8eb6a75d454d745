import ListKeeper.Utf8

/-! Percent signs with two hexadecimal digits that stand for bytes. -/
namespace ListKeeper
namespace Percent

def digit? (b : UInt8) : Option UInt8 :=
  if 0x30 ≤ b && b ≤ 0x39 then some (b - 0x30)
  else if 0x41 ≤ b && b ≤ 0x46 then some (b - 0x37)
  else if 0x61 ≤ b && b ≤ 0x66 then some (b - 0x57)
  else none

/-- Replaces each percent sign with two digits by its byte; one without them stays. -/
def decode : Bytes → Bytes
  | 0x25 :: a :: b :: rest =>
    match digit? a, digit? b with
    | some x, some y => (x * 16 + y) :: decode rest
    | _, _ => 0x25 :: decode (a :: b :: rest)
  | b :: rest => b :: decode rest
  | [] => []

def escaped (b : UInt8) : List Char :=
  let digit (n : Nat) : Char := if n < 10 then Char.ofNat (48 + n) else Char.ofNat (55 + n)
  ['%', digit (b.toNat / 16), digit (b.toNat % 16)]

/-- Writes a text with only plain characters in it: those of ASCII that are to be kept stay, and all
others are escaped byte by byte. -/
def encode (keep : Char → Bool) (cs : List Char) : List Char :=
  cs.flatMap fun c =>
    if c.toNat < 0x80 && keep c then [c] else (String.utf8EncodeChar c).flatMap escaped

end Percent
end ListKeeper
