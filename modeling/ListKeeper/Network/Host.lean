import ListKeeper.Network.Domain
import ListKeeper.Network.Ip
import ListKeeper.Percent

/-! The host part of a url: a name, or an address of either version. A name whose last label is a
number must be an address of version 4, which can be written in several ways. -/
namespace ListKeeper

inductive Host
  | name (text : String)
  | v4 (ip : Ipv4)
  | v6 (ip : Ipv6)
  deriving DecidableEq

namespace Host

def text : Host → String
  | name s => s
  | v4 ip => ip.text
  | v6 ip => "[" ++ Ipv6.groupText ip.groups ++ "]"

def isEmpty : Host → Bool
  | name s => s == ""
  | _ => false

def valueIn? (base : Nat) (ds : List Char) : Option Nat :=
  if ds.all fun c => Ipv6.isHex c && Ipv6.hexValue [c] < base then
    some (ds.foldl (fun n c => base * n + Ipv6.hexValue [c]) 0)
  else none

/-- A number: hexadecimal behind its mark, octal behind a zero, and decimal otherwise. -/
def number? (cs : List Char) : Option Nat :=
  match cs with
  | [] => none
  | '0' :: 'x' :: ds => valueIn? 16 ds
  | '0' :: 'X' :: ds => valueIn? 16 ds
  | ['0'] => some 0
  | '0' :: ds => valueIn? 8 ds
  | ds => valueIn? 10 ds

/-- The labels of a name without the empty one at its end. -/
def labels (name : List Char) : List (List Char) :=
  let ls := pieces (· == '.') name
  if ls.getLast? = some [] && 1 < ls.length then ls.dropLast else ls

def endsInNumber (name : List Char) : Bool :=
  match (labels name).getLast? with
  | some l => (!l.isEmpty && l.all (·.isDigit)) || (number? l).isSome
  | none => false

/-- The address that up to four numbers stand for; the last of them fills what the others leave. -/
def ofNumbers? (ns : List Nat) : Option Ipv4 :=
  match ns.reverse with
  | [] => none
  | last :: before =>
    let room := Nat.pow 256 (4 - before.length)
    if 3 < before.length || before.any (255 < ·) || room ≤ last then none
    else
      let high := before.reverse.foldl (fun n k => 256 * n + k) 0
      some (.ofNat (high * room + last))

def v4? (name : List Char) : Option Ipv4 := ((labels name).mapM number?).bind ofNumbers?

def bracketed? (cs : List Char) : Option Host :=
  match Ipv6.take? cs with
  | some (ip, [']']) => some (.v6 ip)
  | _ => none

def ofChars? (cs : List Char) : Option Host :=
  match cs with
  | '[' :: rest => bracketed? rest
  | _ => do
    let name ← Domain.toPlain? (← Utf8.decode? (Percent.decode (Utf8.encode cs)))
    if name.isEmpty then none
    else if endsInNumber name then (v4? name).map .v4
    else some (.name (String.ofList name))

def isForbidden (c : Char) : Bool :=
  ['\x00', '\t', '\n', '\r', ' ', '#', '/', ':', '<', '>', '?', '@', '[', '\\', ']', '^',
    '|'].contains c

/-- The host of a url of any other kind, which is kept as it stands. -/
def ofOther? (cs : List Char) : Option Host :=
  match cs with
  | '[' :: rest => bracketed? rest
  | _ =>
    if cs.any isForbidden then none
    else some (.name (String.ofList (Percent.encode (fun c => 0x20 ≤ c.toNat && c != '\x7f') cs)))

end Host
end ListKeeper
