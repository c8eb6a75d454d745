import ListKeeper.Network.Ip

/-! Addresses with a port, as a server is bound to them. -/
namespace ListKeeper

/-- An address with a port, and the scope of an address of version 6. -/
inductive SocketAddress
  | v4 (ip : Ipv4) (port : UInt16)
  | v6 (ip : Ipv6) (scope : UInt32) (port : UInt16)
  deriving DecidableEq

namespace SocketAddress

def text : SocketAddress → String
  | v4 ip port => s!"{ip.text}:{port.toNat}"
  | v6 ip scope port =>
    if scope = 0 then s!"[{ip.text}]:{port.toNat}" else s!"[{ip.text}%{scope.toNat}]:{port.toNat}"

def takeBounded? (limit : Nat) (cs : List Char) : Option (Nat × List Char) :=
  let (ds, rest) := spanDigits cs
  if ds.isEmpty || limit ≤ digitsValue ds then none else some (digitsValue ds, rest)

def readPort? (cs : List Char) : Option UInt16 := do
  let (n, rest) ← takeBounded? 65536 (← Ipv4.takeChar? ':' cs)
  if rest.isEmpty then some (UInt16.ofNat n) else none

/-- A scope behind its percent sign. Where none can be read the scope is zero. -/
def takeScope (cs : List Char) : UInt32 × List Char :=
  match cs with
  | '%' :: rest =>
    match takeBounded? 4294967296 rest with
    | some (n, rest) => (UInt32.ofNat n, rest)
    | none => (0, cs)
  | _ => (0, cs)

/-- Reads an address with its port; one of version 6 stands in brackets. -/
def ofChars? (cs : List Char) : Option SocketAddress :=
  match cs with
  | '[' :: rest => do
    let (ip, rest) ← Ipv6.take? rest
    let (scope, rest) := takeScope rest
    let port ← readPort? (← Ipv4.takeChar? ']' rest)
    some (.v6 ip scope port)
  | _ => do
    let (ip, rest) ← Ipv4.take? cs
    some (.v4 ip (← readPort? rest))

def ofText? (s : String) : Option SocketAddress := ofChars? s.toList

end SocketAddress
end ListKeeper
