import ListKeeper.Binary64

/-! Documents of objects, lists and plain values, in their usual text form. Whole numbers and
numbers with a fraction or an exponent are told apart. -/
namespace ListKeeper

/-- A document. The fields of an object are in the order in which they were first written. -/
inductive Json
  | null
  | bool (b : Bool)
  | int (n : Int)
  | float (x : Binary64)
  | str (s : String)
  | arr (items : List Json)
  | obj (fields : List (String × Json))

/-- A whole number as an id or a count, if 64 bits without a sign hold it. -/
def countOfInt? (n : Int) : Option UInt64 :=
  if 0 ≤ n ∧ n < 18446744073709551616 then some (UInt64.ofNat n.toNat) else none

def isSigned64 (n : Int) : Bool := decide (-9223372036854775808 ≤ n ∧ n < 9223372036854775808)

namespace Json

def field? (fields : List (String × Json)) (key : String) : Option Json :=
  (fields.find? fun f => f.1 == key).map (·.2)

/-- Gives a field a value, in the place of the one it had. -/
def setField (fields : List (String × Json)) (key : String) (v : Json) : List (String × Json) :=
  if fields.any (fun f => f.1 == key) then fields.map fun f => if f.1 == key then (key, v) else f
  else fields ++ [(key, v)]

def ofNat (n : Nat) : Json := .int n

def ofId (id : UInt64) : Json := .int id.toNat

end Json
end ListKeeper
