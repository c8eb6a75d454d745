import ListKeeper.Pieces

/-! The rules of a filter list, counted line by line. A line is a rule unless it is blank or a
comment; nothing is asked of the bytes, which need not be valid text. -/
namespace ListKeeper

abbrev Bytes := List UInt8

namespace Rules

def newline : UInt8 := 0x0a

/-- Blanks are space, tab, line feed, form feed and carriage return. The vertical tab is none. -/
def isBlank (b : UInt8) : Bool :=
  b == 0x20 || b == 0x09 || b == 0x0a || b == 0x0c || b == 0x0d

/-- A comment opens with a number sign or an exclamation mark. -/
def opensComment (b : UInt8) : Bool := b == 0x23 || b == 0x21

/-- The lines of a body. The last one need not be ended by a newline. -/
def lines (body : Bytes) : List Bytes := pieces (· == newline) body

def trim (line : Bytes) : Bytes := ((line.dropWhile isBlank).reverse.dropWhile isBlank).reverse

/-- A trimmed line is a rule if it has a first byte and that byte opens no comment. -/
def isRule (trimmed : Bytes) : Bool :=
  match trimmed with
  | [] => false
  | b :: _ => !opensComment b

def count (body : Bytes) : Nat := (lines body).countP fun line => isRule (trim line)

def recorded (body : Bytes) : UInt64 := UInt64.ofNat (count body)

end Rules
end ListKeeper
