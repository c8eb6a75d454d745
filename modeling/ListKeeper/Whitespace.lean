/-! The characters that count as white space in any script. -/
namespace ListKeeper

/-- White space: the ASCII controls from tab to carriage return, the space, and the spaces and line
ends of other scripts. -/
def isWhitespace (c : Char) : Bool :=
  let n := c.toNat
  (0x09 ≤ n && n ≤ 0x0d) || n == 0x20 || n == 0x85 || n == 0xa0 || n == 0x1680 ||
    (0x2000 ≤ n && n ≤ 0x200a) || n == 0x2028 || n == 0x2029 || n == 0x202f || n == 0x205f ||
    n == 0x3000

def trimLeft (cs : List Char) : List Char := cs.dropWhile isWhitespace

def trimRight (cs : List Char) : List Char := (cs.reverse.dropWhile isWhitespace).reverse

def trimBoth (cs : List Char) : List Char := trimRight (trimLeft cs)

end ListKeeper
