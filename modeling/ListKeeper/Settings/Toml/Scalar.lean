import ListKeeper.Instant.Civil
import ListKeeper.Instant.Rfc3339
import ListKeeper.Json.Reader
import ListKeeper.Network.Ip
import ListKeeper.Settings.Setting

/-! The plain values of a TOML file: strings in four kinds of quotes, numbers, truth values, and
dates and times, which are settings as normal text. -/
namespace ListKeeper
namespace Toml

def isBlank (c : Char) : Bool := c == ' ' || c == '\t'

def skipBlanks (cs : List Char) : List Char := cs.dropWhile isBlank

/-- Characters that may stand in a string or a comment: all but the controls other than the tab. -/
def isPlain (c : Char) : Bool := c == '\t' || (0x20 ≤ c.toNat && c != '\x7f')

def takeNewline? : List Char → Option (List Char)
  | '\n' :: rest => some rest
  | '\r' :: '\n' :: rest => some rest
  | _ => none

def takeUnicode? (digits : Nat) (cs : List Char) : Option (Char × List Char) :=
  let ds := cs.take digits
  if ds.length < digits || !ds.all fun c => (Json.hexDigit? c).isSome then none
  else
    let n := ds.foldl (fun n c => 16 * n + (Json.hexDigit? c).getD 0) 0
    if n < 0xd800 || (0xdfff < n && n < 0x110000) then some (Char.ofNat n, cs.drop digits) else none

def takeEscape? : List Char → Option (Char × List Char)
  | 'b' :: rest => some ('\x08', rest)
  | 't' :: rest => some ('\t', rest)
  | 'n' :: rest => some ('\n', rest)
  | 'f' :: rest => some ('\x0c', rest)
  | 'r' :: rest => some ('\r', rest)
  | '"' :: rest => some ('"', rest)
  | '\\' :: rest => some ('\\', rest)
  | 'u' :: rest => takeUnicode? 4 rest
  | 'U' :: rest => takeUnicode? 8 rest
  | _ => none

/-- The rest of a string on one line; `acc` holds what was read, the last first. -/
def basicString : Nat → List Char → List Char → Option (String × List Char)
  | 0, _, _ => none
  | fuel + 1, acc, cs =>
    match cs with
    | '"' :: rest => some (String.ofList acc.reverse, rest)
    | '\\' :: rest =>
      match takeEscape? rest with
      | some (c, rest) => basicString fuel (c :: acc) rest
      | none => none
    | c :: rest => if isPlain c then basicString fuel (c :: acc) rest else none
    | [] => none

def literalString (cs : List Char) : Option (String × List Char) :=
  let (body, rest) := cs.span fun c => c != '\'' && isPlain c
  match rest with
  | '\'' :: rest => some (String.ofList body, rest)
  | _ => none

def skipLines : Nat → List Char → List Char
  | 0, cs => cs
  | fuel + 1, cs =>
    match takeNewline? (skipBlanks cs) with
    | some rest => skipLines fuel rest
    | none => skipBlanks cs

/-- A backslash at the end of a line takes the blanks and line ends behind it away. -/
def skipFolded (cs : List Char) : Option (List Char) :=
  (takeNewline? (skipBlanks cs)).map fun rest => skipLines rest.length rest

/-- The end of a string over several lines: up to two of its quotes may stand before the closing
three. -/
def closeQuotes (q : Char) (cs : List Char) : Option (List Char × List Char) :=
  let n := (cs.takeWhile (· == q)).length
  if n < 3 then none
  else
    let extra := min (n - 3) 2
    some (List.replicate extra q, cs.drop (3 + extra))

/-- The rest of a string over several lines; `acc` holds what was read, the last first. -/
def multiString (q : Char) : Nat → List Char → List Char → Option (String × List Char)
  | 0, _, _ => none
  | fuel + 1, acc, cs =>
    match closeQuotes q cs with
    | some (extra, rest) => some (String.ofList (acc.reverse ++ extra), rest)
    | none =>
      match takeNewline? cs with
      | some rest => multiString q fuel ('\n' :: acc) rest
      | none =>
        match cs with
        | '\\' :: rest =>
          if q == '\'' then multiString q fuel ('\\' :: acc) rest
          else match skipFolded rest with
            | some rest => multiString q fuel acc rest
            | none =>
              match takeEscape? rest with
              | some (c, rest) => multiString q fuel (c :: acc) rest
              | none => none
        | c :: rest => if isPlain c then multiString q fuel (c :: acc) rest else none
        | [] => none

/-- A line end right behind the opening quotes does not count. -/
def dropFirstNewline (cs : List Char) : List Char := (takeNewline? cs).getD cs

def takeString? (cs : List Char) : Option (String × List Char) :=
  match cs with
  | '"' :: '"' :: '"' :: rest => multiString '"' (rest.length + 1) [] (dropFirstNewline rest)
  | '\'' :: '\'' :: '\'' :: rest => multiString '\'' (rest.length + 1) [] (dropFirstNewline rest)
  | '"' :: rest => basicString (rest.length + 1) [] rest
  | '\'' :: rest => literalString rest
  | _ => none

/-- Digits in which single underscores may stand between two of them. -/
def plainDigits? (ok : Char → Bool) : List Char → Option (List Char)
  | [] => none
  | [c] => if ok c then some [c] else none
  | c :: '_' :: rest => if ok c then (plainDigits? ok rest).map (c :: ·) else none
  | c :: rest => if ok c then (plainDigits? ok rest).map (c :: ·) else none

def baseValue (base : Nat) (ds : List Char) : Nat :=
  ds.foldl (fun n c => base * n + (Json.hexDigit? c).getD 0) 0

/-- A whole number, if 64 bits with a sign hold it. -/
def boundedInt? (n : Int) : Option Setting :=
  if isSigned64 n then some (.int n) else none

def baseNumber? (base : Nat) (ok : Char → Bool) (cs : List Char) : Option Setting :=
  (plainDigits? ok cs).bind fun ds => boundedInt? (baseValue base ds)

def wholeDigits? (cs : List Char) : Option (List Char) :=
  match plainDigits? (·.isDigit) cs with
  | some ds => if 1 < ds.length && ds.head? = some '0' then none else some ds
  | none => none

def exponent? (cs : List Char) : Option Int :=
  let (negative, ds) := takeSign cs
  (plainDigits? (·.isDigit) ds).map fun ds =>
    if negative then -(digitsValue ds : Int) else digitsValue ds

/-- A decimal number behind its sign: whole, or with a fraction, an exponent or both. -/
def decimal? (negative : Bool) (cs : List Char) : Option Setting := do
  let (whole, rest) := cs.span fun c => c.isDigit || c == '_'
  let ds ← wholeDigits? whole
  match rest with
  | [] => boundedInt? (if negative then -(digitsValue ds : Int) else digitsValue ds)
  | _ =>
    let (part, rest) ← match rest with
      | '.' :: rest =>
        let (part, rest) := rest.span fun c => c.isDigit || c == '_'
        (plainDigits? (·.isDigit) part).map fun part => (part, rest)
      | rest => some ([], rest)
    let exp ← match rest with
      | [] => some 0
      | c :: rest => if c == 'e' || c == 'E' then exponent? rest else none
    match Binary64.ofDecimal negative (digitsValue (ds ++ part)) (exp - part.length) with
    | .infinite _ => none
    | x => some (.float x)

/-- A number: decimal, in base 16, 8 or 2, infinite, or none at all. -/
def number? (cs : List Char) : Option Setting :=
  match cs with
  | '0' :: 'x' :: rest => baseNumber? 16 (fun c => (Json.hexDigit? c).isSome) rest
  | '0' :: 'o' :: rest => baseNumber? 8 (fun c => '0' ≤ c && c ≤ '7') rest
  | '0' :: 'b' :: rest => baseNumber? 2 (fun c => c == '0' || c == '1') rest
  | _ =>
    let (negative, body) := takeSign cs
    if body = ['i', 'n', 'f'] then some (.float (.infinite negative))
    else if body = ['n', 'a', 'n'] then some (.float .nan)
    else decimal? negative body

def takeDigits? (width : Nat) (cs : List Char) : Option (Nat × List Char) :=
  let ds := cs.take width
  if ds.length = width && ds.all (·.isDigit) then some (digitsValue ds, cs.drop width) else none

def takeDate? (cs : List Char) : Option (List Char × List Char) := do
  let (y, cs) ← takeDigits? 4 cs
  let (m, cs) ← takeDigits? 2 (← Ipv4.takeChar? '-' cs)
  let (d, cs) ← takeDigits? 2 (← Ipv4.takeChar? '-' cs)
  if (⟨y, m, d⟩ : Civil).Exists then
    some (Instant.padded 4 y ++ '-' :: Instant.padded 2 m ++ '-' :: Instant.padded 2 d, cs)
  else none

/-- A time of day. The fraction keeps nine digits at most, and no zeros at its end. -/
def takeTime? (cs : List Char) : Option (List Char × List Char) := do
  let (h, cs) ← takeDigits? 2 cs
  let (m, cs) ← takeDigits? 2 (← Ipv4.takeChar? ':' cs)
  let (s, cs) ← takeDigits? 2 (← Ipv4.takeChar? ':' cs)
  if 23 < h || 59 < m || 60 < s then none
  else
    let (part, cs) ← match cs with
      | '.' :: cs =>
        let (ds, cs) := spanDigits cs
        if ds.isEmpty then none else some (ds, cs)
      | cs => some ([], cs)
    let kept := ((part.take 9).reverse.dropWhile (· == '0')).reverse
    some (Instant.padded 2 h ++ ':' :: Instant.padded 2 m ++ ':' :: Instant.padded 2 s ++
      (if kept.isEmpty then [] else '.' :: kept), cs)

def offset? (cs : List Char) : Option (List Char) :=
  match cs with
  | [] => some []
  | ['Z'] => some ['Z']
  | ['z'] => some ['Z']
  | sign :: rest =>
    if sign != '+' && sign != '-' then none
    else do
      let (h, rest) ← takeDigits? 2 rest
      let (m, rest) ← takeDigits? 2 (← Ipv4.takeChar? ':' rest)
      if !rest.isEmpty || 23 < h || 59 < m then none
      else
        let sign := if h = 0 && m = 0 then '+' else sign
        some (sign :: Instant.padded 2 h ++ ':' :: Instant.padded 2 m)

def dateTime? (cs : List Char) : Option Setting :=
  let text (cs : List Char) : Setting := .text (String.ofList cs)
  match takeDate? cs with
  | some (date, []) => some (text date)
  | some (date, c :: rest) =>
    if c == 'T' || c == 't' || c == ' ' then do
      let (time, rest) ← takeTime? rest
      some (text (date ++ 'T' :: time ++ (← offset? rest)))
    else none
  | none =>
    match takeTime? cs with
    | some (time, []) => some (text time)
    | _ => none

def isWordChar (c : Char) : Bool :=
  c.isAlphanum || c == '+' || c == '-' || c == '_' || c == '.' || c == ':'

def goesOn (word rest : List Char) : Bool :=
  match rest with
  | ' ' :: c :: _ => c.isDigit && word.length = 10 && (takeDate? word).isSome
  | _ => false

def takeWord? (cs : List Char) : Option (Setting × List Char) :=
  let (word, rest) := cs.span isWordChar
  let (word, rest) :=
    if goesOn word rest then
      let (time, rest) := (rest.drop 1).span isWordChar
      (word ++ ' ' :: time, rest)
    else (word, rest)
  if word = ['t', 'r', 'u', 'e'] then some (.bool true, rest)
  else if word = ['f', 'a', 'l', 's', 'e'] then some (.bool false, rest)
  else match dateTime? word with
    | some v => some (v, rest)
    | none => (number? word).map fun v => (v, rest)

def takeScalar? (cs : List Char) : Option (Setting × List Char) :=
  match cs with
  | c :: _ =>
    if c == '"' || c == '\'' then (takeString? cs).map fun r => (.text r.1, r.2) else takeWord? cs
  | [] => none

def isBareKeyChar (c : Char) : Bool := c.isAlphanum || c == '_' || c == '-'

/-- One part of a key: bare, or a string on one line. -/
def takeKeyPart? (cs : List Char) : Option (String × List Char) :=
  match cs with
  | '"' :: rest => basicString (rest.length + 1) [] rest
  | '\'' :: rest => literalString rest
  | _ =>
    let (k, rest) := cs.span isBareKeyChar
    if k.isEmpty then none else some (String.ofList k, rest)

/-- A key: one or more parts with points between them. Blanks around the parts do not count. -/
def takeKey? : Nat → List Char → Option (List String × List Char)
  | 0, _ => none
  | fuel + 1, cs =>
    match takeKeyPart? (skipBlanks cs) with
    | none => none
    | some (part, rest) =>
      match skipBlanks rest with
      | '.' :: rest => (takeKey? fuel rest).map fun r => (part :: r.1, r.2)
      | rest => some ([part], rest)

end Toml
end ListKeeper
