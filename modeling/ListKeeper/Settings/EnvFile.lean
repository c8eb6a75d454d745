import ListKeeper.Characters.Alphanumeric
import ListKeeper.Settings.Environment
import ListKeeper.Utf8
import ListKeeper.Whitespace

/-! Files of environment variables. A logical line runs on to the next line where a quote is open,
and holds a name, an equals sign and a value; a value may have parts in quotes, escapes, and the
values of other variables behind a dollar sign. Reading stops at the first line that is none. -/
namespace ListKeeper
namespace EnvFile

/-- Where a character of a line stands, which decides whether the line goes on. -/
inductive Standing
  | plain
  | blank
  | escape
  | single
  | singleEscape
  | double
  | doubleEscape
  | comment
  deriving DecidableEq

namespace Standing

def next : Standing → Char → Standing
  | plain, c =>
    if isWhitespace c && c != '\n' && c != '\r' then blank
    else if c == '\\' then escape
    else if c == '"' then double
    else if c == '\'' then single
    else plain
  | blank, c =>
    if c == '#' then comment
    else if c == '\\' then escape
    else if c == '"' then double
    else if c == '\'' then single
    else plain
  | escape, _ => plain
  | single, c => if c == '\\' then singleEscape else if c == '\'' then plain else single
  | singleEscape, _ => single
  | double, c => if c == '\\' then doubleEscape else if c == '"' then plain else double
  | doubleEscape, _ => double
  | comment, _ => comment

/-- Follows a line up to its end or to a comment, which is cut off with its mark. -/
def follow (s : Standing) : List Char → List Char × Standing
  | [] => ([], s)
  | c :: cs =>
    match s.next c with
    | comment => ([], comment)
    | s' =>
      let (kept, last) := follow s' cs
      (c :: kept, last)

end Standing

def rawLines (body : Bytes) : List Bytes :=
  match pieces (· == Rules.newline) body with
  | [] => []
  | ps =>
    let ended := ps.dropLast.map (· ++ [Rules.newline])
    match ps.getLast? with
    | some [] => ended
    | some p => ended ++ [p]
    | none => ended

def dropLineEnd (cs : List Char) : List Char :=
  match cs.reverse with
  | '\n' :: '\r' :: rest => rest.reverse
  | '\n' :: rest => rest.reverse
  | _ => cs

inductive Logical
  | line (cs : List Char)
  | broken

/-- Puts lines together into logical lines; `begun` is the line so far. -/
def logicalLines (begun : List Char) (s : Standing) : List Bytes → List Logical
  | [] => if s = .plain then [] else [.broken]
  | raw :: rest =>
    match Utf8.decode? raw with
    | none => [.broken]
    | some cs =>
      if (trimLeft (begun ++ cs)).head? = some '#' then
        .line [] :: logicalLines [] .plain rest
      else match s.follow cs with
        | (kept, .plain) => .line (dropLineEnd (begun ++ kept)) :: logicalLines [] .plain rest
        | (kept, .comment) => .line (begun ++ kept) :: logicalLines [] .plain rest
        | (kept, s') => logicalLines (begun ++ kept) s' rest

/-- The variables known to the lines that follow: those of the environment, and those of the file.
-/
structure Known where
  env : Environment
  own : Environment

def Known.value (k : Known) (name : List Char) : List Char :=
  let name := String.ofList name
  -- the environment comes first, and a name that nobody knows stands for nothing
  (((k.env.get? name).or (k.own.get? name)).getD "").toList

/-- Where a character of a value stands. A name behind a dollar sign is collected with its last
character first. -/
inductive Part
  | bare
  | escaped (quoted : Bool)
  | single
  | double
  | name (quoted : Bool) (letters : List Char)
  | braced (quoted : Bool) (letters : List Char)
  | trailing

namespace Part

/-- The part to go on with behind a name or an escape. -/
def back (quoted : Bool) : Part := if quoted then double else bare

/-- Reads a value from a place in it; `acc` holds what was read, the last first. -/
def read? (k : Known) : Part → List Char → List Char → Option (List Char)
  | bare, acc, [] => some acc.reverse
  | escaped false, acc, [] => some acc.reverse
  | trailing, acc, [] => some acc.reverse
  | name false letters, acc, [] => some (acc.reverse ++ k.value letters.reverse)
  | _, _, [] => none
  | trailing, acc, c :: cs =>
    if c == ' ' || c == '\t' then read? k trailing acc cs
    else if c == '#' then some acc.reverse
    else none
  | escaped quoted, acc, c :: cs =>
    if c == '\\' || c == '\'' || c == '"' || c == '$' || c == ' ' then
      read? k (back quoted) (c :: acc) cs
    else if c == 'n' then read? k (back quoted) ('\n' :: acc) cs
    else none
  | single, acc, c :: cs =>
    if c == '\'' then read? k bare acc cs else read? k single (c :: acc) cs
  | name quoted letters, acc, c :: cs =>
    if Characters.isAlphanumeric c then read? k (name quoted (c :: letters)) acc cs
    else if c == '\x7b' && letters.isEmpty then read? k (braced quoted []) acc cs
    else
      let acc := (k.value letters.reverse).reverse ++ acc
      if c == '$' then read? k (name quoted []) acc cs else read? k (back quoted) (c :: acc) cs
  | braced quoted letters, acc, c :: cs =>
    if c == '\x7d' then read? k (back quoted) ((k.value letters.reverse).reverse ++ acc) cs
    else read? k (braced quoted (c :: letters)) acc cs
  | double, acc, c :: cs =>
    if c == '$' then read? k (name true []) acc cs
    else if c == '"' then read? k bare acc cs
    else if c == '\\' then read? k (escaped true) acc cs
    else read? k double (c :: acc) cs
  | bare, acc, c :: cs =>
    if c == '$' then read? k (name false []) acc cs
    else if c == '\'' then read? k single acc cs
    else if c == '"' then read? k double acc cs
    else if c == '\\' then read? k (escaped false) acc cs
    else if c == ' ' || c == '\t' then read? k trailing acc cs
    else read? k bare (c :: acc) cs

end Part

def isNameChar (c : Char) : Bool := c.isAlphanum || c == '_' || c == '.'

def takeName? (cs : List Char) : Option (List Char × List Char) :=
  match cs with
  | c :: _ =>
    if c.isAlpha || c == '_' then
      let (name, rest) := cs.span isNameChar
      some (name, trimLeft rest)
    else none
  | [] => none

/-- The name of a line, which may have a word in front that says that it is exported, and what
follows its equals sign. -/
def takeHead? (cs : List Char) : Option (List Char × List Char) :=
  match takeName? cs with
  | none => none
  | some (name, '=' :: rest) => some (name, trimLeft rest)
  | some (name, rest) =>
    if name = ['e', 'x', 'p', 'o', 'r', 't'] then
      match takeName? rest with
      | some (name, '=' :: rest) => some (name, trimLeft rest)
      | _ => none
    else none

/-- What a logical line says: nothing, or a variable and its value. -/
def readLine? (k : Known) (cs : List Char) : Option (Option (String × String)) :=
  let cs := trimBoth cs
  if cs.isEmpty || cs.head? = some '#' then some none
  else match takeHead? cs with
    | none => none
    | some (name, rest) =>
      let name := String.ofList name
      if rest.isEmpty || rest.head? = some '#' then some (some (name, ""))
      else (Part.read? k .bare [] rest).map fun v => some (name, String.ofList v)

/-- Takes logical lines into an environment, up to the first that cannot be read. -/
def apply (k : Known) : List Logical → Environment
  | [] => k.env
  | .broken :: _ => k.env
  | .line cs :: rest =>
    match readLine? k cs with
    | none => k.env
    | some none => apply k rest
    | some (some (name, v)) =>
      apply ⟨k.env.setDefault name v, (name, v) :: k.own⟩ rest

/-- An environment with what a file adds to it. Variables that are set keep their values. -/
def load (env : Environment) (body : Bytes) : Environment :=
  let body := match body with
    | 0xef :: 0xbb :: 0xbf :: rest => rest
    | body => body
  apply ⟨env, []⟩ (logicalLines [] .plain (rawLines body))

end EnvFile
end ListKeeper
