import ListKeeper.Url

/-! Reading urls, alone or against the url of the page they stand on. Urls that lead into the
network are read liberally: slashes lean either way and come in any number. -/
namespace ListKeeper

inductive UrlError
  | noScheme
  | malformed
  deriving DecidableEq

namespace Url

/-- A text without the controls and blanks around it, and without tabs and line ends in it. -/
def clean (cs : List Char) : List Char :=
  let cs := cs.dropWhile fun c => c ≤ ' '
  let cs := (cs.reverse.dropWhile fun c => c ≤ ' ').reverse
  cs.filter fun c => c != '\t' && c != '\n' && c != '\r'

def isSchemeChar (c : Char) : Bool := c.isAlphanum || c == '+' || c == '-' || c == '.'

def takeScheme? (cs : List Char) : Option (String × List Char) :=
  match cs with
  | c :: _ =>
    let (scheme, rest) := cs.span isSchemeChar
    match rest with
    | ':' :: rest =>
      if c.isAlpha then some (String.ofList (scheme.map Char.toLower), rest) else none
    | _ => none
  | [] => none

def cut (mark : Char) (cs : List Char) : List Char × Option (List Char) :=
  match cs.span (· != mark) with
  | (front, _ :: rest) => (front, some rest)
  | (front, []) => (front, none)

def cutLast (mark : Char) (cs : List Char) : Option (List Char) × List Char :=
  match cut mark cs.reverse with
  | (back, some front) => (some front.reverse, back.reverse)
  | (_, none) => (none, cs)

/-- Characters that are kept in a fragment, in a path, in a user's name, and in a query; the first
set is kept everywhere. -/
def isVisible (c : Char) : Bool := 0x20 ≤ c.toNat && c != '\x7f'

def keptInFragment (c : Char) : Bool :=
  isVisible c && !([' ', '"', '<', '>', '\x60'].contains c)

def keptInPath (c : Char) : Bool :=
  keptInFragment c && !(['#', '?', '\x7b', '\x7d'].contains c)

def keptInUser (c : Char) : Bool :=
  keptInPath c && !(['/', ':', ';', '=', '@', '[', '\\', ']', '^', '|'].contains c)

def keptInQuery (network : Bool) (c : Char) : Bool :=
  isVisible c && !([' ', '"', '#', '<', '>'].contains c) && !(network && c == '\'')

def escape (keep : Char → Bool) (cs : List Char) : String := String.ofList (Percent.encode keep cs)

def isSlash (network : Bool) (c : Char) : Bool := c == '/' || (network && c == '\\')

/-- A host in front of its port; a colon inside brackets belongs to the host. -/
def splitPort : Bool → List Char → List Char × Option (List Char)
  | _, [] => ([], none)
  | inside, c :: cs =>
    if c == ':' && !inside then ([], some cs)
    else
      let inside := if c == '[' then true else if c == ']' then false else inside
      let (host, port) := splitPort inside cs
      (c :: host, port)

/-- A port. The usual one of the scheme counts as none. -/
def port? (scheme : String) (ds : List Char) : Option (Option UInt16) :=
  if ds.isEmpty then some none
  else if !ds.all (·.isDigit) || 65535 < digitsValue ds then none
  else
    let p := UInt16.ofNat (digitsValue ds)
    some (if usualPort? scheme = some p then none else some p)

def authority? (scheme : String) (cs : List Char) : Option Authority := do
  let network := isNetwork scheme
  let (user?, rest) := cutLast '@' cs
  let (host, port?) := splitPort false rest
  if host.isEmpty && (network || user?.isSome || port?.isSome) then none
  else
    let (user, password) := cut ':' (user?.getD [])
    some
      { user := escape keptInUser user
        password := escape keptInUser (password.getD [])
        host := ← (if network then Host.ofChars? host else Host.ofOther? host)
        port := ← Url.port? scheme (port?.getD []) }

/-- The ways to write the names of a directory itself and of the one above it. -/
def isHere (name : List Char) : Bool :=
  ["." , "%2e"].contains (String.ofList (name.map Char.toLower))

def isAbove (name : List Char) : Bool :=
  ["..", ".%2e", "%2e.", "%2e%2e"].contains (String.ofList (name.map Char.toLower))

/-- Follows the names of a path; `acc` holds where they led so far, the last first. -/
def follow (acc : List String) : List (List Char) → List String
  | [] => acc.reverse
  | [name] =>
    if isAbove name then ("" :: acc.drop 1).reverse
    else if isHere name then ("" :: acc).reverse
    else (escape keptInPath name :: acc).reverse
  | name :: rest =>
    if isAbove name then follow (acc.drop 1) rest
    else if isHere name then follow acc rest
    else follow (escape keptInPath name :: acc) rest

/-- The names of a path behind its first slash, below some others. -/
def names (network : Bool) (above : List String) (cs : List Char) : UrlPath :=
  .parts (follow above.reverse (pieces (isSlash network) cs))

/-- A path behind an authority. In the network it is never empty. -/
def pathAfter (network : Bool) (cs : List Char) : UrlPath :=
  match cs with
  | c :: rest => names network [] (if isSlash network c then rest else cs)
  | [] => if network then .parts [""] else .parts []

def addressed? (scheme : String) (cs : List Char) (query fragment : Option String) : Option Url :=
  let network := isNetwork scheme
  let (front, rest) := cs.span fun c => !isSlash network c
  (authority? scheme front).map fun a =>
    ⟨scheme, some a, pathAfter network rest, query, fragment⟩

/-- The names of a path in a file system, with the names of drives in one form. -/
def filePath (cs : List Char) : UrlPath :=
  let cs := match cs with
    | c :: rest => if isSlash true c then rest else cs
    | [] => []
  match pieces (isSlash true) cs with
  | [c, d] :: rest =>
    if c.isAlpha && (d == ':' || d == '|') then
      match follow [] rest with
      | [] => .parts [String.ofList [c, ':']]
      | ns => .parts (String.ofList [c, ':'] :: ns)
    else .parts (follow [] ([c, d] :: rest))
  | ps => .parts (follow [] ps)

def isDrive (cs : List Char) : Bool :=
  match cs with
  | [c, d] => c.isAlpha && (d == ':' || d == '|')
  | _ => false

/-- A url of a file behind its scheme. This machine has no name. -/
def file? (cs : List Char) (query fragment : Option String) : Option Url :=
  let make (host : Host) (path : UrlPath) : Url :=
    ⟨"file", some ⟨"", "", host, none⟩, path, query, fragment⟩
  match cs with
  | c :: d :: rest =>
    if isSlash true c && isSlash true d then
      let (front, path) := rest.span fun c => !isSlash true c
      if front.isEmpty then some (make (.name "") (filePath path))
      else if isDrive front then some (make (.name "") (filePath rest))
      else (Host.ofChars? front).map fun host =>
        make (if host = .name "localhost" then .name "" else host) (filePath path)
    else some (make (.name "") (filePath cs))
  | _ => some (make (.name "") (filePath cs))

def absolute? (scheme : String) (cs : List Char) (query fragment : Option String) : Option Url :=
  if isNetwork scheme then addressed? scheme (cs.dropWhile (isSlash true)) query fragment
  else if scheme = "file" then file? cs query fragment
  else match cs with
    | '/' :: '/' :: rest => addressed? scheme rest query fragment
    | '/' :: rest => some ⟨scheme, none, names false [] rest, query, fragment⟩
    | _ => some ⟨scheme, none, .whole (escape isVisible cs), query, fragment⟩

def above : UrlPath → List String
  | .parts names => names.dropLast
  | .whole _ => []

def relative? (base : Url) (cs : List Char) (query fragment : Option String) : Option Url :=
  match cs with
  | [] =>
    some { base with query := if query.isSome then query else base.query, fragment := fragment }
  | c :: rest =>
    if isSlash true c then
      match rest with
      | d :: _ =>
        if isSlash true d then
          addressed? base.scheme (rest.dropWhile (isSlash true)) query fragment
        else some { base with path := names true [] rest, query := query, fragment := fragment }
      | [] => some { base with path := names true [] [], query := query, fragment := fragment }
    else
      let path := names true (above base.path) cs
      some { base with path := path, query := query, fragment := fragment }

def orMalformed (u : Option Url) : Except UrlError Url :=
  match u with
  | some u => .ok u
  | none => .error .malformed

/-- Reads a text as a url. Without a scheme it must stand on a page in the network. -/
def ofChars (base : Option Url) (cs : List Char) : Except UrlError Url :=
  let (cs, fragment) := cut '#' (clean cs)
  let (cs, query) := cut '?' cs
  let fragment := fragment.map (escape keptInFragment)
  match takeScheme? cs with
  | some (scheme, rest) =>
    let network := isNetwork scheme
    let query := query.map (escape (keptInQuery network))
    match base with
    | some b =>
      let slashes := (rest.take 2).map (isSlash true)
      if network && b.scheme == scheme && !([true, true].isPrefixOf slashes) then
        orMalformed (b.relative? rest query fragment)
      else orMalformed (absolute? scheme rest query fragment)
    | none => orMalformed (absolute? scheme rest query fragment)
  | none =>
    match base with
    | some b =>
      let query := query.map (escape (keptInQuery (isNetwork b.scheme)))
      if isNetwork b.scheme then orMalformed (b.relative? cs query fragment) else .error .noScheme
    | none => .error .noScheme

def ofText (s : String) : Except UrlError Url := ofChars none s.toList

def join (base : Url) (s : String) : Except UrlError Url := ofChars (some base) s.toList

def isFetchable (s : String) : Bool :=
  match ofText s with
  | .ok u => u.isWeb
  | .error _ => false

end Url
end ListKeeper
