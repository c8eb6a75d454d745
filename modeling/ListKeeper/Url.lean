import ListKeeper.Network.Host

/-! Urls as records, and their text. All texts in a record are escaped already. -/
namespace ListKeeper

/-- Whom a url addresses. An empty user or password is none. -/
structure Authority where
  user : String
  password : String
  host : Host
  port : Option UInt16
  deriving DecidableEq

inductive UrlPath
  | whole (text : String)
  | parts (names : List String)
  deriving DecidableEq

structure Url where
  scheme : String
  authority : Option Authority
  path : UrlPath
  query : Option String
  fragment : Option String
  deriving DecidableEq

namespace Authority

def userText (a : Authority) : String :=
  if a.user = "" && a.password = "" then ""
  else if a.password = "" then a.user ++ "@"
  else a.user ++ ":" ++ a.password ++ "@"

def portText (a : Authority) : String :=
  match a.port with
  | some p => ":" ++ toString p.toNat
  | none => ""

def text (a : Authority) : String := a.userText ++ a.host.text ++ a.portText

end Authority

namespace UrlPath

def text : UrlPath → String
  | whole s => s
  | parts names => String.join (names.map ("/" ++ ·))

end UrlPath

namespace Url

def usualPorts : List (String × UInt16) :=
  [("http", 80), ("https", 443), ("ws", 80), ("wss", 443), ("ftp", 21)]

def usualPort? (scheme : String) : Option UInt16 :=
  (usualPorts.find? fun p => p.1 == scheme).map (·.2)

def isNetwork (scheme : String) : Bool := (usualPort? scheme).isSome

/-- What stands before the path. A path that opens with two slashes is told from an authority. -/
def frontText (u : Url) : String :=
  match u.authority with
  | some a => "//" ++ a.text
  | none => if u.path.text.startsWith "//" then "/." else ""

def queryText (u : Url) : String :=
  match u.query with
  | some q => "?" ++ q
  | none => ""

def fragmentText (u : Url) : String :=
  match u.fragment with
  | some f => "#" ++ f
  | none => ""

def text (u : Url) : String :=
  u.scheme ++ ":" ++ u.frontText ++ u.path.text ++ u.queryText ++ u.fragmentText

def target (u : Url) : String := u.path.text ++ u.queryText

def hasHost (u : Url) : Bool :=
  match u.authority with
  | some a => !a.host.isEmpty
  | none => false

def isWeb (u : Url) : Bool := u.scheme == "http" || u.scheme == "https"

end Url
end ListKeeper
