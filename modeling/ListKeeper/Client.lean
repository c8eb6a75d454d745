import ListKeeper.Config
import ListKeeper.Download
import ListKeeper.Url.Reader

/-! The client that fetches urls. It follows redirects up to a limit; what the peers do is not part
of it: a fetch is either over or waits for the reply to one request. -/
namespace ListKeeper

structure Client where
  userAgent : String
  proxy : Option Url
  deriving DecidableEq

inductive ClientError
  | badProxy (text : String)
  | badUserAgent
  deriving DecidableEq

inductive RequestError
  | noUrl
  | badUrl (url : String)
  | unanswered (url : String)
  | late (url : String)
  | tooManyRedirects (url : String)
  | brokenBody
  deriving DecidableEq

structure Request where
  url : Url
  target : String
  userAgent : String
  referer : Option String
  deriving DecidableEq

/-- What comes back to a request: nothing, nothing in time, or a head and then a body, which is none
where it does not come to its end. -/
inductive Reply
  | nothing
  | late
  | response (status : Nat) (location : Option String) (body : Option Bytes)
  deriving Inhabited

/-- A fetch: it waits for the reply to a request, with so many redirects left, or it is over. -/
inductive Fetch
  | waiting (request : Request) (redirects : Nat)
  | over (outcome : Except RequestError (Nat × Bytes))

namespace ClientError

def message : ClientError → String
  | badProxy text => s!"invalid proxy {text}: builder error"
  | badUserAgent => "builder error"

end ClientError

namespace RequestError

def message : RequestError → String
  | noUrl => "builder error"
  | badUrl url => s!"builder error for url ({url})"
  | unanswered url => s!"error sending request for url ({url})"
  | late url => s!"timed out: error sending request for url ({url})"
  | tooManyRedirects url => s!"error following redirect for url ({url})"
  | brokenBody => "failed to read body: error decoding response body"

end RequestError

namespace Url

def isReadable (s : String) : Bool :=
  (Utf8.decode? (Percent.decode (Utf8.encode s.toList))).isSome

/-- The url without the name and the password, which travel apart from it. -/
def withoutUser (u : Url) : Url :=
  match u.authority with
  | none => u
  | some a =>
    if isReadable a.user && (a.user != "" || (a.password != "" && isReadable a.password)) then
      { u with authority := some { a with user := "", password := "" } }
    else u

def maxLength : Nat := 65534

def isWritable (u : Url) : Bool :=
  let hostOk := match u.authority with
    | some ⟨_, _, .name s, _⟩ => s.toList.all fun c => !(['"', '\x60', '\x7b', '\x7d'].contains c)
    | _ => true
  hostOk && u.text.utf8ByteSize ≤ maxLength

def refererText (u : Url) : String :=
  let authority := u.authority.map fun a => ⟨"", "", a.host, a.port⟩
  Url.text ⟨u.scheme, authority, u.path, u.query, none⟩

end Url

namespace Client

/-- A user agent has no controls but tabs. -/
def userAgentOk (s : String) : Bool :=
  s.toList.all fun c => c == '\t' || (0x20 ≤ c.toNat && c != '\x7f')

/-- The url of a proxy. Without a scheme it is one of the web. -/
def proxyUrl? (s : String) : Option Url :=
  let again : Option Url :=
    match Url.ofText ("http://" ++ s) with
    | .ok u => if u.hasHost then some u else none
    | .error _ => none
  match Url.ofText s with
  | .ok u => if u.hasHost then some u else again
  | .error .noScheme => again
  | .error .malformed => none

/-- Makes a client. The proxy is looked at first. -/
def make (h : HttpSettings) : Except ClientError Client :=
  match h.proxy with
  | none => if userAgentOk h.userAgent then .ok ⟨h.userAgent, none⟩ else .error .badUserAgent
  | some text =>
    match proxyUrl? text with
    | none => .error (.badProxy text)
    | some u => if userAgentOk h.userAgent then .ok ⟨h.userAgent, some u⟩ else .error .badUserAgent

/-- The request for a url. A proxy is told the whole url. -/
def request (c : Client) (u : Url) (referer : Option String) : Request :=
  { url := u
    target := if c.proxy.isSome then Url.text { u with fragment := none } else u.target
    userAgent := c.userAgent
    referer := referer }

def send (c : Client) (u : Url) (referer : Option String) (redirects : Nat) : Fetch :=
  if u.isWeb && u.isWritable then .waiting (c.request u referer) redirects
  else .over (.error (.badUrl u.text))

def maxRedirects : Nat := 10

def fetch (c : Client) (url : String) : Fetch :=
  match Url.ofText url with
  | .error _ => .over (.error .noUrl)
  | .ok u =>
    if u.hasHost then c.send u.withoutUser none maxRedirects else .over (.error (.badUrl u.text))

def isRedirect (status : Nat) : Bool := [301, 302, 303, 307, 308].contains status

/-- The page that led to a request; one that was fetched in secret is not named in the open. -/
def referer? (before after : Url) : Option String :=
  if before.scheme == "https" && after.scheme == "http" then none else some before.refererText

def next? (u : Url) (status : Nat) (location : Option String) : Option Url :=
  if isRedirect status then
    match location with
    -- a redirect that leads nowhere is an answer like any other
    | none => none
    | some l =>
      match u.join l with
      | .ok v => some v
      | .error _ => none
  else none

def resume (c : Client) (r : Request) (redirects : Nat) : Reply → Fetch
  | .nothing => .over (.error (.unanswered r.url.text))
  | .late => .over (.error (.late r.url.text))
  | .response status location body =>
    match next? r.url status location with
    | some v =>
      match redirects with
      | 0 => .over (.error (.tooManyRedirects r.url.text))
      | left + 1 => c.send v (referer? r.url v) left
    | none =>
      -- only now it matters whether the body came to its end
      match body with
      | none => .over (.error .brokenBody)
      | some b => .over (.ok (status, b))

def settle (c : Client) (reply : Request → Reply) : Nat → Fetch → Except RequestError (Nat × Bytes)
  | _, .over outcome => outcome
  | 0, .waiting r _ => .error (.unanswered r.url.text)
  | fuel + 1, .waiting r redirects => settle c reply fuel (c.resume r redirects (reply r))

def answer : Except RequestError (Nat × Bytes) → Answer
  | .ok (status, body) => .response status body
  | .error e => .failure e.message

/-- Fetches a url from peers whose replies are known; there are at most as many requests as
redirects and one. -/
def get (c : Client) (reply : Request → Reply) (url : String) : Answer :=
  answer (c.settle reply (maxRedirects + 1) (c.fetch url))

end Client
end ListKeeper
