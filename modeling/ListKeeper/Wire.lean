import ListKeeper.Client
import ListKeeper.Json.Printer
import ListKeeper.Settings.Setting
import ListKeeper.Status
import ListKeeper.Whitespace

/-! Requests and responses as they travel: a head of lines, an empty line, and a body. Where a body
ends is decided by the head; what comes behind it is left. -/
namespace ListKeeper
namespace Wire

/-- A head: its first line, and its fields with their names in lower case. -/
structure Head where
  first : String
  fields : List (String × String)

inductive Framing
  | absent
  | counted (size : Nat)
  | chunked
  | toEnd
  deriving DecidableEq

inductive Progress
  | more
  | whole (body : Bytes)
  | broken
  deriving DecidableEq

def bytesOf (s : String) : Bytes := Utf8.encode s.toList

/-- Cuts a message behind its head; `acc` holds what was read, the last first. -/
def cutHead? (acc : Bytes) : Bytes → Option (Bytes × Bytes)
  | 0x0d :: 0x0a :: 0x0d :: 0x0a :: rest => some (acc.reverse, rest)
  | 0x0a :: 0x0a :: rest => some (acc.reverse, rest)
  | b :: rest => cutHead? (b :: acc) rest
  | [] => none

def fieldOf? (line : List Char) : Option (String × String) :=
  match line.span (· != ':') with
  | (name, _ :: v) => some (Setting.lower (String.ofList name), String.ofList (trimBoth v))
  | (_, []) => none

def headOf (bs : Bytes) : Head :=
  match (pieces (· == Rules.newline) bs).map fun l => trimRight (Utf8.decodeLossy l) with
  | [] => ⟨"", []⟩
  | first :: rest => ⟨String.ofList first, rest.filterMap fieldOf?⟩

def Head.get? (h : Head) (name : String) : Option String :=
  (h.fields.find? fun f => f.1 == name).map (·.2)

def Head.words (h : Head) : List String :=
  ((pieces (· == ' ') h.first.toList).filter (· ≠ [])).map String.ofList

def Head.status? (h : Head) : Option Nat :=
  match h.words with
  | _ :: code :: _ => (readCount? 1000 code.toList).bind fun n => if 100 ≤ n then some n else none
  | _ => none

def Head.framing (h : Head) (status : Nat) : Framing :=
  if status < 200 || status = 204 || status = 304 then .absent
  else if (h.get? "transfer-encoding").any fun v => (Setting.lower v).endsWith "chunked" then
    .chunked
  else match (h.get? "content-length").bind fun v => readCount? 18446744073709551616 v.toList with
    | some n => .counted n
    | none => .toEnd

def takeLine? (bs : Bytes) : Option (List Char × Bytes) :=
  match bs.span (· != Rules.newline) with
  | (line, _ :: rest) => some (trimRight (Utf8.decodeLossy line), rest)
  | (_, []) => none

/-- The size of a chunk. What stands behind a semicolon does not count. -/
def chunkSize? (line : List Char) : Option Nat :=
  let ds := trimBoth (line.takeWhile (· != ';'))
  if ds.isEmpty || !ds.all Ipv6.isHex then none else some (Ipv6.hexValue ds)

/-- Puts chunks together up to the empty one; `acc` holds those before, the last first. -/
def dechunk : Nat → List Bytes → Bytes → Progress
  | 0, _, _ => .more
  | fuel + 1, acc, bs =>
    match takeLine? bs with
    | none => .more
    | some (line, rest) =>
      match chunkSize? line with
      | none => .broken
      | some 0 => .whole acc.reverse.flatten
      | some n =>
        if rest.length < n then .more
        else match takeLine? (rest.drop n) with
          | some ([], rest') => dechunk fuel (rest.take n :: acc) rest'
          | some _ => .broken
          | none => .more

/-- How much of a body is there; `ended` says that no more will come. -/
def Framing.body (ended : Bool) (bs : Bytes) : Framing → Progress
  | absent => .whole []
  | counted n => if n ≤ bs.length then .whole (bs.take n) else if ended then .broken else .more
  | toEnd => if ended then .whole bs else .more
  | chunked =>
    match dechunk (bs.length + 1) [] bs with
    | .more => if ended then .broken else .more
    | p => p

/-- The reply that some bytes hold, if it does not take more of them to tell. -/
def reply? (ended : Bool) (bs : Bytes) : Option Reply :=
  match cutHead? [] bs with
  | none => if ended then some .nothing else none
  | some (front, rest) =>
    let h := headOf front
    match h.status? with
    | none => some .nothing
    | some status =>
      match (h.framing status).body ended rest with
      | .more => none
      | .broken => some (.response status (h.get? "location") none)
      | .whole b => some (.response status (h.get? "location") (some b))

def lateReply (bs : Bytes) : Reply :=
  match cutHead? [] bs with
  | none => .late
  | some (front, _) =>
    let h := headOf front
    match h.status? with
    | none => .late
    | some status => .response status (h.get? "location") none

def headBytes (lines : List String) : Bytes :=
  bytesOf (String.join (lines.map (· ++ "\r\n")) ++ "\r\n")

def hostField (u : Url) : String :=
  match u.authority with
  | some a => a.host.text ++ a.portText
  | none => ""

def requestBytes (r : Request) : Bytes :=
  headBytes
    (["GET " ++ r.target ++ " HTTP/1.1", "user-agent: " ++ r.userAgent, "accept: */*"] ++
      (r.referer.map ("referer: " ++ ·)).toList ++
      ["host: " ++ hostField r.url, "connection: close"])

def reason (status : Nat) : String :=
  match status with
  | 200 => "OK"
  | 400 => "Bad Request"
  | 404 => "Not Found"
  | 405 => "Method Not Allowed"
  | _ => ""

def pageText : Page → String
  | .empty => ""
  | .text s => s
  | .document v => v.text

def responseBytes (r : Response) : Bytes :=
  let body := bytesOf (pageText r.page)
  headBytes
    (s!"HTTP/1.1 {r.status} {reason r.status}" ::
      (r.contentType.map ("content-type: " ++ ·)).toList ++
      [s!"content-length: {body.length}", "connection: close"]) ++ body

def asked? (bs : Bytes) : Option (String × String) :=
  (cutHead? [] bs).map fun m =>
    match (headOf m.1).words with
    | method :: target :: _ => (method, target)
    | _ => ("", "")

end Wire
end ListKeeper
