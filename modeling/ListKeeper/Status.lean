import ListKeeper.Entry.Document
import ListKeeper.Percent
import ListKeeper.System

/-! The status pages: the health of the program, the registered lists, one list by its id, and the
counters. All of them are read only. -/
namespace ListKeeper

inductive Page
  | empty
  | text (s : String)
  | document (v : Json)

structure Response where
  status : Nat
  contentType : Option String
  page : Page

inductive StatusError
  | notFound (what : String)

namespace StatusError

def message : StatusError → String
  | notFound what => s!"resource not found: {what}"

def code : StatusError → String
  | notFound _ => "NOT_FOUND"

def status : StatusError → Nat
  | notFound _ => 404

end StatusError

namespace Response

def json (status : Nat) (v : Json) : Response := ⟨status, some "application/json", .document v⟩

def bare (status : Nat) : Response := ⟨status, none, .empty⟩

def error (e : StatusError) : Response :=
  json e.status (.obj [("code", .str e.code), ("message", .str e.message)])

def badRequest (text : String) : Response := ⟨400, some "text/plain; charset=utf-8", .text text⟩

def withoutBody (r : Response) : Response := { r with page := .empty }

end Response

namespace Counters

def toJson (c : Counters) : Json :=
  .obj
    [("refreshes_succeeded", .ofId c.refreshesSucceeded),
      ("refreshes_failed", .ofId c.refreshesFailed),
      ("commits", .ofId c.commits), ("renames_failed", .ofId c.renamesFailed)]

end Counters

namespace Status

/-- The pages there are; the id of a list is still as it was written. -/
inductive Target
  | health
  | filters
  | filter (id : String)
  | stats
  deriving DecidableEq

/-- The path of a request's target, without the query, and without the host where it is given. -/
def pathOf (uri : List Char) : List Char :=
  let bare := uri.takeWhile fun c => c != '?' && c != '#'
  match bare with
  | '/' :: _ => bare
  | _ =>
    match bare.dropWhile (· != ':') with
    | ':' :: '/' :: '/' :: rest =>
      match rest.dropWhile (· != '/') with
      | [] => ['/']
      | path => path
    | _ => bare

def target? (path : List Char) : Option Target :=
  match pieces Location.isSlash path with
  | [[], page] =>
    if page = "health".toList then some .health
    else if page = "filters".toList then some .filters
    else if page = "stats".toList then some .stats
    else none
  | [[], page, id] =>
    if page = "filters".toList && id ≠ [] then some (.filter (String.ofList id)) else none
  | _ => none

def health (s : System) (updatesEnabled : Bool) : Response :=
  .json 200 (.obj
    [("status", .str "healthy"), ("updates_enabled", .bool updatesEnabled),
      ("filters", .ofNat s.registry.entries.length),
      ("pending_commit", .ofNat (s.registry.entries.countP fun e => e.pending.isSome))])

def filters (s : System) : Response :=
  .json 200 (.obj [("filters", .arr (s.registry.entries.map Entry.toJson))])

def filter (s : System) (id : UInt64) : Response :=
  match s.registry.getById? id with
  | some e => .json 200 e.toJson
  | none => .error (.notFound s!"filter {id}")

def stats (s : System) : Response := .json 200 s.counters.toJson

/-- An id as it stands in a path, where bytes may be written with percent signs. -/
def readId (written : String) : Except String UInt64 :=
  match Utf8.decode? (Percent.decode (Utf8.encode written.toList)) with
  -- bytes that are no text are told from a text that is no number
  | none => .error "Invalid URL: Invalid UTF-8 in \x60id\x60"
  | some cs =>
    match readCount? 18446744073709551616 cs with
    | some n => .ok (UInt64.ofNat n)
    | none =>
      .error ("Invalid URL: Cannot parse \x60" ++ String.ofList cs ++ "\x60 to a \x60u64\x60")

def page (s : System) (updatesEnabled : Bool) : Target → Response
  | .health => health s updatesEnabled
  | .filters => filters s
  | .stats => stats s
  | .filter written =>
    match readId written with
    | .ok id => filter s id
    | .error text => .badRequest text

/-- The answer to a request. Pages can be fetched, or asked for without their body. -/
def respond (s : System) (updatesEnabled : Bool) (method uri : String) : Response :=
  match target? (pathOf uri.toList) with
  | none => .bare 404
  | some target =>
    if method = "GET" then page s updatesEnabled target
    else if method = "HEAD" then (page s updatesEnabled target).withoutBody
    else .bare 405

end Status
end ListKeeper
