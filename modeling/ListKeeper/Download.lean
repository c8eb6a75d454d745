import ListKeeper.Rules
import ListKeeper.FileTree

/-! Fetching a list. One request is made, and its answer is the list's content, a status that
refuses it, or no answer at all; nothing is tried again. -/
namespace ListKeeper

inductive Answer
  | response (status : Nat) (body : Bytes)
  | failure (message : String)
  deriving DecidableEq

inductive FetchError
  | network (url message : String)
  | status (url : String) (code : Nat)
  deriving DecidableEq

inductive SyncError
  | duplicate (name url : String)
  | network (message : String)
  | status (url : String) (code : Nat)
  | io (cause : IoError)
  deriving DecidableEq

inductive ConsumerError
  | close (message : String)
  | restart (message : String)
  deriving DecidableEq

namespace FetchError

def message : FetchError → String
  | network url text => s!"request to {url} failed: {text}"
  | status url code => s!"unexpected HTTP status {code} from {url}"

end FetchError

namespace SyncError

def message : SyncError → String
  | duplicate name url => s!"filter with name '{name}' or url '{url}' already exists"
  | network text => s!"network error: {text}"
  | status url code => s!"unexpected HTTP status {code} from {url}"
  | io cause => s!"I/O error: {cause.message}"

def ofFetch : FetchError → SyncError
  | .network url text => .network s!"{url}: {text}"
  | .status url code => .status url code

end SyncError

namespace ConsumerError

def message : ConsumerError → String
  | close text => s!"failed to stop consumer: {text}"
  | restart text => s!"failed to restart consumer: {text}"

end ConsumerError

namespace Answer

/-- An answer is accepted if its status lies from 200 to 299. -/
def accepted (status : Nat) : Bool := 200 ≤ status && status < 300

def content (url : String) : Answer → Except FetchError Bytes
  | .failure text => .error (.network url text)
  | .response code body => if accepted code then .ok body else .error (.status url code)

end Answer
end ListKeeper
