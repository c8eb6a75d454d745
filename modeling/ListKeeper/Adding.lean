import ListKeeper.System

/-! Adding a list. The list is fetched into its own file before its entry can be seen; name and url
are checked before the download and once more when the entry is put in. -/
namespace ListKeeper

structure Candidate where
  name : String
  url : String
  deriving DecidableEq

/-- How far an addition has come. -/
inductive Adding
  | check
  | mint
  | fetch (id : UInt64) (f : Fetching)
  | write (id : UInt64) (body : Bytes) (w : Writing)
  | insert (id : UInt64) (body : Bytes)
  | withdraw (id : UInt64)
  | done (outcome : Except SyncError Entry)

namespace Candidate

def duplicate (c : Candidate) : SyncError := .duplicate c.name c.url

def entry (c : Candidate) (id : UInt64) (body : Bytes) (now : Instant) (period : Span) : Entry :=
  { id := id, enabled := true, name := c.name, url := c.url, ruleCount := Rules.recorded body,
    lastUpdated := now, nextUpdate := now.deadline period, pending := none }

end Candidate

namespace Adding

def step (c : Candidate) (ticket : Nat) (m : Moment) (s : System) : Adding → System × Adding
  | .check =>
    if s.registry.taken c.name c.url then (s, .done (.error c.duplicate)) else (s, .mint)
  | .mint =>
    let (id, s') := s.mint m.now
    (s', .fetch id .arrive)
  | .fetch id (.done (.ok body)) => (s, .write id body .create)
  | .fetch _ (.done (.error e)) => (s, .done (.error (.ofFetch e)))
  | .fetch id f =>
    let (s', f') := f.step c.url ticket m s
    (s', .fetch id f')
  | .write id body (.done (.ok ())) => (s, .insert id body)
  | .write _ _ (.done (.error e)) => (s, .done (.error (.io e)))
  | .write id body w =>
    let (s', w') := s.write m id body w
    (s', .write id body w')
  -- the name and the url were free at the first check, and are looked at once more
  | .insert id body =>
    if s.registry.taken c.name c.url then (s, .withdraw id)
    else
      let e := c.entry id body m.now s.period
      ({ s with registry := s.registry.append e }.note (.added e), .done (.ok e))
  | .withdraw id => (s.discard m.disk id, .done (.error c.duplicate))
  | .done outcome => (s, .done outcome)

end Adding
end ListKeeper
