import ListKeeper.Proofs.Calls

/-! What the caller of an addition gets to see: how the two checks come out, the id that it takes,
its request and the answer to it, and how the write ends. What was seen up to the end is what the
outcome is read off. Main statements: `Adding.Seen.step` and `Adding.Seen.told`. -/
namespace ListKeeper

inductive Sight
  | checked (taken : Bool)
  | minted (id : UInt64)
  | requested (url : String)
  | answered (answer : Answer)
  | wrote (outcome : Except IoError Unit)
  | rechecked (taken : Bool)

namespace Sight

def id? : Sight → Option UInt64
  | minted id => some id
  | _ => none

def answers (c : Candidate) (id : UInt64) (answer : Answer) : List Sight :=
  [.checked false, .minted id, .requested c.url, .answered answer]

end Sight

def Adding.sees? (c : Candidate) (ticket : Nat) (m : Moment) (s : System) : Adding → Option Sight
  | .check => some (.checked (s.registry.taken c.name c.url))
  | .mint => some (.minted (s.ids.next m.now))
  | .fetch _ .wait => if s.gate.head? = some ticket then some (.requested c.url) else none
  | .fetch _ .exchange => some (.answered m.answer)
  | .write _ _ (.done outcome) => some (.wrote outcome)
  | .insert _ _ => some (.rechecked (s.registry.taken c.name c.url))
  | _ => none

def World.sees? (w : World) (caller : Nat) : Act → Option Sight
  | .add i m =>
    if i = caller then
      match w.adds[caller]? with
      | some (c, stage) => stage.sees? c (caller + 1) m w.system
      | none => none
    else none
  | _ => none

def Run.sights (k : Run) (caller : Nat) : List Act → List Sight
  | [] => []
  | a :: acts => (k.world.sees? caller a).toList ++ (k.step a).sights caller acts

theorem Run.sights_append (k : Run) (caller : Nat) (acts more : List Act) :
    k.sights caller (acts ++ more) =
      k.sights caller acts ++ (k.after acts).sights caller more := by
  induction acts generalizing k with
  | nil => rfl
  | cons a acts ih =>
    rw [List.cons_append, sights, ih, sights, List.append_assoc]
    rfl

namespace Answer

theorem content_eq_ok {answer : Answer} {url : String} {body : Bytes}
    (h : answer.content url = .ok body) :
    ∃ code, answer = .response code body ∧ 200 ≤ code ∧ code < 300 := by
  cases answer with
  | failure text => cases h
  | response code received =>
    simp only [content] at h
    split at h
    · rename_i haccepted
      obtain rfl := Except.ok.inj h
      exact ⟨code, rfl, by simpa [accepted] using haccepted⟩
    · cases h

/-- A request that brought nothing was not answered, or its answer had a status that refuses. -/
theorem content_eq_error {answer : Answer} {url : String} {cause : FetchError}
    (h : answer.content url = .error cause) :
    (∃ text, answer = .failure text ∧ cause = .network url text) ∨
      ∃ code body, answer = .response code body ∧ ¬ (200 ≤ code ∧ code < 300) ∧
        cause = .status url code := by
  cases answer with
  | failure text =>
    obtain rfl := Except.error.inj h
    exact .inl ⟨text, rfl, rfl⟩
  | response code received =>
    simp only [content] at h
    split at h
    · cases h
    · rename_i hrefused
      obtain rfl := Except.error.inj h
      exact .inr ⟨code, received, rfl, by simpa [accepted] using hrefused, rfl⟩

end Answer

namespace Adding

/-- What has been seen of an addition that stands at a stage. -/
inductive Seen (c : Candidate) (period : Span) : Adding → List Sight → Prop
  | check : Seen c period .check []
  | mint : Seen c period .mint [.checked false]
  | arrive (id : UInt64) : Seen c period (.fetch id .arrive) [.checked false, .minted id]
  | wait (id : UInt64) : Seen c period (.fetch id .wait) [.checked false, .minted id]
  | exchange (id : UInt64) :
    Seen c period (.fetch id .exchange) [.checked false, .minted id, .requested c.url]
  | answered (id : UInt64) (answer : Answer) :
    Seen c period (.fetch id (.done (answer.content c.url))) (Sight.answers c id answer)
  | write (id : UInt64) (answer : Answer) (body : Bytes) (w : Writing)
      (hbody : answer.content c.url = .ok body) :
    Seen c period (.write id body w) (Sight.answers c id answer)
  | insert (id : UInt64) (answer : Answer) (body : Bytes)
      (hbody : answer.content c.url = .ok body) :
    Seen c period (.insert id body) (Sight.answers c id answer ++ [.wrote (.ok ())])
  | withdraw (id : UInt64) (answer : Answer) (body : Bytes)
      (hbody : answer.content c.url = .ok body) :
    Seen c period (.withdraw id)
      (Sight.answers c id answer ++ [.wrote (.ok ()), .rechecked true])
  | refused : Seen c period (.done (.error c.duplicate)) [.checked true]
  | unfetched (id : UInt64) (answer : Answer) (cause : FetchError)
      (hcause : answer.content c.url = .error cause) :
    Seen c period (.done (.error (.ofFetch cause))) (Sight.answers c id answer)
  | unwritten (id : UInt64) (answer : Answer) (body : Bytes) (cause : IoError)
      (hbody : answer.content c.url = .ok body) :
    Seen c period (.done (.error (.io cause)))
      (Sight.answers c id answer ++ [.wrote (.error cause)])
  | doubled (id : UInt64) (answer : Answer) (body : Bytes)
      (hbody : answer.content c.url = .ok body) :
    Seen c period (.done (.error c.duplicate))
      (Sight.answers c id answer ++ [.wrote (.ok ()), .rechecked true])
  | added (id : UInt64) (answer : Answer) (body : Bytes) (now : Instant)
      (hbody : answer.content c.url = .ok body) :
    Seen c period (.done (.ok (c.entry id body now period)))
      (Sight.answers c id answer ++ [.wrote (.ok ()), .rechecked false])

/-- A step goes on from what was seen with what it lets be seen. -/
theorem Seen.step {c : Candidate} {stage : Adding} {sights : List Sight} {s : System}
    (h : stage.Seen c s.period sights) (ticket : Nat) (m : Moment) :
    (stage.step c ticket m s).2.Seen c s.period
      (sights ++ (stage.sees? c ticket m s).toList) := by
  cases h with
  | check =>
    cases htaken : s.registry.taken c.name c.url with
    | true => simpa [Adding.step, sees?, htaken] using .refused
    | false => simpa [Adding.step, sees?, htaken] using .mint
  | mint => exact .arrive (s.ids.next m.now)
  | arrive id => exact .wait id
  | wait id =>
    by_cases hturn : s.gate.head? = some ticket
    · simpa [Adding.step, Fetching.step, sees?, hturn] using .exchange id
    · simpa [Adding.step, Fetching.step, sees?, hturn] using .wait id
  | exchange id => exact .answered id m.answer
  | answered id answer =>
    cases hcontent : answer.content c.url with
    | ok body => simpa [Adding.step, sees?] using .write id answer body .create hcontent
    | error cause => simpa [Adding.step, sees?] using .unfetched id answer cause hcontent
  | write id answer body w hbody =>
    cases w with
    | done outcome =>
      cases outcome with
      | ok u => exact .insert id answer body hbody
      | error cause => exact .unwritten id answer body cause hbody
    | _ => simpa [Adding.step, sees?] using .write id answer body _ hbody
  | insert id answer body hbody =>
    cases htaken : s.registry.taken c.name c.url with
    | true => simpa [Adding.step, sees?, htaken] using .withdraw id answer body hbody
    | false => simpa [Adding.step, sees?, htaken] using .added id answer body m.now hbody
  | withdraw id answer body hbody =>
    simpa [Adding.step, sees?] using .doubled id answer body hbody
  | refused => exact .refused
  | unfetched id answer cause hcause =>
    simpa [Adding.step, sees?] using .unfetched id answer cause hcause
  | unwritten id answer body cause hbody =>
    simpa [Adding.step, sees?] using .unwritten id answer body cause hbody
  | doubled id answer body hbody =>
    simpa [Adding.step, sees?] using .doubled id answer body hbody
  | added id answer body now hbody =>
    simpa [Adding.step, sees?] using .added id answer body now hbody

/-- An addition that has not ended holds the id that was seen to be taken. -/
theorem Seen.minted_iff {c : Candidate} {period : Span} {stage : Adding} {sights : List Sight}
    (h : stage.Seen c period sights) (hopen : stage.outcome? = none) (id : UInt64) :
    .minted id ∈ sights ↔ stage.id? = some id := by
  cases h with
  | check => simp [id?]
  | mint => simp [id?]
  | refused => cases hopen
  | unfetched => cases hopen
  | unwritten => cases hopen
  | doubled => cases hopen
  | added => cases hopen
  | _ => simp [Sight.answers, id?, eq_comm]

/-- An addition that puts its entry in has its content. -/
theorem Seen.of_insert {c : Candidate} {period : Span} {id : UInt64} {body : Bytes}
    {sights : List Sight} (h : Seen c period (.insert id body) sights) :
    ∃ answer : Answer, answer.content c.url = .ok body ∧
      sights = Sight.answers c id answer ++ [.wrote (.ok ())] := by
  cases h with
  | insert id answer body hbody => exact ⟨answer, hbody, rfl⟩

/-! ### What the outcome is read off -/

section

variable {c : Candidate} {period : Span} {outcome : Except SyncError Entry} {sights : List Sight}

theorem Seen.duplicate_iff (h : Seen c period (.done outcome) sights) (name url : String) :
    outcome = .error (.duplicate name url) ↔
      (name = c.name ∧ url = c.url) ∧ (.checked true ∈ sights ∨ .rechecked true ∈ sights) := by
  cases h with
  | unfetched id answer cause hcause =>
    cases cause <;> simp [Sight.answers, SyncError.ofFetch]
  | _ => simp [Sight.answers, Candidate.duplicate, eq_comm]

/-- What is refused at its first check sees nothing else. -/
theorem Seen.eq_of_taken (h : Seen c period (.done outcome) sights)
    (htaken : .checked true ∈ sights) : sights = [.checked true] := by
  cases h with
  | refused => rfl
  | _ => simp [Sight.answers] at htaken

theorem Seen.network_iff (h : Seen c period (.done outcome) sights) (text : String) :
    outcome = .error (.network text) ↔
      .checked false ∈ sights ∧
        ∃ message, .answered (.failure message) ∈ sights ∧ text = s!"{c.url}: {message}" := by
  cases h with
  | refused => simp [Candidate.duplicate]
  | unfetched id answer cause hcause =>
    rcases Answer.content_eq_error hcause with ⟨message, rfl, rfl⟩ | ⟨code, body, rfl, -, rfl⟩
    · simp [Sight.answers, SyncError.ofFetch, eq_comm]
    · simp [Sight.answers, SyncError.ofFetch]
  | _ =>
    rename_i hbody
    obtain ⟨code, rfl, -⟩ := Answer.content_eq_ok hbody
    simp [Sight.answers, Candidate.duplicate]

theorem Seen.status_iff (h : Seen c period (.done outcome) sights) (url : String) (code : Nat) :
    outcome = .error (.status url code) ↔
      url = c.url ∧
        ∃ body, .answered (.response code body) ∈ sights ∧ ¬ (200 ≤ code ∧ code < 300) := by
  cases h with
  | refused => simp [Candidate.duplicate]
  | unfetched id answer cause hcause =>
    rcases Answer.content_eq_error hcause with ⟨message, rfl, rfl⟩ | ⟨code', body, rfl, hno, rfl⟩
    · simp [Sight.answers, SyncError.ofFetch]
    · constructor
      · intro heq
        obtain ⟨rfl, rfl⟩ : c.url = url ∧ code' = code := by simpa [SyncError.ofFetch] using heq
        exact ⟨rfl, body, by simp [Sight.answers], hno⟩
      · rintro ⟨rfl, body', hmem, -⟩
        obtain ⟨rfl, -⟩ : code = code' ∧ body' = body := by simpa [Sight.answers] using hmem
        rfl
  | _ =>
    rename_i hbody
    obtain ⟨code', rfl, hlow, hhigh⟩ := Answer.content_eq_ok hbody
    constructor
    · intro heq
      simp [Candidate.duplicate] at heq
    · rintro ⟨-, body', hmem, hno⟩
      obtain ⟨rfl, -⟩ : code = code' ∧ body' = _ := by simpa [Sight.answers] using hmem
      exact absurd ⟨hlow, hhigh⟩ hno

theorem Seen.io_iff (h : Seen c period (.done outcome) sights) (cause : IoError) :
    outcome = .error (.io cause) ↔ .wrote (.error cause) ∈ sights := by
  cases h with
  | unfetched id answer cause hcause => cases cause <;> simp [Sight.answers, SyncError.ofFetch]
  | _ => simp [Sight.answers, Candidate.duplicate, eq_comm]

/-- A second check comes after a download and a write that went well. -/
theorem Seen.of_rechecked (h : Seen c period (.done outcome) sights) (taken : Bool)
    (hmem : .rechecked taken ∈ sights) :
    (∃ code body, .answered (.response code body) ∈ sights ∧ 200 ≤ code ∧ code < 300) ∧
      .wrote (.ok ()) ∈ sights := by
  have hwrote (id : UInt64) (answer : Answer) (body : Bytes) (taken : Bool)
      (hbody : answer.content c.url = .ok body) :
      (∃ code body, .answered (.response code body) ∈
          Sight.answers c id answer ++ [.wrote (.ok ()), .rechecked taken] ∧
          200 ≤ code ∧ code < 300) ∧
        .wrote (.ok ()) ∈ Sight.answers c id answer ++ [.wrote (.ok ()), .rechecked taken] := by
    obtain ⟨code, rfl, hcode⟩ := Answer.content_eq_ok hbody
    exact ⟨⟨code, body, by simp [Sight.answers], hcode⟩, by simp⟩
  cases h with
  | doubled id answer body hbody => exact hwrote id answer body true hbody
  | added id answer body now hbody => exact hwrote id answer body false hbody
  | _ => simp [Sight.answers] at hmem

end

end Adding

/-- An outcome is what the caller of an addition saw. -/
structure Told (c : Candidate) (outcome : Except SyncError Entry) (sights : List Sight) : Prop where
  /-- The name or the url is taken, at the first check or at the second. -/
  duplicate : ∀ name url, outcome = .error (.duplicate name url) ↔
    (name = c.name ∧ url = c.url) ∧ (.checked true ∈ sights ∨ .rechecked true ∈ sights)
  /-- What is refused at the first check takes no id and requests nothing. -/
  first : .checked true ∈ sights → sights = [.checked true]
  /-- The second check comes when the list is fetched and written. -/
  second : ∀ taken, .rechecked taken ∈ sights →
    (∃ code body, .answered (.response code body) ∈ sights ∧ 200 ≤ code ∧ code < 300) ∧
      .wrote (.ok ()) ∈ sights
  network : ∀ text, outcome = .error (.network text) ↔
    .checked false ∈ sights ∧
      ∃ message, .answered (.failure message) ∈ sights ∧ text = s!"{c.url}: {message}"
  status : ∀ url code, outcome = .error (.status url code) ↔
    url = c.url ∧ ∃ body, .answered (.response code body) ∈ sights ∧ ¬ (200 ≤ code ∧ code < 300)
  io : ∀ cause, outcome = .error (.io cause) ↔ .wrote (.error cause) ∈ sights

theorem Adding.Seen.told {c : Candidate} {period : Span} {outcome : Except SyncError Entry}
    {sights : List Sight} (h : Seen c period (.done outcome) sights) : Told c outcome sights :=
  ⟨h.duplicate_iff, h.eq_of_taken, h.of_rechecked, h.network_iff, h.status_iff, h.io_iff⟩

end ListKeeper
