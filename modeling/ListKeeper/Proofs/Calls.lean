import ListKeeper.Proofs.Queue
import ListKeeper.Proofs.RoleSteps

/-! Calls to the registry and what they come to. Any number of additions and deletions act at the
same time; a history notes when each was called for, when it returned, and with what verdict. Beside
it stands what a call does when nothing comes between: `Call.perform`, on the rows that the registry
shows, and `Run.Alone`, by the steps of the program itself. Main statement: `History.Kept.step`, by
which the times of a history stay in order. -/
namespace ListKeeper

/-- A call to the registry. -/
inductive Call
  | add (c : Candidate)
  | delete (url : String)
  deriving DecidableEq

inductive Verdict
  | added (name url : String) (ruleCount : UInt64)
  | failed (cause : SyncError)
  | removed (list : Option (String × String))
  deriving DecidableEq

namespace Verdict

def ofOutcome : Except SyncError Entry → Verdict
  | .ok e => .added e.name e.url e.ruleCount
  | .error cause => .failed cause

def ofRemoved (e : Option Entry) : Verdict := .removed (e.map fun e => (e.name, e.url))

end Verdict

/-- What the registry shows of a list, ids and times aside. -/
structure Row where
  name : String
  url : String
  enabled : Bool
  ruleCount : UInt64
  deriving DecidableEq

def Entry.row (e : Entry) : Row := ⟨e.name, e.url, e.enabled, e.ruleCount⟩

def World.rows (w : World) : List Row := w.entries.map Entry.row

namespace Call

def perform (transport : String → Answer) (rows : List Row) : Call → Verdict × List Row
  | .add c =>
    if rows.any fun r => r.name == c.name || r.url == c.url then (.failed c.duplicate, rows)
    else
      match (transport c.url).content c.url with
      | .error cause => (.failed (.ofFetch cause), rows)
      | .ok body =>
        (.added c.name c.url (Rules.recorded body),
          rows ++ [⟨c.name, c.url, true, Rules.recorded body⟩])
  | .delete url =>
    (.removed ((rows.find? fun r => r.url == url).map fun r => (r.name, r.url)),
      rows.eraseP fun r => r.url == url)

def performAll (transport : String → Answer) : List Row → List Call → List Verdict × List Row
  | rows, [] => ([], rows)
  | rows, call :: calls =>
    let (verdict, rows') := perform transport rows call
    let (verdicts, rows'') := performAll transport rows' calls
    (verdict :: verdicts, rows'')

theorem performAll_append (transport : String → Answer) (rows : List Row) (calls more : List Call) :
    performAll transport rows (calls ++ more) =
      ((performAll transport rows calls).1 ++
          (performAll transport (performAll transport rows calls).2 more).1,
        (performAll transport (performAll transport rows calls).2 more).2) := by
  induction calls generalizing rows with
  | nil => rfl
  | cons call calls ih => simp only [List.cons_append, performAll, ih]

end Call

namespace Registry

variable (r : Registry) (transport : String → Answer) (c : Candidate)

theorem taken_eq (name url : String) :
    r.taken name url = (r.entries.map Entry.row).any fun x => x.name == name || x.url == url := by
  rw [List.any_map]
  rfl

theorem perform_taken (h : r.taken c.name c.url = true) :
    Call.perform transport (r.entries.map Entry.row) (.add c) =
      (.failed c.duplicate, r.entries.map Entry.row) := by
  rw [taken_eq] at h
  simp only [Call.perform, h, ↓reduceIte]

theorem perform_refused (h : r.taken c.name c.url = false) (cause : FetchError)
    (hcontent : (transport c.url).content c.url = .error cause) :
    Call.perform transport (r.entries.map Entry.row) (.add c) =
      (.failed (.ofFetch cause), r.entries.map Entry.row) := by
  rw [taken_eq] at h
  simp only [Call.perform, h, hcontent, Bool.false_eq_true, ↓reduceIte]

theorem perform_added (h : r.taken c.name c.url = false) (body : Bytes)
    (hcontent : (transport c.url).content c.url = .ok body) (id : UInt64) (now : Instant)
    (period : Span) :
    Call.perform transport (r.entries.map Entry.row) (.add c) =
      (.ofOutcome (.ok (c.entry id body now period)),
        (r.append (c.entry id body now period)).entries.map Entry.row) := by
  rw [taken_eq] at h
  simp only [Call.perform, h, hcontent, Bool.false_eq_true, ↓reduceIte, append, List.map_append]
  rfl

end Registry

/-- A deletion does to the rows what it should. -/
theorem System.delete_rows (s : System) (transport : String → Answer) (url : String) :
    Call.perform transport (s.registry.entries.map Entry.row) (.delete url) =
      (.ofRemoved (s.delete url).1, (s.delete url).2.registry.entries.map Entry.row) := by
  have hfind : (s.registry.entries.map Entry.row).find? (fun r => r.url == url) =
      (s.registry.get? url).map Entry.row := List.find?_map
  have herase : (s.registry.entries.map Entry.row).eraseP (fun r => r.url == url) =
      (s.registry.delete url).entries.map Entry.row := List.eraseP_map
  simp only [Call.perform, hfind, herase, delete]
  cases hget : s.registry.get? url with
  | none =>
    -- nothing is taken away where nothing is found
    have hnone : s.registry.delete url = s.registry := by
      have hno := List.find?_eq_none.mp hget
      rw [Registry.delete, List.eraseP_of_forall_not hno]
    simp [Verdict.ofRemoved, hnone]
  | some e => rfl

def Adding.outcome? : Adding → Option (Except SyncError Entry)
  | .done outcome => some outcome
  | _ => none

theorem Adding.outcome?_eq_some {stage : Adding} {outcome : Except SyncError Entry}
    (h : stage.outcome? = some outcome) : stage = .done outcome := by
  cases stage with
  | done outcome' => exact congrArg Adding.done (Option.some.inj h)
  | _ => cases h

/-- A call that has returned: what it was told, when it was called for and when it returned, and the
id that it had taken. -/
structure Visit where
  call : Call
  verdict : Verdict
  called : Nat
  returned : Nat
  id : Option UInt64

/-- A run with the calls that have returned so far. The clock counts acts; each addition has the
time at which it was called for. -/
structure History where
  run : Run
  clock : Nat
  called : List Nat
  visits : List Visit

namespace History

def returns? (h : History) : Act → Option Visit
  | .add caller m =>
    match h.run.world.adds[caller]?, h.called[caller]? with
    | some (c, stage), some called =>
      match stage.outcome?, (stage.step c (caller + 1) m h.run.world.system).2.outcome? with
      | none, some outcome => some ⟨.add c, .ofOutcome outcome, called, h.clock, stage.id?⟩
      | _, _ => none
    | _, _ => none
  | .delete url =>
    some ⟨.delete url, .ofRemoved (h.run.world.system.delete url).1, h.clock, h.clock, none⟩
  | _ => none

def step (h : History) (a : Act) : History where
  run := h.run.step a
  clock := h.clock + 1
  called :=
    match a with
    | .call _ => h.called ++ [h.clock]
    | _ => h.called
  visits := h.visits ++ (h.returns? a).toList

def after (h : History) (acts : List Act) : History := acts.foldl step h

theorem run_after (h : History) (acts : List Act) : (h.after acts).run = h.run.after acts := by
  induction acts generalizing h with
  | nil => rfl
  | cons a acts ih => exact ih (h.step a)

/-- A run in which nothing has returned yet. The additions of its past have times before all that
comes. -/
def start (k : Run) : History := ⟨k, k.world.adds.length, List.range k.world.adds.length, []⟩

end History

/-- An act of a caller to whom the transport answers and for whom the disk works. -/
def World.Serves (w : World) (transport : String → Answer) : Act → Prop
  | .call _ => True
  | .add caller m => m.disk.fault = none ∧
    ∀ c id, w.adds[caller]? = some (c, .fetch id .exchange) → m.answer = transport c.url
  | .delete _ => True
  | _ => False

namespace Run

def Served (k : Run) (transport : String → Answer) : List Act → Prop
  | [] => True
  | a :: acts => k.world.Serves transport a ∧ (k.step a).Served transport acts

def visits (k : Run) (acts : List Act) : List Visit := ((History.start k).after acts).visits

inductive Alone (transport : String → Answer) (k : Run) : Call → Verdict → Run → Prop
  | add (c : Candidate) (ms : List Moment) (outcome : Except SyncError Entry)
      (hserved : (k.step (.call c)).Served transport (ms.map (.add k.world.adds.length)))
      (hdone : ((k.step (.call c)).after (ms.map (.add k.world.adds.length))).world.adds =
        k.world.adds ++ [(c, .done outcome)]) :
    Alone transport k (.add c) (.ofOutcome outcome)
      ((k.step (.call c)).after (ms.map (.add k.world.adds.length)))
  | delete (url : String) :
    Alone transport k (.delete url) (.ofRemoved (k.world.system.delete url).1)
      (k.step (.delete url))

/-- Calls are carried out one after the other, and get the verdicts that they got. -/
inductive InTurn (transport : String → Answer) : Run → List Visit → Run → Prop
  | nil (k : Run) : InTurn transport k [] k
  | cons (k k' k'' : Run) (v : Visit) (vs : List Visit) (h : k.Alone transport v.call v.verdict k')
      (hrest : InTurn transport k' vs k'') : InTurn transport k (v :: vs) k''

end Run

/-! ### Steps of additions -/

namespace History

variable {h : History}

/-- An addition that has not ended takes a step, with which the system goes on to `s'` and the
addition to `stage'`. -/
structure AddStep (h : History) (caller : Nat) (m : Moment) (c : Candidate) (stage : Adding)
    (s' : System) (stage' : Adding) : Prop where
  add : h.run.world.adds[caller]? = some (c, stage)
  opened : stage.outcome? = none
  step : stage.step c (caller + 1) m h.run.world.system = (s', stage')

theorem step_adds (h : History) (caller : Nat) (m : Moment) (c : Candidate) (stage : Adding)
    (hadd : h.run.world.adds[caller]? = some (c, stage)) :
    (h.step (.add caller m)).run.world.adds =
      h.run.world.adds.set caller (c, (stage.step c (caller + 1) m h.run.world.system).2) := by
  simp only [step, Run.step, World.step, hadd]

/-- Nothing happens where there is no addition or where it has ended. -/
theorem still_or_step (h : History) (caller : Nat) (m : Moment) :
    (h.step (.add caller m)).run.world = h.run.world ∧ h.returns? (.add caller m) = none ∨
      ∃ c stage s' stage', h.AddStep caller m c stage s' stage' := by
  cases hadd : h.run.world.adds[caller]? with
  | none =>
    left
    exact ⟨by simp only [step, Run.step, World.step, hadd], by simp only [returns?, hadd]⟩
  | some q =>
    obtain ⟨c, stage⟩ := q
    cases hout : stage.outcome? with
    | none => exact .inr ⟨c, stage, _, _, hadd, hout, rfl⟩
    | some outcome =>
      left
      obtain rfl := Adding.outcome?_eq_some hout
      obtain ⟨hlen, hget⟩ := List.getElem?_eq_some_iff.mp hadd
      have hset : h.run.world.adds.set caller (c, .done outcome) = h.run.world.adds := by
        rw [← hget, List.set_getElem_self]
      constructor
      · simp only [step, Run.step, World.step, hadd, Adding.step, hset]
      · cases hcalled : h.called[caller]? <;> simp [returns?, hadd, hcalled, hout]

namespace AddStep

variable {caller : Nat} {m : Moment} {c : Candidate} {stage stage' : Adding} {s' : System}

theorem system (hs : h.AddStep caller m c stage s' stage') :
    (h.step (.add caller m)).run.world.system = s' := by
  simp only [History.step, Run.step, World.step, hs.add, hs.step]

theorem adds (hs : h.AddStep caller m c stage s' stage') :
    (h.step (.add caller m)).run.world.adds = h.run.world.adds.set caller (c, stage') := by
  rw [h.step_adds caller m c stage hs.add, hs.step]

theorem adds_cases (hs : h.AddStep caller m c stage s' stage') (i : Nat) (q : Candidate × Adding)
    (hi : (h.step (.add caller m)).run.world.adds[i]? = some q) :
    (caller = i ∧ q = (c, stage')) ∨ (caller ≠ i ∧ h.run.world.adds[i]? = some q) := by
  rw [hs.adds] at hi
  exact World.getElem?_set_cases _ _ _ _ _ hi

theorem returns?_eq (hs : h.AddStep caller m c stage s' stage') (called : Nat)
    (hcalled : h.called[caller]? = some called) :
    h.returns? (.add caller m) = stage'.outcome?.map fun outcome =>
      ⟨.add c, .ofOutcome outcome, called, h.clock, stage.id?⟩ := by
  simp only [returns?, hs.add, hcalled, hs.opened, hs.step]
  cases stage'.outcome? <;> rfl

/-- What returns in the step is the addition, which has come to its end. -/
theorem of_returns? (hs : h.AddStep caller m c stage s' stage') (v : Visit)
    (hv : h.returns? (.add caller m) = some v) :
    ∃ called outcome, h.called[caller]? = some called ∧ stage' = .done outcome ∧
      v = ⟨.add c, .ofOutcome outcome, called, h.clock, stage.id?⟩ := by
  cases hcalled : h.called[caller]? with
  | none => simp [returns?, hs.add, hcalled] at hv
  | some called =>
    rw [hs.returns?_eq called hcalled, Option.map_eq_some_iff] at hv
    obtain ⟨outcome, hout, rfl⟩ := hv
    exact ⟨called, outcome, rfl, Adding.outcome?_eq_some hout, rfl⟩

theorem visit_mem (hs : h.AddStep caller m c stage s' stage') (called : Nat)
    (hcalled : h.called[caller]? = some called) (outcome : Except SyncError Entry)
    (hdone : stage' = .done outcome) :
    (⟨.add c, .ofOutcome outcome, called, h.clock, stage.id?⟩ : Visit) ∈
      (h.step (.add caller m)).visits := by
  refine List.mem_append_right _ ?_
  simp [hs.returns?_eq called hcalled, hdone, Adding.outcome?]

end AddStep

end History

/-! ### Times -/

namespace History

/-- The times of a history fit together, and every call returns once. -/
structure Kept (h : History) : Prop where
  length : h.called.length = h.run.world.adds.length
  early : ∀ t ∈ h.called, t < h.clock
  nodup : h.called.Nodup
  returned : ∀ v ∈ h.visits, v.called ≤ v.returned ∧ v.returned < h.clock
  once : (h.visits.map (·.called)).Nodup
  underway : ∀ (i t : Nat) (c : Candidate) (stage : Adding), h.called[i]? = some t →
    h.run.world.adds[i]? = some (c, stage) → stage.outcome? = none → ∀ v ∈ h.visits, v.called ≠ t

variable {h : History}

theorem Kept.exists_called (hk : h.Kept) (caller : Nat) (q : Candidate × Adding)
    (hadd : h.run.world.adds[caller]? = some q) : ∃ called, h.called[caller]? = some called :=
  ⟨_, List.getElem?_eq_getElem (hk.length ▸ (List.getElem?_eq_some_iff.mp hadd).1)⟩

/-- A call that has just returned is new among those that have. -/
theorem Kept.returns (hk : h.Kept) (a : Act) (v : Visit) (hv : h.returns? a = some v) :
    v.called ≤ v.returned ∧ v.returned = h.clock ∧ ∀ v' ∈ h.visits, v'.called ≠ v.called := by
  cases a with
  | add caller m =>
    rcases h.still_or_step caller m with ⟨-, hno⟩ | ⟨c, stage, s', stage', hs⟩
    · rw [hno] at hv
      cases hv
    · obtain ⟨called, outcome, hcalled, -, rfl⟩ := hs.of_returns? v hv
      have hearly := hk.early called (List.mem_of_getElem? hcalled)
      exact ⟨Nat.le_of_lt hearly, rfl, hk.underway caller called c stage hcalled hs.add hs.opened⟩
  | delete url =>
    obtain rfl := (Option.some.inj hv).symm
    refine ⟨Nat.le_refl _, rfl, fun v' hv' => ?_⟩
    have hbefore := hk.returned v' hv'
    change v'.called ≠ h.clock
    omega
  | _ => cases hv

/-- An addition that is under way after an act was so before, or it is new, and it did not return.
-/
theorem Kept.underway_before (hk : h.Kept) (a : Act) (i t : Nat) (c : Candidate) (stage : Adding)
    (hcalled : (h.step a).called[i]? = some t)
    (hadd : (h.step a).run.world.adds[i]? = some (c, stage)) (hopen : stage.outcome? = none) :
    (t = h.clock ∧ h.returns? a = none ∨
      ∃ stage', h.called[i]? = some t ∧ h.run.world.adds[i]? = some (c, stage') ∧
        stage'.outcome? = none) ∧
      ∀ v, h.returns? a = some v → v.called ≠ t := by
  cases a with
  | call c' =>
    refine ⟨?_, fun v hv => by cases hv⟩
    by_cases hlt : i < h.called.length
    · have hlt' : i < h.run.world.adds.length := hk.length ▸ hlt
      change (h.called ++ [h.clock])[i]? = some t at hcalled
      change (h.run.world.adds ++ [(c', .check)])[i]? = some (c, stage) at hadd
      rw [List.getElem?_append_left hlt] at hcalled
      rw [List.getElem?_append_left hlt'] at hadd
      exact .inr ⟨stage, hcalled, hadd, hopen⟩
    · change (h.called ++ [h.clock])[i]? = some t at hcalled
      rw [List.getElem?_append_right (by omega), List.getElem?_singleton] at hcalled
      split at hcalled
      · exact .inl ⟨(Option.some.inj hcalled).symm, rfl⟩
      · cases hcalled
  | add caller m =>
    have hcalled' : h.called[i]? = some t := hcalled
    rcases h.still_or_step caller m with ⟨hsame, hno⟩ | ⟨c', stage', s'', stage'', hs⟩
    · rw [hsame] at hadd
      refine ⟨.inr ⟨stage, hcalled', hadd, hopen⟩, fun v hv => ?_⟩
      rw [hno] at hv
      cases hv
    · rcases hs.adds_cases i _ hadd with ⟨rfl, heq⟩ | ⟨hne, hold⟩
      · obtain ⟨rfl, rfl⟩ := Prod.mk.inj heq
        refine ⟨.inr ⟨stage', hcalled', hs.add, hs.opened⟩, fun v hv => ?_⟩
        obtain ⟨called, outcome, -, rfl, -⟩ := hs.of_returns? v hv
        cases hopen
      · refine ⟨.inr ⟨stage, hcalled', hold, hopen⟩, ?_⟩
        rintro v hv rfl
        obtain ⟨called, outcome, hcaller, -, rfl⟩ := hs.of_returns? v hv
        have hlen := (List.getElem?_eq_some_iff.mp hcaller).1
        exact hne ((List.getElem?_inj hlen hk.nodup).mp (hcaller.trans hcalled'.symm))
  | delete url =>
    obtain ⟨es, journal, heq, -⟩ := h.run.world.system.delete_eq url
    have hadd' : h.run.world.adds[i]? = some (c, stage) := hadd
    refine ⟨.inr ⟨stage, hcalled, hadd', hopen⟩, ?_⟩
    rintro v hv rfl
    obtain rfl := (Option.some.inj hv).symm
    exact Nat.lt_irrefl _ (hk.early _ (List.mem_of_getElem? hcalled))
  | startPass =>
    have hsame : (h.step .startPass).run.world.adds = h.run.world.adds := by
      simp only [History.step, Run.step, World.step]
      split <;> rfl
    rw [hsame] at hadd
    exact ⟨.inr ⟨stage, hcalled, hadd, hopen⟩, fun v hv => by cases hv⟩
  | refresh m => exact ⟨.inr ⟨stage, hcalled, hadd, hopen⟩, fun v hv => by cases hv⟩

/-- Every act keeps the times in order. -/
theorem Kept.step (hk : h.Kept) (a : Act) : (h.step a).Kept := by
  have hreturns := hk.returns a
  have hcalls : (h.step a).called = h.called ∨ (h.step a).called = h.called ++ [h.clock] := by
    cases a with
    | call c => exact .inr rfl
    | _ => exact .inl rfl
  refine ⟨?length, ?early, ?nodup, ?returned, ?once, ?underway⟩
  case length =>
    cases a with
    | call c => simp [History.step, Run.step, World.step, hk.length]
    | add caller m =>
      change h.called.length = (h.run.world.step (.add caller m)).adds.length
      simp only [World.step]
      split <;> simp [hk.length]
    | startPass =>
      change h.called.length = (h.run.world.step .startPass).adds.length
      simp only [World.step]
      split <;> exact hk.length
    | _ => exact hk.length
  case early =>
    intro t ht
    change t < h.clock + 1
    rcases hcalls with hsame | hmore
    · rw [hsame] at ht
      exact Nat.lt_succ_of_lt (hk.early t ht)
    · rw [hmore, List.mem_append, List.mem_singleton] at ht
      rcases ht with ht | rfl
      · exact Nat.lt_succ_of_lt (hk.early t ht)
      · exact Nat.lt_succ_self _
  case nodup =>
    rcases hcalls with hsame | hmore
    · rw [hsame]
      exact hk.nodup
    · rw [hmore, List.nodup_append]
      refine ⟨hk.nodup, by simp, ?_⟩
      intro t ht t' ht'
      rw [List.mem_singleton.mp ht']
      exact Nat.ne_of_lt (hk.early t ht)
  case returned =>
    intro v hv
    change v.called ≤ v.returned ∧ v.returned < h.clock + 1
    rcases List.mem_append.mp hv with hv | hv
    · obtain ⟨hle, hlt⟩ := hk.returned v hv
      exact ⟨hle, Nat.lt_succ_of_lt hlt⟩
    · obtain ⟨hle, heq, -⟩ := hreturns v (Option.mem_toList.mp hv)
      exact ⟨hle, heq ▸ Nat.lt_succ_self _⟩
  case once =>
    change ((h.visits ++ (h.returns? a).toList).map (·.called)).Nodup
    rw [List.map_append, List.nodup_append]
    refine ⟨hk.once, by cases h.returns? a <;> simp, ?_⟩
    rintro t ht t' ht' rfl
    obtain ⟨v, hv, rfl⟩ := List.mem_map.mp ht
    obtain ⟨v', hv', heq⟩ := List.mem_map.mp ht'
    exact (hreturns v' (Option.mem_toList.mp hv')).2.2 v hv heq.symm
  case underway =>
    intro i t c stage hcalled hadd hopen v hv
    obtain ⟨hbefore, hnew⟩ := hk.underway_before a i t c stage hcalled hadd hopen
    rcases List.mem_append.mp hv with hv | hv
    · rcases hbefore with ⟨rfl, -⟩ | ⟨stage', hcalled', hadd', hopen'⟩
      · have hearlier := hk.returned v hv
        omega
      · exact hk.underway i t c stage' hcalled' hadd' hopen' v hv
    · exact hnew v (Option.mem_toList.mp hv)

end History

end ListKeeper
