import ListKeeper.Proofs.Admission
import ListKeeper.Proofs.Calls

/-! When a call takes effect. A deletion does so in its one step. An addition that is refused at its
first check, or whose download will fail, does so at that check, and every other one where it looks
again, at the moment of which its entry is put in or not. Main statements: `History.Linear.step`, by
which what has taken effect so far explains the rows, and `History.Linear.order` for a history whose
calls have all returned. -/
namespace ListKeeper

/-- A call that has taken effect: when it was called for, and when it did. -/
structure Mark where
  call : Call
  verdict : Verdict
  called : Nat
  time : Nat

/-- The call that was called for at a time has taken effect so. -/
def Marked (marks : List Mark) (called : Nat) (call : Call) (verdict : Verdict) : Prop :=
  ∃ m ∈ marks, m.called = called ∧ m.call = call ∧ m.verdict = verdict

def Unmarked (marks : List Mark) (called : Nat) : Prop := ∀ m ∈ marks, m.called ≠ called

theorem Marked.append {marks new : List Mark} {called : Nat} {call : Call} {verdict : Verdict}
    (h : Marked marks called call verdict) : Marked (marks ++ new) called call verdict := by
  obtain ⟨m, hm, heq⟩ := h
  exact ⟨m, List.mem_append_left _ hm, heq⟩

theorem Unmarked.append {marks new : List Mark} {called : Nat} (h : Unmarked marks called)
    (hnew : ∀ m ∈ new, m.called ≠ called) : Unmarked (marks ++ new) called := by
  intro m hm
  rcases List.mem_append.mp hm with hm | hm
  · exact h m hm
  · exact hnew m hm

/-- A candidate that passed its first check has failed there and then if its download will. -/
def Candidate.Checked (transport : String → Answer) (marks : List Mark) (called : Nat)
    (c : Candidate) : Prop :=
  match (transport c.url).content c.url with
  | .ok _ => Unmarked marks called
  | .error cause => Marked marks called (.add c) (.failed (.ofFetch cause))

/-- Whether an addition has taken effect, by where it stands. -/
def Adding.Linear (transport : String → Answer) (marks : List Mark) (visits : List Visit)
    (called : Nat) (c : Candidate) : Adding → Prop
  | .check => Unmarked marks called
  | .mint => c.Checked transport marks called
  | .fetch _ (.done outcome) =>
    outcome = (transport c.url).content c.url ∧ c.Checked transport marks called
  | .fetch _ _ => c.Checked transport marks called
  | .write _ body _ => (transport c.url).content c.url = .ok body ∧ Unmarked marks called
  | .insert _ body => (transport c.url).content c.url = .ok body ∧ Unmarked marks called
  | .withdraw _ => Marked marks called (.add c) (.failed c.duplicate)
  | .done outcome =>
    ∃ v ∈ visits, v.called = called ∧ v.call = .add c ∧ v.verdict = .ofOutcome outcome

/-- What other calls do leaves an addition where it stands. -/
theorem Adding.Linear.append {transport : String → Answer} {marks : List Mark}
    {visits : List Visit} {called : Nat} {c : Candidate} {stage : Adding}
    (h : stage.Linear transport marks visits called c) (new : List Mark) (more : List Visit)
    (hnew : ∀ m ∈ new, m.called ≠ called) :
    stage.Linear transport (marks ++ new) (visits ++ more) called c := by
  have hchecked (hc : c.Checked transport marks called) :
      c.Checked transport (marks ++ new) called := by
    unfold Candidate.Checked at hc ⊢
    split at hc
    · exact hc.append hnew
    · exact hc.append
  cases stage with
  | check => exact Unmarked.append h hnew
  | mint => exact hchecked h
  | fetch id f =>
    cases f with
    | done outcome => exact ⟨h.1, hchecked h.2⟩
    | _ => exact hchecked h
  | write id body w => exact ⟨h.1, h.2.append hnew⟩
  | insert id body => exact ⟨h.1, h.2.append hnew⟩
  | withdraw id => exact Marked.append h
  | done outcome =>
    obtain ⟨v, hv, heq⟩ := h
    exact ⟨v, List.mem_append_left _ hv, heq⟩

def World.AllGo (w : World) : Prop :=
  ∀ (caller : Nat) (c : Candidate) (id : UInt64) (body : Bytes) (wr : Writing),
    w.adds[caller]? = some (c, .write id body wr) → wr.Goes

namespace History

/-- What has taken effect so far, in its order, explains the rows and all that was told to callers.
-/
structure Linear (transport : String → Answer) (rows : List Row) (base : Nat) (h : History)
    (marks : List Mark) : Prop where
  performed : Call.performAll transport rows (marks.map (·.call)) =
    (marks.map (·.verdict), h.run.world.rows)
  base_le : base ≤ h.run.world.adds.length
  ordered : marks.Pairwise fun m m' => m.time < m'.time
  timed : ∀ m ∈ marks, m.called ≤ m.time ∧ m.time < h.clock
  once : (marks.map (·.called)).Nodup
  adds : ∀ (i t : Nat) (c : Candidate) (stage : Adding), base ≤ i → h.called[i]? = some t →
    h.run.world.adds[i]? = some (c, stage) → stage.Linear transport marks h.visits t c
  past : ∀ (i : Nat) (c : Candidate) (stage : Adding), i < base →
    h.run.world.adds[i]? = some (c, stage) → stage.outcome? ≠ none
  visits : ∀ v ∈ h.visits, ∃ m ∈ marks, m.called = v.called ∧ m.call = v.call ∧
    m.verdict = v.verdict ∧ m.time ≤ v.returned
  left : ∀ m ∈ marks, (∃ v ∈ h.visits, v.called = m.called) ∨
    ∃ (i : Nat) (c : Candidate) (stage : Adding), h.called[i]? = some m.called ∧
      h.run.world.adds[i]? = some (c, stage) ∧ stage.outcome? = none

variable {h : History} {transport : String → Answer} {rows : List Row} {base : Nat}
variable {marks : List Mark}

/-- At most one call takes effect in a step, now, and one that did not before. -/
structure Fresh (h : History) (marks : List Mark) (call : Call) (called : Nat) (new : List Mark) :
    Prop where
  cases : new = [] ∨ ∃ verdict, new = [⟨call, verdict, called, h.clock⟩]
  unmarked : new ≠ [] → Unmarked marks called

theorem Fresh.mem {call : Call} {called : Nat} {new : List Mark}
    (hnew : h.Fresh marks call called new) (m : Mark) (hm : m ∈ new) :
    m.called = called ∧ m.call = call ∧ m.time = h.clock := by
  rcases hnew.cases with rfl | ⟨verdict, rfl⟩
  · cases hm
  · rw [List.mem_singleton.mp hm]
    exact ⟨rfl, rfl, rfl⟩

/-- What has just taken effect comes after all that did before. -/
theorem Linear.marks_append (hl : h.Linear transport rows base marks) {call : Call} {called : Nat}
    {new : List Mark} (hnew : h.Fresh marks call called new) (hcalled : called ≤ h.clock) :
    ((marks ++ new).Pairwise fun m m' => m.time < m'.time) ∧
      (∀ m ∈ marks ++ new, m.called ≤ m.time ∧ m.time < h.clock + 1) ∧
      ((marks ++ new).map (·.called)).Nodup := by
  refine ⟨?_, ?_, ?_⟩
  · rw [List.pairwise_append]
    refine ⟨hl.ordered, ?_, ?_⟩
    · rcases hnew.cases with rfl | ⟨verdict, rfl⟩ <;> simp
    · intro m hm m' hm'
      rw [(hnew.mem m' hm').2.2]
      exact (hl.timed m hm).2
  · intro m hm
    rcases List.mem_append.mp hm with hm | hm
    · obtain ⟨hle, hlt⟩ := hl.timed m hm
      exact ⟨hle, Nat.lt_succ_of_lt hlt⟩
    · obtain ⟨hmcalled, -, htime⟩ := hnew.mem m hm
      rw [hmcalled, htime]
      exact ⟨hcalled, Nat.lt_succ_self _⟩
  · rw [List.map_append, List.nodup_append]
    refine ⟨hl.once, ?_, ?_⟩
    · rcases hnew.cases with rfl | ⟨verdict, rfl⟩ <;> simp
    · rintro t ht t' ht' rfl
      obtain ⟨m, hm, rfl⟩ := List.mem_map.mp ht
      obtain ⟨m', hm', heq⟩ := List.mem_map.mp ht'
      have hfree := hnew.unmarked (List.ne_nil_of_mem hm')
      exact hfree m hm (heq.symm.trans (hnew.mem m' hm').1)

/-- A step of an addition goes on so: what takes effect in it does to the rows what it should, and
the addition returns only what has taken effect. -/
structure Takes (h : History) (transport : String → Answer) (marks : List Mark) (called : Nat)
    (c : Candidate) (s' : System) (stage' : Adding) (new : List Mark) : Prop where
  fresh : h.Fresh marks (.add c) called new
  performed : Call.performAll transport h.run.world.rows (new.map (·.call)) =
    (new.map (·.verdict), s'.registry.entries.map Entry.row)
  stage : stage'.outcome? = none → stage'.Linear transport (marks ++ new) h.visits called c
  marked : ∀ outcome, stage' = .done outcome →
    Marked (marks ++ new) called (.add c) (.ofOutcome outcome)

theorem takes_nothing {called : Nat} {c : Candidate} {s' : System} {stage' : Adding}
    (hrows : s'.registry = h.run.world.system.registry)
    (hstage : stage'.outcome? = none → stage'.Linear transport marks h.visits called c)
    (hmarked : ∀ outcome, stage' = .done outcome →
      Marked marks called (.add c) (.ofOutcome outcome)) :
    h.Takes transport marks called c s' stage' [] := by
  refine ⟨⟨.inl rfl, fun hne => absurd rfl hne⟩, ?_, ?_, ?_⟩
  · rw [hrows]
    rfl
  · rwa [List.append_nil]
  · rwa [List.append_nil]

theorem takes_effect {called : Nat} {c : Candidate} {s' : System} {stage' : Adding}
    (verdict : Verdict) (hun : Unmarked marks called)
    (hperform : Call.perform transport h.run.world.rows (.add c) =
      (verdict, s'.registry.entries.map Entry.row))
    (hstage : stage'.outcome? = none → ∀ marks', Marked marks' called (.add c) verdict →
      stage'.Linear transport marks' h.visits called c)
    (hmarked : ∀ outcome, stage' = .done outcome → verdict = .ofOutcome outcome) :
    h.Takes transport marks called c s' stage' [⟨.add c, verdict, called, h.clock⟩] := by
  have hin : Marked (marks ++ [⟨.add c, verdict, called, h.clock⟩]) called (.add c) verdict :=
    ⟨_, List.mem_append_right _ (List.mem_singleton.mpr rfl), rfl, rfl, rfl⟩
  refine ⟨⟨.inr ⟨verdict, rfl⟩, fun _ => hun⟩, ?_, fun hopen => hstage hopen _ hin, ?_⟩
  · simp only [List.map_cons, List.map_nil, Call.performAll, hperform]
  · intro outcome hdone
    rwa [← hmarked outcome hdone]

/-- A quiet step of an addition takes effect where the addition is refused, or is bound to be. -/
theorem Quiet.takes {called : Nat} {c : Candidate} {m : Moment} {s' : System}
    {stage stage' : Adding} (hquiet : stage.Quiet c m h.run.world.system stage')
    (hregistry : s'.registry = h.run.world.system.registry)
    (hanswer : ∀ id, stage = .fetch id .exchange → m.answer = transport c.url)
    (hgoes : ∀ id body wr, stage = .write id body wr → wr.Goes)
    (hstage : stage.Linear transport marks h.visits called c) (hopen : stage.outcome? = none) :
    ∃ new, h.Takes transport marks called c s' stage' new := by
  have hrows : s'.registry.entries.map Entry.row = h.run.world.rows := by
    rw [hregistry]
    rfl
  cases hquiet with
  -- a candidate that is refused has failed now
  | refused htaken =>
    refine ⟨_, takes_effect (.failed c.duplicate) hstage ?_ (fun hno => by cases hno) ?_⟩
    · rw [hrows]
      exact h.run.world.system.registry.perform_taken transport c htaken
    · rintro outcome ⟨⟩
      rfl
  -- what the download will bring is known from its url, and if it will fail the addition has failed
  -- already now
  | checked hfree =>
    cases hcontent : (transport c.url).content c.url with
    | ok body =>
      refine ⟨[], takes_nothing hregistry (fun _ => ?_) (by simp)⟩
      simp only [Adding.Linear, Candidate.Checked, hcontent]
      exact hstage
    | error cause =>
      refine ⟨_, takes_effect (.failed (.ofFetch cause)) hstage ?_ (fun _ marks' hin => ?_)
        (by simp)⟩
      · rw [hrows]
        exact h.run.world.system.registry.perform_refused transport c hfree cause hcontent
      · simp only [Adding.Linear, Candidate.Checked, hcontent]
        exact hin
  | queued id => exact ⟨[], takes_nothing hregistry (fun _ => hstage) (by simp)⟩
  | held id => exact ⟨[], takes_nothing hregistry (fun _ => hstage) (by simp)⟩
  | requested id => exact ⟨[], takes_nothing hregistry (fun _ => hstage) (by simp)⟩
  | answered id =>
    refine ⟨[], takes_nothing hregistry (fun _ => ⟨?_, hstage⟩) (by simp)⟩
    rw [hanswer id rfl]
  | fetched id body =>
    obtain ⟨hcontent, hchecked⟩ := hstage
    refine ⟨[], takes_nothing hregistry (fun _ => ⟨hcontent.symm, ?_⟩) (by simp)⟩
    simpa only [Candidate.Checked, ← hcontent] using hchecked
  | unfetched id cause =>
    obtain ⟨hcontent, hchecked⟩ := hstage
    refine ⟨[], takes_nothing hregistry (fun hno => by cases hno) ?_⟩
    simp only [Candidate.Checked, ← hcontent] at hchecked
    rintro outcome ⟨⟩
    exact hchecked
  | written id body => exact ⟨[], takes_nothing hregistry (fun _ => hstage) (by simp)⟩
  | unwritten id body cause => exact (hgoes id body _ rfl).elim
  -- another addition was faster, so this one fails now
  | doubled id body htaken =>
    refine ⟨_, takes_effect (.failed c.duplicate) hstage.2 ?_ (fun _ marks' hin => hin) (by simp)⟩
    rw [hrows]
    exact h.run.world.system.registry.perform_taken transport c htaken
  | done outcome => cases hopen

/-- An addition that takes a step goes on with what has taken effect. -/
theorem Linear.addOn (hl : h.Linear transport rows base marks) (hk : h.Kept) {caller : Nat}
    {m : Moment} {c : Candidate} {stage stage' : Adding} {s' : System}
    (hs : h.AddStep caller m c stage s' stage') (called : Nat)
    (hcalled : h.called[caller]? = some called) (new : List Mark)
    (ht : h.Takes transport marks called c s' stage' new) :
    (h.step (.add caller m)).Linear transport rows base (marks ++ new) := by
  obtain ⟨hnew, hperformed, hstage, hmarked⟩ := ht
  have hearly := hk.early called (List.mem_of_getElem? hcalled)
  have hlen := (List.getElem?_eq_some_iff.mp hcalled).1
  obtain ⟨hordered, htimed, honce⟩ := hl.marks_append hnew (Nat.le_of_lt hearly)
  have hvisit := hs.visit_mem called hcalled
  refine ⟨?performed, ?base_le, hordered, htimed, honce, ?adds, ?past, ?visits, ?left⟩
  case performed =>
    rw [List.map_append, List.map_append, Call.performAll_append, hl.performed, hperformed]
    simp only [World.rows, World.entries, hs.system]
  case base_le =>
    rw [hs.adds, List.length_set]
    exact hl.base_le
  case adds =>
    intro i t c' st hbase hi hadd'
    rcases hs.adds_cases i _ hadd' with ⟨rfl, heq⟩ | ⟨hne, hadd'⟩
    · obtain ⟨rfl, rfl⟩ := Prod.mk.inj heq
      obtain rfl : called = t := Option.some.inj (hcalled.symm.trans hi)
      cases hout : st.outcome? with
      | none =>
        have hgo := (hstage hout).append [] (h.returns? (.add caller m)).toList (by simp)
        rwa [List.append_nil] at hgo
      | some outcome =>
        obtain rfl := Adding.outcome?_eq_some hout
        exact ⟨_, hvisit outcome rfl, rfl, rfl, rfl⟩
    -- the marks of other additions have other times of call
    · refine (hl.adds i t c' st hbase hi hadd').append _ _ fun m' hm' => ?_
      rw [(hnew.mem m' hm').1]
      rintro rfl
      exact hne ((List.getElem?_inj hlen hk.nodup).mp (hcalled.trans hi.symm))
  case past =>
    intro i c' st hbefore hadd'
    rcases hs.adds_cases i _ hadd' with ⟨rfl, heq⟩ | ⟨-, hadd'⟩
    · exact absurd hs.opened (hl.past caller c stage hbefore hs.add)
    · exact hl.past i c' st hbefore hadd'
  case visits =>
    intro v hv
    rcases List.mem_append.mp hv with hv | hv
    · obtain ⟨m', hm', hfacts⟩ := hl.visits v hv
      exact ⟨m', List.mem_append_left _ hm', hfacts⟩
    · obtain ⟨called', outcome, hcalled', hdone, rfl⟩ := hs.of_returns? v (Option.mem_toList.mp hv)
      obtain rfl : called = called' := Option.some.inj (hcalled.symm.trans hcalled')
      obtain ⟨m', hm', hcall, hcall', hverdict⟩ := hmarked outcome hdone
      exact ⟨m', hm', hcall, hcall', hverdict, Nat.lt_succ_iff.mp (htimed m' hm').2⟩
  case left =>
    intro m' hm'
    by_cases heq : m'.called = called
    · cases hout : stage'.outcome? with
      | none =>
        refine .inr ⟨caller, c, stage', heq ▸ hcalled, ?_, hout⟩
        rw [hs.adds, List.getElem?_set_self (hk.length ▸ hlen)]
      | some outcome =>
        exact .inl ⟨_, hvisit outcome (Adding.outcome?_eq_some hout), heq.symm⟩
    -- a new mark belongs to the addition that takes the step
    · have hold : m' ∈ marks := by
        rcases List.mem_append.mp hm' with hm' | hm'
        · exact hm'
        · exact absurd (hnew.mem m' hm').1 heq
      rcases hl.left m' hold with ⟨v, hv, hvisited⟩ | ⟨i, c', st, hi, hadd', hout⟩
      · exact .inl ⟨v, List.mem_append_left _ hv, hvisited⟩
      · refine .inr ⟨i, c', st, hi, ?_, hout⟩
        rw [hs.adds, List.getElem?_set_ne, hadd']
        rintro rfl
        exact heq (Option.some.inj (hi.symm.trans hcalled))

/-- Nothing that matters happens. -/
theorem Linear.still (hl : h.Linear transport rows base marks) (a : Act)
    (hworld : (h.step a).run.world = h.run.world) (hcalled : (h.step a).called = h.called)
    (hno : h.returns? a = none) : (h.step a).Linear transport rows base marks := by
  have hvisits : (h.step a).visits = h.visits := by simp [History.step, hno]
  refine ⟨?performed, ?base_le, hl.ordered, ?timed, hl.once, ?adds, ?past, ?visits, ?left⟩
  case performed =>
    rw [hworld]
    exact hl.performed
  case base_le =>
    rw [hworld]
    exact hl.base_le
  case timed =>
    intro m hm
    obtain ⟨hle, hlt⟩ := hl.timed m hm
    exact ⟨hle, Nat.lt_succ_of_lt hlt⟩
  case adds =>
    rw [hworld, hcalled, hvisits]
    exact hl.adds
  case past =>
    rw [hworld]
    exact hl.past
  case visits =>
    rw [hvisits]
    exact hl.visits
  case left =>
    rw [hworld, hcalled, hvisits]
    exact hl.left

/-- An addition takes a step. -/
theorem Linear.add (hl : h.Linear transport rows base marks) (hk : h.Kept) (caller : Nat)
    (m : Moment) (hserves : h.run.world.Serves transport (.add caller m))
    (hgo : h.run.world.AllGo) :
    ∃ new, (h.step (.add caller m)).Linear transport rows base (marks ++ new) := by
  obtain ⟨-, hanswer⟩ := hserves
  rcases h.still_or_step caller m with ⟨hworld, hno⟩ | ⟨c, stage, s', stage', hs⟩
  · exact ⟨[], by rw [List.append_nil]; exact hl.still _ hworld rfl hno⟩
  obtain ⟨hadd, hopen, hout⟩ := hs
  obtain ⟨called, hcalled⟩ := hk.exists_called caller _ hadd
  -- it was called for in this run, since those before have all ended
  have hbase : base ≤ caller := by
    by_contra hlt
    exact hl.past caller c stage (by omega) hadd hopen
  have hstage := hl.adds caller called c stage hbase hcalled hadd
  have hsteps := stage.steps c (caller + 1) m h.run.world.system
  rw [hout] at hsteps
  obtain ⟨new, ht⟩ : ∃ new, h.Takes transport marks called c s' stage' new := by
    cases hsteps with
    | quiet stage stage' s' hquiet hstill =>
      refine Quiet.takes hquiet hstill.registry (fun id hid => ?_) (fun id body wr hwr => ?_) hstage
        hopen
      · exact hanswer c id (hid ▸ hadd)
      · exact hgo caller c id body wr (hwr ▸ hadd)
    | minted => exact ⟨[], takes_nothing rfl (fun _ => hstage) (by simp)⟩
    | writing id body w => exact ⟨[], takes_nothing rfl (fun _ => hstage) (by simp)⟩
    | inserted id body hfree =>
      refine ⟨_, takes_effect _ hstage.2 (h.run.world.system.registry.perform_added transport c
        hfree body hstage.1 id m.now h.run.world.system.period) (fun hno => by cases hno) ?_⟩
      rintro outcome ⟨⟩
      rfl
    | withdrawn id =>
      refine ⟨[], takes_nothing (h.run.world.system.discard_registry m.disk id)
        (fun hno => by cases hno) ?_⟩
      rintro outcome ⟨⟩
      exact hstage
  exact ⟨new, hl.addOn hk ⟨hadd, hopen, hout⟩ called hcalled new ht⟩

/-- An addition is called for. -/
theorem Linear.call (hl : h.Linear transport rows base marks) (hk : h.Kept) (c : Candidate) :
    (h.step (.call c)).Linear transport rows base marks := by
  have hlen := hk.length
  have hvisits : (h.step (.call c)).visits = h.visits := List.append_nil _
  refine ⟨hl.performed, ?base_le, hl.ordered, ?timed, hl.once, ?adds, ?past, ?visits, ?left⟩
  case base_le =>
    change base ≤ (h.run.world.adds ++ [(c, Adding.check)]).length
    rw [List.length_append]
    exact Nat.le_add_right_of_le hl.base_le
  case timed =>
    intro m hm
    obtain ⟨hle, hlt⟩ := hl.timed m hm
    exact ⟨hle, Nat.lt_succ_of_lt hlt⟩
  case adds =>
    intro i t c' stage hbase hi hadd
    change (h.called ++ [h.clock])[i]? = some t at hi
    change (h.run.world.adds ++ [(c, .check)])[i]? = some (c', stage) at hadd
    rw [hvisits]
    by_cases hlt : i < h.called.length
    · rw [List.getElem?_append_left hlt] at hi
      rw [List.getElem?_append_left (hlen ▸ hlt)] at hadd
      exact hl.adds i t c' stage hbase hi hadd
    · rw [List.getElem?_append_right (by omega), List.getElem?_singleton] at hi hadd
      split at hi
      · rename_i hfirst
        rw [if_pos (by omega)] at hadd
        obtain ⟨-, rfl⟩ := Prod.mk.inj (Option.some.inj hadd)
        -- nothing that has taken effect was called for as late as this
        intro m hm
        obtain ⟨hle, hbefore⟩ := hl.timed m hm
        have hnow : h.clock = t := Option.some.inj hi
        omega
      · cases hi
  case past =>
    intro i c' stage hbefore hadd
    change (h.run.world.adds ++ [(c, .check)])[i]? = some (c', stage) at hadd
    rw [List.getElem?_append_left (Nat.lt_of_lt_of_le hbefore hl.base_le)] at hadd
    exact hl.past i c' stage hbefore hadd
  case visits =>
    rw [hvisits]
    exact hl.visits
  case left =>
    intro m hm
    rw [hvisits]
    rcases hl.left m hm with hvisited | ⟨i, c', stage, hi, hadd, hopen⟩
    · exact .inl hvisited
    · refine .inr ⟨i, c', stage, ?_, ?_, hopen⟩
      · exact (List.getElem?_append_left (List.getElem?_eq_some_iff.mp hi).1).trans hi
      · exact (List.getElem?_append_left (List.getElem?_eq_some_iff.mp hadd).1).trans hadd

/-- A list is deleted. -/
theorem Linear.delete (hl : h.Linear transport rows base marks) (hk : h.Kept) (url : String) :
    (h.step (.delete url)).Linear transport rows base
      (marks ++
        [⟨.delete url, .ofRemoved (h.run.world.system.delete url).1, h.clock, h.clock⟩]) := by
  -- a deletion takes effect and returns in one step
  have hnew : h.Fresh marks (.delete url) h.clock
      [⟨.delete url, .ofRemoved (h.run.world.system.delete url).1, h.clock, h.clock⟩] := by
    refine ⟨.inr ⟨_, rfl⟩, fun _ m hm => ?_⟩
    obtain ⟨hle, hbefore⟩ := hl.timed m hm
    omega
  obtain ⟨hordered, htimed, honce⟩ := hl.marks_append hnew (Nat.le_refl _)
  have hadds : (h.step (.delete url)).run.world.adds = h.run.world.adds := rfl
  have hvisits : (h.step (.delete url)).visits = h.visits ++
      [⟨.delete url, .ofRemoved (h.run.world.system.delete url).1, h.clock, h.clock, none⟩] := rfl
  refine ⟨?performed, hl.base_le, hordered, htimed, honce, ?adds, hl.past, ?visits, ?left⟩
  case performed =>
    have hperform := h.run.world.system.delete_rows transport url
    simp only [List.map_append, Call.performAll_append, hl.performed, List.map_cons, List.map_nil,
      Call.performAll, World.rows, World.entries, hperform]
    rfl
  case adds =>
    intro i t c stage hbase hi hadd
    refine (hl.adds i t c stage hbase hi hadd).append _ _ fun m hm => ?_
    have hearly := hk.early t (List.mem_of_getElem? hi)
    rw [(hnew.mem m hm).1]
    omega
  case visits =>
    intro v hv
    rw [hvisits] at hv
    rcases List.mem_append.mp hv with hv | hv
    · obtain ⟨m, hm, hfacts⟩ := hl.visits v hv
      exact ⟨m, List.mem_append_left _ hm, hfacts⟩
    · rw [List.mem_singleton.mp hv]
      exact ⟨_, List.mem_append_right _ (List.mem_singleton.mpr rfl), rfl, rfl, rfl, Nat.le_refl _⟩
  case left =>
    intro m hm
    rw [hvisits]
    rcases List.mem_append.mp hm with hm | hm
    · rcases hl.left m hm with ⟨v, hv, heq⟩ | hopen
      · exact .inl ⟨v, List.mem_append_left _ hv, heq⟩
      · exact .inr hopen
    · left
      rw [List.mem_singleton.mp hm]
      exact ⟨_, List.mem_append_right _ (List.mem_singleton.mpr rfl), rfl⟩

/-- Every act of callers goes on with what has taken effect. -/
theorem Linear.step (hl : h.Linear transport rows base marks) (hk : h.Kept) (a : Act)
    (hserves : h.run.world.Serves transport a) (hgo : h.run.world.AllGo) :
    ∃ marks', (h.step a).Linear transport rows base marks' := by
  cases a with
  | call c => exact ⟨marks, hl.call hk c⟩
  | add caller m =>
    obtain ⟨new, hnew⟩ := hl.add hk caller m hserves hgo
    exact ⟨marks ++ new, hnew⟩
  | delete url => exact ⟨_, hl.delete hk url⟩
  | startPass => exact hserves.elim
  | refresh m => exact hserves.elim

instance : Nonempty Visit := ⟨.delete "", .removed none, 0, 0, none⟩

/-- Where every call has returned, the calls can be put in an order that respects which of them
returned before others were called for, and in which they come to the same one after the other. -/
theorem Linear.order (hl : h.Linear transport rows base marks) (hk : h.Kept)
    (hdone : ∀ a ∈ h.run.world.adds, ∃ outcome, a.2 = .done outcome) :
    ∃ order : List Visit, order.Perm h.visits ∧
      (order.Pairwise fun v v' => ¬ v'.returned < v.called) ∧
      Call.performAll transport rows (order.map (·.call)) =
        (order.map (·.verdict), h.run.world.rows) := by
  -- each call that took effect is one that returned
  have hvisit : ∀ m ∈ marks, ∃ v : Visit, v ∈ h.visits ∧ v.called = m.called ∧ v.call = m.call ∧
      v.verdict = m.verdict ∧ m.time ≤ v.returned := by
    intro m hm
    rcases hl.left m hm with ⟨v, hv, heq⟩ | ⟨i, c, stage, -, hadd, hopen⟩
    · obtain ⟨m', hm', hcalled, hcall, hverdict, htime⟩ := hl.visits v hv
      obtain rfl : m' = m := List.inj_on_of_nodup_map hl.once hm' hm (hcalled.trans heq)
      exact ⟨v, hv, heq, hcall.symm, hverdict.symm, htime⟩
    · obtain ⟨outcome, hended⟩ := hdone _ (List.mem_of_getElem? hadd)
      rw [show stage = .done outcome from hended] at hopen
      cases hopen
  choose! visit hmem hcalled hcall hverdict htime using hvisit
  have hmap {α : Type} (f : Visit → α) (g : Mark → α) (hfg : ∀ m ∈ marks, f (visit m) = g m) :
      (marks.map visit).map f = marks.map g := by
    rw [List.map_map]
    exact List.map_congr_left hfg
  refine ⟨marks.map visit, ?_, ?_, ?_⟩
  · have hnodup : (marks.map visit).Nodup := by
      refine List.Nodup.of_map (·.called) ?_
      rw [hmap (·.called) (·.called) hcalled]
      exact hl.once
    refine (List.perm_ext_iff_of_nodup hnodup (List.Nodup.of_map _ hk.once)).mpr fun v => ⟨?_, ?_⟩
    · intro hv
      obtain ⟨m, hm, rfl⟩ := List.mem_map.mp hv
      exact hmem m hm
    · intro hv
      obtain ⟨m, hm, heq, -⟩ := hl.visits v hv
      refine List.mem_map.mpr ⟨m, hm, ?_⟩
      exact List.inj_on_of_nodup_map hk.once (hmem m hm) hv ((hcalled m hm).trans heq)
  · rw [List.pairwise_map]
    refine hl.ordered.imp_of_mem fun {m m'} hm hm' hlt hback => ?_
    have hfirst := (hl.timed m hm).1
    have hlast := htime m' hm'
    rw [hcalled m hm] at hback
    omega
  · rw [hmap (·.call) (·.call) hcall, hmap (·.verdict) (·.verdict) hverdict]
    exact hl.performed

end History
end ListKeeper
