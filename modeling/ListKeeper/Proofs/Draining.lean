import ListKeeper.Proofs.Lifetimes

/-! Selecting at one reading of the clock. Each selection puts off the first entry that is due, so
selections one after the other go through the due entries in their order, each of them once, and
come to an end. Additions and deletions in between bring nothing that is due. Main statement:
`Traffic.drains`. -/
namespace ListKeeper

/-- An instant is a span later than another one, or the last instant where that comes first. -/
structure Instant.Capped (t : Instant) (d : Span) (x : Instant) : Prop where
  sum : ∀ y, t.add? d = some y → y ≤ latest ∧ x = y
  beyond : t.add? d = none → x = latest
  exact_sum : t.inLeap = false → x.inLeap = false ∧ x.nanos = min (t.nanos + d.nanos) latest.nanos

theorem Instant.capped_deadline (t : Instant) (d : Span) (hd : 0 ≤ d.nanos) (ht : t ≤ latest) :
    t.Capped d (t.deadline d) where
  sum y hy := ⟨t.le_latest_of_add? y d ht hy, by rw [deadline, hy]; rfl⟩
  beyond hnone := by rw [deadline, hnone]; rfl
  exact_sum hleap := t.nanos_deadline d hd hleap

/-- A deadline that is counted from a reading at `now` or later is behind `now`. -/
theorem Instant.lt_deadline_of_le (now t : Instant) (d : Span) (hd : 0 < d.nanos)
    (hnow : now < latest) (hle : now ≤ t) : now < t.deadline d := by
  by_cases ht : t < latest
  · have hlater := t.lt_deadline d hd ht
    rw [le_def] at hle
    rw [lt_def] at hlater ⊢
    omega
  · have hend : latest ≤ t := by
      rw [lt_def] at ht
      rw [le_def]
      omega
    exact lt_of_lt_of_le _ _ _ hnow (t.latest_le_deadline d hd hend)

namespace Traffic

def gives? (d : Traffic) : Errand → Option Entry
  | .select now => (d.system.registry.selectDue now d.system.period).map (·.1)
  | _ => none

def given (d : Traffic) : List Errand → List Entry
  | [] => []
  | a :: errands => (d.gives? a).toList ++ (d.step a).given errands

def due (d : Traffic) (now : Instant) : List Entry :=
  d.entries.filter fun e => e.enabled && decide (e.nextUpdate ≤ now)

/-- The traffic after so many selections at one reading and nothing else. -/
def drained (d : Traffic) (now : Instant) (n : Nat) : Traffic :=
  d.after (List.replicate n (.select now))

/-- What a selection makes of the traffic. Nothing changes but the next update of the entry that is
given back, which is given as it then stands. -/
inductive Selects (now : Instant) (d : Traffic) : Option Entry → Traffic → Prop
  | nothing : Selects now d none d
  | entry (pre post : List Entry) (x e : Entry) (hsplit : d.entries = pre ++ x :: post)
      (he : e = { x with nextUpdate := now.deadline d.system.period }) :
    Selects now d (some e)
      { d with system := { d.system with registry := ⟨pre ++ e :: post⟩ } }

variable {d : Traffic} {now : Instant}

theorem select_cases (d : Traffic) (now : Instant) :
    (d.gives? (.select now) = none ∧ d.step (.select now) = d ∧ d.due now = []) ∨
      ∃ pre x post, d.entries = pre ++ x :: post ∧
        d.gives? (.select now) = some (x.reserve now d.system.period) ∧
        d.step (.select now) =
          { d with
            system :=
              { d.system with registry := ⟨pre ++ x.reserve now d.system.period :: post⟩ } } ∧
        x.isDue now = true ∧ ∀ y ∈ pre, y.isDue now = false := by
  cases hselect : d.system.registry.selectDue now d.system.period with
  | none =>
    have hnone := d.system.registry.selectDue_eq_none now _ hselect
    refine .inl ⟨by simp only [gives?, hselect, Option.map_none], by simp only [step, hselect], ?_⟩
    exact List.filter_eq_nil_iff.mpr fun e he => Bool.eq_false_iff.mp (hnone e he)
  | some r =>
    obtain ⟨e, registry⟩ := r
    obtain ⟨pre, x, post, hsplit, hentries, rfl, hdue, hpre⟩ :=
      d.system.registry.selectDue_eq_some registry now _ e hselect
    have hreg : registry = ⟨pre ++ x.reserve now d.system.period :: post⟩ := by rw [← hentries]
    refine .inr ⟨pre, x, post, hsplit, ?_, ?_, hdue, hpre⟩
    · simp only [gives?, hselect, Option.map_some]
    · simp only [step, hselect, hreg]

theorem select_selects (d : Traffic) (now : Instant) :
    Selects now d (d.gives? (.select now)) (d.step (.select now)) := by
  rcases d.select_cases now with ⟨hgives, hstep, -⟩ | ⟨pre, x, post, hsplit, hgives, hstep, -⟩
  · rw [hgives, hstep]
    exact .nothing
  · rw [hgives, hstep]
    exact .entry pre post x _ hsplit rfl

/-! ### Selections alone -/

/-- The next selection takes the first of the entries that are due and leaves the others. -/
theorem due_select (d : Traffic) (hperiod : 0 < d.system.period.nanos) (hnow : now < .latest) :
    d.gives? (.select now) = (d.due now).head?.map (·.reserve now d.system.period) ∧
      (d.step (.select now)).due now = (d.due now).tail := by
  rcases d.select_cases now with
    ⟨hgives, hstep, hnone⟩ | ⟨pre, x, post, hsplit, hgives, hstep, hdue, hpre⟩
  · rw [hgives, hstep, hnone]
    exact ⟨rfl, rfl⟩
  · have hclear : pre.filter (·.isDue now) = [] :=
      List.filter_eq_nil_iff.mpr fun y hy => Bool.eq_false_iff.mp (hpre y hy)
    have hfirst : d.due now = x :: post.filter (·.isDue now) := by
      change d.entries.filter (·.isDue now) = _
      simp [hsplit, hclear, hdue]
    have hlater := x.isDue_reserve now d.system.period hperiod hnow
    refine ⟨by rw [hgives, hfirst]; rfl, ?_⟩
    rw [hstep, hfirst]
    change (pre ++ x.reserve now d.system.period :: post).filter (·.isDue now) = _
    simp [hclear, hlater]

theorem drained_succ (d : Traffic) (now : Instant) (n : Nat) :
    d.drained now (n + 1) = (d.drained now n).step (.select now) := by
  rw [drained, List.replicate_succ', after_append]
  rfl

theorem period_step (d : Traffic) (a : Errand) : (d.step a).system.period = d.system.period :=
  congrArg Prod.snd (d.step_settings a)

theorem gives_drained (d : Traffic) (hperiod : 0 < d.system.period.nanos) (hnow : now < .latest)
    (n : Nat) : (d.drained now n).gives? (.select now) =
      (d.due now)[n]?.map (·.reserve now d.system.period) := by
  induction n generalizing d with
  | zero => rw [← List.head?_eq_getElem?]; exact (d.due_select hperiod hnow).1
  | succ n ih =>
    have hrest := (d.due_select hperiod hnow).2
    have hnext := ih (d.step (.select now)) (by rwa [period_step])
    rw [period_step, hrest, List.getElem?_tail] at hnext
    exact hnext

/-! ### Additions and deletions in between -/

def Adds (d : Traffic) : Prop := ∀ j ∈ d.jobs, ∃ c stage, j = .add c stage

end Traffic

/-- What can happen between selections at one reading: additions begin and go on, for which the
clock does not show less, and entries are deleted. -/
inductive Errand.Beside (now : Instant) : Errand → Prop
  | start (c : Candidate) : Beside now (.start (.add c .check))
  | go (job : Nat) (m : Moment) (hnow : now ≤ m.now) : Beside now (.go job m)
  | delete (url : String) : Beside now (.delete url)
  | select : Beside now (.select now)

/-- An addition puts in nothing that is due. -/
theorem Adding.step_due (c : Candidate) (ticket : Nat) (m : Moment) (s : System) (stage : Adding)
    (now : Instant) (hperiod : 0 < s.period.nanos) (hnow : now < .latest) (hle : now ≤ m.now) :
    (stage.step c ticket m s).1.registry.entries.filter (·.isDue now) =
      s.registry.entries.filter (·.isDue now) := by
  have hsteps := stage.steps c ticket m s
  generalize stage.step c ticket m s = out at hsteps ⊢
  cases hsteps with
  | quiet stage stage' s' hquiet hstill => rw [hstill.registry]
  | minted => rfl
  | writing id body w => rfl
  | inserted id body hfree =>
    have hlater := now.lt_deadline_of_le m.now s.period hperiod hnow hle
    have hnot : (c.entry id body m.now s.period).isDue now = false := by
      apply Bool.eq_false_iff.mpr
      intro hdue
      obtain ⟨-, hearly⟩ := (Entry.isDue_iff _ now).mp hdue
      exact Instant.lt_irrefl now (Instant.lt_of_lt_of_le _ _ _ hlater hearly)
    change (s.registry.entries ++ [c.entry id body m.now s.period]).filter (·.isDue now) = _
    simp [hnot]
  | withdrawn id => rw [s.discard_registry]

namespace Traffic

variable {d : Traffic} {now : Instant}

theorem adds_step (h : d.Adds) (a : Errand) (ha : a.Beside now) : (d.step a).Adds := by
  cases ha with
  | start c =>
    intro j hj
    rcases List.mem_append.mp hj with hj | hj
    · exact h j hj
    · exact ⟨c, .check, List.mem_singleton.mp hj⟩
  | go job m hnow =>
    simp only [step]
    split
    · exact h
    · rename_i j hjob
      obtain ⟨c, stage, rfl⟩ := h j (List.mem_of_getElem? hjob)
      intro j' hj'
      rcases List.mem_or_eq_of_mem_set hj' with hj' | rfl
      · exact h j' hj'
      · exact ⟨c, _, rfl⟩
  | delete url => exact h
  | select =>
    simp only [step]
    split <;> exact h

/-- What is given back and what is due then were due before, in this order. -/
theorem due_step (hperiod : 0 < d.system.period.nanos) (hnow : now < .latest) (h : d.Adds)
    (a : Errand) (ha : a.Beside now) :
    ((d.gives? a).toList ++ ((d.step a).due now).map (·.reserve now d.system.period)).Sublist
      ((d.due now).map (·.reserve now d.system.period)) := by
  cases ha with
  | start c => exact List.Sublist.refl _
  | go job m hle =>
    have hsame : (d.step (.go job m)).due now = d.due now := by
      simp only [step]
      split
      · rfl
      · rename_i j hjob
        obtain ⟨c, stage, rfl⟩ := h j (List.mem_of_getElem? hjob)
        exact stage.step_due c job m d.system now hperiod hnow hle
    rw [hsame]
    exact List.Sublist.refl _
  | delete url =>
    refine List.Sublist.map _ (List.Sublist.filter _ ?_)
    rw [delete_entries]
    exact List.eraseP_sublist
  | select =>
    obtain ⟨hgives, hrest⟩ := d.due_select hperiod hnow
    rw [hgives, hrest]
    cases d.due now <;> exact List.Sublist.refl _

theorem given_sublist (hperiod : 0 < d.system.period.nanos) (hnow : now < .latest) (h : d.Adds)
    (errands : List Errand) (herrands : ∀ a ∈ errands, a.Beside now) :
    (d.given errands).Sublist ((d.due now).map (·.reserve now d.system.period)) := by
  induction errands generalizing d with
  | nil => exact List.nil_sublist _
  | cons a errands ih =>
    obtain ⟨ha, hrest⟩ := List.forall_mem_cons.mp herrands
    have hlater := ih (d := d.step a) (by rwa [period_step]) (adds_step h a ha) hrest
    rw [period_step] at hlater
    exact (hlater.append_left _).trans (due_step hperiod hnow h a ha)

/-- Selections at one reading and nothing else give back exactly the entries that are enabled and
due, each once and in their order, and then nothing for ever. Each of them changes nothing but the
next update of the entry that it gives back, which becomes the reading and a period, as far as the
calendar goes. With additions and deletions in between, still no entry is given back twice. -/
theorem drains (d : Traffic) (now : Instant) (hids : (d.entries.map (·.id)).Nodup)
    (hperiod : 0 < d.system.period.nanos) (hnow : now < .latest) :
    (∀ n, (d.drained now n).gives? (.select now) =
        (d.due now)[n]?.map fun e => { e with nextUpdate := now.deadline d.system.period }) ∧
      (∀ n, Selects now (d.drained now n) ((d.drained now n).gives? (.select now))
        (d.drained now (n + 1))) ∧
      now.Capped d.system.period (now.deadline d.system.period) ∧
      ∀ errands, d.Adds → (∀ a ∈ errands, a.Beside now) →
        ((d.given errands).map (·.id)).Nodup := by
  refine ⟨d.gives_drained hperiod hnow, ?_, ?_, ?_⟩
  · intro n
    rw [drained_succ]
    exact (d.drained now n).select_selects now
  · exact now.capped_deadline d.system.period (Int.le_of_lt hperiod) (Instant.le_of_lt _ _ hnow)
  · intro errands hadds herrands
    have hgiven := (given_sublist hperiod hnow hadds errands herrands).map (·.id)
    have hdue : (((d.due now).map (·.reserve now d.system.period)).map (·.id)) =
        (d.due now).map (·.id) := by
      rw [List.map_map]
      rfl
    rw [hdue] at hgiven
    exact hids.sublist (hgiven.trans (List.filter_sublist.map _))

/-! ### Two lists that are due -/

/-- Two lists that are due at the time of a calm moment, behind one that is not refreshed. -/
def dueTraffic : Traffic :=
  (fresh (Service.store .pair) (.ofSeconds 10) .withLists).after
    [.load .withLists (⟨3, false, "paused", "http://p.example/"⟩ :: Config.pair.filters)]

/-- The first list is selected, deleted and added once more before the next selections. -/
def readdingErrands : List Errand :=
  [.select Moment.calm.now, .delete "http://a.example/",
      .start (.add ⟨"ads", "http://a.example/"⟩ .check)] ++
    List.replicate 12 (.go 0 .calm) ++
    [.select Moment.calm.now, .select Moment.calm.now]

theorem drains_readded :
    (dueTraffic.entries.map (·.id)).Nodup ∧ 0 < dueTraffic.system.period.nanos ∧
      Moment.calm.now < .latest ∧ dueTraffic.Adds ∧
      (∀ a ∈ readdingErrands, a.Beside Moment.calm.now) ∧
      ((dueTraffic.drained Moment.calm.now 1).gives? (.select Moment.calm.now)).map (·.id) =
        some 2 ∧
      (dueTraffic.drained Moment.calm.now 7).gives? (.select Moment.calm.now) = none ∧
      (dueTraffic.after readdingErrands).entries.length = 3 ∧
      ((dueTraffic.given readdingErrands).map (·.id)).Nodup := by
  have hids : (dueTraffic.entries.map (·.id)).Nodup := by decide +kernel
  have hperiod : 0 < dueTraffic.system.period.nanos := by decide +kernel
  have hnow : Moment.calm.now < .latest := by decide +kernel
  have hadds : dueTraffic.Adds := by
    intro j hj
    cases hj
  have herrands : ∀ a ∈ readdingErrands, a.Beside Moment.calm.now := by
    intro a ha
    simp only [readdingErrands, List.mem_append, List.mem_cons, List.mem_replicate,
      List.not_mem_nil, or_false] at ha
    rcases ha with ((rfl | rfl | rfl) | ⟨-, rfl⟩) | rfl | rfl
    · exact .select
    · exact .delete _
    · exact .start _
    · exact .go 0 .calm (Instant.le_refl _)
    · exact .select
    · exact .select
  obtain ⟨hgives, -, -, hbeside⟩ := drains dueTraffic Moment.calm.now hids hperiod hnow
  refine ⟨hids, hperiod, hnow, hadds, herrands, ?_, ?_, by decide +kernel,
    hbeside readdingErrands hadds herrands⟩
  · rw [hgives 1]
    decide +kernel
  · rw [hgives 7]
    decide +kernel

end Traffic
end ListKeeper
