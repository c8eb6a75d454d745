import ListKeeper.Proofs.Completion
import ListKeeper.Proofs.Leftovers

/-! Calls one after the other. A call that is carried out while nothing else happens comes to an
end, and it comes to what `Call.perform` says. Main statements: `History.Explained.after`, for calls
whose steps are mixed in any way, and `Run.Quiescent.inTurn`, for calls in turn. -/
namespace ListKeeper

/-- An act calls for at most one addition, and none is forgotten. -/
theorem World.adds_step (w : World) (a : Act) :
    w.adds.length ≤ (w.step a).adds.length ∧ (w.step a).adds.length ≤ w.adds.length + 1 := by
  cases a with
  | call c => simp [step]
  | add caller m =>
    simp only [step]
    split <;> simp
  | startPass =>
    simp only [step]
    split <;> simp
  | _ => exact ⟨Nat.le_refl _, Nat.le_add_right _ _⟩

theorem Run.adds_after (k : Run) (acts : List Act) :
    k.world.adds.length ≤ (k.after acts).world.adds.length ∧
      (k.after acts).world.adds.length ≤ k.world.adds.length + acts.length := by
  induction acts generalizing k with
  | nil => exact ⟨Nat.le_refl _, Nat.le_refl _⟩
  | cons a acts ih =>
    have hstep := k.world.adds_step a
    have hrest := ih (k.step a)
    change (k.step a).world.adds.length ≤ _ ∧ _ at hrest
    have hfirst : (k.step a).world = k.world.step a := rfl
    have hafter : k.after (a :: acts) = (k.step a).after acts := rfl
    rw [hafter, List.length_cons]
    rw [hfirst] at hrest
    omega

def Adding.owes : Adding → Bool
  | .check => true
  | .mint => true
  | _ => false

def World.owed (w : World) : Nat := w.adds.countP fun a => a.2.owes

/-- An addition takes an id once. -/
theorem World.mints_add (w : World) (caller : Nat) (m : Moment) :
    (w.mints (.add caller m)).toNat + (w.step (.add caller m)).owed ≤ w.owed := by
  cases hadd : w.adds[caller]? with
  | none => simp [mints, step, hadd]
  | some q =>
    obtain ⟨c, stage⟩ := q
    obtain ⟨hlen, hget⟩ := List.getElem?_eq_some_iff.mp hadd
    have hsteps := stage.steps c (caller + 1) m w.system
    simp only [owed, step, hadd]
    generalize stage.step c (caller + 1) m w.system = out at hsteps ⊢
    have htakes : (w.mints (.add caller m)).toNat + out.2.owes.toNat ≤ stage.owes.toNat := by
      cases hsteps with
      | quiet stage stage' s' hquiet hstill => cases hquiet <;> simp [mints, hadd, Adding.owes]
      | _ => simp [mints, hadd, Adding.owes]
    have hcount : stage.owes.toNat ≤ w.adds.countP fun a => a.2.owes := by
      cases howes : stage.owes with
      | false => exact Nat.zero_le _
      | true => exact List.countP_pos_iff.mpr ⟨(c, stage), List.mem_of_getElem? hadd, howes⟩
    rw [List.countP_set hlen, hget]
    cases hbefore : stage.owes <;> cases hafter : out.2.owes <;>
      simp only [hbefore, hafter, Bool.toNat_false, Bool.toNat_true, Bool.false_eq_true, ↓reduceIte]
        at htakes hcount ⊢ <;> omega

/-! ### An addition on its own -/

namespace Adding

/-- How far an addition is from its end: the phases that are still to come, and the steps of the
present one. -/
def toGo : Adding → Nat × Nat
  | .check => (1, 5)
  | .mint => (1, 4)
  | .fetch _ .arrive => (1, 3)
  | .fetch _ .wait => (1, 2)
  | .fetch _ .exchange => (1, 1)
  | .fetch _ (.done (.ok body)) => (0, body.length + 9)
  | .fetch _ (.done (.error _)) => (0, 1)
  | .write _ body w => (0, w.toGo body + 3)
  | .insert _ _ => (0, 2)
  | .withdraw _ => (0, 1)
  | .done _ => (0, 0)

/-- One stage is nearer to the end of an addition than another. -/
def Nearer (stage stage' : Adding) : Prop := Prod.Lex (· < ·) (· < ·) stage.toGo stage'.toGo

theorem nearer_of_steps {stage stage' : Adding} (h : stage.toGo.1 = stage'.toGo.1)
    (hsteps : stage.toGo.2 < stage'.toGo.2) : stage.Nearer stage' :=
  Prod.lex_def.mpr (.inr ⟨h, hsteps⟩)

theorem nearer_wf : WellFounded Nearer :=
  InvImage.wf toGo (WellFounded.prod_lex Nat.lt_wfRel.wf Nat.lt_wfRel.wf)

/-- A step of an addition comes nearer to its end, provided that it is served when it waits. -/
theorem step_nearer (c : Candidate) (ticket : Nat) (m : Moment) (s : System) (stage : Adding)
    (hopen : stage.outcome? = none)
    (hserved : ∀ id, stage = .fetch id .wait → s.gate.head? = some ticket) :
    (stage.step c ticket m s).2.Nearer stage := by
  cases stage with
  | check =>
    simp only [step]
    split
    · exact Prod.lex_def.mpr (.inl (by simp [toGo]))
    · exact nearer_of_steps rfl (by simp [toGo])
  | mint => exact nearer_of_steps rfl (by simp [step, toGo])
  | fetch id f =>
    cases f with
    | arrive => exact nearer_of_steps rfl (by simp [step, Fetching.step, toGo])
    | wait =>
      have hhead : s.gate.head? = some ticket := hserved id rfl
      simp only [step, Fetching.step, hhead, ↓reduceIte]
      exact nearer_of_steps rfl (by simp [toGo])
    | exchange =>
      have hphase (f : Except FetchError Bytes) : (Adding.fetch id (.done f)).toGo.1 = 0 := by
        cases f <;> rfl
      exact Prod.lex_def.mpr (.inl ((hphase (m.answer.content c.url)).trans_lt Nat.one_pos))
    | done outcome =>
      cases outcome <;> exact nearer_of_steps rfl (by simp [step, toGo, Writing.toGo])
  | write id body w =>
    have hnearer (hw : 0 < w.toGo body) :
        Nearer (.write id body (s.write m id body w).2) (.write id body w) :=
      nearer_of_steps rfl (Nat.add_lt_add_right
        (s.store.writeStep_toGo id body m.disk s.tree w hw) 3)
    cases w with
    | done outcome =>
      cases outcome <;> exact nearer_of_steps rfl (by simp [step, toGo, Writing.toGo])
    | _ => exact hnearer (by simp [Writing.toGo])
  | insert id body =>
    simp only [step]
    split <;> exact nearer_of_steps rfl (by simp [toGo])
  | withdraw id => exact nearer_of_steps rfl (by simp [step, toGo])
  | done outcome => cases hopen

end Adding

/-! ### Calls in any order -/

/-- Between calls: every addition has ended, and the files of fresh ids can be put where they
belong. -/
structure Run.Quiescent (k : Run) : Prop where
  sound : ∃ role, k.world.Sound role k.past.minted
  filled : k.world.Filled False k.past
  queued : k.world.Queued
  done : ∀ a ∈ k.world.adds, ∃ outcome, a.2 = .done outcome
  admits : ∀ id : UInt64, k.world.system.ids.last.toNat < id.toNat →
    k.world.system.store.Admits k.world.system.tree (.file id) ∧
      k.world.system.store.Admits k.world.system.tree (.temp id)

/-- All that is known of a history of calls that began at `k`. -/
structure History.Explained (transport : String → Answer) (k : Run) (h : History) : Prop where
  sound : ∃ role, h.run.world.Sound role h.run.past.minted
  filled : h.run.world.Filled False h.run.past
  queued : h.run.world.Queued
  kept : h.Kept
  tidy : h.Tidy k.world.system.store k.world.system.tree k.world.system.ids.last
  linear : ∃ marks, h.Linear transport k.world.rows k.world.adds.length marks
  refresher : h.run.world.refresher = k.world.refresher
  minted : h.run.past.minted + h.run.world.owed + k.world.adds.length ≤
    k.past.minted + h.run.world.adds.length

namespace Run

variable {k : Run} {transport : String → Answer}

theorem Quiescent.outcome (hq : k.Quiescent) (i : Nat) (c : Candidate) (stage : Adding)
    (hadd : k.world.adds[i]? = some (c, stage)) : ∃ outcome, stage = .done outcome :=
  hq.done _ (List.mem_of_getElem? hadd)

theorem owed_of_done {w : World} (h : ∀ a ∈ w.adds, ∃ outcome, a.2 = .done outcome) :
    w.owed = 0 := by
  refine List.countP_eq_zero.mpr fun a ha => ?_
  obtain ⟨outcome, hout⟩ := h a ha
  simp [hout, Adding.owes]

/-- Calls begin between calls. -/
theorem Quiescent.explained (hq : k.Quiescent) (transport : String → Answer) :
    (History.start k).Explained transport k := by
  have hkept : (History.start k).Kept := by
    refine ⟨List.length_range, fun t ht => List.mem_range.mp ht, List.nodup_range, ?_,
      List.nodup_nil, ?_⟩ <;> simp [History.start]
  refine ⟨hq.sound, hq.filled, hq.queued, hkept, ?_, ⟨[], ?_⟩, rfl, ?_⟩
  · refine ⟨rfl, Nat.le_refl _, hq.admits, fun id _ x _ body hhas => hhas, ?_,
      by simp [History.start]⟩
    intro i c stage hadd
    obtain ⟨outcome, rfl⟩ := hq.outcome i c stage hadd
    exact ⟨trivial, by simp [Adding.id?]⟩
  · refine ⟨rfl, Nat.le_refl _, .nil, by simp, List.nodup_nil, ?_, ?_, by simp [History.start],
      by simp⟩
    · intro i t c stage hbase hcalled hadd
      have hlt := (List.getElem?_eq_some_iff.mp hadd).1
      exact absurd hlt (Nat.not_lt.mpr hbase)
    · intro i c stage hbefore hadd
      obtain ⟨outcome, rfl⟩ := hq.outcome i c stage hadd
      simp [Adding.outcome?]
  · have howed : (History.start k).run.world.owed = 0 := owed_of_done hq.done
    rw [howed]
    exact Nat.le_refl _

end Run

namespace History

variable {h : History} {k : Run} {transport : String → Answer}

/-- Acts of callers take at most the ids that are owed. -/
theorem Explained.minted_step (he : h.Explained transport k) (a : Act)
    (hserves : h.run.world.Serves transport a) :
    h.run.world.adds.length ≤ (h.step a).run.world.adds.length ∧
      (h.step a).run.past.minted + (h.step a).run.world.owed + k.world.adds.length ≤
        k.past.minted + (h.step a).run.world.adds.length := by
  have hminted := he.minted
  cases a with
  | call c =>
    have hpast : (h.step (.call c)).run.past.minted = h.run.past.minted := rfl
    have hadds : (h.step (.call c)).run.world.adds = h.run.world.adds ++ [(c, .check)] := rfl
    have howed : (h.step (.call c)).run.world.owed = h.run.world.owed + 1 := by
      simp [World.owed, hadds, List.countP_append, Adding.owes]
    rw [hpast, howed, hadds, List.length_append]
    exact ⟨Nat.le_add_right _ _, by simp only [List.length_singleton]; omega⟩
  | add caller m =>
    have hpast : (h.step (.add caller m)).run.past.minted =
      h.run.past.minted + (h.run.world.mints (.add caller m)).toNat := rfl
    have howed : (h.run.world.mints (.add caller m)).toNat +
      (h.step (.add caller m)).run.world.owed ≤ h.run.world.owed := h.run.world.mints_add caller m
    have hlength : (h.step (.add caller m)).run.world.adds.length = h.run.world.adds.length := by
      simp only [step, Run.step, World.step]
      split <;> simp
    rw [hlength]
    exact ⟨Nat.le_refl _, by omega⟩
  | delete url => exact ⟨Nat.le_refl _, hminted⟩
  | startPass => exact hserves.elim
  | refresh m => exact hserves.elim

/-- Every act of callers is explained. -/
theorem Explained.step (he : h.Explained transport k) (a : Act)
    (hserves : h.run.world.Serves transport a)
    (hroom : k.past.minted + (h.step a).run.world.adds.length <
      IdSource.room + k.world.adds.length) : (h.step a).Explained transport k := by
  obtain ⟨role, hsound⟩ := he.sound
  obtain ⟨marks, hlinear⟩ := he.linear
  obtain ⟨-, hminted⟩ := he.minted_step a hserves
  have hm : (h.step a).run.past.minted < IdSource.room := by omega
  obtain ⟨role', hsound', -⟩ := hsound.step a hm
  have htidy := he.tidy.step hsound he.filled transport a hserves hm
  refine ⟨⟨role', hsound'⟩, he.filled.step hsound a False.elim, he.queued.step a, he.kept.step a,
    htidy, hlinear.step he.kept a hserves he.tidy.allGo, ?_, hminted⟩
  have hbefore := he.refresher
  cases a with
  | add caller m =>
    rw [← hbefore]
    simp only [History.step, Run.step, World.step]
    split <;> rfl
  | startPass => exact hserves.elim
  | refresh m => exact hserves.elim
  | _ => exact hbefore

/-- Calls that are served are explained. -/
theorem Explained.after (he : h.Explained transport k) (acts : List Act)
    (hserved : h.run.Served transport acts)
    (hroom : k.past.minted + (h.run.after acts).world.adds.length <
      IdSource.room + k.world.adds.length) : (h.after acts).Explained transport k := by
  induction acts generalizing h with
  | nil => exact he
  | cons a acts ih =>
    obtain ⟨hserves, hrest⟩ := hserved
    have hle := ((h.run.step a).adds_after acts).1
    have hlater : (h.run.after (a :: acts)).world.adds.length =
      ((h.run.step a).after acts).world.adds.length := rfl
    refine ih (he.step a hserves ?_) hrest hroom
    change _ + (h.run.step a).world.adds.length < _
    omega

/-- When all calls have returned, the next ones can begin. -/
theorem Explained.quiescent (he : h.Explained transport k)
    (hdone : ∀ a ∈ h.run.world.adds, ∃ outcome, a.2 = .done outcome) : h.run.Quiescent := by
  refine ⟨he.sound, he.filled, he.queued, hdone, fun id hlt => ?_⟩
  rw [he.tidy.store]
  exact he.tidy.admits id (Nat.lt_of_le_of_lt he.tidy.last_le hlt)

end History

/-! ### Calls one after the other -/

namespace Run

variable {k : Run} {transport : String → Answer}

/-- While no one waits but an addition, it is served. -/
theorem served_of_done {w : World} (hq : w.Queued) (adds : List (Candidate × Adding))
    (hdone : ∀ a ∈ adds, ∃ outcome, a.2 = .done outcome) (c : Candidate) (stage : Adding)
    (hadds : w.adds = adds ++ [(c, stage)]) (hidle : w.refresher.stage.waits = false)
    (hwaits : stage.waits = true) : w.system.gate.head? = some (adds.length + 1) := by
  refine hq.head _ (by simp [World.waits, hadds, hwaits]) fun ticket hwaiting => ?_
  cases ticket with
  | zero =>
    rw [World.waits, hidle] at hwaiting
    cases hwaiting
  | succ caller =>
    obtain ⟨c', stage', hadd, hwaits'⟩ := World.exists_of_waits hwaiting
    rw [hadds] at hadd
    by_cases hlt : caller < adds.length
    · rw [List.getElem?_append_left hlt] at hadd
      obtain ⟨outcome, hout⟩ := hdone _ (List.mem_of_getElem? hadd)
      rw [show stage' = .done outcome from hout] at hwaits'
      cases hwaits'
    · rw [List.getElem?_append_right (by omega), List.getElem?_singleton] at hadd
      split at hadd <;> [omega; cases hadd]

end Run

namespace History

variable {h : History} {k : Run} {transport : String → Answer}

/-- What the caller of an addition on its own finds at every moment. -/
def aloneMoment (transport : String → Answer) (c : Candidate) : Moment :=
  ⟨.epoch, transport c.url, .ok (), ⟨none, 0, .epoch⟩⟩

/-- An addition on its own comes to its end. -/
theorem Explained.ends (hq : k.Quiescent) (hidle : k.world.refresher.stage.waits = false)
    (hroom : k.past.minted + 1 < IdSource.room) (he : h.Explained transport k) (c : Candidate)
    (stage : Adding) (hadds : h.run.world.adds = k.world.adds ++ [(c, stage)]) :
    ∃ ms : List Moment, h.run.Served transport (ms.map (.add k.world.adds.length)) ∧
      ∃ outcome, (h.run.after (ms.map (.add k.world.adds.length))).world.adds =
        k.world.adds ++ [(c, .done outcome)] := by
  -- the induction is on the distance from the end, which each step lessens
  induction stage using Adding.nearer_wf.induction generalizing h with
  | _ stage ih =>
    cases hout : stage.outcome? with
    | some outcome =>
      obtain rfl := Adding.outcome?_eq_some hout
      exact ⟨[], trivial, outcome, hadds⟩
    | none =>
      have hadd : h.run.world.adds[k.world.adds.length]? = some (c, stage) := by simp [hadds]
      have hserves : h.run.world.Serves transport
          (.add k.world.adds.length (aloneMoment transport c)) := by
        refine ⟨rfl, fun c' id hfetch => ?_⟩
        rw [hadd] at hfetch
        obtain ⟨rfl, -⟩ := Prod.mk.inj (Option.some.inj hfetch)
        rfl
      have hstep := h.step_adds k.world.adds.length (aloneMoment transport c) c stage hadd
      rw [hadds, List.set_append_right _ _ (Nat.le_refl _), Nat.sub_self, List.set_cons_zero]
        at hstep
      have hserved := Run.served_of_done he.queued k.world.adds hq.done c stage hadds
        (he.refresher ▸ hidle)
      have hnearer := stage.step_nearer c (k.world.adds.length + 1) (aloneMoment transport c)
        h.run.world.system hout (fun id heq => hserved (by rw [heq]; rfl))
      have he' := he.step _ hserves (by rw [hstep]; simp; omega)
      obtain ⟨ms, hserved, hend⟩ := ih _ hnearer he' hstep
      exact ⟨aloneMoment transport c :: ms, ⟨hserves, hserved⟩, hend⟩

/-- The calls that return while only one addition takes steps are that addition. -/
theorem visits_alone (h : History) (caller called : Nat) (hcalled : h.called[caller]? = some called)
    (hvisits : ∀ v ∈ h.visits, v.called = called) (ms : List Moment) :
    (h.after (ms.map (.add caller))).called = h.called ∧
      ∀ v ∈ (h.after (ms.map (.add caller))).visits, v.called = called := by
  induction ms generalizing h with
  | nil => exact ⟨rfl, hvisits⟩
  | cons m ms ih =>
    refine ih (h.step (.add caller m)) hcalled fun v hv => ?_
    rcases List.mem_append.mp hv with hv | hv
    · exact hvisits v hv
    · rw [Option.mem_toList] at hv
      rcases h.still_or_step caller m with ⟨-, hno⟩ | ⟨c, stage, s', stage', hs⟩
      · rw [hno] at hv
        cases hv
      · obtain ⟨called', outcome, hcalled', -, rfl⟩ := hs.of_returns? v hv
        exact Option.some.inj (hcalled'.symm.trans hcalled)

end History

namespace Run

variable {k : Run} {transport : String → Answer}

/-- A call on its own comes to what it should and leaves a state in which the next one can begin. -/
structure Follows (k : Run) (transport : String → Answer) (call : Call) (k' : Run) : Prop where
  alone : k.Alone transport call (call.perform transport k.world.rows).1 k'
  rows : k'.world.rows = (call.perform transport k.world.rows).2
  quiescent : k'.Quiescent
  refresher : k'.world.refresher = k.world.refresher
  minted : k'.past.minted ≤ k.past.minted + 1

theorem visits_eq_singleton {vs : List Visit} {called : Nat} (honce : (vs.map (·.called)).Nodup)
    (hall : ∀ v ∈ vs, v.called = called) (v : Visit) (hv : v ∈ vs) : vs = [v] := by
  match vs with
  | [] => cases hv
  | [x] => rw [List.mem_singleton.mp hv]
  | x :: y :: rest =>
    have hne : x.called ≠ y.called := by
      have hhead := (List.nodup_cons.mp honce).1
      simp only [List.map_cons, List.mem_cons, not_or] at hhead
      exact hhead.1
    exact absurd ((hall x (by simp)).trans (hall y (by simp)).symm) hne

/-- An addition on its own is refused at once, or it gets its turn. -/
theorem Quiescent.add_ends (hq : k.Quiescent) (hroom : k.past.minted + 1 < IdSource.room)
    (transport : String → Answer) (c : Candidate)
    (hgo : k.world.refresher.stage.waits = false ∨
      k.world.system.registry.taken c.name c.url = true) :
    ∃ ms : List Moment,
      (k.step (.call c)).Served transport (ms.map (.add k.world.adds.length)) ∧
      ∃ outcome, ((k.step (.call c)).after (ms.map (.add k.world.adds.length))).world.adds =
        k.world.adds ++ [(c, .done outcome)] := by
  have hcall : (k.step (.call c)).world.adds = k.world.adds ++ [(c, .check)] := rfl
  rcases hgo with hidle | htaken
  · have he : ((History.start k).step (.call c)).Explained transport k :=
      (hq.explained transport).step (.call c) trivial (by
        change _ + (k.step (.call c)).world.adds.length < _
        rw [hcall, List.length_append, List.length_singleton]
        omega)
    exact he.ends hq hidle hroom c .check hcall
  · have hadd : (k.step (.call c)).world.adds[k.world.adds.length]? = some (c, .check) := by
      simp [hcall]
    refine ⟨[History.aloneMoment transport c], ⟨⟨rfl, fun c' id hfetch => ?_⟩, trivial⟩,
      .error c.duplicate, ?_⟩
    · rw [hadd] at hfetch
      cases hfetch
    · have hstep := ((History.start k).step (.call c)).step_adds k.world.adds.length
        (History.aloneMoment transport c) c .check hadd
      refine hstep.trans ?_
      have hsystem : ((History.start k).step (.call c)).run.world.system = k.world.system := rfl
      rw [hsystem, Adding.step, if_pos htaken]
      simp [History.step, History.start, hcall]

/-- An addition on its own comes to what it should. -/
theorem Quiescent.add_follows (hq : k.Quiescent) (hroom : k.past.minted + 1 < IdSource.room)
    (transport : String → Answer) (c : Candidate)
    (hgo : k.world.refresher.stage.waits = false ∨
      k.world.system.registry.taken c.name c.url = true) :
    ∃ k', k.Follows transport (.add c) k' := by
  obtain ⟨ms, hserved, outcome, hend⟩ := hq.add_ends hroom transport c hgo
  have he : (((History.start k).step (.call c)).after
      (ms.map (.add k.world.adds.length))).Explained transport k := by
    refine (hq.explained transport).after (.call c :: ms.map (.add k.world.adds.length))
      ⟨trivial, hserved⟩ ?_
    change _ + ((k.step (.call c)).after (ms.map (.add k.world.adds.length))).world.adds.length < _
    rw [hend, List.length_append, List.length_singleton]
    omega
  obtain ⟨hcalled, hall⟩ := ((History.start k).step (.call c)).visits_alone k.world.adds.length
    k.world.adds.length (by simp [History.step, History.start])
    (by simp [History.step, History.start, History.returns?]) ms
  have hrun : (((History.start k).step (.call c)).after (ms.map (.add k.world.adds.length))).run =
      (k.step (.call c)).after (ms.map (.add k.world.adds.length)) := History.run_after _ _
  generalize ((History.start k).step (.call c)).after (ms.map (.add k.world.adds.length)) = last
    at he hcalled hall hrun
  have hadds : last.run.world.adds = k.world.adds ++ [(c, .done outcome)] := by rw [hrun, hend]
  have hdone : ∀ a ∈ last.run.world.adds, ∃ outcome, a.2 = .done outcome := by
    intro a ha
    rw [hadds] at ha
    rcases List.mem_append.mp ha with ha | ha
    · exact hq.done a ha
    · exact ⟨outcome, by rw [List.mem_singleton.mp ha]⟩
  -- it is the only call that returned, so there is one order
  obtain ⟨marks, hlinear⟩ := he.linear
  obtain ⟨v, hv, -, hcall, hverdict⟩ := hlinear.adds k.world.adds.length k.world.adds.length c
    (.done outcome) (Nat.le_refl _) (by rw [hcalled]; simp [History.step, History.start])
    (by simp [hadds])
  obtain ⟨order, hperm, -, hperform⟩ := hlinear.order he.kept hdone
  rw [visits_eq_singleton he.kept.once hall v hv, List.perm_singleton] at hperm
  rw [hperm] at hperform
  simp only [List.map_cons, List.map_nil, Call.performAll, hcall, hverdict, Prod.mk.injEq,
    List.cons.injEq, and_true] at hperform
  obtain ⟨hsame, hrows⟩ := hperform
  refine ⟨last.run, ?_, hrows.symm, he.quiescent hdone, he.refresher, ?_⟩
  · rw [hsame, hrun]
    exact .add c ms outcome hserved hend
  · have hminted := he.minted
    rw [hadds, List.length_append, List.length_singleton] at hminted
    omega

/-- A deletion comes to what it should. -/
theorem Quiescent.delete_follows (hq : k.Quiescent) (hroom : k.past.minted < IdSource.room)
    (transport : String → Answer) (url : String) :
    k.Follows transport (.delete url) (k.step (.delete url)) := by
  have hperform := k.world.system.delete_rows transport url
  change Call.perform transport k.world.rows (.delete url) =
    (.ofRemoved (k.world.system.delete url).1, (k.step (.delete url)).world.rows) at hperform
  have he : ((History.start k).step (.delete url)).Explained transport k :=
    (hq.explained transport).step (.delete url) trivial (Nat.add_lt_add_right hroom _)
  refine ⟨?_, ?_, he.quiescent hq.done, rfl, Nat.le_add_right _ 1⟩
  · rw [hperform]
    exact .delete url
  · rw [hperform]

end Run

def Verdict.Offline : Verdict → Prop
  | .failed (.duplicate _ _) => True
  | .removed _ => True
  | _ => False

/-- An addition for which the network is not asked is refused at once. -/
theorem Registry.taken_of_offline (r : Registry) (transport : String → Answer) (c : Candidate)
    (h : (Call.perform transport (r.entries.map Entry.row) (.add c)).1.Offline) :
    r.taken c.name c.url = true := by
  by_contra hfree
  rw [Bool.not_eq_true] at hfree
  cases hcontent : (transport c.url).content c.url with
  | ok body =>
    rw [r.perform_added transport c hfree body hcontent 0 .epoch (.ofSeconds 0)] at h
    exact h
  | error cause =>
    rw [r.perform_refused transport c hfree cause hcontent] at h
    cases cause <;> exact h

namespace Run

variable {k : Run} {transport : String → Answer}

/-- Every call on its own comes to what it should, provided that the network is free for it. -/
theorem Quiescent.follows (hq : k.Quiescent) (hroom : k.past.minted + 1 < IdSource.room)
    (call : Call) (hgo : k.world.refresher.stage.waits = false ∨
      (call.perform transport k.world.rows).1.Offline) :
    ∃ k', k.Follows transport call k' := by
  cases call with
  | add c =>
    exact hq.add_follows hroom transport c
      (hgo.imp_right (k.world.system.registry.taken_of_offline transport c))
  | delete url => exact ⟨_, hq.delete_follows (by omega) transport url⟩

/-- Calls that come to the same one after the other can be carried out so. -/
theorem Quiescent.inTurn (hq : k.Quiescent) (vs : List Visit) (rows : List Row)
    (hgo : k.world.refresher.stage.waits = false ∨ ∀ v ∈ vs, v.verdict.Offline)
    (hperform : Call.performAll transport k.world.rows (vs.map (·.call)) =
      (vs.map (·.verdict), rows))
    (hroom : k.past.minted + vs.length < IdSource.room) :
    ∃ k', k.InTurn transport vs k' ∧ k'.world.rows = rows := by
  induction vs generalizing k with
  | nil => exact ⟨k, .nil k, congrArg Prod.snd hperform⟩
  | cons v vs ih =>
    simp only [List.map_cons, Call.performAll, Prod.mk.injEq, List.cons.injEq] at hperform
    obtain ⟨⟨hverdict, hverdicts⟩, hrows⟩ := hperform
    rw [List.length_cons] at hroom
    obtain ⟨k', hfollows⟩ : ∃ k', k.Follows transport v.call k' :=
      hq.follows (by omega) v.call (hgo.imp_right fun h => hverdict ▸ h v (by simp))
    have halone := hfollows.alone
    rw [hverdict] at halone
    have hminted := hfollows.minted
    obtain ⟨k'', hturn, hend⟩ := ih hfollows.quiescent
      (hfollows.refresher ▸ hgo.imp_right fun h v' hv' => h v' (List.mem_cons_of_mem v hv'))
      (by rw [hfollows.rows]; exact Prod.ext hverdicts hrows) (by omega)
    exact ⟨k'', .cons k k' k'' v vs halone hturn, hend⟩

end Run
end ListKeeper
