import ListKeeper.Proofs.Noninterference
import ListKeeper.Proofs.Sequential

/-! Additions and deletions are linearizable: however their steps are mixed, they can be carried out
one after the other, in an order that keeps those that did not overlap, with the same verdicts and
the same lists at the end. Main statement: `Run.linearizable`. -/
namespace ListKeeper

def Act.call? : Act → Option Call
  | .call c => some (.add c)
  | .delete url => some (.delete url)
  | _ => none

def World.underway (w : World) (x : Call) : Nat :=
  w.adds.countP fun a => a.2.outcome?.isNone && Call.add a.1 == x

namespace History

variable {h : History}

/-- A call is under way from when it is made to when it returns. -/
theorem Kept.counted (hk : h.Kept) (a : Act) (x : Call) :
    ((h.step a).visits.map (·.call)).count x + (h.step a).run.world.underway x =
      (h.visits.map (·.call)).count x + h.run.world.underway x + a.call?.toList.count x := by
  have hvisits : (h.step a).visits = h.visits ++ (h.returns? a).toList := rfl
  rw [hvisits, List.map_append, List.count_append]
  cases a with
  | call c =>
    have hadds : (h.step (.call c)).run.world.adds = h.run.world.adds ++ [(c, .check)] := rfl
    have hone : [(c, Adding.check)].countP (fun a => a.2.outcome?.isNone && Call.add a.1 == x) =
        [Call.add c].count x := by
      simp [Adding.outcome?, List.countP_cons, List.count_cons]
    simp only [World.underway, hadds, List.countP_append, hone, returns?, Act.call?,
      Option.toList_none, Option.toList_some, List.map_nil, List.count_nil]
    omega
  | add caller m =>
    rcases h.still_or_step caller m with ⟨hworld, hno⟩ | ⟨c, stage, s', stage', hs⟩
    · simp [hworld, hno, Act.call?]
    · obtain ⟨hlen, hget⟩ := List.getElem?_eq_some_iff.mp hs.add
      obtain ⟨called, hcalled⟩ := hk.exists_called caller _ hs.add
      -- the addition that takes a step is one of those under way
      have hcount : Call.add c = x → 0 < h.run.world.underway x := by
        intro heq
        exact List.countP_pos_iff.mpr
          ⟨(c, stage), List.mem_of_getElem? hs.add, by simp [hs.opened, heq]⟩
      rw [hs.returns?_eq called hcalled]
      simp only [World.underway, hs.adds, List.countP_set hlen, hget] at hcount ⊢
      -- it is under way still, or it has returned, and is counted once either way
      by_cases heq : Call.add c = x
      · have hpos := hcount heq
        cases hout : stage'.outcome? <;> simp [hs.opened, heq, Act.call?] <;> omega
      · cases hout : stage'.outcome? <;> simp [heq, Act.call?]
  | delete url =>
    have hunderway : (h.step (.delete url)).run.world.underway x = h.run.world.underway x := rfl
    simp only [hunderway, returns?, Act.call?, Option.toList_some, List.map_cons, List.map_nil]
    omega
  | startPass =>
    have hunderway : (h.step .startPass).run.world.underway x = h.run.world.underway x := by
      simp only [World.underway, History.step, Run.step, World.step]
      split <;> rfl
    simp [hunderway, returns?, Act.call?]
  | refresh m =>
    have hunderway : (h.step (.refresh m)).run.world.underway x = h.run.world.underway x := rfl
    simp [hunderway, returns?, Act.call?]

/-- Calls return as many times as they were made. -/
theorem Kept.counted_after (hk : h.Kept) (acts : List Act) (x : Call) :
    ((h.after acts).visits.map (·.call)).count x + (h.after acts).run.world.underway x =
      (h.visits.map (·.call)).count x + h.run.world.underway x +
        (acts.filterMap Act.call?).count x := by
  induction acts generalizing h with
  | nil => rfl
  | cons a acts ih =>
    have hstep := hk.counted a x
    have hrest := ih (hk.step a)
    have hafter : h.after (a :: acts) = (h.step a).after acts := rfl
    rw [hafter, hrest, hstep, List.filterMap_cons]
    cases hcall : a.call? with
    | none => simp
    | some call =>
      simp only [Option.toList_some, List.count_cons, List.count_nil]
      omega

end History

/-! ### While the network is held -/

/-- An addition that was refused at once or has not come further than the queue. -/
def Adding.Offline : Adding → Prop
  | .check => True
  | .mint => True
  | .fetch _ .arrive => True
  | .fetch _ .wait => True
  | .done _ => True
  | _ => False

namespace History

variable {h : History} {transport : String → Answer}

/-- The refresher holds the network, so no addition comes further than the queue. -/
structure Offline (h : History) : Prop where
  head : h.run.world.system.gate.head? = some 0
  adds : ∀ (i : Nat) (c : Candidate) (stage : Adding), h.run.world.adds[i]? = some (c, stage) →
    stage.Offline
  visits : ∀ v ∈ h.visits, v.verdict.Offline

theorem Offline.addOn (ho : h.Offline) {caller : Nat} {m : Moment} {c : Candidate}
    {stage stage' : Adding} {s' : System} (hs : h.AddStep caller m c stage s' stage')
    (hhead : s'.gate.head? = some 0) (hstage : stage'.Offline)
    (hrefused : ∀ outcome, stage' = .done outcome → outcome = .error c.duplicate) :
    (h.step (.add caller m)).Offline := by
  refine ⟨hs.system ▸ hhead, ?_, ?_⟩
  · intro i c' st hi
    rcases hs.adds_cases i _ hi with ⟨-, heq⟩ | ⟨-, hi⟩
    · obtain ⟨-, rfl⟩ := Prod.mk.inj heq
      exact hstage
    · exact ho.adds i c' st hi
  · intro v hv
    rcases List.mem_append.mp hv with hv | hv
    · exact ho.visits v hv
    · obtain ⟨called, outcome, -, rfl, rfl⟩ := hs.of_returns? v (Option.mem_toList.mp hv)
      rw [hrefused outcome rfl]
      trivial

theorem Offline.step (ho : h.Offline) (a : Act) (hserves : h.run.world.Serves transport a) :
    (h.step a).Offline := by
  cases a with
  | call c =>
    refine ⟨ho.head, fun i c' stage hi => ?_, fun v hv => ?_⟩
    · rcases h.run.world.call_cases c i _ hi with hi | heq
      · exact ho.adds i c' stage hi
      · obtain ⟨-, rfl⟩ := Prod.mk.inj heq
        trivial
    · have hvisits : (h.step (.call c)).visits = h.visits := List.append_nil _
      exact ho.visits v (hvisits ▸ hv)
  | add caller m =>
    rcases h.still_or_step caller m with ⟨hworld, hno⟩ | ⟨c, stage, s', stage', hs⟩
    · have hvisits : (h.step (.add caller m)).visits = h.visits := by simp [History.step, hno]
      exact ⟨hworld ▸ ho.head, hworld ▸ ho.adds, hvisits ▸ ho.visits⟩
    have hstage := ho.adds caller c stage hs.add
    have hhead := ho.head
    have hgo := ho.addOn hs
    have hstep := hs.step
    -- the head of the queue is another ticket, so the addition gets as far as the queue
    cases stage with
    | check =>
      simp only [Adding.step] at hstep
      split at hstep <;> obtain ⟨rfl, rfl⟩ := Prod.mk.inj hstep
      · refine hgo hhead trivial ?_
        rintro outcome ⟨⟩
        rfl
      · exact hgo hhead trivial (by simp)
    | mint =>
      obtain ⟨rfl, rfl⟩ := Prod.mk.inj hstep
      exact hgo hhead trivial (by simp)
    | fetch id f =>
      cases f with
      | arrive =>
        obtain ⟨rfl, rfl⟩ := Prod.mk.inj hstep
        refine hgo ?_ trivial (by simp)
        change (h.run.world.system.gate ++ [caller + 1]).head? = some 0
        rw [List.head?_append, hhead, Option.some_or]
      | wait =>
        simp only [Adding.step, Fetching.step, hhead] at hstep
        rw [if_neg (by simp)] at hstep
        obtain ⟨rfl, rfl⟩ := Prod.mk.inj hstep
        exact hgo hhead trivial (by simp)
      | _ => exact hstage.elim
    | done outcome => exact absurd hs.opened (by simp [Adding.outcome?])
    | _ => exact hstage.elim
  | delete url =>
    obtain ⟨es, journal, heq, -⟩ := h.run.world.system.delete_eq url
    have hsystem : (h.step (.delete url)).run.world.system =
        { h.run.world.system with registry := ⟨es⟩, journal := journal } := heq
    refine ⟨by rw [hsystem]; exact ho.head, ho.adds, fun v hv => ?_⟩
    rcases List.mem_append.mp hv with hv | hv
    · exact ho.visits v hv
    -- a deletion does not ask for the network
    · obtain rfl := (Option.some.inj (Option.mem_toList.mp hv)).symm
      trivial
  | startPass => exact hserves.elim
  | refresh m => exact hserves.elim

theorem Offline.after (ho : h.Offline) (acts : List Act) (hserved : h.run.Served transport acts) :
    (h.after acts).Offline := by
  induction acts generalizing h with
  | nil => exact ho
  | cons a acts ih => exact ih (ho.step a hserved.1) hserved.2

end History

namespace Run

variable {k : Run}

theorem Quiescent.offline (hq : k.Quiescent) (hwaits : k.world.refresher.stage.waits = true) :
    (History.start k).Offline := by
  refine ⟨hq.queued.head 0 hwaits fun x hx => ?_, fun i c stage hi => ?_, by simp [History.start]⟩
  · cases x with
    | zero => rfl
    | succ caller =>
      -- no addition waits, since all have ended
      obtain ⟨c, stage, hadd, hwaits⟩ := World.exists_of_waits hx
      obtain ⟨outcome, rfl⟩ := hq.outcome caller c stage hadd
      cases hwaits
  · obtain ⟨outcome, rfl⟩ := hq.outcome i c stage hi
    trivial

/-- Every call that was made returned once. -/
theorem Quiescent.visits_perm (hq : k.Quiescent) (acts : List Act)
    (hend : ∀ a ∈ (k.after acts).world.adds, ∃ outcome, a.2 = .done outcome) :
    ((k.visits acts).map (·.call)).Perm (acts.filterMap Act.call?) := by
  have hnone {w : World} (hdone : ∀ a ∈ w.adds, ∃ outcome, a.2 = .done outcome) (x : Call) :
      w.underway x = 0 := by
    refine List.countP_eq_zero.mpr fun a ha => ?_
    obtain ⟨outcome, hout⟩ := hdone a ha
    simp [hout, Adding.outcome?]
  refine List.perm_iff_count.mpr fun x => ?_
  have hcount := (hq.explained fun _ => .failure "").kept.counted_after acts x
  rw [History.run_after] at hcount
  change ((k.visits acts).map (·.call)).count x + (k.after acts).world.underway x =
    0 + k.world.underway x + _ at hcount
  rw [hnone hq.done, hnone hend] at hcount
  rwa [Nat.add_zero, Nat.add_zero, Nat.zero_add] at hcount

/-- Between calls of a run new ones can be made. -/
theorem quiescent_after (fetchable : String → Bool) (c : Config) (hc : c.fault? fetchable = none)
    (period : Span) (t : FileTree) (disks : UInt64 → Disk) (acts : List Act) (k : Run)
    (hk : k = (loaded c period t disks).after acts)
    (hdone : ∀ a ∈ k.world.adds, ∃ outcome, a.2 = .done outcome)
    (hadmits : ∀ id : UInt64, k.world.system.ids.last.toNat < id.toNat →
      k.world.system.store.Admits k.world.system.tree (.file id) ∧
        k.world.system.store.Admits k.world.system.tree (.temp id))
    (hroom : k.past.minted < IdSource.room) : k.Quiescent := by
  subst hk
  obtain ⟨role, hsound, hfilled⟩ :=
    filled_after fetchable c hc period t disks acts False.elim hroom
  exact ⟨⟨role, hsound⟩, hfilled, queued_after _ (loaded_queued c period t disks) acts, hdone,
    hadmits⟩

/-- Whatever happened before, let some additions and deletions be made, their steps mixed in any
way, until each has returned. Where the transport answers by the url and the files of fresh ids can
be written, the calls can be carried out one after the other instead, in an order that keeps those
that did not overlap, with the same verdicts and the same lists at the end. No addition that failed
left a file under its id. -/
theorem linearizable (fetchable : String → Bool) (c : Config) (hc : c.fault? fetchable = none)
    (period : Span) (t : FileTree) (disks : UInt64 → Disk) (past : List Act) (k : Run)
    (hk : k = (loaded c period t disks).after past)
    (hdone : ∀ a ∈ k.world.adds, ∃ outcome, a.2 = .done outcome)
    (hadmits : ∀ id : UInt64, k.world.system.ids.last.toNat < id.toNat →
      k.world.system.store.Admits k.world.system.tree (.file id) ∧
        k.world.system.store.Admits k.world.system.tree (.temp id))
    (transport : String → Answer) (acts : List Act) (hserved : k.Served transport acts)
    (hend : ∀ a ∈ (k.after acts).world.adds, ∃ outcome, a.2 = .done outcome)
    (hroom : k.past.minted + acts.length < IdSource.room) :
    ((k.visits acts).map (·.call)).Perm (acts.filterMap Act.call?) ∧
      (∃ order k', order.Perm (k.visits acts) ∧
        (order.Pairwise fun v v' => ¬ v'.returned < v.called) ∧
        k.InTurn transport order k' ∧ k'.world.rows = (k.after acts).world.rows) ∧
      ∀ v ∈ k.visits acts, ∀ cause, v.verdict = .failed cause → ∀ id, v.id = some id →
        k.world.system.store.NothingNew k.world.system.tree (k.after acts).world.system.tree
          id := by
  have hq := quiescent_after fetchable c hc period t disks past k hk hdone hadmits (by omega)
  have hcount := hq.visits_perm acts hend
  have hfinal : ((History.start k).after acts).run = k.after acts := History.run_after _ acts
  have he := (hq.explained transport).after acts hserved (by
    have hle := (k.adds_after acts).2
    change _ + (k.after acts).world.adds.length < _
    omega)
  refine ⟨hcount, ?_, fun v hv cause hfailed id hid => ?_⟩
  · obtain ⟨marks, hlinear⟩ := he.linear
    obtain ⟨order, hperm, hordered, hperform⟩ := hlinear.order he.kept (hfinal ▸ hend)
    rw [hfinal] at hperform
    have hlength : order.length ≤ acts.length := by
      have hcalls := hcount.length_eq
      rw [List.length_map] at hcalls
      rw [hperm.length_eq]
      exact hcalls.trans_le (List.length_filterMap_le _ _)
    -- where the refresher holds the network, no call came to an end by means of it
    have hgo : k.world.refresher.stage.waits = false ∨ ∀ v ∈ order, v.verdict.Offline := by
      cases hwaits : k.world.refresher.stage.waits with
      | false => exact .inl rfl
      | true =>
        right
        intro v hv
        exact ((hq.offline hwaits).after acts hserved).visits v (hperm.mem_iff.mp hv)
    obtain ⟨k', hturn, hrows⟩ := hq.inTurn order _ hgo hperform (by omega)
    exact ⟨order, k', hperm, hordered, hturn, hrows⟩
  · rw [← hfinal]
    exact (he.tidy.visits v hv cause hfailed id hid).1

/-! ### Two additions of one name -/

/-- What the acts of callers find, where the transport answers to each candidate by its url. -/
def Answered (transport : String → Answer) (adds : List (Candidate × Adding)) : Act → Prop
  | .call _ => True
  | .add caller m => m.disk.fault = none ∧
    ∀ c stage, adds[caller]? = some (c, stage) → m.answer = transport c.url
  | .delete _ => True
  | _ => False

theorem served_of_answered (k : Run) (transport : String → Answer) (acts : List Act)
    (h : ∀ a ∈ acts, Answered transport (k.after acts).world.adds a) : k.Served transport acts := by
  induction acts generalizing k with
  | nil => trivial
  | cons a acts ih =>
    refine ⟨?_, ih (k.step a) fun a' ha' => h a' (List.mem_cons_of_mem a ha')⟩
    have hfirst := h a (by simp)
    cases a with
    | add caller m =>
      refine ⟨hfirst.1, fun c id hfetch => ?_⟩
      obtain ⟨stage', hlast⟩ := k.candidate_after (.add caller m :: acts) caller c _ hfetch
      exact hfirst.2 c stage' hlast
    | _ => exact hfirst

def lostMoment : Moment := { Moment.calm with answer := .failure "timed out" }

/-- Two additions of one name, the second of which fails, and a deletion that comes between. -/
def rivals : List Act :=
  .call ⟨"news", "http://c.example/"⟩ :: .call ⟨"news", "http://d.example/"⟩ ::
    ((List.replicate 14 [.add 0 .calm, .add 1 lostMoment]).flatten ++ [.delete "http://a.example/"])

def rivalsTransport (url : String) : Answer :=
  if url = "http://c.example/" then .response 200 [0x61] else .failure "timed out"

theorem rivals_candidates : (pairRun.after rivals).world.adds.map (·.1) =
    [⟨"news", "http://c.example/"⟩, ⟨"news", "http://d.example/"⟩] := by
  decide +kernel

theorem rivals_served : pairRun.Served rivalsTransport rivals := by
  refine pairRun.served_of_answered _ _ fun a ha => ?_
  have hcandidate (i : Nat) (c : Candidate) (stage : Adding)
      (h : (pairRun.after rivals).world.adds[i]? = some (c, stage)) :
      ([⟨"news", "http://c.example/"⟩, ⟨"news", "http://d.example/"⟩] : List Candidate)[i]? =
        some c := by
    rw [← rivals_candidates, List.getElem?_map, h]
    rfl
  simp only [rivals, List.mem_cons, List.mem_append, List.mem_flatten, List.not_mem_nil,
    or_false] at ha
  rcases ha with rfl | rfl | ⟨pair, hpair, ha⟩ | rfl
  · trivial
  · trivial
  · rw [List.eq_of_mem_replicate hpair] at ha
    simp only [List.mem_cons, List.not_mem_nil, or_false] at ha
    rcases ha with rfl | rfl
    · refine ⟨rfl, fun c stage h => ?_⟩
      obtain rfl := Option.some.inj (hcandidate 0 c stage h)
      decide
    · refine ⟨rfl, fun c stage h => ?_⟩
      obtain rfl := Option.some.inj (hcandidate 1 c stage h)
      decide
  · trivial

theorem rivals_over : ∀ a ∈ (pairRun.after rivals).world.adds, ∃ outcome, a.2 = .done outcome := by
  have hall : ((pairRun.after rivals).world.adds.all fun a => a.2.outcome?.isSome) = true := by
    decide +kernel
  intro a ha
  have hsome := List.all_eq_true.mp hall a ha
  obtain ⟨c, stage⟩ := a
  cases stage with
  | done outcome => exact ⟨outcome, rfl⟩
  | _ => cases hsome

theorem pairRun_admits (x : Slot) :
    pairRun.world.system.store.Admits pairRun.world.system.tree x := by
  have hstore : pairRun.world.system.store = ⟨"lists", "txt"⟩ := by decide +kernel
  have htree : pairRun.world.system.tree = .withLists := by rfl
  rw [hstore, htree]
  have hplain : (⟨"lists", "txt"⟩ : Store).Plain := by
    rintro c hc rfl
    exact absurd hc (by decide)
  have hhome : (⟨"lists", "txt"⟩ : Store).Home .withLists ["lists"] := ⟨by rfl⟩
  refine Store.admits_of_home hplain hhome (by decide) (by decide) ?_
  simp [FileTree.get?, Store.spot, FileTree.withLists]

theorem linearizable_rivals :
    Config.pair.fault? (fun _ => true) = none ∧
      (∀ a ∈ pairRun.world.adds, ∃ outcome, a.2 = .done outcome) ∧
      (∀ id : UInt64, pairRun.world.system.ids.last.toNat < id.toNat →
        pairRun.world.system.store.Admits pairRun.world.system.tree (.file id) ∧
          pairRun.world.system.store.Admits pairRun.world.system.tree (.temp id)) ∧
      pairRun.Served rivalsTransport rivals ∧
      (∀ a ∈ (pairRun.after rivals).world.adds, ∃ outcome, a.2 = .done outcome) ∧
      pairRun.past.minted + rivals.length < IdSource.room ∧
      ((pairRun.visits rivals).map (·.call)).Perm (rivals.filterMap Act.call?) ∧
      (∃ order k', order.Perm (pairRun.visits rivals) ∧
        (order.Pairwise fun v v' => ¬ v'.returned < v.called) ∧
        pairRun.InTurn rivalsTransport order k' ∧
        k'.world.rows = (pairRun.after rivals).world.rows) ∧
      ∀ v ∈ pairRun.visits rivals, ∀ cause, v.verdict = .failed cause → ∀ id, v.id = some id →
        pairRun.world.system.store.NothingNew pairRun.world.system.tree
          (pairRun.after rivals).world.system.tree id := by
  have hc : Config.pair.fault? (fun _ => true) = none := by decide +kernel
  have hdone : ∀ a ∈ pairRun.world.adds, ∃ outcome, a.2 = .done outcome := by
    have hadds : pairRun.world.adds = [] := by rfl
    simp [hadds]
  have hadmits (id : UInt64) (_ : pairRun.world.system.ids.last.toNat < id.toNat) :=
    And.intro (pairRun_admits (.file id)) (pairRun_admits (.temp id))
  have hroom : pairRun.past.minted + rivals.length < IdSource.room := by decide +kernel
  exact ⟨hc, hdone, hadmits, rivals_served, rivals_over, hroom,
    linearizable (fun _ => true) .pair hc (.ofSeconds 10) .withLists .readsAll [] pairRun rfl hdone
      hadmits rivalsTransport rivals rivals_served rivals_over hroom⟩

end Run
end ListKeeper
