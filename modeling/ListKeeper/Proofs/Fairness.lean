import ListKeeper.Proofs.Sequential

/-! Calls come to their end. Where every caller acts again and again, one who stands in the queue
for the network comes to its head, since whoever is served there leaves it; so every addition ends,
whatever else is called for meanwhile. Main statements: `Run.Fair.leads`, the rule by which one
caller's act brings something about, and `Run.Fair.returns`. -/
namespace ListKeeper

def Act.ofCaller : Act → Bool
  | .startPass => false
  | .refresh _ => false
  | _ => true

/-- The holder of another ticket moves: who is ahead stays so, but for that holder. -/
theorem Fetching.Moves.ahead {ticket other : Nat} {waits waits' : Bool} {gate gate' : List Nat}
    (h : Moves other waits gate waits' gate') (hne : other ≠ ticket) (ahead : List Nat)
    (hgate : ∃ behind, gate = ahead ++ ticket :: behind) :
    ∃ ahead' behind, gate' = ahead' ++ ticket :: behind ∧
      (ahead' = ahead ∨ ahead'.length < ahead.length) := by
  obtain ⟨behind, rfl⟩ := hgate
  cases h with
  | stays => exact ⟨ahead, behind, rfl, .inl rfl⟩
  | joins => exact ⟨ahead, behind ++ [other], by simp, .inl rfl⟩
  | leaves =>
    rw [List.erase_append]
    by_cases hmem : other ∈ ahead
    · rw [if_pos hmem]
      have hlen := List.length_erase_of_mem hmem
      have hpos := List.length_pos_of_mem hmem
      exact ⟨ahead.erase other, behind, rfl, .inr (by omega)⟩
    · rw [if_neg hmem, List.erase_cons_tail (by simpa using hne.symm)]
      exact ⟨ahead, behind.erase other, rfl, .inl rfl⟩

namespace World

variable {w : World} {caller : Nat} {c : Candidate} {id : UInt64} {ahead : List Nat}

/-- An act of a caller is none of the refresher. -/
theorem refresher_step (w : World) (a : Act) (ha : a.ofCaller = true) :
    (w.step a).refresher = w.refresher := by
  cases a with
  | add i m =>
    simp only [step]
    split <;> rfl
  | startPass => cases ha
  | refresh m => cases ha
  | _ => rfl

/-- No one but callers stands in the queue. -/
structure Flows (w : World) : Prop where
  queued : w.Queued
  free : w.refresher.stage.waits = false

theorem Flows.step (h : w.Flows) (a : Act) (ha : a.ofCaller = true) : (w.step a).Flows := by
  refine ⟨h.queued.step a, ?_⟩
  rw [w.refresher_step a ha]
  exact h.free

/-- A caller waits for its turn, with those ahead of it. -/
structure Behind (w : World) (caller : Nat) (c : Candidate) (id : UInt64) (ahead : List Nat) :
    Prop where
  add : w.adds[caller]? = some (c, .fetch id .wait)
  gate : ∃ behind, w.system.gate = ahead ++ (caller + 1) :: behind

/-- Who waits for its turn is in the queue. -/
theorem Flows.behind (h : w.Flows) (hadd : w.adds[caller]? = some (c, .fetch id .wait)) :
    ∃ ahead, w.Behind caller c id ahead := by
  have hmem : caller + 1 ∈ w.system.gate := by
    rw [h.queued.mem_iff]
    simp only [waits, hadd]
    rfl
  obtain ⟨ahead, behind, hgate⟩ := List.append_of_mem hmem
  exact ⟨ahead, hadd, behind, hgate⟩

/-- At the head of the queue is a caller, whose download waits or is served. -/
theorem Flows.head (h : w.Flows) (ticket : Nat) (hhead : w.system.gate.head? = some ticket) :
    ∃ i c id f, ticket = i + 1 ∧ w.adds[i]? = some (c, .fetch id f) ∧
      (f = .wait ∨ f = .exchange) := by
  have hwaits := (h.queued.mem_iff ticket).mp (List.mem_of_head? hhead)
  cases ticket with
  | zero =>
    simp only [waits, h.free] at hwaits
    cases hwaits
  | succ i =>
    obtain ⟨c, stage, hadd, hstage⟩ := exists_of_waits hwaits
    cases stage with
    | fetch id f =>
      refine ⟨i, c, id, f, rfl, hadd, ?_⟩
      cases f with
      | wait => exact .inl rfl
      | exchange => exact .inr rfl
      | _ => cases hstage
    | _ => cases hstage

theorem Behind.ne_of_ahead (h : w.Behind caller c id ahead) (hflows : w.Flows) (ticket : Nat)
    (hmem : ticket ∈ ahead) : ticket ≠ caller + 1 := by
  obtain ⟨-, behind, hgate⟩ := h
  have hnodup := hflows.queued.nodup
  rw [hgate, List.nodup_append] at hnodup
  exact hnodup.2.2 ticket hmem (caller + 1) (by simp)

/-- While others act, no one comes to be ahead of who waits. -/
theorem Behind.of_others (h : w.Behind caller c id ahead) (a : Act) (ha : a.ofCaller = true)
    (hother : ∀ m, a ≠ .add caller m) :
    (w.step a).Behind caller c id ahead ∨
      ∃ ahead', (w.step a).Behind caller c id ahead' ∧ ahead'.length < ahead.length := by
  obtain ⟨hadd, hgate⟩ := h
  have hadd' := adds_step_of_ne _ hadd a hother
  have hkeep (hsame : (w.step a).system.gate = w.system.gate) :
      (w.step a).Behind caller c id ahead := ⟨hadd', by rwa [hsame]⟩
  cases a with
  | call c' => exact .inl (hkeep rfl)
  | add i m =>
    cases hi : w.adds[i]? with
    | none => exact .inl (hkeep (by simp only [World.step, hi]))
    | some q =>
      obtain ⟨ci, stage⟩ := q
      have hne : i + 1 ≠ caller + 1 := by
        rintro heq
        obtain rfl := Nat.succ.inj heq
        exact hother m rfl
      have hmoves := stage.step_moves ci (i + 1) m w.system
      obtain ⟨ahead', behind, hgate', hless⟩ := hmoves.ahead hne ahead hgate
      rw [← (step_add stage hi m).1] at hgate'
      rcases hless with rfl | hless
      · exact .inl ⟨hadd', behind, hgate'⟩
      · exact .inr ⟨ahead', ⟨hadd', behind, hgate'⟩, hless⟩
  | delete url =>
    obtain ⟨es, journal, heq, -⟩ := w.system.delete_eq url
    refine .inl (hkeep ?_)
    simp only [World.step, heq]
  | startPass => cases ha
  | refresh m => cases ha

/-- Who is behind others waits, whoever acts. -/
theorem Behind.step (h : w.Behind caller c id ahead) (hflows : w.Flows) (hahead : ahead ≠ [])
    (a : Act) (ha : a.ofCaller = true) :
    (w.step a).Behind caller c id ahead ∨
      ∃ ahead', (w.step a).Behind caller c id ahead' ∧ ahead'.length < ahead.length := by
  by_cases hown : ∃ m, a = .add caller m
  -- it is not served, so its own step changes nothing
  · obtain ⟨m, rfl⟩ := hown
    obtain ⟨first, rest, rfl⟩ := List.exists_cons_of_ne_nil hahead
    have hfirst := h.ne_of_ahead hflows first (by simp)
    obtain ⟨hsystem, hadd'⟩ := step_add _ h.add m
    obtain ⟨behind, hgate⟩ := h.gate
    have hnot : w.system.gate.head? ≠ some (caller + 1) := by
      rw [hgate]
      exact fun heq => hfirst (Option.some.inj heq)
    simp only [Adding.step, Fetching.step, if_neg hnot] at hsystem hadd'
    exact .inl ⟨hadd', behind, by rwa [hsystem]⟩
  · exact h.of_others a ha fun m heq => hown ⟨m, heq⟩

/-- The first in the queue is served in its own step. -/
theorem Behind.serves {i : Nat} {rest : List Nat} (h : w.Behind caller c id ((i + 1) :: rest))
    (hflows : w.Flows) {ci : Candidate} {idi : UInt64}
    (hadd : w.adds[i]? = some (ci, .fetch idi .wait)) (m : Moment) :
    (w.step (.add i m)).Behind caller c id ((i + 1) :: rest) ∧
      (w.step (.add i m)).adds[i]? = some (ci, .fetch idi .exchange) := by
  have hne := h.ne_of_ahead hflows (i + 1) (by simp)
  obtain ⟨hsystem, hadd'⟩ := step_add _ hadd m
  obtain ⟨behind, hgate⟩ := h.gate
  have hhead : w.system.gate.head? = some (i + 1) := by simp [hgate]
  simp only [Adding.step, Fetching.step, if_pos hhead] at hsystem hadd'
  have hstays := adds_step_of_ne _ h.add (.add i m) (by rintro m' ⟨⟩; exact hne rfl)
  refine ⟨⟨hstays, behind, ?_⟩, hadd'⟩
  rw [hsystem]
  exact hgate

/-- When it has its answer it leaves the queue. -/
theorem Behind.leaves {i : Nat} {rest : List Nat} (h : w.Behind caller c id ((i + 1) :: rest))
    (hflows : w.Flows) {ci : Candidate} {idi : UInt64}
    (hadd : w.adds[i]? = some (ci, .fetch idi .exchange)) (m : Moment) :
    (w.step (.add i m)).Behind caller c id rest := by
  have hne := h.ne_of_ahead hflows (i + 1) (by simp)
  obtain ⟨hsystem, -⟩ := step_add _ hadd m
  obtain ⟨behind, hgate⟩ := h.gate
  have hstays := adds_step_of_ne _ h.add (.add i m) (by rintro m' ⟨⟩; exact hne rfl)
  refine ⟨hstays, behind, ?_⟩
  rw [hsystem]
  simp only [Adding.step, Fetching.step]
  rw [hgate, List.cons_append, List.erase_cons_head]

end World

namespace Run

def along (k : Run) (schedule : Nat → Act) (n : Nat) : Run :=
  k.after ((List.range n).map schedule)

/-- Callers act, and each of them again and again. -/
structure Fair (schedule : Nat → Act) : Prop where
  callers : ∀ n, (schedule n).ofCaller = true
  again : ∀ caller n, ∃ l m, n ≤ l ∧ schedule l = .add caller m

/-- A call is under way after some acts and returns in its next step. -/
structure Ends (k : Run) (caller : Nat) (c : Candidate) (acts : List Act) (m : Moment)
    (outcome : Except SyncError Entry) : Prop where
  opened : ∃ stage, (k.after acts).world.adds[caller]? = some (c, stage) ∧ stage.outcome? = none
  closed : (k.after (acts ++ [.add caller m])).world.adds[caller]? = some (c, .done outcome)

variable {k : Run} {schedule : Nat → Act}

theorem along_succ (k : Run) (schedule : Nat → Act) (n : Nat) :
    k.along schedule (n + 1) = (k.along schedule n).step (schedule n) := by
  rw [along, List.range_succ, List.map_append, List.map_singleton, after_concat, along]

namespace Fair

theorem flows (h : Fair schedule) (hk : k.world.Flows) (n : Nat) :
    (k.along schedule n).world.Flows := by
  induction n with
  | zero => exact hk
  | succ n ih =>
    rw [along_succ]
    exact ih.step _ (h.callers n)

/-- What others can only leave or bring about, and what one caller brings about with its next act,
comes about. -/
theorem leads (h : Fair schedule) (hk : k.world.Flows) (i : Nat) (P Q : World → Prop)
    (hothers : ∀ (w : World) (a : Act), w.Flows → P w → a.ofCaller = true →
      (∀ m, a ≠ .add i m) → P (w.step a) ∨ Q (w.step a))
    (hown : ∀ (w : World) (m : Moment), w.Flows → P w → Q (w.step (.add i m)))
    (n : Nat) (hn : P (k.along schedule n).world) :
    ∃ l, n < l ∧ Q (k.along schedule l).world := by
  obtain ⟨last, m, hle, hlast⟩ := h.again i n
  obtain ⟨d, rfl⟩ := Nat.exists_eq_add_of_le hle
  -- the induction is on the time until the caller acts next
  induction d generalizing n with
  | zero =>
    refine ⟨n + 1, Nat.lt_succ_self n, ?_⟩
    rw [along_succ, ← Nat.add_zero n, hlast]
    exact hown _ m (h.flows hk n) hn
  | succ d ih =>
    by_cases hnow : ∃ m', schedule n = .add i m'
    · obtain ⟨m', hm'⟩ := hnow
      refine ⟨n + 1, Nat.lt_succ_self n, ?_⟩
      rw [along_succ, hm']
      exact hown _ m' (h.flows hk n) hn
    · have hstep := hothers _ (schedule n) (h.flows hk n) hn (h.callers n)
        fun m' heq => hnow ⟨m', heq⟩
      have hnext : k.along schedule (n + 1) = (k.along schedule n).step (schedule n) :=
        k.along_succ schedule n
      change P ((k.along schedule n).step (schedule n)).world ∨
        Q ((k.along schedule n).step (schedule n)).world at hstep
      rw [← hnext] at hstep
      rcases hstep with hP | hQ
      · obtain ⟨l, hl, hQ⟩ := ih (n + 1) hP (by omega) (by rwa [Nat.add_right_comm, Nat.add_assoc])
        exact ⟨l, by omega, hQ⟩
      · exact ⟨n + 1, Nat.lt_succ_self n, hQ⟩

variable {caller : Nat} {c : Candidate} {id : UInt64} {ahead : List Nat}

/-- The queue before one who waits gets shorter. -/
theorem shortens (h : Fair schedule) (hk : k.world.Flows) (n : Nat)
    (hn : (k.along schedule n).world.Behind caller c id ahead) (hahead : ahead ≠ []) :
    ∃ l ahead', n ≤ l ∧ (k.along schedule l).world.Behind caller c id ahead' ∧
      ahead'.length < ahead.length := by
  obtain ⟨first, rest, rfl⟩ := List.exists_cons_of_ne_nil hahead
  have hhead : (k.along schedule n).world.system.gate.head? = some first := by
    obtain ⟨behind, hgate⟩ := hn.gate
    simp [hgate]
  obtain ⟨i, ci, idi, f, rfl, hi, hf⟩ := (h.flows hk n).head first hhead
  let Shorter (w : World) : Prop :=
    ∃ ahead', w.Behind caller c id ahead' ∧ ahead'.length < ((i + 1) :: rest).length
  -- while others act the first of the queue stays where it is, or the queue gets shorter
  have hothers (f : Fetching) (w : World) (a : Act) (hw : w.Flows)
      (hP : w.Behind caller c id ((i + 1) :: rest) ∧ w.adds[i]? = some (ci, .fetch idi f))
      (ha : a.ofCaller = true) (hother : ∀ m, a ≠ .add i m) :
      ((w.step a).Behind caller c id ((i + 1) :: rest) ∧
        (w.step a).adds[i]? = some (ci, .fetch idi f)) ∨ Shorter (w.step a) := by
    rcases hP.1.step hw (by simp) a ha with hsame | hless
    · exact .inl ⟨hsame, World.adds_step_of_ne _ hP.2 a hother⟩
    · exact .inr hless
  have hanswered (l : Nat) (hl : (k.along schedule l).world.Behind caller c id ((i + 1) :: rest) ∧
      (k.along schedule l).world.adds[i]? = some (ci, .fetch idi .exchange)) :
      ∃ l', l < l' ∧ Shorter (k.along schedule l').world := by
    refine h.leads hk i _ Shorter (hothers .exchange) (fun w m hw hP => ?_) l hl
    exact ⟨rest, hP.1.leaves hw hP.2 m, by simp⟩
  -- one that waits is served first and answered then
  rcases hf with rfl | rfl
  · obtain ⟨l, hl, hserved | hless⟩ := h.leads hk i _ (fun w =>
      (w.Behind caller c id ((i + 1) :: rest) ∧ w.adds[i]? = some (ci, .fetch idi .exchange)) ∨
        Shorter w)
      (fun w a hw hP ha hother => (hothers .wait w a hw hP ha hother).imp_right .inr)
      (fun w m hw hP => .inl (hP.1.serves hw hP.2 m)) n ⟨hn, hi⟩
    · obtain ⟨l', hl', ahead', hless⟩ := hanswered l hserved
      exact ⟨l', ahead', by omega, hless⟩
    · obtain ⟨ahead', hless⟩ := hless
      exact ⟨l, ahead', by omega, hless⟩
  · obtain ⟨l, hl, ahead', hless⟩ := hanswered n ⟨hn, hi⟩
    exact ⟨l, ahead', by omega, hless⟩

/-- Who waits comes to the head of the queue. -/
theorem served (h : Fair schedule) (hk : k.world.Flows) (n : Nat)
    (hn : (k.along schedule n).world.Behind caller c id ahead) :
    ∃ l, n ≤ l ∧ (k.along schedule l).world.Behind caller c id [] := by
  -- the induction is on the number of those ahead
  induction hlen : ahead.length using Nat.strong_induction_on generalizing n ahead with
  | _ len ih =>
    by_cases hahead : ahead = []
    · exact ⟨n, Nat.le_refl n, hahead ▸ hn⟩
    · obtain ⟨l, ahead', hl, hbehind, hless⟩ := h.shortens hk n hn hahead
      obtain ⟨l', hl', hfirst⟩ := ih _ (hlen ▸ hless) l hbehind rfl
      exact ⟨l', Nat.le_trans hl hl', hfirst⟩

/-- An addition under way comes nearer to its end. -/
theorem nears (h : Fair schedule) (hk : k.world.Flows) (n : Nat) (stage : Adding)
    (hadd : (k.along schedule n).world.adds[caller]? = some (c, stage))
    (hopen : stage.outcome? = none) :
    ∃ l stage', (k.along schedule l).world.adds[caller]? = some (c, stage') ∧
      stage'.Nearer stage := by
  let Nears (w : World) : Prop :=
    ∃ stage', w.adds[caller]? = some (c, stage') ∧ stage'.Nearer stage
  have hown (w : World) (m : Moment) (hw : w.adds[caller]? = some (c, stage))
      (hserved : ∀ id, stage = .fetch id .wait → w.system.gate.head? = some (caller + 1)) :
      Nears (w.step (.add caller m)) :=
    ⟨_, (World.step_add stage hw m).2, stage.step_nearer c (caller + 1) m w.system hopen hserved⟩
  -- only one who waits in the queue needs others to act
  by_cases hwait : ∃ id, stage = .fetch id .wait
  · obtain ⟨id, rfl⟩ := hwait
    obtain ⟨ahead, hbehind⟩ := (h.flows hk n).behind hadd
    obtain ⟨l, -, hfirst⟩ := h.served hk n hbehind
    have hleads : ∃ l', l < l' ∧ Nears (k.along schedule l').world := by
      refine h.leads hk caller (fun w => w.Behind caller c id []) Nears
        (fun w a hw hP ha hother => ?_) (fun w m hw hP => ?_) l hfirst
      · rcases hP.of_others a ha hother with hsame | ⟨ahead', -, hless⟩
        · exact .inl hsame
        · cases hless
      · refine hown w m hP.add fun _ _ => ?_
        obtain ⟨behind, hgate⟩ := hP.gate
        simp [hgate]
    obtain ⟨l', -, hnears⟩ := hleads
    exact ⟨l', hnears⟩
  · obtain ⟨l, -, hnears⟩ := h.leads hk caller (fun w => w.adds[caller]? = some (c, stage)) Nears
      (fun w a hw hP ha hother => .inl (World.adds_step_of_ne _ hP a hother))
      (fun w m hw hP => hown w m hP fun id heq => absurd ⟨id, heq⟩ hwait) n hadd
    exact ⟨l, hnears⟩

/-- Every addition under way comes to its end. -/
theorem ends (h : Fair schedule) (hk : k.world.Flows) (n : Nat) (stage : Adding)
    (hadd : (k.along schedule n).world.adds[caller]? = some (c, stage)) :
    ∃ l outcome, (k.along schedule l).world.adds[caller]? = some (c, .done outcome) := by
  -- the induction is on the distance from the end
  induction stage using Adding.nearer_wf.induction generalizing n with
  | _ stage ih =>
    cases hout : stage.outcome? with
    | some outcome =>
      obtain rfl := Adding.outcome?_eq_some hout
      exact ⟨n, outcome, hadd⟩
    | none =>
      obtain ⟨l, stage', hadd', hnearer⟩ := h.nears hk n stage hadd hout
      exact ih stage' hnearer l hadd'

/-- Every addition under way returns in a step of its own. -/
theorem returns (h : Fair schedule) (hk : k.world.Flows) (stage : Adding)
    (hadd : k.world.adds[caller]? = some (c, stage)) (hopen : stage.outcome? = none) :
    ∃ n m outcome, schedule n = .add caller m ∧
      k.Ends caller c ((List.range n).map schedule) m outcome := by
  obtain ⟨l, outcome, hover⟩ := h.ends hk 0 stage hadd
  -- the induction goes back to the step that made the difference
  induction l generalizing outcome with
  | zero =>
    rw [Prod.mk.inj (Option.some.inj (hadd.symm.trans hover)) |>.2] at hopen
    cases hopen
  | succ l ih =>
    obtain ⟨before, hbefore⟩ := k.candidate_after ((List.range l).map schedule) caller c stage hadd
    cases hout : before.outcome? with
    | some outcome' =>
      obtain rfl := Adding.outcome?_eq_some hout
      exact ih outcome' hbefore
    | none =>
      by_cases hown : ∃ m, schedule l = .add caller m
      · obtain ⟨m, hm⟩ := hown
        refine ⟨l, m, outcome, hm, ⟨before, hbefore, hout⟩, ?_⟩
        rw [along_succ, hm] at hover
        rw [after_concat]
        exact hover
      · rw [along_succ] at hover
        have hsame := World.adds_step_of_ne _ hbefore (schedule l) fun m heq => hown ⟨m, heq⟩
        rw [Prod.mk.inj (Option.some.inj (hsame.symm.trans hover)) |>.2] at hout
        cases hout

end Fair
end Run
end ListKeeper
