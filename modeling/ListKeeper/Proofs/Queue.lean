import ListKeeper.Proofs.RoleSteps

/-! The queue for the network. In every state the tickets in it are those of the downloads that wait
for their turn or for their answer, each once. Main statement: `World.Queued.step`. -/
namespace ListKeeper

/-- A download that stands in the queue or is served. -/
def Fetching.waits : Fetching → Bool
  | .wait => true
  | .exchange => true
  | _ => false

def Adding.waits : Adding → Bool
  | .fetch _ f => f.waits
  | _ => false

def Stage.waits : Stage → Bool
  | .fetch _ f => f.waits
  | _ => false

/-- The holder of a ticket takes a step: whether it waits and the queue, before and after it. -/
inductive Fetching.Moves (ticket : Nat) : Bool → List Nat → Bool → List Nat → Prop
  | stays (waits : Bool) (gate : List Nat) : Moves ticket waits gate waits gate
  | joins (gate : List Nat) : Moves ticket false gate true (gate ++ [ticket])
  | leaves (gate : List Nat) : Moves ticket true gate false (gate.erase ticket)

theorem Fetching.step_moves (url : String) (ticket : Nat) (m : Moment) (s : System)
    (f : Fetching) :
    Moves ticket f.waits s.gate (f.step url ticket m s).2.waits (f.step url ticket m s).1.gate := by
  cases f with
  | arrive => exact .joins s.gate
  | wait =>
    simp only [step]
    split <;> exact .stays true s.gate
  | exchange => exact .leaves s.gate
  | done outcome => exact .stays false s.gate

open Fetching

theorem System.discard_gate (s : System) (disk : Disk) (id : UInt64) :
    (s.discard disk id).gate = s.gate := by
  obtain ⟨t, ht⟩ := s.discard_eq disk id
  rw [ht]

theorem Adding.step_moves (c : Candidate) (ticket : Nat) (m : Moment) (s : System)
    (stage : Adding) :
    Moves ticket stage.waits s.gate (stage.step c ticket m s).2.waits
      (stage.step c ticket m s).1.gate := by
  cases stage with
  | check =>
    simp only [step]
    split <;> exact .stays false s.gate
  | mint => exact .stays false s.gate
  | fetch id f =>
    cases f with
    | done outcome => cases outcome <;> exact .stays false s.gate
    | arrive => exact Fetching.step_moves c.url ticket m s .arrive
    | wait => exact Fetching.step_moves c.url ticket m s .wait
    | exchange => exact Fetching.step_moves c.url ticket m s .exchange
  | write id body w =>
    cases w with
    | done outcome => cases outcome <;> exact .stays false s.gate
    | _ => exact .stays false s.gate
  | insert id body =>
    simp only [step]
    split <;> exact .stays false s.gate
  | withdraw id =>
    simp only [step, s.discard_gate]
    exact .stays false s.gate
  | done outcome => exact .stays false s.gate

theorem Committing.step_gate (m : Moment) (s : System) (c : Committing) :
    (c.step m s).1.gate = s.gate := by
  cases c with
  | snapshot =>
    simp only [step]
    split <;> rfl
  | close pairs =>
    simp only [step]
    split <;> rfl
  | promote pairs report =>
    cases pairs with
    | nil => rfl
    | cons q rest =>
      obtain ⟨id, stagedId⟩ := q
      simp only [step]
      split
      · rfl
      · split <;> rfl
  | restart report =>
    simp only [step]
    split <;> rfl
  | _ => rfl

theorem Refresher.step_moves (ticket : Nat) (m : Moment) (s : System) (r : Refresher) :
    Moves ticket r.stage.waits s.gate (r.step ticket m s).2.stage.waits
      (r.step ticket m s).1.gate := by
  obtain ⟨stage, dirty, report⟩ := r
  cases stage with
  | select =>
    simp only [step]
    split
    · exact .stays false s.gate
    · cases dirty || s.registry.hasPending <;> exact .stays false s.gate
  | fetch e f =>
    cases f with
    -- a download that is over has left the queue
    | done outcome => cases outcome <;> exact .stays false s.gate
    | arrive => exact Fetching.step_moves e.url ticket m s .arrive
    | wait => exact Fetching.step_moves e.url ticket m s .wait
    | exchange => exact Fetching.step_moves e.url ticket m s .exchange
  | mint e body => exact .stays false s.gate
  | write e stagedId body w =>
    cases w with
    | done outcome => cases outcome <;> exact .stays false s.gate
    | _ => exact .stays false s.gate
  | record e stagedId body =>
    simp only [step]
    split
    · exact .stays false s.gate
    · rename_i superseded registry hstaged
      cases superseded with
      | none => exact .stays false s.gate
      | some old =>
        by_cases hsame : old = e.id
        · simp only [if_pos hsame]
          exact .stays false s.gate
        · simp only [if_neg hsame]
          exact .stays false s.gate
  | tidy file =>
    simp only [step, s.discard_gate]
    exact .stays false s.gate
  | tally succeeded => cases succeeded <;> exact .stays false s.gate
  | commit c =>
    cases c with
    | done rep => exact .stays false s.gate
    | _ =>
      simp only [step, Committing.step_gate]
      exact .stays false s.gate
  | idle => exact .stays false s.gate

namespace World

def waits (w : World) : Nat → Bool
  | 0 => w.refresher.stage.waits
  | caller + 1 =>
    match w.adds[caller]? with
    | some (_, stage) => stage.waits
    | none => false

/-- The queue holds the tickets of those who wait, each once. -/
structure Queued (w : World) : Prop where
  nodup : w.system.gate.Nodup
  mem_iff : ∀ ticket, ticket ∈ w.system.gate ↔ w.waits ticket = true

variable {w : World}

theorem exists_of_waits {caller : Nat} (h : w.waits (caller + 1) = true) :
    ∃ c stage, w.adds[caller]? = some (c, stage) ∧ stage.waits = true := by
  simp only [waits] at h
  split at h
  · exact ⟨_, _, ‹_›, h⟩
  · cases h

/-- Who waits while no one else does is served. -/
theorem Queued.head (h : w.Queued) (ticket : Nat) (hwaits : w.waits ticket = true)
    (honly : ∀ x, w.waits x = true → x = ticket) : w.system.gate.head? = some ticket := by
  have hmem := (h.mem_iff ticket).mpr hwaits
  cases hgate : w.system.gate with
  | nil => simp [hgate] at hmem
  | cons x rest =>
    have hfirst := (h.mem_iff x).mp (by simp [hgate])
    simp [honly x hfirst]

/-- The holder of a ticket moves, and no one else does. -/
theorem Queued.moved (h : w.Queued) (w' : World) (ticket : Nat)
    (hmoves : Moves ticket (w.waits ticket) w.system.gate (w'.waits ticket) w'.system.gate)
    (hothers : ∀ x, x ≠ ticket → w'.waits x = w.waits x) : w'.Queued := by
  have hmem := h.mem_iff
  have hnodup := h.nodup
  generalize hwaits : w.waits ticket = before at hmoves
  generalize w.system.gate = gate at hmoves hmem hnodup
  generalize hwaits' : w'.waits ticket = after at hmoves
  generalize hgate' : w'.system.gate = gate' at hmoves
  cases hmoves with
  | stays =>
    refine ⟨hgate' ▸ hnodup, ?_⟩
    intro x
    rw [hgate', hmem x]
    by_cases hx : x = ticket
    · rw [hx, hwaits, hwaits']
    · rw [hothers x hx]
  | joins =>
    -- who joins did not stand in the queue yet
    have hnot : ticket ∉ gate := by simp [hmem ticket, hwaits]
    refine ⟨?_, ?_⟩
    · rw [hgate', List.nodup_append]
      refine ⟨hnodup, by simp, ?_⟩
      rintro x hx y hy rfl
      exact hnot (List.mem_singleton.mp hy ▸ hx)
    · intro x
      rw [hgate', List.mem_append, List.mem_singleton, hmem x]
      by_cases hx : x = ticket
      · simp [hx, hwaits']
      · simp [hx, hothers x hx]
  | leaves =>
    refine ⟨hgate' ▸ hnodup.erase ticket, ?_⟩
    intro x
    rw [hgate', hnodup.mem_erase_iff, hmem x]
    by_cases hx : x = ticket
    · simp [hx, hwaits']
    · simp [hx, hothers x hx]

/-- Every step keeps the queue in order. -/
theorem Queued.step (h : w.Queued) (a : Act) : (w.step a).Queued := by
  cases a with
  | call c =>
    refine h.moved (w.step (.call c)) 0 (.stays _ _) ?_
    intro x hx
    cases x with
    | zero => exact absurd rfl hx
    | succ caller =>
      simp only [waits, World.step, List.getElem?_append]
      by_cases hlen : caller < w.adds.length
      · rw [if_pos hlen]
      -- a new addition does not wait yet
      · rw [if_neg hlen, List.getElem?_eq_none (by omega : w.adds.length ≤ caller)]
        cases caller - w.adds.length <;> rfl
  | add caller m =>
    cases hadd : w.adds[caller]? with
    | none =>
      simp only [World.step, hadd]
      exact h
    | some q =>
      obtain ⟨c, stage⟩ := q
      have hlen : caller < w.adds.length := (List.getElem?_eq_some_iff.mp hadd).1
      refine h.moved (w.step (.add caller m)) (caller + 1) ?_ ?_
      · have hmoves := stage.step_moves c (caller + 1) m w.system
        simpa only [waits, World.step, hadd, List.getElem?_set_self hlen] using hmoves
      · intro x hx
        cases x with
        | zero => simp [waits, World.step, hadd]
        | succ other =>
          have hne : caller ≠ other := by omega
          simp [waits, World.step, hadd, List.getElem?_set_ne hne]
  | delete url =>
    obtain ⟨es, journal, heq, -⟩ := w.system.delete_eq url
    simp only [World.step, heq]
    exact ⟨h.nodup, h.mem_iff⟩
  | startPass =>
    simp only [World.step]
    split
    · rename_i hidle
      refine ⟨h.nodup, ?_⟩
      intro x
      rw [h.mem_iff]
      cases x with
      | zero =>
        revert hidle
        unfold Refresher.isIdle
        cases hstage : w.refresher.stage <;> simp [waits, Refresher.startPass, hstage, Stage.waits]
      | succ caller => rfl
    · exact h
  | refresh m =>
    refine h.moved (w.step (.refresh m)) 0 (w.refresher.step_moves 0 m w.system) ?_
    intro x hx
    cases x with
    | zero => exact absurd rfl hx
    | succ caller => rfl

end World

theorem Run.queued_after (k : Run) (hk : k.world.Queued) (acts : List Act) :
    (k.after acts).world.Queued := world_after World.Queued (fun _ a h => h.step a) k hk acts

end ListKeeper
