import Mathlib.Data.List.Induction
import ListKeeper.Proofs.Isolation

/-! The consumer is never left paused. The loop of the passes works on a system while lists are
added and deleted, and the word to stop can come at any moment. Its calls to the consumer come in
pairs, and within a pair it only renames staged files. Main statement: `Watch.consumer_resumed`. -/
namespace ListKeeper

/-- The loop of the passes on a system, and the additions under way. `told` says that the word to
stop has come, or that no word can come any more. -/
structure Watch where
  system : System
  adds : List (Candidate × Adding)
  loop : Loop
  told : Bool

/-- What happens next. -/
inductive Deed
  | call (c : Candidate)
  | add (caller : Nat) (m : Moment)
  | delete (url : String)
  | tell
  | turn (call : Option Loop.Call) (m : Moment)

namespace Deed

def isTurn : Deed → Bool
  | turn _ _ => true
  | _ => false

end Deed

namespace Event

def isCall : Event → Bool
  | closed => true
  | restarted => true
  | _ => false

/-- A number of pairs of calls, each a pause and its end. -/
def windows (n : Nat) : List Event := (List.replicate n [closed, restarted]).flatten

theorem windows_succ (n : Nat) : windows (n + 1) = windows n ++ [closed, restarted] := by
  simp [windows, List.replicate_succ']

end Event

def Loop.pausing : Loop → Bool
  | passing r => r.stage.pausing
  | _ => false

/-- How many steps a commit takes at most until it calls the consumer for the second time. -/
def Stage.untilRestart : Stage → Nat
  | .commit (.promote pairs _) => 2 * pairs.length + 2
  | .commit (.clear _ _ rest _) => 2 * rest.length + 3
  | .commit (.restart _) => 1
  | _ => 0

/-- What a step of a pass notes. Selections, requests and records are noted outside the pairs of
calls, renamings inside; within a pair every step comes nearer to its end. -/
inductive Stage.Notes : Stage → Stage → List Event → Prop
  | silent (stage stage' : Stage) (hpausing : stage'.pausing = stage.pausing)
      (hnear : stage.pausing = true → stage'.untilRestart < stage.untilRestart) :
    Notes stage stage' []
  | refreshing (stage stage' : Stage) (event : Event) (hcall : event.isCall = false)
      (hbefore : stage.pausing = false) (hafter : stage'.pausing = false) :
    Notes stage stage' [event]
  | closed (pairs : List (UInt64 × UInt64)) (report : CommitReport) :
    Notes (.commit (.close pairs)) (.commit (.promote pairs report)) [.closed]
  | renamed (stage stage' : Stage) (id stagedId : UInt64) (succeeded : Bool)
      (hbefore : stage.pausing = true) (hafter : stage'.pausing = true)
      (hnear : stage'.untilRestart < stage.untilRestart) :
    Notes stage stage' [.renamed id stagedId succeeded]
  | restarted (report : CommitReport) :
    Notes (.commit (.restart report)) (.commit (.count report)) [.restarted]

theorem Committing.step_notes (m : Moment) (s : System) (c : Committing) :
    ∃ events, (c.step m s).1.journal = s.journal ++ events ∧
      Stage.Notes (.commit c) (.commit (c.step m s).2) events := by
  cases c with
  | snapshot =>
    simp only [step]
    split <;> exact ⟨[], by simp, .silent _ _ rfl (by simp [Stage.pausing])⟩
  | close pairs =>
    simp only [step]
    split <;> exact ⟨[.closed], rfl, .closed pairs .empty⟩
  | promote pairs report =>
    cases pairs with
    | nil => exact ⟨[], by simp [step], .silent _ _ rfl (by simp [step, Stage.untilRestart])⟩
    | cons q rest =>
      obtain ⟨id, stagedId⟩ := q
      simp only [step]
      split
      · exact ⟨[], by simp, .silent _ _ rfl (by simp [Stage.untilRestart])⟩
      · split
        · exact ⟨[.renamed id stagedId true], rfl,
            .renamed _ _ id stagedId true rfl rfl (by simp [Stage.untilRestart]; omega)⟩
        · exact ⟨[.renamed id stagedId false], rfl,
            .renamed _ _ id stagedId false rfl rfl (by simp [Stage.untilRestart])⟩
  | clear id stagedId rest report =>
    exact ⟨[], by simp [step], .silent _ _ rfl (by simp [step, Stage.untilRestart])⟩
  | restart report =>
    simp only [step]
    split <;> exact ⟨[.restarted], rfl, .restarted report⟩
  | count report => exact ⟨[], by simp [step], .silent _ _ rfl (by simp [Stage.pausing])⟩
  | done report => exact ⟨[], by simp [step], .silent _ _ rfl (by simp [Stage.pausing])⟩

theorem Refresher.step_notes (ticket : Nat) (m : Moment) (s : System) (r : Refresher) :
    ∃ events, (r.step ticket m s).1.journal = s.journal ++ events ∧
      Stage.Notes r.stage (r.step ticket m s).2.stage events := by
  have hsteps := r.steps ticket m s
  generalize r.step ticket m s = out at hsteps ⊢
  cases hsteps with
  | quiet stage stage' dirty dirty' report report' s' hquiet hstill =>
    have hpausing : stage.pausing = false ∧ stage'.pausing = false := by
      cases hquiet <;> exact ⟨rfl, rfl⟩
    obtain ⟨hbefore, hafter⟩ := hpausing
    rcases hstill.journal with heq | ⟨url, heq⟩
    · exact ⟨[], by simp [heq],
        .silent _ _ (hafter.trans hbefore.symm) (by simp [hbefore])⟩
    · exact ⟨[.requested url], heq, .refreshing _ _ _ rfl hbefore hafter⟩
  | selected pre post x => exact ⟨_, rfl, .refreshing _ _ _ rfl rfl rfl⟩
  | exhausted dirty report =>
    refine ⟨[], by simp, .silent _ _ ?_ (by simp [Stage.pausing])⟩
    cases dirty || s.registry.hasPending <;> rfl
  | minted e body => exact ⟨[], by simp, .silent _ _ rfl (by simp [Stage.pausing])⟩
  | writing e stagedId body w =>
    exact ⟨[], by simp [System.write], .silent _ _ rfl (by simp [Stage.pausing])⟩
  | recorded pre post x e stagedId body dirty report next hsplit hid hnext =>
    refine ⟨_, rfl, .refreshing _ _ _ rfl rfl ?_⟩
    rcases hnext with ⟨rfl, -⟩ | ⟨old, rfl, -⟩ <;> rfl
  | orphaned e stagedId body => exact ⟨[], by simp, .silent _ _ rfl (by simp [Stage.pausing])⟩
  | tidied file =>
    exact ⟨[], by simp [s.discard_journal], .silent _ _ rfl (by simp [Stage.pausing])⟩
  | committing c => exact c.step_notes m s

namespace Watch

def begun (enabled : Bool) (s : System) (adds : List (Candidate × Adding)) : Watch :=
  ⟨s, adds, .start enabled, false⟩

/-- What ends a sleep of the loop: the word to stop only if it has come. -/
def heard (w : Watch) : Option Loop.Call → Option Loop.Call
  | some .shutdown => if w.told then some .shutdown else none
  | call => call

def beside (w : Watch) (a : Act) : Watch :=
  let v := World.step ⟨w.system, w.adds, .fresh⟩ a
  { w with system := v.system, adds := v.adds }

def step (enabled : Bool) (w : Watch) : Deed → Watch
  | .call c => w.beside (.call c)
  | .add caller m => w.beside (.add caller m)
  | .delete url => w.beside (.delete url)
  | .tell => { w with told := true }
  | .turn call m =>
    let (s, l) := w.loop.step enabled 0 (w.heard call) m w.system
    { w with system := s, loop := l }

def after (enabled : Bool) (w : Watch) (deeds : List Deed) : Watch := deeds.foldl (step enabled) w

def notes (enabled : Bool) (w : Watch) (d : Deed) : List Event :=
  if d.isTurn then (w.step enabled d).system.journal.drop w.system.journal.length else []

def noted (enabled : Bool) (w : Watch) : List Deed → List Event
  | [] => []
  | d :: deeds => w.notes enabled d ++ (w.step enabled d).noted enabled deeds

variable (enabled : Bool) {w : Watch}

theorem after_concat (deeds : List Deed) (d : Deed) :
    w.after enabled (deeds ++ [d]) = (w.after enabled deeds).step enabled d := by
  simp [after]

theorem noted_concat (deeds : List Deed) (d : Deed) :
    w.noted enabled (deeds ++ [d]) =
      w.noted enabled deeds ++ (w.after enabled deeds).notes enabled d := by
  induction deeds generalizing w with
  | nil => simp [noted, after]
  | cons first deeds ih =>
    rw [List.cons_append, noted, ih, noted, List.append_assoc]
    rfl

theorem step_of_not_turn (d : Deed) (h : d.isTurn = false) :
    (w.step enabled d).loop = w.loop ∧ w.notes enabled d = [] := by
  refine ⟨?_, by simp [notes, h]⟩
  cases d with
  | turn call m => cases h
  | _ => rfl

/-- A turn of the loop is a step of its pass, or begins or ends one in silence. -/
theorem turn_cases (d : Deed) (h : d.isTurn = true) :
    (∃ r r', w.loop = .passing r ∧ (w.step enabled d).loop = .passing r' ∧
        Stage.Notes r.stage r'.stage (w.notes enabled d)) ∨
      w.loop.pausing = false ∧ (w.step enabled d).loop.pausing = false ∧
        w.notes enabled d = [] := by
  obtain ⟨s, adds, loop, told⟩ := w
  cases d with
  | turn call m =>
    cases loop with
    | passing r =>
      -- an idle refresher sends the loop to sleep; any other takes a step of its pass
      by_cases hidle : r.isIdle = true
      · right
        refine ⟨?_, ?_, ?_⟩
        · obtain ⟨stage, dirty, report⟩ := r
          cases stage with
          | idle => rfl
          | _ => cases hidle
        · simp [step, Loop.step, hidle, Loop.pausing]
        · simp [notes, step, Loop.step, hidle]
      · left
        obtain ⟨events, hjournal, hnotes⟩ := r.step_notes 0 m s
        refine ⟨r, (r.step 0 m s).2, rfl, by simp [step, Loop.step, hidle], ?_⟩
        simpa [notes, Deed.isTurn, step, Loop.step, hidle, hjournal] using hnotes
    -- a sleeping loop notes nothing, and it is outside a commit before and after
    | sleeping r =>
      right
      simp only [step, Loop.step, notes]
      cases heard ⟨s, adds, .sleeping r, told⟩ call with
      | none => exact ⟨rfl, rfl, by simp⟩
      | some c =>
        cases c with
        | wake =>
          refine ⟨rfl, ?_, by simp⟩
          cases enabled <;> rfl
        | shutdown => exact ⟨rfl, rfl, by simp⟩
    | stopped => exact .inr ⟨rfl, rfl, by simp [notes, step, Loop.step]⟩
  | _ => cases h

/-- Where the loop stands before and after a deed, as far as the consumer is concerned, and what the
loop notes. -/
inductive Window : Bool → Bool → List Event → Prop
  | silent (pausing : Bool) : Window pausing pausing []
  | refreshing (event : Event) (hcall : event.isCall = false) : Window false false [event]
  | closed : Window false true [.closed]
  | renamed (id stagedId : UInt64) (succeeded : Bool) :
    Window true true [.renamed id stagedId succeeded]
  | restarted : Window true false [.restarted]

theorem step_window (d : Deed) :
    Window w.loop.pausing (w.step enabled d).loop.pausing (w.notes enabled d) := by
  by_cases hturn : d.isTurn = true
  · rcases turn_cases enabled (w := w) d hturn with
      ⟨r, r', hloop, hloop', hnotes⟩ | ⟨hbefore, hafter, hnone⟩
    · rw [hloop, hloop']
      change Window r.stage.pausing r'.stage.pausing _
      generalize w.notes enabled d = events at hnotes ⊢
      generalize r.stage = stage at hnotes ⊢
      generalize r'.stage = stage' at hnotes ⊢
      cases hnotes with
      | silent _ _ hpausing => rw [hpausing]; exact .silent _
      | refreshing _ _ event hcall hbefore hafter => rw [hbefore, hafter]; exact .refreshing _ hcall
      | closed => exact .closed
      | renamed _ _ id stagedId succeeded hbefore hafter =>
        rw [hbefore, hafter]
        exact .renamed id stagedId succeeded
      | restarted => exact .restarted
    · rw [hbefore, hafter, hnone]
      exact .silent false
  · obtain ⟨hloop, hnone⟩ := step_of_not_turn enabled (w := w) d (by simpa using hturn)
    rw [hloop, hnone]
    exact .silent _

/-- What was noted tells where the loop stands. -/
theorem paused_noted (hstart : w.loop.pausing = false) (deeds : List Deed) :
    paused (w.noted enabled deeds) = (w.after enabled deeds).loop.pausing := by
  induction deeds using List.reverseRecOn with
  | nil => exact hstart.symm
  | append_singleton deeds d ih =>
    have hwindow := step_window enabled (w := w.after enabled deeds) d
    rw [noted_concat, after_concat]
    rw [← ih] at hwindow
    generalize (w.after enabled deeds).notes enabled d = events at hwindow ⊢
    generalize hbefore : paused (w.noted enabled deeds) = before at hwindow
    generalize ((w.after enabled deeds).step enabled d).loop.pausing = now at hwindow ⊢
    cases hwindow with
    | silent => rwa [List.append_nil]
    | refreshing event hcall =>
      rw [paused_concat]
      cases event with
      | closed => cases hcall
      | restarted => cases hcall
      | _ => exact hbefore
    | closed => rw [paused_concat]
    | renamed => rwa [paused_concat]
    | restarted => rw [paused_concat]

/-- The calls are pairs, and a last pause stands alone exactly while it lasts. -/
theorem calls_noted (hstart : w.loop.pausing = false) (deeds : List Deed) :
    ∃ n, (w.noted enabled deeds).filter Event.isCall =
      Event.windows n ++ if (w.after enabled deeds).loop.pausing then [.closed] else [] := by
  induction deeds using List.reverseRecOn with
  | nil => exact ⟨0, by simp [noted, after, hstart, Event.windows]⟩
  | append_singleton deeds d ih =>
    have hwindow := step_window enabled (w := w.after enabled deeds) d
    rw [noted_concat, after_concat, List.filter_append]
    generalize (w.after enabled deeds).notes enabled d = events at hwindow ⊢
    generalize (w.after enabled deeds).loop.pausing = before at hwindow ih
    generalize ((w.after enabled deeds).step enabled d).loop.pausing = now at hwindow ⊢
    obtain ⟨n, hn⟩ := ih
    cases hwindow with
    | silent => exact ⟨n, by simpa using hn⟩
    | refreshing event hcall => exact ⟨n, by simpa [hcall] using hn⟩
    | closed => exact ⟨n, by simp [hn, Event.isCall]⟩
    | renamed => exact ⟨n, by simp [hn, Event.isCall]⟩
    | restarted => exact ⟨n + 1, by simp [hn, Event.isCall, Event.windows_succ]⟩

/-- While the consumer is paused, staged files are renamed or it is resumed. -/
theorem renamed_while_paused (hstart : w.loop.pausing = false) (deeds : List Deed)
    (before : List Event) (event : Event) (hpart : before ++ [event] <+: w.noted enabled deeds)
    (hpaused : paused before = true) :
    event = .restarted ∨ ∃ id stagedId succeeded, event = .renamed id stagedId succeeded := by
  induction deeds using List.reverseRecOn with
  | nil => simp [noted] at hpart
  | append_singleton deeds d ih =>
    have hwindow := step_window enabled (w := w.after enabled deeds) d
    have hnow := paused_noted enabled hstart deeds
    rw [noted_concat] at hpart
    generalize (w.after enabled deeds).notes enabled d = events at hwindow hpart
    generalize (w.after enabled deeds).loop.pausing = now at hwindow hnow
    generalize ((w.after enabled deeds).step enabled d).loop.pausing = next at hwindow
    -- a new event is the last one, so all that came before it was noted by then
    have hlast (e : Event) (hp : before ++ [event] <+: w.noted enabled deeds ++ [e]) :
        before ++ [event] <+: w.noted enabled deeds ∨ event = e ∧ now = true := by
      rcases List.prefix_concat_iff.mp hp with heq | hp
      · obtain ⟨rfl, hevent⟩ := List.append_inj' heq rfl
        exact .inr ⟨by simpa using hevent, by rw [← hnow, hpaused]⟩
      · exact .inl hp
    cases hwindow with
    | silent => exact ih (by simpa using hpart)
    | refreshing e hcall =>
      rcases hlast e hpart with hp | ⟨-, hfalse⟩
      · exact ih hp
      · cases hfalse
    | closed =>
      rcases hlast _ hpart with hp | ⟨-, hfalse⟩
      · exact ih hp
      · cases hfalse
    | renamed id stagedId succeeded =>
      rcases hlast _ hpart with hp | ⟨rfl, -⟩
      · exact ih hp
      · exact .inr ⟨id, stagedId, succeeded, rfl⟩
    | restarted =>
      rcases hlast _ hpart with hp | ⟨rfl, -⟩
      · exact ih hp
      · exact .inl rfl

/-! ### What opens a pair and what ends it -/

/-- A commit is about to pause the consumer only where it just found an entry waiting. -/
theorem step_close (ticket : Nat) (m : Moment) (s : System) (r : Refresher)
    (pairs : List (UInt64 × UInt64)) (h : (r.step ticket m s).2.stage = .commit (.close pairs)) :
    r.stage = .commit .snapshot ∧ s.registry.hasPending = true := by
  have hsteps := r.steps ticket m s
  generalize r.step ticket m s = out at hsteps h
  cases hsteps with
  | quiet stage stage' dirty dirty' report report' s' hquiet =>
    obtain rfl : stage' = .commit (.close pairs) := h
    cases hquiet
  -- where nothing is due the pass goes on to a snapshot or ends
  | exhausted dirty report =>
    revert h
    cases dirty || s.registry.hasPending <;> exact fun h => by cases h
  | recorded pre post x e stagedId body dirty report next hsplit hid hnext =>
    rcases hnext with ⟨rfl, -⟩ | ⟨old, rfl, -⟩ <;> cases h
  | committing c dirty report =>
    have hc : (c.step m s).2 = .close pairs := Stage.commit.inj h
    cases c with
    | snapshot =>
      refine ⟨rfl, ?_⟩
      cases hstaged : s.registry.staged with
      | nil => simp [Committing.step, hstaged] at hc
      | cons p rest =>
        -- what is staged stands for an entry that waits
        obtain ⟨e, he, -, hpend⟩ := (s.registry.mem_staged p.1 p.2).mp (by simp [hstaged])
        exact List.any_eq_true.mpr ⟨e, he, by simp [hpend]⟩
    | close pairs' =>
      simp only [Committing.step] at hc
      split at hc <;> cases hc
    | promote pairs' rep =>
      cases pairs' with
      | nil => cases hc
      | cons q rest =>
        obtain ⟨id, stagedId⟩ := q
        simp only [Committing.step] at hc
        split at hc
        · cases hc
        · split at hc <;> cases hc
    | restart rep =>
      simp only [Committing.step] at hc
      split at hc <;> cases hc
    | _ => cases hc
  | _ => cases h

def looking (w : Watch) : Prop := ∃ r, w.loop = .passing r ∧ r.stage = .commit .snapshot

def closing (w : Watch) : Prop := ∃ r pairs, w.loop = .passing r ∧ r.stage = .commit (.close pairs)

theorem closing_of_turn (d : Deed) (hturn : d.isTurn = true) (h : (w.step enabled d).closing) :
    w.looking ∧ w.system.registry.hasPending = true := by
  obtain ⟨r', pairs, hloop, hstage⟩ := h
  obtain ⟨s, adds, loop, told⟩ := w
  cases d with
  | turn call m =>
    cases loop with
    | passing r =>
      by_cases hidle : r.isIdle = true
      · simp [step, Loop.step, hidle] at hloop
      · have hr' : (r.step 0 m s).2 = r' := by simpa [step, Loop.step, hidle] using hloop
        obtain ⟨hsnapshot, hpending⟩ := step_close 0 m s r pairs (by rw [hr', hstage])
        exact ⟨⟨r, rfl, hsnapshot⟩, hpending⟩
    | sleeping r =>
      simp only [step, Loop.step] at hloop
      cases hcall : heard ⟨s, adds, .sleeping r, told⟩ call with
      | none => simp [hcall] at hloop
      | some c =>
        cases c with
        | wake =>
          cases enabled
          · simp [hcall, Loop.turn] at hloop
          · obtain rfl : r.startPass = r' := by simpa [hcall, Loop.turn] using hloop
            cases hstage
        | shutdown => simp [hcall] at hloop
    | stopped => cases hloop
  | _ => cases hturn

/-- A loop that is about to pause the consumer looked for waiting entries in its turn before, and
found some. -/
theorem looked_before_close (hstart : ¬ w.closing) (before : List Deed)
    (h : (w.after enabled before).closing) :
    ∃ earlier look between, before = earlier ++ look :: between ∧
      (w.after enabled earlier).looking ∧
      (w.after enabled earlier).system.registry.hasPending = true ∧
      look.isTurn = true ∧ ∀ x ∈ between, x.isTurn = false := by
  induction before using List.reverseRecOn with
  | nil => exact absurd h hstart
  | append_singleton before d ih =>
    rw [after_concat] at h
    by_cases hturn : d.isTurn = true
    · obtain ⟨hlooking, hpending⟩ := closing_of_turn enabled d hturn h
      exact ⟨before, d, [], rfl, hlooking, hpending, hturn, by simp⟩
    -- who adds and deletes does not move the loop
    · have hstill := step_of_not_turn enabled (w := w.after enabled before) d
        (by simpa using hturn)
      obtain ⟨earlier, look, between, rfl, hlooking, hpending, hlook, hbetween⟩ :=
        ih (by simpa only [closing, hstill.1] using h)
      refine ⟨earlier, look, between ++ [d], by simp, hlooking, hpending, hlook, ?_⟩
      intro x hx
      rcases List.mem_append.mp hx with hx | hx
      · exact hbetween x hx
      · rw [List.mem_singleton.mp hx]
        simpa using hturn

/-- Only a loop that is about to pause the consumer pauses it. -/
theorem closing_of_closed (d : Deed) (h : Event.closed ∈ w.notes enabled d) : w.closing := by
  by_cases hturn : d.isTurn = true
  · rcases turn_cases enabled (w := w) d hturn with
      ⟨r, r', hloop, -, hnotes⟩ | ⟨-, -, hnone⟩
    · refine ⟨r, ?_⟩
      generalize w.notes enabled d = events at hnotes h
      generalize hstage : r.stage = stage at hnotes
      generalize r'.stage = stage' at hnotes
      cases hnotes with
      | closed pairs => exact ⟨pairs, hloop, rfl⟩
      | refreshing _ _ event hcall =>
        rw [← List.mem_singleton.mp h] at hcall
        cases hcall
      | _ => simp at h
    · simp [hnone] at h
  · simp [(step_of_not_turn enabled (w := w) d (by simpa using hturn)).2] at h

theorem untilRestart_pos (stage : Stage) (h : stage.pausing = true) : 0 < stage.untilRestart := by
  cases stage with
  | commit c =>
    cases c with
    | promote pairs report => exact Nat.succ_pos _
    | clear id stagedId rest report => exact Nat.succ_pos _
    | restart report => exact Nat.one_pos
    | _ => cases h
  | _ => cases h

/-- A paused consumer is called again after so many turns of the loop, whatever they bring. -/
theorem restarted_soon (r : Refresher) (hloop : w.loop = .passing r)
    (hpausing : r.stage.pausing = true) (more : List Deed)
    (hmany : r.stage.untilRestart ≤ more.countP Deed.isTurn) :
    Event.restarted ∈ w.noted enabled more := by
  induction more generalizing w r with
  | nil =>
    have hpos := untilRestart_pos r.stage hpausing
    simp at hmany
    omega
  | cons d more ih =>
    rw [noted, List.mem_append]
    by_cases hturn : d.isTurn = true
    · have hcount : r.stage.untilRestart ≤ more.countP Deed.isTurn + 1 := by
        simpa [hturn] using hmany
      rcases turn_cases enabled (w := w) d hturn with
        ⟨q, r', hq, hloop', hnotes⟩ | ⟨hbefore, -, -⟩
      · obtain rfl : r = q := by simpa [hloop] using hq
        generalize w.notes enabled d = events at hnotes ⊢
        generalize hstage : r.stage = stage at hnotes hpausing hcount
        generalize hstage' : r'.stage = stage' at hnotes
        cases hnotes with
        | silent _ _ hsame hnear =>
          have hless := hnear hpausing
          exact .inr (ih r' hloop' (by rw [hstage', hsame, hpausing]) (by rw [hstage']; omega))
        | refreshing _ _ event hcall hbefore => simp [hbefore] at hpausing
        | closed => cases hpausing
        | renamed _ _ id stagedId succeeded hbefore hafter hnear =>
          exact .inr (ih r' hloop' (by rw [hstage', hafter]) (by rw [hstage']; omega))
        | restarted => exact .inl (List.mem_singleton.mpr rfl)
      · rw [hloop] at hbefore
        exact absurd (hpausing.symm.trans hbefore) (by simp)
    · have hstill := step_of_not_turn enabled (w := w) d (by simpa using hturn)
      exact .inr (ih r (by rw [hstill.1, hloop]) hpausing (by simpa [hturn] using hmany))

structure Tended (enabled : Bool) (w : Watch) (deeds : List Deed) : Prop where
  /-- The calls are pauses and their ends in turn; a pause whose end is still to come is the last.
  -/
  paired : ∃ n, (w.noted enabled deeds).filter Event.isCall =
    Event.windows n ++ if paused (w.noted enabled deeds) then [.closed] else []
  /-- Before it pauses the consumer the loop finds an entry that waits, when it looks for such
  entries in its turn before. -/
  needed : ∀ before d, before ++ [d] <+: deeds →
    .closed ∈ (w.after enabled before).notes enabled d →
    ∃ earlier look between, before = earlier ++ look :: between ∧
      (w.after enabled earlier).looking ∧
      (w.after enabled earlier).system.registry.hasPending = true ∧
      look.isTurn = true ∧ ∀ x ∈ between, x.isTurn = false
  /-- While the consumer is paused nothing is selected, requested or recorded: staged files are
  renamed, and then the consumer is resumed. -/
  undisturbed : ∀ before event, before ++ [event] <+: w.noted enabled deeds →
    paused before = true →
    event = .restarted ∨ ∃ id stagedId succeeded, event = .renamed id stagedId succeeded
  /-- The loop never stays where the consumer is paused: a number of its turns suffices. -/
  resumed : paused (w.noted enabled deeds) = true → ∃ n, ∀ more, n ≤ more.countP Deed.isTurn →
    .restarted ∈ (w.after enabled deeds).noted enabled more
  /-- A loop that has returned has ended every pause. -/
  returned : (w.after enabled deeds).loop = .stopped →
    ∃ n, (w.noted enabled deeds).filter Event.isCall = Event.windows n

theorem start_pausing (enabled : Bool) : (Loop.start enabled).pausing = false := by
  cases enabled <;> rfl

/-- From its start on, whatever is added, deleted and answered and whenever the word to stop comes,
the loop pauses the consumer only to commit what waits, and always resumes it. -/
theorem consumer_resumed (enabled : Bool) (s : System) (adds : List (Candidate × Adding))
    (deeds : List Deed) : (begun enabled s adds).Tended enabled deeds := by
  have hstart : (begun enabled s adds).loop.pausing = false := start_pausing enabled
  have hpaused := paused_noted enabled hstart
  obtain ⟨n, hcalls⟩ := calls_noted enabled hstart deeds
  refine ⟨⟨n, by rw [hpaused deeds, hcalls]⟩, ?needed,
    renamed_while_paused enabled hstart deeds, ?resumed, ?returned⟩
  case needed =>
    intro before d _ hclosed
    refine looked_before_close enabled ?_ before (closing_of_closed enabled d hclosed)
    rintro ⟨r, pairs, hloop, hstage⟩
    cases enabled
    · cases hloop
    · obtain rfl : Refresher.fresh.startPass = r := Loop.passing.inj hloop
      cases hstage
  case resumed =>
    intro hnow
    rw [hpaused deeds] at hnow
    generalize (begun enabled s adds).after enabled deeds = w at hnow
    cases hloop : w.loop with
    | passing r =>
      rw [hloop] at hnow
      exact ⟨r.stage.untilRestart, fun more hmany => restarted_soon enabled r hloop hnow more hmany⟩
    | _ =>
      rw [hloop] at hnow
      cases hnow
  case returned =>
    intro hstopped
    refine ⟨n, ?_⟩
    rw [hcalls, hstopped]
    simp [Loop.pausing]

end Watch
end ListKeeper
