import Mathlib.Data.List.Induction
import ListKeeper.Proofs.Additions
import ListKeeper.Proofs.Startup

/-! Requests. Whoever asks for a list holds the network from the request to the answer, and one
request is made for each addition that passes its first check and for each entry that a pass
selects. Main statements: `World.step_crosses`, by which at most one request is open, and
`Run.requests_orderly`. -/
namespace ListKeeper

/-- What crosses the network for the holder of a ticket: a request, or the answer to it. -/
inductive Crossing
  | asked (ticket : Nat) (url : String)
  | answered (ticket : Nat) (url : String)
  deriving DecidableEq

namespace Crossing

def url? : Crossing → Option String
  | asked _ url => some url
  | answered _ _ => none

def urlOf? (ticket : Nat) : Crossing → Option String
  | asked x url => if x = ticket then some url else none
  | answered _ _ => none

/-- Requests one after the other with their answers, and the one that has no answer yet. -/
def log (past : List (Nat × String)) (held : Option (Nat × String)) : List Crossing :=
  (past.flatMap fun q => [asked q.1 q.2, answered q.1 q.2]) ++
    held.toList.map fun q => asked q.1 q.2

theorem log_asked (past : List (Nat × String)) (ticket : Nat) (url : String) :
    log past none ++ [asked ticket url] = log past (some (ticket, url)) := by
  simp [log]

theorem log_answered (past : List (Nat × String)) (ticket : Nat) (url : String) :
    log past (some (ticket, url)) ++ [answered ticket url] =
      log (past ++ [(ticket, url)]) none := by
  simp [log]

end Crossing

namespace Fetching

def asking? (url : String) : Fetching → Option String
  | .exchange => some url
  | _ => none

def crosses? (url : String) (ticket : Nat) (s : System) : Fetching → Option Crossing
  | .wait => if s.gate.head? = some ticket then some (.asked ticket url) else none
  | .exchange => some (.answered ticket url)
  | _ => none

/-- A step of the holder of a ticket: the url that it is asking for before and after it, and what
crosses the network. -/
inductive Crosses (ticket : Nat) (s s' : System) :
    Option String → Option String → Option Crossing → Prop
  | mute (asking : Option String) (hgate : s'.gate = s.gate)
      (hrequests : s'.requests = s.requests) : Crosses ticket s s' asking asking none
  | joins (asking : Option String) (hgate : s'.gate = s.gate ++ [ticket])
      (hrequests : s'.requests = s.requests) : Crosses ticket s s' asking asking none
  | asks (url : String) (hhead : s.gate.head? = some ticket) (hgate : s'.gate = s.gate)
      (hrequests : s'.requests = s.requests ++ [url]) :
    Crosses ticket s s' none (some url) (some (.asked ticket url))
  | hears (url : String) (hgate : s'.gate = s.gate.erase ticket)
      (hrequests : s'.requests = s.requests) :
    Crosses ticket s s' (some url) none (some (.answered ticket url))

theorem step_crosses (url : String) (ticket : Nat) (m : Moment) (s : System) (f : Fetching) :
    Crosses ticket s (f.step url ticket m s).1 (f.asking? url)
      ((f.step url ticket m s).2.asking? url) (f.crosses? url ticket s) := by
  cases f with
  | arrive => exact .joins none rfl rfl
  | wait =>
    simp only [step, crosses?]
    split
    · rename_i hhead
      exact .asks url hhead rfl (s.requests_note _ (.requested url) rfl)
    · exact .mute none rfl rfl
  | exchange => exact .hears url rfl rfl
  | done outcome => exact .mute none rfl rfl

theorem crosses?_urlOf (url : String) (x ticket : Nat) (s : System) (f : Fetching) :
    (f.crosses? url x s).toList.filterMap (Crossing.urlOf? ticket) =
      if x = ticket then (f.crosses? url x s).toList.filterMap Crossing.url? else [] := by
  cases f with
  | wait =>
    simp only [crosses?]
    by_cases hhead : s.gate.head? = some x
    · rw [if_pos hhead]
      by_cases hx : x = ticket <;> simp [hx, Crossing.urlOf?, Crossing.url?]
    · rw [if_neg hhead]
      simp
  | exchange =>
    simp only [crosses?]
    split <;> rfl
  | _ => simp [crosses?]

end Fetching

open Fetching

/-! ### One step -/

def Adding.asking? (c : Candidate) : Adding → Option String
  | .fetch _ f => f.asking? c.url
  | _ => none

def Adding.crosses? (c : Candidate) (ticket : Nat) (s : System) : Adding → Option Crossing
  | .fetch _ f => f.crosses? c.url ticket s
  | _ => none

def Stage.asking? : Stage → Option String
  | .fetch e f => f.asking? e.url
  | _ => none

def Stage.crosses? (ticket : Nat) (s : System) : Stage → Option Crossing
  | .fetch e f => f.crosses? e.url ticket s
  | _ => none

def Sight.request? : Sight → Option String
  | requested url => some url
  | _ => none

theorem System.discard_requests (s : System) (disk : Disk) (id : UInt64) :
    (s.discard disk id).requests = s.requests := by
  rw [requests, s.discard_journal, requests]

theorem Adding.step_crosses (c : Candidate) (ticket : Nat) (m : Moment) (s : System)
    (stage : Adding) :
    Crosses ticket s (stage.step c ticket m s).1 (stage.asking? c)
      ((stage.step c ticket m s).2.asking? c) (stage.crosses? c ticket s) := by
  cases stage with
  | check =>
    simp only [step]
    split <;> exact .mute none rfl rfl
  | mint => exact .mute none rfl rfl
  | fetch id f =>
    cases f with
    | done outcome => cases outcome <;> exact .mute none rfl rfl
    | arrive => exact Fetching.step_crosses c.url ticket m s .arrive
    | wait => exact Fetching.step_crosses c.url ticket m s .wait
    | exchange => exact Fetching.step_crosses c.url ticket m s .exchange
  | write id body w =>
    cases w with
    | done outcome => cases outcome <;> exact .mute none rfl rfl
    | _ => exact .mute none rfl rfl
  | insert id body =>
    simp only [step]
    split
    · exact .mute none rfl rfl
    · exact .mute none rfl ((s.requests_note _ (.added _) rfl).trans (List.append_nil _))
  | withdraw id => exact .mute none (s.discard_gate m.disk id) (s.discard_requests m.disk id)
  | done outcome => exact .mute none rfl rfl

theorem Refresher.step_crosses (ticket : Nat) (m : Moment) (s : System) (r : Refresher) :
    Crosses ticket s (r.step ticket m s).1 r.stage.asking? (r.step ticket m s).2.stage.asking?
      (r.stage.crosses? ticket s) := by
  obtain ⟨stage, dirty, report⟩ := r
  cases stage with
  | select =>
    simp only [step]
    split
    · exact .mute none rfl ((s.requests_note _ (.selected _) rfl).trans (List.append_nil _))
    · cases dirty || s.registry.hasPending <;> exact .mute none rfl rfl
  | fetch e f =>
    cases f with
    | done outcome => cases outcome <;> exact .mute none rfl rfl
    | arrive => exact Fetching.step_crosses e.url ticket m s .arrive
    | wait => exact Fetching.step_crosses e.url ticket m s .wait
    | exchange => exact Fetching.step_crosses e.url ticket m s .exchange
  | mint e body => exact .mute none rfl rfl
  | write e stagedId body w =>
    cases w with
    | done outcome => cases outcome <;> exact .mute none rfl rfl
    | _ => exact .mute none rfl rfl
  | record e stagedId body =>
    simp only [step]
    split
    · exact .mute none rfl rfl
    · rename_i superseded registry hstaged
      have hrequests := (s.requests_note ({ s with registry := registry }.note
        (.staged e.id stagedId)) (.staged e.id stagedId) rfl).trans (List.append_nil _)
      cases superseded with
      | none => exact .mute none rfl hrequests
      | some old =>
        by_cases hsame : old = e.id
        · simp only [if_pos hsame]
          exact .mute none rfl hrequests
        · simp only [if_neg hsame]
          exact .mute none rfl hrequests
  | tidy file => exact .mute none (s.discard_gate m.disk file) (s.discard_requests m.disk file)
  | tally succeeded => cases succeeded <;> exact .mute none rfl rfl
  | commit c =>
    have hgate := c.step_gate m s
    have hrequests := c.step_requests m s
    cases c with
    | done rep => exact .mute none rfl rfl
    | _ => exact .mute none hgate hrequests
  | idle => exact .mute none rfl rfl

namespace World

def asking? (w : World) : Nat → Option String
  | 0 => w.refresher.stage.asking?
  | caller + 1 => w.adds[caller]?.bind fun q => q.2.asking? q.1

def crosses? (w : World) : Act → Option Crossing
  | .add caller _ => w.adds[caller]?.bind fun q => q.2.crosses? q.1 (caller + 1) w.system
  | .refresh _ => w.refresher.stage.crosses? 0 w.system
  | _ => none

/-- In an act the holder of one ticket takes a step, and no other's request is touched. -/
theorem step_crosses (w : World) (a : Act) :
    ∃ ticket, Crosses ticket w.system (w.step a).system (w.asking? ticket)
        ((w.step a).asking? ticket) (w.crosses? a) ∧
      ∀ x, x ≠ ticket → (w.step a).asking? x = w.asking? x := by
  cases a with
  | call c =>
    refine ⟨0, .mute _ rfl rfl, fun x hx => ?_⟩
    cases x with
    | zero => rfl
    | succ caller =>
      simp only [asking?, step, List.getElem?_append]
      by_cases hlen : caller < w.adds.length
      · rw [if_pos hlen]
      -- a new addition asks for nothing yet
      · rw [if_neg hlen, List.getElem?_eq_none (by omega : w.adds.length ≤ caller)]
        cases caller - w.adds.length <;> rfl
  | add caller m =>
    cases hadd : w.adds[caller]? with
    | none =>
      refine ⟨0, ?_, fun x _ => ?_⟩
      · simp only [step, crosses?, hadd]
        exact .mute _ rfl rfl
      · simp only [step, hadd]
    | some q =>
      obtain ⟨c, stage⟩ := q
      have hlen : caller < w.adds.length := (List.getElem?_eq_some_iff.mp hadd).1
      refine ⟨caller + 1, ?_, fun x hx => ?_⟩
      · have hcrosses := stage.step_crosses c (caller + 1) m w.system
        simpa only [asking?, crosses?, step, hadd, List.getElem?_set_self hlen, Option.bind_some]
          using hcrosses
      · cases x with
        | zero => simp only [asking?, step, hadd]
        | succ other =>
          have hne : caller ≠ other := by omega
          simp only [asking?, step, hadd, List.getElem?_set_ne hne]
  | delete url =>
    refine ⟨0, ?_, fun x _ => by cases x <;> rfl⟩
    rcases w.system.delete_cases url with ⟨hsame, -⟩ | ⟨pre, x, post, -, -, -, hdelete⟩
    · simp only [step, hsame]
      exact .mute _ rfl rfl
    · simp only [step, hdelete]
      exact .mute _ rfl
        ((System.requests_note w.system _ (.deleted x) rfl).trans (List.append_nil _))
  | startPass =>
    refine ⟨0, ?_, fun x hx => ?_⟩
    · simp only [step]
      split
      · rename_i hidle
        have hstage := (w.refresher.isIdle_iff).mp hidle
        simp only [asking?, hstage]
        exact .mute none rfl rfl
      · exact .mute _ rfl rfl
    · cases x with
      | zero => exact absurd rfl hx
      | succ caller =>
        simp only [step]
        split <;> rfl
  | refresh m =>
    refine ⟨0, w.refresher.step_crosses 0 m w.system, fun x hx => ?_⟩
    cases x with
    | zero => exact absurd rfl hx
    | succ caller => rfl

/-- At most one request is open: the one that is held, if any, whose holder has the network. -/
structure Exclusive (w : World) (held : Option (Nat × String)) : Prop where
  asking_iff : ∀ ticket url, w.asking? ticket = some url ↔ held = some (ticket, url)
  head : ∀ q, held = some q → w.system.gate.head? = some q.1

/-- Every act leaves at most one request open, and goes on with the log. -/
theorem Exclusive.step {w : World} {held : Option (Nat × String)} (h : w.Exclusive held)
    (past : List (Nat × String)) (a : Act) :
    ∃ past' held', (w.step a).Exclusive held' ∧
      Crossing.log past held ++ (w.crosses? a).toList = Crossing.log past' held' := by
  obtain ⟨ticket, hcrosses, hothers⟩ := w.step_crosses a
  generalize hbefore : w.asking? ticket = before at hcrosses
  generalize hafter : (w.step a).asking? ticket = after at hcrosses
  generalize w.crosses? a = crossing at hcrosses
  cases hcrosses with
  | mute asking hgate hrequests =>
    refine ⟨past, held, ⟨fun x url => ?_, ?_⟩, List.append_nil _⟩
    · rw [← h.asking_iff]
      by_cases hx : x = ticket
      · rw [hx, hbefore, hafter]
      · rw [hothers x hx]
    · rw [hgate]
      exact h.head
  | joins asking hgate hrequests =>
    refine ⟨past, held, ⟨fun x url => ?_, fun q hq => ?_⟩, List.append_nil _⟩
    · rw [← h.asking_iff]
      by_cases hx : x = ticket
      · rw [hx, hbefore, hafter]
      · rw [hothers x hx]
    · -- who joins stands behind the holder
      rw [hgate, List.head?_append, h.head q hq]
      rfl
  | asks url hhead hgate hrequests =>
    -- whoever held the network would be at the head of the queue, and so be asking already
    obtain rfl : held = none := by
      cases held with
      | none => rfl
      | some q =>
        obtain rfl : q.1 = ticket := Option.some.inj ((h.head q rfl).symm.trans hhead)
        have hasking := (h.asking_iff q.1 q.2).mpr rfl
        rw [hbefore] at hasking
        cases hasking
    refine ⟨past, some (ticket, url), ⟨fun x url' => ?_, ?_⟩, Crossing.log_asked past ticket url⟩
    · by_cases hx : x = ticket
      · rw [hx, hafter]
        simp
      · rw [hothers x hx, h.asking_iff]
        simpa using fun heq => absurd heq.symm hx
    · intro q hq
      obtain rfl := Option.some.inj hq
      rw [hgate]
      exact hhead
  | hears url hgate hrequests =>
    obtain rfl := (h.asking_iff ticket url).mp hbefore
    refine ⟨past ++ [(ticket, url)], none, ⟨fun x url' => ?_, nofun⟩,
      Crossing.log_answered past ticket url⟩
    by_cases hx : x = ticket
    · rw [hx, hafter]
      simp
    · rw [hothers x hx, h.asking_iff]
      simpa using fun heq => absurd heq.symm hx

end World

/-! ### What is still to be requested -/

def Adding.unasked? (c : Candidate) : Adding → Option String
  | .mint => some c.url
  | .fetch _ .arrive => some c.url
  | .fetch _ .wait => some c.url
  | _ => none

def Adding.passes? (c : Candidate) (s : System) : Adding → Option String
  | .check => if s.registry.taken c.name c.url then none else some c.url
  | _ => none

/-- What an addition has to request comes from its first check. -/
theorem Adding.step_unasked (c : Candidate) (ticket : Nat) (m : Moment) (s : System)
    (stage : Adding) :
    (stage.crosses? c ticket s).toList.filterMap Crossing.url? ++
        ((stage.step c ticket m s).2.unasked? c).toList =
      (stage.unasked? c).toList ++ (stage.passes? c s).toList := by
  cases stage with
  | check =>
    simp only [step, passes?]
    split <;> rfl
  | fetch id f =>
    cases f with
    | wait =>
      simp only [step, Fetching.step, crosses?, Fetching.crosses?]
      split <;> rfl
    | done outcome => cases outcome <;> rfl
    | _ => rfl
  | write id body w =>
    cases w with
    | done outcome => cases outcome <;> rfl
    | _ => rfl
  | insert id body =>
    simp only [step]
    split <;> rfl
  | _ => rfl

/-- What a pass has to request comes from a selection. -/
theorem World.refresh_unasked (w : World) (m : Moment) :
    (w.crosses? (.refresh m)).toList.filterMap Crossing.url? ++
        (w.step (.refresh m)).refresher.stage.unasked?.toList =
      w.refresher.stage.unasked?.toList ++ (w.selects? (.refresh m)).toList.map (·.1.url) := by
  have hrequests := w.requests_refresh m
  have hcrosses := w.refresher.step_crosses 0 m w.system
  change Crosses 0 w.system (w.step (.refresh m)).system _ _ (w.crosses? (.refresh m)) at hcrosses
  generalize w.crosses? (.refresh m) = crossing at hcrosses ⊢
  generalize (w.step (.refresh m)).refresher.stage.unasked? = unasked at hrequests ⊢
  -- what crosses the network as a request is what the system notes as one
  have hsame (h : (w.step (.refresh m)).system.requests =
      w.system.requests ++ crossing.toList.filterMap Crossing.url?) :
      crossing.toList.filterMap Crossing.url? ++ unasked.toList =
        w.refresher.stage.unasked?.toList ++ (w.selects? (.refresh m)).toList.map (·.1.url) := by
    rw [h, List.append_assoc, List.append_assoc] at hrequests
    exact List.append_cancel_left hrequests
  generalize w.refresher.stage.asking? = before at hcrosses
  generalize Stage.asking? _ = after at hcrosses
  cases hcrosses with
  | mute asking hgate hreq => exact hsame (hreq.trans (List.append_nil _).symm)
  | joins asking hgate hreq => exact hsame (hreq.trans (List.append_nil _).symm)
  | asks url hhead hgate hreq => exact hsame hreq
  | hears url hgate hreq => exact hsame (hreq.trans (List.append_nil _).symm)

namespace World

def unasked (w : World) : List String :=
  w.refresher.stage.unasked?.toList ++ w.adds.filterMap fun q => q.2.unasked? q.1

def passes? (w : World) : Act → Option String
  | .add caller _ => w.adds[caller]?.bind fun q => q.2.passes? q.1 w.system
  | _ => none

/-- A caller's own step leaves the other additions where they are. -/
theorem step_add_split (w : World) (caller : Nat) (c : Candidate) (stage : Adding)
    (hadd : w.adds[caller]? = some (c, stage)) (m : Moment) :
    ∃ pre post, w.adds = pre ++ (c, stage) :: post ∧
      (w.step (.add caller m)).adds =
        pre ++ (c, (stage.step c (caller + 1) m w.system).2) :: post := by
  obtain ⟨hlen, hget⟩ := List.getElem?_eq_some_iff.mp hadd
  refine ⟨w.adds.take caller, w.adds.drop (caller + 1), ?_, ?_⟩
  · rw [← hget, List.getElem_cons_drop, List.take_append_drop]
  · simp only [step, hadd]
    exact List.set_eq_take_append_cons_drop.trans (if_pos hlen)

/-- What is requested in an act was still to be requested, and what is so from then on was so before
or comes from a first check or a selection. -/
theorem step_unasked (w : World) (a : Act) :
    ((w.crosses? a).toList.filterMap Crossing.url? ++ (w.step a).unasked).Perm
      (w.unasked ++ ((w.passes? a).toList ++ (w.selects? a).toList.map (·.1.url))) := by
  cases a with
  | call c => simp [unasked, crosses?, passes?, selects?, step, Adding.unasked?]
  | add caller m =>
    cases hadd : w.adds[caller]? with
    | none => simp [unasked, crosses?, passes?, selects?, step, hadd]
    | some q =>
      obtain ⟨c, stage⟩ := q
      obtain ⟨pre, post, hsplit, hset⟩ := w.step_add_split caller c stage hadd m
      have hstep := stage.step_unasked c (caller + 1) m w.system
      have hrefresher : (w.step (.add caller m)).refresher = w.refresher := by
        simp only [step, hadd]
      -- only the stage of the caller's addition is another one
      have hcons (stage : Adding) :
          (pre ++ (c, stage) :: post).filterMap (fun q => q.2.unasked? q.1) =
            pre.filterMap (fun q => q.2.unasked? q.1) ++
              ((stage.unasked? c).toList ++ post.filterMap (fun q => q.2.unasked? q.1)) := by
        rw [List.filterMap_append, List.filterMap_cons]
        cases stage.unasked? c <;> rfl
      rw [List.perm_iff_count]
      intro url
      have hcount := congrArg (List.count url) hstep
      simp only [unasked, hset, hrefresher, hcons, crosses?, passes?, selects?, hadd,
        Option.bind_some, Option.toList_none, List.map_nil, List.count_append, List.count_nil]
        at hcount ⊢
      rw [hsplit, hcons]
      simp only [List.count_append]
      omega
  | delete url => simp [unasked, crosses?, passes?, selects?, step]
  | startPass =>
    simp only [unasked, crosses?, passes?, selects?, step]
    split
    · rename_i hidle
      have hstage := (w.refresher.isIdle_iff).mp hidle
      simp [hstage, Refresher.startPass, Stage.unasked?]
    · simp
  | refresh m =>
    have hrefresh := w.refresh_unasked m
    have hadds : (w.step (.refresh m)).adds = w.adds := rfl
    rw [unasked, unasked, hadds, ← List.append_assoc, hrefresh, List.append_assoc,
      List.append_assoc]
    exact (List.perm_append_comm).append_left _

theorem crosses?_urlOf_add (w : World) (ticket caller : Nat) (m : Moment) :
    (w.crosses? (.add caller m)).toList.filterMap (Crossing.urlOf? ticket) =
      if caller + 1 = ticket then
        (w.crosses? (.add caller m)).toList.filterMap Crossing.url?
      else [] := by
  simp only [crosses?]
  cases w.adds[caller]? with
  | none => simp
  | some q =>
    obtain ⟨c, stage⟩ := q
    cases stage with
    | fetch id f => exact f.crosses?_urlOf c.url (caller + 1) ticket w.system
    | _ => simp [Adding.crosses?]

theorem crosses?_urlOf_refresh (w : World) (ticket : Nat) (m : Moment) :
    (w.crosses? (.refresh m)).toList.filterMap (Crossing.urlOf? ticket) =
      if 0 = ticket then (w.crosses? (.refresh m)).toList.filterMap Crossing.url? else [] := by
  simp only [crosses?]
  cases w.refresher.stage with
  | fetch e f => exact f.crosses?_urlOf e.url 0 ticket w.system
  | _ => simp [Stage.crosses?]

theorem step_askedBy_zero (w : World) (a : Act) :
    (w.crosses? a).toList.filterMap (Crossing.urlOf? 0) ++
        (w.step a).refresher.stage.unasked?.toList =
      w.refresher.stage.unasked?.toList ++ (w.selects? a).toList.map (·.1.url) := by
  cases a with
  | refresh m =>
    rw [crosses?_urlOf_refresh, if_pos rfl]
    exact w.refresh_unasked m
  | add caller m =>
    have hrefresher : (w.step (.add caller m)).refresher = w.refresher := by
      simp only [step]
      split <;> rfl
    rw [crosses?_urlOf_add, if_neg (Nat.succ_ne_zero caller), hrefresher]
    exact (List.append_nil _).symm
  | startPass =>
    simp only [step]
    split
    · rename_i hidle
      have hstage := (w.refresher.isIdle_iff).mp hidle
      simp [hstage, crosses?, selects?, Refresher.startPass, Stage.unasked?]
    · simp [crosses?, selects?]
  | _ => exact (List.append_nil _).symm

theorem step_askedBy_succ (w : World) (caller : Nat) (a : Act) :
    (w.crosses? a).toList.filterMap (Crossing.urlOf? (caller + 1)) =
      (w.sees? caller a).toList.filterMap Sight.request? := by
  cases a with
  | add i m =>
    rw [crosses?_urlOf_add]
    by_cases hi : i = caller
    · subst hi
      simp only [crosses?, sees?, ↓reduceIte]
      cases w.adds[i]? with
      | none => rfl
      | some q =>
        obtain ⟨c, stage⟩ := q
        cases stage with
        | fetch id f =>
          cases f with
          | wait =>
            simp only [Option.bind_some, Adding.crosses?, Fetching.crosses?, Adding.sees?]
            split <;> rfl
          | _ => rfl
        | write id body wr => cases wr <;> rfl
        | _ => rfl
    · have hother : ∀ m', Act.add i m ≠ .add caller m' := by
        simpa using fun heq => absurd heq hi
      rw [if_neg (by omega), sees?_of_ne w caller (.add i m) hother]
      rfl
  | refresh m =>
    rw [crosses?_urlOf_refresh, if_neg (Nat.succ_ne_zero caller).symm]
    rfl
  | _ => rfl

/-- An addition that was not there is at its first check. -/
theorem check_of_new (w : World) {caller : Nat} (a : Act) (hadd : w.adds[caller]? = none)
    (c : Candidate) (stage : Adding) (hnow : (w.step a).adds[caller]? = some (c, stage)) :
    stage = .check := by
  cases a with
  | call c' =>
    have hlen : w.adds.length ≤ caller := List.getElem?_eq_none_iff.mp hadd
    rw [show (w.step (.call c')).adds = w.adds ++ [(c', .check)] from rfl,
      List.getElem?_append_right hlen] at hnow
    have hmem := List.mem_of_getElem? hnow
    exact (Prod.mk.inj (List.mem_singleton.mp hmem)).2
  | add i m =>
    simp only [step] at hnow
    split at hnow
    · rw [hadd] at hnow
      cases hnow
    · rename_i hget
      rcases getElem?_set_cases _ _ _ _ _ hnow with ⟨rfl, -⟩ | ⟨-, hold⟩
      · rw [hadd] at hget
        cases hget
      · rw [hadd] at hold
        cases hold
  | startPass =>
    simp only [step] at hnow
    split at hnow <;> (rw [hadd] at hnow; cases hnow)
  | delete url =>
    rw [show (w.step (.delete url)).adds = w.adds from rfl, hadd] at hnow
    cases hnow
  | refresh m =>
    rw [show (w.step (.refresh m)).adds = w.adds from rfl, hadd] at hnow
    cases hnow

end World

/-! ### Whole runs -/

namespace Run

variable {k : Run} {acts : List Act}

def crossings (k : Run) (acts : List Act) : List Crossing := k.trace World.crosses? acts

def passed (k : Run) (acts : List Act) : List String := k.trace World.passes? acts

def asked (k : Run) (acts : List Act) : List String :=
  (k.crossings acts).filterMap Crossing.url?

def askedBy (k : Run) (ticket : Nat) (acts : List Act) : List String :=
  (k.crossings acts).filterMap (Crossing.urlOf? ticket)

theorem crossings_cons (k : Run) (a : Act) (acts : List Act) :
    k.crossings (a :: acts) = (k.world.crosses? a).toList ++ (k.step a).crossings acts := rfl

theorem passed_cons (k : Run) (a : Act) (acts : List Act) :
    k.passed (a :: acts) = (k.world.passes? a).toList ++ (k.step a).passed acts := rfl

theorem crossings_log (held : Option (Nat × String)) (hk : k.world.Exclusive held)
    (acts : List Act) :
    ∃ past held', Crossing.log [] held ++ k.crossings acts = Crossing.log past held' ∧
      (k.after acts).world.Exclusive held' := by
  suffices h : ∀ past, ∃ past' held',
      Crossing.log past held ++ k.crossings acts = Crossing.log past' held' ∧
        (k.after acts).world.Exclusive held' from h []
  -- the log grows behind `past`, and the first act may change who is asking
  induction acts generalizing k held with
  | nil => exact fun past => ⟨past, held, List.append_nil _, hk⟩
  | cons a acts ih =>
    intro past
    obtain ⟨past', held', hexclusive, hlog⟩ := hk.step past a
    rw [crossings_cons, ← List.append_assoc, hlog]
    exact ih (k := k.step a) held' hexclusive past'

/-- The requests that are made are those that the system notes. -/
theorem requests_asked (k : Run) (acts : List Act) :
    (k.after acts).world.system.requests = k.world.system.requests ++ k.asked acts := by
  induction acts generalizing k with
  | nil => exact (List.append_nil _).symm
  | cons a acts ih =>
    have hafter : k.after (a :: acts) = (k.step a).after acts := rfl
    have hstep : (k.step a).world.system.requests =
        k.world.system.requests ++ (k.world.crosses? a).toList.filterMap Crossing.url? := by
      obtain ⟨ticket, hcrosses, -⟩ := k.world.step_crosses a
      change Crosses ticket k.world.system (k.step a).world.system _ _ _ at hcrosses
      generalize k.world.asking? ticket = before at hcrosses
      generalize World.asking? _ ticket = after at hcrosses
      generalize k.world.crosses? a = crossing at hcrosses ⊢
      cases hcrosses with
      | asks url hhead hgate hrequests => exact hrequests
      | _ =>
        rename_i hrequests
        exact hrequests.trans (List.append_nil _).symm
    rw [hafter, ih, hstep, asked, asked, crossings_cons, List.filterMap_append, List.append_assoc]

/-- What is requested, or is still to be, comes from the first checks and the selections. -/
theorem asked_perm (k : Run) (acts : List Act) :
    (k.asked acts ++ (k.after acts).world.unasked).Perm
      (k.world.unasked ++ (k.passed acts ++ (k.selections acts).map (·.1.url))) := by
  induction acts generalizing k with
  | nil => simp [asked, crossings, passed, trace, selections]
  | cons a acts ih =>
    have hafter : k.after (a :: acts) = (k.step a).after acts := rfl
    -- the first act and the others are added up url by url
    rw [hafter, List.perm_iff_count]
    intro url
    have hstep := (List.perm_iff_count.mp (k.world.step_unasked a)) url
    have hrest := (List.perm_iff_count.mp (ih (k.step a))) url
    have hworld : (k.step a).world = k.world.step a := rfl
    rw [hworld] at hrest
    simp only [asked, crossings_cons, passed_cons, selections, List.filterMap_append,
      List.map_append, List.count_append] at hstep hrest ⊢
    omega

/-- The requests of a pass are those of the entries that it selects, in their order. -/
theorem asked_selections (k : Run) (acts : List Act) :
    k.askedBy 0 acts ++ (k.after acts).world.refresher.stage.unasked?.toList =
      k.world.refresher.stage.unasked?.toList ++ (k.selections acts).map (·.1.url) := by
  induction acts generalizing k with
  | nil => simp [askedBy, crossings, trace, selections]
  | cons a acts ih =>
    have hafter : k.after (a :: acts) = (k.step a).after acts := rfl
    have hrest := ih (k.step a)
    rw [askedBy] at hrest
    rw [hafter, askedBy, crossings_cons, List.filterMap_append, List.append_assoc, hrest,
      ← List.append_assoc, selections, List.map_append, ← List.append_assoc]
    exact congrArg (· ++ _) (k.world.step_askedBy_zero a)

/-- What a caller requests is what it sees itself request. -/
theorem askedBy_sights (k : Run) (caller : Nat) (acts : List Act) :
    k.askedBy (caller + 1) acts = (k.sights caller acts).filterMap Sight.request? := by
  induction acts generalizing k with
  | nil => rfl
  | cons a acts ih =>
    have hrest := ih (k.step a)
    rw [askedBy] at hrest
    rw [askedBy, crossings_cons, sights, List.filterMap_append, List.filterMap_append, hrest,
      k.world.step_askedBy_succ caller a]

/-- What the caller of an addition has seen since a start without additions. -/
theorem seen_after (k : Run) (hadds : k.world.adds = []) (caller : Nat) (acts : List Act) :
    ((k.after acts).world.adds[caller]? = none → k.sights caller acts = []) ∧
      ∀ c stage, (k.after acts).world.adds[caller]? = some (c, stage) →
        stage.Seen c k.world.system.period (k.sights caller acts) := by
  induction acts using List.reverseRecOn with
  | nil =>
    refine ⟨fun _ => rfl, fun c stage hadd => ?_⟩
    rw [after_nil, hadds] at hadd
    cases hadd
  | append_singleton acts a ih =>
    obtain ⟨hnone, hseen⟩ := ih
    rw [after_concat, sights_concat]
    cases hadd : (k.after acts).world.adds[caller]? with
    | none =>
      -- who is not there sees nothing, and who comes has seen nothing yet
      have hsees : (k.after acts).world.sees? caller a = none := by
        cases a with
        | add i m =>
          simp only [World.sees?, hadd]
          split <;> rfl
        | _ => rfl
      rw [hsees, hnone hadd]
      refine ⟨fun _ => rfl, fun c stage hnow => ?_⟩
      obtain rfl : stage = .check := World.check_of_new _ a hadd c stage hnow
      exact .check
    | some q =>
      obtain ⟨c, stage⟩ := q
      have hbefore := hseen c stage hadd
      by_cases hown : ∃ m, a = .add caller m
      · obtain ⟨m, rfl⟩ := hown
        obtain ⟨-, hnow⟩ := World.step_add stage hadd m
        have hsees : (k.after acts).world.sees? caller (.add caller m) =
            stage.sees? c (caller + 1) m (k.after acts).world.system := by
          simp only [World.sees?, hadd, ↓reduceIte]
        refine ⟨fun hgone => ?_, fun c' stage' hadd' => ?_⟩
        · rw [show ((k.after acts).step (.add caller m)).world.adds[caller]? = _ from hnow] at hgone
          cases hgone
        · obtain ⟨rfl, rfl⟩ := Prod.mk.inj (Option.some.inj (hnow.symm.trans hadd'))
          rw [hsees]
          rw [← k.period_after acts] at hbefore ⊢
          exact hbefore.step (caller + 1) m
      · have hother : ∀ m, a ≠ .add caller m := fun m heq => hown ⟨m, heq⟩
        have hnow := World.adds_step_of_ne (c, stage) hadd a hother
        rw [World.sees?_of_ne _ caller a hother, Option.toList_none, List.append_nil]
        refine ⟨fun hgone => ?_, fun c' stage' hadd' => ?_⟩
        · rw [show ((k.after acts).step a).world.adds[caller]? = _ from hnow] at hgone
          cases hgone
        · obtain ⟨rfl, rfl⟩ := Prod.mk.inj (Option.some.inj (hnow.symm.trans hadd'))
          exact hbefore

end Run

/-- An addition requests its list once if it passes its first check, and not at all otherwise. -/
theorem Adding.Seen.asks {c : Candidate} {period : Span} {stage : Adding} {sights : List Sight}
    (h : stage.Seen c period sights) :
    (.checked false ∈ sights →
        sights.filterMap Sight.request? ++ (stage.unasked? c).toList = [c.url]) ∧
      (.checked false ∉ sights →
        sights.filterMap Sight.request? = [] ∧ stage.unasked? c = none) ∧
      (.checked true ∈ sights → .checked false ∉ sights) := by
  cases h <;> simp [Sight.answers, Sight.request?, List.filterMap_cons, unasked?]

/-- Nothing is left to be requested when no call and no pass is under way. -/
theorem World.unasked_eq_nil {w : World} (hdone : ∀ q ∈ w.adds, ∃ outcome, q.2 = .done outcome)
    (hidle : w.refresher.isIdle = true) : w.unasked = [] := by
  have hstage : w.refresher.stage.unasked? = none := by
    rw [(w.refresher.isIdle_iff).mp hidle]
    rfl
  rw [unasked, hstage, Option.toList_none, List.nil_append, List.filterMap_eq_nil_iff]
  intro q hq
  obtain ⟨outcome, hout⟩ := hdone q hq
  rw [hout]
  rfl

namespace Run

/-- Which requests are made in some acts after a start, and that they do not overlap. -/
structure Orderly (k : Run) (acts : List Act) : Prop where
  /-- Each request has its answer before the next is made, and the last is held or answered. -/
  serial : ∃ past held, k.crossings acts = Crossing.log past held ∧
    (k.after acts).world.Exclusive held
  noted : (k.after acts).world.system.requests = k.world.system.requests ++ k.asked acts
  /-- There is one for each first check that is passed and one for each selection, some of them
  still to come. -/
  whole : (k.asked acts ++ (k.after acts).world.unasked).Perm
    (k.passed acts ++ (k.selections acts).map (·.1.url))
  /-- None is to come when everything is over. -/
  settled : (∀ q ∈ (k.after acts).world.adds, ∃ outcome, q.2 = .done outcome) →
    (k.after acts).world.refresher.isIdle = true →
    (k.asked acts).Perm (k.passed acts ++ (k.selections acts).map (·.1.url))
  /-- An addition that passes its first check requests its list once. -/
  addition : ∀ caller c stage, (k.after acts).world.adds[caller]? = some (c, stage) →
    .checked false ∈ k.sights caller acts →
    k.askedBy (caller + 1) acts ++ (stage.unasked? c).toList = [c.url]
  /-- Every other addition, so each that is refused there, requests nothing. -/
  refused : ∀ caller,
    (.checked true ∈ k.sights caller acts → .checked false ∉ k.sights caller acts) ∧
    (.checked false ∉ k.sights caller acts → k.askedBy (caller + 1) acts = [])
  /-- The passes request what they select, in this order. -/
  selection : k.askedBy 0 acts ++ (k.after acts).world.refresher.stage.unasked?.toList =
    (k.selections acts).map (·.1.url)
  /-- They select what is enabled and due when they look. -/
  due : ∀ e now, (e, now) ∈ k.selections acts → ∃ before a, before ++ [a] <+: acts ∧
    (k.after before).world.reads? a = some now ∧
    ∃ x ∈ (k.after before).world.entries, x.enabled = true ∧ x.nextUpdate ≤ now ∧
      e = x.reserve now (k.after before).world.system.period

/-- Whatever additions, deletions and passes are made, their steps mixed in any way, and whatever
the transport answers, there is never more than one request open, and there is exactly one for each
addition that passes its first check and for each entry that a pass selects. -/
theorem requests_orderly (k : Run) (hadds : k.world.adds = [])
    (hidle : k.world.refresher.isIdle = true) (acts : List Act) : k.Orderly acts := by
  have hstage := (k.world.refresher.isIdle_iff).mp hidle
  have hnone : k.world.unasked = [] := World.unasked_eq_nil (by simp [hadds]) hidle
  have hwhole := k.asked_perm acts
  rw [hnone, List.nil_append] at hwhole
  constructor
  case serial =>
    -- at the start nobody asks
    have hstart : k.world.Exclusive none := by
      refine ⟨fun ticket url => ?_, nofun⟩
      cases ticket with
      | zero => simp [World.asking?, hstage, Stage.asking?]
      | succ caller => simp [World.asking?, hadds]
    obtain ⟨past, held, hlog, hexclusive⟩ := crossings_log none hstart acts
    exact ⟨past, held, hlog, hexclusive⟩
  case noted => exact k.requests_asked acts
  case whole => exact hwhole
  case settled =>
    intro hdone hover
    rwa [World.unasked_eq_nil hdone hover, List.append_nil] at hwhole
  case addition =>
    intro caller c stage hadd hpassed
    rw [askedBy_sights]
    exact ((k.seen_after hadds caller acts).2 c stage hadd).asks.1 hpassed
  case refused =>
    intro caller
    rw [askedBy_sights]
    obtain ⟨hgone, hseen⟩ := k.seen_after hadds caller acts
    cases hadd : (k.after acts).world.adds[caller]? with
    | none => simp [hgone hadd]
    | some q =>
      obtain ⟨-, hno, hexcludes⟩ := (hseen q.1 q.2 hadd).asks
      exact ⟨hexcludes, fun hnot => (hno hnot).1⟩
  case selection =>
    have hselections := k.asked_selections acts
    rwa [hstage] at hselections
  case due =>
    intro e now hmem
    rw [selections_eq_trace] at hmem
    obtain ⟨before, a, hfront, hselects⟩ := k.exists_of_mem_trace acts (e, now) hmem
    obtain ⟨pre, x, post, hsplit, -, he, hdue, -, hreads⟩ :=
      (k.after before).world.selects?_eq_some a e now hselects
    obtain ⟨henabled, hle⟩ := (x.isDue_iff now).mp hdue
    exact ⟨before, a, hfront, hreads, x, by simp [hsplit], henabled, hle, he⟩

/-- A pass has selected the first list and is about to ask for it. Two additions come and stand in
the queue behind it or are refused, and the list is deleted while it is downloaded. -/
def contended : List Act :=
  let add (caller : Nat) : Act := .add caller .calm
  [.startPass, .refresh .calm, .refresh .calm, .call ⟨"more", "http://c.example/"⟩, add 0, add 0,
    add 0, add 0, .refresh .calm, .call ⟨"ads", "http://d.example/"⟩, add 1, add 0,
    .delete "http://a.example/", .refresh .calm, add 0, add 0]

theorem requests_orderly_contended :
    let k := loaded .pair (.ofSeconds 10) .withLists
    k.world.adds = [] ∧ k.world.refresher.isIdle = true ∧ k.Orderly contended ∧
      k.crossings contended = [.asked 0 "http://a.example/", .answered 0 "http://a.example/",
        .asked 1 "http://c.example/", .answered 1 "http://c.example/"] :=
  ⟨rfl, rfl, requests_orderly _ rfl rfl contended, by decide +kernel⟩

end Run
end ListKeeper
