import ListKeeper.Proofs.Completion
import ListKeeper.Proofs.Renamings

/-! Commits on their own. A commit pauses the consumer, attempts every renaming once and in the
order of the entries, and resumes the consumer; what fails waits for the next commit, which attempts
just that. Main statements: `Committing.ends` and `Run.commit_retries`. -/
namespace ListKeeper

namespace Registry

/-- The registry after the entries with some ids forgot their staged files. -/
def settle (r : Registry) (ids : List UInt64) : Registry :=
  ⟨r.entries.map fun e => if e.id ∈ ids then e.settled else e⟩

variable (r : Registry)

theorem settle_nil : r.settle [] = r := by
  simp [settle]

theorem settle_append (ids ids' : List UInt64) :
    r.settle (ids ++ ids') = (r.settle ids).settle ids' := by
  simp only [settle, List.map_map]
  congr 1
  apply List.map_congr_left
  intro e _
  by_cases hid : e.id ∈ ids
  · by_cases hid' : e.id ∈ ids' <;> simp [hid, hid', Entry.settled]
  · simp [hid]

theorem map_id_settle (ids : List UInt64) :
    (r.settle ids).entries.map (·.id) = r.entries.map (·.id) := by
  simp only [settle, List.map_map]
  apply List.map_congr_left
  intro e _
  by_cases hid : e.id ∈ ids <;> simp [hid, Entry.settled]

/-- What is settled does not wait any more, and all else does. -/
theorem staged_settle (ids : List UInt64) :
    (r.settle ids).staged = r.staged.filter fun q => q.1 ∉ ids := by
  simp only [staged, settle]
  rw [List.filterMap_map, List.filter_filterMap]
  congr 1
  funext e
  by_cases hid : e.id ∈ ids
  · cases hp : e.pending <;> simp [hid, Entry.settled, Option.filter]
  · cases hp : e.pending <;> simp [hid, hp, Option.filter]

/-- A look-up by id settles the entry with that id and no other. -/
theorem clearPending_eq_settle (id stagedId : UInt64) (hids : (r.entries.map (·.id)).Nodup)
    (hwaits : ∃ e ∈ r.entries, e.id = id ∧ e.pending = some stagedId) :
    (r.clearPending id stagedId).2 = r.settle [id] := by
  obtain ⟨e, he, hid, hp⟩ := hwaits
  rcases r.clearPending_cases id stagedId with ⟨-, hnone⟩ | ⟨pre, x, post, hclear, hsplit, rfl, -⟩
  · exact absurd hp (hnone e he hid)
  · rw [hsplit] at hids
    have hkeep (ys : List Entry) (hys : ∀ y ∈ ys, y ∈ pre ∨ y ∈ post) :
        ys.map (fun y => if y.id ∈ [x.id] then y.settled else y) = ys := by
      have hstay : ∀ y ∈ ys, (if y.id ∈ [x.id] then y.settled else y) = y := by
        intro y hy
        apply if_neg
        simpa using id_ne_of_split hids y (hys y hy)
      exact (List.map_congr_left hstay).trans (List.map_id' ys)
    rw [hclear, settle, hsplit, List.map_append, List.map_cons, hkeep pre fun y hy => .inl hy,
      hkeep post fun y hy => .inr hy]
    simp

end Registry

theorem Apart.of_sublist {pairs rest : List (UInt64 × UInt64)} (h : Apart pairs)
    (hsub : rest.Sublist pairs) : Apart rest where
  ids := h.ids.sublist (hsub.map _)
  staged := h.staged.sublist (hsub.map _)
  ne p hp q hq := h.ne p (hsub.subset hp) q (hsub.subset hq)

/-- The identities in a system keep the pairs of a commit apart. -/
theorem System.Identified.apart {s : System} (h : s.Identified) : Apart s.registry.staged where
  ids := by
    have hfst : s.registry.staged.map (·.1) =
        (s.registry.entries.filter (·.pending.isSome)).map (·.id) := by
      simp only [Registry.staged, List.map_filterMap, ← List.filterMap_eq_map,
        List.filterMap_filter]
      congr 1
      funext e
      cases e.pending <;> rfl
    rw [hfst]
    exact h.ids_nodup.sublist ((List.filter_sublist).map _)
  staged := by
    have hsnd : s.registry.staged.map (·.2) = s.registry.entries.filterMap (·.pending) := by
      simp only [Registry.staged, List.map_filterMap]
      congr 1
      funext e
      cases e.pending <;> rfl
    rw [hsnd]
    exact h.pending_nodup
  ne := by
    rintro ⟨id, stagedId⟩ hp ⟨id', stagedId'⟩ hq rfl
    obtain ⟨e, he, rfl, hpend⟩ := (s.registry.mem_staged _ _).mp hp
    obtain ⟨e', he', rfl, -⟩ := (s.registry.mem_staged _ _).mp hq
    exact h.pending_ne_id e he e' he' hpend

def Renaming.event (r : Renaming) : Event := .renamed r.id r.stagedId r.succeeded

def CommitReport.count (report : CommitReport) (tried : List Renaming) : CommitReport :=
  ⟨report.promoted + tried.countP (·.succeeded), report.failed + tried.countP (!·.succeeded)⟩

namespace System

/-- The system after some renamings, with what they make of the files. -/
def renamed (s : System) (tried : List Renaming) (t : FileTree) : System :=
  { s with
    registry := s.registry.settle ((tried.filter (·.succeeded)).map (·.id))
    tree := t
    counters := Counters.renameFailed^[tried.countP (!·.succeeded)] s.counters
    journal := s.journal ++ tried.map Renaming.event }

def moved (s : System) (id stagedId : UInt64) (t : FileTree) : System :=
  { { s with tree := t }.note (.renamed id stagedId true) with
    registry := (s.registry.clearPending id stagedId).2 }

def kept (s : System) (id stagedId : UInt64) : System :=
  { s with counters := s.counters.renameFailed }.note (.renamed id stagedId false)

def resumed (s : System) : System :=
  { s.note .restarted with counters := s.counters.commitCompleted }

variable (s : System)

theorem renamed_nil : s.renamed [] s.tree = s := by
  simp [renamed, Registry.settle_nil]

theorem renamed_moved (id stagedId : UInt64) (tried : List Renaming) (t₁ t : FileTree)
    (hids : (s.registry.entries.map (·.id)).Nodup)
    (hwaits : ∃ e ∈ s.registry.entries, e.id = id ∧ e.pending = some stagedId) :
    (s.moved id stagedId t₁).renamed tried t =
      s.renamed (⟨id, stagedId, none, true⟩ :: tried) t := by
  rw [moved, s.registry.clearPending_eq_settle id stagedId hids hwaits]
  simp only [renamed, note, ← Registry.settle_append]
  simp [Renaming.event]

theorem renamed_kept (id stagedId : UInt64) (fault : Option Fault) (tried : List Renaming)
    (t : FileTree) :
    (s.kept id stagedId).renamed tried t =
      s.renamed (⟨id, stagedId, fault, false⟩ :: tried) t := by
  simp [kept, renamed, note, Renaming.event]

end System

namespace Committing

def run (ms : Nat → Moment) (x : System × Committing) : Nat → System × Committing
  | 0 => x
  | n + 1 => (run ms x n).2.step (ms n) (run ms x n).1

def renames? (m : Moment) (s : System) : Committing → Option Renaming
  | .promote ((id, stagedId) :: _) _ =>
    some ⟨id, stagedId, m.disk.fault,
      (Store.attempt m.disk (s.store.promote s.tree stagedId id)).isOk⟩
  | _ => none

def tried (ms : Nat → Moment) (x : System × Committing) : Nat → List Renaming
  | 0 => []
  | n + 1 => tried ms x n ++ ((run ms x n).2.renames? (ms n) (run ms x n).1).toList

theorem run_add (ms : Nat → Moment) (x : System × Committing) (m n : Nat) :
    run ms x (m + n) = run (fun i => ms (m + i)) (run ms x m) n := by
  induction n with
  | zero => rfl
  | succ n ih =>
    rw [← Nat.add_assoc, run, ih]
    rfl

theorem tried_add (ms : Nat → Moment) (x : System × Committing) (m n : Nat) :
    tried ms x (m + n) = tried ms x m ++ tried (fun i => ms (m + i)) (run ms x m) n := by
  induction n with
  | zero => simp [tried]
  | succ n ih =>
    rw [← Nat.add_assoc, tried, ih, run_add, tried, List.append_assoc]

/-- A commit that is over stays so. -/
theorem run_done (ms : Nat → Moment) (s : System) (report : CommitReport) (n : Nat) :
    run ms (s, .done report) n = (s, .done report) := by
  induction n with
  | zero => rfl
  | succ n ih =>
    rw [run, ih]
    rfl

/-- So a commit that is not over was not over before. -/
theorem not_done_of_later (ms : Nat → Moment) (x : System × Committing) (i n : Nat) (hi : i ≤ n)
    (h : ∀ report, (run ms x n).2 ≠ .done report) (report : CommitReport) :
    (run ms x i).2 ≠ .done report := by
  intro hdone
  apply h report
  have hat : run ms x i = ((run ms x i).1, .done report) := Prod.ext rfl hdone
  obtain ⟨j, rfl⟩ := Nat.exists_eq_add_of_le hi
  rw [run_add, hat, run_done]

/-- Pairs of which each stands for an entry that waits. -/
structure Awaiting (s : System) (pairs : List (UInt64 × UInt64)) : Prop where
  ids : (s.registry.entries.map (·.id)).Nodup
  once : (pairs.map (·.1)).Nodup
  ne : ∀ q ∈ pairs, q.2 ≠ q.1
  waits : ∀ q ∈ pairs, ∃ e ∈ s.registry.entries, e.id = q.1 ∧ e.pending = some q.2

/-- Some renamings are attempted, each once and in their order, until the consumer is resumed. -/
def Attempts (ms : Nat → Moment) (s : System) (pairs : List (UInt64 × UInt64))
    (report : CommitReport) : Prop :=
  ∃ n rs t, run ms (s, .promote pairs report) n = (s.renamed rs t, .restart (report.count rs)) ∧
    tried ms (s, .promote pairs report) n = rs ∧ rs.map Renaming.pair = pairs ∧
    s.store.Renamings s.tree rs t

section

variable {ms : Nat → Moment} {s : System} {id stagedId : UInt64} {rest : List (UInt64 × UInt64)}
variable {report : CommitReport}

theorem Awaiting.moved (h : Awaiting s ((id, stagedId) :: rest)) (t : FileTree) :
    Awaiting (s.moved id stagedId t) rest := by
  obtain ⟨hfirst, hrest⟩ := List.nodup_cons.mp h.once
  have hreg : (s.moved id stagedId t).registry = s.registry.settle [id] :=
    s.registry.clearPending_eq_settle id stagedId h.ids (h.waits (id, stagedId) List.mem_cons_self)
  refine ⟨?_, hrest, fun q hq => h.ne q (List.mem_cons_of_mem _ hq), fun q hq => ?_⟩
  · rw [hreg, s.registry.map_id_settle]
    exact h.ids
  · obtain ⟨e, he, hid, hp⟩ := h.waits q (List.mem_cons_of_mem _ hq)
    have hother : e.id ≠ id := fun heq =>
      hfirst (List.mem_map.mpr ⟨q, hq, hid.symm.trans heq⟩)
    rw [hreg]
    exact ⟨e, List.mem_map.mpr ⟨e, he, by simp [hother]⟩, hid, hp⟩

/-- A file is renamed in one step and its entry settled in the next. -/
theorem Attempts.moved (h : Awaiting s ((id, stagedId) :: rest)) (t₁ : FileTree)
    (hattempt : Store.attempt (ms 0).disk (s.store.promote s.tree stagedId id) = .ok t₁)
    (hrest : Attempts (fun i => ms (2 + i)) (s.moved id stagedId t₁) rest
      { report with promoted := report.promoted + 1 }) :
    Attempts ms s ((id, stagedId) :: rest) report := by
  obtain ⟨hfault, hmove⟩ := Store.of_attempt _ _ _ hattempt
  have hne : stagedId ≠ id := h.ne (id, stagedId) List.mem_cons_self
  have hstart : run ms (s, .promote ((id, stagedId) :: rest) report) 2 =
      (s.moved id stagedId t₁,
        .promote rest { report with promoted := report.promoted + 1 }) := by
    simp only [run, step, hne, ↓reduceIte, hattempt]
    rfl
  have hfirst : tried ms (s, .promote ((id, stagedId) :: rest) report) 2 =
      [⟨id, stagedId, none, true⟩] := by
    simp only [tried, run, step, hne, ↓reduceIte, hattempt, renames?, hfault]
    rfl
  obtain ⟨n, rs, t, hrun, htold, hpairs, hfiles⟩ := hrest
  refine ⟨2 + n, ⟨id, stagedId, none, true⟩ :: rs, t, ?run, ?tried, ?pairs, ?files⟩
  case run =>
    have hself := h.waits (id, stagedId) List.mem_cons_self
    rw [run_add, hstart, hrun, s.renamed_moved id stagedId rs t₁ t h.ids hself]
    simp [CommitReport.count, Nat.add_assoc, Nat.add_comm]
  case tried =>
    rw [tried_add, hstart, hfirst, htold]
    rfl
  case pairs =>
    rw [List.map_cons, hpairs]
    rfl
  case files => exact .moved s.tree t₁ t id stagedId rs hmove hfiles

theorem Attempts.kept (hne : stagedId ≠ id) (cause : IoError)
    (hattempt : Store.attempt (ms 0).disk (s.store.promote s.tree stagedId id) = .error cause)
    (hrest : Attempts (fun i => ms (1 + i)) (s.kept id stagedId) rest
      { report with failed := report.failed + 1 }) :
    Attempts ms s ((id, stagedId) :: rest) report := by
  have hstart : run ms (s, .promote ((id, stagedId) :: rest) report) 1 =
      (s.kept id stagedId, .promote rest { report with failed := report.failed + 1 }) := by
    simp only [run, step, hne, ↓reduceIte, hattempt]
    rfl
  have hfirst : tried ms (s, .promote ((id, stagedId) :: rest) report) 1 =
      [⟨id, stagedId, (ms 0).disk.fault, false⟩] := by
    simp only [tried, run, renames?, hattempt]
    rfl
  obtain ⟨n, rs, t, hrun, htold, hpairs, hfiles⟩ := hrest
  refine ⟨1 + n, ⟨id, stagedId, (ms 0).disk.fault, false⟩ :: rs, t, ?run, ?tried, ?pairs, ?files⟩
  case run =>
    rw [run_add, hstart, hrun, s.renamed_kept id stagedId (ms 0).disk.fault]
    simp [CommitReport.count, Nat.add_assoc, Nat.add_comm]
  case tried =>
    rw [tried_add, hstart, hfirst, htold]
    rfl
  case pairs =>
    rw [List.map_cons, hpairs]
    rfl
  case files =>
    refine .kept s.tree t id stagedId _ rs ?_ hfiles
    intro hfault t₁ hmove
    rw [Store.attempt, hfault, hmove] at hattempt
    cases hattempt

end

theorem Awaiting.attempts {s : System} {pairs : List (UInt64 × UInt64)} (h : Awaiting s pairs)
    (ms : Nat → Moment) (report : CommitReport) : Attempts ms s pairs report := by
  induction pairs generalizing ms s report with
  | nil =>
    refine ⟨1, [], s.tree, ?_, rfl, rfl, .nil s.tree⟩
    rw [s.renamed_nil]
    rfl
  | cons q rest ih =>
    obtain ⟨id, stagedId⟩ := q
    cases hattempt : Store.attempt (ms 0).disk (s.store.promote s.tree stagedId id) with
    | ok t₁ => exact .moved h t₁ hattempt (ih (h.moved t₁) _ _)
    | error cause =>
      have hrest : Awaiting (s.kept id stagedId) rest :=
        ⟨h.ids, (List.nodup_cons.mp h.once).2, fun q hq => h.ne q (List.mem_cons_of_mem _ hq),
          fun q hq => h.waits q (List.mem_cons_of_mem _ hq)⟩
      exact .kept (h.ne (id, stagedId) List.mem_cons_self) cause hattempt (ih hrest _ _)

end Committing

/-- What a commit on its own comes to. It does nothing where nothing waits. Else it pauses the
consumer, attempts the renamings, resumes the consumer when all that succeeded are recorded, and
reports how many did and how many did not. -/
inductive System.Commits (s : System) (ms : Nat → Moment) : List Renaming → System → Prop
  | nothing (hnone : s.registry.staged = [])
      (hdone : Committing.run ms (s, .snapshot) 1 = (s, .done .empty)) : Commits s ms [] s
  | window (n : Nat) (tried : List Renaming) (t : FileTree) (hsome : s.registry.staged ≠ [])
      (hpairs : tried.map Renaming.pair = s.registry.staged)
      (htold : Committing.tried ms (s, .snapshot) n = tried)
      (hfiles : s.store.Renamings s.tree tried t)
      (hrestart : Committing.run ms (s, .snapshot) n =
        ((s.note .closed).renamed tried t, .restart (CommitReport.empty.count tried)))
      (hdone : Committing.run ms (s, .snapshot) (n + 2) =
        (((s.note .closed).renamed tried t).resumed, .done (CommitReport.empty.count tried))) :
    Commits s ms tried ((s.note .closed).renamed tried t).resumed

/-- The consumer is paused whatever it answers. -/
theorem Committing.step_close (m : Moment) (s : System) (pairs : List (UInt64 × UInt64)) :
    (Committing.close pairs).step m s = (s.note .closed, .promote pairs .empty) := by
  simp only [step]
  split <;> rfl

theorem Committing.step_restart (m : Moment) (s : System) (report : CommitReport) :
    (Committing.restart report).step m s = (s.note .restarted, .count report) := by
  simp only [step]
  split <;> rfl

/-- A commit comes to an end, whatever the disk and the consumer do. -/
theorem Committing.ends (ms : Nat → Moment) (s : System)
    (hids : (s.registry.entries.map (·.id)).Nodup) (hapart : Apart s.registry.staged) :
    ∃ rs s', s.Commits ms rs s' := by
  cases hstaged : s.registry.staged with
  | nil =>
    refine ⟨[], s, .nothing hstaged ?_⟩
    simp [run, step, hstaged]
  | cons q rest =>
    have hsnapshot : run ms (s, .snapshot) 1 = (s, .close (q :: rest)) := by
      simp [run, step, hstaged]
    have hclose : run ms (s, .snapshot) 2 = (s.note .closed, .promote (q :: rest) .empty) := by
      rw [run, hsnapshot, step_close]
    have hnone : tried ms (s, .snapshot) 2 = [] := by
      rw [tried, tried, hsnapshot]
      rfl
    have hawaiting : Awaiting (s.note .closed) (q :: rest) := by
      rw [← hstaged]
      refine ⟨hids, hapart.ids, fun p hp => hapart.ne p hp p hp, fun p hp => ?_⟩
      exact (s.registry.mem_staged p.1 p.2).mp hp
    obtain ⟨n, rs, t, hrun, htold, hpairs, hfiles⟩ :=
      hawaiting.attempts (fun i => ms (2 + i)) .empty
    have hrestart : run ms (s, .snapshot) (2 + n) =
        ((s.note .closed).renamed rs t, .restart (CommitReport.empty.count rs)) := by
      rw [run_add, hclose, hrun]
    refine ⟨rs, _, .window (2 + n) rs t (by simp [hstaged]) (hpairs.trans hstaged.symm) ?_ hfiles
      hrestart ?_⟩
    · rw [tried_add, hclose, hnone, htold]
      rfl
    · rw [run, run, hrestart, step_restart]
      rfl

def Renaming.failures (tried : List Renaming) : List (UInt64 × UInt64) :=
  (tried.filter (!·.succeeded)).map pair

/-- Where no two pairs share an id, the pairs that are not settled are those that failed. -/
theorem Renaming.failures_eq (tried : List Renaming)
    (hids : ((tried.map pair).map (·.1)).Nodup) :
    ((tried.map pair).filter fun q => q.1 ∉ (tried.filter (·.succeeded)).map (·.id)) =
      failures tried := by
  rw [List.map_map] at hids
  rw [List.filter_map, failures]
  congr 1
  apply List.filter_congr
  intro r hr
  have hmem : r.id ∈ (tried.filter (·.succeeded)).map (·.id) ↔ r.succeeded = true := by
    constructor
    · intro hid
      obtain ⟨q, hq, heq⟩ := List.mem_map.mp hid
      obtain ⟨hq, hyes⟩ := List.mem_filter.mp hq
      obtain rfl : q = r := List.inj_on_of_nodup_map hids hq hr heq
      exact hyes
    · intro hyes
      exact List.mem_map.mpr ⟨r, List.mem_filter.mpr ⟨hr, hyes⟩, rfl⟩
  have hno : r.pair.1 ∉ (tried.filter (·.succeeded)).map (·.id) ↔ (!r.succeeded) = true := by
    rw [pair, hmem]
    simp
  exact Bool.eq_iff_iff.mpr (decide_eq_true_iff.trans hno)

namespace System.Commits

variable {s s' : System} {ms : Nat → Moment} {tried : List Renaming}

theorem pairs (h : s.Commits ms tried s') : tried.map Renaming.pair = s.registry.staged := by
  cases h with
  | nothing hnone => exact hnone.symm
  | window n tried t hsome hpairs => exact hpairs

theorem files (h : s.Commits ms tried s') : s.store.Renamings s.tree tried s'.tree := by
  cases h with
  | nothing hnone => exact .nil s.tree
  | window n tried t hsome hpairs htold hfiles => exact hfiles

/-- The entries keep their ids, and those whose renaming failed still wait, all others not. -/
theorem left (h : s.Commits ms tried s') (hapart : Apart s.registry.staged) :
    s'.registry.entries.map (·.id) = s.registry.entries.map (·.id) ∧
      s'.registry.staged = Renaming.failures tried := by
  cases h with
  | nothing hnone => exact ⟨rfl, hnone⟩
  | window n tried t hsome hpairs =>
    refine ⟨s.registry.map_id_settle _, ?_⟩
    have hids := hapart.ids
    rw [← hpairs] at hids
    rw [← Renaming.failures_eq tried hids, hpairs]
    exact s.registry.staged_settle _

theorem apart (h : s.Commits ms tried s') (hapart : Apart s.registry.staged) :
    Apart s'.registry.staged := by
  -- what still waits is a part of what waited
  have hsub : (Renaming.failures tried).Sublist s.registry.staged := by
    rw [← h.pairs]
    exact List.filter_sublist.map Renaming.pair
  rw [(h.left hapart).2]
  exact hapart.of_sublist hsub

end System.Commits

namespace Run

/-- In every state of a run, over any files of which none is a directory in the place of a staged
one, a commit on its own comes to an end. It attempts each renaming once, and each comes out by
itself: the list's file is what was staged, or both files stay as they are. No other file changes.
What failed waits, and another commit at once attempts that and nothing else. -/
theorem commit_retries (fetchable : String → Bool) (c : Config) (hc : c.fault? fetchable = none)
    (period : Span) (t₀ : FileTree) (disks : UInt64 → Disk) (acts : List Act)
    (hm : ((loaded c period t₀ disks).after acts).past.minted < IdSource.room) (t : FileTree)
    (s : System) (hs : s = (((loaded c period t₀ disks).after acts).withTree t).world.system)
    (hfree : (((loaded c period t₀ disks).after acts).withTree t).world.Free) (ms : Nat → Moment) :
    ∃ tried s', s.Commits ms tried s' ∧
      (∀ r ∈ tried, r.Done s.store s.tree s'.tree) ∧
      s.store.Confined s.tree s'.tree (tried.flatMap Renaming.slots) ∧
      ∀ ms', ∃ tried' s'', s'.Commits ms' tried' s'' ∧
        tried'.map Renaming.pair = Renaming.failures tried := by
  obtain ⟨role, -, hfilled⟩ := filled_after fetchable c hc period t₀ disks acts False.elim hm
  have hbefore := identified_after fetchable c hc period t₀ disks acts hm
  -- the entries do not depend on the files, so what holds of them before the exchange still does
  have hids : (s.registry.entries.map (·.id)).Nodup := by
    rw [hs]
    exact hbefore.ids_nodup
  have hapart : Apart s.registry.staged := by
    rw [hs]
    exact hbefore.apart
  have hplain : s.store.Plain := by
    rw [hs]
    exact hfilled.plain
  obtain ⟨tried, s', hcommits⟩ := Committing.ends ms s hids hapart
  have hfiles : ∀ r ∈ tried, s.tree.isDirectory (s.store.pathFor r.stagedId) = false := by
    intro r hr
    have hpair : r.pair ∈ s.registry.staged := hcommits.pairs ▸ List.mem_map_of_mem hr
    obtain ⟨e, he, -, hp⟩ := (s.registry.mem_staged r.id r.stagedId).mp hpair
    subst hs
    exact hfree e he r.stagedId hp
  have htried : Apart (tried.map Renaming.pair) := by
    rw [hcommits.pairs]
    exact hapart
  obtain ⟨hdone, -, hconfined⟩ := hcommits.files.done hplain htried hfiles
  refine ⟨tried, s', hcommits, hdone, hconfined, fun ms' => ?_⟩
  -- the pairs that are left are those whose renaming failed
  obtain ⟨hids', hleft⟩ := hcommits.left hapart
  obtain ⟨tried', s'', hcommits'⟩ :=
    Committing.ends ms' s' (hids' ▸ hids) (hcommits.apart hapart)
  exact ⟨tried', s'', hcommits', hcommits'.pairs.trans hleft⟩

/-! ### One file is gone -/

/-- A pass has staged both lists and is about to commit. -/
def stagedBoth : List Act := .startPass :: List.replicate 26 (.refresh .calm)

/-- The staged file of the first list is in place, that of the second is gone. -/
def withFirst : FileTree :=
  ⟨[(["lists"], .dir), (["lists", "1000.txt"], .file [0x61] .epoch)]⟩

def withFirstRun : Run :=
  ((loaded .pair (.ofSeconds 10) .withLists).after stagedBoth).withTree withFirst

theorem withFirstRun_staged :
    withFirstRun.world.system.registry.staged = [(1, 1000), (2, 1001)] := by
  decide +kernel

theorem withFirstRun_free : withFirstRun.world.Free := by
  intro e he p hp
  have hpair := (withFirstRun.world.system.registry.mem_staged e.id p).mpr ⟨e, he, rfl, hp⟩
  rw [withFirstRun_staged] at hpair
  simp only [List.mem_cons, Prod.mk.injEq, List.not_mem_nil, or_false] at hpair
  rcases hpair with ⟨-, rfl⟩ | ⟨-, rfl⟩ <;> decide +kernel

theorem commit_retries_withFirst :
    Config.pair.fault? (fun _ => true) = none ∧
      ((loaded .pair (.ofSeconds 10) .withLists).after stagedBoth).past.minted < IdSource.room ∧
      withFirstRun.world.Free ∧
      ∃ tried s', withFirstRun.world.system.Commits (fun _ => .calm) tried s' ∧
        tried.map Renaming.pair = [(1, 1000), (2, 1001)] ∧
        (∀ r ∈ tried, r.Done withFirstRun.world.system.store withFirstRun.world.system.tree
          s'.tree) ∧
        ∀ ms', ∃ tried' s'', s'.Commits ms' tried' s'' ∧
          tried'.map Renaming.pair = Renaming.failures tried := by
  have hc : Config.pair.fault? (fun _ => true) = none := by decide +kernel
  have hm : ((loaded .pair (.ofSeconds 10) .withLists).after stagedBoth).past.minted <
      IdSource.room := by
    decide +kernel
  obtain ⟨tried, s', hcommits, hdone, -, hagain⟩ :=
    commit_retries (fun _ => true) .pair hc (.ofSeconds 10) .withLists .readsAll stagedBoth hm
      withFirst withFirstRun.world.system rfl withFirstRun_free fun _ => .calm
  exact ⟨hc, hm, withFirstRun_free, tried, s', hcommits,
    hcommits.pairs.trans withFirstRun_staged, hdone, hagain⟩

end Run
end ListKeeper
