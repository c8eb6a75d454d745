import ListKeeper.Adding
import ListKeeper.Operation
import ListKeeper.Service
import ListKeeper.Proofs.Ids

/-! Runs. Any number of additions and deletions and the passes of one refresher act on one system in
any order, one atomic step at a time. A run also keeps its past: how many ids were given out, which
content each list obtained, and which downloads were complete. No step depends on the past. -/
namespace ListKeeper

/-- Everything under way on one system: the additions in the order in which they were called for,
finished ones included, and the refresher. -/
structure World where
  system : System
  adds : List (Candidate × Adding)
  refresher : Refresher

/-- What happens next. -/
inductive Act
  | call (c : Candidate)
  | add (caller : Nat) (m : Moment)
  | delete (url : String)
  | startPass
  | refresh (m : Moment)

/-- Whether the disk fails in an act without a word. -/
def Act.hides : Act → Bool
  | .add _ m => m.disk.hides
  | .refresh m => m.disk.hides
  | _ => false

/-- The id to whose file a staged one was just renamed, while its entry does not know yet. -/
def Stage.promoting? : Stage → Option UInt64
  | .commit (.clear id _ _ _) => some id
  | _ => none

namespace World

/-- The world after one act. Each addition holds the ticket that follows its place, and the
refresher holds ticket zero. A pass starts only when none is under way. -/
def step (w : World) : Act → World
  | .call c => { w with adds := w.adds ++ [(c, .check)] }
  | .add caller m =>
    match w.adds[caller]? with
    | none => w
    | some (c, stage) =>
      let (s, stage') := stage.step c (caller + 1) m w.system
      { w with system := s, adds := w.adds.set caller (c, stage') }
  | .delete url => { w with system := (w.system.delete url).2 }
  | .startPass =>
    if w.refresher.isIdle then { w with refresher := w.refresher.startPass } else w
  | .refresh m =>
    let (s, r) := w.refresher.step 0 m w.system
    { w with system := s, refresher := r }

def entries (w : World) : List Entry := w.system.registry.entries

def file (w : World) (id : UInt64) : Except IoError (Bytes × Instant) :=
  w.system.store.load w.system.tree id

def mints (w : World) : Act → Bool
  | .add caller _ =>
    match w.adds[caller]? with
    | some (_, .mint) => true
    | _ => false
  | .refresh _ =>
    match w.refresher.stage with
    | .mint _ _ => true
    | _ => false
  | _ => false

/-- The content that an act gives to a list: that of an entry that is put in, or that of an entry
with which a staged file is recorded. -/
def obtains? (w : World) : Act → Option (UInt64 × Bytes)
  | .add caller _ =>
    match w.adds[caller]? with
    | some (c, .insert id body) =>
      if w.system.registry.taken c.name c.url then none else some (id, body)
    | _ => none
  | .refresh _ =>
    match w.refresher.stage with
    | .record e _ body => (w.system.registry.getById? e.id).map fun _ => (e.id, body)
    | _ => none
  | _ => none

def receives? (w : World) : Act → Option (String × Bytes)
  | .add caller m =>
    match w.adds[caller]? with
    | some (c, .fetch _ .exchange) =>
      (m.answer.content c.url).toOption.map fun body => (c.url, body)
    | _ => none
  | .refresh m =>
    match w.refresher.stage with
    | .fetch e .exchange => (m.answer.content e.url).toOption.map fun body => (e.url, body)
    | _ => none
  | _ => none

/-- The entry that an act selects for its refresh, and the clock reading by which it is due. -/
def selects? (w : World) : Act → Option (Entry × Instant)
  | .refresh m =>
    match w.refresher.stage with
    | .select => (w.system.registry.selectDue m.now w.system.period).map fun r => (r.1, m.now)
    | _ => none
  | _ => none

variable {w : World} {caller : Nat} {c : Candidate}

/-- What a caller's own step makes of the world. -/
theorem step_add (stage : Adding) (hadd : w.adds[caller]? = some (c, stage)) (m : Moment) :
    (w.step (.add caller m)).system = (stage.step c (caller + 1) m w.system).1 ∧
      (w.step (.add caller m)).adds[caller]? =
        some (c, (stage.step c (caller + 1) m w.system).2) := by
  have hlen := (List.getElem?_eq_some_iff.mp hadd).1
  refine ⟨?_, ?_⟩
  · simp only [step, hadd]
  · simp only [step, hadd]
    exact List.getElem?_set_self hlen

/-- An addition stays where it is while others act. -/
theorem adds_step_of_ne (q : Candidate × Adding) (hadd : w.adds[caller]? = some q) (a : Act)
    (hother : ∀ m, a ≠ .add caller m) : (w.step a).adds[caller]? = some q := by
  have hlen := (List.getElem?_eq_some_iff.mp hadd).1
  cases a with
  | call c => exact (List.getElem?_append_left hlen).trans hadd
  | add i m =>
    have hne : i ≠ caller := by
      rintro rfl
      exact hother m rfl
    simp only [step]
    split
    · exact hadd
    · exact (List.getElem?_set_ne hne).trans hadd
  | startPass =>
    simp only [step]
    split <;> exact hadd
  | _ => exact hadd

/-- An addition keeps its candidate. -/
theorem candidate_step (w : World) (a : Act)
    (h : ∃ stage, w.adds[caller]? = some (c, stage)) :
    ∃ stage, (w.step a).adds[caller]? = some (c, stage) := by
  obtain ⟨stage, hadd⟩ := h
  by_cases hown : ∃ m, a = .add caller m
  · obtain ⟨m, rfl⟩ := hown
    exact ⟨_, (step_add stage hadd m).2⟩
  · exact ⟨stage, adds_step_of_ne _ hadd a fun m heq => hown ⟨m, heq⟩⟩

end World

structure Past where
  minted : Nat
  contents : List (UInt64 × Bytes)
  downloads : List (String × Bytes)

namespace Past

def note (p : Past) (w : World) (a : Act) : Past :=
  { minted := p.minted + (w.mints a).toNat
    contents := (w.obtains? a).toList ++ p.contents
    downloads := (w.receives? a).toList ++ p.downloads }

def latest? (p : Past) (id : UInt64) : Option Bytes :=
  (p.contents.find? fun c => c.1 == id).map (·.2)

end Past

structure Run where
  world : World
  past : Past

namespace Run

def step (k : Run) (a : Act) : Run := ⟨k.world.step a, k.past.note k.world a⟩

def after (k : Run) (acts : List Act) : Run := acts.foldl step k

/-- Where the disk fails in some acts, the one who waits for it is told. -/
def DiskTells (acts : List Act) : Prop := ∀ a ∈ acts, a.hides = false

instance (acts : List Act) : Decidable (DiskTells acts) := List.decidableBAll _ acts

theorem DiskTells.before {acts : List Act} {a : Act} (h : DiskTells (acts ++ [a])) :
    DiskTells acts := fun b hb => h b (List.mem_append_left [a] hb)

def found? (store : Store) (t : FileTree) (disks : UInt64 → Disk) (f : FilterSpec) :
    Option (UInt64 × Bytes) :=
  (store.load t f.id (disks f.id)).toOption.map fun r => (f.id, r.1)

/-- The start of a run: the lists of a configuration are registered, nothing is under way. -/
def loaded (c : Config) (period : Span) (t : FileTree) (disks : UInt64 → Disk := Disk.readsAll) :
    Run :=
  { world :=
      { system := (System.fresh (Service.store c) period t).load c.filters disks
        adds := []
        refresher := .fresh }
    past :=
      { minted := 0
        contents := c.filters.filterMap (found? (Service.store c) t disks)
        downloads := [] } }

@[simp] theorem after_nil (k : Run) : k.after [] = k := rfl

theorem after_append (k : Run) (before : List Act) (a : Act) (between : List Act) :
    k.after (before ++ a :: between) = ((k.after before).step a).after between := by
  simp [after, List.foldl_append]

theorem after_concat (k : Run) (acts : List Act) (a : Act) :
    k.after (acts ++ [a]) = (k.after acts).step a := k.after_append acts a []

def trace {α : Type} (seen? : World → Act → Option α) (k : Run) : List Act → List α
  | [] => []
  | a :: acts => (seen? k.world a).toList ++ trace seen? (k.step a) acts

section

variable {α β : Type} {seen? : World → Act → Option α}

theorem trace_concat (k : Run) (acts : List Act) (a : Act) :
    k.trace seen? (acts ++ [a]) =
      k.trace seen? acts ++ (seen? (k.after acts).world a).toList := by
  induction acts generalizing k with
  | nil => simp [trace]
  | cons b acts ih =>
    rw [List.cons_append, trace, ih, trace, List.append_assoc]
    rfl

/-- What is brought about is brought about in some act. -/
theorem exists_of_mem_trace (k : Run) (acts : List Act) (x : α) (h : x ∈ k.trace seen? acts) :
    ∃ before a, before ++ [a] <+: acts ∧ seen? (k.after before).world a = some x := by
  induction acts generalizing k with
  | nil => cases h
  | cons a acts ih =>
    rw [trace, List.mem_append, Option.mem_toList] at h
    rcases h with hfirst | hrest
    · exact ⟨[], a, List.prefix_append [a] acts, hfirst⟩
    · obtain ⟨before, b, hfront, hseen⟩ := ih (k.step a) hrest
      exact ⟨a :: before, b, (List.prefix_cons_inj a).mpr hfront, hseen⟩

/-- A part of what is brought about, act by act. -/
theorem trace_filterMap (part? : α → Option β) (shown? : World → Act → Option β)
    (h : ∀ w a, (seen? w a).toList.filterMap part? = (shown? w a).toList) (k : Run)
    (acts : List Act) : (k.trace seen? acts).filterMap part? = k.trace shown? acts := by
  induction acts generalizing k with
  | nil => rfl
  | cons a acts ih => rw [trace, List.filterMap_append, h, ih, trace]

end

/-- What every step of a world keeps holds throughout a run. -/
theorem world_after (P : World → Prop) (hstep : ∀ w a, P w → P (w.step a)) (k : Run)
    (hk : P k.world) (acts : List Act) : P (k.after acts).world := by
  induction acts generalizing k with
  | nil => exact hk
  | cons a acts ih => exact ih (k.step a) (hstep k.world a hk)

theorem candidate_after (k : Run) (acts : List Act) (i : Nat) (c : Candidate) (stage : Adding)
    (h : k.world.adds[i]? = some (c, stage)) :
    ∃ stage', (k.after acts).world.adds[i]? = some (c, stage') :=
  world_after (fun w => ∃ stage, w.adds[i]? = some (c, stage)) World.candidate_step k ⟨stage, h⟩
    acts

theorem minted_le_step (k : Run) (a : Act) : k.past.minted ≤ (k.step a).past.minted :=
  Nat.le_add_right _ _

theorem minted_le_after (k : Run) (acts : List Act) :
    k.past.minted ≤ (k.after acts).past.minted := by
  induction acts generalizing k with
  | nil => exact Nat.le_refl _
  | cons a acts ih => exact Nat.le_trans (k.minted_le_step a) (ih (k.step a))

theorem minted_le_append (k : Run) (acts more : List Act) :
    (k.after acts).past.minted ≤ (k.after (acts ++ more)).past.minted := by
  rw [after, after, List.foldl_append]
  exact (k.after acts).minted_le_after more

/-- What holds at the start and is kept by every act holds throughout a run, as long as not too many
ids were given out. -/
theorem invariant_after (P : Run → Prop) (k : Run) (hk : P k) (acts : List Act)
    (hstep : ∀ k, ∀ a ∈ acts, P k → (k.step a).past.minted < IdSource.room → P (k.step a))
    (hm : (k.after acts).past.minted < IdSource.room) : P (k.after acts) := by
  induction acts generalizing k with
  | nil => exact hk
  | cons a acts ih =>
    have hfirst : (k.step a).past.minted < IdSource.room :=
      Nat.lt_of_le_of_lt ((k.step a).minted_le_after acts) hm
    exact ih (k.step a) (hstep k a (by simp) hk hfirst)
      (fun k a ha => hstep k a (List.mem_cons_of_mem _ ha)) hm

end Run

/-! ### A small run -/

def Config.pair : Config :=
  { Config.standard with
    sync := { SyncSettings.standard with dir := "lists" }
    filters := [⟨1, true, "ads", "http://a.example/"⟩, ⟨2, true, "trackers", "http://b.example/"⟩] }

/-- A working directory with a place for the files of the lists, which has one of the first. -/
def FileTree.withLists : FileTree :=
  ⟨[(["lists"], .dir), (["lists", "1.txt"], .file [0x78] .epoch)]⟩

/-- A moment in which all goes well and a request is answered with one rule. -/
def Moment.calm : Moment :=
  ⟨Instant.epoch.deadline (.ofSeconds 1000), .response 200 [0x61], .ok (), .sound [0x61] .epoch⟩

end ListKeeper
