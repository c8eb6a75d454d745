import Mathlib.Data.List.Forall2
import ListKeeper.Proofs.Admission
import ListKeeper.Proofs.Contents
import ListKeeper.Proofs.Deadlines

/-! The turns of a pass. While a pass refreshes, an entry waits, or it was selected once and then
recorded with a staged file or not; nothing else is done to it, and no file changes that it depends
on. Main statement: `World.Refreshing.step`. -/
namespace ListKeeper

/-- How the refresh of an entry ended. -/
inductive Outcome
  | refused (cause : FetchError)
  | unwritten (body : Bytes) (cause : IoError)
  | recorded (stagedId : UInt64) (body : Bytes) (now : Instant)

namespace Outcome

def content : Outcome → Except FetchError Bytes
  | refused cause => .error cause
  | unwritten body _ => .ok body
  | recorded _ body _ => .ok body

end Outcome

structure Renaming where
  id : UInt64
  stagedId : UInt64
  fault : Option Fault
  succeeded : Bool

namespace World

def looks? (w : World) : Act → Option Instant
  | .refresh m =>
    match w.refresher.stage with
    | .select => some m.now
    | _ => none
  | _ => none

def answers? (w : World) : Act → Option (Entry × Answer)
  | .refresh m =>
    match w.refresher.stage with
    | .fetch e .exchange => some (e, m.answer)
    | _ => none
  | _ => none

def concludes? (w : World) : Act → Option (Entry × Outcome)
  | .refresh m =>
    match w.refresher.stage with
    | .fetch e (.done (.error cause)) => some (e, .refused cause)
    | .write e _ body (.done (.error cause)) => some (e, .unwritten body cause)
    | .record e stagedId body => some (e, .recorded stagedId body m.now)
    | _ => none
  | _ => none

def renames? (w : World) : Act → Option Renaming
  | .refresh m =>
    match w.refresher.stage with
    | .commit (.promote ((id, stagedId) :: _) _) =>
      some ⟨id, stagedId, m.disk.fault,
        (Store.attempt m.disk (w.system.store.promote w.system.tree stagedId id)).isOk⟩
    | _ => none
  | _ => none

end World

/-- What a pass did, each in its order, and whether it was told of every failure of the disk. -/
structure Log where
  readings : List Instant
  looked : List Instant
  selected : List (Entry × Instant)
  answered : List (Entry × Answer)
  concluded : List (Entry × Outcome)
  renamed : List Renaming
  told : Bool

namespace Log

def empty : Log := ⟨[], [], [], [], [], [], true⟩

def note (l : Log) (w : World) (a : Act) : Log where
  readings := l.readings ++ (w.reads? a).toList
  looked := l.looked ++ (w.looks? a).toList
  selected := l.selected ++ (w.selects? a).toList
  answered := l.answered ++ (w.answers? a).toList
  concluded := l.concluded ++ (w.concludes? a).toList
  renamed := l.renamed ++ (w.renames? a).toList
  told := l.told && !a.hides

theorem told_note {l : Log} {w : World} {a : Act} (h : (l.note w a).told = true) :
    l.told = true ∧ a.hides = false := by simpa [note] using h

end Log

def Stage.got? : Stage → Option (Entry × Except FetchError Bytes)
  | .fetch e (.done outcome) => some (e, outcome)
  | .mint e body => some (e, .ok body)
  | .write e _ body _ => some (e, .ok body)
  | .record e _ body => some (e, .ok body)
  | _ => none

def Stage.Written (whole : Prop) (s : Store) (t : FileTree) : Stage → Prop
  | .write _ stagedId body w => s.Progress whole t stagedId body w
  | .record _ stagedId body => s.Holds whole t (.file stagedId) body
  | _ => True

theorem Stage.Written.mono {whole whole' : Prop} {s : Store} {t : FileTree} {stage : Stage}
    (h : stage.Written whole s t) (hwhole : whole' → whole) : stage.Written whole' s t := by
  cases stage with
  | write e stagedId body w => exact Store.Progress.mono h hwhole
  | record e stagedId body => exact Store.Holds.mono h hwhole
  | _ => trivial

def Stage.refreshing : Stage → Bool
  | .commit _ => false
  | .idle => false
  | _ => true

def Store.SameFile (s : Store) (t t' : FileTree) (id : UInt64) : Prop :=
  t'.find (s.pathFor id) = t.find (s.pathFor id)

namespace Store.SameFile

variable {s : Store} {t t' t'' : FileTree} {id : UInt64}

theorem refl (s : Store) (t : FileTree) (id : UInt64) : s.SameFile t t id := rfl

theorem trans (h : s.SameFile t t' id) (h' : s.SameFile t' t'' id) : s.SameFile t t'' id :=
  Eq.trans h' h

theorem load (h : s.SameFile t t' id) : s.load t' id = s.load t id := by
  rw [Store.load, FileTree.read, h, Store.load, FileTree.read]

theorem has_iff (h : s.SameFile t t' id) (body : Bytes) :
    s.Has t' (.file id) body ↔ s.Has t (.file id) body := by
  have hread : t'.read (s.pathFor id) = t.read (s.pathFor id) := h.load
  simp only [Store.Has, Slot.path_file, hread]

theorem holds (h : s.SameFile t t' id) {whole : Prop} {body : Bytes}
    (hholds : s.Holds whole t (.file id) body) : s.Holds whole t' (.file id) body :=
  hholds.move fun front => (h.has_iff front).mpr

theorem isDirectory (h : s.SameFile t t' id) :
    t'.isDirectory (s.pathFor id) = t.isDirectory (s.pathFor id) := by
  rw [FileTree.isDirectory, h, FileTree.isDirectory]

end Store.SameFile

/-- A slot holds one content. -/
theorem Store.eq_of_has {s : Store} {t : FileTree} {x : Slot} {body body' : Bytes}
    (h : s.Has t x body) (h' : s.Has t x body') : body = body' := by
  obtain ⟨modified, hread⟩ := h
  obtain ⟨modified', hread'⟩ := h'
  have hsame : (Except.ok (body, modified) : Except IoError (Bytes × Instant)) =
      .ok (body', modified') := hread.symm.trans hread'
  cases hsame
  rfl

/-- What became of an entry of `w₀` while a pass refreshed: it waits, or it was selected and not
recorded, or recorded as well. -/
inductive Entry.Turned (w₀ w : World) (l : Log) (e : Entry) : Entry → Prop
  | waiting (hsel : ∀ s ∈ l.selected, s.1.id ≠ e.id)
      (hfile : ∀ p, e.pending = some p → w₀.system.store.SameFile w₀.system.tree w.system.tree p) :
    Turned w₀ w l e e
  | reserved (now : Instant) (hsel : (e.reserve now w₀.system.period, now) ∈ l.selected)
      (hnot : ∀ c ∈ l.concluded, c.1.id = e.id →
        ∀ stagedId body stamp, c.2 ≠ .recorded stagedId body stamp)
      (hfile : ∀ p, e.pending = some p → w₀.system.store.SameFile w₀.system.tree w.system.tree p) :
    Turned w₀ w l e (e.reserve now w₀.system.period)
  | recorded (now : Instant) (stagedId : UInt64) (body : Bytes) (stamp : Instant)
      (hsel : (e.reserve now w₀.system.period, now) ∈ l.selected)
      (hcon : (e.reserve now w₀.system.period, .recorded stagedId body stamp) ∈ l.concluded)
      (hfile : w₀.system.store.Holds (l.told = true) w.system.tree (.file stagedId) body) :
    Turned w₀ w l e
      ((e.reserve now w₀.system.period).staged stagedId (Rules.recorded body) stamp)

section

variable {α β : Type} {R S : α → β → Prop} {xs : List α}

theorem forall₂_of_mem {ys : List β} (h : List.Forall₂ R xs ys)
    (himp : ∀ x ∈ xs, ∀ y ∈ ys, R x y → S x y) : List.Forall₂ S xs ys := by
  induction h with
  | nil => exact .nil
  | cons hxy _ ih =>
    refine .cons (himp _ (by simp) _ (by simp) hxy) (ih ?_)
    exact fun x hx y hy => himp x (by simp [hx]) y (by simp [hy])

/-- One element is replaced. -/
theorem forall₂_replace {pre post : List β} {y y' : β} (h : List.Forall₂ R xs (pre ++ y :: post))
    (hothers : ∀ x ∈ xs, ∀ z, z ∈ pre ∨ z ∈ post → R x z → S x z)
    (hhere : ∀ x ∈ xs, R x y → S x y') : List.Forall₂ S xs (pre ++ y' :: post) := by
  induction pre generalizing xs with
  | nil =>
    obtain ⟨x, rest, hx, hrest, rfl⟩ := List.forall₂_cons_right_iff.mp h
    refine .cons (hhere x (by simp) hx) (forall₂_of_mem hrest ?_)
    exact fun x hx z hz => hothers x (by simp [hx]) z (.inr hz)
  | cons z pre ih =>
    obtain ⟨x, rest, hx, hrest, rfl⟩ := List.forall₂_cons_right_iff.mp h
    refine .cons (hothers x (by simp) z (.inl (by simp)) hx) (ih hrest ?_ ?_)
    · intro x hx z hz
      refine hothers x (by simp [hx]) z ?_
      rcases hz with hz | hz
      · exact .inl (by simp [hz])
      · exact .inr hz
    · exact fun x hx => hhere x (by simp [hx])

theorem exists_left_of_forall₂ {ys : List β} (h : List.Forall₂ R xs ys) (y : β) (hy : y ∈ ys) :
    ∃ x ∈ xs, R x y := by
  induction h with
  | nil => cases hy
  | cons hxy _ ih =>
    rcases List.mem_cons.mp hy with rfl | hy
    · exact ⟨_, by simp, hxy⟩
    · obtain ⟨x, hx, hrel⟩ := ih hy
      exact ⟨x, by simp [hx], hrel⟩

theorem exists_right_of_forall₂ {ys : List β} (h : List.Forall₂ R xs ys) (x : α) (hx : x ∈ xs) :
    ∃ y ∈ ys, R x y := by
  induction h with
  | nil => cases hx
  | cons hxy _ ih =>
    rcases List.mem_cons.mp hx with rfl | hx
    · exact ⟨_, by simp, hxy⟩
    · obtain ⟨y, hy, hrel⟩ := ih hx
      exact ⟨y, by simp [hy], hrel⟩

end

namespace Entry.Turned

variable {w₀ w w' : World} {l l' : Log} {e e' : Entry}

theorem id_eq (h : e.Turned w₀ w l e') : e'.id = e.id := by cases h <;> rfl

/-- The rest of a pass leaves an entry alone as long as it does neither select nor record it nor
touch the file that it waits for. -/
theorem onward (h : e.Turned w₀ w l e') (sel : List (Entry × Instant))
    (con : List (Entry × Outcome)) (hsel : l'.selected = l.selected ++ sel)
    (hcon : l'.concluded = l.concluded ++ con) (htold : l'.told = true → l.told = true)
    (hnew : ∀ s ∈ sel, s.1.id ≠ e.id)
    (hrec : ∀ c ∈ con, c.1.id = e.id → ∀ stagedId body stamp, c.2 ≠ .recorded stagedId body stamp)
    (hfile : ∀ p, e'.pending = some p →
      w₀.system.store.SameFile w.system.tree w'.system.tree p) : e.Turned w₀ w' l' e' := by
  have hold : ∀ s ∈ l.selected, s ∈ l'.selected := by
    intro s hs
    rw [hsel]
    exact List.mem_append_left _ hs
  cases h with
  | waiting hno hsame =>
    refine .waiting ?_ fun p hp => (hsame p hp).trans (hfile p hp)
    intro s hs
    rw [hsel, List.mem_append] at hs
    rcases hs with hs | hs
    · exact hno s hs
    · exact hnew s hs
  | reserved now hin hnot hsame =>
    refine .reserved now (hold _ hin) ?_ fun p hp => (hsame p hp).trans (hfile p hp)
    intro c hc
    rw [hcon, List.mem_append] at hc
    rcases hc with hc | hc
    · exact hnot c hc
    · exact hrec c hc
  | recorded now stagedId body stamp hin hdone hhas =>
    refine .recorded now stagedId body stamp (hold _ hin) ?_ ?_
    · rw [hcon]
      exact List.mem_append_left _ hdone
    · exact ((hfile stagedId rfl).holds hhas).mono htold

end Entry.Turned

structure World.Refreshing (w₀ w : World) (l : Log) : Prop where
  settings : w.system.settings = w₀.system.settings
  entries : List.Forall₂ (Entry.Turned w₀ w l) w₀.entries w.entries
  canonical : ∀ e ∈ w₀.entries, w₀.system.store.SameFile w₀.system.tree w.system.tree e.id
  sameOpen : w₀.system.tree.SameOpen w.system.tree
  selected : ∀ s ∈ l.selected,
    ∃ e ∈ w₀.entries, s.1 = e.reserve s.2 w₀.system.period ∧ e.isDue s.2 = true
  once : (l.selected.map (·.1.id)).Nodup
  concluded : l.selected.map (·.1) = l.concluded.map (·.1) ++ w.refresher.stage.entry?.toList
  answered : l.answered.map (fun a => (a.1, a.2.content a.1.url)) =
    l.concluded.map (fun c => (c.1, c.2.content)) ++ w.refresher.stage.got?.toList
  written : w.refresher.stage.Written (l.told = true) w₀.system.store w.system.tree

namespace World

variable {w₀ w : World} {l : Log} {role : UInt64 → Role} {n : Nat}

theorem Refreshing.store (h : w₀.Refreshing w l) : w.system.store = w₀.system.store :=
  congrArg Prod.fst h.settings

theorem Refreshing.period (h : w₀.Refreshing w l) : w.system.period = w₀.system.period :=
  congrArg Prod.snd h.settings

/-- The files that the entries depend on are not among some slots. -/
structure Spares (w : World) (xs : List Slot) : Prop where
  canonical : ∀ e ∈ w.entries, .file e.id ∉ xs
  pending : ∀ e ∈ w.entries, ∀ p, e.pending = some p → .file p ∉ xs

theorem spares_nil (w : World) : w.Spares [] := ⟨by simp, by simp⟩

/-- A step that neither selects nor records. -/
theorem Refreshing.goOn (h : w₀.Refreshing w l) (a : Act) (w' : World)
    (hsettings : w'.system.settings = w.system.settings) (hreg : w'.entries = w.entries)
    (xs : List Slot) (hk : w.system.store.Alters w.system.tree w'.system.tree xs)
    (hxs : w.Spares xs) (hsel : w.selects? a = none)
    (hrec : ∀ c, w.concludes? a = some c →
      ∀ stagedId body stamp, c.2 ≠ .recorded stagedId body stamp)
    (hentry : w.refresher.stage.entry?.toList =
      (w.concludes? a).toList.map (·.1) ++ w'.refresher.stage.entry?.toList)
    (hgot : w.refresher.stage.got?.toList ++
        (w.answers? a).toList.map (fun a => (a.1, a.2.content a.1.url)) =
      (w.concludes? a).toList.map (fun c => (c.1, c.2.content)) ++ w'.refresher.stage.got?.toList)
    (hwritten : w'.refresher.stage.Written ((l.note w a).told = true) w₀.system.store
      w'.system.tree) :
    w₀.Refreshing w' (l.note w a) := by
  rw [h.store] at hk
  have hselected : (l.note w a).selected = l.selected := by simp [Log.note, hsel]
  -- the act alters no file that an entry waits for
  have hfile (e : Entry) (he : e ∈ w.entries) (p : UInt64) (hp : e.pending = some p) :
      w₀.system.store.SameFile w.system.tree w'.system.tree p :=
    hk.keeps (.file p) (hxs.pending e he p hp)
  refine ⟨hsettings.trans h.settings, ?entries, ?canonical, h.sameOpen.trans hk.sameOpen, ?selected,
    ?once, ?concluded, ?answered, hwritten⟩
  case entries =>
    rw [hreg]
    refine forall₂_of_mem h.entries fun e _ e' he' hturned => ?_
    refine hturned.onward [] _ (by simp [hselected]) rfl (fun h => (Log.told_note h).1) (by simp)
      ?_ (hfile e' he')
    exact fun c hc _ => hrec c (by simpa using hc)
  case canonical =>
    intro e he
    obtain ⟨e', he', hturned⟩ := exists_right_of_forall₂ h.entries e he
    have hspared := hxs.canonical e' he'
    rw [hturned.id_eq] at hspared
    exact (h.canonical e he).trans (hk.keeps (.file e.id) hspared)
  case selected =>
    rw [hselected]
    exact h.selected
  case once =>
    rw [hselected]
    exact h.once
  case concluded =>
    rw [hselected, h.concluded, hentry, Log.note, List.map_append, List.append_assoc]
  case answered =>
    rw [Log.note, List.map_append, h.answered, List.append_assoc, hgot, List.map_append,
      List.append_assoc]

/-- Files in no lasting role are none that an entry depends on. -/
theorem Sound.spares (h : w.Sound role n) (xs : List Slot)
    (hxs : ∀ x ∈ xs, ¬ (role x.id).Lasts ∨ Stray role w.entries x.id) : w.Spares xs := by
  constructor
  · intro e he hmem
    have hrole := h.table.canonical e he
    rcases hxs _ hmem with hlasts | hstray
    · exact hlasts (by rw [Slot.id, hrole]; trivial)
    · exact hstray.ne_canonical hrole
  · intro e he p hp hmem
    have hrole := h.table.pending e he p hp
    rcases hxs _ hmem with hlasts | hstray
    · exact hlasts (by rw [Slot.id, hrole]; trivial)
    · exact hstray.free e he hp

/-- An entry that was selected within the last period is not due. -/
theorem waits_of_due {e e' : Entry} (h : e.Turned w₀ w l e') (now : Instant)
    (hbrief : ∀ s ∈ l.selected, now < s.2.deadline w₀.system.period) (hdue : e'.isDue now = true) :
    e' = e ∧ (∀ s ∈ l.selected, s.1.id ≠ e.id) ∧
      ∀ p, e.pending = some p → w₀.system.store.SameFile w₀.system.tree w.system.tree p := by
  have hle : e'.nextUpdate ≤ now := ((e'.isDue_iff now).mp hdue).2
  cases h with
  | waiting hsel hfile => exact ⟨rfl, hsel, hfile⟩
  | reserved r hsel =>
    have hlt := hbrief _ hsel
    exact absurd (Instant.lt_of_lt_of_le _ _ _ hlt hle) (Instant.lt_irrefl now)
  | recorded r stagedId body stamp hsel =>
    have hlt := hbrief _ hsel
    have hput := (e.reserve r w₀.system.period).nextUpdate_le_staged stagedId
      (Rules.recorded body) stamp
    exact absurd (Instant.lt_of_lt_of_le _ _ _ hlt (Instant.le_trans _ _ _ hput hle))
      (Instant.lt_irrefl now)

/-- A pass selects an entry. -/
theorem Refreshing.select (h : w₀.Refreshing w l) (hs : w.Sound role n) (m : Moment)
    (pre post : List Entry) (x : Entry) (hsplit : w.entries = pre ++ x :: post)
    (hdue : x.isDue m.now = true)
    (hbrief : ∀ s ∈ l.selected, m.now < s.2.deadline w₀.system.period) (event : Event)
    (dirty : Bool) (report : PassReport) (hw : w.refresher = ⟨.select, dirty, report⟩)
    (l' : Log) (hsel : l'.selected = l.selected ++ [(x.reserve m.now w.system.period, m.now)])
    (hcon : l'.concluded = l.concluded) (hans : l'.answered = l.answered)
    (htold : l'.told = true → l.told = true) :
    w₀.Refreshing
      { w with
        system := { w.system with
          registry := ⟨pre ++ x.reserve m.now w.system.period :: post⟩ }.note event
        refresher := ⟨.fetch (x.reserve m.now w.system.period) .arrive, dirty, report⟩ } l' := by
  have hx : x ∈ w.entries := by simp [hsplit]
  obtain ⟨x₀, hx₀, hturned⟩ := exists_left_of_forall₂ h.entries x hx
  -- what is due now was not selected before
  obtain ⟨rfl, hno, -⟩ := waits_of_due hturned m.now hbrief hdue
  have htable : Table role (pre ++ x :: post) := hsplit ▸ hs.table
  have hentries := h.entries
  have hconcluded := h.concluded
  have hanswered := h.answered
  rw [hsplit] at hentries
  rw [hw] at hconcluded hanswered
  rw [h.period] at hsel ⊢
  refine ⟨h.settings, ?entries, h.canonical, h.sameOpen, ?selected, ?once, ?concluded, ?answered,
    trivial⟩
  case entries =>
    refine forall₂_replace hentries ?_ ?_
    · intro e _ e' he' hrel
      refine hrel.onward _ [] hsel (by simp [hcon]) htold ?_ (by simp) fun p _ => .refl _ _ p
      intro s hs'
      rw [List.mem_singleton.mp hs', ← hrel.id_eq]
      exact (htable.id_ne_of_split e' he').symm
    · intro e _ hrel
      -- the selected entry waited, and its id is its own
      obtain ⟨rfl, -, hfile⟩ := waits_of_due hrel m.now hbrief hdue
      refine .reserved m.now (by rw [hsel]; simp) ?_ hfile
      intro c hc hid
      rw [hcon] at hc
      have hmem : c.1 ∈ l.selected.map (·.1) := by
        rw [h.concluded]
        exact List.mem_append_left _ (List.mem_map_of_mem hc)
      obtain ⟨s, hs', heq⟩ := List.mem_map.mp hmem
      exact absurd (heq ▸ hid) (hno s hs')
  case selected =>
    intro s hs'
    rw [hsel, List.mem_append, List.mem_singleton] at hs'
    rcases hs' with hs' | rfl
    · exact h.selected s hs'
    · exact ⟨x, hx₀, rfl, hdue⟩
  case once =>
    rw [hsel, List.map_append, List.nodup_append]
    refine ⟨h.once, by simp, ?_⟩
    rintro id hid y hy rfl
    obtain ⟨s, hs', rfl⟩ := List.mem_map.mp hid
    exact hno s hs' (List.mem_singleton.mp hy)
  case concluded =>
    rw [hsel, hcon, List.map_append, hconcluded]
    simp [Stage.entry?]
  case answered =>
    rw [hans, hcon, hanswered]
    simp [Stage.got?]

/-- The entry under refresh is the one that was selected last, and its refresh has not ended. -/
theorem Refreshing.underway (h : w₀.Refreshing w l) (e : Entry)
    (he : w.refresher.stage.entry? = some e) :
    (∃ now, (e, now) ∈ l.selected) ∧ ∀ c ∈ l.concluded, c.1.id ≠ e.id := by
  have hconcluded := h.concluded
  rw [he] at hconcluded
  constructor
  · have hmem : e ∈ l.selected.map (·.1) := by simp [hconcluded]
    obtain ⟨s, hs, rfl⟩ := List.mem_map.mp hmem
    exact ⟨s.2, hs⟩
  · have honce := h.once
    have hids : l.selected.map (·.1.id) = l.concluded.map (·.1.id) ++ [e.id] := by
      have hmap := congrArg (List.map Entry.id) hconcluded
      simpa [Function.comp_def] using hmap
    rw [hids, List.nodup_append] at honce
    intro c hc hid
    exact honce.2.2 c.1.id (List.mem_map_of_mem (f := fun c => c.1.id) hc) e.id (by simp) hid

/-- The registered entry that is under refresh is as it was when it was selected. -/
theorem Refreshing.eq_underway (h : w₀.Refreshing w l) (e x x₀ : Entry)
    (he : w.refresher.stage.entry? = some e) (hid : x.id = e.id)
    (hturned : x₀.Turned w₀ w l x) :
    ∃ now, (x₀.reserve now w₀.system.period, now) ∈ l.selected ∧
      e = x₀.reserve now w₀.system.period ∧ x = x₀.reserve now w₀.system.period := by
  obtain ⟨⟨now, hsel⟩, hopen⟩ := h.underway e he
  have hid₀ : x₀.id = e.id := hturned.id_eq.symm.trans hid
  cases hturned with
  | waiting hno => exact absurd hid₀.symm (hno _ hsel)
  | reserved r hin =>
    have hsame : (x₀.reserve r w₀.system.period, r) = (e, now) :=
      List.inj_on_of_nodup_map h.once hin hsel hid₀
    exact ⟨r, hin, (Prod.mk.inj hsame).1.symm, rfl⟩
  | recorded r stagedId body stamp hin hcon => exact absurd hid₀ (hopen _ hcon)

/-- A pass records a staged file. -/
theorem Refreshing.record (h : w₀.Refreshing w l) (hs : w.Sound role n) (pre post : List Entry)
    (x e : Entry) (stagedId : UInt64) (body : Bytes) (now : Instant)
    (hsplit : w.entries = pre ++ x :: post) (hid : x.id = e.id) (event : Event)
    (dirty : Bool) (report : PassReport) (next : Stage)
    (hw : w.refresher = ⟨.record e stagedId body, dirty, report⟩)
    (hnext : next = .tally true ∨ ∃ old, next = .tidy old) (l' : Log)
    (hsel : l'.selected = l.selected)
    (hcon : l'.concluded = l.concluded ++ [(e, .recorded stagedId body now)])
    (hans : l'.answered = l.answered) (htold : l'.told = true → l.told = true) :
    w₀.Refreshing
      { w with
        system := { w.system with
          registry := ⟨pre ++ x.staged stagedId (Rules.recorded body) now :: post⟩ }.note event
        refresher := ⟨next, true, report⟩ } l' := by
  have hentry : w.refresher.stage.entry? = some e := by rw [hw]; rfl
  have hentries := h.entries
  have hconcluded := h.concluded
  have hanswered := h.answered
  have hwritten := h.written
  rw [hsplit] at hentries
  rw [hw] at hconcluded hanswered hwritten
  have htable : Table role (pre ++ x :: post) := hsplit ▸ hs.table
  -- behind the record the refresh of the entry is over
  have hstage : next.entry? = none ∧ next.got? = none ∧
      next.Written (l'.told = true) w₀.system.store w.system.tree := by
    rcases hnext with rfl | ⟨old, rfl⟩ <;> exact ⟨rfl, rfl, trivial⟩
  refine ⟨h.settings, ?entries, h.canonical, h.sameOpen, ?selected, ?once, ?concluded, ?answered,
    hstage.2.2⟩
  case entries =>
    refine forall₂_replace hentries ?_ ?_
    · intro e' _ z hz hrel
      refine hrel.onward [] _ (by simp [hsel]) hcon htold (by simp) ?_ fun p _ => .refl _ _ p
      intro c hc hcid
      rw [List.mem_singleton.mp hc, ← hrel.id_eq, ← hid] at hcid
      exact absurd hcid.symm (htable.id_ne_of_split z hz)
    · intro e' _ hrel
      obtain ⟨r, hin, rfl, rfl⟩ := h.eq_underway e x e' hentry hid hrel
      exact .recorded r stagedId body now (hsel ▸ hin) (by simp [hcon])
        (Store.Holds.mono hwritten htold)
  case selected =>
    rw [hsel]
    exact h.selected
  case once =>
    rw [hsel]
    exact h.once
  case concluded =>
    rw [hsel, hconcluded, hcon, hstage.1]
    simp [Stage.entry?]
  case answered =>
    rw [hans, hanswered, hcon, hstage.2.1]
    simp [Stage.got?, Outcome.content]

/-- What a pass keeps while it refreshes: each of its steps goes on with the turns that came so
far. -/
theorem Refreshing.step (h : w₀.Refreshing w l) (hs : w.Sound role n)
    (hplain : w₀.system.store.Plain) (m : Moment)
    (hbrief : w.refresher.stage = .select →
      ∀ s ∈ l.selected, m.now < s.2.deadline w₀.system.period)
    (hnext : (w.step (.refresh m)).refresher.stage.refreshing = true) :
    w₀.Refreshing (w.step (.refresh m)) (l.note w (.refresh m)) := by
  obtain ⟨s, adds, r⟩ := w
  have hstore : s.store = w₀.system.store := h.store
  have hplain' : s.store.Plain := hstore ▸ hplain
  have htold : (l.note ⟨s, adds, r⟩ (.refresh m)).told = true → l.told = true :=
    fun h => (Log.told_note h).1
  have hdisk : (l.note ⟨s, adds, r⟩ (.refresh m)).told = true → m.disk.hides = false :=
    fun h => (Log.told_note h).2
  have hwritten := h.written.mono htold
  have hsteps := r.steps 0 m s
  simp only [World.step] at hnext ⊢
  generalize hout : r.step 0 m s = out at hsteps hnext ⊢
  cases hsteps with
  | quiet stage stage' dirty dirty' report report' s' hquiet hstill =>
    have hset : s'.settings = s.settings := Prod.ext hstill.store hstill.period
    have hreg : s'.registry.entries = s.registry.entries := congrArg _ hstill.registry
    have hk : s.store.Alters s.tree s'.tree [] := hstill.tree ▸ Store.Alters.refl _ _
    have hgo := h.goOn (.refresh m) ⟨s', adds, ⟨stage', dirty', report'⟩⟩ hset hreg [] hk
      (spares_nil _)
    cases hquiet with
    | written e stagedId body =>
      exact hgo rfl (by simp [concludes?]) rfl rfl (hstill.tree ▸ hwritten)
    | committed rep => cases hnext
    | idle => cases hnext
    | _ => exact hgo rfl (by simp [concludes?]) rfl rfl trivial
  | selected pre post x dirty report hsplit hdue hpre hselect =>
    exact h.select hs m pre post x hsplit hdue (hbrief rfl) _ dirty report rfl _
      (by simp [Log.note, selects?, hselect]) (by simp [Log.note, concludes?])
      (by simp [Log.note, answers?]) htold
  | exhausted dirty report =>
    revert hnext
    cases dirty || s.registry.hasPending <;> exact fun hnext => by cases hnext
  | minted e body dirty report =>
    exact h.goOn (.refresh m) ⟨{ s with ids := s.ids.advance m.now }, adds,
      ⟨.write e (s.ids.next m.now) body .create, dirty, report⟩⟩ rfl rfl []
      (.refl _ _) (spares_nil _) rfl (by simp [concludes?]) rfl rfl trivial
  | writing e stagedId body wr dirty report =>
    have hprogress := hstore ▸ hwritten
    have hnone : concludes? ⟨s, adds, ⟨.write e stagedId body wr, dirty, report⟩⟩ (.refresh m) =
        none := by
      cases wr with
      | done outcome => cases outcome <;> cases hout
      | _ => rfl
    obtain ⟨xs, hk, hxs⟩ := Store.writeStep_alters hplain' stagedId body m.disk wr hprogress
    obtain ⟨hprogress', -⟩ :=
      s.store.writeStep_progress hplain' stagedId body m.disk hdisk s.tree wr hprogress
    refine h.goOn (.refresh m) ⟨(s.write m stagedId body wr).1, adds,
      ⟨.write e stagedId body (s.write m stagedId body wr).2, dirty, report⟩⟩ rfl rfl xs hk
      (hs.spares xs ?_) rfl (by simp [hnone]) (by rw [hnone]; rfl) (by rw [hnone]; rfl)
      (hstore ▸ hprogress')
    -- the file that is written belongs to no entry yet
    have hrole : role stagedId = .staging := hs.stage.2
    intro x hx
    left
    rcases hxs x hx with rfl | rfl <;> simp [Slot.id, hrole, Role.Lasts]
  | recorded pre post x e stagedId body dirty report next hsplit hid hnext' =>
    refine h.record hs pre post x e stagedId body m.now hsplit hid _ dirty report next rfl ?_ _
      (by simp [Log.note, selects?]) (by simp [Log.note, concludes?])
      (by simp [Log.note, answers?]) htold
    rcases hnext' with ⟨rfl, -⟩ | ⟨old, rfl, -⟩
    · exact .inl rfl
    · exact .inr ⟨old, rfl⟩
  | orphaned e stagedId body dirty report hgone =>
    -- nobody deletes a list meanwhile
    obtain ⟨⟨now, hsel⟩, -⟩ := h.underway e rfl
    obtain ⟨e₀, he₀, heq, -⟩ := h.selected _ hsel
    obtain ⟨e', he', hturned⟩ := exists_right_of_forall₂ h.entries e₀ he₀
    have hid : e.id = (e₀.reserve now w₀.system.period).id := congrArg Entry.id heq
    exact absurd (hturned.id_eq.trans hid.symm) (hgone e' he')
  | tidied file dirty report =>
    have hstray : Stray role s.registry.entries file := hs.stage
    obtain ⟨xs, hk, hxs⟩ := s.discard_alters hplain' m.disk file
    refine h.goOn (.refresh m) ⟨s.discard m.disk file, adds, ⟨.tally true, dirty, report⟩⟩
      (s.discard_settings m.disk file) (congrArg Registry.entries (s.discard_registry m.disk file))
      xs hk (hs.spares xs ?_) rfl (by simp [concludes?]) rfl rfl trivial
    intro x hx
    rw [hxs x hx]
    exact .inr hstray
  | committing c => cases hnext

end World

end ListKeeper
