import ListKeeper.Proofs.Turns

/-! The promotions of a commit. When a pass commits, each entry that waits is promoted or kept as it
is, and which of the two depends on its own two files alone; an entry that waits for nothing stays.
Main statement: `World.Promoting.step`. -/
namespace ListKeeper

/-- The pairs that a pass has still to commit, the one that it just renamed included. -/
def Stage.pairs : Stage → List (UInt64 × UInt64)
  | .commit c => c.pairs
  | _ => []

def Stage.Ahead : Stage → UInt64 → UInt64 → Prop
  | .commit .snapshot, _, _ => True
  | .commit c, id, stagedId => (id, stagedId) ∈ c.left
  | _, _, _ => False

/-- A staged file was renamed, as it could be from the tree `t₁`, and holds in its new place what it
held there. -/
structure Entry.Moved (s : Store) (t₁ t : FileTree) (renamed : List Renaming) (e : Entry)
    (p : UInt64) : Prop where
  tried : ∃ r ∈ renamed, r.id = e.id ∧ r.stagedId = p ∧ r.succeeded = true ∧ r.fault = none
  admits : s.Admits t₁ (.file e.id)
  held : ∃ body, s.Has t₁ (.file p) body ∧ s.Has t (.file e.id) body

/-- A staged file was not renamed, since the disk failed or it could not be, and both files are as
they were in the tree `t₁`. -/
structure Entry.Refused (s : Store) (t₁ t : FileTree) (renamed : List Renaming) (e : Entry)
    (p : UInt64) : Prop where
  tried : ∃ r ∈ renamed, r.id = e.id ∧ r.stagedId = p ∧ r.succeeded = false ∧
    (r.fault = none → ¬ (s.Admits t₁ (.file e.id) ∧ ∃ body, s.Has t₁ (.file p) body))
  file : s.SameFile t₁ t e.id
  staged : s.SameFile t₁ t p

/-- How an entry stands in a commit that began with the files of the tree `t₁`. -/
inductive Entry.Standing (s : Store) (t₁ t : FileTree) (stage : Stage) (renamed : List Renaming)
    (e : Entry) : Entry → Prop
  | still (hnone : e.pending = none) (hfile : s.SameFile t₁ t e.id) :
    Standing s t₁ t stage renamed e e
  | ahead (p : UInt64) (hp : e.pending = some p) (hahead : stage.Ahead e.id p)
      (hfile : s.SameFile t₁ t e.id) (hstaged : s.SameFile t₁ t p) :
    Standing s t₁ t stage renamed e e
  | moved (p : UInt64) (rest : List (UInt64 × UInt64)) (report : CommitReport)
      (hp : e.pending = some p) (hstage : stage = .commit (.clear e.id p rest report))
      (hmoved : e.Moved s t₁ t renamed p) : Standing s t₁ t stage renamed e e
  | promoted (p : UInt64) (hp : e.pending = some p) (hmoved : e.Moved s t₁ t renamed p) :
    Standing s t₁ t stage renamed e e.settled
  | kept (p : UInt64) (hp : e.pending = some p) (hdone : ∀ q ∈ stage.pairs, q.1 ≠ e.id)
      (hlate : stage ≠ .commit .snapshot) (hrefused : e.Refused s t₁ t renamed p) :
    Standing s t₁ t stage renamed e e

namespace Entry.Standing

variable {s : Store} {t₁ t t' : FileTree} {stage stage' : Stage} {renamed more : List Renaming}
variable {e e' : Entry}

theorem id_eq (h : e.Standing s t₁ t stage renamed e') : e'.id = e.id := by cases h <;> rfl

/-- A commit goes on and leaves an entry alone. -/
theorem onward (h : e.Standing s t₁ t stage renamed e')
    (hahead : ∀ p, e' = e → e.pending = some p → stage.Ahead e.id p → stage'.Ahead e.id p)
    (hclear : ∀ p rest report, stage ≠ .commit (.clear e.id p rest report))
    (hpairs : ∀ q ∈ stage'.pairs, q ∈ stage.pairs) (hlate : stage' ≠ .commit .snapshot)
    (hfile : s.SameFile t t' e.id) (hstaged : ∀ p, e'.pending = some p → s.SameFile t t' p) :
    e.Standing s t₁ t' stage' (renamed ++ more) e' := by
  cases h with
  | still hnone hsame => exact .still hnone (hsame.trans hfile)
  | ahead p hp hnow hsame hsame' =>
    exact .ahead p hp (hahead p rfl hp hnow) (hsame.trans hfile) (hsame'.trans (hstaged p hp))
  | moved p rest report hp hstage => exact absurd hstage (hclear p rest report)
  | promoted p hp hmoved =>
    obtain ⟨⟨r, hr, hfacts⟩, hadmits, body, hbody, hhas⟩ := hmoved
    exact .promoted p hp ⟨⟨r, List.mem_append_left _ hr, hfacts⟩, hadmits, body, hbody,
      (hfile.has_iff body).mpr hhas⟩
  | kept p hp hdone _ hrefused =>
    obtain ⟨⟨r, hr, hfacts⟩, hsame, hsame'⟩ := hrefused
    exact .kept p hp (fun q hq => hdone q (hpairs q hq)) hlate
      ⟨⟨r, List.mem_append_left _ hr, hfacts⟩, hsame.trans hfile, hsame'.trans (hstaged p hp)⟩

/-- An entry whose pair is still to be committed is as it was, and so are its files. -/
theorem of_listed (h : e.Standing s t₁ t stage renamed e') (p : UInt64) (hp : e'.pending = some p)
    (hlisted : (e.id, p) ∈ stage.pairs)
    (hclear : ∀ p rest report, stage ≠ .commit (.clear e.id p rest report)) :
    e' = e ∧ s.SameFile t₁ t e.id ∧ s.SameFile t₁ t p := by
  cases h with
  | still hnone => simp [hnone] at hp
  | ahead q hq hahead hfile hstaged =>
    obtain rfl : q = p := Option.some.inj (hq.symm.trans hp)
    exact ⟨rfl, hfile, hstaged⟩
  | moved q rest report hq hstage => exact absurd hstage (hclear q rest report)
  | promoted q hq => cases hp
  | kept q hq hdone => exact absurd rfl (hdone _ hlisted)

end Entry.Standing

/-- Where a file can be put depends on the open paths and on the place itself. -/
theorem Store.admits_congr {s : Store} {t t' : FileTree} {id : UInt64} (hopen : t.SameOpen t')
    (hfile : s.SameFile t t' id) : s.Admits t' (.file id) ↔ s.Admits t (.file id) := by
  have hfree : t'.isDirectory ((Slot.file id).path s) = t.isDirectory ((Slot.file id).path s) :=
    hfile.isDirectory
  constructor
  · rintro ⟨⟨d, hd⟩, hfree'⟩
    exact ⟨⟨d, hd.congr hopen.symm⟩, hfree ▸ hfree'⟩
  · rintro ⟨⟨d, hd⟩, hfree'⟩
    exact ⟨⟨d, hd.congr hopen⟩, hfree.trans hfree'⟩

structure World.Promoting (w₁ w : World) (renamed : List Renaming) : Prop where
  settings : w.system.settings = w₁.system.settings
  stage : w.refresher.stage.refreshing = false
  entries : List.Forall₂ (Entry.Standing w₁.system.store w₁.system.tree w.system.tree
    w.refresher.stage renamed) w₁.entries w.entries
  listed : ∀ q ∈ w.refresher.stage.pairs, ∃ e ∈ w₁.entries, e.id = q.1 ∧ e.pending = some q.2
  sameOpen : w₁.system.tree.SameOpen w.system.tree

namespace World

variable {w₁ w : World} {renamed : List Renaming} {role : UInt64 → Role} {n : Nat}

/-- A commit goes on and touches neither registry nor files. -/
theorem Promoting.goOn (h : w₁.Promoting w renamed) (w' : World) (more : List Renaming)
    (hsettings : w'.system.settings = w.system.settings) (hreg : w'.entries = w.entries)
    (htree : w'.system.tree = w.system.tree) (hstage : w'.refresher.stage.refreshing = false)
    (hahead : ∀ e ∈ w.entries, ∀ p, e.pending = some p → w.refresher.stage.Ahead e.id p →
      w'.refresher.stage.Ahead e.id p)
    (hclear : ∀ id p rest report, w.refresher.stage ≠ .commit (.clear id p rest report))
    (hpairs : ∀ q ∈ w'.refresher.stage.pairs, q ∈ w.refresher.stage.pairs)
    (hlate : w'.refresher.stage ≠ .commit .snapshot) : w₁.Promoting w' (renamed ++ more) := by
  refine ⟨hsettings.trans h.settings, hstage, ?_, fun q hq => h.listed q (hpairs q hq), ?_⟩
  · rw [hreg]
    refine forall₂_of_mem h.entries fun e _ e' he' hstanding => ?_
    refine hstanding.onward ?_ (hclear e.id) hpairs hlate ?_ fun p _ => ?_
    · rintro p rfl hp hnow
      exact hahead e' he' p hp hnow
    · rw [htree]
      exact .refl _ _ _
    · rw [htree]
      exact .refl _ _ _
  · rw [htree]
    exact h.sameOpen

/-- The staged file that a commit is about to rename is that of a registered entry, and neither it
nor the entry's own changed since the commit began. -/
theorem Promoting.next (h : w₁.Promoting w renamed) (hs : w.Sound role n) (id stagedId : UInt64)
    (rest : List (UInt64 × UInt64)) (rep : CommitReport)
    (hw : w.refresher.stage = .commit (.promote ((id, stagedId) :: rest) rep)) :
    (∃ e ∈ w₁.entries, e.id = id ∧ e.pending = some stagedId) ∧
      w₁.system.store.SameFile w₁.system.tree w.system.tree id ∧
      w₁.system.store.SameFile w₁.system.tree w.system.tree stagedId := by
  have hstage := hs.stage
  rw [hw] at hstage
  obtain ⟨e, he, rfl, hp⟩ := h.listed (id, stagedId) (by simp [hw, Stage.pairs, Committing.pairs])
  obtain ⟨e', he', hstanding⟩ := exists_right_of_forall₂ h.entries e he
  have hp' : e'.pending = some stagedId :=
    Awaited.pending hstage (e.id, stagedId) (by simp [Committing.pairs]) e' he' hstanding.id_eq
  obtain ⟨-, hfile, hstaged⟩ := hstanding.of_listed stagedId hp'
    (by simp [hw, Stage.pairs, Committing.pairs]) (by simp [hw])
  exact ⟨⟨e, he, rfl, hp⟩, hfile, hstaged⟩

/-- The files of the other entries are not those of the pair that is renamed. -/
theorem Sound.others_spared (hs : w.Sound role n) (id stagedId : UInt64)
    (hid : role id = .canonical) (hstaged : role stagedId = .staged id) (e : Entry)
    (he : e ∈ w.entries) (hne : e.id ≠ id) :
    .file e.id ∉ [Slot.file stagedId, Slot.file id] ∧
      ∀ p, e.pending = some p → .file p ∉ [Slot.file stagedId, Slot.file id] := by
  have hrole := hs.table.canonical e he
  constructor
  · simp only [List.mem_cons, Slot.file.injEq, List.not_mem_nil, or_false]
    rintro (heq | heq)
    · rw [heq, hstaged] at hrole
      cases hrole
    · exact hne heq
  · intro p hp
    have hrole' := hs.table.pending e he p hp
    simp only [List.mem_cons, Slot.file.injEq, List.not_mem_nil, or_false]
    rintro (rfl | rfl)
    · rw [hstaged] at hrole'
      exact hne (Role.staged.inj hrole').symm
    · rw [hid] at hrole'
      cases hrole'

/-- A staged file is renamed. -/
theorem Promoting.promoted (h : w₁.Promoting w renamed) (hs : w.Sound role n)
    (hplain : w₁.system.store.Plain)
    (hfree : ∀ e ∈ w₁.entries, ∀ p, e.pending = some p →
      w₁.system.tree.isDirectory (w₁.system.store.pathFor p) = false)
    (id stagedId : UInt64) (rest : List (UInt64 × UInt64)) (rep : CommitReport) (dirty : Bool)
    (report : PassReport)
    (hw : w.refresher = ⟨.commit (.promote ((id, stagedId) :: rest) rep), dirty, report⟩)
    (t' : FileTree) (ht' : w.system.store.promote w.system.tree stagedId id = .ok t')
    (event : Event) :
    w₁.Promoting
      { w with
        system := { w.system with tree := t' }.note event
        refresher := ⟨.commit (.clear id stagedId rest rep), dirty, report⟩ }
      (renamed ++ [⟨id, stagedId, none, true⟩]) := by
  have hstage : w.refresher.stage = .commit (.promote ((id, stagedId) :: rest) rep) := by rw [hw]
  have hsound := hs.stage
  rw [hstage] at hsound
  have hawaited : Awaited role w.entries ((id, stagedId) :: rest) := hsound
  have hstore : w.system.store = w₁.system.store := congrArg Prod.fst h.settings
  rw [hstore] at ht'
  have hne := hawaited.ne id stagedId (by simp)
  have hslots : Slot.file stagedId ≠ Slot.file id := by simpa using hne
  obtain ⟨⟨x, hx, rfl, hxp⟩, hfile, hstaged⟩ := h.next hs id stagedId rest rep hstage
  -- what is renamed is a file, since nothing that waits is a directory
  have hnodir : w.system.tree.isDirectory ((Slot.file stagedId).path w₁.system.store) = false :=
    hstaged.isDirectory.trans (hfree x hx stagedId hxp)
  obtain ⟨⟨body, modified, hread⟩, hadmits⟩ := Store.of_rename hplain hslots hnodir ht'
  have hk := Store.rename_alters hplain hslots hnodir ht'
  obtain ⟨hread', -⟩ := w₁.system.store.rename_slot hplain w.system.tree t' (.file stagedId)
    (.file x.id) hslots body modified hread ht'
  refine ⟨h.settings, rfl, ?_, ?_, h.sameOpen.trans hk.sameOpen⟩
  · refine forall₂_of_mem h.entries fun e _ e' he' hstanding => ?_
    by_cases hid : e'.id = x.id
    · -- the entry itself, which was still to be seen to
      have hp' := hawaited.pending (x.id, stagedId) (by simp) e' he' hid
      have hide : e.id = x.id := hstanding.id_eq.symm.trans hid
      obtain ⟨rfl, -, -⟩ := hstanding.of_listed stagedId hp'
        (by simp [hstage, Stage.pairs, Committing.pairs, hide]) (by simp [hstage])
      refine .moved stagedId rest rep hp' (by rw [hide]) ⟨?_, ?_, body, ?_, ?_⟩
      · exact ⟨⟨x.id, stagedId, none, true⟩, by simp, hide.symm, rfl, rfl, rfl⟩
      · rw [hide]
        exact (Store.admits_congr h.sameOpen hfile).mp hadmits
      · exact (hstaged.has_iff body).mp ⟨modified, hread⟩
      · rw [hide]
        exact ⟨modified, hread'⟩
    · obtain ⟨hown, hpend⟩ := hs.others_spared x.id stagedId
        (hawaited.canonical (x.id, stagedId) (by simp))
        (hawaited.staged (x.id, stagedId) (by simp)) e' he' hid
      rw [hstanding.id_eq] at hown hid
      refine hstanding.onward ?_ (by simp [hstage]) ?_ (by simp) (hk.keeps (.file e.id) hown) ?_
      · rintro p - hp hahead
        rw [hstage] at hahead
        rcases List.mem_cons.mp hahead with heq | hmem
        · exact absurd (Prod.mk.inj heq).1 hid
        · exact hmem
      · simp [hstage, Stage.pairs, Committing.pairs]
      · exact fun p hp => hk.keeps (.file p) (hpend p hp)
  · intro q hq
    exact h.listed q (by simpa [hstage, Stage.pairs, Committing.pairs] using hq)

/-- A renaming fails. -/
theorem Promoting.refused (h : w₁.Promoting w renamed) (hs : w.Sound role n)
    (hplain : w₁.system.store.Plain) (m : Moment) (id stagedId : UInt64)
    (rest : List (UInt64 × UInt64)) (rep rep' : CommitReport) (dirty : Bool) (report : PassReport)
    (hw : w.refresher = ⟨.commit (.promote ((id, stagedId) :: rest) rep), dirty, report⟩)
    (cause : IoError)
    (hfail : Store.attempt m.disk (w.system.store.promote w.system.tree stagedId id) = .error cause)
    (counters : Counters) (event : Event) :
    w₁.Promoting
      { w with
        system := { w.system with counters := counters }.note event
        refresher := ⟨.commit (.promote rest rep'), dirty, report⟩ }
      (renamed ++ [⟨id, stagedId, m.disk.fault, false⟩]) := by
  have hstage : w.refresher.stage = .commit (.promote ((id, stagedId) :: rest) rep) := by rw [hw]
  have hsound := hs.stage
  rw [hstage] at hsound
  have hawaited : Awaited role w.entries ((id, stagedId) :: rest) := hsound
  have hstore : w.system.store = w₁.system.store := congrArg Prod.fst h.settings
  have hne := hawaited.ne id stagedId (by simp)
  have hslots : Slot.file stagedId ≠ Slot.file id := by simpa using hne
  obtain ⟨-, hfile, hstaged⟩ := h.next hs id stagedId rest rep hstage
  have hnodup := List.nodup_cons.mp hawaited.nodup
  refine ⟨h.settings, rfl, ?_, ?_, h.sameOpen⟩
  · refine forall₂_of_mem h.entries fun e _ e' he' hstanding => ?_
    by_cases hid : e'.id = id
    · have hp' := hawaited.pending (id, stagedId) (by simp) e' he' hid
      have hide : e.id = id := hstanding.id_eq.symm.trans hid
      obtain ⟨rfl, hown, hwaits⟩ := hstanding.of_listed stagedId hp'
        (by simp [hstage, Stage.pairs, Committing.pairs, hide]) (by simp [hstage])
      refine .kept stagedId hp' ?_ (by simp) ⟨?_, hown, hwaits⟩
      · intro q hq hqid
        exact hnodup.1 (List.mem_map.mpr ⟨q, hq, hqid.trans hide⟩)
      · refine ⟨⟨id, stagedId, m.disk.fault, false⟩, by simp, hide.symm, rfl, rfl, ?_⟩
        -- a disk that does not fail renames what can be renamed
        rintro hsound' ⟨hadmits, body, hhas⟩
        rw [hide] at hadmits
        obtain ⟨t', ht'⟩ := Store.rename_ok hplain hslots ((hstaged.has_iff body).mpr hhas)
          ((Store.admits_congr h.sameOpen hfile).mpr hadmits)
        have hok : w.system.store.promote w.system.tree stagedId id = .ok t' := by
          rw [hstore]
          exact ht'
        have hnone : m.disk.fault = none := hsound'
        simp [Store.attempt, hnone, hok] at hfail
    · rw [hstanding.id_eq] at hid
      refine hstanding.onward ?_ (by simp [hstage]) ?_ (by simp) (.refl _ _ _)
        fun p _ => .refl _ _ _
      · rintro p - hp hahead
        rw [hstage] at hahead
        rcases List.mem_cons.mp hahead with heq | hmem
        · exact absurd (Prod.mk.inj heq).1 hid
        · exact hmem
      · intro q hq
        simp only [hstage, Stage.pairs, Committing.pairs]
        exact List.mem_cons_of_mem _ hq
  · intro q hq
    refine h.listed q ?_
    simp only [hstage, Stage.pairs, Committing.pairs]
    exact List.mem_cons_of_mem _ hq

/-- An entry whose staged file was renamed forgets it. -/
theorem Promoting.cleared (h : w₁.Promoting w renamed) (hs : w.Sound role n) (id stagedId : UInt64)
    (rest : List (UInt64 × UInt64)) (rep rep' : CommitReport) (dirty : Bool) (report : PassReport)
    (hw : w.refresher = ⟨.commit (.clear id stagedId rest rep), dirty, report⟩) :
    w₁.Promoting
      { w with
        system := { w.system with registry := (w.system.registry.clearPending id stagedId).2 }
        refresher := ⟨.commit (.promote rest rep'), dirty, report⟩ } renamed := by
  have hstage : w.refresher.stage = .commit (.clear id stagedId rest rep) := by rw [hw]
  have hsound := hs.stage
  rw [hstage] at hsound
  have hawaited : Awaited role w.entries ((id, stagedId) :: rest) := hsound
  have hnodup := List.nodup_cons.mp hawaited.nodup
  have hlisted : ∀ q ∈ rest, ∃ e ∈ w₁.entries, e.id = q.1 ∧ e.pending = some q.2 := by
    intro q hq
    refine h.listed q ?_
    simp only [hstage, Stage.pairs, Committing.pairs]
    exact List.mem_cons_of_mem _ hq
  -- the other entries do not notice
  have hother (e e' : Entry) (hid : e'.id ≠ id)
      (hstanding : e.Standing w₁.system.store w₁.system.tree w.system.tree w.refresher.stage
        renamed e') :
      e.Standing w₁.system.store w₁.system.tree w.system.tree (.commit (.promote rest rep'))
        renamed e' := by
    rw [hstanding.id_eq] at hid
    have hgo : e.Standing w₁.system.store w₁.system.tree w.system.tree
        (.commit (.promote rest rep')) (renamed ++ []) e' := by
      refine hstanding.onward ?_ ?_ ?_ (by simp) (.refl _ _ _) fun p _ => .refl _ _ _
      · rintro p - hp hahead
        rw [hstage] at hahead
        exact hahead
      · intro p rest' report' heq
        rw [hstage] at heq
        injection heq with heq
        injection heq with heq
        exact hid heq.symm
      · intro q hq
        simp only [hstage, Stage.pairs, Committing.pairs]
        exact List.mem_cons_of_mem _ hq
    rwa [List.append_nil] at hgo
  rcases w.system.registry.clearPending_cases id stagedId with
    ⟨hsame, hno⟩ | ⟨pre, x, post, hclear, hsplit, rfl, hxp⟩
  · refine ⟨h.settings, rfl, ?_, hlisted, h.sameOpen⟩
    rw [World.entries, hsame]
    refine forall₂_of_mem h.entries fun e _ e' he' hstanding => hother e e' ?_ hstanding
    intro hid
    exact hno e' he' hid (hawaited.pending (id, stagedId) (by simp) e' he' hid)
  · have hentries := h.entries
    have htable := hs.table
    rw [show w.entries = pre ++ x :: post from hsplit] at hentries htable
    refine ⟨h.settings, rfl, ?_, hlisted, h.sameOpen⟩
    rw [World.entries, hclear]
    refine forall₂_replace hentries ?_ ?_
    · intro e _ z hz hstanding
      exact hother e z (htable.id_ne_of_split z hz) hstanding
    · intro e _ hstanding
      have hide : e.id = x.id := hstanding.id_eq.symm
      cases hstanding with
      | still hnone => simp [hnone] at hxp
      | ahead p hp hahead =>
        rw [hstage] at hahead
        exact absurd (List.mem_map.mpr ⟨_, hahead, rfl⟩) hnodup.1
      | moved p rest' report' hp hstage' hmoved => exact .promoted p hp hmoved
      | promoted p hp => cases hxp
      | kept p hp hdone =>
        refine absurd rfl (hdone (x.id, stagedId) ?_)
        simp [hstage, Stage.pairs, Committing.pairs]

/-- A commit takes down which entries wait. -/
theorem Promoting.snapshot (h : w₁.Promoting w renamed) (m : Moment) (dirty : Bool)
    (report : PassReport) (hw : w.refresher = ⟨.commit .snapshot, dirty, report⟩) :
    w₁.Promoting (w.step (.refresh m)) (renamed ++ []) := by
  obtain ⟨s, adds, r⟩ := w
  obtain rfl : r = ⟨.commit .snapshot, dirty, report⟩ := hw
  have hlisted : ∀ q ∈ s.registry.staged, ∃ e ∈ w₁.entries, e.id = q.1 ∧ e.pending = some q.2 := by
    intro q hq
    obtain ⟨e', he', hid, hp⟩ := (s.registry.mem_staged q.1 q.2).mp hq
    obtain ⟨e, he, hstanding⟩ := exists_left_of_forall₂ h.entries e' he'
    refine ⟨e, he, hstanding.id_eq.symm.trans hid, ?_⟩
    cases hstanding with
    | promoted => cases hp
    | _ => exact hp
  -- the pairs that it takes down are those of all the entries that wait
  have hstep (c : Committing) (hpairs : ∀ q ∈ c.pairs, q ∈ s.registry.staged)
      (hahead : ∀ q ∈ s.registry.staged, Stage.Ahead (.commit c) q.1 q.2) (hlate : c ≠ .snapshot) :
      w₁.Promoting ⟨s, adds, ⟨.commit c, dirty, report⟩⟩ (renamed ++ []) := by
    refine ⟨h.settings, rfl, ?_, fun q hq => hlisted q (hpairs q hq), h.sameOpen⟩
    refine forall₂_of_mem h.entries fun e _ e' he' hstanding => ?_
    cases hstanding with
    | still hnone hfile => exact .still hnone hfile
    | ahead p hp _ hfile hstaged =>
      have hmem := (s.registry.mem_staged e.id p).mpr ⟨e, he', rfl, hp⟩
      exact .ahead p hp (hahead _ hmem) hfile hstaged
    | moved p rest report' hp hstage => cases hstage
    | promoted p hp hmoved =>
      rw [List.append_nil]
      exact .promoted p hp hmoved
    | kept p hp hdone hlate' => exact absurd rfl hlate'
  cases hstaged : s.registry.staged with
  | nil =>
    have hout : World.step ⟨s, adds, ⟨.commit .snapshot, dirty, report⟩⟩ (.refresh m) =
        ⟨s, adds, ⟨.commit (.done .empty), dirty, report⟩⟩ := by
      simp only [World.step, Refresher.step, Committing.step, hstaged]
      rfl
    rw [hout]
    exact hstep (.done .empty) (by simp [Committing.pairs]) (by simp [hstaged]) (by simp)
  | cons q rest =>
    have hout : World.step ⟨s, adds, ⟨.commit .snapshot, dirty, report⟩⟩ (.refresh m) =
        ⟨s, adds, ⟨.commit (.close (q :: rest)), dirty, report⟩⟩ := by
      simp only [World.step, Refresher.step, Committing.step, hstaged]
      rfl
    rw [hout]
    exact hstep (.close (q :: rest)) (by simp [Committing.pairs, hstaged])
      (by simp [Stage.Ahead, Committing.left, hstaged]) (by simp)

/-- The renaming that comes next is attempted, and succeeds or fails. -/
theorem Promoting.attempted (h : w₁.Promoting w renamed) (hs : w.Sound role n)
    (hplain : w₁.system.store.Plain)
    (hfree : ∀ e ∈ w₁.entries, ∀ p, e.pending = some p →
      w₁.system.tree.isDirectory (w₁.system.store.pathFor p) = false) (m : Moment)
    (id stagedId : UInt64) (rest : List (UInt64 × UInt64)) (rep : CommitReport) (dirty : Bool)
    (report : PassReport)
    (hw : w.refresher = ⟨.commit (.promote ((id, stagedId) :: rest) rep), dirty, report⟩) :
    w₁.Promoting (w.step (.refresh m)) (renamed ++ (w.renames? (.refresh m)).toList) := by
  obtain ⟨s, adds, refresher⟩ := w
  obtain rfl : refresher = _ := hw
  have hawaited : Awaited role s.registry.entries ((id, stagedId) :: rest) := hs.stage
  -- a file that is staged for an entry is not its own
  have hne := hawaited.ne id stagedId (by simp)
  cases hattempt : Store.attempt m.disk (s.store.promote s.tree stagedId id) with
  | ok t' =>
    obtain ⟨hfault, hok⟩ := Store.of_attempt m.disk _ t' hattempt
    have hout : World.step
        ⟨s, adds, ⟨.commit (.promote ((id, stagedId) :: rest) rep), dirty, report⟩⟩ (.refresh m) =
          ⟨{ s with tree := t' }.note (.renamed id stagedId true), adds,
            ⟨.commit (.clear id stagedId rest rep), dirty, report⟩⟩ := by
      simp only [World.step, Refresher.step, Committing.step, if_neg hne, hattempt]
      rfl
    have hnote : World.renames?
        ⟨s, adds, ⟨.commit (.promote ((id, stagedId) :: rest) rep), dirty, report⟩⟩ (.refresh m) =
          some ⟨id, stagedId, none, true⟩ := by
      simp only [World.renames?, hattempt, hfault]
      rfl
    rw [hout, hnote]
    exact h.promoted hs hplain hfree id stagedId rest rep dirty report rfl t' hok _
  | error cause =>
    have hout : World.step
        ⟨s, adds, ⟨.commit (.promote ((id, stagedId) :: rest) rep), dirty, report⟩⟩ (.refresh m) =
          ⟨{ s with counters := s.counters.renameFailed }.note (.renamed id stagedId false), adds,
            ⟨.commit (.promote rest { rep with failed := rep.failed + 1 }), dirty, report⟩⟩ := by
      simp only [World.step, Refresher.step, Committing.step, if_neg hne, hattempt]
      rfl
    have hnote : World.renames?
        ⟨s, adds, ⟨.commit (.promote ((id, stagedId) :: rest) rep), dirty, report⟩⟩ (.refresh m) =
          some ⟨id, stagedId, m.disk.fault, false⟩ := by
      simp only [World.renames?, hattempt]
      rfl
    rw [hout, hnote]
    exact h.refused hs hplain m id stagedId rest rep _ dirty report rfl cause hattempt _ _

/-- What a commit keeps: each of its steps goes on with what it has promoted and kept so far. -/
theorem Promoting.step (h : w₁.Promoting w renamed) (hs : w.Sound role n)
    (hplain : w₁.system.store.Plain)
    (hfree : ∀ e ∈ w₁.entries, ∀ p, e.pending = some p →
      w₁.system.tree.isDirectory (w₁.system.store.pathFor p) = false) (m : Moment) :
    w₁.Promoting (w.step (.refresh m)) (renamed ++ (w.renames? (.refresh m)).toList) := by
  obtain ⟨s, adds, ⟨stage, dirty, report⟩⟩ := w
  have hcommit := h.stage
  cases stage with
  | idle =>
    change w₁.Promoting ⟨s, adds, ⟨.idle, dirty, report⟩⟩ (renamed ++ [])
    rwa [List.append_nil]
  | commit c =>
    cases c with
    | snapshot => exact h.snapshot m dirty report rfl
    | close pairs =>
      have hout : World.step ⟨s, adds, ⟨.commit (.close pairs), dirty, report⟩⟩ (.refresh m) =
          ⟨s.note .closed, adds, ⟨.commit (.promote pairs .empty), dirty, report⟩⟩ := by
        simp only [World.step, Refresher.step, Committing.step]
        split <;> rfl
      rw [hout]
      exact h.goOn _ [] rfl rfl rfl rfl (fun _ _ _ _ ha => ha) (by simp) (fun _ hq => hq) (by simp)
    | promote pairs rep =>
      cases pairs with
      | nil =>
        change w₁.Promoting ⟨s, adds, ⟨.commit (.restart rep), dirty, report⟩⟩ (renamed ++ [])
        exact h.goOn _ [] rfl rfl rfl rfl (fun _ _ _ _ ha => ha) (by simp) (fun _ hq => hq)
          (by simp)
      | cons q rest =>
        exact h.attempted hs hplain hfree m q.1 q.2 rest rep dirty report rfl
    | clear id stagedId rest rep =>
      have hgo := h.cleared hs id stagedId rest rep { rep with promoted := rep.promoted + 1 } dirty
        report rfl
      rw [← List.append_nil renamed] at hgo
      exact hgo
    | restart rep =>
      have hout : World.step ⟨s, adds, ⟨.commit (.restart rep), dirty, report⟩⟩ (.refresh m) =
          ⟨s.note .restarted, adds, ⟨.commit (.count rep), dirty, report⟩⟩ := by
        simp only [World.step, Refresher.step, Committing.step]
        split <;> rfl
      rw [hout]
      exact h.goOn _ [] rfl rfl rfl rfl (fun _ _ _ _ ha => ha) (by simp) (fun _ hq => hq) (by simp)
    | count rep =>
      exact h.goOn ⟨{ s with counters := s.counters.commitCompleted }, adds,
        ⟨.commit (.done rep), dirty, report⟩⟩ [] rfl rfl rfl rfl (fun _ _ _ _ ha => ha) (by simp)
        (fun _ hq => hq) (by simp)
    | done rep =>
      exact h.goOn ⟨s, adds, ⟨.idle, false, { report with commit := some rep }⟩⟩ [] rfl rfl rfl rfl
        (fun _ _ _ _ ha => by cases ha) (by simp) (fun _ hq => by cases hq) (by simp)
  | _ => cases hcommit

end World
end ListKeeper
