import ListKeeper.Proofs.Admission
import ListKeeper.Proofs.Linearization
import ListKeeper.Proofs.Updates

/-! What an addition leaves behind. Where the files of fresh ids can be put, no write of an addition
fails, and an addition that ends in an error leaves no file under the id that it took. Main
statement: `History.Tidy.step`. -/
namespace ListKeeper

namespace Store

variable {s : Store} {t t' t₀ : FileTree} {xs : List Slot}

def Vacant (s : Store) (t : FileTree) (x : Slot) : Prop := ∀ body, ¬ s.Has t x body

/-- Under an id nothing is found that was not there before. -/
def NothingNew (s : Store) (t₀ t : FileTree) (id : UInt64) : Prop :=
  ∀ x : Slot, x.id = id → ∀ body, s.Has t x body → s.Has t₀ x body

theorem Keeps.has_iff (h : s.Keeps t t' xs) {x : Slot} (hx : x ∉ xs) (body : Bytes) :
    s.Has t' x body ↔ s.Has t x body := by
  simp only [Has, h.read x hx]

theorem Keeps.vacant (h : s.Keeps t t' xs) {x : Slot} (hx : x ∉ xs) (hv : s.Vacant t x) :
    s.Vacant t' x := fun body hhas => hv body ((h.has_iff hx body).mp hhas)

theorem Keeps.nothingNew (h : s.Keeps t t' xs) {id : UInt64} (hx : ∀ x ∈ xs, x.id ≠ id)
    (hn : s.NothingNew t₀ t id) : s.NothingNew t₀ t' id := by
  intro x hid body hhas
  exact hn x hid body ((h.has_iff (fun hmem => hx x hmem hid) body).mp hhas)

/-- When a write has succeeded, its temporary file is gone. -/
theorem writeStep_vacant (hs : s.Plain) (id : UInt64) (body : Bytes) (disk : Disk) (w : Writing)
    {whole : Prop} (h : s.Progress whole t id body w)
    (hbefore : w = .done (.ok ()) → s.Vacant t (.temp id))
    (hdone : (s.writeStep id body disk t w).2 = .done (.ok ())) :
    s.Vacant (s.writeStep id body disk t w).1 (.temp id) := by
  cases w with
  | create =>
    simp only [writeStep] at hdone
    split at hdone
    · exact absurd hdone (fillOrSync_ne_done body _)
    · cases hdone
  | fill rest =>
    simp only [writeStep] at hdone
    split at hdone
    · exact absurd hdone (fillOrSync_ne_done _ _)
    · exact absurd hdone (afterFault_ne_done _ _ _ _ _)
  | sync =>
    simp only [writeStep] at hdone
    split at hdone <;> cases hdone
  | publish =>
    simp only [writeStep] at hdone ⊢
    split at hdone
    · rename_i t' ht'
      have hok := ok_of_attempt disk _ t' ht'
      exact not_has_of_rename (x := .temp id) (y := .file id) hs (by simp) (Holds.isDirectory h) hok
    · cases hdone
  | discard cause =>
    simp only [writeStep] at hdone
    split at hdone <;> cases hdone
  | done outcome => exact hbefore hdone

end Store

/-- What is taken away on a disk without faults is gone. -/
theorem System.discard_vacant (s : System) (hs : s.store.Plain) (disk : Disk) (id : UInt64)
    (hdisk : disk.fault = none) : s.store.Vacant (s.discard disk id).tree (.file id) := by
  intro body hhas
  simp only [discard, Store.attempt, hdisk] at hhas
  split at hhas
  · rename_i t' ht'
    exact Store.not_has_of_remove (x := .file id) hs ht' body hhas
  -- a file that is there can be taken away
  · rename_i e he
    obtain ⟨t', ht'⟩ := Store.remove_ok hs hhas
    have hok : s.store.remove s.tree id = .ok t' := ht'
    rw [hok] at he
    cases he

/-- A step of an addition alters no files but those of its own id. -/
theorem Adding.Steps.alters {c : Candidate} {m : Moment} {s : System} {stage : Adding}
    {out : System × Adding} (h : stage.Steps c m s out) (hs : s.store.Plain)
    {whole : Prop} (hf : stage.Filled whole s.store s.tree) :
    ∃ xs, s.store.Alters s.tree out.1.tree xs ∧ ∀ x ∈ xs, stage.id? = some x.id := by
  cases h with
  | quiet stage stage' s' hquiet hstill =>
    exact ⟨[], by rw [hstill.tree]; exact .refl _ _, by simp⟩
  | minted => exact ⟨[], .refl _ _, by simp⟩
  | writing id body w =>
    obtain ⟨xs, hk, hxs⟩ := Store.writeStep_alters hs id body m.disk w hf
    refine ⟨xs, hk, fun x hx => ?_⟩
    rcases hxs x hx with rfl | rfl <;> rfl
  | inserted id body hfree => exact ⟨[], .refl _ _, by simp⟩
  | withdrawn id =>
    obtain ⟨xs, hk, hxs⟩ := s.discard_alters hs m.disk id
    refine ⟨xs, hk, fun x hx => ?_⟩
    rw [hxs x hx]
    rfl

/-- What an addition relies on in order to leave nothing behind. -/
def Adding.Tidy (s : Store) (t₀ t : FileTree) : Adding → Prop
  | .fetch id _ => s.NothingNew t₀ t id
  | .write id _ w => w.Goes ∧ (w = .done (.ok ()) → s.Vacant t (.temp id))
  | .insert id _ => s.Vacant t (.temp id)
  | .withdraw id => s.Vacant t (.temp id) ∧ ∃ body, s.Has t (.file id) body
  | _ => True

/-- An addition does not mind what happens to the files of other ids. -/
theorem Adding.Tidy.keep {s : Store} {t₀ t t' : FileTree} {xs : List Slot} {stage : Adding}
    (h : stage.Tidy s t₀ t) (hk : s.Keeps t t' xs)
    (hx : ∀ id, stage.id? = some id → ∀ x ∈ xs, x.id ≠ id) : stage.Tidy s t₀ t' := by
  cases stage with
  | fetch id f => exact hk.nothingNew (hx id rfl) h
  | write id body w =>
    exact ⟨h.1, fun hdone => hk.vacant (fun hmem => hx id rfl _ hmem rfl) (h.2 hdone)⟩
  | insert id body => exact hk.vacant (fun hmem => hx id rfl _ hmem rfl) h
  | withdraw id =>
    obtain ⟨hv, body, hhas⟩ := h
    refine ⟨hk.vacant (fun hmem => hx id rfl _ hmem rfl) hv, body, ?_⟩
    exact (hk.has_iff (fun hmem => hx id rfl _ hmem rfl) body).mpr hhas
  | _ => trivial

namespace History

/-- The files of ids above `last` can be put where they belong, and what is found under the ids of
additions that failed was there before. -/
structure Tidy (s : Store) (t₀ : FileTree) (last : UInt64) (h : History) : Prop where
  store : h.run.world.system.store = s
  last_le : last.toNat ≤ h.run.world.system.ids.last.toNat
  admits : ∀ id : UInt64, last.toNat < id.toNat →
    s.Admits h.run.world.system.tree (.file id) ∧ s.Admits h.run.world.system.tree (.temp id)
  fresh : ∀ id : UInt64, h.run.world.system.ids.last.toNat < id.toNat →
    s.NothingNew t₀ h.run.world.system.tree id
  adds : ∀ (i : Nat) (c : Candidate) (stage : Adding), h.run.world.adds[i]? = some (c, stage) →
    stage.Tidy s t₀ h.run.world.system.tree ∧ ∀ id, stage.id? = some id → last.toNat < id.toNat
  visits : ∀ v ∈ h.visits, ∀ cause, v.verdict = .failed cause → ∀ id, v.id = some id →
    s.NothingNew t₀ h.run.world.system.tree id ∧
      id.toNat ≤ h.run.world.system.ids.last.toNat ∧
      ∀ (i : Nat) (c : Candidate) (stage : Adding), h.run.world.adds[i]? = some (c, stage) →
        stage.id? ≠ some id

variable {s : Store} {t₀ : FileTree} {last : UInt64} {h : History} {role : UInt64 → Role} {n : Nat}

/-- An addition takes a step, in which it alters no files but those of its id. -/
theorem Tidy.addOn (ht : h.Tidy s t₀ last) (hsound : h.run.world.Sound role n) {caller : Nat}
    {m : Moment} {c : Candidate} {stage stage' : Adding} {s' : System}
    (hs : h.AddStep caller m c stage s' stage') (hstore : s'.store = s)
    (hlast : h.run.world.system.ids.last.toNat ≤ s'.ids.last.toNat) (xs : List Slot)
    (hk : s.Alters h.run.world.system.tree s'.tree xs) (hxs : ∀ x ∈ xs, stage.id? = some x.id)
    (hown : stage'.Tidy s t₀ s'.tree)
    (hid : ∀ id, stage'.id? = some id →
      stage.id? = some id ∨ h.run.world.system.ids.last.toNat < id.toNat)
    (hreturn : ∀ cause id, stage' = .done (.error cause) → stage.id? = some id →
      s.NothingNew t₀ s'.tree id) : (h.step (.add caller m)).Tidy s t₀ last := by
  have hadd := hs.add
  -- an id that an addition holds is known, and no other addition holds it
  have hknown (i : Nat) (c' : Candidate) (st : Adding) (hi : h.run.world.adds[i]? = some (c', st))
      (id : UInt64) (hst : st.id? = some id) :
      role id = .adding i ∧ id.toNat ≤ h.run.world.system.ids.last.toNat := by
    have hrole := hsound.held i c' st id hi hst
    exact ⟨hrole, hsound.numbered.le_last id (by simp [hrole])⟩
  have hother (i : Nat) (c' : Candidate) (st : Adding) (hi : h.run.world.adds[i]? = some (c', st))
      (hne : caller ≠ i) (id : UInt64) (hst : st.id? = some id) : stage.id? ≠ some id := by
    intro hsame
    have hmine := (hknown caller c stage hadd id hsame).1
    rw [(hknown i c' st hi id hst).1] at hmine
    exact hne (Role.adding.inj hmine).symm
  rw [← hs.system] at hstore hlast hk hown hreturn
  refine ⟨hstore, Nat.le_trans ht.last_le hlast, ?admits, ?fresh, ?adds, ?visits⟩
  case admits =>
    intro id hlt
    obtain ⟨hfile, htemp⟩ := ht.admits id hlt
    exact ⟨hk.admits hfile, hk.admits htemp⟩
  case fresh =>
    intro id hlt
    refine hk.keeps.nothingNew (fun x hx hxid => ?_) (ht.fresh id (Nat.lt_of_le_of_lt hlast hlt))
    have hle := (hknown caller c stage hadd x.id (hxs x hx)).2
    rw [hxid] at hle
    omega
  case adds =>
    intro i c' st hi
    rcases hs.adds_cases i _ hi with ⟨rfl, heq⟩ | ⟨hne, hi⟩
    · obtain ⟨rfl, rfl⟩ := Prod.mk.inj heq
      refine ⟨hown, fun id hst => ?_⟩
      rcases hid id hst with hbefore | hnew
      · exact (ht.adds caller c' stage hadd).2 id hbefore
      · exact Nat.lt_of_le_of_lt ht.last_le hnew
    · obtain ⟨htidy, habove⟩ := ht.adds i c' st hi
      refine ⟨htidy.keep hk.keeps fun id hst x hx hxid => ?_, habove⟩
      exact hother i c' st hi hne id hst (hxid ▸ hxs x hx)
  case visits =>
    intro v hv cause hfailed id hvid
    rcases List.mem_append.mp hv with hv | hv
    · obtain ⟨hnothing, hle, hfree⟩ := ht.visits v hv cause hfailed id hvid
      refine ⟨hk.keeps.nothingNew (fun x hx hxid => ?_) hnothing, Nat.le_trans hle hlast, ?_⟩
      · exact hfree caller c stage hadd (hxid ▸ hxs x hx)
      · intro i c' st hi hst
        rcases hs.adds_cases i _ hi with ⟨rfl, heq⟩ | ⟨-, hi⟩
        · obtain ⟨rfl, rfl⟩ := Prod.mk.inj heq
          rcases hid id hst with hbefore | hnew
          · exact hfree caller c' stage hadd hbefore
          · omega
        · exact hfree i c' st hi hst
    · obtain ⟨called, outcome, -, hend, rfl⟩ := hs.of_returns? v (Option.mem_toList.mp hv)
      obtain rfl : outcome = .error cause := by
        cases outcome with
        | ok e => cases hfailed
        | error cause' => exact congrArg Except.error (Verdict.failed.inj hfailed)
      refine ⟨hreturn cause id hend hvid,
        Nat.le_trans (hknown caller c stage hadd id hvid).2 hlast, ?_⟩
      intro i c' st hi hst
      rcases hs.adds_cases i _ hi with ⟨rfl, heq⟩ | ⟨hne, hi⟩
      · obtain ⟨rfl, rfl⟩ := Prod.mk.inj heq
        rw [hend] at hst
        cases hst
      · exact hother i c' st hi hne id hst hvid

/-- A quiet step of an addition leaves nothing behind. -/
theorem tidy_of_quiet {c : Candidate} {m : Moment} {sys : System} {stage stage' : Adding}
    {t : FileTree} (hquiet : stage.Quiet c m sys stage') (htidy : stage.Tidy s t₀ t)
    {whole : Prop} (hf : stage.Filled whole s t) :
    stage'.Tidy s t₀ t ∧ ∀ cause id, stage' = .done (.error cause) → stage.id? = some id →
      s.NothingNew t₀ t id := by
  cases hquiet with
  | refused htaken =>
    refine ⟨trivial, ?_⟩
    rintro cause id - ⟨⟩
  | fetched id body => exact ⟨⟨trivial, by simp⟩, by simp⟩
  | unfetched id cause =>
    refine ⟨trivial, ?_⟩
    rintro cause' id' - ⟨⟩
    exact htidy
  | written id body => exact ⟨htidy.2 rfl, by simp⟩
  | unwritten id body cause => exact htidy.1.elim
  | doubled id body htaken => exact ⟨⟨htidy, Store.Holds.has hf⟩, by simp⟩
  | done outcome =>
    refine ⟨trivial, ?_⟩
    rintro cause id - ⟨⟩
  | _ => exact ⟨htidy, by simp⟩

/-- Nothing that matters happens. -/
theorem Tidy.still (ht : h.Tidy s t₀ last) (a : Act) (hworld : (h.step a).run.world = h.run.world)
    (hno : h.returns? a = none) : (h.step a).Tidy s t₀ last := by
  have hvisits : (h.step a).visits = h.visits := by simp [History.step, hno]
  obtain ⟨hstore, hlast, hadmits, hfresh, hadds, hvisited⟩ := ht
  rw [← hworld] at hstore hlast hadmits hfresh hadds hvisited
  rw [← hvisits] at hvisited
  exact ⟨hstore, hlast, hadmits, hfresh, hadds, hvisited⟩

/-- An addition takes a step. -/
theorem Tidy.add (ht : h.Tidy s t₀ last) (hs : h.run.world.Sound role n) {whole : Prop} {p : Past}
    (hf : h.run.world.Filled whole p) (caller : Nat) (m : Moment) (hdisk : m.disk.fault = none)
    (hm : n + (h.run.world.mints (.add caller m)).toNat < IdSource.room) :
    (h.step (.add caller m)).Tidy s t₀ last := by
  rcases h.still_or_step caller m with ⟨hworld, hno⟩ | ⟨c, stage, s', stage', hstep⟩
  · exact ht.still _ hworld hno
  have hadd := hstep.add
  obtain ⟨htidy, habove⟩ := ht.adds caller c stage hadd
  have hfilled := hf.adds caller c stage hadd
  have hsteps := stage.steps c (caller + 1) m h.run.world.system
  rw [hstep.step] at hsteps
  obtain ⟨xs, hk, hxs⟩ := hsteps.alters hf.plain hfilled
  rw [ht.store] at hk hfilled
  have hgo := ht.addOn hs hstep
  cases hsteps with
  | quiet stage stage' s' hquiet hstill =>
    obtain ⟨hown, hreturn⟩ := tidy_of_quiet hquiet htidy hfilled
    rw [← hstill.tree] at hown hreturn
    exact hgo (hstill.store.trans ht.store) (Nat.le_of_eq (by rw [hstill.ids])) xs hk hxs hown
      (fun id hid => .inl (hquiet.id?_eq id hid)) hreturn
  -- the new id lies above all that were given out, so nothing is found under it
  | minted =>
    have hroom := hs.numbered.room
    have hmints : (h.run.world.mints (.add caller m)).toNat = 1 := by
      simp only [World.mints, hadd, Bool.toNat_true]
    rw [hmints] at hm
    have hlt := h.run.world.system.ids.last_lt_next m.now
      (by unfold IdSource.room at hroom hm; omega)
    refine hgo ht.store (Nat.le_of_lt hlt) xs hk hxs (ht.fresh _ hlt) ?_ (by simp)
    rintro id ⟨⟩
    exact .inr hlt
  | writing id body w =>
    obtain ⟨hfile, htemp⟩ := ht.admits id (habove id rfl)
    refine hgo ht.store (Nat.le_refl _) xs hk hxs ⟨?_, fun hdone => ?_⟩ (fun id hid => .inl hid)
      (by simp)
    · rw [← ht.store] at hfile htemp hfilled
      exact Store.writeStep_goes hf.plain id body m.disk w hdisk hfile htemp hfilled htidy.1
    · rw [← ht.store] at hfilled htidy ⊢
      exact Store.writeStep_vacant hf.plain id body m.disk w hfilled htidy.2 hdone
  | inserted id body hfree =>
    exact hgo ht.store (Nat.le_refl _) xs hk hxs trivial (by simp [Adding.id?]) (by simp)
  -- the addition ends in error here, and its file is taken away
  | withdrawn id =>
    obtain ⟨htemp, body, hhas⟩ := htidy
    refine hgo (by rw [System.discard_store, ht.store])
      (Nat.le_of_eq (by rw [System.discard_ids])) xs hk hxs trivial (by simp [Adding.id?]) ?_
    rintro cause id' - ⟨⟩
    rw [← ht.store] at hhas htemp
    have hfile := h.run.world.system.discard_vacant hf.plain m.disk id hdisk
    have hkeeps := h.run.world.system.discard_keeps hf.plain m.disk id
    intro x hxid body' hhas'
    rw [← ht.store] at hhas'
    cases x with
    | file id' =>
      obtain rfl : id' = id := hxid
      exact absurd hhas' (hfile body')
    | temp id' =>
      obtain rfl : id' = id := hxid
      exact absurd hhas' (hkeeps.vacant (by simp) htemp body')

/-- Every act of callers leaves nothing behind that should not be there. -/
theorem Tidy.step (ht : h.Tidy s t₀ last) (hs : h.run.world.Sound role n) {whole : Prop}
    {p : Past} (hf : h.run.world.Filled whole p) (transport : String → Answer) (a : Act)
    (hserves : h.run.world.Serves transport a)
    (hm : n + (h.run.world.mints a).toNat < IdSource.room) : (h.step a).Tidy s t₀ last := by
  cases a with
  | call c =>
    have hvisits : (h.step (.call c)).visits = h.visits := List.append_nil _
    refine ⟨ht.store, ht.last_le, ht.admits, ht.fresh, ?_, ?_⟩
    · intro i c' stage hi
      rcases h.run.world.call_cases c i _ hi with hi | heq
      · exact ht.adds i c' stage hi
      · obtain ⟨-, rfl⟩ := Prod.mk.inj heq
        exact ⟨trivial, by simp [Adding.id?]⟩
    · rw [hvisits]
      intro v hv cause hfailed id hvid
      obtain ⟨hnothing, hle, hfree⟩ := ht.visits v hv cause hfailed id hvid
      refine ⟨hnothing, hle, fun i c' stage hi => ?_⟩
      rcases h.run.world.call_cases c i _ hi with hi | heq
      · exact hfree i c' stage hi
      · obtain ⟨-, rfl⟩ := Prod.mk.inj heq
        simp [Adding.id?]
  | add caller m => exact ht.add hs hf caller m hserves.1 hm
  | delete url =>
    obtain ⟨es, journal, heq, -⟩ := h.run.world.system.delete_eq url
    have hsystem : (h.step (.delete url)).run.world.system =
        { h.run.world.system with registry := ⟨es⟩, journal := journal } := heq
    have hadds : (h.step (.delete url)).run.world.adds = h.run.world.adds := rfl
    refine ⟨?store, ?last_le, ?admits, ?fresh, ?adds, ?visits⟩
    case store =>
      rw [hsystem]
      exact ht.store
    case last_le =>
      rw [hsystem]
      exact ht.last_le
    case admits =>
      rw [hsystem]
      exact ht.admits
    case fresh =>
      rw [hsystem]
      exact ht.fresh
    case adds =>
      rw [hsystem]
      exact ht.adds
    case visits =>
      rw [hsystem, hadds]
      intro v hv cause hfailed id hvid
      rcases List.mem_append.mp hv with hv | hv
      · exact ht.visits v hv cause hfailed id hvid
      · -- a deletion does not fail
        obtain rfl := (Option.some.inj (Option.mem_toList.mp hv)).symm
        cases hfailed
  | startPass => exact hserves.elim
  | refresh m => exact hserves.elim

/-- No write of an addition has failed. -/
theorem Tidy.allGo (ht : h.Tidy s t₀ last) : h.run.world.AllGo :=
  fun caller c _ _ _ hadd => (ht.adds caller c _ hadd).1.1

end History
end ListKeeper
