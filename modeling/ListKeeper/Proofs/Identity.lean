import ListKeeper.Proofs.RoleSteps
import ListKeeper.Proofs.Validation

/-! The identity of entries. In every state of every run the registered entries differ in their ids,
names and urls, what waits for a commit has ids of its own, and the next id is new. Main statements:
`Run.sound_after`, by which ids are in their roles throughout a run, and `Run.identified_after`. -/
namespace ListKeeper

structure System.Identified (s : System) : Prop where
  id_ne_zero : ∀ e ∈ s.registry.entries, e.id ≠ 0
  ids_nodup : (s.registry.entries.map (·.id)).Nodup
  names_nodup : (s.registry.entries.map (·.name)).Nodup
  urls_nodup : (s.registry.entries.map (·.url)).Nodup
  pending_nodup : (s.registry.entries.filterMap (·.pending)).Nodup
  pending_ne_id : ∀ e ∈ s.registry.entries, ∀ x ∈ s.registry.entries, e.pending ≠ some x.id
  id_le_last : ∀ e ∈ s.registry.entries, e.id ≤ s.ids.last
  pending_le_last : ∀ e ∈ s.registry.entries, ∀ p, e.pending = some p → p ≤ s.ids.last
  next_ne : ∀ now, ∀ e ∈ s.registry.entries,
    s.ids.next now ≠ e.id ∧ e.pending ≠ some (s.ids.next now)

namespace IdSource

/-- Ids that are seen are not above the last one, which is one of them or the one before. -/
theorem last_observed (fs : List FilterSpec) (s : IdSource) :
    s.last.toNat ≤ (fs.foldl (fun ids f => ids.observe f.id) s).last.toNat ∧
      (∀ f ∈ fs, f.id.toNat ≤ (fs.foldl (fun ids f => ids.observe f.id) s).last.toNat) ∧
      ∀ bound, s.last.toNat < bound → (∀ f ∈ fs, f.id.toNat < bound) →
        (fs.foldl (fun ids f => ids.observe f.id) s).last.toNat < bound := by
  induction fs generalizing s with
  | nil => simp
  | cons f fs ih =>
    obtain ⟨hlast, hall, hbound⟩ := ih (s.observe f.id)
    have hmax : (s.observe f.id).last.toNat = max s.last.toNat f.id.toNat := toNat_max _ _
    rw [hmax] at hlast hbound
    rw [List.foldl_cons]
    refine ⟨by omega, ?_, ?_⟩
    · intro g hg
      rcases List.mem_cons.mp hg with rfl | hg
      · omega
      · exact hall g hg
    · intro bound hs hfs
      have hf := hfs f (by simp)
      exact hbound bound (by omega) fun g hg => hfs g (by simp [hg])

end IdSource

/-- The entry of a configured list is that list, with nothing staged. -/
theorem System.seed_same (s : System) (f : FilterSpec) (disk : Disk) :
    (s.seed f disk).id = f.id ∧ (s.seed f disk).name = f.name ∧ (s.seed f disk).url = f.url ∧
      (s.seed f disk).pending = none := by
  unfold seed
  split <;> exact ⟨rfl, rfl, rfl, rfl⟩

namespace Run

theorem loaded_entries (c : Config) (period : Span) (t : FileTree) (disks : UInt64 → Disk) :
    (loaded c period t disks).world.entries =
      c.filters.map fun f => (System.fresh (Service.store c) period t).seed f (disks f.id) := by
  simp [loaded, World.entries, System.load, System.fresh, Registry.empty]

/-- Configured lists have canonical ids, and no other id has a role. -/
theorem loaded_sound (fetchable : String → Bool) (c : Config) (hc : c.fault? fetchable = none)
    (period : Span) (t : FileTree) (disks : UInt64 → Disk) :
    ∃ role, (loaded c period t disks).world.Sound role 0 := by
  have hvalid := (c.fault?_eq_none_iff fetchable).mp hc
  obtain ⟨-, hle, hbound⟩ := IdSource.last_observed c.filters .fresh
  have hseed (f : FilterSpec) :=
    (System.fresh (Service.store c) period t).seed_same f (disks f.id)
  refine ⟨fun x => if x ∈ c.filters.map (·.id) then .canonical else .unused, ?table, ?numbered,
    ?held, trivial⟩
  case table =>
    rw [loaded_entries]
    refine ⟨?ids, ?names, ?urls, ?canonical, ?pending⟩
    case ids => simpa [Function.comp_def, hseed] using hvalid.ids_nodup
    case names => simpa [Function.comp_def, hseed] using hvalid.names_nodup
    case urls => simpa [Function.comp_def, hseed] using hvalid.urls_nodup
    case canonical =>
      intro e he
      obtain ⟨f, hf, rfl⟩ := List.mem_map.mp he
      rw [(hseed f).1]
      exact if_pos (List.mem_map_of_mem hf)
    case pending =>
      intro e he p hp
      obtain ⟨f, -, rfl⟩ := List.mem_map.mp he
      rw [(hseed f).2.2.2] at hp
      cases hp
  case numbered =>
    refine ⟨?zero, ?le_last, ?room⟩
    case zero =>
      apply if_neg
      intro hmem
      obtain ⟨f, hf, hzero⟩ := List.mem_map.mp hmem
      have hpos := hvalid.id_pos f hf
      rw [hzero] at hpos
      exact absurd hpos (by decide)
    case le_last =>
      intro id hid
      by_cases hmem : id ∈ c.filters.map (·.id)
      · obtain ⟨f, hf, rfl⟩ := List.mem_map.mp hmem
        exact hle f hf
      · exact absurd (if_neg hmem) hid
    -- configured ids leave room above them
    case room =>
      refine hbound _ (by decide) fun f hf => ?_
      have hlef := hvalid.id_le f hf
      unfold IdSource.room
      omega
  case held =>
    intro caller cand stage id hadd
    simp [loaded] at hadd

/-- Throughout a run ids are in their roles. -/
theorem sound_after (fetchable : String → Bool) (c : Config) (hc : c.fault? fetchable = none)
    (period : Span) (t : FileTree) (disks : UInt64 → Disk) (acts : List Act)
    (hm : ((loaded c period t disks).after acts).past.minted < IdSource.room) :
    ∃ role, ((loaded c period t disks).after acts).world.Sound role
      ((loaded c period t disks).after acts).past.minted := by
  refine invariant_after (fun k => ∃ role, k.world.Sound role k.past.minted) _
    (loaded_sound fetchable c hc period t disks) acts ?_ hm
  rintro k a - ⟨role, h⟩ hk
  obtain ⟨role', h', -⟩ := h.step a hk
  exact ⟨role', h'⟩

end Run

/-- Ids in their roles identify all that they stand for. -/
theorem World.Sound.identified {w : World} {role : UInt64 → Role} {n : Nat}
    (h : w.Sound role n) (hn : n < IdSource.room) : w.system.Identified where
  id_ne_zero e he hzero := by
    have hrole := h.table.canonical e he
    rw [hzero, h.numbered.zero] at hrole
    cases hrole
  ids_nodup := h.table.ids
  names_nodup := h.table.names
  urls_nodup := h.table.urls
  pending_nodup := by
    -- a file that is staged for one id is not staged for another
    have hids : w.system.registry.entries.Pairwise fun e x => e.id ≠ x.id :=
      List.pairwise_map.mp h.table.ids
    refine List.pairwise_filterMap.mpr (hids.imp_of_mem ?_)
    intro e x he hx hne p hp q hq hpq
    subst hpq
    have hrole := h.table.pending e he p hp
    rw [h.table.pending x hx p hq] at hrole
    exact hne (Role.staged.inj hrole).symm
  pending_ne_id e he x hx hpend := by
    have hrole := h.table.pending e he x.id hpend
    rw [h.table.canonical x hx] at hrole
    cases hrole
  id_le_last e he := by
    apply UInt64.le_iff_toNat_le.mpr
    exact h.numbered.le_last e.id (by simp [h.table.canonical e he])
  pending_le_last e he p hp := by
    apply UInt64.le_iff_toNat_le.mpr
    exact h.numbered.le_last p (by simp [h.table.pending e he p hp])
  next_ne now e he := by
    have hroom := h.numbered.room
    unfold IdSource.room at hroom hn
    have hlt := w.system.ids.last_lt_next now (by omega)
    constructor
    · intro hid
      have hle := h.numbered.le_last e.id (by simp [h.table.canonical e he])
      rw [hid] at hlt
      omega
    · intro hpend
      have hle := h.numbered.le_last _ (by
        rw [h.table.pending e he _ hpend]
        simp)
      omega

namespace Run

/-- In every run, whatever is added, deleted and refreshed meanwhile, identities stay in order. -/
theorem identified_after (fetchable : String → Bool) (c : Config)
    (hc : c.fault? fetchable = none) (period : Span) (t : FileTree) (disks : UInt64 → Disk)
    (acts : List Act)
    (hm : ((loaded c period t disks).after acts).past.minted < IdSource.room) :
    ((loaded c period t disks).after acts).world.system.Identified := by
  obtain ⟨role, h⟩ := sound_after fetchable c hc period t disks acts hm
  exact h.identified hm

/-- A list is added while the first one waits for its commit. -/
def addedMeanwhile : List Act :=
  .startPass :: List.replicate 12 (.refresh .calm) ++
    .call ⟨"more", "http://c.example/"⟩ :: List.replicate 12 (.add 0 .calm)

theorem identified_addedMeanwhile :
    Config.pair.fault? (fun _ => true) = none ∧
      ((loaded .pair (.ofSeconds 10) .withLists).after addedMeanwhile).past.minted < IdSource.room ∧
      ((loaded .pair (.ofSeconds 10) .withLists).after addedMeanwhile).world.system.Identified :=
  have hc : Config.pair.fault? (fun _ => true) = none := by decide +kernel
  have hm : ((loaded .pair (.ofSeconds 10) .withLists).after addedMeanwhile).past.minted <
      IdSource.room := by
    decide +kernel
  ⟨hc, hm, identified_after (fun _ => true) .pair hc (.ofSeconds 10) .withLists .readsAll
    addedMeanwhile hm⟩

end Run
end ListKeeper
