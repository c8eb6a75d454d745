import Mathlib.Tactic.Tauto
import ListKeeper.Config.Validation

/-! Accepted configurations. The lists are looked at one by one against those before them; a
configuration has no fault exactly when it is valid, which does not ask for an order. -/
namespace ListKeeper

namespace FilterSpec

/-- The lists have keys that differ from each other and from those of the lists before. -/
def Fresh {β : Type} (key : FilterSpec → β) (before rest : List FilterSpec) : Prop :=
  (rest.map key).Nodup ∧ ∀ f ∈ rest, ∀ g ∈ before, key g ≠ key f

theorem fresh_nil {β : Type} (key : FilterSpec → β) (before : List FilterSpec) :
    Fresh key before [] := ⟨List.nodup_nil, by simp⟩

theorem fresh_cons_iff {β : Type} (key : FilterSpec → β) (before rest : List FilterSpec)
    (f : FilterSpec) :
    Fresh key before (f :: rest) ↔
      (∀ g ∈ before, key g ≠ key f) ∧ Fresh key (f :: before) rest := by
  constructor
  · rintro ⟨hnodup, hbefore⟩
    obtain ⟨hf, hrest⟩ := List.nodup_cons.mp hnodup
    refine ⟨hbefore f (by simp), hrest, ?_⟩
    intro x hx g hg
    rcases List.mem_cons.mp hg with rfl | hg
    · exact fun he => hf (he ▸ List.mem_map_of_mem hx)
    · exact hbefore x (by simp [hx]) g hg
  · rintro ⟨hf, hnodup, hrest⟩
    refine ⟨List.nodup_cons.mpr ⟨?_, hnodup⟩, ?_⟩
    · intro hmem
      obtain ⟨x, hx, he⟩ := List.mem_map.mp hmem
      exact hrest x hx f (by simp) he.symm
    · intro x hx g hg
      rcases List.mem_cons.mp hx with rfl | hx
      · exact hf g hg
      · exact hrest x hx g (by simp [hg])

theorem fault?_eq_none_iff (fetchable : String → Bool) (before : List FilterSpec) (f : FilterSpec) :
    f.fault? fetchable before = none ↔
      (f.id ≠ 0 ∧ ¬ maxId < f.id ∧ fetchable f.url = true) ∧
        (∀ g ∈ before, g.id ≠ f.id) ∧ (∀ g ∈ before, g.name ≠ f.name) ∧
        ∀ g ∈ before, g.url ≠ f.url := by
  unfold fault?
  by_cases hzero : f.id = 0
  · simp [hzero]
  by_cases hbig : maxId < f.id
  · simp [hzero, hbig]
  simp only [hzero, hbig, ↓reduceIte]
  split
  · rename_i hid
    simp only [List.any_eq_true, beq_iff_eq] at hid
    obtain ⟨g, hg, he⟩ := hid
    simp only [reduceCtorEq, false_iff]
    exact fun h => h.2.1 g hg he
  · rename_i hid
    split
    · rename_i hname
      simp only [List.any_eq_true, beq_iff_eq] at hname
      obtain ⟨g, hg, he⟩ := hname
      simp only [reduceCtorEq, false_iff]
      exact fun h => h.2.2.1 g hg he
    · rename_i hname
      split
      · rename_i hurl
        simp only [List.any_eq_true, beq_iff_eq] at hurl
        obtain ⟨g, hg, he⟩ := hurl
        simp only [reduceCtorEq, false_iff]
        exact fun h => h.2.2.2 g hg he
      · rename_i hurl
        simp_all

theorem firstFault?_eq_none_iff (fetchable : String → Bool) (before rest : List FilterSpec) :
    firstFault? fetchable before rest = none ↔
      (∀ f ∈ rest, f.id ≠ 0 ∧ ¬ maxId < f.id ∧ fetchable f.url = true) ∧
        Fresh (·.id) before rest ∧ Fresh (·.name) before rest ∧ Fresh (·.url) before rest := by
  -- `before` grows by the list that was looked at, so the induction is over all of them
  induction rest generalizing before with
  | nil => simp [firstFault?, fresh_nil]
  | cons f rest ih =>
    rw [firstFault?, Option.or_eq_none_iff, fault?_eq_none_iff, ih, fresh_cons_iff, fresh_cons_iff,
      fresh_cons_iff, List.forall_mem_cons]
    tauto

structure AllValid (fetchable : String → Bool) (fs : List FilterSpec) : Prop where
  id_pos : ∀ f ∈ fs, 0 < f.id.toNat
  id_le : ∀ f ∈ fs, f.id.toNat ≤ 9223372036854775807
  ids_nodup : (fs.map (·.id)).Nodup
  names_nodup : (fs.map (·.name)).Nodup
  urls_nodup : (fs.map (·.url)).Nodup
  urls_ok : ∀ f ∈ fs, fetchable f.url = true

theorem id_eq_zero_iff (f : FilterSpec) : f.id = 0 ↔ f.id.toNat = 0 := by
  rw [← UInt64.toNat_inj]
  rfl

theorem maxId_lt_iff (f : FilterSpec) : maxId < f.id ↔ 9223372036854775807 < f.id.toNat := by
  rw [UInt64.lt_iff_toNat_lt]
  rfl

/-- Lists without a fault are valid ones. -/
theorem firstFault?_eq_none_iff_allValid (fetchable : String → Bool) (fs : List FilterSpec) :
    firstFault? fetchable [] fs = none ↔ AllValid fetchable fs := by
  simp only [firstFault?_eq_none_iff, ne_eq, id_eq_zero_iff, maxId_lt_iff, ← Nat.pos_iff_ne_zero,
    Nat.not_lt, Fresh]
  constructor
  · rintro ⟨hf, ⟨hid, -⟩, ⟨hname, -⟩, ⟨hurl, -⟩⟩
    exact ⟨fun f h => (hf f h).1, fun f h => (hf f h).2.1, hid, hname, hurl,
      fun f h => (hf f h).2.2⟩
  · intro h
    exact ⟨fun f hf => ⟨h.id_pos f hf, h.id_le f hf, h.urls_ok f hf⟩, ⟨h.ids_nodup, by simp⟩,
      ⟨h.names_nodup, by simp⟩, ⟨h.urls_nodup, by simp⟩⟩

end FilterSpec

namespace SyncSettings

structure Valid (s : SyncSettings) : Prop where
  hours_pos : 0 < s.hours.toNat
  hours_le : s.hours.toNat ≤ 8784
  dir_ne : s.dir ≠ ""
  extension_ne : s.extension ≠ ""
  extension_plain : ∀ c ∈ s.extension.toList, c ≠ '/' ∧ c ≠ '\\' ∧ c ≠ '.'

theorem hours_eq_zero_iff (s : SyncSettings) : s.hours = 0 ↔ s.hours.toNat = 0 := by
  rw [← UInt64.toNat_inj]
  rfl

theorem maxHours_lt_iff (s : SyncSettings) : maxHours < s.hours ↔ 8784 < s.hours.toNat := by
  rw [UInt64.lt_iff_toNat_lt]
  rfl

theorem extensionOk_iff (extension : String) :
    extensionOk extension = true ↔
      extension ≠ "" ∧ ∀ c ∈ extension.toList, c ≠ '/' ∧ c ≠ '\\' ∧ c ≠ '.' := by
  simp [extensionOk, and_assoc]

/-- Settings without a fault are valid ones. -/
theorem fault?_eq_none_iff_valid (s : SyncSettings) : s.fault? = none ↔ s.Valid := by
  simp only [fault?, hours_eq_zero_iff, maxHours_lt_iff]
  constructor
  · intro h
    split at h
    · cases h
    split at h
    · cases h
    split at h
    · cases h
    split at h
    · cases h
    · rename_i hpos hle hdir hok
      obtain ⟨hne, hplain⟩ := (extensionOk_iff s.extension).mp (by simpa using hok)
      exact ⟨by omega, by omega, hdir, hne, hplain⟩
  · intro h
    have hok := (extensionOk_iff s.extension).mpr ⟨h.extension_ne, h.extension_plain⟩
    rw [if_neg (Nat.pos_iff_ne_zero.mp h.hours_pos), if_neg (Nat.not_lt.mpr h.hours_le),
      if_neg h.dir_ne, hok]
    rfl

end SyncSettings

namespace Config

theorem valid_iff (fetchable : String → Bool) (c : Config) :
    c.Valid fetchable ↔ c.sync.Valid ∧ FilterSpec.AllValid fetchable c.filters := by
  constructor
  · intro h
    exact ⟨⟨h.hours_pos, h.hours_le, h.dir_ne, h.extension_ne, h.extension_plain⟩,
      ⟨h.id_pos, h.id_le, h.ids_nodup, h.names_nodup, h.urls_nodup, h.urls_ok⟩⟩
  · rintro ⟨hs, hf⟩
    exact ⟨hs.hours_pos, hs.hours_le, hs.dir_ne, hs.extension_ne, hs.extension_plain, hf.id_pos,
      hf.id_le, hf.ids_nodup, hf.names_nodup, hf.urls_nodup, hf.urls_ok⟩

/-- A configuration without a fault is a valid one. -/
theorem fault?_eq_none_iff (fetchable : String → Bool) (c : Config) :
    c.fault? fetchable = none ↔ c.Valid fetchable := by
  rw [fault?, Option.or_eq_none_iff, SyncSettings.fault?_eq_none_iff_valid,
    FilterSpec.firstFault?_eq_none_iff_allValid, valid_iff]

end Config
end ListKeeper
