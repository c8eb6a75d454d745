import Mathlib.Data.List.Nodup
import ListKeeper.Proofs.Validation

/-! The fault of a configuration. What is reported is the first setting of the refreshes that is not
accepted or, where these are, the first thing wrong with the first list at which the lists cease to
be valid. Main statement: `Config.fault_told`. -/
namespace ListKeeper

namespace SyncSettings

/-- The first setting that is not accepted, in the order in which they are looked at. -/
inductive Blamed (s : SyncSettings) : ConfigFault → Prop
  | zero (hzero : s.hours.toNat = 0) : Blamed s .zeroInterval
  | long (hlong : 8784 < s.hours.toNat) : Blamed s (.intervalTooLong s.hours 8784)
  | dir (hpos : 0 < s.hours.toNat) (hle : s.hours.toNat ≤ 8784) (hempty : s.dir = "") :
    Blamed s .emptyDir
  | extension (hpos : 0 < s.hours.toNat) (hle : s.hours.toNat ≤ 8784) (hdir : s.dir ≠ "")
      (hbad : s.extension = "" ∨ ∃ c ∈ s.extension.toList, c = '/' ∨ c = '\\' ∨ c = '.') :
    Blamed s (.badExtension s.extension)

theorem extensionOk_eq_false_iff (extension : String) :
    extensionOk extension = false ↔
      extension = "" ∨ ∃ c ∈ extension.toList, c = '/' ∨ c = '\\' ∨ c = '.' := by
  rw [← Bool.not_eq_true, extensionOk_iff, not_and_or, not_not]
  simp only [not_forall, not_and_or, not_not, exists_prop]

theorem fault?_eq_some_iff (s : SyncSettings) (fault : ConfigFault) :
    s.fault? = some fault ↔ s.Blamed fault := by
  simp only [fault?, hours_eq_zero_iff, maxHours_lt_iff]
  constructor
  · intro h
    -- each check that is passed is a fact for those behind it
    split at h
    · obtain rfl := Option.some.inj h
      exact .zero ‹_›
    rename_i hpos
    split at h
    · obtain rfl := Option.some.inj h
      exact .long ‹_›
    rename_i hle
    split at h
    · obtain rfl := Option.some.inj h
      exact .dir (by omega) (by omega) ‹_›
    split at h
    · rename_i hdir hbad
      obtain rfl := Option.some.inj h
      exact .extension (by omega) (by omega) hdir
        ((extensionOk_eq_false_iff s.extension).mp (by simpa using hbad))
    · cases h
  · intro h
    cases h with
    | zero hzero => rw [if_pos hzero]
    | long hlong =>
      rw [if_neg (by omega), if_pos hlong]
      rfl
    | dir hpos hle hempty => rw [if_neg (by omega), if_neg (by omega), if_pos hempty]
    | extension hpos hle hdir hbad =>
      have hno := (extensionOk_eq_false_iff s.extension).mpr hbad
      rw [if_neg (by omega), if_neg (by omega), if_neg hdir, hno]
      rfl

end SyncSettings

namespace FilterSpec

def InRange (f : FilterSpec) : Prop := 0 < f.id.toNat ∧ f.id.toNat ≤ 9223372036854775807

theorem InRange.ne_zero {f : FilterSpec} (h : f.InRange) : f.id.toNat ≠ 0 :=
  Nat.pos_iff_ne_zero.mp h.1

theorem InRange.not_big {f : FilterSpec} (h : f.InRange) : ¬ 9223372036854775807 < f.id.toNat :=
  Nat.not_lt.mpr h.2

/-- The first thing wrong with a list behind those before it. -/
inductive Blamed (fetchable : String → Bool) (before : List FilterSpec) (f : FilterSpec) :
    ConfigFault → Prop
  | reserved (hid : f.id.toNat = 0) : Blamed fetchable before f (.reservedId f.name)
  | outOfRange (hid : 9223372036854775807 < f.id.toNat) :
    Blamed fetchable before f (.idOutOfRange f.name f.id 9223372036854775807)
  | usedId (hid : f.InRange) (hused : ∃ g ∈ before, g.id = f.id) :
    Blamed fetchable before f (.duplicateId f.id)
  | usedName (hid : f.InRange) (hnewId : ∀ g ∈ before, g.id ≠ f.id)
      (hused : ∃ g ∈ before, g.name = f.name) :
    Blamed fetchable before f (.duplicateName f.name)
  | usedUrl (hid : f.InRange) (hnewId : ∀ g ∈ before, g.id ≠ f.id)
      (hnewName : ∀ g ∈ before, g.name ≠ f.name) (hused : ∃ g ∈ before, g.url = f.url) :
    Blamed fetchable before f (.duplicateUrl f.url)
  | badUrl (hid : f.InRange) (hnewId : ∀ g ∈ before, g.id ≠ f.id)
      (hnewName : ∀ g ∈ before, g.name ≠ f.name) (hnewUrl : ∀ g ∈ before, g.url ≠ f.url)
      (hbad : fetchable f.url = false) :
    Blamed fetchable before f (.badUrl f.name f.url)

variable {fetchable : String → Bool} {before before' : List FilterSpec} {f : FilterSpec}
  {fault : ConfigFault}

/-- In which order the lists before stand does not matter. -/
theorem Blamed.congr (h : f.Blamed fetchable before fault)
    (hmem : ∀ g, g ∈ before ↔ g ∈ before') : f.Blamed fetchable before' fault := by
  cases h with
  | reserved hid => exact .reserved hid
  | outOfRange hid => exact .outOfRange hid
  | usedId hid hused => exact .usedId hid (by simpa only [hmem] using hused)
  | usedName hid hnewId hused =>
    exact .usedName hid (by simpa only [hmem] using hnewId) (by simpa only [hmem] using hused)
  | usedUrl hid hnewId hnewName hused =>
    exact .usedUrl hid (by simpa only [hmem] using hnewId) (by simpa only [hmem] using hnewName)
      (by simpa only [hmem] using hused)
  | badUrl hid hnewId hnewName hnewUrl hbad =>
    exact .badUrl hid (by simpa only [hmem] using hnewId) (by simpa only [hmem] using hnewName)
      (by simpa only [hmem] using hnewUrl) hbad

theorem fault?_eq_some_iff (fetchable : String → Bool) (before : List FilterSpec)
    (f : FilterSpec) (fault : ConfigFault) :
    f.fault? fetchable before = some fault ↔ f.Blamed fetchable before fault := by
  -- the checks for keys in use, in the words of the specification
  have hused {β : Type} [BEq β] [LawfulBEq β] (key : FilterSpec → β) :
      (before.any fun g => key g == key f) = true ↔ ∃ g ∈ before, key g = key f := by
    simp
  have hnew {β : Type} (key : FilterSpec → β) :
      (¬ ∃ g ∈ before, key g = key f) ↔ ∀ g ∈ before, key g ≠ key f := by
    simp
  simp only [fault?, id_eq_zero_iff, maxId_lt_iff, hused (·.id), hused (·.name), hused (·.url)]
  constructor
  · intro h
    -- each check that is passed is a fact for those behind it
    split at h
    · obtain rfl := Option.some.inj h
      exact .reserved ‹_›
    split at h
    · obtain rfl := Option.some.inj h
      exact .outOfRange ‹_›
    have hid : f.InRange := ⟨by omega, by omega⟩
    split at h
    · obtain rfl := Option.some.inj h
      exact .usedId hid ‹_›
    rename_i hnewId
    rw [hnew (·.id)] at hnewId
    split at h
    · obtain rfl := Option.some.inj h
      exact .usedName hid hnewId ‹_›
    rename_i hnewName
    rw [hnew (·.name)] at hnewName
    split at h
    · obtain rfl := Option.some.inj h
      exact .usedUrl hid hnewId hnewName ‹_›
    rename_i hnewUrl
    rw [hnew (·.url)] at hnewUrl
    split at h
    · rename_i hbad
      obtain rfl := Option.some.inj h
      exact .badUrl hid hnewId hnewName hnewUrl (by simpa using hbad)
    · cases h
  · intro h
    cases h with
    | reserved hid => rw [if_pos hid]
    | outOfRange hid =>
      rw [if_neg (by omega), if_pos hid]
      rfl
    | usedId hid h => rw [if_neg hid.ne_zero, if_neg hid.not_big, if_pos h]
    | usedName hid hnewId h =>
      rw [if_neg hid.ne_zero, if_neg hid.not_big, if_neg ((hnew (·.id)).mpr hnewId), if_pos h]
    | usedUrl hid hnewId hnewName h =>
      rw [if_neg hid.ne_zero, if_neg hid.not_big, if_neg ((hnew (·.id)).mpr hnewId),
        if_neg ((hnew (·.name)).mpr hnewName), if_pos h]
    | badUrl hid hnewId hnewName hnewUrl hbad =>
      rw [if_neg hid.ne_zero, if_neg hid.not_big, if_neg ((hnew (·.id)).mpr hnewId),
        if_neg ((hnew (·.name)).mpr hnewName), if_neg ((hnew (·.url)).mpr hnewUrl), hbad]
      rfl

/-! ### The first list that is not valid -/

theorem AllValid.sublist {fs gs : List FilterSpec} (h : AllValid fetchable fs)
    (hsub : gs.Sublist fs) : AllValid fetchable gs :=
  ⟨fun f hf => h.id_pos f (hsub.subset hf), fun f hf => h.id_le f (hsub.subset hf),
    h.ids_nodup.sublist (hsub.map _), h.names_nodup.sublist (hsub.map _),
    h.urls_nodup.sublist (hsub.map _), fun f hf => h.urls_ok f (hsub.subset hf)⟩

/-- Valid lists are valid in every order. -/
theorem AllValid.perm {fs gs : List FilterSpec} (h : AllValid fetchable fs) (hperm : fs.Perm gs) :
    AllValid fetchable gs :=
  ⟨fun f hf => h.id_pos f (hperm.mem_iff.mpr hf), fun f hf => h.id_le f (hperm.mem_iff.mpr hf),
    (hperm.map _).nodup h.ids_nodup, (hperm.map _).nodup h.names_nodup,
    (hperm.map _).nodup h.urls_nodup, fun f hf => h.urls_ok f (hperm.mem_iff.mpr hf)⟩

/-- The fault that is reported is that of a list before which there is none. -/
theorem firstFault?_eq_some_iff (fetchable : String → Bool) (before rest : List FilterSpec)
    (fault : ConfigFault) :
    firstFault? fetchable before rest = some fault ↔
      ∃ pre f post, rest = pre ++ f :: post ∧ firstFault? fetchable before pre = none ∧
        f.Blamed fetchable (pre.reverse ++ before) fault := by
  -- `before` grows by the list that was looked at, so the induction is over all of them
  induction rest generalizing before with
  | nil => simp [firstFault?]
  | cons f rest ih =>
    rw [firstFault?, Option.or_eq_some_iff, ih, fault?_eq_some_iff]
    constructor
    · rintro (hf | ⟨hnone, pre, g, post, rfl, hpre, hg⟩)
      · exact ⟨[], f, rest, rfl, rfl, hf⟩
      · refine ⟨f :: pre, g, post, rfl, ?_, by simpa using hg⟩
        rw [firstFault?, hnone, hpre]
        rfl
    · rintro ⟨pre, g, post, hsplit, hpre, hg⟩
      cases pre with
      | nil =>
        obtain ⟨rfl, rfl⟩ := List.cons.inj hsplit
        exact .inl hg
      | cons x pre =>
        obtain ⟨rfl, rfl⟩ := List.cons.inj hsplit
        rw [firstFault?, Option.or_eq_none_iff] at hpre
        exact .inr ⟨hpre.1, pre, g, post, rfl, hpre.2, by simpa using hg⟩

end FilterSpec

namespace Config

/-- The fault of a configuration that is to be reported: that of its settings or, where these are
accepted, that of the first list that is not valid together with those before it. -/
inductive Blames (fetchable : String → Bool) (c : Config) (fault : ConfigFault) : Prop
  | settings (hsync : c.sync.Blamed fault)
  | list (i : Nat) (f : FilterSpec) (hsync : c.sync.Valid) (hf : c.filters[i]? = some f)
      (hbefore : ∀ j ≤ i, FilterSpec.AllValid fetchable (c.filters.take j))
      (hnow : ¬ FilterSpec.AllValid fetchable (c.filters.take (i + 1)))
      (hfault : f.Blamed fetchable (c.filters.take i) fault)

variable {fetchable : String → Bool} {c : Config}

theorem fault?_eq_some_iff (fault : ConfigFault) :
    c.fault? fetchable = some fault ↔ c.Blames fetchable fault := by
  rw [fault?, Option.or_eq_some_iff, SyncSettings.fault?_eq_some_iff,
    SyncSettings.fault?_eq_none_iff_valid, FilterSpec.firstFault?_eq_some_iff]
  constructor
  · rintro (hsync | ⟨hsync, pre, f, post, hsplit, hpre, hf⟩)
    · exact .settings hsync
    -- the lists before the one that is blamed are those that are valid together
    have hvalid := (FilterSpec.firstFault?_eq_none_iff_allValid fetchable pre).mp hpre
    have htake : c.filters.take pre.length = pre := by simp [hsplit]
    have htake' : c.filters.take (pre.length + 1) = pre ++ [f] := by
      rw [hsplit, List.take_length_add_append]
      rfl
    refine .list pre.length f hsync (by simp [hsplit]) ?_ ?_ ?_
    · intro j hj
      refine hvalid.sublist ?_
      rw [← htake]
      exact (List.take_prefix_take_left hj).sublist
    · -- with the list that is blamed the lists are not valid any more
      rw [htake', ← FilterSpec.firstFault?_eq_none_iff_allValid]
      have hsome : FilterSpec.firstFault? fetchable [] (pre ++ [f]) = some fault :=
        (FilterSpec.firstFault?_eq_some_iff fetchable [] _ fault).mpr ⟨pre, f, [], rfl, hpre, hf⟩
      simp [hsome]
    · rw [htake]
      exact hf.congr (by simp)
  · intro h
    cases h with
    | settings hsync => exact .inl hsync
    | list i f hsync hf hbefore hnow hfault =>
      obtain ⟨hlt, hget⟩ := List.getElem?_eq_some_iff.mp hf
      refine .inr ⟨hsync, c.filters.take i, f, c.filters.drop (i + 1), ?_, ?_, ?_⟩
      · rw [← hget, ← List.drop_eq_getElem_cons hlt, List.take_append_drop]
      · exact (FilterSpec.firstFault?_eq_none_iff_allValid _ _).mpr (hbefore i (Nat.le_refl i))
      · exact hfault.congr (by simp)

/-- A configuration is accepted exactly when it is valid, whatever the order of its lists, and of
one that is not the first fault is told. -/
theorem fault_told (fetchable : String → Bool) (c : Config) :
    (c.fault? fetchable = none ↔ c.Valid fetchable) ∧
      (∀ fs, c.filters.Perm fs →
        (({ c with filters := fs } : Config).fault? fetchable = none ↔
          c.fault? fetchable = none)) ∧
      ∀ fault, c.fault? fetchable = some fault ↔ c.Blames fetchable fault := by
  refine ⟨fault?_eq_none_iff fetchable c, fun fs hperm => ?_, fault?_eq_some_iff⟩
  rw [fault?_eq_none_iff, fault?_eq_none_iff, valid_iff, valid_iff]
  exact and_congr_right fun _ => ⟨fun h => h.perm hperm.symm, fun h => h.perm hperm⟩

/-- The third list is blamed before the fourth, and for its url, which is taken, before it is asked
whether that can be requested. -/
example :
    ({ standard with
      filters := [⟨3, true, "ads", "http://a.example/"⟩, ⟨1, true, "trackers", "ftp://b.example/"⟩,
        ⟨2, false, "malware", "ftp://b.example/"⟩, ⟨0, true, "ads", ""⟩] } : Config).fault?
        (fun url => url ≠ "") = some (.duplicateUrl "ftp://b.example/") := by
  decide

end Config
end ListKeeper
