import ListKeeper.Proofs.Keys

/-! Which source a setting comes from. The variables of an environment lie over a file; where no two
of them name the same setting, each gives its own setting its value and leaves the others alone.
Main statements: `Config.Key.lookup_overlay` for the environment, `Config.Key.lookup_mergeFields`
for the file, and `Config.layers_of_config?` for both. -/
namespace ListKeeper

namespace Environment

def told? (env : Environment) (k : Config.Key) : Option Setting :=
  (env.find? fun v => Setting.lower v.1 == k.variableName).map fun v => value v.2

/-- The variables with the program's mark each name one setting, and no two the same one. -/
structure Documented (env : Environment) : Prop where
  named : ∀ v ∈ env, (path? v.1).isSome = true →
    ∃ k : Config.Key, Setting.lower v.1 = k.variableName
  distinct : ((env.filter fun v => (path? v.1).isSome).map fun v => Setting.lower v.1).Nodup

theorem documented_iff (env : Environment) :
    Documented env ↔
      (∀ v ∈ env, (path? v.1).isSome = true →
        ∃ k ∈ Config.Key.all, Setting.lower v.1 = k.variableName) ∧
      ((env.filter fun v => (path? v.1).isSome).map fun v => Setting.lower v.1).Nodup := by
  constructor
  · rintro ⟨hnamed, hdistinct⟩
    refine ⟨fun v hv hpath => ?_, hdistinct⟩
    obtain ⟨k, hk⟩ := hnamed v hv hpath
    exact ⟨k, k.mem_all, hk⟩
  · rintro ⟨hnamed, hdistinct⟩
    refine ⟨fun v hv hpath => ?_, hdistinct⟩
    obtain ⟨k, -, hk⟩ := hnamed v hv hpath
    exact ⟨k, hk⟩

instance (env : Environment) : Decidable (Documented env) :=
  decidable_of_iff' _ (documented_iff env)

def step (fs : List (String × Setting)) (v : String × String) : List (String × Setting) :=
  match path? v.1 with
  | some p => Setting.put fs p (value v.2)
  | none => fs

variable {env : Environment}

theorem settings_eq_foldl (env : Environment) : env.settings = env.foldl step [] := rfl

theorem told?_cons (v : String × String) (env : Environment) (k : Config.Key) :
    told? (v :: env) k =
      if Setting.lower v.1 = k.variableName then some (value v.2) else told? env k := by
  by_cases hv : Setting.lower v.1 = k.variableName
  · simp [told?, hv]
  · simp [told?, hv]

theorem Documented.tail {v : String × String} (h : Documented (v :: env)) : Documented env where
  named w hw := h.named w (List.mem_cons_of_mem v hw)
  distinct := by
    refine h.distinct.sublist (List.Sublist.map _ ?_)
    exact (List.sublist_cons_self v env).filter _

/-- A variable that names a setting is the only one that does. -/
theorem Documented.told?_tail {v : String × String} (h : Documented (v :: env)) (k : Config.Key)
    (hv : Setting.lower v.1 = k.variableName) : env.told? k = none := by
  have hmarked (w : String × String) (hw : Setting.lower w.1 = k.variableName) :
      (path? w.1).isSome = true := by
    rw [k.path?_of_lower w.1 hw]
    rfl
  have hdistinct := h.distinct
  rw [List.filter_cons_of_pos (by simpa using hmarked v hv), List.map_cons, List.nodup_cons]
    at hdistinct
  rw [told?, Option.map_eq_none_iff]
  refine List.find?_eq_none.mpr fun w hw heq => hdistinct.1 ?_
  have hlower : Setting.lower w.1 = k.variableName := eq_of_beq heq
  rw [hv, ← hlower]
  exact List.mem_map_of_mem (List.mem_filter.mpr ⟨hw, by simpa using hmarked w hlower⟩)

/-- What a variable's own step makes of a setting. -/
theorem get?_step (v : String × String) (h : (path? v.1).isSome = true →
      ∃ k : Config.Key, Setting.lower v.1 = k.variableName)
    (fs : List (String × Setting)) (k : Config.Key) :
    Setting.get? (step fs v) k.path =
      if Setting.lower v.1 = k.variableName then some (value v.2) else Setting.get? fs k.path := by
  cases hpath : path? v.1 with
  | none =>
    have hne : Setting.lower v.1 ≠ k.variableName := by
      intro hv
      rw [k.path?_of_lower v.1 hv] at hpath
      cases hpath
    rw [step, hpath, if_neg hne]
  | some p =>
    obtain ⟨k', hk'⟩ := h (by rw [hpath]; rfl)
    have hp : p = k'.path := by
      rw [k'.path?_of_lower v.1 hk'] at hpath
      exact (Option.some.inj hpath).symm
    rw [step, hpath, hp, Setting.get?_put, hk']
    have hiff : k'.path = k.path ↔ k'.variableName = k.variableName :=
      ⟨fun hsame => congrArg _ (Config.Key.path_inj k' k hsame),
        fun hsame => congrArg _ (Config.Key.variableName_inj k' k hsame)⟩
    simp only [hiff]

theorem get?_foldl (h : Documented env) (fs : List (String × Setting)) (k : Config.Key) :
    Setting.get? (env.foldl step fs) k.path = (env.told? k).or (Setting.get? fs k.path) := by
  induction env generalizing fs with
  | nil => rfl
  | cons v env ih =>
    rw [List.foldl_cons, ih h.tail, get?_step v (h.named v (by simp)), told?_cons]
    by_cases hv : Setting.lower v.1 = k.variableName
    -- no later variable names the same setting, so none takes the value away
    · simp [hv, h.told?_tail k hv]
    · simp [hv]

/-- The settings of an environment say of a setting what its variable says. -/
theorem get?_settings (h : Documented env) (k : Config.Key) :
    Setting.get? env.settings k.path = env.told? k := by
  rw [settings_eq_foldl, get?_foldl h]
  exact Option.or_none

/-- The settings of an environment are under the paths of settings, each once. -/
theorem settings_keys (h : Documented env) :
    (∀ f ∈ env.settings, ∃ k : Config.Key, f.1 = k.path) ∧
      (env.settings.map Prod.fst).Nodup := by
  rw [settings_eq_foldl]
  -- the settings that are there before a variable is added are under such paths, too
  suffices hall : ∀ fs : List (String × Setting), (∀ f ∈ fs, ∃ k : Config.Key, f.1 = k.path) →
      (fs.map Prod.fst).Nodup → (∀ f ∈ env.foldl step fs, ∃ k : Config.Key, f.1 = k.path) ∧
        ((env.foldl step fs).map Prod.fst).Nodup from hall [] (by simp) (by simp)
  induction env with
  | nil => exact fun fs hpaths hkeys => ⟨hpaths, hkeys⟩
  | cons v env ih =>
    intro fs hpaths hkeys
    refine ih h.tail (step fs v) ?_ ?_
    · intro f hf
      unfold step at hf
      split at hf
      · rename_i p hpath
        rcases Setting.mem_put f p _ hf with rfl | hf
        · obtain ⟨k, hk⟩ := h.named v (by simp) (by rw [hpath]; rfl)
          rw [k.path?_of_lower v.1 hk] at hpath
          exact ⟨k, (Option.some.inj hpath).symm⟩
        · exact hpaths f hf
      · exact hpaths f hf
    · unfold step
      split
      · exact Setting.keys_nodup_put hkeys _ _
      · exact hkeys

end Environment

namespace Config.Key

variable {base source : List (String × Setting)}

theorem lookup_eq (fields : List (String × Setting)) (k : Key) :
    lookup fields k =
      Setting.get? ((Setting.get? fields k.table).getD .nil).fields k.field := by
  rw [lookup]
  cases Setting.get? fields k.table <;> rfl

theorem assign_eq (base : List (String × Setting)) (k : Key) (v : Setting) :
    Setting.assign base k.path v =
      Setting.put base k.table (.table
        (Setting.put ((Setting.get? base k.table).getD .nil).fields k.field
          (Setting.merge ((lookup base k).getD .nil) v))) := by
  simp only [Setting.assign, path_eq, Setting.assignSteps, lookup_eq]

theorem lookup_assign (base : List (String × Setting)) (k : Key) (v : Setting) (k' : Key) :
    (lookup (Setting.assign base k.path v) k').map k'.read? =
      if k = k' then some (k'.read? v) else (lookup base k').map k'.read? := by
  rw [assign_eq, lookup, Setting.get?_put]
  by_cases htable : k.table = k'.table
  · rw [if_pos htable, Option.bind_some, Setting.fields, Setting.get?_put]
    by_cases hfield : k.field = k'.field
    · obtain rfl := eq_of_place k k' htable hfield
      simp [untabled_read? k _ v]
    · have hne : k ≠ k' := fun hsame => hfield (congrArg field hsame)
      rw [if_neg hfield, if_neg hne, htable, ← lookup_eq]
  · have hne : k ≠ k' := fun hsame => htable (congrArg table hsame)
    rw [if_neg htable, if_neg hne]
    rfl

theorem sectioned_assign (h : Sectioned base) (k : Key) (v : Setting) :
    Sectioned (Setting.assign base k.path v) := by
  intro k' w hw
  rw [assign_eq, Setting.get?_put] at hw
  split at hw
  · exact ⟨_, (Option.some.inj hw).symm⟩
  · exact h k' w hw

theorem filters_assign (base : List (String × Setting)) (k : Key) (v : Setting) :
    Setting.get? (Setting.assign base k.path v) "filters" = Setting.get? base "filters" := by
  rw [assign_eq, Setting.get?_put, if_neg k.table_ne_filters]

/-- A source that gives each setting once is laid over another. What was merged into what cannot be
told, as no reading of a setting asks for a table. -/
theorem lookup_overlay (base source : List (String × Setting))
    (hpaths : ∀ f ∈ source, ∃ k : Key, f.1 = k.path) (hkeys : (source.map Prod.fst).Nodup)
    (hbase : Sectioned base) :
    (∀ k : Key, (lookup (Setting.overlay base source) k).map k.read? =
        ((Setting.get? source k.path).or (lookup base k)).map k.read?) ∧
      Sectioned (Setting.overlay base source) ∧
      Setting.get? (Setting.overlay base source) "filters" = Setting.get? base "filters" := by
  induction source generalizing base with
  | nil => exact ⟨fun k => rfl, hbase, rfl⟩
  | cons f rest ih =>
    obtain ⟨p, v⟩ := f
    obtain ⟨k₀, rfl⟩ : ∃ k : Key, p = k.path := hpaths (p, v) (by simp)
    obtain ⟨hnew, hrest⟩ := List.nodup_cons.mp hkeys
    obtain ⟨hlookup, hsections, hfilters⟩ := ih (Setting.assign base k₀.path v)
      (fun f hf => hpaths f (List.mem_cons_of_mem _ hf)) hrest (sectioned_assign hbase k₀ v)
    refine ⟨fun k => ?_, hsections, hfilters.trans (filters_assign base k₀ v)⟩
    change (lookup (Setting.overlay (Setting.assign base k₀.path v) rest) k).map k.read? = _
    rw [hlookup k, Option.map_or, Option.map_or, lookup_assign, Setting.get?_cons]
    by_cases hk : k₀ = k
    · subst hk
      have hgone : Setting.get? rest k₀.path = none := by
        refine (Setting.get?_eq_none_iff rest _).mpr fun f hf hfk => ?_
        have hmem : f.1 ∈ rest.map Prod.fst := List.mem_map_of_mem hf
        rw [hfk] at hmem
        exact hnew hmem
      simp [hgone]
    · have hpath : k₀.path ≠ k.path := fun hsame => hk (path_inj k₀ k hsame)
      simp [hk, hpath]

/-! ### The file -/

def sectionOf (k : Key) (fields : List (String × Setting)) : List (String × Setting) :=
  fields.flatMap fun f => if f.1 = k.table then f.2.fields else []

def filed? (fields : List (String × Setting)) (k : Key) : Option Setting :=
  Setting.last? (k.sectionOf fields) k.field

end Config.Key

/-- The keys of a file are plain, and its sections are tables. -/
structure Config.PlainFile (fields : List (String × Setting)) : Prop where
  keys : ∀ f ∈ fields, Setting.PlainKey f.1
  sections : ∀ f ∈ fields, ∀ k : Key, f.1 = k.table → ∃ fs, f.2 = .table fs

theorem Config.plainFile_iff (fields : List (String × Setting)) :
    Config.PlainFile fields ↔
      ∀ f ∈ fields, Setting.PlainKey f.1 ∧
        ∀ k ∈ Config.Key.all, f.1 = k.table → f.2.isTable = true := by
  constructor
  · intro h f hf
    exact ⟨h.keys f hf, fun k _ hk => f.2.isTable_iff.mpr (h.sections f hf k hk)⟩
  · intro h
    exact ⟨fun f hf => (h f hf).1, fun f hf k hk => f.2.isTable_iff.mp ((h f hf).2 k k.mem_all hk)⟩

instance (fields : List (String × Setting)) : Decidable (Config.PlainFile fields) :=
  decidable_of_iff' _ (Config.plainFile_iff fields)

namespace Config.Key

theorem filed?_cons (f : String × Setting) (fields : List (String × Setting)) (k : Key) :
    filed? (f :: fields) k =
      (filed? fields k).or (if f.1 = k.table then Setting.last? f.2.fields k.field else none) := by
  rw [filed?, sectionOf, List.flatMap_cons, Setting.last?_append]
  split <;> rfl

/-- A file is laid over another source section by section, and in each section field by field. -/
theorem lookup_mergeFields (base fields : List (String × Setting)) (hfile : PlainFile fields)
    (hbase : Sectioned base) :
    (∀ k : Key, (lookup (Setting.mergeFields base fields) k).map k.read? =
        ((filed? fields k).or (lookup base k)).map k.read?) ∧
      Sectioned (Setting.mergeFields base fields) := by
  induction fields generalizing base with
  | nil => exact ⟨fun k => rfl, hbase⟩
  | cons f rest ih =>
    obtain ⟨key, v⟩ := f
    have hrest : PlainFile rest :=
      ⟨fun f hf => hfile.keys f (List.mem_cons_of_mem _ hf),
        fun f hf => hfile.sections f (List.mem_cons_of_mem _ hf)⟩
    have hsection (k : Key) (hk : key = k.table) : ∃ fs, v = .table fs :=
      hfile.sections (key, v) (by simp) k hk
    have hnext : Sectioned
        (Setting.put base key (Setting.merge ((Setting.get? base key).getD .nil) v)) := by
      intro k w hw
      rw [Setting.get?_put] at hw
      split at hw
      · rename_i hk
        obtain ⟨fs, rfl⟩ := hsection k hk
        rw [Setting.merge] at hw
        exact ⟨_, (Option.some.inj hw).symm⟩
      · exact hbase k w hw
    obtain ⟨hlookup, hsections⟩ := ih _ hrest hnext
    rw [Setting.mergeFields]
    refine ⟨fun k => ?_, hsections⟩
    rw [hlookup k, filed?_cons, Option.or_assoc, Option.map_or, Option.map_or]
    congr 1
    by_cases hk : key = k.table
    -- a section is a table, so its fields are merged into those that are there
    · obtain ⟨fs, rfl⟩ := hsection k hk
      rw [lookup, Setting.get?_put, if_pos hk, Option.bind_some, Setting.merge, Setting.fields,
        Setting.get?_mergeFields k.read? (untabled_read? k), if_pos hk, lookup_eq, hk]
      rfl
    · rw [lookup, Setting.get?_put, if_neg hk, if_neg hk]
      rfl

theorem sectioned_nil : Sectioned [] := by
  intro k v hv
  cases hv

theorem Holds.congr {c : Config} {k : Key} {found found' : Option Setting}
    (h : Holds c k found) (hsame : found.map k.read? = found'.map k.read?) : Holds c k found' := by
  have hread (x : Option Setting) : Reading.orStandard k.standard k.read? x =
      (x.map k.read?).getD (some k.standard) := by
    cases x <;> rfl
  rw [Holds, hread] at h ⊢
  rwa [← hsame]

end Config.Key

namespace Config

theorem untabled_filters? : Setting.Untabled Reading.lenient.filters? :=
  Setting.untabled_of_table _ none fun _ => rfl

def listed? (fields : List (String × Setting)) : Option (List Setting) :=
  match Setting.last? fields "filters" with
  | none => some []
  | some (.list items) => some items
  | some _ => none

theorem forall₂_of_mapM {α β : Type} (f : α → Option β) (xs : List α) (ys : List β)
    (h : xs.mapM f = some ys) : List.Forall₂ (fun x y => f x = some y) xs ys := by
  induction xs generalizing ys with
  | nil =>
    obtain rfl : [] = ys := by simpa using h
    exact .nil
  | cons x xs ih =>
    simp only [List.mapM_cons, Option.bind_eq_bind, Option.bind_eq_some_iff, Option.pure_def] at h
    obtain ⟨y, hy, rest, hrest, heq⟩ := h
    obtain rfl := Option.some.inj heq
    exact .cons hy (ih rest hrest)

/-- What a configuration holds comes from the environment, else from the file, else it is the
standard value; and its lists are those of the file, in their order. -/
structure Layered (c : Config) (told : Key → Option Setting) (fields : List (String × Setting)) :
    Prop where
  holds : ∀ k : Key, k.Holds c ((told k).or (Key.filed? fields k))
  lists : ∃ items, listed? fields = some items ∧
    List.Forall₂ (fun v f => Reading.lenient.filter? v = some f) items c.filters

theorem lists_of_filters (c : Config) (fields : List (String × Setting))
    (h : Reading.orStandard [] Reading.lenient.filters? (Setting.last? fields "filters") =
      some c.filters) :
    ∃ items, listed? fields = some items ∧
      List.Forall₂ (fun v f => Reading.lenient.filter? v = some f) items c.filters := by
  unfold listed?
  cases hlast : Setting.last? fields "filters" with
  | none =>
    rw [hlast] at h
    exact ⟨[], rfl, Option.some.inj h ▸ .nil⟩
  | some v =>
    rw [hlast] at h
    cases v with
    | list items => exact ⟨items, rfl, forall₂_of_mapM _ items c.filters h⟩
    | _ => cases h

theorem layers_of_config? (c : Config) (fields : List (String × Setting)) (env : Environment)
    (hfile : PlainFile fields) (henv : env.Documented)
    (h : Reading.lenient.config?
      (.table (Setting.overlay (Setting.overlay [] fields) env.settings)) = some c) :
    c.Layered env.told? fields := by
  obtain ⟨hfiled, hsections⟩ := Key.lookup_mergeFields [] fields hfile Key.sectioned_nil
  obtain ⟨hpaths, hkeys⟩ := Environment.settings_keys henv
  rw [Setting.overlay_eq_mergeFields [] fields hfile.keys] at h
  obtain ⟨hlookup, hall, hfilters⟩ := Key.lookup_overlay _ env.settings hpaths hkeys hsections
  obtain ⟨hholds, hlists⟩ := Key.holds_of_config? c hall h
  have hread (x : Option Setting) : Reading.orStandard [] Reading.lenient.filters? x =
      (x.map Reading.lenient.filters?).getD (some []) := by
    cases x <;> rfl
  refine ⟨fun k => (hholds k).congr ?_, lists_of_filters c fields ?_⟩
  · rw [hlookup k, Environment.get?_settings henv, Option.map_or, hfiled k, ← Option.map_or]
    simp [Key.lookup, Setting.get?]
  · rw [hread, hfilters, Setting.get?_mergeFields _ untabled_filters?, ← hread] at hlists
    simpa [Setting.get?] using hlists

end Config
end ListKeeper
