import ListKeeper.Proofs.Validation
import ListKeeper.Proofs.VariableFile
import ListKeeper.Service

/-! Where the settings of a loaded configuration come from. The environment lies over the file of
variables, that over the configuration file, and that over the standard values, for each setting by
itself. Only a reference in the file of variables can carry the value of one variable into another
setting. Main statements: `Service.config_layers`, and `Service.config_refers` for the reference. -/
namespace ListKeeper

namespace EnvFile

def linesOf (body : Bytes) : List Logical :=
  logicalLines [] .plain (rawLines (match body with
    | 0xef :: 0xbb :: 0xbf :: rest => rest
    | body => body))

theorem load_eq_fill (env : Environment) (body : Bytes) :
    load env body = env.fill (assigned ⟨env, []⟩ (linesOf body)) :=
  apply_eq_fill ⟨env, []⟩ (linesOf body)

end EnvFile

namespace Surroundings

/-- The nearest file of variables counts: none stands before it, and every directory up to there can
be searched. -/
theorem firstFile?_eq_some_iff (s : Surroundings) (paths : List String) (body : Bytes) :
    s.firstFile? paths = some body ↔ ∃ before path rest, paths = before ++ path :: rest ∧
      s.look path = .file body ∧ ∀ p ∈ before, s.look p = .nothing ∨ s.look p = .dir := by
  induction paths with
  | nil => simp [firstFile?]
  | cons path rest ih =>
    -- where the first path leads to no file, the search goes on or ends
    have hlater : (∃ before path' rest', path :: rest = before ++ path' :: rest' ∧
        s.look path' = .file body ∧ ∀ p ∈ before, s.look p = .nothing ∨ s.look p = .dir) ↔
        s.look path = .file body ∨ (s.look path = .nothing ∨ s.look path = .dir) ∧
          ∃ before path' rest', rest = before ++ path' :: rest' ∧ s.look path' = .file body ∧
            ∀ p ∈ before, s.look p = .nothing ∨ s.look p = .dir := by
      constructor
      · rintro ⟨before, path', rest', hsplit, hfile, hbefore⟩
        cases before with
        | nil =>
          obtain ⟨rfl, -⟩ := List.cons.inj hsplit
          exact .inl hfile
        | cons p before =>
          obtain ⟨rfl, hrest⟩ := List.cons.inj hsplit
          exact .inr ⟨hbefore path (by simp), before, path', rest', hrest, hfile,
            fun q hq => hbefore q (by simp [hq])⟩
      · rintro (hfile | ⟨hpath, before, path', rest', rfl, hfile, hbefore⟩)
        · exact ⟨[], path, rest, rfl, hfile, by simp⟩
        · refine ⟨path :: before, path', rest', rfl, hfile, ?_⟩
          intro p hp
          rcases List.mem_cons.mp hp with rfl | hp
          · exact hpath
          · exact hbefore p hp
    rw [hlater, ← ih]
    cases hlook : s.look path <;> simp [firstFile?, hlook]

def variableLines (s : Surroundings) : List EnvFile.Logical :=
  match s.variables? with
  | some body => EnvFile.linesOf body
  | none => []

def fileVariables (s : Surroundings) : Environment := EnvFile.assigned ⟨s.env, []⟩ s.variableLines

theorem withVariableFile_eq (s : Surroundings) :
    s.withVariableFile = { s with env := s.env.fill s.fileVariables } := by
  cases hbody : s.variables? with
  | some body =>
    simp only [withVariableFile, fileVariables, variableLines, hbody, EnvFile.load_eq_fill]
  | none =>
    simp only [withVariableFile, fileVariables, variableLines, hbody]
    rfl

/-- The surroundings as they are read. Without a path for the configuration file, the file of
variables counts. -/
def seen (s : Surroundings) : Option String → Surroundings
  | some _ => s
  | none => s.withVariableFile

def fileAt (s : Surroundings) : Option String → String
  | some p => p
  | none => s.withVariableFile.path

/-- What is said of a setting outside the configuration file: by the environment, else by the file
of variables, where that counts. -/
def told? (s : Surroundings) (path : Option String) (k : Config.Key) : Option Setting :=
  match path with
  | some _ => s.env.told? k
  | none => (s.env.told? k).or (s.fileVariables.told? k)

theorem told?_seen (s : Surroundings) (path : Option String) :
    (s.seen path).env.told? = s.told? path := by
  funext k
  cases path with
  | some p => rfl
  | none =>
    rw [seen, withVariableFile_eq, told?, Environment.told?,
      Environment.find?_fill fun n => Setting.lower n == k.variableName, Option.map_or]
    rfl

/-- The settings of a file do not depend on the environment. -/
theorem fileSettings?_congr {s s' : Surroundings} (h : s.look = s'.look) (r : Readers)
    (path : String) : s.fileSettings? r path = s'.fileSettings? r path := by
  have hbeside (formats : List (String × Format)) :
      s.beside? path formats = s'.beside? path formats := by
    induction formats with
    | nil => rfl
    | cons f rest ih => simp only [beside?, h, ih]
  simp only [fileSettings?, file?, h, hbeside]

theorem look_seen (s : Surroundings) (path : Option String) : (s.seen path).look = s.look := by
  cases path with
  | some p => rfl
  | none => rw [seen, withVariableFile_eq]

/-- The variables each name one setting, and the file is plain. -/
structure Orderly (s : Surroundings) (r : Readers) (path : Option String) : Prop where
  env : (s.seen path).env.Documented
  file : ∀ fields, s.fileSettings? r (s.fileAt path) = some fields → Config.PlainFile fields

instance (s : Surroundings) (r : Readers) (path : Option String) : Decidable (s.Orderly r path) :=
  decidable_of_iff
    ((s.seen path).env.Documented ∧
      ∀ fields ∈ s.fileSettings? r (s.fileAt path), Config.PlainFile fields)
    ⟨fun h => ⟨h.1, h.2⟩, fun h => ⟨h.env, h.file⟩⟩

/-- The same files, and the same variables one name apart. -/
structure SameBut (name : String) (s s' : Surroundings) : Prop where
  look : s.look = s'.look
  cwd : s.cwd = s'.cwd
  env : s.env.EqOff name s'.env

end Surroundings

namespace Config

theorem loadFrom_eq_ok (s : Surroundings) (r : Readers) (path : String) (c : Config)
    (h : loadFrom s path r = .ok c) :
    (∃ fields, s.fileSettings? r path = some fields ∧
      Reading.lenient.config?
        (.table (Setting.overlay (Setting.overlay [] fields) s.env.settings)) = some c) ∧
      c.fault? Url.isFetchable = none := by
  unfold loadFrom at h
  split at h
  · cases h
  · rename_i c' hread
    split at h
    · cases h
    · rename_i hfault
      obtain rfl := Except.ok.inj h
      obtain ⟨all, hall, hconfig⟩ := Option.bind_eq_some_iff.mp hread
      obtain ⟨fields, hfields, rfl⟩ := Option.map_eq_some_iff.mp hall
      exact ⟨⟨fields, hfields, hconfig⟩, hfault⟩

/-- What two configurations hold is the same, one setting apart. -/
def SameBut (k : Key) (c c' : Config) : Prop :=
  (∀ other : Key, other ≠ k → other.value c = other.value c') ∧ c.filters = c'.filters

/-- Settings that are told alike are the same. -/
theorem Layered.same {c c' : Config} {told told' : Key → Option Setting}
    {fields : List (String × Setting)} (h : c.Layered told fields) (h' : c'.Layered told' fields)
    (k : Key) (htold : ∀ other : Key, other ≠ k → told other = told' other) : SameBut k c c' := by
  refine ⟨fun other hother => ?_, ?_⟩
  · have hholds := h.holds other
    have hholds' := h'.holds other
    rw [htold other hother] at hholds
    exact Option.some.inj (hholds.symm.trans hholds')
  · obtain ⟨items, hitems, hlists⟩ := h.lists
    obtain ⟨items', hitems', hlists'⟩ := h'.lists
    obtain rfl := Option.some.inj (hitems.symm.trans hitems')
    refine List.right_unique_forall₂' ?_ hlists hlists'
    intro v f f' hf hf'
    exact Option.some.inj (hf.symm.trans hf')

namespace Key

theorem eq_underscore_of_toLower (c : Char) (h : c.toLower = '_') : c = '_' := by
  unfold Char.toLower at h
  split at h
  · rename_i hupper
    -- no capital letter becomes an underscore
    have hsum := congrArg (fun x : Char => x.val.toNat) h
    have hlow := UInt32.le_iff_toNat_le.mp hupper.1
    have hhigh := UInt32.le_iff_toNat_le.mp hupper.2
    simp only [UInt32.toNat_add] at hsum
    change (c.val.toNat + 32) % 2 ^ 32 = 95 at hsum
    change 65 ≤ c.val.toNat at hlow
    change c.val.toNat ≤ 90 at hhigh
    omega
  · exact h

/-- A variable's name has an underscore, so it needs its braces in a reference. -/
theorem exists_underscore (k : Key) (name : String) (h : Setting.lower name = k.variableName) :
    ∃ c ∈ name.toList, Characters.isAlphanumeric c = false := by
  have hmem : '_' ∈ (Setting.lower name).toList := by
    rw [h]
    cases k <;> decide
  rw [Setting.lower, String.toList_ofList] at hmem
  obtain ⟨c, hc, hlower⟩ := List.mem_map.mp hmem
  obtain rfl := eq_underscore_of_toLower c hlower
  exact ⟨'_', hc, by decide⟩

theorem ne_pathVariable (k : Key) (name : String) (h : Setting.lower name = k.variableName) :
    name ≠ Surroundings.pathVariable := by
  rintro rfl
  have hpath := k.path?_of_lower _ h
  have hnone : Environment.path? Surroundings.pathVariable = none := by decide
  rw [hnone] at hpath
  cases hpath

end Key

end Config

namespace Surroundings

variable {name : String} {s s' : Surroundings} {k : Config.Key}

theorem SameBut.variables? (h : s.SameBut name s') : s.variables? = s'.variables? := by
  have hfirst (paths : List String) : s.firstFile? paths = s'.firstFile? paths := by
    induction paths with
    | nil => rfl
    | cons path rest ih => simp only [firstFile?, h.look, ih]
  rw [Surroundings.variables?, Surroundings.variables?, h.cwd, hfirst]

theorem SameBut.variableLines (h : s.SameBut name s') : s.variableLines = s'.variableLines := by
  unfold Surroundings.variableLines
  rw [h.variables?]

theorem SameBut.fileVariables (h : s.SameBut name s') (hname : Setting.lower name = k.variableName)
    (hfree : EnvFile.Unreferenced name s.variableLines) : s.fileVariables = s'.fileVariables := by
  have hknown : EnvFile.Known.EqOff name ⟨s.env, []⟩ ⟨s'.env, []⟩ := ⟨h.env, rfl⟩
  rw [Surroundings.fileVariables, Surroundings.fileVariables, ← h.variableLines]
  exact EnvFile.assigned_congr (k.exists_underscore name hname) hknown s.variableLines hfree

theorem SameBut.withVariableFile (h : s.SameBut name s')
    (hname : Setting.lower name = k.variableName)
    (hfree : EnvFile.Unreferenced name s.variableLines) :
    s.withVariableFile.SameBut name s'.withVariableFile := by
  rw [withVariableFile_eq, withVariableFile_eq, h.fileVariables hname hfree]
  exact ⟨h.look, h.cwd, h.env.fill _⟩

/-- A variable says nothing of other settings. -/
theorem told?_of_eqOff {env env' : Environment} (h : env.EqOff name env')
    (hname : Setting.lower name = k.variableName) (other : Config.Key) (hother : other ≠ k) :
    env.told? other = env'.told? other := by
  have hne : (Setting.lower name == other.variableName) = false := by
    rw [hname]
    exact beq_false_of_ne fun heq => hother (Config.Key.variableName_inj k other heq).symm
  rw [Environment.told?, Environment.told?,
    h.find? (fun n => Setting.lower n == other.variableName) hne]

/-- Which file is read, and what is told of other settings, does not depend on a variable. -/
theorem SameBut.told? (h : s.SameBut name s') (hname : Setting.lower name = k.variableName)
    (path : Option String) (hfree : path = none → EnvFile.Unreferenced name s.variableLines) :
    s.fileAt path = s'.fileAt path ∧
      ∀ other : Config.Key, other ≠ k → s.told? path other = s'.told? path other := by
  cases path with
  | some p => exact ⟨rfl, told?_of_eqOff h.env hname⟩
  | none =>
    have hvariables := h.fileVariables hname (hfree rfl)
    have hpath := (h.withVariableFile hname (hfree rfl)).env.get? pathVariable
      (k.ne_pathVariable name hname)
    refine ⟨by rw [fileAt, fileAt, Surroundings.path, Surroundings.path, hpath], ?_⟩
    intro other hother
    rw [Surroundings.told?, Surroundings.told?, told?_of_eqOff h.env hname other hother,
      hvariables]

end Surroundings

namespace Service

theorem config?_eq (s : Surroundings) (path : Option String) (r : Readers) :
    config? s path r = Config.loadFrom (s.seen path) (s.fileAt path) r := by
  cases path <;> rfl

theorem layered (s : Surroundings) (r : Readers) (path : Option String) (c : Config)
    (h : config? s path r = .ok c) (hs : s.Orderly r path) :
    ∃ fields, s.fileSettings? r (s.fileAt path) = some fields ∧
      c.Layered (s.told? path) fields := by
  rw [config?_eq] at h
  obtain ⟨⟨fields, hfields, hread⟩, -⟩ := Config.loadFrom_eq_ok _ _ _ c h
  rw [Surroundings.fileSettings?_congr (s.look_seen path)] at hfields
  refine ⟨fields, hfields, ?_⟩
  rw [← s.told?_seen path]
  exact Config.layers_of_config? c fields _ (hs.file fields hfields) hs.env hread

/-- A configuration that is loaded, from a given file or from where the program looks by itself, is
valid. Where the variables each name one setting and the file is plain, every setting comes from its
variable, else from the file of variables where that counts, else from the configuration file, else
it is the standard value, and the lists are those of the file in their order. And where one such
variable is set, changed or removed, no other setting changes, unless the file of variables refers
to that variable. -/
theorem config_layers (s : Surroundings) (r : Readers) (path : Option String) (c : Config)
    (h : config? s path r = .ok c) :
    c.Valid Url.isFetchable ∧
      (s.Orderly r path →
        (∃ fields, s.fileSettings? r (s.fileAt path) = some fields ∧
          c.Layered (s.told? path) fields) ∧
        ∀ (k : Config.Key) (name : String) (s' : Surroundings) (c' : Config),
          Setting.lower name = k.variableName → s.SameBut name s' → s'.Orderly r path →
          (path = none → EnvFile.Unreferenced name s.variableLines) →
          config? s' path r = .ok c' → Config.SameBut k c c') := by
  refine ⟨?_, fun hs => ⟨layered s r path c h hs, ?_⟩⟩
  · rw [config?_eq] at h
    exact (c.fault?_eq_none_iff Url.isFetchable).mp (Config.loadFrom_eq_ok _ _ _ c h).2
  · intro k name s' c' hname hsame hs' hfree h'
    obtain ⟨fields, hfields, hlayered⟩ := layered s r path c h hs
    obtain ⟨fields', hfields', hlayered'⟩ := layered s' r path c' h' hs'
    obtain ⟨hfile, htold⟩ := hsame.told? hname path hfree
    rw [← hfile, ← Surroundings.fileSettings?_congr hsame.look] at hfields'
    obtain rfl := Option.some.inj (hfields.symm.trans hfields')
    exact hlayered.same hlayered' k htold

end Service

/-! ### Two small surroundings -/

/-- Files with a text each and nothing else, seen from a directory. -/
def Surroundings.ofTexts (dir : Path) (texts : List (String × String)) (env : Environment) :
    Surroundings where
  look path :=
    match texts.find? fun f => f.1 == path with
    | some f => .file (Utf8.encode f.2.toList)
    | none => .nothing
  env := env
  cwd := ⟨dir⟩

/-- A file of variables that takes the directory's name into the extension. -/
def Surroundings.referring : Environment → Surroundings :=
  .ofTexts []
    [("/.env", "FILTERSYNC__SYNC__EXTENSION=x$\x7bFILTERSYNC__SYNC__FILTER_DIR\x7d\n")]

/-- A configuration file, and above the working directory a file of variables with one setting of it
and one other. -/
def Surroundings.stacked : Environment → Surroundings :=
  .ofTexts ["srv", "app"]
    [("/srv/.env", "FILTERSYNC__SYNC__EXTENSION=x\nFILTERSYNC__SYNC__FILTER_DIR=other\n"),
      ("config/filtersync.toml",
        "[sync]\nextension = \"lst\"\nupdate_interval_hours = 6\n" ++
          "[[filters]]\nid = 1\nname = \"ads\"\nurl = \"http://a.example/\"\n")]

namespace Service

/-- With a reference in the file of variables, a variable changes another setting than its own. -/
theorem config_refers :
    ¬ ∀ (k : Config.Key) (name : String) (s s' : Surroundings) (r : Readers) (path : Option String)
      (c c' : Config), Setting.lower name = k.variableName → s.SameBut name s' →
      s.Orderly r path → s'.Orderly r path → config? s path r = .ok c →
      config? s' path r = .ok c' → Config.SameBut k c c' := by
  intro h
  have hunset : config? (.referring []) none =
      .ok { Config.standard with sync := ⟨true, "data/filters", 24, "x"⟩ } := by
    decide +kernel
  have hset : config? (.referring [("FILTERSYNC__SYNC__FILTER_DIR", "lists")]) none =
      .ok { Config.standard with sync := ⟨true, "lists", 24, "xlists"⟩ } := by
    decide +kernel
  have hsame : (Surroundings.referring []).SameBut "FILTERSYNC__SYNC__FILTER_DIR"
      (.referring [("FILTERSYNC__SYNC__FILTER_DIR", "lists")]) :=
    ⟨rfl, rfl, by decide +kernel⟩
  have hsettings := h .dir "FILTERSYNC__SYNC__FILTER_DIR" _ _ .plain none _ _ (by decide) hsame
    (by decide +kernel) (by decide +kernel) hunset hset
  have hextension : "x" = "xlists" := hsettings.1 .extension (by decide)
  exact absurd hextension (by decide)

/-- The directory's variable is set, and then it is not: it comes from the environment, else from
the file of variables. The extension comes from that file, the interval from the configuration file,
and whether lists are refreshed at all from neither. -/
theorem config_layers_stacked :
    ∃ c c' : Config,
      config? (.stacked [("FILTERSYNC__SYNC__FILTER_DIR", "lists")]) none = .ok c ∧
      config? (.stacked []) none = .ok c' ∧
      c.sync = ⟨true, "lists", 6, "x"⟩ ∧ c'.sync = ⟨true, "other", 6, "x"⟩ ∧
      c.Valid Url.isFetchable ∧ Config.SameBut .dir c c' := by
  have hset : config? (.stacked [("FILTERSYNC__SYNC__FILTER_DIR", "lists")]) none =
      .ok { Config.standard with
        sync := ⟨true, "lists", 6, "x"⟩
        filters := [⟨1, true, "ads", "http://a.example/"⟩] } := by
    decide +kernel
  have hunset : config? (.stacked []) none =
      .ok { Config.standard with
        sync := ⟨true, "other", 6, "x"⟩
        filters := [⟨1, true, "ads", "http://a.example/"⟩] } := by
    decide +kernel
  have hsame : (Surroundings.stacked [("FILTERSYNC__SYNC__FILTER_DIR", "lists")]).SameBut
      "FILTERSYNC__SYNC__FILTER_DIR" (.stacked []) := ⟨rfl, rfl, by decide⟩
  obtain ⟨hvalid, hlayers⟩ := config_layers _ .plain none _ hset
  obtain ⟨-, hseparate⟩ := hlayers (by decide +kernel)
  refine ⟨_, _, hset, hunset, rfl, rfl, hvalid, ?_⟩
  exact hseparate .dir "FILTERSYNC__SYNC__FILTER_DIR" _ _ (by decide) hsame (by decide +kernel)
    (fun _ => by decide +kernel) hunset

end Service
end ListKeeper
