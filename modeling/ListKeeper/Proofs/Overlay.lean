import Mathlib.Data.List.Nodup
import Mathlib.Data.List.TakeDrop
import Mathlib.Data.List.TakeWhile
import ListKeeper.Settings.Setting

/-! One source of settings over another. What a key holds in the end is what the later source says
of it, and where that says nothing, what the earlier one does; a reading that asks for no table
cannot tell how the two were put together. Main statements: `Setting.get?_mergeFields` for fields
merged into fields, and `Setting.overlay_eq_mergeFields` for a source whose keys are plain. -/
namespace ListKeeper.Setting

variable {fs gs : List (String × Setting)}

/-! ### Keys and their values -/

theorem get?_cons (k key : String) (v : Setting) :
    get? ((k, v) :: fs) key = if k = key then some v else get? fs key := by
  by_cases h : k = key
  · simp [get?, h]
  · simp [get?, h]

theorem get?_append (fs gs : List (String × Setting)) (key : String) :
    get? (fs ++ gs) key = (get? fs key).or (get? gs key) := by
  rw [get?, List.find?_append, Option.map_or]
  rfl

theorem get?_eq_none_iff (fs : List (String × Setting)) (key : String) :
    get? fs key = none ↔ ∀ f ∈ fs, f.1 ≠ key := by
  simp [get?]

/-- A new value for a key that is there. -/
theorem get?_replaced (fs : List (String × Setting)) (k : String) (v : Setting) (key : String) :
    get? (fs.map fun f => if f.1 == k then (k, v) else f) key =
      if k = key then (get? fs key).map fun _ => v else get? fs key := by
  induction fs with
  | nil => simp [get?]
  | cons f fs ih =>
    obtain ⟨l, w⟩ := f
    rw [List.map_cons, get?_cons l key w]
    by_cases hl : l = k
    · subst hl
      rw [if_pos (beq_self_eq_true l), get?_cons, ih]
      by_cases hkey : l = key <;> simp [hkey]
    · rw [if_neg (by simpa using hl), get?_cons, ih]
      by_cases hkey : k = key
      · have hne : l ≠ key := hkey ▸ hl
        simp [hkey, hne]
      · simp [hkey]

theorem get?_put (fs : List (String × Setting)) (k : String) (v : Setting) (key : String) :
    get? (put fs k v) key = if k = key then some v else get? fs key := by
  unfold put
  split
  · rename_i hany
    rw [get?_replaced]
    by_cases hkey : k = key
    · obtain ⟨f, hf, hfk⟩ := List.any_eq_true.mp hany
      have hsome : get? fs key ≠ none := fun hnone =>
        (get?_eq_none_iff fs key).mp hnone f hf ((eq_of_beq hfk).trans hkey)
      obtain ⟨w, hw⟩ := Option.ne_none_iff_exists'.mp hsome
      simp [hkey, hw]
    · simp [hkey]
  · rename_i hany
    rw [get?_append, get?_cons]
    by_cases hkey : k = key
    · have hnone : get? fs key = none := by
        refine (get?_eq_none_iff fs key).mpr fun f hf hfk => hany ?_
        exact List.any_eq_true.mpr ⟨f, hf, beq_iff_eq.mpr (hfk.trans hkey.symm)⟩
      simp [hkey, hnone]
    · simp [hkey, get?]

theorem mem_put (f : String × Setting) (k : String) (v : Setting) (h : f ∈ put fs k v) :
    f = (k, v) ∨ f ∈ fs := by
  unfold put at h
  split at h
  · obtain ⟨g, hg, rfl⟩ := List.mem_map.mp h
    split
    · exact .inl rfl
    · exact .inr hg
  · rcases List.mem_append.mp h with h | h
    · exact .inr h
    · exact .inl (List.mem_singleton.mp h)

theorem keys_nodup_put (h : (fs.map Prod.fst).Nodup) (k : String) (v : Setting) :
    ((put fs k v).map Prod.fst).Nodup := by
  unfold put
  split
  · have hkeys : (fs.map fun f => if f.1 == k then (k, v) else f).map Prod.fst =
        fs.map Prod.fst := by
      rw [List.map_map]
      refine List.map_congr_left fun f _ => ?_
      by_cases hf : f.1 = k <;> simp [hf]
    rwa [hkeys]
  · rename_i hany
    rw [List.map_append, List.nodup_append]
    refine ⟨h, List.nodup_singleton _, ?_⟩
    rintro x hx y hy rfl
    obtain ⟨f, hf, hfk⟩ := List.mem_map.mp hx
    have hxk : x = k := List.mem_singleton.mp hy
    exact hany (List.any_eq_true.mpr ⟨f, hf, beq_iff_eq.mpr (hfk.trans hxk)⟩)

/-! ### Fields merged into fields -/

/-- A reading that asks for no table does not see what a value was merged into. -/
def Untabled {β : Type} (read : Setting → β) : Prop := ∀ old v, read (merge old v) = read v

theorem merge_of_not_table (old v : Setting) (h : ∀ fields, v ≠ .table fields) :
    merge old v = v := by
  cases v with
  | table fields => exact absurd rfl (h fields)
  | _ => rw [merge]; simp

theorem untabled_of_table {β : Type} (read : Setting → β) (other : β)
    (h : ∀ fields, read (.table fields) = other) : Untabled read := by
  intro old v
  cases v with
  | table fields => rw [merge, h, h]
  | _ => rw [merge_of_not_table _ _ (by simp)]

def last? (fs : List (String × Setting)) (key : String) : Option Setting := get? fs.reverse key

theorem last?_cons (k key : String) (v : Setting) :
    last? ((k, v) :: fs) key = (last? fs key).or (if k = key then some v else none) := by
  rw [last?, List.reverse_cons, get?_append, get?_cons]
  rfl

theorem last?_append (fs gs : List (String × Setting)) (key : String) :
    last? (fs ++ gs) key = (last? gs key).or (last? fs key) := by
  rw [last?, List.reverse_append, get?_append]
  rfl

theorem get?_mergeFields {β : Type} (read : Setting → β) (h : Untabled read)
    (base source : List (String × Setting)) (key : String) :
    (get? (mergeFields base source) key).map read =
      ((last? source key).or (get? base key)).map read := by
  induction source generalizing base with
  | nil => rfl
  | cons f rest ih =>
    obtain ⟨k, v⟩ := f
    rw [mergeFields, ih, get?_put, last?_cons, Option.or_assoc, Option.map_or, Option.map_or]
    by_cases hk : k = key
    · simp [hk, h _ v]
    · simp [hk]

def PlainKey (key : String) : Prop := key ≠ "" ∧ key.toList.all isKeyChar = true

instance (key : String) : Decidable (PlainKey key) :=
  inferInstanceAs (Decidable (key ≠ "" ∧ key.toList.all isKeyChar = true))

def isTable : Setting → Bool
  | .table _ => true
  | _ => false

theorem isTable_iff (v : Setting) : v.isTable = true ↔ ∃ fields, v = .table fields := by
  cases v <;> simp [isTable]

theorem path_of_plain (key : String) (h : PlainKey key) : path key = (key, []) := by
  have hspan : key.toList.span isKeyChar = (key.toList, []) := by
    rw [List.span_eq_takeWhile_dropWhile]
    have hall := List.all_eq_true.mp h.2
    rw [List.takeWhile_eq_self_iff.mpr hall, List.dropWhile_eq_nil_iff.mpr hall]
  have hne : key.toList.isEmpty = false := by simpa using h.1
  simp only [path, hspan, hne]
  simp [readSteps?]

/-- A source with plain keys is laid over another field by field. -/
theorem overlay_eq_mergeFields (base source : List (String × Setting))
    (h : ∀ f ∈ source, PlainKey f.1) : overlay base source = mergeFields base source := by
  induction source generalizing base with
  | nil => rfl
  | cons f rest ih =>
    obtain ⟨k, v⟩ := f
    have hstep : assign base k v = put base k (merge ((get? base k).getD .nil) v) := by
      simp [assign, path_of_plain k (h (k, v) (by simp)), assignSteps]
    rw [mergeFields, ← hstep, ← ih _ fun f hf => h f (by simp [hf])]
    rfl

end ListKeeper.Setting
