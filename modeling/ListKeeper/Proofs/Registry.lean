import Mathlib.Data.List.Nodup
import ListKeeper.Registry

/-! The operations of the registry, told by the place at which an entry stands. Each of them changes
at most one entry, the first that fits, and leaves those before and behind it alone. -/
namespace ListKeeper.Registry

section

variable {α : Type}

theorem changeFirst_eq_some (p : α → Bool) (f : α → α) (xs ys : List α) (x : α)
    (h : changeFirst p f xs = some (x, ys)) :
    ∃ pre post, xs = pre ++ x :: post ∧ ys = pre ++ f x :: post ∧ p x = true ∧
      ∀ y ∈ pre, p y = false := by
  induction xs generalizing ys with
  | nil => cases h
  | cons a xs ih =>
    unfold changeFirst at h
    split at h
    · rename_i ha
      obtain ⟨rfl, rfl⟩ := Prod.mk.inj (Option.some.inj h)
      exact ⟨[], xs, rfl, rfl, ha, by simp⟩
    -- the entry at the head does not fit, so it joins those before the changed one
    · rename_i ha
      obtain ⟨⟨x', ys'⟩, hrest, heq⟩ := Option.map_eq_some_iff.mp h
      simp only [Prod.mk.injEq] at heq
      obtain ⟨rfl, rfl⟩ := heq
      obtain ⟨pre, post, rfl, rfl, hx, hpre⟩ := ih ys' hrest
      refine ⟨a :: pre, post, rfl, rfl, hx, ?_⟩
      intro y hy
      rcases List.mem_cons.mp hy with rfl | hy
      · simpa using ha
      · exact hpre y hy

theorem changeFirst_eq_none (p : α → Bool) (f : α → α) (xs : List α)
    (h : changeFirst p f xs = none) : ∀ y ∈ xs, p y = false := by
  induction xs with
  | nil => simp
  | cons a xs ih =>
    unfold changeFirst at h
    split at h
    · cases h
    · rename_i ha
      intro y hy
      rcases List.mem_cons.mp hy with rfl | hy
      · simpa using ha
      · exact ih (Option.map_eq_none_iff.mp h) y hy

end

section

variable {α : Type} {pre post : List α} {x z : α}

/-- Where one element is replaced, the others stay. -/
theorem eq_or_mem_of_replaced (y : α) (h : z ∈ pre ++ x :: post) :
    z = x ∨ z ∈ pre ++ y :: post := by
  rcases List.mem_append.mp h with h | h
  · exact .inr (List.mem_append_left _ h)
  · rcases List.mem_cons.mp h with rfl | h
    · exact .inl rfl
    · exact .inr (List.mem_append_right _ (List.mem_cons_of_mem y h))

/-- Where one element is taken out, the others stay. -/
theorem eq_or_mem_of_removed (h : z ∈ pre ++ x :: post) : z = x ∨ z ∈ pre ++ post := by
  rcases List.mem_append.mp h with h | h
  · exact .inr (List.mem_append_left _ h)
  · rcases List.mem_cons.mp h with rfl | h
    · exact .inl rfl
    · exact .inr (List.mem_append_right _ h)

theorem mem_of_removed (x : α) (h : z ∈ pre ++ post) : z ∈ pre ++ x :: post :=
  ((List.sublist_cons_self x post).append_left pre).subset h

end

/-- Where ids differ, that of one element is not the id of any other. -/
theorem id_ne_of_split {pre post : List Entry} {x : Entry}
    (hids : ((pre ++ x :: post).map (·.id)).Nodup) (e : Entry) (he : e ∈ pre ∨ e ∈ post) :
    e.id ≠ x.id := by
  simp only [List.map_append, List.map_cons, List.nodup_middle, List.nodup_cons] at hids
  intro hid
  apply hids.1
  rw [← hid, ← List.map_append]
  apply List.mem_map_of_mem
  simpa using he

theorem selectDue_eq_some (r r' : Registry) (now : Instant) (period : Span) (e : Entry)
    (h : r.selectDue now period = some (e, r')) :
    ∃ pre x post, r.entries = pre ++ x :: post ∧ r'.entries = pre ++ e :: post ∧
      e = x.reserve now period ∧ x.isDue now = true ∧ ∀ y ∈ pre, y.isDue now = false := by
  obtain ⟨⟨x, es⟩, hx, heq⟩ := Option.map_eq_some_iff.mp h
  obtain ⟨rfl, rfl⟩ := Prod.mk.inj heq
  obtain ⟨pre, post, hentries, rfl, hdue, hpre⟩ := changeFirst_eq_some _ _ _ _ _ hx
  exact ⟨pre, x, post, hentries, rfl, rfl, hdue, hpre⟩

theorem selectDue_eq_none (r : Registry) (now : Instant) (period : Span)
    (h : r.selectDue now period = none) : ∀ e ∈ r.entries, e.isDue now = false :=
  changeFirst_eq_none _ _ _ (Option.map_eq_none_iff.mp h)

theorem stage_cases (r : Registry) (id stagedId count : UInt64) (now : Instant) :
    (r.stage id stagedId count now = (.missing, r) ∧ ∀ e ∈ r.entries, e.id ≠ id) ∨
      ∃ pre x post, r.stage id stagedId count now =
          (.staged x.pending, ⟨pre ++ x.staged stagedId count now :: post⟩) ∧
        r.entries = pre ++ x :: post ∧ x.id = id := by
  unfold stage
  split
  · rename_i hnone
    refine .inl ⟨rfl, fun e he => ?_⟩
    simpa using changeFirst_eq_none _ _ _ hnone e he
  · rename_i x es hsome
    obtain ⟨pre, post, hentries, rfl, hx, -⟩ := changeFirst_eq_some _ _ _ _ _ hsome
    exact .inr ⟨pre, x, post, rfl, hentries, by simpa using hx⟩

theorem clearPending_cases (r : Registry) (id stagedId : UInt64) :
    ((r.clearPending id stagedId).2 = r ∧ ∀ e ∈ r.entries, e.id = id → e.pending ≠ some stagedId) ∨
      ∃ pre x post, (r.clearPending id stagedId).2 = ⟨pre ++ x.settled :: post⟩ ∧
        r.entries = pre ++ x :: post ∧ x.id = id ∧ x.pending = some stagedId := by
  unfold clearPending
  split
  · rename_i hnone
    refine .inl ⟨rfl, fun e he => ?_⟩
    simpa using changeFirst_eq_none _ _ _ hnone e he
  · rename_i x es hsome
    obtain ⟨pre, post, hentries, rfl, hx, -⟩ := changeFirst_eq_some _ _ _ _ _ hsome
    have hboth : x.id = id ∧ x.pending = some stagedId := by simpa using hx
    exact .inr ⟨pre, x, post, rfl, hentries, hboth.1, hboth.2⟩

theorem taken_eq_false_iff (r : Registry) (name url : String) :
    r.taken name url = false ↔ ∀ e ∈ r.entries, e.name ≠ name ∧ e.url ≠ url := by
  simp [taken]

theorem taken_eq_false (r : Registry) (name url : String) (h : r.taken name url = false) :
    ∀ e ∈ r.entries, e.name ≠ name ∧ e.url ≠ url := (r.taken_eq_false_iff name url).mp h

/-- What sets an entry apart from all others leads to it. -/
theorem find?_of_mem {α : Type} [DecidableEq α] (r : Registry) (key : Entry → α)
    (h : (r.entries.map key).Nodup) (x : Entry) (hx : x ∈ r.entries) :
    r.entries.find? (fun e => key e == key x) = some x := by
  cases hfind : r.entries.find? fun e => key e == key x with
  | none =>
    have hno := List.find?_eq_none.mp hfind x hx
    simp at hno
  | some y =>
    have hy : y ∈ r.entries := List.mem_of_find?_eq_some hfind
    have hkey : key y = key x := by simpa using List.find?_some hfind
    rw [List.inj_on_of_nodup_map h hy hx hkey]

theorem getById?_isSome_iff (r : Registry) (id : UInt64) :
    (∃ e, r.getById? id = some e) ↔ ∃ e ∈ r.entries, e.id = id := by
  rw [← Option.isSome_iff_exists, getById?, List.find?_isSome]
  simp

theorem mem_staged (r : Registry) (id stagedId : UInt64) :
    (id, stagedId) ∈ r.staged ↔ ∃ e ∈ r.entries, e.id = id ∧ e.pending = some stagedId := by
  simp only [staged, List.mem_filterMap, Option.map_eq_some_iff, Prod.mk.injEq]
  constructor
  · rintro ⟨e, he, p, hp, rfl, rfl⟩
    exact ⟨e, he, rfl, hp⟩
  · rintro ⟨e, he, rfl, hp⟩
    exact ⟨e, he, stagedId, hp, rfl, rfl⟩

end ListKeeper.Registry
