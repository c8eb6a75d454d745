/-! Cutting a list at separators. Main statements: `pieces_append_sep`, by which cutting respects
concatenation at a separator, and `pieces_of_none`, by which a list without one is a single piece.
-/
namespace ListKeeper

variable {α : Type}

/-- Puts one element in front of a list that is already cut. -/
def consPiece (sep : α → Bool) (a : α) (ps : List (List α)) : List (List α) :=
  if sep a then [] :: ps
  else match ps with
    | [] => [[a]]
    | p :: rest => (a :: p) :: rest

/-- What stands between the separators of a list, so one piece more than there are separators. -/
def pieces (sep : α → Bool) (xs : List α) : List (List α) := xs.foldr (consPiece sep) [[]]

theorem pieces_nil (sep : α → Bool) : pieces sep [] = [[]] := rfl

theorem pieces_cons (sep : α → Bool) (a : α) (xs : List α) :
    pieces sep (a :: xs) = consPiece sep a (pieces sep xs) := rfl

theorem consPiece_ne_nil (sep : α → Bool) (a : α) (ps : List (List α)) :
    consPiece sep a ps ≠ [] := by
  unfold consPiece
  split
  · simp
  · split <;> simp

theorem pieces_ne_nil (sep : α → Bool) (xs : List α) : pieces sep xs ≠ [] := by
  cases xs with
  | nil => simp [pieces_nil]
  | cons a xs => exact consPiece_ne_nil sep a _

theorem pieces_sep (sep : α → Bool) (a : α) (xs : List α) (h : sep a = true) :
    pieces sep (a :: xs) = [] :: pieces sep xs := by
  simp [pieces_cons, consPiece, h]

theorem pieces_append_sep (sep : α → Bool) (xs ys : List α) (a : α) (h : sep a = true) :
    pieces sep (xs ++ a :: ys) = pieces sep xs ++ pieces sep ys := by
  induction xs with
  | nil => simp [pieces_sep sep a ys h, pieces_nil]
  | cons x xs ih =>
    rw [List.cons_append, pieces_cons, ih, pieces_cons]
    have hne := pieces_ne_nil sep xs
    unfold consPiece
    split
    · rfl
    · cases hp : pieces sep xs with
      | nil => exact absurd hp hne
      | cons p rest => rfl

theorem pieces_of_none (sep : α → Bool) (xs : List α) (h : ∀ x ∈ xs, sep x = false) :
    pieces sep xs = [xs] := by
  induction xs with
  | nil => rfl
  | cons x xs ih =>
    have hx : sep x = false := h x (by simp)
    rw [pieces_cons, ih fun y hy => h y (by simp [hy])]
    simp [consPiece, hx]

/-- What is put behind a list and has no separator goes to the last piece. -/
theorem pieces_append_of_none (sep : α → Bool) (xs ys : List α) (h : ∀ y ∈ ys, sep y = false) :
    ∃ init last, pieces sep xs = init ++ [last] ∧ pieces sep (xs ++ ys) = init ++ [last ++ ys] := by
  induction xs with
  | nil => exact ⟨[], [], rfl, pieces_of_none sep ys h⟩
  | cons x xs ih =>
    obtain ⟨init, last, hxs, hall⟩ := ih
    rw [List.cons_append, pieces_cons, pieces_cons, hxs, hall]
    unfold consPiece
    split
    · exact ⟨[] :: init, last, rfl, rfl⟩
    · cases init with
      | nil => exact ⟨[], x :: last, rfl, rfl⟩
      | cons p rest => exact ⟨(x :: p) :: rest, last, rfl, rfl⟩

end ListKeeper
