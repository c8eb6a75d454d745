import Mathlib.Data.Nat.Digits.Defs
import ListKeeper.Store

/-! The names of the list files. Ids are written in decimal digits, so the first dot of a name ends
the id: different ids have different files and different temporary files, and no temporary file is
ever the file of an id. -/
namespace ListKeeper

/-- A place in the store's directory: the file of an id, or the temporary one beside it. -/
inductive Slot
  | file (id : UInt64)
  | temp (id : UInt64)
  deriving DecidableEq

namespace Slot

def id : Slot → UInt64
  | file n => n
  | temp n => n

def name (s : Store) : Slot → String
  | file n => s.fileName n
  | temp n => s.tempName n

def path (s : Store) (x : Slot) : String := joinPath s.dir (x.name s)

theorem path_file (s : Store) (id : UInt64) : (file id).path s = s.pathFor id := rfl

theorem path_temp (s : Store) (id : UInt64) : (temp id).path s = s.tempPathFor id := rfl

end Slot

namespace Store

def digits (id : UInt64) : List Char := Nat.toDigits 10 id.toNat

theorem digits_injective (a b : UInt64) (h : digits a = digits b) : a = b := by
  -- reading the digits gives the number back
  have hread := congrArg (fun ds => Nat.ofDigitChars 10 ds 0) h
  simp only [digits, Nat.ofDigitChars_ten_toDigits] at hread
  exact UInt64.toNat_inj.mp hread

/-- What is no digit does not stand in an id. -/
theorem ne_of_mem_digits (id : UInt64) (c x : Char) (hx : x.isDigit = false) (hc : c ∈ digits id) :
    c ≠ x := by
  have hd : c.isDigit = true := Nat.isDigit_of_mem_toDigits (by decide) (by decide) hc
  rintro rfl
  exact Bool.false_ne_true (hx.symm.trans hd)

theorem ne_dot_of_mem_digits (id : UInt64) (c : Char) (hc : c ∈ digits id) : c ≠ '.' :=
  ne_of_mem_digits id c '.' rfl hc

theorem ne_slash_of_mem_digits (id : UInt64) (c : Char) (hc : c ∈ digits id) : c ≠ '/' :=
  ne_of_mem_digits id c '/' rfl hc

theorem toList_fileName (s : Store) (id : UInt64) :
    (s.fileName id).toList = digits id ++ '.' :: s.extension.toList := by
  simp [fileName, digits]

theorem toList_tempName (s : Store) (id : UInt64) :
    (s.tempName id).toList = digits id ++ '.' :: (s.extension.toList ++ ".tmp".toList) := by
  simp [tempName, toList_fileName]

/-- What stands before the first dot of a name. -/
theorem takeWhile_ne_dot (id : UInt64) (rest : List Char) :
    (digits id ++ '.' :: rest).takeWhile (· != '.') = digits id := by
  have hd : ∀ c ∈ digits id, (c != '.') = true := by
    intro c hc
    simpa using ne_dot_of_mem_digits id c hc
  rw [List.takeWhile_append_of_pos hd]
  simp

/-- The first dot tells where the id ends. -/
theorem digits_dot_inj (a b : UInt64) (r r' : List Char)
    (h : digits a ++ '.' :: r = digits b ++ '.' :: r') : a = b ∧ r = r' := by
  -- neither id has a dot, so both names are cut at the same place
  have hs := congrArg (List.takeWhile (· != '.')) h
  rw [takeWhile_ne_dot, takeWhile_ne_dot] at hs
  refine ⟨digits_injective a b hs, ?_⟩
  rw [hs] at h
  simpa using h

/-- The id and the slot's kind can be read off a name. -/
theorem name_injective (s : Store) (x y : Slot) (h : x.name s = y.name s) : x = y := by
  have hl := congrArg String.toList h
  cases x with
  | file a =>
    cases y with
    | file b =>
      simp only [Slot.name, toList_fileName] at hl
      rw [(digits_dot_inj a b _ _ hl).1]
    | temp b =>
      simp only [Slot.name, toList_fileName, toList_tempName] at hl
      -- behind the same id one name would be longer than the other
      have hn := congrArg List.length (digits_dot_inj a b _ _ hl).2
      simp at hn
  | temp a =>
    cases y with
    | file b =>
      simp only [Slot.name, toList_fileName, toList_tempName] at hl
      have hn := congrArg List.length (digits_dot_inj a b _ _ hl).2
      simp at hn
    | temp b =>
      simp only [Slot.name, toList_tempName] at hl
      rw [(digits_dot_inj a b _ _ hl).1]

end Store

theorem joinPath_injective (dir a b : String) (h : joinPath dir a = joinPath dir b) : a = b := by
  have hl := congrArg String.toList h
  unfold joinPath at hl
  apply String.toList_inj.mp
  split at hl
  · exact hl
  · split at hl <;> simpa using hl

namespace Slot

theorem path_injective (s : Store) (x y : Slot) (h : x.path s = y.path s) : x = y :=
  Store.name_injective s x y (joinPath_injective s.dir _ _ h)

end Slot

/-! ### Where a name leads -/

namespace Location

def dirNames (dir : String) : List String :=
  ((pieces isSlash dir.toList).filter counts).map String.ofList

def fromRoot (dir : String) : Bool := dir.toList.head? = some '/'

theorem pieces_plain (name : List Char) (h : ∀ c ∈ name, c ≠ '/') :
    pieces isSlash name = [name] := by
  apply pieces_of_none
  intro c hc
  simpa [isSlash] using h c hc

theorem pieces_append_slash (front name : List Char) (h : ∀ c ∈ name, c ≠ '/') :
    pieces isSlash (front ++ '/' :: name) = pieces isSlash front ++ [name] := by
  rw [pieces_append_sep isSlash front name '/' rfl, pieces_plain name h]

/-- A plain name behind a directory's path is one more name and nothing else. -/
theorem ofText?_joinPath (dir name : String) (hplain : ∀ c ∈ name.toList, c ≠ '/')
    (hcounts : counts name.toList = true) :
    ofText? (joinPath dir name) =
      some ⟨dirNames dir ++ [name], fromRoot dir, false⟩ := by
  have hne : name.toList ≠ [] := by
    rintro h
    simp [h, counts] at hcounts
  have hempty : counts [] = false := rfl
  have hhead : name.toList.head? ≠ some '/' := by
    intro h
    exact hplain '/' (List.mem_of_head? h) rfl
  -- three ways to write the directory: not at all, with a slash at its end, or without one
  by_cases hdir : dir = ""
  · subst hdir
    have hname : name ≠ "" := by
      rintro rfl
      exact hne rfl
    simp [joinPath, ofText?, hname, pieces_plain _ hplain, hcounts, hempty, dirNames, fromRoot,
      hhead, pieces_nil]
  · have hdl : dir.toList ≠ [] := by simpa using hdir
    by_cases hlast : dir.toList.getLast? = some '/'
    · obtain ⟨front, hfront⟩ : ∃ front, dir.toList = front ++ ['/'] :=
        List.getLast?_eq_some_iff.mp hlast
      have hpath : (joinPath dir name).toList = front ++ '/' :: name.toList := by
        simp [joinPath, hdir, hfront]
      have hpathne : joinPath dir name ≠ "" := by
        intro h
        simp [h] at hpath
      -- the slash at the end leaves an empty piece, which does not count
      have hpieces : pieces isSlash dir.toList = pieces isSlash front ++ [[]] := by
        rw [hfront, pieces_append_slash front [] (by simp)]
      have habs : (front ++ '/' :: name.toList).head? = dir.toList.head? := by
        rw [hfront]
        cases front <;> rfl
      simp [ofText?, hpathne, hpath, pieces_append_slash _ _ hplain, hcounts, hempty, dirNames,
        fromRoot, hpieces, habs]
    · have hpath : (joinPath dir name).toList = dir.toList ++ '/' :: name.toList := by
        simp [joinPath, hdir, hlast]
      have hpathne : joinPath dir name ≠ "" := by
        intro h
        simp [h] at hpath
      have habs : (dir.toList ++ '/' :: name.toList).head? = dir.toList.head? := by
        cases hc : dir.toList with
        | nil => exact absurd hc hdl
        | cons c rest => rfl
      simp [ofText?, hpathne, hpath, pieces_append_slash _ _ hplain, hcounts, dirNames, fromRoot,
        habs]

end Location

namespace Store

/-- The extension leads to no other directory. -/
def Plain (s : Store) : Prop := ∀ c ∈ s.extension.toList, c ≠ '/'

theorem digits_ne_nil (id : UInt64) : digits id ≠ [] := Nat.toDigits_ne_nil

theorem toList_name (s : Store) (x : Slot) :
    ∃ rest, (x.name s).toList = digits x.id ++ '.' :: rest ∧ (s.Plain → ∀ c ∈ rest, c ≠ '/') := by
  cases x with
  | file id => exact ⟨_, toList_fileName s id, fun h => h⟩
  | temp id =>
    refine ⟨_, toList_tempName s id, fun h c hc => ?_⟩
    rcases List.mem_append.mp hc with hc | hc
    · exact h c hc
    · rintro rfl
      exact absurd hc (by decide)

theorem name_no_slash (s : Store) (hs : s.Plain) (x : Slot) : ∀ c ∈ (x.name s).toList, c ≠ '/' := by
  obtain ⟨rest, hrest, hplain⟩ := toList_name s x
  intro c hc
  rw [hrest, List.mem_append, List.mem_cons] at hc
  rcases hc with hc | rfl | hc
  · exact ne_slash_of_mem_digits x.id c hc
  · decide
  · exact hplain hs c hc

/-- A name opens with a digit, so it is neither empty nor made of dots. -/
theorem name_counts (s : Store) (x : Slot) :
    Location.counts (x.name s).toList = true ∧ x.name s ≠ ".." := by
  obtain ⟨rest, hrest, -⟩ := toList_name s x
  obtain ⟨c, ds, hds⟩ := List.exists_cons_of_ne_nil (digits_ne_nil x.id)
  have hc : c ≠ '.' := ne_dot_of_mem_digits x.id c (by simp [hds])
  rw [hds] at hrest
  constructor
  · simp [Location.counts, hrest, hc]
  · intro h
    rw [h] at hrest
    simp only [List.cons_append] at hrest
    exact hc (List.cons.inj hrest).1.symm

/-- A text of digits has as many bytes as letters. -/
theorem size_of_digits (cs : List Char) (h : ∀ c ∈ cs, c.isDigit = true) :
    (String.ofList cs).utf8ByteSize = cs.length := by
  induction cs with
  | nil => rfl
  | cons c cs ih =>
    have hdigit := h c (by simp)
    simp only [Char.isDigit, ge_iff_le, Bool.and_eq_true, decide_eq_true_eq] at hdigit
    have hsize : c.utf8Size = 1 :=
      Char.utf8Size_eq_one_iff.mpr (UInt32.le_trans hdigit.2 (by decide))
    have hrest := ih fun x hx => h x (List.mem_cons_of_mem c hx)
    rw [← String.size_toByteArray, String.toByteArray_ofList] at hrest ⊢
    rw [List.utf8Encode_cons, ByteArray.size_append, List.utf8Encode_singleton,
      List.size_toByteArray, String.length_utf8EncodeChar, hsize, hrest, List.length_cons,
      Nat.add_comm]

/-- An id has at most twenty digits. -/
theorem size_name_le (s : Store) (x : Slot) :
    (x.name s).utf8ByteSize ≤ s.extension.utf8ByteSize + 25 := by
  have hfile (id : UInt64) : (s.fileName id).utf8ByteSize ≤ s.extension.utf8ByteSize + 21 := by
    have hdigits : (toString id.toNat).utf8ByteSize = (digits id).length :=
      size_of_digits _ fun c hc => Nat.isDigit_of_mem_toDigits (by decide) (by decide) hc
    have hlength : (digits id).length ≤ 20 :=
      Nat.toDigits_length 10 id.toNat 20 (by decide) (Nat.lt_trans id.toNat_lt (by decide))
    have hdot : ".".utf8ByteSize = 1 := by decide
    rw [fileName, String.utf8ByteSize_append, String.utf8ByteSize_append, hdigits, hdot]
    omega
  cases x with
  | file id => exact Nat.le_trans (hfile id) (by omega)
  | temp id =>
    have htail : ".tmp".utf8ByteSize = 4 := by decide
    have hid := hfile id
    rw [Slot.name, tempName, String.utf8ByteSize_append, htail]
    omega

theorem size_path_le (s : Store) (x : Slot) :
    (x.path s).utf8ByteSize ≤ s.dir.utf8ByteSize + s.extension.utf8ByteSize + 26 := by
  have hname := s.size_name_le x
  have hslash : "/".utf8ByteSize = 1 := by decide
  simp only [Slot.path, joinPath]
  split
  · omega
  · split <;> simp only [String.utf8ByteSize_append, hslash] <;> omega

end Store
end ListKeeper
