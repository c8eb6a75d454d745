import Mathlib.Data.List.Forall2
import ListKeeper.Rules

/-! Counting rules in one pass. What a line is worth is settled by its first byte that is no blank,
so a scan that goes through a body once, and knows of the line it is in only whether it is settled,
counts what cutting the body into lines and trimming them counts. Blanks at the ends of lines do not
move such a scan. Main statements: `count_eq_scan` and `counted_linewise`. -/
namespace ListKeeper.Rules

/-- The bytes that do not matter at the ends of a line: space, tab, form feed, carriage return. -/
def blanks : Bytes := [0x20, 0x09, 0x0c, 0x0d]

/-- Whether the first byte of a line that is no blank makes a rule of it. -/
def decides (b : UInt8) : Bool := b != 0x23 && b != 0x21

/-- How far a scan has come: whether the line it is in is decided, which it is not as long as all of
it is blank, and how many rules there were. -/
structure Scan where
  decided : Bool
  rules : Nat

namespace Scan

def step (s : Scan) (b : UInt8) : Scan :=
  if b = 0x0a then { s with decided := false }
  else if s.decided || blanks.contains b then s
  else ⟨true, if decides b then s.rules + 1 else s.rules⟩

end Scan

def scan (body : Bytes) : Scan := body.foldl Scan.step ⟨false, 0⟩

def Pads (line line' : Bytes) : Prop :=
  ∃ front back, (∀ b ∈ front, b ∈ blanks) ∧ (∀ b ∈ back, b ∈ blanks) ∧ line' = front ++ line ++ back

/-- A body with a carriage return in front of every newline. -/
def withReturns (body : Bytes) : Bytes :=
  body.flatMap fun b => if b = 0x0a then [0x0d, 0x0a] else [b]

/-! ### One line -/

section

variable {b : UInt8} {line : Bytes}

theorem isBlank_eq (h : b ≠ newline) : isBlank b = blanks.contains b := by
  have hne : (b == 0x0a) = false := by simpa [newline] using h
  simp only [isBlank, blanks, hne, List.contains_cons, List.contains_nil, Bool.or_false,
    Bool.or_assoc]

theorem decides_eq (b : UInt8) : decides b = !opensComment b := by
  simp [decides, opensComment, bne]

/-- Blanks at the end of a line that opens with something else leave its first byte. -/
theorem trim_cons (line : Bytes) (hb : isBlank b = false) :
    ∃ rest, trim (b :: line) = b :: rest := by
  have hfront : (b :: line).dropWhile isBlank = b :: line := by simp [hb]
  rw [trim, hfront, List.reverse_cons, List.dropWhile_append]
  split
  · exact ⟨[], by simp [hb]⟩
  · exact ⟨_, by rw [List.reverse_append, List.reverse_singleton, List.singleton_append]⟩

theorem trim_cons_blank (hb : isBlank b = true) : trim (b :: line) = trim line := by
  rw [trim, List.dropWhile_cons_of_pos hb, trim]

/-- The first byte of a line settles it, unless it is blank. -/
theorem isRule_trim_cons (hb : b ≠ newline) :
    isRule (trim (b :: line)) =
      if blanks.contains b then isRule (trim line) else decides b := by
  rw [← isBlank_eq hb, decides_eq]
  split
  · rename_i hblank
    rw [trim_cons_blank hblank]
  · rename_i hblank
    obtain ⟨rest, hrest⟩ := trim_cons line (Bool.eq_false_iff.mpr hblank)
    rw [hrest, isRule]

theorem isRule_trim (h : newline ∉ line) :
    isRule (trim line) = (line.find? fun b => !blanks.contains b).any decides := by
  induction line with
  | nil => rfl
  | cons b line ih =>
    obtain ⟨hb, hline⟩ := not_or.mp (mt List.mem_cons.mpr h)
    rw [isRule_trim_cons (Ne.symm hb), List.find?_cons]
    cases hblank : blanks.contains b with
    | true => simpa [hblank] using ih hline
    | false => simp

end

/-! ### Lines and the body -/

theorem lines_append_newline (a b : Bytes) : lines (a ++ newline :: b) = lines a ++ lines b :=
  pieces_append_sep _ a b newline (by simp)

theorem count_append_newline (a b : Bytes) : count (a ++ newline :: b) = count a + count b := by
  rw [count, lines_append_newline, List.countP_append]
  rfl

theorem count_of_line (line : Bytes) (h : newline ∉ line) :
    count line = if (line.find? fun b => !blanks.contains b).any decides then 1 else 0 := by
  have hlines : lines line = [line] := by
    refine pieces_of_none _ line fun b hb => ?_
    rw [beq_eq_false_iff_ne]
    rintro rfl
    exact h hb
  rw [count, hlines, List.countP_singleton, isRule_trim h]

theorem lines_ne_nil (body : Bytes) : lines body ≠ [] := pieces_ne_nil _ body

theorem intercalate_lines (body : Bytes) : [newline].intercalate (lines body) = body := by
  induction body with
  | nil => rfl
  | cons b body ih =>
    obtain ⟨line, rest, hlines⟩ := List.exists_cons_of_ne_nil (lines_ne_nil body)
    unfold lines at hlines ih ⊢
    rw [hlines] at ih
    rw [pieces_cons, hlines, consPiece]
    split
    · rename_i hb
      rw [List.intercalate_cons_cons, ih, eq_of_beq hb]
      rfl
    · cases rest with
      | nil => simpa [List.intercalate] using ih
      | cons next rest =>
        simp only [List.intercalate_cons_cons] at ih ⊢
        simp [← ih]

/-! ### The scan -/

/-- From a line that is decided a scan counts what follows that line. -/
theorem foldl_step (body : Bytes) (n : Nat) :
    (body.foldl Scan.step ⟨false, n⟩).rules = n + count body ∧
      (body.foldl Scan.step ⟨true, n⟩).rules =
        n + (lines body).tail.countP fun line => isRule (trim line) := by
  induction body generalizing n with
  | nil => exact ⟨rfl, rfl⟩
  | cons b body ih =>
    obtain ⟨line, rest, hlines⟩ := List.exists_cons_of_ne_nil (lines_ne_nil body)
    have hcount : count body =
        (if isRule (trim line) then 1 else 0) + rest.countP fun line => isRule (trim line) := by
      rw [count, hlines, List.countP_cons, Nat.add_comm]
    by_cases hb : b = newline
    · subst hb
      have hcut : lines (newline :: body) = [] :: lines body := pieces_sep _ _ _ (by simp)
      have hempty : count (newline :: body) = count body := by
        rw [count, hcut, List.countP_cons]
        rfl
      simp only [List.foldl_cons, hempty, hcut, List.tail_cons]
      exact ⟨(ih n).1, (ih n).1⟩
    · have hcut : lines (b :: body) = (b :: line) :: rest := by
        unfold lines at hlines ⊢
        simp [pieces_cons, hlines, consPiece, hb]
      have hstep (s : Scan) : s.step b =
          if s.decided || blanks.contains b then s
          else ⟨true, if decides b then s.rules + 1 else s.rules⟩ := if_neg hb
      have hopen : count (b :: body) = (if isRule (trim (b :: line)) then 1 else 0) +
          rest.countP fun line => isRule (trim line) := by
        rw [count, hcut, List.countP_cons, Nat.add_comm]
      have htail : (body.foldl Scan.step ⟨true, n⟩).rules =
          n + rest.countP fun line => isRule (trim line) := by
        rw [(ih n).2, hlines, List.tail_cons]
      constructor
      · rw [List.foldl_cons, hstep, hopen, isRule_trim_cons hb]
        cases hblank : blanks.contains b with
        | true => simpa [hcount] using (ih n).1
        | false =>
          -- the byte decides the line, and the rest of it does not count
          have hafter (k : Nat) := (ih k).2
          rw [hlines] at hafter
          simp only [Bool.or_self, Bool.false_eq_true, ↓reduceIte, hafter, List.tail_cons]
          split <;> omega
      · rw [List.foldl_cons, hstep, hcut]
        simpa using htail

/-- One pass over the bytes counts the rules of all lines. -/
theorem count_eq_scan (body : Bytes) : count body = (scan body).rules := by
  rw [scan, (foldl_step body 0).1, Nat.zero_add]

/-! ### What a scan does not see -/

theorem step_blank (s : Scan) (b : UInt8) (h : b ∈ blanks) : s.step b = s := by
  have hb : b ≠ 0x0a := by
    rintro rfl
    exact absurd h (by decide)
  rw [Scan.step, if_neg hb, if_pos]
  simp [h]

theorem foldl_blanks (s : Scan) (bs : Bytes) (h : ∀ b ∈ bs, b ∈ blanks) :
    bs.foldl Scan.step s = s := by
  induction bs with
  | nil => rfl
  | cons b bs ih =>
    rw [List.foldl_cons, step_blank s b (h b (by simp)), ih fun x hx => h x (by simp [hx])]

theorem Pads.foldl {line line' : Bytes} (h : Pads line line') (s : Scan) :
    line'.foldl Scan.step s = line.foldl Scan.step s := by
  obtain ⟨front, back, hfront, hback, rfl⟩ := h
  rw [List.foldl_append, List.foldl_append, foldl_blanks s front hfront, foldl_blanks _ back hback]

theorem foldl_padded (ls ls' : List Bytes) (h : List.Forall₂ Pads ls ls') (s : Scan) :
    ([newline].intercalate ls').foldl Scan.step s =
      ([newline].intercalate ls).foldl Scan.step s := by
  induction h generalizing s with
  | nil => rfl
  | cons hline hrest ih =>
    cases hrest with
    | nil => simpa [List.intercalate] using hline.foldl s
    | cons hnext hmore =>
      rw [List.intercalate_cons_cons, List.intercalate_cons_cons, List.foldl_append,
        List.foldl_append, List.foldl_append, List.foldl_append, hline.foldl, ih]

theorem foldl_withReturns (body : Bytes) (s : Scan) :
    (withReturns body).foldl Scan.step s = body.foldl Scan.step s := by
  induction body generalizing s with
  | nil => rfl
  | cons b body ih =>
    rw [withReturns, List.flatMap_cons, List.foldl_append, List.foldl_cons, ← withReturns, ih]
    split
    · rename_i hb
      rw [List.foldl_cons, step_blank s 0x0d (by decide), hb]
      rfl
    · rfl

/-- The rules of a body are those of its lines. A line without its newline is one rule if it has a
byte that is no blank and the first of these opens no comment. So neither carriage returns in front
of the newlines nor any blanks at the ends of lines change the count, and it can be made in one pass
that knows of the line it is in only whether it is decided. -/
theorem counted_linewise :
    (∀ a b, count (a ++ 0x0a :: b) = count a + count b ∧
      recorded (a ++ 0x0a :: b) = recorded a + recorded b) ∧
    (∀ line, 0x0a ∉ line →
      count line = if (line.find? fun b => !blanks.contains b).any decides then 1 else 0) ∧
    (∀ body, count (withReturns body) = count body) ∧
    (∀ body, [0x0a].intercalate (lines body) = body ∧
      ∀ ls, List.Forall₂ Pads (lines body) ls → count ([0x0a].intercalate ls) = count body) ∧
    ∀ body, count body = (scan body).rules := by
  refine ⟨fun a b => ⟨count_append_newline a b, ?_⟩, count_of_line, fun body => ?_,
    fun body => ⟨intercalate_lines body, fun ls hls => ?_⟩, count_eq_scan⟩
  · have hcount : count (a ++ 0x0a :: b) = count a + count b := count_append_newline a b
    rw [recorded, hcount, UInt64.ofNat_add]
    rfl
  · rw [count_eq_scan, count_eq_scan, scan, foldl_withReturns, scan]
  · have hpadded := foldl_padded (lines body) ls hls ⟨false, 0⟩
    rw [intercalate_lines] at hpadded
    rw [count_eq_scan, count_eq_scan]
    exact congrArg Scan.rules hpadded

/-- A carriage return alone ends no line, and a vertical tab is no blank. -/
example : (scan [0x0d, 0x0a, 0x20, 0x21, 0x61, 0x0d, 0x62, 0x0a, 0x0b, 0x23]).rules = 1 := by decide

end ListKeeper.Rules
