import ListKeeper.Characters.Composites
import ListKeeper.Characters.Marks

/-! The composed form of a text. Every letter is taken apart into a plain letter and marks, the marks
of a letter are put in the order of their ranks, and then each letter is composed again with the marks
that it can take up. -/
namespace ListKeeper
namespace Characters

/-- Korean syllables are composed by arithmetic: of a leading and a vowel sign, and perhaps a trailing
one. -/
def firstSyllable : Nat := 0xac00

def firstLead : Nat := 0x1100

def firstVowel : Nat := 0x1161

def firstTrail : Nat := 0x11a7

def takeApart : Nat → Char → List Char
  | 0, c => [c]
  | depth + 1, c =>
    let n := c.toNat
    if firstSyllable ≤ n && n < firstSyllable + 11172 then
      let i := n - firstSyllable
      let trail := i % 28
      Char.ofNat (firstLead + i / 588) :: Char.ofNat (firstVowel + i % 588 / 28) ::
        (if trail = 0 then [] else [Char.ofNat (firstTrail + trail)])
    else match parts? c with
      | some (a, b) => takeApart depth a ++ [b]
      | none => [c]

/-- Puts a mark behind the marks whose rank is not higher; `cs` is a text from its end. -/
def insertMark (m : Char) : List Char → List Char
  | [] => [m]
  | c :: cs => if rank m < rank c then c :: insertMark m cs else m :: c :: cs

/-- The same text with the marks of each letter in order, from its end. -/
def sortMarks (acc : List Char) : List Char → List Char
  | [] => acc
  | c :: cs => sortMarks (if rank c = 0 then c :: acc else insertMark c acc) cs

def syllable? (a b : Char) : Option Char :=
  let m := a.toNat
  let n := b.toNat
  if firstLead ≤ m && m < firstLead + 19 && firstVowel ≤ n && n < firstVowel + 21 then
    some (Char.ofNat (firstSyllable + ((m - firstLead) * 21 + (n - firstVowel)) * 28))
  else if firstSyllable ≤ m && m < firstSyllable + 11172 && (m - firstSyllable) % 28 = 0 &&
      firstTrail < n && n < firstTrail + 28 then
    some (Char.ofNat (m + (n - firstTrail)))
  else none

def compose? (a b : Char) : Option Char := (syllable? a b).or (composite? a b)

/-- A text that is composed in part: the letter under work, and the marks behind it that it did not
take up, with what is done before it, all from the end. -/
structure Composing where
  done : List Char
  letter : Option Char
  marks : List Char

namespace Composing

def flat (p : Composing) : List Char :=
  match p.letter with
  | some c => p.marks ++ c :: p.done
  | none => p.marks ++ p.done

/-- Whether a character stands too far from the letter to be taken up. -/
def blocks (p : Composing) (c : Char) : Bool :=
  match p.marks with
  | [] => false
  | m :: _ => rank c ≤ rank m

def next (p : Composing) (c : Char) : Composing :=
  let taken := if p.blocks c then none else p.letter.bind fun a => compose? a c
  match taken with
  | some d => { p with letter := some d }
  | none => if rank c = 0 then ⟨p.flat, some c, []⟩ else { p with marks := c :: p.marks }

end Composing

def composed (cs : List Char) : List Char :=
  let apart := cs.flatMap (takeApart 4)
  ((sortMarks [] apart).reverse.foldl Composing.next ⟨[], none, []⟩).flat.reverse

end Characters
end ListKeeper
