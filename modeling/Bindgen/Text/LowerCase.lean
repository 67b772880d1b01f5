import Bindgen.Text.LetterCase

/-! # Lower case

The lower-case form of a text. Two letters have more than one form or a longer
one: a capital sigma at the end of a word becomes a final sigma, and a capital
I with a dot above becomes two characters.
-/

namespace Bindgen.Text

def inRanges (ranges : List (Nat × Nat)) (n : Nat) : Bool :=
  ranges.any fun range => range.1 ≤ n && n ≤ range.2

def isIgnorable (c : Char) : Bool :=
  if c.toNat < 0x2000 then inRanges lowIgnorable c.toNat else inRanges highIgnorable c.toNat

def isCased (c : Char) : Bool :=
  inRanges casedRanges c.toNat

def CaseShift.moves (s : CaseShift) (n : Nat) : Bool :=
  s.first ≤ n && n ≤ s.last && (n - s.first) % s.step == 0

def shift? (n : Nat) : Option CaseShift :=
  (if n < 0x1000 then lowShifts else highShifts).find? fun s => s.moves n

/-- The lower-case form of a character outside of any word. -/
def lowerChar (c : Char) : List Char :=
  if c.toNat < 0x80 then [c.toLower]
  else if c.toNat = 0x130 then ['i', Char.ofNat 0x307]
  else
    match shift? c.toNat with
    | some s => [Char.ofNat ((c.toNat : Int) + s.distance).toNat]
    | none => [c]

/-- The first character that is not ignorable is a letter with a case. -/
def meetsLetter (cs : List Char) : Bool :=
  ((cs.dropWhile isIgnorable).head?.map isCased).getD false

/-- The lower-case form of a capital sigma between `before`, nearest first, and
`after`. -/
def lowerSigma (before after : List Char) : Char :=
  if meetsLetter before && !meetsLetter after then Char.ofNat 0x3c2 else Char.ofNat 0x3c3

/-- The lower-case form of a text that follows `before`, nearest first. -/
def lowerAfter (before : List Char) : List Char -> List Char
  | [] => []
  | c :: cs =>
    (if c.toNat = 0x3a3 then [lowerSigma before cs] else lowerChar c) ++ lowerAfter (c :: before) cs

def lower (s : String) : String :=
  String.ofList (lowerAfter [] s.toList)

end Bindgen.Text
