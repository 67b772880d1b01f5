/-! # Similar words

How much two words have in common, and which of some words come close to a
given one. Two words share their longest common run of characters, and what
the parts before it and the parts behind it share.
-/

namespace Bindgen.Text

/-- A run of characters that two words have in common: where it starts in each
of them, and its length. -/
structure Run where
  left : Nat
  right : Nat
  length : Nat
deriving DecidableEq

def commonLength : List Char -> List Char -> Nat
  | a :: as, b :: bs => if a = b then commonLength as bs + 1 else 0
  | _, _ => 0

/-- The runs at all pairs of positions, by the first position and then by the
second. -/
def runs (a b : List Char) : List Run :=
  (List.range a.length).flatMap fun i =>
    (List.range b.length).map fun j => ⟨i, j, commonLength (a.drop i) (b.drop j)⟩

def longestRun (a b : List Char) : Run :=
  (runs a b).foldl (fun best run => if best.length < run.length then run else best) ⟨0, 0, 0⟩

/-- The number of characters in the longest run that two words share, and in the
runs that they share to the left and to the right of it. -/
def sharedTo : Nat -> List Char -> List Char -> Nat
  | 0, _, _ => 0
  | fuel + 1, a, b =>
    let run := longestRun a b
    if run.length = 0 then 0
    else
      sharedTo fuel (a.take run.left) (b.take run.right) + run.length +
        sharedTo fuel (a.drop (run.left + run.length)) (b.drop (run.right + run.length))

def shared (a b : List Char) : Nat :=
  -- Every step takes at least one character off the first word.
  sharedTo a.length a b

/-- A word with its likeness to another: the characters they share, and how many
they have together. -/
structure Likeness where
  word : String
  shared : Nat
  total : Nat

def Likeness.of (other word : String) : Likeness :=
  ⟨word, Text.shared word.toList other.toList, word.length + other.length⟩

/-- The shared characters are at least three tenths of all. -/
def Likeness.isClose (l : Likeness) : Bool :=
  3 * l.total ≤ 10 * l.shared

/-- The first is at least as alike as the second. Of two that are equally alike
the later word goes first. -/
def Likeness.atLeast (l m : Likeness) : Bool :=
  m.shared * l.total < l.shared * m.total ||
    (m.shared * l.total == l.shared * m.total && decide (m.word ≤ l.word))

/-- The three words that come closest to a given one, in alphabetical order. -/
def similar (word : String) (words : List String) : List String :=
  let close := (words.map (Likeness.of word)).filter Likeness.isClose
  (((close.mergeSort Likeness.atLeast).take 3).map Likeness.word).mergeSort fun v w =>
    decide (v ≤ w)

end Bindgen.Text
