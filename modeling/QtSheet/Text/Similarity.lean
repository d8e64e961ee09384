namespace QtSheet.Text

/-!
# Similar words

How much two words have in common: their longest common stretch, and then what
the parts before it and the parts after it have in common. Two words are close
when this is at least three tenths of the characters of both.
-/

/-- A stretch that two words have in common. -/
structure CommonStretch where
  /-- Where it begins in the first word. -/
  left : Nat
  /-- Where it begins in the second word. -/
  right : Nat
  length : Nat
  deriving Repr, DecidableEq

/-- The number of characters with which two words begin alike. -/
def commonFront : List Char → List Char → Nat
  | a :: as, b :: bs => if a = b then commonFront as bs + 1 else 0
  | _, _ => 0

/-- The stretches that two words have in common, for all pairs of places. -/
def commonStretches (first second : List Char) : List CommonStretch :=
  (List.range first.length).flatMap fun left =>
    (List.range second.length).map fun right =>
      ⟨left, right, commonFront (first.drop left) (second.drop right)⟩

/-- The longest common stretch; of equal ones the first in the first word, then in the second. -/
def longestStretch (first second : List Char) : CommonStretch :=
  (commonStretches first second).foldl
    (fun best stretch => if best.length < stretch.length then stretch else best)
    ⟨0, 0, 0⟩

/-- The number of characters that two words have in common, in order. -/
def commonCount (first second : List Char) : Nat :=
  let stretch := longestStretch first second
  if _bounds : 0 < stretch.length ∧ stretch.left < first.length then
    stretch.length +
      commonCount (first.take stretch.left) (second.take stretch.right) +
      commonCount
        (first.drop (stretch.left + stretch.length))
        (second.drop (stretch.right + stretch.length))
  else
    0
termination_by first.length
decreasing_by
  · simp only [stretch] at _bounds
    simp only [List.length_take]
    omega
  · simp only [stretch] at _bounds
    simp only [List.length_drop]
    omega

/-- A candidate and how much it has in common with a word. -/
structure Candidate where
  word : String
  common : Nat
  /-- The number of characters of the candidate and the word. -/
  total : Nat
  deriving Repr, DecidableEq

namespace Candidate

/-- Compare a candidate with a word. -/
def ofWord (word candidate : String) : Candidate where
  word := candidate
  common := commonCount candidate.toList word.toList
  total := candidate.length + word.length

/-- Whether a candidate is close. -/
def isClose (candidate : Candidate) : Bool :=
  3 * candidate.total ≤ 10 * candidate.common

/--
Whether a candidate comes before another: the closer one, of equal ones the
later in the alphabet.
-/
def precedes (first second : Candidate) : Bool :=
  let left := first.common * second.total
  let right := second.common * first.total
  right < left || (left = right && decide (second.word ≤ first.word))

end Candidate

/-- The words of a list that are closest to a word, three at most, in the order of the alphabet. -/
def closeWords (word : String) (words : List String) : List String :=
  let close := (words.map (Candidate.ofWord word)).filter Candidate.isClose
  let best := (close.mergeSort Candidate.precedes).take 3
  (best.map fun candidate => candidate.word).mergeSort fun first second => first ≤ second

end QtSheet.Text
