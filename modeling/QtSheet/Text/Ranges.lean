namespace QtSheet.Text

/-!
# Code-point ranges

A character class is stored as an ascending list of code-point ranges. The
lookup walks the list and stops at the first range that begins above the code
point, so the frequent small code points are decided at once.
-/

/-- The code points from `first` to `last`, both included. -/
structure Range where
  first : Nat
  last : Nat
  deriving Repr, DecidableEq

/-- Whether an ascending list of ranges covers a code point. -/
def covers : List Range → Nat → Bool
  | [], _ => false
  | range :: rest, point =>
      if point < range.first then
        false
      else if point ≤ range.last then
        true
      else
        covers rest point

/-- A covered code point lies in one of the ranges. -/
theorem exists_range_of_covers
    {ranges : List Range}
    {point : Nat}
    (covered : covers ranges point = true) :
    ∃ range ∈ ranges, range.first ≤ point ∧ point ≤ range.last := by
  induction ranges with
  | nil =>
      simp [covers] at covered
  | cons range rest inductionHypothesis =>
      by_cases below : point < range.first
      · rw [covers, if_pos below] at covered
        contradiction
      · rw [covers, if_neg below] at covered
        by_cases inside : point ≤ range.last
        · exact ⟨range, by simp, Nat.le_of_not_lt below, inside⟩
        · rw [if_neg inside] at covered
          obtain ⟨found, member, bounds⟩ := inductionHypothesis covered
          exact ⟨found, by simp [member], bounds⟩

end QtSheet.Text
