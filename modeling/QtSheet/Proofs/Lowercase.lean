import QtSheet.Text.Lowercase
import QtSheet.Value.Term

namespace QtSheet.Text

/-!
# Lower case and ASCII

What ends up as small letters of ASCII in lower case was letters of ASCII, with
one exception: the Kelvin sign has a small k (`isPlainCharacter_of_lowercase`).
-/

/-- A run that does not leave ASCII, or one that does not lead into it but for the small k. -/
def CaseRun.isSeparate (run : CaseRun) : Bool :=
  run.last < 0x80 || 0x80 ≤ run.first + run.shift ||
    (run.first = run.last && run.first + run.shift = 0x6B)

/-- Code points outside of ASCII stay outside of it, or become the small k. -/
theorem shiftedBy_of_isSeparate
    {runs : List CaseRun}
    {point : Nat}
    (areSeparate : runs.all CaseRun.isSeparate = true)
    (isBeyond : 0x80 ≤ point) :
    0x80 ≤ shiftedBy runs point ∨ shiftedBy runs point = 0x6B := by
  induction runs with
  | nil =>
      exact .inl isBeyond
  | cons run rest inductionHypothesis =>
      simp only [List.all_cons, Bool.and_eq_true] at areSeparate
      rw [shiftedBy]
      split
      · exact .inl isBeyond
      · split
        · split
          · have isSeparate := areSeparate.1
            simp only [CaseRun.isSeparate, Bool.or_eq_true, Bool.and_eq_true, decide_eq_true_eq]
              at isSeparate
            omega
          · exact .inl isBeyond
        · exact inductionHypothesis areSeparate.2

/-- A code point that is no character stands for the null character. -/
theorem toNat_ofNat (point : Nat) :
    (Char.ofNat point).toNat = point ∨ (Char.ofNat point).toNat = 0 := by
  by_cases isValid : point.isValidChar
  · rw [Char.ofNat, dif_pos isValid]
    exact .inl rfl
  · rw [Char.ofNat, dif_neg isValid]
    exact .inr rfl

/-- The small letters of ASCII that no other character has as its lower case, and the hyphen. -/
def ownLetters : List Char :=
  "abcdefghijlmnopqrstuvwxyz-".toList

/-- Only ASCII letters have most small letters of ASCII as their lower case. -/
theorem isPlainCharacter_of_lowercaseCharacter
    {c : Char}
    (isOwn : lowercaseCharacter c ∈ ownLetters) :
    Value.isPlainCharacter c = true := by
  by_cases isBeyond : 0x80 ≤ c.toNat
  · have bounds :
        ownLetters.all fun letter => decide (0 < letter.toNat ∧ letter.toNat < 0x80) := by
      decide
    have isBounded := of_decide_eq_true (List.all_eq_true.mp bounds _ isOwn)
    have areSeparate : lowercaseRuns.all CaseRun.isSeparate = true := by
      decide +kernel
    rcases shiftedBy_of_isSeparate areSeparate isBeyond with staysBeyond | isKelvin
    · rw [lowercaseCharacter] at isBounded
      rcases toNat_ofNat (shiftedBy lowercaseRuns c.toNat) with isPoint | isNull <;> omega
    · rw [lowercaseCharacter, isKelvin] at isOwn
      exact absurd isOwn (by decide)
  · have isAscii :
        ∀ point < 0x80,
          lowercaseCharacter (Char.ofNat point) ∈ ownLetters →
            Value.isPlainCharacter (Char.ofNat point) = true := by
      decide +kernel
    rw [← Char.ofNat_toNat c] at isOwn ⊢
    exact isAscii c.toNat (by omega) isOwn

/-- A text whose lower case is made of such letters is plain, whatever stands before it. -/
theorem isPlainCharacter_of_lowercaseAfter
    {before text : List Char}
    (areOwn : ∀ c ∈ lowercaseAfter before text, c ∈ ownLetters) :
    ∀ c ∈ text, Value.isPlainCharacter c = true := by
  fun_induction lowercaseAfter before text with
  | case1 =>
      simp
  | case2 before c rest lowered inductionHypothesis =>
      obtain ⟨here, behind⟩ := List.forall_mem_append.mp areOwn
      refine List.forall_mem_cons.mpr ⟨?_, inductionHypothesis behind⟩
      have noSigma : c ≠ 'Σ' := by
        rintro rfl
        by_cases isFinal : (beginsCased before && !beginsCased rest) = true
        · exact absurd (here 'ς' (by simp only [lowered, isFinal]; simp)) (by decide)
        · exact absurd (here 'σ' (by simp only [lowered, isFinal]; simp)) (by decide)
      have noDot : c ≠ 'İ' := by
        rintro rfl
        exact absurd (here '\u0307' (by simp [lowered])) (by decide)
      apply isPlainCharacter_of_lowercaseCharacter
      exact here _ (by simp [lowered, noSigma, noDot])

/-- A text whose lower case is made of such letters is plain. -/
theorem isPlainCharacter_of_lowercase
    {text : String}
    (areOwn : ∀ c ∈ (lowercase text).toList, c ∈ ownLetters) :
    ∀ c ∈ text.toList, Value.isPlainCharacter c = true := by
  rw [lowercase, String.toList_ofList] at areOwn
  exact isPlainCharacter_of_lowercaseAfter areOwn

end QtSheet.Text
