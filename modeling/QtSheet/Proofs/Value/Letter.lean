import QtSheet.Value.Term

namespace QtSheet.Value

open Text

/-!
# Characters of values

How the classes of characters that values are written in lie to each other.
Digits and letters may stand inside a name, no digit is a letter, and a letter
that stands for another one in a word without regard to case is either a letter
of ASCII itself or one of three others (`isStray`).
-/

/-- Whether every range of an ascending list lies in one range of another one. -/
def encloses : List Range → List Range → Bool
  | _, [] => true
  | wides, narrow :: narrows =>
      match wides.dropWhile fun wide => wide.first ≤ wide.last && wide.last < narrow.first with
      | [] => false
      | wide :: wides =>
          wide.first ≤ narrow.first && narrow.last ≤ wide.last && encloses (wide :: wides) narrows

/-- Ranges that end in front of a code point do not cover it. -/
theorem covers_dropWhile
    (wides : List Range)
    {start point : Nat}
    (notBelow : start ≤ point) :
    covers (wides.dropWhile fun wide => wide.first ≤ wide.last && wide.last < start) point =
      covers wides point := by
  induction wides with
  | nil =>
      rfl
  | cons wide wides inductionHypothesis =>
      by_cases endsBefore : wide.first ≤ wide.last && wide.last < start
      · rw [List.dropWhile_cons, if_pos endsBefore]
        simp only [Bool.and_eq_true, decide_eq_true_eq] at endsBefore
        rw [inductionHypothesis, covers, if_neg (by omega), if_neg (by omega)]
      · rw [List.dropWhile_cons, if_neg endsBefore]

/-- The code points of ranges that lie in other ranges are code points of these. -/
theorem covers_of_encloses
    {wides narrows : List Range}
    {point : Nat}
    (areEnclosed : encloses wides narrows = true)
    (covered : covers narrows point = true) :
    covers wides point = true := by
  induction narrows generalizing wides with
  | nil =>
      contradiction
  | cons narrow narrows inductionHypothesis =>
      by_cases below : point < narrow.first
      · rw [covers, if_pos below] at covered
        contradiction
      · rw [covers, if_neg below] at covered
        rw [encloses] at areEnclosed
        rw [← covers_dropWhile wides (Nat.le_of_not_lt below)]
        split at areEnclosed
        case h_1 =>
          contradiction
        case h_2 wide rest left =>
          simp only [Bool.and_eq_true, decide_eq_true_eq] at areEnclosed
          obtain ⟨⟨isFirst, isLast⟩, areLater⟩ := areEnclosed
          rw [left]
          by_cases inside : point ≤ narrow.last
          · rw [covers, if_neg (by omega), if_pos (by omega)]
          · rw [if_neg inside] at covered
            exact inductionHypothesis areLater covered

/-- A digit may stand inside a name. -/
theorem isNameCharacter_of_isDecimalDigit
    {c : Char}
    (isDigit : isDecimalDigit c = true) :
    isNameCharacter c = true := by
  have isCovered : covers alphanumericRanges c.toNat = true :=
    covers_of_encloses (by decide +kernel) isDigit
  simp [isNameCharacter, isWordCharacter, isAlphanumeric, isCovered]

/-- A letter of ASCII is between two code points, in capitals or not. -/
theorem toNat_of_isAlpha
    {c : Char}
    (isAlpha : c.isAlpha = true) :
    0x41 ≤ c.toNat ∧ c.toNat ≤ 0x5A ∨ 0x61 ≤ c.toNat ∧ c.toNat ≤ 0x7A := by
  have bounds :
      (decide (65 ≤ c.val ∧ c.val ≤ 90) || (decide (97 ≤ c.val) && decide (c.val ≤ 122))) = true :=
    isAlpha
  simpa [UInt32.le_iff_toNat_le] using bounds

/-- A letter of ASCII may stand inside a name. -/
theorem isNameCharacter_of_isAlpha
    {c : Char}
    (isAlpha : c.isAlpha = true) :
    isNameCharacter c = true := by
  have isLetter : covers [⟨0x41, 0x5A⟩, ⟨0x61, 0x7A⟩] c.toNat = true := by
    have bounds := toNat_of_isAlpha isAlpha
    simp only [covers]
    grind
  have isCovered : covers alphanumericRanges c.toNat = true :=
    covers_of_encloses (by decide) isLetter
  simp [isNameCharacter, isWordCharacter, isAlphanumeric, isCovered]

/-- A hexadecimal digit may stand inside a name. -/
theorem isNameCharacter_of_isHexDigit
    {c : Char}
    (isHex : isHexDigit c = true) :
    isNameCharacter c = true := by
  have isLetter : covers [⟨0x30, 0x39⟩, ⟨0x41, 0x46⟩, ⟨0x61, 0x66⟩] c.toNat = true := by
    simp only [isHexDigit, Char.isDigit, Char.le_def, UInt32.le_iff_toNat_le, Bool.or_eq_true,
      Bool.and_eq_true, decide_eq_true_eq, ge_iff_le, Char.toNat_val] at isHex
    simp only [covers]
    grind
  have isCovered : covers alphanumericRanges c.toNat = true :=
    covers_of_encloses (by decide) isLetter
  simp [isNameCharacter, isWordCharacter, isAlphanumeric, isCovered]

/-- No digit is a letter of ASCII. -/
theorem isAlpha_eq_false_of_isDecimalDigit
    {c : Char}
    (isDigit : isDecimalDigit c = true) :
    c.isAlpha = false := by
  apply Bool.eq_false_iff.mpr
  intro isAlpha
  have bounds := toNat_of_isAlpha isAlpha
  simp only [isDecimalDigit, decimalDigitRanges] at isDigit
  rw [covers, if_neg (by dsimp only; omega), if_neg (by dsimp only; omega), covers,
    if_pos (by dsimp only; omega)] at isDigit
  contradiction

/-- A letter outside ASCII that stands for a letter of ASCII. -/
def isStray (c : Char) : Bool :=
  c == '\u017f' || c == '\u0130' || c == '\u0131'

/-- A character whose small form is a small letter is a letter of ASCII. -/
theorem isAlpha_of_toLower
    {c : Char}
    (isLower : c.toLower.isLower = true) :
    c.isAlpha = true := by
  apply (Bool.or_eq_true c.isUpper c.isLower).mpr
  rcases Bool.eq_false_or_eq_true c.isUpper with isUpper | notUpper
  · exact .inl isUpper
  · have same : c.toLower = c := dif_neg (of_decide_eq_false notUpper)
    exact .inr (same ▸ isLower)

/-- A character that stands for a letter is a letter or a stray one. -/
theorem isAlpha_or_isStray_of_isLetter
    {letter c : Char}
    (isLower : letter.isLower = true)
    (stands : isLetter letter c = true) :
    c.isAlpha = true ∨ isStray c = true := by
  simp only [isLetter, Bool.or_eq_true, Bool.and_eq_true, beq_iff_eq] at stands
  rcases stands with (same | ⟨_, isLong⟩) | ⟨_, isDotted⟩
  · exact .inl (isAlpha_of_toLower (same ▸ isLower))
  · simp [isStray, isLong]
  · rcases isDotted with isDotted | isDotted <;> simp [isStray, isDotted]

/-- Only a sign itself stands for the sign. -/
theorem eq_of_isLetter
    {sign c : Char}
    (notLower : sign.isLower = false)
    (stands : isLetter sign c = true) :
    c = sign := by
  have notVariant : sign ≠ 's' ∧ sign ≠ 'i' := by
    constructor <;> (rintro rfl; exact absurd notLower (by decide))
  have same : c.toLower = sign := by simpa [isLetter, notVariant] using stands
  by_cases isUpper : 65 ≤ c.val ∧ c.val ≤ 90
  · have value : c.toLower.val = c.val + 32 := congrArg Char.val (dif_pos isUpper)
    have notSmall : (decide (97 ≤ sign.val) && decide (sign.val ≤ 122)) = false := notLower
    rw [same] at value
    simp only [Bool.and_eq_false_iff, decide_eq_false_iff_not] at notSmall
    grind
  · exact (dif_neg isUpper : c.toLower = c).symm.trans same

/-- A character that stands for a letter with no stray form is that letter, in capitals or not. -/
theorem toLower_of_isLetter
    {letter c : Char}
    (noStray : letter ≠ 's' ∧ letter ≠ 'i')
    (stands : isLetter letter c = true) :
    c.toLower = letter := by
  simpa [isLetter, noStray] using stands

/-- A word is its front and, behind that, its back. -/
theorem afterWord?_append (front back text : List Char) :
    afterWord? (front ++ back) text = (afterWord? front text).bind (afterWord? back) := by
  fun_induction afterWord? front text with
  | case1 text =>
      rfl
  | case2 letter front =>
      rfl
  | case3 letter front c text stands inductionHypothesis =>
      rw [List.cons_append, afterWord?, if_pos stands, inductionHypothesis]
  | case4 letter front c text others =>
      rw [List.cons_append, afterWord?, if_neg others, Option.bind_none]

/-- A word leaves what is behind as many characters as it has letters. -/
theorem eq_drop_of_afterWord?
    {word text rest : List Char}
    (found : afterWord? word text = some rest) :
    rest = text.drop word.length := by
  fun_induction afterWord? word text with
  | case1 text =>
      exact (Option.some.inj found).symm
  | case2 =>
      contradiction
  | case3 letter word c text _ inductionHypothesis =>
      exact inductionHypothesis found
  | case4 =>
      contradiction

/-- A text begins with one of some letters, in capitals or not. -/
def Begins (letters text : List Char) : Prop :=
  ∃ c ∈ text.head?, c.toLower ∈ letters

/-- A text that begins with a word begins with the first letter of the word. -/
theorem begins_of_afterWord?
    {letter : Char}
    {word text rest letters : List Char}
    (isFirst : letter ∈ letters)
    (noStray : 's' ∉ letters ∧ 'i' ∉ letters)
    (found : afterWord? (letter :: word) text = some rest) :
    Begins letters text := by
  cases text with
  | nil =>
      contradiction
  | cons c after =>
      rw [afterWord?, Option.ite_none_right_eq_some] at found
      have isPlain : letter ≠ 's' ∧ letter ≠ 'i' :=
        ⟨fun isS => noStray.1 (isS ▸ isFirst), fun isI => noStray.2 (isI ▸ isFirst)⟩
      exact ⟨c, rfl, toLower_of_isLetter isPlain found.1 ▸ isFirst⟩

/-- A text that begins with one of some words begins with the first letter of one of them. -/
theorem begins_of_afterAnyWord?
    {words : List String}
    {letters : List Char}
    (areFirst : ∀ word ∈ words, word.toList.head?.any letters.contains = true)
    (noStray : 's' ∉ letters ∧ 'i' ∉ letters)
    {text rest : List Char}
    (found : afterAnyWord? words text = some rest) :
    Begins letters text := by
  obtain ⟨word, member, isFound⟩ := List.exists_of_findSome?_eq_some found
  obtain ⟨letter, isFirst, isLetter⟩ := (Option.any_eq_true _ _).mp (areFirst word member)
  obtain ⟨others, spelled⟩ := List.head?_eq_some_iff.mp isFirst
  rw [spelled] at isFound
  exact begins_of_afterWord? (List.contains_iff_mem.mp isLetter) noStray isFound

/-- A text does not begin with letters of two kinds. -/
theorem Begins.not_begins
    {letters others text : List Char}
    (begins : Begins letters text)
    (areDisjoint : ∀ letter ∈ letters, letter ∉ others) :
    ¬ Begins others text := by
  rintro ⟨other, isFirst, isOther⟩
  obtain ⟨c, isHead, isLetter⟩ := begins
  obtain rfl := Option.some.inj (isHead.symm.trans isFirst)
  exact areDisjoint _ isLetter isOther

/-- A text that begins with a small letter, in capitals or not, begins with a letter of ASCII. -/
theorem Begins.isAlpha
    {letters : List Char}
    {c : Char}
    {rest : List Char}
    (begins : Begins letters (c :: rest))
    (areSmall : letters.all Char.isLower = true) :
    c.isAlpha = true := by
  obtain ⟨first, isFirst, isLetter⟩ := begins
  obtain rfl := Option.some.inj isFirst
  exact isAlpha_of_toLower (List.all_eq_true.mp areSmall _ isLetter)

/-- A character with which no term begins, though the name of a function may have it. -/
def isStuck (c : Char) : Bool :=
  c == '(' || isStray c

/--
Where a word with an opening parenthesis stands, a plain name ends in front of
the parenthesis or of a stray letter of the word.
-/
theorem isStuck_of_afterWord?
    {word text rest : List Char}
    (spelled : word.all (fun letter => letter.isLower || letter == '(') = true)
    (opens : '(' ∈ word)
    (found : afterWord? word text = some rest) :
    ∃ c ∈ (text.dropWhile isPlainCharacter).head?, isStuck c = true := by
  fun_induction afterWord? word text with
  | case1 =>
      exact absurd opens List.not_mem_nil
  | case2 =>
      contradiction
  | case4 =>
      contradiction
  | case3 letter word c text stands inductionHypothesis =>
      simp only [List.all_cons, Bool.and_eq_true, Bool.or_eq_true, beq_iff_eq] at spelled
      obtain ⟨isLower | isOpen, later⟩ := spelled
      · have opensLater : '(' ∈ word := by
          refine (List.mem_cons.mp opens).resolve_left ?_
          rintro rfl
          exact absurd isLower (by decide)
        rcases isAlpha_or_isStray_of_isLetter isLower stands with isAlpha | stray
        · rw [List.dropWhile_cons_of_pos (by simp [isPlainCharacter, Char.isAlphanum, isAlpha])]
          exact inductionHypothesis later opensLater found
        · have notPlain : isPlainCharacter c = false := by
            simp only [isStray, Bool.or_eq_true, beq_iff_eq] at stray
            rcases stray with (rfl | rfl) | rfl <;> decide
          refine ⟨c, ?_, by simp [isStuck, stray]⟩
          rw [List.dropWhile_cons_of_neg (by simp [notPlain])]
          rfl
      · obtain rfl := eq_of_isLetter (by rw [isOpen]; decide) stands
        subst isOpen
        exact ⟨'(', by rw [List.dropWhile_cons_of_neg (by decide)]; rfl, by decide⟩

end QtSheet.Value
