import QtSheet.Text.Blank
import QtSheet.Value.Term

namespace QtSheet.Text

/-!
# Small and capital letters

The classes of characters do not tell capital letters of ASCII from small ones.
So a text may be put in small letters: what a class takes from its front is the
same in small letters (`takeWhile_small`), and its lower case is the same
(`lowercase_small`).
-/

/-- The capital letters of ASCII. -/
def capitals : List Char :=
  "ABCDEFGHIJKLMNOPQRSTUVWXYZ".toList

/-- A character is its own small letter unless it is a capital of ASCII. -/
theorem toLower_eq_or_mem (c : Char) : c.toLower = c ∨ c ∈ capitals := by
  by_cases isUpper : 65 ≤ c.val ∧ c.val ≤ 90
  · have areCapitals : ∀ point < 91, 65 ≤ point → Char.ofNat point ∈ capitals := by
      decide
    simp only [UInt32.le_iff_toNat_le] at isUpper
    have isCapital := areCapitals c.toNat (Nat.lt_succ_of_le isUpper.2) isUpper.1
    rw [Char.ofNat_toNat] at isCapital
    exact .inr isCapital
  · exact .inl (dif_neg isUpper)

/-- What does not tell capital letters from small ones tells no character from its small form. -/
theorem eq_of_capitals
    {view : Char → α}
    (same : (capitals.map fun c => view c.toLower) = capitals.map view)
    (c : Char) :
    view c.toLower = view c := by
  rcases toLower_eq_or_mem c with isSmall | isCapital
  · rw [isSmall]
  · exact List.map_inj_left.mp same c isCapital

/-- Only a sign itself is the sign in small letters. -/
theorem toLower_eq_iff
    {sign : Char}
    (isSign : sign.isAlpha = false)
    (c : Char) :
    c.toLower = sign ↔ c = sign := by
  have notCapital : ∀ capital ∈ capitals, capital.toLower ≠ sign ∧ capital ≠ sign := by
    have areLetters : capitals.all fun capital => capital.toLower.isAlpha && capital.isAlpha := by
      decide
    intro capital isCapital
    obtain ⟨isLetter, isCapitalLetter⟩ :=
      Bool.and_eq_true_iff.mp (List.all_eq_true.mp areLetters capital isCapital)
    constructor <;> (rintro rfl; simp_all)
  rcases toLower_eq_or_mem c with isSmall | isCapital
  · rw [isSmall]
  · exact iff_of_false (notCapital c isCapital).1 (notCapital c isCapital).2

/-- A quotation mark is a sign and no letter. -/
theorem isAlpha_toLower_mark
    {mark : Char}
    (isMark : mark = '"' ∨ mark = '\x27') :
    mark.isAlpha = false ∧ mark.toLower = mark := by
  rcases isMark with rfl | rfl <;> decide

/-- Whether a character is layout does not depend on its case. -/
@[simp] theorem isLayout_toLower (c : Char) : isLayout c.toLower = isLayout c :=
  eq_of_capitals (by decide) c

@[simp] theorem isBlank_toLower (c : Char) : isBlank c.toLower = isBlank c :=
  eq_of_capitals (by decide) c

@[simp] theorem isDecimalDigit_toLower (c : Char) : isDecimalDigit c.toLower = isDecimalDigit c :=
  eq_of_capitals (by decide) c

@[simp] theorem isNameStart_toLower (c : Char) : isNameStart c.toLower = isNameStart c :=
  eq_of_capitals (by decide) c

@[simp] theorem isNameCharacter_toLower (c : Char) :
    isNameCharacter c.toLower = isNameCharacter c :=
  eq_of_capitals (by decide) c

theorem isCased_toLower (c : Char) : isCased c.toLower = isCased c :=
  eq_of_capitals (by decide) c

theorem isCaseIgnorable_toLower (c : Char) : isCaseIgnorable c.toLower = isCaseIgnorable c :=
  eq_of_capitals (by decide) c

/-- A letter and its small letter have the same lower case. -/
theorem lowercaseCharacter_toLower (c : Char) :
    lowercaseCharacter c.toLower = lowercaseCharacter c :=
  eq_of_capitals (by decide) c

/-- A text with its letters of ASCII in small. -/
def small (text : List Char) : List Char :=
  text.map Char.toLower

@[simp] theorem small_nil : small [] = [] :=
  rfl

@[simp] theorem small_cons (c : Char) (text : List Char) :
    small (c :: text) = c.toLower :: small text :=
  rfl

@[simp] theorem small_append (front back : List Char) :
    small (front ++ back) = small front ++ small back :=
  List.map_append

@[simp] theorem length_small (text : List Char) : (small text).length = text.length :=
  List.length_map ..

@[simp] theorem small_eq_nil_iff {text : List Char} : small text = [] ↔ text = [] :=
  List.map_eq_nil_iff

section Classes

variable {inClass : Char → Bool} (isBlind : ∀ c, inClass c.toLower = inClass c)

include isBlind

/-- What stands in a class blind to case is taken from a text in small letters alike. -/
theorem takeWhile_small (text : List Char) :
    (small text).takeWhile inClass = small (text.takeWhile inClass) := by
  have same : inClass ∘ Char.toLower = inClass := funext isBlind
  rw [small, List.takeWhile_map, same, small]

/-- What follows the characters of a class blind to case is found alike in small letters. -/
theorem dropWhile_small (text : List Char) :
    (small text).dropWhile inClass = small (text.dropWhile inClass) := by
  have same : inClass ∘ Char.toLower = inClass := funext isBlind
  rw [small, List.dropWhile_map, same, small]

end Classes

/-- Whether a cased letter follows does not depend on which letters are capital. -/
theorem beginsCased_small (text : List Char) : beginsCased (small text) = beginsCased text := by
  rw [beginsCased, beginsCased, dropWhile_small isCaseIgnorable_toLower]
  cases text.dropWhile isCaseIgnorable with
  | nil =>
      rfl
  | cons c rest =>
      exact isCased_toLower c

/-- The lower case of a text in small letters is that of the text. -/
theorem lowercaseAfter_small (before text : List Char) :
    lowercaseAfter (small before) (small text) = lowercaseAfter before text := by
  fun_induction lowercaseAfter before text with
  | case1 =>
      rfl
  | case2 before c rest lowered inductionHypothesis =>
      rw [small_cons, lowercaseAfter, ← small_cons, inductionHypothesis, beginsCased_small,
        beginsCased_small, lowercaseCharacter_toLower]
      simp only [toLower_eq_iff (show 'Σ'.isAlpha = false by decide),
        toLower_eq_iff (show 'İ'.isAlpha = false by decide)]
      rfl

/-- Lower case does not depend on which letters of ASCII are capital. -/
theorem lowercase_small (text : List Char) :
    lowercase (String.ofList (small text)) = lowercase (String.ofList text) := by
  rw [lowercase, lowercase, String.toList_ofList, String.toList_ofList]
  exact congrArg String.ofList (lowercaseAfter_small [] text)

end QtSheet.Text
