import QtSheet.Text.Alphanumeric
import QtSheet.Text.DecimalDigit

namespace QtSheet.Text

/-!
# Names and numbers at the front of a text

Splitters for the words of a style sheet. Each takes the longest word of its
kind from the front of a text and returns it with the characters after it; the
lemmas say that the two parts put together are the text.
-/

/-- A text cut in two: the characters taken and the characters after them. -/
abbrev Cut := List Char × List Char

/-- Put a character in front of what a cut has taken. -/
def Cut.push (c : Char) (cut : Cut) : Cut :=
  (c :: cut.1, cut.2)

/-- The two parts of a cut put together. -/
def Cut.whole (cut : Cut) : List Char :=
  cut.1 ++ cut.2

/-- A character put in front of a cut is put in front of its whole. -/
@[simp] theorem Cut.whole_push (c : Char) (cut : Cut) :
    (cut.push c).whole = c :: cut.whole :=
  rfl

/-- Cut a text after its longest front of characters of one class. -/
def cutWhile (inClass : Char → Bool) (text : List Char) : Cut :=
  (text.takeWhile inClass, text.dropWhile inClass)

/-- Cutting the characters of a class loses nothing. -/
@[simp] theorem whole_cutWhile (inClass : Char → Bool) (text : List Char) :
    (cutWhile inClass text).whole = text :=
  List.takeWhile_append_dropWhile

/-- Whether a name may begin with a character, after a possible hyphen. -/
def isNameStart (c : Char) : Bool :=
  isWordCharacter c && !isDecimalDigit c

/-- Whether a name may go on with a character. -/
def isNameCharacter (c : Char) : Bool :=
  isWordCharacter c || c == '-'

/-- The name at the front of a text: a possible hyphen, a letter or `_`, then word characters. -/
def cutName? : List Char → Option Cut
  | [] => none
  | first :: rest =>
      if isNameStart first then
        some ((cutWhile isNameCharacter rest).push first)
      else if first = '-' then
        match rest with
        | [] => none
        | second :: rest =>
            if isNameStart second then
              some (((cutWhile isNameCharacter rest).push second).push first)
            else
              none
      else
        none

/-- The hash at the front of a text: a number sign and at least one name character. -/
def cutHash? : List Char → Option Cut
  | '#' :: first :: rest =>
      if isNameCharacter first then
        some (((cutWhile isNameCharacter rest).push first).push '#')
      else
        none
  | _ => none

/-- A possible sign at the front of a text. -/
def cutSign : List Char → Cut
  | '+' :: rest => (['+'], rest)
  | '-' :: rest => (['-'], rest)
  | text => ([], text)

/-- The fraction at the front of a text: a point and the digits after it, if any. -/
def cutFraction : List Char → Cut
  | '.' :: rest => (cutWhile isDecimalDigit rest).push '.'
  | text => ([], text)

/--
The unsigned number at the front of a text: digits with a possible fraction, or
a point and at least one digit.
-/
def cutMagnitude? (text : List Char) : Option Cut :=
  let digits := cutWhile isDecimalDigit text
  let fraction := cutFraction digits.2
  if digits.1 ≠ [] || 2 ≤ fraction.1.length then
    some (digits.1 ++ fraction.1, fraction.2)
  else
    none

/-- The number without a unit at the front of a text. -/
def cutNumeral? (text : List Char) : Option Cut :=
  let sign := cutSign text
  (cutMagnitude? sign.2).map fun magnitude => (sign.1 ++ magnitude.1, magnitude.2)

/-- A possible unit at the front of a text: a percent sign or a word. -/
def cutUnit : List Char → Cut
  | '%' :: rest => (['%'], rest)
  | first :: rest =>
      if isNameStart first then
        (cutWhile isNameCharacter rest).push first
      else
        ([], first :: rest)
  | [] => ([], [])

/-- The number at the front of a text, with its unit. -/
def cutNumber? (text : List Char) : Option Cut :=
  (cutNumeral? text).map fun numeral =>
    let unit := cutUnit numeral.2
    (numeral.1 ++ unit.1, unit.2)

/-- A name is a possible hyphen, a character that begins names and what goes on with it. -/
theorem cutName?_eq_some_iff
    {text : List Char}
    {cut : Cut} :
    cutName? text = some cut ↔
      ∃ hyphen first rest,
        (hyphen = [] ∨ hyphen = ['-']) ∧
          isNameStart first = true ∧
          text = hyphen ++ first :: rest ∧
          cut =
            (hyphen ++ first :: rest.takeWhile isNameCharacter,
              rest.dropWhile isNameCharacter) := by
  constructor
  · fun_cases cutName? text with
    | case1 =>
        rintro ⟨⟩
    | case2 first rest isStart =>
        rintro ⟨rfl⟩
        exact ⟨[], first, rest, .inl rfl, isStart, rfl, rfl⟩
    | case3 =>
        rintro ⟨⟩
    | case4 second rest isStart =>
        rintro ⟨rfl⟩
        exact ⟨['-'], second, rest, .inr rfl, isStart, rfl, rfl⟩
    | case5 =>
        rintro ⟨⟩
    | case6 =>
        rintro ⟨⟩
  · have noStart : isNameStart '-' = false := by decide
    rintro ⟨hyphen, first, rest, rfl | rfl, isStart, rfl, rfl⟩
    · simp [cutName?, isStart, Cut.push, cutWhile]
    · simp [cutName?, noStart, isStart, Cut.push, cutWhile]

/-- A hash is a number sign, a name character and what goes on with it. -/
theorem cutHash?_eq_some_iff
    {text : List Char}
    {cut : Cut} :
    cutHash? text = some cut ↔
      ∃ first rest,
        isNameCharacter first = true ∧
          text = '#' :: first :: rest ∧
          cut =
            ('#' :: first :: rest.takeWhile isNameCharacter,
              rest.dropWhile isNameCharacter) := by
  constructor
  · fun_cases cutHash? text with
    | case1 first rest goesOn =>
        rintro ⟨rfl⟩
        exact ⟨first, rest, goesOn, rfl, rfl⟩
    | case2 =>
        rintro ⟨⟩
    | case3 =>
        rintro ⟨⟩
  · rintro ⟨first, rest, goesOn, rfl, rfl⟩
    simp [cutHash?, goesOn, Cut.push, cutWhile]

/-- Cutting a name loses nothing. -/
theorem whole_of_cutName?
    {text : List Char}
    {cut : Cut}
    (found : cutName? text = some cut) :
    cut.whole = text ∧ cut.1 ≠ [] := by
  obtain ⟨hyphen, first, rest, _, _, rfl, rfl⟩ := cutName?_eq_some_iff.mp found
  simp [Cut.whole]

/-- Cutting a hash loses nothing. -/
theorem whole_of_cutHash?
    {text : List Char}
    {cut : Cut}
    (found : cutHash? text = some cut) :
    cut.whole = text ∧ cut.1 ≠ [] := by
  obtain ⟨first, rest, _, rfl, rfl⟩ := cutHash?_eq_some_iff.mp found
  simp [Cut.whole]

/-- Cutting a sign loses nothing. -/
@[simp] theorem whole_cutSign (text : List Char) :
    (cutSign text).whole = text := by
  fun_cases cutSign text with
  | case1 | case2 | case3 =>
      rfl

/-- Cutting a fraction loses nothing. -/
@[simp] theorem whole_cutFraction (text : List Char) :
    (cutFraction text).whole = text := by
  fun_cases cutFraction text with
  | case1 rest =>
      simp
  | case2 =>
      rfl

/-- Cutting a unit loses nothing. -/
@[simp] theorem whole_cutUnit (text : List Char) :
    (cutUnit text).whole = text := by
  unfold cutUnit
  split
  · rfl
  · split
    · simp
    · rfl
  · rfl

/-- Cutting an unsigned number loses nothing. -/
theorem whole_of_cutMagnitude?
    {text : List Char}
    {cut : Cut}
    (found : cutMagnitude? text = some cut) :
    cut.whole = text ∧ cut.1 ≠ [] := by
  rw [cutMagnitude?, Option.ite_none_right_eq_some] at found
  obtain ⟨someDigit, isCut⟩ := found
  obtain rfl := Option.some.inj isCut
  have digits := whole_cutWhile isDecimalDigit text
  have fraction := whole_cutFraction (cutWhile isDecimalDigit text).2
  refine ⟨?_, ?_⟩
  · simp only [Cut.whole, List.append_assoc] at digits fraction ⊢
    rw [fraction, digits]
  · intro empty
    simp only [List.append_eq_nil_iff] at empty
    simp [empty.1, empty.2] at someDigit

/-- Cutting a number without its unit loses nothing. -/
theorem whole_of_cutNumeral?
    {text : List Char}
    {cut : Cut}
    (found : cutNumeral? text = some cut) :
    cut.whole = text ∧ cut.1 ≠ [] := by
  obtain ⟨magnitude, isMagnitude, rfl⟩ := Option.map_eq_some_iff.mp found
  obtain ⟨whole, nonempty⟩ := whole_of_cutMagnitude? isMagnitude
  have sign := whole_cutSign text
  refine ⟨?_, by simp [nonempty]⟩
  simp only [Cut.whole, List.append_assoc] at whole sign ⊢
  rw [whole, sign]

/-- Cutting a number loses nothing. -/
theorem whole_of_cutNumber?
    {text : List Char}
    {cut : Cut}
    (found : cutNumber? text = some cut) :
    cut.whole = text ∧ cut.1 ≠ [] := by
  obtain ⟨numeral, isNumeral, rfl⟩ := Option.map_eq_some_iff.mp found
  obtain ⟨whole, nonempty⟩ := whole_of_cutNumeral? isNumeral
  have unit := whole_cutUnit numeral.2
  refine ⟨?_, by simp [nonempty]⟩
  simp only [Cut.whole, List.append_assoc] at whole unit ⊢
  rw [unit, whole]

end QtSheet.Text
