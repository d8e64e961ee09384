import QtSheet.Text.Blank
import QtSheet.Text.Lowercase
import QtSheet.Text.Word

namespace QtSheet.Value

/-!
# Terms

The text of a value is a sequence of terms with layout between them: colors,
calls, names, numerals, strings, references and signs. What a term is does not
depend on the terms around it. A text with a stretch that is no term has no
terms at all (`terms?`).

Names of functions and units are recognised in any case. As in other
case-insensitive comparisons of text, the long s stands for an s, and the i
with and without a dot for an i.
-/

open Text

/-- What stands behind the digits of a numeral. -/
inductive NumeralUnit where
  | plain
  | length
  | percent
  deriving Repr, DecidableEq

/-- One term of a value. -/
inductive Term where
  /-- A color in hexadecimal digits. -/
  | hexColor
  /-- The name of a color function and its opening parenthesis. -/
  | colorCall
  /-- The name of a gradient function and its opening parenthesis. -/
  | gradientCall
  /-- The name of the palette function and its opening parenthesis. -/
  | paletteCall
  /-- A reference to a file. -/
  | url
  /-- A name, in lower case. -/
  | name (word : String)
  /-- A number with its unit. -/
  | numeral (unit : NumeralUnit)
  /-- A quoted text. -/
  | string
  | comma
  | slash
  | colon
  /-- A closing parenthesis. -/
  | close
  deriving Repr, DecidableEq

/-- Whether a character stands for a lower-case letter, or is the given sign. -/
def isLetter (letter c : Char) : Bool :=
  c.toLower == letter ||
    (letter == 's' && c == '\u017f') ||
    (letter == 'i' && (c == '\u0130' || c == '\u0131'))

/-- The text after a word at its front, if the text begins with the word. -/
def afterWord? : List Char → List Char → Option (List Char)
  | [], text => some text
  | _ :: _, [] => none
  | letter :: word, c :: text => if isLetter letter c then afterWord? word text else none

/-- The text after the first of the given words that it begins with. -/
def afterAnyWord? (words : List String) (text : List Char) : Option (List Char) :=
  words.findSome? fun word => afterWord? word.toList text

/-- The functions that give a color. -/
def colorFunctions : List String :=
  ["rgba(", "rgb(", "hsva(", "hsv(", "hsla(", "hsl("]

/-- The functions that give a gradient. -/
def gradientFunctions : List String :=
  ["qlineargradient(", "qradialgradient(", "qconicalgradient("]

/-- The function that gives a color of the palette. -/
def paletteFunctions : List String :=
  ["palette("]

/-- The units of a length. -/
def lengthUnits : List String :=
  ["px", "pt", "em", "ex"]

/-- A term at the front of a text, and the text after it. -/
abbrev TermCut := Term × List Char

/-- The call at the front of a text, without its arguments. -/
def cutCallTerm? (text : List Char) : Option TermCut :=
  match afterAnyWord? colorFunctions text with
  | some rest => some (.colorCall, rest)
  | none =>
      match afterAnyWord? gradientFunctions text with
      | some rest => some (.gradientCall, rest)
      | none => (afterAnyWord? paletteFunctions text).map fun rest => (.paletteCall, rest)

/-- The text after a quoted text, from its content on. -/
def afterQuoted? (mark : Char) (text : List Char) : Option (List Char) :=
  match text.dropWhile fun c => c != mark with
  | [] => none
  | _ :: rest => some rest

/-- The text after a closing parenthesis at its front. -/
def afterClose? : List Char → Option (List Char)
  | ')' :: rest => some rest
  | _ => none

/-- The text after a reference, from its content on: a quoted text, or characters without marks. -/
def afterReference? (text : List Char) : Option (List Char) :=
  match text.dropWhile isBlank with
  | [] => none
  | c :: rest =>
      if c = '"' || c = '\x27' then
        (afterQuoted? c rest).bind fun rest => afterClose? (rest.dropWhile isBlank)
      else
        afterClose? ((c :: rest).dropWhile fun c => !(c == ')' || c == '"' || c == '\x27'))

/-- The reference at the front of a text. -/
def cutUrlTerm? (text : List Char) : Option TermCut :=
  ((afterWord? ['u', 'r', 'l', '('] text).bind afterReference?).map fun rest => (.url, rest)

/-- Whether a plain name may begin with a character, after a possible hyphen. -/
def isPlainStart (c : Char) : Bool :=
  c.isAlpha || c == '_'

/-- Whether a plain name may go on with a character. -/
def isPlainCharacter (c : Char) : Bool :=
  c.isAlphanum || c == '_' || c == '-'

/-- A possible hyphen at the front of a text. -/
def cutHyphen : List Char → Cut
  | '-' :: rest => (['-'], rest)
  | text => ([], text)

/-- The name in letters, digits, hyphens and low lines of ASCII at the front of a text. -/
def cutPlainName? (text : List Char) : Option Cut :=
  let hyphen := cutHyphen text
  match hyphen.2 with
  | [] => none
  | c :: rest =>
      if isPlainStart c then
        some (hyphen.1 ++ c :: rest.takeWhile isPlainCharacter, rest.dropWhile isPlainCharacter)
      else
        none

/-- The name at the front of a text. -/
def cutNameTerm? (text : List Char) : Option TermCut :=
  (cutPlainName? text).map fun name => (.name (lowercase (String.ofList name.1)), name.2)

/-- Whether a numeral may end in front of a text. -/
def endsNumeral : List Char → Bool
  | [] => true
  | c :: _ => !(isNameCharacter c || c == '%' || c == '.')

/-- The unit at the front of a text, which ends a numeral. -/
def cutNumeralUnit? (text : List Char) : Option (NumeralUnit × List Char) :=
  if endsNumeral text then
    some (.plain, text)
  else
    match afterWord? ['%'] text, afterAnyWord? lengthUnits text with
    | some rest, _ => if endsNumeral rest then some (.percent, rest) else none
    | none, some rest => if endsNumeral rest then some (.length, rest) else none
    | none, none => none

/-- The numeral at the front of a text. -/
def cutNumeralTerm? (text : List Char) : Option TermCut :=
  (cutNumeral? text).bind fun numeral =>
    (cutNumeralUnit? numeral.2).map fun (unit, rest) => (.numeral unit, rest)

/-- Whether a character is a hexadecimal digit. -/
def isHexDigit (c : Char) : Bool :=
  c.isDigit || ('a' ≤ c && c ≤ 'f') || ('A' ≤ c && c ≤ 'F')

/-- The rest of a color in hexadecimal digits, of which there are three, six or eight. -/
def cutHexTerm? (text : List Char) : Option TermCut :=
  let digits := cutWhile isHexDigit text
  let count := digits.1.length
  if (count = 3 || count = 6 || count = 8) && !(digits.2.head?.any isNameCharacter) then
    some (.hexColor, digits.2)
  else
    none

/-- The sign that a character is. -/
def sign? (c : Char) : Option Term :=
  match c with
  | ',' => some .comma
  | '/' => some .slash
  | ':' => some .colon
  | ')' => some .close
  | _ => none

/-- The word or numeral at the front of a text. -/
def cutWordTerm? (text : List Char) : Option TermCut :=
  cutCallTerm? text <|> cutUrlTerm? text <|> cutNameTerm? text <|> cutNumeralTerm? text

/-- The term at the front of a text. -/
def cutTerm? (c : Char) (rest : List Char) : Option TermCut :=
  match sign? c with
  | some sign => some (sign, rest)
  | none =>
      if c = '#' then
        cutHexTerm? rest
      else if c = '"' || c = '\x27' then
        (afterQuoted? c rest).map fun rest => (.string, rest)
      else
        cutWordTerm? (c :: rest)

/-- The text after a word is shorter by the length of the word. -/
theorem length_of_afterWord?
    {word text rest : List Char}
    (found : afterWord? word text = some rest) :
    rest.length + word.length = text.length := by
  fun_induction afterWord? word text with
  | case1 text =>
      obtain rfl := Option.some.inj found
      rfl
  | case2 =>
      contradiction
  | case3 letter word c text _ inductionHypothesis =>
      have shorter := inductionHypothesis found
      simp only [List.length_cons]
      omega
  | case4 =>
      contradiction

/-- The text after one of some words that are not empty is shorter. -/
theorem length_of_afterAnyWord?
    {words : List String}
    {text rest : List Char}
    (nonempty : ∀ word ∈ words, 0 < word.toList.length)
    (found : afterAnyWord? words text = some rest) :
    rest.length < text.length := by
  obtain ⟨word, member, isFound⟩ := List.exists_of_findSome?_eq_some found
  have shorter := length_of_afterWord? isFound
  have positive := nonempty word member
  omega

/-- The text after a call is shorter. -/
theorem length_of_cutCallTerm?
    {text : List Char}
    {cut : TermCut}
    (found : cutCallTerm? text = some cut) :
    cut.2.length < text.length := by
  revert found
  fun_cases cutCallTerm? text with
  | case1 rest isColor =>
      rintro ⟨rfl⟩
      exact length_of_afterAnyWord? (by decide) isColor
  | case2 noColor rest isGradient =>
      rintro ⟨rfl⟩
      exact length_of_afterAnyWord? (by decide) isGradient
  | case3 noColor noGradient =>
      intro found
      obtain ⟨rest, isPalette, rfl⟩ := Option.map_eq_some_iff.mp found
      exact length_of_afterAnyWord? (by decide) isPalette

/-- Leaving out characters at the front makes no text longer. -/
theorem length_dropWhile_le (inClass : Char → Bool) (text : List Char) :
    (text.dropWhile inClass).length ≤ text.length :=
  (List.dropWhile_suffix inClass).length_le

/-- The text after a quoted text is shorter. -/
theorem length_of_afterQuoted?
    {mark : Char}
    {text rest : List Char}
    (found : afterQuoted? mark text = some rest) :
    rest.length < text.length := by
  have shorter := length_dropWhile_le (fun c => c != mark) text
  revert found
  fun_cases afterQuoted? mark text with
  | case1 noMark =>
      rintro ⟨⟩
  | case2 closing after left =>
      rintro ⟨rfl⟩
      rw [left, List.length_cons] at shorter
      omega

/-- The text after a closing parenthesis is shorter. -/
theorem length_of_afterClose?
    {text rest : List Char}
    (found : afterClose? text = some rest) :
    rest.length < text.length := by
  unfold afterClose? at found
  split at found
  · obtain rfl := Option.some.inj found
    simp
  · contradiction

/-- The text after a reference is shorter. -/
theorem length_of_afterReference?
    {text rest : List Char}
    (found : afterReference? text = some rest) :
    rest.length < text.length := by
  have blanks := length_dropWhile_le isBlank text
  revert found
  fun_cases afterReference? text with
  | case1 noneLeft =>
      rintro ⟨⟩
  | case2 mark after left isMark =>
      intro found
      rw [left, List.length_cons] at blanks
      obtain ⟨tail, isQuoted, closed⟩ := Option.bind_eq_some_iff.mp found
      have quotedShorter := length_of_afterQuoted? isQuoted
      have closeShorter := length_of_afterClose? closed
      have tailBlanks := length_dropWhile_le isBlank tail
      omega
  | case3 c after left noMark =>
      intro found
      rw [left, List.length_cons] at blanks
      have closeShorter := length_of_afterClose? found
      have body := length_dropWhile_le
        (fun c => !(c == ')' || c == '"' || c == '\x27')) (c :: after)
      rw [List.length_cons] at body
      omega

/-- The text after a reference with its name is shorter. -/
theorem length_of_cutUrlTerm?
    {text : List Char}
    {cut : TermCut}
    (found : cutUrlTerm? text = some cut) :
    cut.2.length < text.length := by
  obtain ⟨rest, isUrl, rfl⟩ := Option.map_eq_some_iff.mp found
  obtain ⟨body, isName, isReference⟩ := Option.bind_eq_some_iff.mp isUrl
  have nameShorter := length_of_afterWord? isName
  have referenceShorter := length_of_afterReference? isReference
  dsimp only
  omega

/-- Cutting a possible hyphen makes no text longer. -/
theorem length_cutHyphen (text : List Char) :
    (cutHyphen text).2.length ≤ text.length := by
  unfold cutHyphen
  split
  · simp
  · exact Nat.le_refl _

/-- The text after a name is shorter. -/
theorem length_of_cutNameTerm?
    {text : List Char}
    {cut : TermCut}
    (found : cutNameTerm? text = some cut) :
    cut.2.length < text.length := by
  obtain ⟨name, isName, rfl⟩ := Option.map_eq_some_iff.mp found
  have hyphen := length_cutHyphen text
  revert isName
  fun_cases cutPlainName? text with
  | case1 cut noneLeft =>
      rintro ⟨⟩
  | case2 cut c rest left isStart =>
      rintro ⟨rfl⟩
      have body := length_dropWhile_le isPlainCharacter rest
      rw [left, List.length_cons] at hyphen
      dsimp only
      omega
  | case3 cut c rest left noStart =>
      rintro ⟨⟩

/-- The text after a unit is not longer. -/
theorem length_of_cutNumeralUnit?
    {text : List Char}
    {cut : NumeralUnit × List Char}
    (found : cutNumeralUnit? text = some cut) :
    cut.2.length ≤ text.length := by
  revert found
  fun_cases cutNumeralUnit? text with
  | case1 noUnit =>
      rintro ⟨rfl⟩
      exact Nat.le_refl _
  | case2 someUnit rest isPercent ends =>
      rintro ⟨rfl⟩
      have shorter := length_of_afterWord? isPercent
      dsimp only
      omega
  | case3 =>
      rintro ⟨⟩
  | case4 someUnit rest isLength notPercent ends =>
      rintro ⟨rfl⟩
      exact Nat.le_of_lt (length_of_afterAnyWord? (by decide) isLength)
  | case5 =>
      rintro ⟨⟩
  | case6 =>
      rintro ⟨⟩

/-- The text after a numeral is shorter. -/
theorem length_of_cutNumeralTerm?
    {text : List Char}
    {cut : TermCut}
    (found : cutNumeralTerm? text = some cut) :
    cut.2.length < text.length := by
  obtain ⟨numeral, isNumeral, rest⟩ := Option.bind_eq_some_iff.mp found
  obtain ⟨unit, isUnit, rfl⟩ := Option.map_eq_some_iff.mp rest
  obtain ⟨whole, nonempty⟩ := whole_of_cutNumeral? isNumeral
  have unitLength := length_of_cutNumeralUnit? isUnit
  have positive := List.length_pos_iff.mpr nonempty
  rw [← whole, Cut.whole, List.length_append]
  dsimp only
  omega

/-- The text after a word or numeral is shorter. -/
theorem length_of_cutWordTerm?
    {text : List Char}
    {cut : TermCut}
    (found : cutWordTerm? text = some cut) :
    cut.2.length < text.length := by
  simp only [cutWordTerm?, Option.orElse_eq_orElse, Option.orElse_eq_or,
    Option.or_eq_some_iff] at found
  rcases found with isCall | ⟨_, isUrl | ⟨_, isName | ⟨_, isNumeral⟩⟩⟩
  · exact length_of_cutCallTerm? isCall
  · exact length_of_cutUrlTerm? isUrl
  · exact length_of_cutNameTerm? isName
  · exact length_of_cutNumeralTerm? isNumeral

/-- The text after a term is shorter than the text with it. -/
theorem length_of_cutTerm?
    {c : Char}
    {rest : List Char}
    {cut : TermCut}
    (found : cutTerm? c rest = some cut) :
    cut.2.length ≤ rest.length := by
  unfold cutTerm? at found
  split at found
  · obtain rfl := Option.some.inj found
    exact Nat.le_refl _
  · split at found
    · unfold cutHexTerm? at found
      dsimp only at found
      split at found
      · obtain rfl := Option.some.inj found
        exact length_dropWhile_le isHexDigit rest
      · contradiction
    · split at found
      · obtain ⟨after, isQuoted, rfl⟩ := Option.map_eq_some_iff.mp found
        exact Nat.le_of_lt (length_of_afterQuoted? isQuoted)
      · exact Nat.le_of_lt_succ (length_of_cutWordTerm? found)

/-- The terms of the text of a value, if all of it is terms and layout. -/
def terms? : List Char → Option (List Term)
  | [] => some []
  | c :: rest =>
      if isLayout c then
        terms? rest
      else
        match _cut : cutTerm? c rest with
        | none => none
        | some (term, after) => (terms? after).map fun terms => term :: terms
termination_by text => text.length
decreasing_by
  · simp
  · have shorter := length_of_cutTerm? _cut
    simp only [List.length_cons]
    dsimp only at shorter
    omega

end QtSheet.Value
