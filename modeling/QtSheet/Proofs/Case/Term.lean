import QtSheet.Proofs.Case.Piece
import QtSheet.Proofs.Value.Token

namespace QtSheet

open Text

/-!
# Values in small letters

The terms of a text do not depend on which letters are capital
(`terms?_small`): the names of functions and units are recognised in any case,
and other names are terms in lower case. So whether a value has a shape does not
depend on it either (`Shape.fits_small`).
-/

namespace Value

@[simp] theorem isPlainStart_toLower (c : Char) : isPlainStart c.toLower = isPlainStart c :=
  eq_of_capitals (by decide) c

@[simp] theorem isPlainCharacter_toLower (c : Char) :
    isPlainCharacter c.toLower = isPlainCharacter c :=
  eq_of_capitals (by decide) c

@[simp] theorem isHexDigit_toLower (c : Char) : isHexDigit c.toLower = isHexDigit c :=
  eq_of_capitals (by decide) c

@[simp] theorem sign?_toLower (c : Char) : sign? c.toLower = sign? c :=
  eq_of_capitals (by decide) c

/-- Whether a character is read as a letter of a word does not depend on its case. -/
theorem isLetter_toLower (letter c : Char) : isLetter letter c.toLower = isLetter letter c := by
  have isLong : c.toLower = 'ſ' ↔ c = 'ſ' := toLower_eq_iff (by decide) c
  have isDotted : c.toLower = 'İ' ↔ c = 'İ' := toLower_eq_iff (by decide) c
  have isDotless : c.toLower = 'ı' ↔ c = 'ı' := toLower_eq_iff (by decide) c
  have isSmall : c.toLower.toLower = c.toLower := eq_of_capitals (by decide) c
  rw [Bool.eq_iff_iff]
  simp only [isLetter, isSmall, Bool.or_eq_true, Bool.and_eq_true, beq_iff_eq, isLong,
    isDotted, isDotless]

/-- A word is found alike in small letters. -/
theorem afterWord?_small (word text : List Char) :
    afterWord? word (small text) = (afterWord? word text).map small := by
  fun_induction afterWord? word text with
  | case1 text =>
      simp [afterWord?]
  | case2 letter word =>
      rfl
  | case3 letter word c text stands inductionHypothesis =>
      rw [small_cons, afterWord?, isLetter_toLower, if_pos stands, inductionHypothesis]
  | case4 letter word c text others =>
      rw [small_cons, afterWord?, isLetter_toLower, if_neg others, Option.map_none]

theorem afterAnyWord?_small (words : List String) (text : List Char) :
    afterAnyWord? words (small text) = (afterAnyWord? words text).map small := by
  induction words with
  | nil =>
      rfl
  | cons word words inductionHypothesis =>
      simp only [afterAnyWord?, List.findSome?_cons, afterWord?_small] at inductionHypothesis ⊢
      cases afterWord? word.toList text with
      | some rest =>
          rfl
      | none =>
          exact inductionHypothesis

/-- A term and the text after it in small letters. -/
def TermCut.small (cut : TermCut) : TermCut :=
  (cut.1, Text.small cut.2)

theorem cutCallTerm?_small (text : List Char) :
    cutCallTerm? (small text) = (cutCallTerm? text).map TermCut.small := by
  simp only [cutCallTerm?, afterAnyWord?_small]
  cases afterAnyWord? colorFunctions text with
  | some rest =>
      rfl
  | none =>
      cases afterAnyWord? gradientFunctions text with
      | some rest =>
          rfl
      | none =>
          cases afterAnyWord? paletteFunctions text <;> rfl

/-- A quoted text ends alike in small letters, as no letter is a quote mark. -/
theorem afterQuoted?_small
    {mark : Char}
    (isMark : mark.isAlpha = false)
    (text : List Char) :
    afterQuoted? mark (small text) = (afterQuoted? mark text).map small := by
  have isBlind (c : Char) : (c.toLower != mark) = (c != mark) := by
    rw [Bool.eq_iff_iff]
    simp [toLower_eq_iff isMark]
  rw [afterQuoted?, afterQuoted?, dropWhile_small isBlind]
  cases text.dropWhile fun c => c != mark <;> rfl

theorem afterClose?_small (text : List Char) :
    afterClose? (small text) = (afterClose? text).map small := by
  have isClosing (c : Char) : c.toLower = ')' ↔ c = ')' := toLower_eq_iff (by decide) c
  fun_cases afterClose? text with
  | case1 rest =>
      rfl
  | case2 text notClosing =>
      cases text with
      | nil =>
          rfl
      | cons c rest =>
          simp_all [afterClose?]

theorem afterReference?_small (text : List Char) :
    afterReference? (small text) = (afterReference? text).map small := by
  have isDouble (c : Char) : c.toLower = '"' ↔ c = '"' := toLower_eq_iff (by decide) c
  have isSingle (c : Char) : c.toLower = '\x27' ↔ c = '\x27' := toLower_eq_iff (by decide) c
  have isClosing (c : Char) : c.toLower = ')' ↔ c = ')' := toLower_eq_iff (by decide) c
  have isBlind (c : Char) :
      (!(c.toLower == ')' || c.toLower == '"' || c.toLower == '\x27')) =
        !(c == ')' || c == '"' || c == '\x27') := by
    rw [Bool.eq_iff_iff]
    simp [isDouble, isSingle, isClosing]
  rw [afterReference?, afterReference?, dropWhile_small isBlank_toLower]
  cases text.dropWhile isBlank with
  | nil =>
      rfl
  | cons c rest =>
      simp only [small_cons, isDouble, isSingle]
      by_cases isMark : (decide (c = '"') || decide (c = '\x27')) = true
      · simp only [if_pos isMark]
        simp only [Bool.or_eq_true, decide_eq_true_eq] at isMark
        obtain ⟨notAlpha, isSmall⟩ := isAlpha_toLower_mark isMark
        rw [isSmall, afterQuoted?_small notAlpha, Option.bind_map, Option.map_bind]
        congr 1
        funext rest
        simp only [Function.comp_apply, dropWhile_small isBlank_toLower, afterClose?_small]
      · simp only [if_neg isMark]
        rw [← small_cons, dropWhile_small isBlind, afterClose?_small]

theorem cutUrlTerm?_small (text : List Char) :
    cutUrlTerm? (small text) = (cutUrlTerm? text).map TermCut.small := by
  rw [cutUrlTerm?, cutUrlTerm?, afterWord?_small, Option.bind_map, Option.map_map, Option.map_bind,
    Option.map_bind]
  congr 1
  funext rest
  simp only [Function.comp_apply, afterReference?_small, Option.map_map]
  rfl

theorem cutHyphen_small (text : List Char) : cutHyphen (small text) = (cutHyphen text).small := by
  have isHyphen (c : Char) : c.toLower = '-' ↔ c = '-' := toLower_eq_iff (by decide) c
  fun_cases cutHyphen text with
  | case1 rest =>
      rfl
  | case2 text notHyphen =>
      cases text with
      | nil =>
          rfl
      | cons c rest =>
          simp_all [cutHyphen, Cut.small]

theorem cutPlainName?_small (text : List Char) :
    cutPlainName? (small text) = (cutPlainName? text).map Cut.small := by
  simp only [cutPlainName?, cutHyphen_small, Cut.small]
  cases (cutHyphen text).2 with
  | nil =>
      rfl
  | cons c rest =>
      simp only [small_cons, isPlainStart_toLower, takeWhile_small isPlainCharacter_toLower,
        dropWhile_small isPlainCharacter_toLower]
      split <;> simp [Cut.small]

theorem cutNameTerm?_small (text : List Char) :
    cutNameTerm? (small text) = (cutNameTerm? text).map TermCut.small := by
  rw [cutNameTerm?, cutNameTerm?, cutPlainName?_small, Option.map_map, Option.map_map]
  congr 1
  funext name
  simp [Cut.small, TermCut.small, lowercase_small]

theorem endsNumeral_small (text : List Char) : endsNumeral (small text) = endsNumeral text := by
  cases text with
  | nil =>
      rfl
  | cons c rest =>
      rw [Bool.eq_iff_iff]
      simp [endsNumeral, toLower_eq_iff (show '%'.isAlpha = false by decide),
        toLower_eq_iff (show '.'.isAlpha = false by decide)]

theorem cutNumeralUnit?_small (text : List Char) :
    cutNumeralUnit? (small text) =
      (cutNumeralUnit? text).map fun cut => (cut.1, small cut.2) := by
  simp only [cutNumeralUnit?, endsNumeral_small, afterWord?_small, afterAnyWord?_small]
  split
  · rfl
  · cases afterWord? ['%'] text with
    | some rest =>
        simp only [Option.map_some, endsNumeral_small]
        split <;> rfl
    | none =>
        cases afterAnyWord? lengthUnits text with
        | some rest =>
            simp only [Option.map_none, Option.map_some, endsNumeral_small]
            split <;> rfl
        | none =>
            rfl

theorem cutNumeralTerm?_small (text : List Char) :
    cutNumeralTerm? (small text) = (cutNumeralTerm? text).map TermCut.small := by
  rw [cutNumeralTerm?, cutNumeralTerm?, cutNumeral?_small, Option.bind_map, Option.map_bind]
  congr 1
  funext numeral
  simp only [Function.comp_apply, Cut.small, cutNumeralUnit?_small, Option.map_map]
  rfl

theorem cutHexTerm?_small (text : List Char) :
    cutHexTerm? (small text) = (cutHexTerm? text).map TermCut.small := by
  have sameHead (rest : List Char) :
      (small rest).head?.any isNameCharacter = rest.head?.any isNameCharacter := by
    cases rest <;> simp
  simp only [cutHexTerm?, cutWhile_small isHexDigit_toLower, Cut.small, length_small, sameHead]
  split <;> rfl

theorem cutWordTerm?_small (text : List Char) :
    cutWordTerm? (small text) = (cutWordTerm? text).map TermCut.small := by
  simp only [cutWordTerm?, cutCallTerm?_small, cutUrlTerm?_small, cutNameTerm?_small,
    cutNumeralTerm?_small, Option.orElse_eq_orElse, Option.orElse_eq_or, Option.map_or]

theorem cutTerm?_small (c : Char) (rest : List Char) :
    cutTerm? c.toLower (small rest) = (cutTerm? c rest).map TermCut.small := by
  simp only [cutTerm?, sign?_toLower, toLower_eq_iff (show '#'.isAlpha = false by decide),
    toLower_eq_iff (show '"'.isAlpha = false by decide),
    toLower_eq_iff (show '\x27'.isAlpha = false by decide), cutHexTerm?_small]
  cases sign? c with
  | some sign =>
      rfl
  | none =>
      dsimp only
      by_cases isHash : c = '#'
      · simp only [if_pos isHash]
      · by_cases isMark : (decide (c = '"') || decide (c = '\x27')) = true
        · simp only [if_neg isHash, if_pos isMark]
          simp only [Bool.or_eq_true, decide_eq_true_eq] at isMark
          obtain ⟨notAlpha, isSmall⟩ := isAlpha_toLower_mark isMark
          rw [isSmall, afterQuoted?_small notAlpha, Option.map_map, Option.map_map]
          rfl
        · simp only [if_neg isHash, if_neg isMark]
          rw [← small_cons, cutWordTerm?_small]

/-- The terms of a text do not depend on which letters are capital. -/
theorem terms?_small (text : List Char) : terms? (small text) = terms? text := by
  fun_induction terms? text with
  | case1 =>
      exact terms?.eq_1
  | case2 c rest isLayout inductionHypothesis =>
      rw [small_cons, terms?_of_isLayout (by rwa [isLayout_toLower]), inductionHypothesis]
  | case3 c rest notLayout noTerm =>
      have noSmallTerm : cutTerm? c.toLower (small rest) = none := by
        rw [cutTerm?_small, noTerm, Option.map_none]
      rw [small_cons, terms?, if_neg (by simpa using notLayout)]
      split <;> simp_all
  | case4 c rest notLayout term after isTerm inductionHypothesis =>
      have isSmallTerm : cutTerm? c.toLower (small rest) = some (term, small after) := by
        rw [cutTerm?_small, isTerm]
        rfl
      rw [small_cons, terms?_of_cutTerm? (by simpa using notLayout) isSmallTerm,
        inductionHypothesis]

end Value

/-- A token in small letters. -/
def Token.small (token : Token) : Token :=
  { token with text := String.ofList (Text.small token.text.toList) }

theorem Token.toList_joined_small (tokens : List Token) :
    (Token.joined (tokens.map Token.small)).toList = Text.small (Token.joined tokens).toList := by
  induction tokens with
  | nil =>
      rfl
  | cons first rest inductionHypothesis =>
      cases rest with
      | nil =>
          rw [List.map_cons, List.map_nil, Value.toList_joined_singleton,
            Value.toList_joined_singleton, Token.small, String.toList_ofList]
      | cons second rest =>
          rw [List.map_cons, List.map_cons] at *
          rw [Value.toList_joined_cons, Value.toList_joined_cons, inductionHypothesis, small_append,
            small_cons, Token.small, String.toList_ofList]
          rfl

/-- A keyword is a keyword in small letters too. -/
theorem Value.isKeyword_small (words : List String) (token : Token) :
    isKeyword words token.small = isKeyword words token := by
  have sameWord : lowercase token.small.text = lowercase token.text := by
    rw [Token.small, lowercase_small, String.ofList_toList]
  rw [isKeyword, isKeyword, sameWord]
  rfl

/-- Whether a value has a shape does not depend on which letters are capital. -/
theorem Shape.fits_small (shape : Shape) (tokens : List Token) :
    shape.fits (tokens.map Token.small) = shape.fits tokens := by
  cases shape with
  | keyword words most =>
      simp only [fits, List.length_map, List.all_map, Function.comp_def, Value.isKeyword_small]
  | any =>
      rfl
  | _ =>
      simp only [fits, Value.hasTerms, Token.toList_joined_small, Value.terms?_small]

end QtSheet
