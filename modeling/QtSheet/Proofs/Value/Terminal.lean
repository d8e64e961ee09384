import QtSheet.Proofs.Truncation
import QtSheet.Proofs.Value.Letter
import QtSheet.Proofs.Value.Pattern
import QtSheet.Value.Grammar

namespace QtSheet.Value

open Text

/-!
# Terminals

The terminals of the grammar of values, each with its pattern
(`Terminal.pattern`), where words are in any case:

```text
hex color  #([0-9a-fA-F]{8}|[0-9a-fA-F]{6}|[0-9a-fA-F]{3})(?![\w-])
color      (rgba|rgb|hsva|hsv|hsla|hsl)\(
gradient   q(linear|radial|conical)gradient\(
palette    palette\(
url        url\(\s*("[^"]*"|'[^']*'|[^)"']*)\s*\)
name       -?[a-zA-Z_][a-zA-Z0-9_-]*
length     [+-]?(\d+(\.\d*)?|\.\d+)(px|pt|em|ex)?(?![\w%.-])
number     [+-]?(\d+(\.\d*)?|\.\d+)%?(?![\w%.-])
string     "[^"]*"|'[^']*'
```

The lemmas of this module say that the match of a terminal is what the function
that cuts its term leaves: that function looks at each character once, and the
pattern may go back.
-/

/-- A terminal of the grammar of values. -/
inductive Terminal where
  | hexColor
  | colorFunction
  | gradientFunction
  | paletteFunction
  | url
  | name
  | length
  | number
  | string
  | comma
  | slash
  | colon
  | close
  deriving Repr, DecidableEq

namespace Pattern

/-- An unsigned number: digits with a possible fraction, or a point and digits. -/
def magnitude : Pattern :=
  either
    (seq (atLeastOne isDecimalDigit)
      (optional (seq (character '.') (many isDecimalDigit))))
    (seq (character '.') (atLeastOne isDecimalDigit))

/-- A number with a possible sign. -/
def numeral : Pattern :=
  seq (optional (one fun c => c == '+' || c == '-')) magnitude

/-- The end of a numeral: it does not go on like a word or a number. -/
def numeralEnd : Pattern :=
  notAhead fun c => isNameCharacter c || c == '%' || c == '.'

/-- The end of a length: a possible unit, and nothing that goes on. -/
def lengthEnd : Pattern :=
  seq (optional (anyWord ["px", "pt", "em", "ex"])) numeralEnd

/-- The end of a number: a possible percent sign, and nothing that goes on. -/
def numberEnd : Pattern :=
  seq (optional (character '%')) numeralEnd

/-- A character of a reference that is not quoted. -/
def isUnquoted (c : Char) : Bool :=
  !(c == ')' || c == '"' || c == '\x27')

/-- The end of a reference. -/
def referenceEnd : Pattern :=
  seq (many isBlank) (character ')')

/-- A reference from its content on: a quoted text, or characters without marks. -/
def content : Pattern :=
  seq (either (quoted '"') (either (quoted '\x27') (many isUnquoted))) referenceEnd

end Pattern

/-- The pattern of a terminal. -/
def Terminal.pattern : Terminal → Pattern
  | hexColor =>
      .seq (.character '#')
        (.seq
          (.either (.exactly 8 isHexDigit)
            (.either (.exactly 6 isHexDigit) (.exactly 3 isHexDigit)))
          (.notAhead isNameCharacter))
  | colorFunction =>
      .seq (.anyWord ["rgba", "rgb", "hsva", "hsv", "hsla", "hsl"]) (.word "(")
  | gradientFunction =>
      .seq (.word "q") (.seq (.anyWord ["linear", "radial", "conical"]) (.word "gradient("))
  | paletteFunction =>
      .word "palette("
  | url =>
      .seq (.word "url(") (.seq (.many isBlank) .content)
  | name =>
      .seq (.optional (.character '-')) (.seq (.one isPlainStart) (.many isPlainCharacter))
  | length =>
      .seq .numeral .lengthEnd
  | number =>
      .seq .numeral .numberEnd
  | string =>
      .either (.quoted '"') (.quoted '\x27')
  | comma => .character ','
  | slash => .character '/'
  | colon => .character ':'
  | close => .character ')'

namespace Pattern

theorem first?_numeralEnd (text : List Char) :
    numeralEnd.first? text = if endsNumeral text then some text else none := by
  rw [numeralEnd, first?_notAhead]
  cases text with
  | nil =>
      rfl
  | cons c text =>
      cases goesOn : (isNameCharacter c || c == '%' || c == '.') <;> simp [endsNumeral, goesOn]

/-- A pattern does not match where a number goes on. -/
structure EndsNumber (back : Pattern) : Prop where
  noDigit : ∀ c text, isDecimalDigit c = true → back.first? (c :: text) = none
  noPoint : ∀ text, back.first? ('.' :: text) = none

namespace EndsNumber

variable {back : Pattern}

/-- Digits in front of the end of a number are taken whole. -/
theorem first?_digits_seq (ends : back.EndsNumber) (text : List Char) :
    (seq (many isDecimalDigit) back).first? text =
      back.first? (text.dropWhile isDecimalDigit) :=
  first?_many_seq (fun c rest isDigit _ => ends.noDigit c rest isDigit) text

/-- A possible fraction is taken whole where no digit and no point may follow. -/
theorem first?_fraction_seq (ends : back.EndsNumber) (text : List Char) :
    (seq (optional (seq (character '.') (many isDecimalDigit))) back).first? text =
      back.first? (cutFraction text).2 := by
  rw [first?_optional_seq, first?_seq_seq, character]
  fun_cases cutFraction text with
  | case1 rest =>
      rw [first?_one_seq_cons, if_pos (by decide), ends.first?_digits_seq, ends.noPoint,
        Option.or_none]
      rfl
  | case2 text noFraction =>
      cases text with
      | nil =>
          rw [first?_one_seq_nil, Option.none_or]
      | cons c text =>
          have notPoint : c ≠ '.' := fun isPoint => noFraction text (isPoint ▸ rfl)
          rw [first?_one_seq_cons, if_neg (by simpa using notPoint), Option.none_or]

/-- Digits, and then a possible fraction. -/
theorem first?_integer_seq (ends : back.EndsNumber) (c : Char) (text : List Char) :
    (seq (seq (atLeastOne isDecimalDigit)
        (optional (seq (character '.') (many isDecimalDigit)))) back).first? (c :: text) =
      if isDecimalDigit c then
        back.first? (cutFraction (text.dropWhile isDecimalDigit)).2
      else
        none := by
  have noGain :
      ∀ c rest,
        isDecimalDigit c = true →
        (seq (optional (seq (character '.') (many isDecimalDigit))) back).first? rest = none →
        (seq (optional (seq (character '.') (many isDecimalDigit))) back).first? (c :: rest) =
          none := by
    intro c rest isDigit _
    have notPoint : c ≠ '.' := by
      rintro rfl
      exact absurd isDigit (by decide)
    rw [ends.first?_fraction_seq]
    simp [cutFraction, notPoint, ends.noDigit c rest isDigit]
  rw [first?_seq_seq, atLeastOne, first?_seq_seq, first?_one_seq_cons, first?_many_seq noGain,
    ends.first?_fraction_seq]

/-- A point, and then digits. -/
theorem first?_point_seq (ends : back.EndsNumber) (c : Char) (text : List Char) :
    (seq (seq (character '.') (atLeastOne isDecimalDigit)) back).first? (c :: text) =
      if c = '.' ∧ text.head?.any isDecimalDigit then
        back.first? (text.dropWhile isDecimalDigit)
      else
        none := by
  rw [first?_seq_seq, character, first?_one_seq_cons, atLeastOne, first?_seq_seq]
  cases text with
  | nil =>
      simp [first?_one_seq_nil]
  | cons digit rest =>
      rw [first?_one_seq_cons, ends.first?_digits_seq]
      cases isDigit : isDecimalDigit digit <;> simp [isDigit]

/-- An unsigned number is taken whole where no digit and no point may follow. -/
theorem first?_magnitude_seq (ends : back.EndsNumber) (text : List Char) :
    (seq magnitude back).first? text =
      (cutMagnitude? text).bind fun cut => back.first? cut.2 := by
  cases text with
  | nil =>
      rfl
  | cons c text =>
      rw [magnitude, first?_either_seq, ends.first?_integer_seq, ends.first?_point_seq]
      cases isDigit : isDecimalDigit c with
      | true =>
          have notPoint : c ≠ '.' := by
            rintro rfl
            exact absurd isDigit (by decide)
          simp [cutMagnitude?, cutWhile, isDigit, notPoint]
      | false =>
          by_cases isPoint : c = '.'
          · subst isPoint
            cases text with
            | nil => simp [cutMagnitude?, cutWhile, cutFraction, isDigit, Cut.push]
            | cons digit rest =>
                cases isNext : isDecimalDigit digit <;>
                  simp [cutMagnitude?, cutWhile, cutFraction, isDigit, isNext, Cut.push]
          · simp [cutMagnitude?, cutWhile, cutFraction, isDigit, isPoint]

/-- A number without its unit is taken whole where no digit and no point may follow. -/
theorem first?_numeral_seq (ends : back.EndsNumber) (text : List Char) :
    (seq numeral back).first? text =
      (cutNumeral? text).bind fun cut => back.first? cut.2 := by
  have noSign :
      ∀ rest, cutMagnitude? ('+' :: rest) = none ∧ cutMagnitude? ('-' :: rest) = none := by
    have noDigit : isDecimalDigit '+' = false ∧ isDecimalDigit '-' = false := by decide
    simp [cutMagnitude?, cutWhile, cutFraction, noDigit]
  rw [numeral, first?_seq_seq, first?_optional_seq, ends.first?_magnitude_seq, cutNumeral?,
    Option.bind_map]
  fun_cases cutSign text with
  | case1 rest =>
      rw [first?_one_seq_cons, if_pos (by decide), ends.first?_magnitude_seq, (noSign rest).1,
        Option.bind_none, Option.or_none]
      rfl
  | case2 rest =>
      rw [first?_one_seq_cons, if_pos (by decide), ends.first?_magnitude_seq, (noSign rest).2,
        Option.bind_none, Option.or_none]
      rfl
  | case3 text notPlus notMinus =>
      cases text with
      | nil =>
          rfl
      | cons c rest =>
          have unsigned : (c == '+' || c == '-') = false := by
            simp only [Bool.or_eq_false_iff, beq_eq_false_iff_ne]
            exact ⟨fun isPlus => notPlus rest (isPlus ▸ rfl),
              fun isMinus => notMinus rest (isMinus ▸ rfl)⟩
          rw [first?_one_seq_cons, if_neg (by simp [unsigned]), Option.none_or]
          rfl

end EndsNumber

/-- Words of one length leave the same rest, so the first that matches decides. -/
theorem findSome?_afterWord?_bind
    {words : List String}
    {size : Nat}
    (sameSize : ∀ word ∈ words, word.toList.length = size)
    (text : List Char)
    (next? : List Char → Option (List Char)) :
    (words.findSome? fun word => (afterWord? word.toList text).bind next?) =
      (afterAnyWord? words text).bind next? := by
  rw [afterAnyWord?]
  induction words with
  | nil =>
      rfl
  | cons word words inductionHypothesis =>
      rw [List.forall_mem_cons] at sameSize
      rw [List.findSome?_cons, List.findSome?_cons, inductionHypothesis sameSize.2]
      cases found : afterWord? word.toList text with
      | none =>
          rfl
      | some rest =>
          cases isNext : next? rest with
          | some after => simp [isNext]
          | none =>
              simp only [Option.bind_some, isNext]
              cases later : words.findSome? fun word => afterWord? word.toList text with
              | none => rfl
              | some other =>
                  obtain ⟨second, member, isSecond⟩ := List.exists_of_findSome?_eq_some later
                  have same : other = rest := by
                    rw [eq_drop_of_afterWord? isSecond, eq_drop_of_afterWord? found,
                      sameSize.1, sameSize.2 second member]
                  rw [same, Option.bind_some, isNext]

/-- A text that begins with a unit begins with a letter. -/
theorem isAlpha_of_unit
    {text rest : List Char}
    (found : afterAnyWord? lengthUnits text = some rest) :
    ∃ c after, text = c :: after ∧ c.isAlpha = true := by
  have begins : Begins ['p', 'e'] text := begins_of_afterAnyWord? (by decide) (by decide) found
  cases text with
  | nil => simp [Begins] at begins
  | cons c after => exact ⟨c, after, rfl, begins.isAlpha (by decide)⟩

/-- No unit is at the end of a numeral. -/
theorem afterAnyWord?_of_endsNumeral
    {text : List Char}
    (ends : endsNumeral text = true) :
    afterAnyWord? lengthUnits text = none := by
  apply Option.eq_none_iff_forall_ne_some.mpr
  intro rest found
  obtain ⟨c, after, rfl, isAlpha⟩ := isAlpha_of_unit found
  simp [endsNumeral, isNameCharacter_of_isAlpha isAlpha] at ends

/-- A percent sign at the front of a text. -/
theorem eq_of_afterPercent
    {text rest : List Char}
    (found : afterWord? ['%'] text = some rest) :
    text = '%' :: rest := by
  cases text with
  | nil =>
      contradiction
  | cons c text =>
      rw [afterWord?, Option.ite_none_right_eq_some] at found
      rw [eq_of_isLetter (by decide) found.1, Option.some.inj found.2]

/-- A length ends with a unit of length, or without a unit. -/
theorem first?_lengthEnd (text : List Char) :
    lengthEnd.first? text =
      (cutNumeralUnit? text).bind fun cut => if cut.1.isLength then some cut.2 else none := by
  have twoLetters : ∀ word ∈ lengthUnits, word.toList.length = 2 := by decide
  have units := findSome?_afterWord?_bind twoLetters text numeralEnd.first?
  rw [lengthUnits] at units
  rw [lengthEnd, first?_optional_seq, first?_anyWord_seq, units, ← lengthUnits,
    first?_numeralEnd, cutNumeralUnit?]
  cases ends : endsNumeral text with
  | true =>
      simp [afterAnyWord?_of_endsNumeral ends, NumeralUnit.isLength]
  | false =>
      cases percent : afterWord? ['%'] text with
      | some rest =>
          have noUnit : afterAnyWord? lengthUnits text = none := by
            apply Option.eq_none_iff_forall_ne_some.mpr
            intro after found
            obtain ⟨c, _, same, isAlpha⟩ := isAlpha_of_unit found
            rw [eq_of_afterPercent percent] at same
            obtain ⟨rfl, _⟩ := List.cons.inj same
            exact absurd isAlpha (by decide)
          cases isEnd : endsNumeral rest <;> simp [noUnit, isEnd, NumeralUnit.isLength]
      | none =>
          cases afterAnyWord? lengthUnits text with
          | none => rfl
          | some rest =>
              cases isEnd : endsNumeral rest <;>
                simp [first?_numeralEnd, isEnd, NumeralUnit.isLength]

/-- A number ends with a percent sign, or without a unit. -/
theorem first?_numberEnd (text : List Char) :
    numberEnd.first? text =
      (cutNumeralUnit? text).bind fun cut => if cut.1.isNumber then some cut.2 else none := by
  rw [numberEnd, first?_optional_seq, character, first?_numeralEnd, cutNumeralUnit?]
  cases percent : afterWord? ['%'] text with
  | some rest =>
      obtain rfl := eq_of_afterPercent percent
      have goesOn : endsNumeral ('%' :: rest) = false := by simp [endsNumeral]
      rw [first?_one_seq_cons, if_pos (by decide), first?_numeralEnd, goesOn]
      cases isEnd : endsNumeral rest <;> simp [isEnd, NumeralUnit.isNumber]
  | none =>
      have noPercent : (seq (one (· == '%')) numeralEnd).first? text = none := by
        cases text with
        | nil => rfl
        | cons c text =>
            have notPercent : c ≠ '%' := by
              rintro rfl
              contradiction
            rw [first?_one_seq_cons, if_neg (by simpa using notPercent)]
      rw [noPercent]
      cases endsNumeral text with
      | true => simp [NumeralUnit.isNumber]
      | false =>
          cases afterAnyWord? lengthUnits text with
          | none => rfl
          | some rest => cases isEnd : endsNumeral rest <;> simp [isEnd, NumeralUnit.isNumber]

/-- A numeral ends neither in front of a digit nor in front of a point. -/
theorem endsNumber_of_cutNumeralUnit?
    {back : Pattern}
    {admits : NumeralUnit → Bool}
    (isEnd :
      ∀ text, back.first? text =
        (cutNumeralUnit? text).bind fun cut => if admits cut.1 then some cut.2 else none) :
    back.EndsNumber := by
  have noUnit :
      ∀ c text,
        isNameCharacter c = true ∨ c = '.' →
        c.isAlpha = false →
        c ≠ '%' →
        cutNumeralUnit? (c :: text) = none := by
    intro c text goesOn notAlpha notPercent
    have noEnd : endsNumeral (c :: text) = false := by
      rcases goesOn with goesOn | goesOn <;> simp [endsNumeral, goesOn]
    have noPercent : afterWord? ['%'] (c :: text) = none := by
      apply Option.eq_none_iff_forall_ne_some.mpr
      intro rest found
      exact notPercent (List.cons.inj (eq_of_afterPercent found)).1
    have noLength : afterAnyWord? lengthUnits (c :: text) = none := by
      apply Option.eq_none_iff_forall_ne_some.mpr
      intro rest found
      obtain ⟨first, _, same, isAlpha⟩ := isAlpha_of_unit found
      obtain ⟨rfl, _⟩ := List.cons.inj same
      exact absurd isAlpha (by simp [notAlpha])
    simp [cutNumeralUnit?, noEnd, noPercent, noLength]
  constructor
  · intro c text isDigit
    have notPercent : c ≠ '%' := by
      rintro rfl
      exact absurd isDigit (by decide)
    rw [isEnd, noUnit c text (.inl (isNameCharacter_of_isDecimalDigit isDigit))
      (isAlpha_eq_false_of_isDecimalDigit isDigit) notPercent, Option.bind_none]
  · intro text
    rw [isEnd, noUnit '.' text (.inr rfl) (by decide) (by decide), Option.bind_none]

end Pattern

namespace Terminal

open Pattern

/-- The rest after a numeral whose unit is admitted. -/
theorem first?_numeral_seq_unit
    {back : Pattern}
    {admits : NumeralUnit → Bool}
    (isEnd :
      ∀ text, back.first? text =
        (cutNumeralUnit? text).bind fun cut => if admits cut.1 then some cut.2 else none)
    {text rest : List Char} :
    (seq numeral back).first? text = some rest ↔
      ∃ unit, cutNumeralTerm? text = some (.numeral unit, rest) ∧ admits unit = true := by
  rw [(endsNumber_of_cutNumeralUnit? isEnd).first?_numeral_seq, cutNumeralTerm?]
  cases cutNumeral? text with
  | none =>
      simp
  | some cut =>
      rw [Option.bind_some, isEnd, Option.bind_some]
      cases cutNumeralUnit? cut.2 with
      | none => simp
      | some unit => simp; grind

/-- A length is a numeral with a unit of length, or without one. -/
theorem first?_length {text rest : List Char} :
    length.pattern.first? text = some rest ↔
      ∃ unit, cutNumeralTerm? text = some (.numeral unit, rest) ∧ unit.isLength = true :=
  first?_numeral_seq_unit first?_lengthEnd

/-- A number is a numeral with a percent sign, or without a unit. -/
theorem first?_number {text rest : List Char} :
    number.pattern.first? text = some rest ↔
      ∃ unit, cutNumeralTerm? text = some (.numeral unit, rest) ∧ unit.isNumber = true :=
  first?_numeral_seq_unit first?_numberEnd

/-- A color in digits begins with a number sign. -/
theorem first?_hexColor (c : Char) (text : List Char) :
    hexColor.pattern.first? (c :: text) =
      if c = '#' then (cutHexTerm? text).map fun cut => cut.2 else none := by
  have hexAhead : ∀ c, isHexDigit c = true → isNameCharacter c = true :=
    fun c isHex => isNameCharacter_of_isHexDigit isHex
  rw [pattern, character, first?_one_seq_cons, first?_either_seq, first?_either_seq,
    first?_exactly_seq_notAhead hexAhead, first?_exactly_seq_notAhead hexAhead,
    first?_exactly_seq_notAhead hexAhead]
  simp only [beq_iff_eq, cutHexTerm?, cutWhile]
  grind

/-- A function of colors is one of their words. -/
theorem first?_colorFunction (text : List Char) :
    colorFunction.pattern.first? text = afterAnyWord? colorFunctions text := by
  rw [pattern, first?_anyWord_seq, funext (first?_word "(")]
  simp only [← afterWord?_append]
  rfl

/-- A function of gradients is one of their words. -/
theorem first?_gradientFunction (text : List Char) :
    gradientFunction.pattern.first? text = afterAnyWord? gradientFunctions text := by
  have kinds :
      afterAnyWord? gradientFunctions text =
        ["linear", "radial", "conical"].findSome? fun kind =>
          afterWord? ("q".toList ++ (kind.toList ++ "gradient(".toList)) text :=
    rfl
  have spelled :
      ∀ kind : String,
        afterWord? ("q".toList ++ (kind.toList ++ "gradient(".toList)) text =
          (afterWord? "q".toList text).bind fun rest =>
            (afterWord? kind.toList rest).bind (afterWord? "gradient(".toList) := by
    intro kind
    rw [afterWord?_append]
    congr 1
    funext rest
    rw [afterWord?_append]
  rw [kinds, funext spelled, pattern, first?_word_seq]
  cases afterWord? "q".toList text with
  | none =>
      rfl
  | some rest =>
      rw [Option.bind_some, first?_anyWord_seq, funext (first?_word "gradient(")]
      rfl

theorem first?_paletteFunction (text : List Char) :
    paletteFunction.pattern.first? text = afterAnyWord? paletteFunctions text := by
  rw [pattern, first?_word, afterAnyWord?, paletteFunctions, List.findSome?_singleton]

/-- A string is quoted with either mark. -/
theorem first?_string (c : Char) (text : List Char) :
    string.pattern.first? (c :: text) =
      if c = '"' || c = '\x27' then afterQuoted? c text else none := by
  rw [pattern, first?_either, first?_quoted, first?_quoted]
  by_cases isDouble : c = '"'
  · subst isDouble
    simp
  · by_cases isSingle : c = '\x27' <;> simp [isDouble, isSingle]

/-- A name is a plain one. -/
theorem first?_name (text : List Char) :
    name.pattern.first? text = (cutNameTerm? text).map fun cut => cut.2 := by
  have sameRest :
      (cutNameTerm? text).map (fun cut => cut.2) =
        (seq (one isPlainStart) (many isPlainCharacter)).first? (cutHyphen text).2 := by
    rw [cutNameTerm?, Option.map_map, cutPlainName?]
    cases (cutHyphen text).2 with
    | nil =>
        rfl
    | cons c rest =>
        rw [first?_one_seq_cons, first?_many]
        cases starts : isPlainStart c <;> simp [starts]
  rw [sameRest, pattern, first?_optional_seq, character]
  fun_cases cutHyphen text with
  | case1 rest =>
      rw [first?_one_seq_cons, if_pos (by decide), first?_one_seq_cons isPlainStart _ '-',
        if_neg (by decide), Option.or_none]
  | case2 text noHyphen =>
      cases text with
      | nil =>
          rfl
      | cons c rest =>
          have notHyphen : c ≠ '-' := fun isHyphen => noHyphen rest (isHyphen ▸ rfl)
          rw [first?_one_seq_cons, if_neg (by simpa using notHyphen), Option.none_or]

/-- A reference ends with a parenthesis, behind blanks. -/
theorem first?_referenceEnd (text : List Char) :
    referenceEnd.first? text = afterClose? (text.dropWhile isBlank) := by
  have close : ∀ text, (character ')').first? text = afterClose? text := by
    intro text
    cases text with
    | nil => rfl
    | cons c text =>
        rw [character, first?_one_cons]
        by_cases isClose : c = ')' <;> simp [afterClose?, isClose]
  rw [referenceEnd, first?_many_seq, close]
  intro c text isBlank _
  rw [character, first?_one_cons, if_neg]
  rintro isClose
  obtain rfl := beq_iff_eq.mp isClose
  exact absurd isBlank (by decide)

/-- Characters of a reference that are not quoted are taken up to the first mark. -/
theorem first?_unquoted_seq (text : List Char) :
    (seq (many isUnquoted) referenceEnd).first? text =
      afterClose? (text.dropWhile isUnquoted) := by
  have noGain :
      ∀ c text,
        isUnquoted c = true →
        referenceEnd.first? text = none →
        referenceEnd.first? (c :: text) = none := by
    intro c text isInside fails
    rw [first?_referenceEnd] at fails ⊢
    cases blank : isBlank c with
    | true =>
        rw [List.dropWhile_cons_of_pos blank, fails]
    | false =>
        rw [List.dropWhile_cons_of_neg (by simp [blank])]
        have notClose : c ≠ ')' := by
          rintro rfl
          exact absurd isInside (by decide)
        simp [afterClose?, notClose]
  rw [first?_many_seq noGain, first?_referenceEnd]
  -- The text behind begins with a mark, so there are no blanks to leave out.
  cases left : text.dropWhile isUnquoted with
  | nil =>
      rfl
  | cons c rest =>
      have isMark := List.head_dropWhile_not isUnquoted (by rw [left]; simp)
      simp only [left, List.head_cons, isUnquoted, Bool.not_eq_false', Bool.or_eq_true,
        beq_iff_eq] at isMark
      rw [List.dropWhile_cons_of_neg]
      rcases isMark with (rfl | rfl) | rfl <;> decide

/-- The content of a reference is quoted, or has no marks. -/
theorem first?_content (c : Char) (text : List Char) :
    content.first? (c :: text) =
      if c = '"' || c = '\x27' then
        (afterQuoted? c text).bind fun rest => afterClose? (rest.dropWhile isBlank)
      else
        afterClose? ((c :: text).dropWhile isUnquoted) := by
  rw [content, first?_either_seq, first?_either_seq, first?_quoted_seq, first?_quoted_seq,
    first?_unquoted_seq, funext first?_referenceEnd]
  by_cases isDouble : c = '"'
  · subst isDouble
    rw [List.dropWhile_cons_of_neg (by decide)]
    simp [afterClose?]
  · by_cases isSingle : c = '\x27'
    · subst isSingle
      rw [List.dropWhile_cons_of_neg (by decide)]
      simp [afterClose?]
    · simp [isDouble, isSingle]

/-- A reference is its word, a parenthesis and its content. -/
theorem first?_url (text : List Char) :
    url.pattern.first? text = (cutUrlTerm? text).map fun cut => cut.2 := by
  have noGain :
      ∀ c text,
        isBlank c = true →
        content.first? text = none →
        content.first? (c :: text) = none := by
    intro c text blank fails
    have notMark : c ≠ ')' ∧ c ≠ '"' ∧ c ≠ '\x27' := by
      refine ⟨?_, ?_, ?_⟩ <;> (rintro rfl; exact absurd blank (by decide))
    rw [content, first?_either_seq, first?_either_seq, first?_unquoted_seq,
      Option.or_eq_none_iff, Option.or_eq_none_iff] at fails
    rw [first?_content, if_neg (by simp [notMark]),
      List.dropWhile_cons_of_pos (by simp [isUnquoted, notMark]), fails.2.2]
  have reference : ∀ text, (seq (many isBlank) content).first? text = afterReference? text := by
    intro text
    rw [first?_many_seq noGain, afterReference?]
    cases text.dropWhile isBlank with
    | nil => rfl
    | cons c rest => exact first?_content c rest
  rw [pattern, first?_word_seq, funext reference, cutUrlTerm?, Option.map_map]
  exact (Option.map_id' ..).symm

end Terminal

end QtSheet.Value
