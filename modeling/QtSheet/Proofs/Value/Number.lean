import Mathlib.Data.List.TakeWhile
import QtSheet.Proofs.Case.Letter
import QtSheet.Proofs.Value.FontToken

namespace QtSheet

open Text

/-!
# Numbers with their units, and colors in digits

The text of a number is a sign, a numeral and a unit in one way only
(`Value.NumberParts.eq_of_text`), with digits of any script. Its unit alone
decides whether the number is a length or a number without a unit, and a color
in digits is a matter of how many digits of ASCII there are (`fits_by_spelling`).
-/

namespace Value

/-- All characters are decimal digits. -/
def AreDigits (text : List Char) : Prop :=
  ∀ c ∈ text, isDecimalDigit c = true

/-- Digits with a possible fraction, or a fraction alone. -/
inductive IsNumeral : List Char → Prop where
  | whole
      {digits : List Char} :
      digits ≠ [] →
      AreDigits digits →
      IsNumeral digits
  | mixed
      {digits fraction : List Char} :
      digits ≠ [] →
      AreDigits digits →
      AreDigits fraction →
      IsNumeral (digits ++ '.' :: fraction)
  | fraction
      {digits : List Char} :
      digits ≠ [] →
      AreDigits digits →
      IsNumeral ('.' :: digits)

/-- What may stand behind a numeral: nothing, a percent sign or a name. -/
inductive IsUnit : List Char → Prop where
  | nothing : IsUnit []
  | percent : IsUnit ['%']
  | name
      {word : List Char} :
      cutName? word = some (word, []) →
      IsUnit word

/-- The parts of a number. -/
@[ext] structure NumberParts where
  sign : List Char
  numeral : List Char
  unit : List Char
  isSign : sign ∈ [[], ['+'], ['-']]
  isNumeral : IsNumeral numeral
  isUnit : IsUnit unit

/-- A character of numerals. -/
def inNumeral (c : Char) : Bool :=
  isDecimalDigit c || c == '.'

/-- Digits may stand in a numeral. -/
theorem AreDigits.inNumeral
    {text : List Char}
    (areDigits : AreDigits text) :
    ∀ c ∈ text, inNumeral c = true :=
  fun c member => by simp [Value.inNumeral, areDigits c member]

/-- A numeral is made of characters that may stand in one. -/
theorem IsNumeral.inNumeral
    {text : List Char}
    (isNumeral : IsNumeral text) :
    ∀ c ∈ text, inNumeral c = true := by
  cases isNumeral with
  | whole _ areDigits =>
      exact areDigits.inNumeral
  | mixed _ areDigits areFraction =>
      rw [List.forall_mem_append, List.forall_mem_cons]
      exact ⟨areDigits.inNumeral, rfl, areFraction.inNumeral⟩
  | fraction _ areDigits =>
      exact List.forall_mem_cons.mpr ⟨rfl, areDigits.inNumeral⟩

theorem IsNumeral.ne_nil
    {text : List Char}
    (isNumeral : IsNumeral text) :
    text ≠ [] := by
  cases isNumeral <;> simp_all

/-- A name begins with a letter or a hyphen. -/
theorem inNumeral_eq_false_of_cutName?
    {c : Char}
    {rest : List Char}
    {cut : Cut}
    (isName : cutName? (c :: rest) = some cut) :
    inNumeral c = false := by
  obtain ⟨hyphen, first, others, isHyphen, starts, isText, -⟩ := cutName?_eq_some_iff.mp isName
  rcases isHyphen with rfl | rfl
  · obtain ⟨rfl, rfl⟩ := List.cons.inj isText
    have notPoint : c ≠ '.' := by
      rintro rfl
      exact absurd starts (by decide)
    simp only [isNameStart, Bool.and_eq_true, Bool.not_eq_true'] at starts
    simp [inNumeral, starts.2, notPoint]
  · obtain ⟨rfl, rfl⟩ := List.cons.inj isText
    decide

/-- No unit goes on with the numeral in front of it. -/
theorem IsUnit.takeWhile_inNumeral
    {text : List Char}
    (isUnit : IsUnit text) :
    text.takeWhile inNumeral = [] := by
  cases isUnit with
  | nothing =>
      rfl
  | percent =>
      exact List.takeWhile_cons_of_neg (by decide)
  | name isName =>
      cases text with
      | nil =>
          rfl
      | cons c rest =>
          exact List.takeWhile_cons_of_neg (by simp [inNumeral_eq_false_of_cutName? isName])

namespace NumberParts

/-- The text of a number with some parts. -/
def text (parts : NumberParts) : List Char :=
  parts.sign ++ (parts.numeral ++ parts.unit)

theorem cutSign_text (parts : NumberParts) :
    cutSign parts.text = (parts.sign, parts.numeral ++ parts.unit) := by
  obtain ⟨sign, numeral, unit, isSign, isNumeral, isUnit⟩ := parts
  obtain ⟨c, rest, rfl⟩ := List.exists_cons_of_ne_nil isNumeral.ne_nil
  have inFirst := isNumeral.inNumeral c (by simp)
  have noSign : c ≠ '+' ∧ c ≠ '-' := by
    constructor <;> (rintro rfl; exact absurd inFirst (by decide))
  simp only [List.mem_cons, List.not_mem_nil, or_false] at isSign
  rcases isSign with rfl | rfl | rfl <;> simp [text, cutSign, noSign]

/-- A numeral goes as far as its characters do. -/
theorem takeWhile_inNumeral (parts : NumberParts) :
    (parts.numeral ++ parts.unit).takeWhile inNumeral = parts.numeral := by
  rw [List.takeWhile_append_of_pos parts.isNumeral.inNumeral,
    parts.isUnit.takeWhile_inNumeral, List.append_nil]

/-- The text of a number has only one sign, numeral and unit. -/
theorem eq_of_text
    {parts others : NumberParts}
    (same : parts.text = others.text) :
    parts = others := by
  have sameCut : (parts.sign, parts.numeral ++ parts.unit) =
      (others.sign, others.numeral ++ others.unit) := by
    rw [← cutSign_text, ← cutSign_text, same]
  obtain ⟨sameSign, sameRest⟩ := Prod.mk.inj sameCut
  have sameNumeral : parts.numeral = others.numeral := by
    rw [← takeWhile_inNumeral parts, sameRest, takeWhile_inNumeral others]
  rw [sameNumeral] at sameRest
  exact NumberParts.ext sameSign sameNumeral (List.append_cancel_left sameRest)

end NumberParts

/-- What is cut as digits is made of digits. -/
theorem areDigits_cutWhile (text : List Char) : AreDigits (cutWhile isDecimalDigit text).1 :=
  List.all_eq_true.mp List.all_takeWhile

/-- A fraction is empty, or a point and digits. -/
theorem eq_of_cutFraction (text : List Char) :
    (cutFraction text).1 = [] ∨
      ∃ digits, (cutFraction text).1 = '.' :: digits ∧ AreDigits digits := by
  unfold cutFraction
  split
  · exact .inr ⟨_, rfl, areDigits_cutWhile _⟩
  · exact .inl rfl

/-- What is cut as a magnitude is a numeral. -/
theorem isNumeral_of_cutMagnitude?
    {text : List Char}
    {cut : Cut}
    (found : cutMagnitude? text = some cut) :
    IsNumeral cut.1 := by
  have areDigits := areDigits_cutWhile text
  simp only [cutMagnitude?, Option.ite_none_right_eq_some, Option.some.injEq, Bool.or_eq_true,
    decide_eq_true_eq] at found
  obtain ⟨someDigit, rfl⟩ := found
  generalize (cutWhile isDecimalDigit text).1 = digits at areDigits someDigit ⊢
  rcases eq_of_cutFraction (cutWhile isDecimalDigit text).2 with
    isEmpty | ⟨fraction, isPoint, areFraction⟩
  · rw [isEmpty, List.append_nil]
    rw [isEmpty] at someDigit
    exact .whole (by simpa using someDigit) areDigits
  · rw [isPoint] at someDigit ⊢
    by_cases noDigits : digits = []
    · subst noDigits
      refine .fraction ?_ areFraction
      rintro rfl
      simp at someDigit
    · exact .mixed noDigits areDigits areFraction

/-- What is cut as a sign is a plus, a minus or nothing. -/
theorem isSign_cutSign (text : List Char) : (cutSign text).1 ∈ [[], ['+'], ['-']] := by
  unfold cutSign
  split <;> simp

/-- What is cut as a unit is a percent sign, a name or nothing. -/
theorem isUnit_cutUnit (text : List Char) : IsUnit (cutUnit text).1 := by
  fun_cases cutUnit text with
  | case1 =>
      exact .percent
  | case2 first rest notPercent starts =>
      have areNames : ∀ c ∈ rest.takeWhile isNameCharacter, isNameCharacter c = true :=
        List.all_eq_true.mp List.all_takeWhile
      refine .name ?_
      simp [Cut.push, cutWhile, cutName?, starts, List.takeWhile_eq_self_iff.mpr areNames,
        List.dropWhile_eq_nil_iff.mpr areNames]
  | case3 | case4 =>
      exact .nothing

/-- What is cut as a number has the parts of a number. -/
theorem exists_parts_of_cutNumber?
    {text : List Char}
    (isNumber : cutNumber? text = some (text, [])) :
    ∃ parts : NumberParts,
      parts.text = text ∧ cutNumeral? text = some (parts.sign ++ parts.numeral, parts.unit) := by
  obtain ⟨⟨numeral, behind⟩, isNumeral, same⟩ := Option.map_eq_some_iff.mp isNumber
  obtain ⟨isText, isRest⟩ := Prod.mk.inj same
  have isUnit : (cutUnit behind).1 = behind := by
    have whole := whole_cutUnit behind
    rwa [Cut.whole, isRest, List.append_nil] at whole
  obtain ⟨magnitude, isMagnitude, sameNumeral⟩ := Option.map_eq_some_iff.mp isNumeral
  obtain ⟨rfl, rfl⟩ := Prod.mk.inj sameNumeral
  have unitForm := isUnit_cutUnit magnitude.2
  rw [isUnit] at unitForm isText
  refine ⟨⟨_, _, _, isSign_cutSign text, isNumeral_of_cutMagnitude? isMagnitude, unitForm⟩, ?_,
    isNumeral⟩
  rw [NumberParts.text, ← List.append_assoc]
  exact isText

/-- A character of plain names has its lower case by itself. -/
theorem lowercaseCharacter_of_isPlainCharacter
    {c : Char}
    (isPlain : isPlainCharacter c = true) :
    lowercaseCharacter c = c.toLower := by
  have sameInAscii :
      ∀ point < 0x80, lowercaseCharacter (Char.ofNat point) = (Char.ofNat point).toLower := by
    decide +kernel
  have isAscii : c.toNat < 0x80 := by
    simp only [isPlainCharacter, Char.isAlphanum, Char.isDigit, UInt32.le_iff_toNat_le,
      Bool.or_eq_true, Bool.and_eq_true, decide_eq_true_eq, beq_iff_eq, ge_iff_le,
      Char.toNat_val] at isPlain
    rcases isPlain with ((isAlpha | isDigit) | rfl) | rfl
    · have bounds := toNat_of_isAlpha isAlpha
      omega
    · exact Nat.lt_of_le_of_lt isDigit.2 (by decide)
    · decide
    · decide
  have same := sameInAscii c.toNat isAscii
  rwa [Char.ofNat_toNat] at same

/-- The lower case of a plain text is the text in small letters. -/
theorem lowercaseAfter_of_isPlainCharacter
    {before text : List Char}
    (arePlain : ∀ c ∈ text, isPlainCharacter c = true) :
    lowercaseAfter before text = small text := by
  induction text generalizing before with
  | nil =>
      rfl
  | cons c rest inductionHypothesis =>
      obtain ⟨isPlain, othersPlain⟩ := List.forall_mem_cons.mp arePlain
      have noSigma : c ≠ 'Σ' := by
        rintro rfl
        exact absurd isPlain (by decide)
      have noDot : c ≠ 'İ' := by
        rintro rfl
        exact absurd isPlain (by decide)
      rw [lowercaseAfter, inductionHypothesis othersPlain]
      simp [noSigma, noDot, lowercaseCharacter_of_isPlainCharacter isPlain]

/-- A text is in lower case a word of unmistakable letters if it is the word in small letters. -/
theorem lowercase_eq_iff
    {word : String}
    (areOwn : ∀ c ∈ word.toList, c ∈ ownLetters)
    (text : List Char) :
    lowercase (String.ofList text) = word ↔ small text = word.toList := by
  constructor
  · intro isWord
    have arePlain : ∀ c ∈ (String.ofList text).toList, isPlainCharacter c = true :=
      isPlainCharacter_of_lowercase (isWord ▸ areOwn)
    rw [String.toList_ofList] at arePlain
    rw [← isWord, lowercase, String.toList_ofList, String.toList_ofList,
      lowercaseAfter_of_isPlainCharacter arePlain]
  · intro isWord
    have ownPlain : ownLetters.all isPlainCharacter = true := by decide
    have ownSmall : ownLetters.all (fun c => c.toLower = c) = true := by decide
    have arePlain : ∀ c ∈ word.toList, isPlainCharacter c = true :=
      fun c member => List.all_eq_true.mp ownPlain c (areOwn c member)
    have areSmall : ∀ c ∈ word.toList, c.toLower = c :=
      fun c member => of_decide_eq_true (List.all_eq_true.mp ownSmall c (areOwn c member))
    have isSmall : small word.toList = word.toList :=
      (List.map_congr_left areSmall).trans (List.map_id' _)
    rw [← lowercase_small, isWord, lowercase, String.toList_ofList,
      lowercaseAfter_of_isPlainCharacter arePlain, isSmall, String.ofList_toList]

/-- A text is a word without stray letters if it is the word in small letters. -/
theorem afterWord?_eq_some_nil_iff
    {word : List Char}
    (noStray : ∀ letter ∈ word, letter ≠ 's' ∧ letter ≠ 'i')
    (text : List Char) :
    afterWord? word text = some [] ↔ small text = word := by
  fun_induction afterWord? word text with
  | case1 text =>
      simp
  | case2 =>
      simp
  | case3 letter word c text stands inductionHypothesis =>
      obtain ⟨notHere, notBehind⟩ := List.forall_mem_cons.mp noStray
      rw [inductionHypothesis notBehind, small_cons, toLower_of_isLetter notHere stands]
      simp
  | case4 letter word c text others =>
      have notSmall : c.toLower ≠ letter := by
        intro isSmall
        simp [isLetter, isSmall] at others
      simp [notSmall]

/-- A text is one of the units of a length if it is one in lower case. -/
theorem afterAnyWord?_lengthUnits_iff (text : List Char) :
    afterAnyWord? lengthUnits text = some [] ↔ lowercase (String.ofList text) ∈ lengthUnits := by
  have areSpelled :
      lengthUnits.all fun word =>
        word.toList.length = 2 &&
          word.toList.all fun c => c ∈ ownLetters && (c ≠ 's' && c ≠ 'i') := by
    decide
  simp only [List.all_eq_true, Bool.and_eq_true, decide_eq_true_eq] at areSpelled
  have isUnit :
      ∀ word ∈ lengthUnits,
        (afterWord? word.toList text = some [] ↔ lowercase (String.ofList text) = word) :=
    fun word member =>
      (afterWord?_eq_some_nil_iff (fun c isIn => ((areSpelled word member).2 c isIn).2) text).trans
        (lowercase_eq_iff (fun c isIn => ((areSpelled word member).2 c isIn).1) text).symm
  constructor
  · intro found
    obtain ⟨word, member, isWord⟩ := List.exists_of_findSome?_eq_some found
    exact (isUnit word member).mp isWord ▸ member
  · intro member
    have isWord := (isUnit _ member).mpr rfl
    cases found : afterAnyWord? lengthUnits text with
    | none =>
        have noWord := List.findSome?_eq_none_iff.mp found _ member
        rw [isWord] at noWord
        cases noWord
    | some rest =>
        -- The units have one size, so that the first that is found leaves nothing either.
        obtain ⟨other, isOther, found⟩ := List.exists_of_findSome?_eq_some found
        rw [eq_drop_of_afterWord? found, (areSpelled other isOther).1, ← (areSpelled _ member).1,
          ← eq_drop_of_afterWord? isWord]

/-- A name is a unit of a term if it is a unit of length in lower case. -/
theorem cutNumeralUnit?_of_cutName?
    {word : List Char}
    {unit : NumeralUnit}
    (isName : cutName? word = some (word, [])) :
    cutNumeralUnit? word = some (unit, []) ↔
      unit = .length ∧ lowercase (String.ofList word) ∈ lengthUnits := by
  have areNames := isNameCharacter_of_cutName? isName
  have noEnd : endsNumeral word = false := by
    cases word with
    | nil =>
        contradiction
    | cons c rest =>
        simp [endsNumeral, areNames c (by simp)]
  have noPercent : afterWord? ['%'] word = none := by
    apply Option.eq_none_iff_forall_ne_some.mpr
    intro rest found
    have isPercent := areNames '%' (by simp [Pattern.eq_of_afterPercent found])
    exact absurd isPercent (by decide)
  rw [← afterAnyWord?_lengthUnits_iff, cutNumeralUnit?, noEnd, noPercent]
  cases afterAnyWord? lengthUnits word with
  | none =>
      simp
  | some rest =>
      cases rest with
      | nil => simp [endsNumeral, eq_comm]
      | cons c rest => simp

namespace IsUnit

variable {text : List Char} (isUnit : IsUnit text)

include isUnit

/-- A unit of a length is one in lower case, or nothing. -/
theorem isLength_iff :
    (∃ unit, cutNumeralUnit? text = some (unit, []) ∧ unit.isLength = true) ↔
      lowercase (String.ofList text) ∈ ["", "px", "pt", "em", "ex"] := by
  cases isUnit with
  | nothing =>
      exact iff_of_true ⟨.plain, rfl, rfl⟩ (by decide)
  | percent =>
      have isPercent : cutNumeralUnit? ['%'] = some (.percent, []) := by decide
      exact iff_of_false (by simp [isPercent, NumeralUnit.isLength]) (by decide)
  | name isName =>
      have notEmpty : lowercase (String.ofList text) ≠ "" := by
        intro isEmpty
        rw [lowercase_eq_iff (by simp)] at isEmpty
        exact (whole_of_cutName? isName).2 (small_eq_nil_iff.mp isEmpty)
      rw [List.mem_cons, or_iff_right notEmpty]
      simp [cutNumeralUnit?_of_cutName? isName, NumeralUnit.isLength, lengthUnits]

/-- A number has no unit but a percent sign. -/
theorem isNumber_iff :
    (∃ unit, cutNumeralUnit? text = some (unit, []) ∧ unit.isNumber = true) ↔
      text = [] ∨ text = ['%'] := by
  cases isUnit with
  | nothing =>
      exact iff_of_true ⟨.plain, rfl, rfl⟩ (.inl rfl)
  | percent =>
      exact iff_of_true ⟨.percent, by decide, rfl⟩ (.inr rfl)
  | name isName =>
      have isOther : ¬ (text = [] ∨ text = ['%']) := by
        rintro (rfl | rfl)
        · cases isName
        · exact absurd isName (by decide)
      refine iff_of_false ?_ isOther
      simp [cutNumeralUnit?_of_cutName? isName, NumeralUnit.isNumber]

end IsUnit

/-- The term of a number is decided by its unit. -/
theorem terms?_number_iff
    {text : List Char}
    {parts : NumberParts}
    {unit : NumeralUnit}
    (isNumber : cutNumber? text = some (text, []))
    (isNumeral : cutNumeral? text = some (parts.sign ++ parts.numeral, parts.unit)) :
    terms? text = some [.numeral unit] ↔ cutNumeralUnit? parts.unit = some (unit, []) := by
  have isTerm :
      cutNumeralTerm? text = some (.numeral unit, []) ↔
        cutNumeralUnit? parts.unit = some (unit, []) := by
    simp [cutNumeralTerm?, isNumeral]
  rw [← isTerm]
  constructor
  · intro areTerms
    obtain ⟨_, same, found⟩ := terms_of_number isNumber areTerms
    rwa [← (List.cons.inj same).1] at found
  · intro found
    cases text with
    | nil =>
        cases isNumeral
    | cons c rest =>
        rw [terms?_of_cutTerm? (isLayout_eq_false_of_cutNumeral? isNumeral)
          (cutTerm?_of_cutNumeralTerm? found), terms?_nil]
        rfl

/-- The terms of a number are one numeral with a unit of numbers. -/
theorem isNumber_eq_true_iff {terms : List Term} :
    isNumber terms = true ↔ ∃ unit, terms = [.numeral unit] ∧ unit.isNumber = true := by
  constructor
  · intro isNumber
    unfold Value.isNumber at isNumber
    split at isNumber
    case h_1 unit =>
      exact ⟨unit, rfl, isNumber⟩
    case h_2 =>
      contradiction
  · rintro ⟨unit, rfl, isNumber⟩
    exact isNumber

/-- A token is a number if its terms are one numeral with a unit of numbers. -/
theorem fits_number_iff {token : Token} :
    Shape.number.fits [token] = true ↔
      ∃ unit, terms? token.text.toList = some [.numeral unit] ∧ unit.isNumber = true := by
  change (terms? (Token.joined [token]).toList).any isNumber = true ↔ _
  rw [toList_joined_singleton]
  cases terms? token.text.toList <;> simp [isNumber_eq_true_iff]

/-- The digits of colors. -/
def hexDigits : List Char :=
  "0123456789abcdefABCDEF".toList

/-- The hexadecimal digits are those of the list. -/
theorem isHexDigit_iff (c : Char) : isHexDigit c = true ↔ c ∈ hexDigits := by
  have sameInAscii :
      ∀ point < 0x80,
        (isHexDigit (Char.ofNat point) = true ↔ Char.ofNat point ∈ hexDigits) := by
    decide +kernel
  by_cases isAscii : c.toNat < 0x80
  · have same := sameInAscii c.toNat isAscii
    rwa [Char.ofNat_toNat] at same
  · have inAscii : hexDigits.all (fun digit => digit.toNat < 0x80) = true := by decide
    refine iff_of_false ?_ fun member =>
      isAscii (of_decide_eq_true (List.all_eq_true.mp inAscii c member))
    simp only [isHexDigit, Char.isDigit, Char.le_def, UInt32.le_iff_toNat_le, Bool.or_eq_true,
      Bool.and_eq_true, decide_eq_true_eq, ge_iff_le, Char.toNat_val]
    grind

/-- A hash is a color if it is made of three, six or eight hexadecimal digits. -/
theorem cutHexTerm?_eq_iff {digits : List Char} :
    cutHexTerm? digits = some (.hexColor, []) ↔
      digits.length ∈ [3, 6, 8] ∧ ∀ c ∈ digits, c ∈ hexDigits := by
  simp only [← isHexDigit_iff]
  constructor
  · intro found
    simp only [cutHexTerm?, Option.ite_none_right_eq_some, Bool.and_eq_true, Option.some.injEq,
      Prod.mk.injEq, true_and] at found
    obtain ⟨⟨isCount, _⟩, isNothing⟩ := found
    have areDigits : ∀ c ∈ digits, isHexDigit c = true := List.dropWhile_eq_nil_iff.mp isNothing
    refine ⟨?_, areDigits⟩
    simpa [cutWhile, List.takeWhile_eq_self_iff.mpr areDigits, or_assoc] using isCount
  · rintro ⟨isCount, areDigits⟩
    have isCut : cutWhile isHexDigit digits = (digits, []) :=
      Prod.ext (List.takeWhile_eq_self_iff.mpr areDigits) (List.dropWhile_eq_nil_iff.mpr areDigits)
    have someCount : digits.length = 3 ∨ digits.length = 6 ∨ digits.length = 8 := by
      simpa using isCount
    simp [cutHexTerm?, isCut, or_assoc, someCount]

/-- A hash is a color by the number of its digits. -/
theorem fits_color_iff
    {token : Token}
    (isHash : cutHash? token.text.toList = some (token.text.toList, [])) :
    Shape.color.fits [token] = true ↔
      ∃ digits,
        token.text.toList = '#' :: digits ∧
          digits.length ∈ [3, 6, 8] ∧ ∀ c ∈ digits, c ∈ hexDigits := by
  change (terms? (Token.joined [token]).toList).any color.isWhole = true ↔ _
  rw [toList_joined_singleton]
  constructor
  · intro isColor
    obtain ⟨terms, areTerms, _⟩ := (Option.any_eq_true _ _).mp isColor
    obtain ⟨_, digits, isText, found⟩ := terms_of_color isHash areTerms
    exact ⟨digits, isText, cutHexTerm?_eq_iff.mp found⟩
  · rintro ⟨digits, isText, areDigits⟩
    rw [isText, terms?_of_cutTerm? (by decide)
      (show cutTerm? '#' digits = _ from cutHexTerm?_eq_iff.mpr areDigits), terms?_nil]
    rfl

/-- In selectors there are numbers, but there are no colors. -/
theorem valueText_of_selectorPiece
    {kind : Kind}
    {c : Char}
    {word text after : List Char}
    (isKind : kind = .number ∨ kind = .color)
    (way : SelectorPiece c word (.token kind text, after)) :
    kind = .number ∧ cutNumber? (c :: word) = some (text, after) := by
  cases way with
  | name =>
      simp at isKind
  | hash =>
      simp at isKind
  | number _ _ _ isNumber =>
      exact ⟨rfl, isNumber⟩
  | sign _ _ _ way =>
      have isSign := way.isSign
      rcases isKind with rfl | rfl <;> contradiction

/-- A number or a color has its text in selectors as well as inside of braces. -/
theorem valueText_of_nextPiece
    {depth : Nat}
    {kind : Kind}
    {c : Char}
    {word : List Char}
    (isKind : kind = .number ∨ kind = .color)
    (found : nextPiece depth c word = (.token kind (c :: word), [])) :
    ValueText kind (c :: word) := by
  by_cases isOutside : depth = 0
  · have way := nextPiece_ways depth c word
    rw [found] at way
    generalize isText : c :: word = text at way ⊢
    generalize isEnd : ([] : List Char) = after at way
    cases way with
    | selector _ _ way =>
        obtain ⟨rfl, isNumber⟩ := valueText_of_selectorPiece isKind way
        rw [isText, ← isEnd] at isNumber
        exact .number isNumber
    | string =>
        simp at isKind
    | mark isMark =>
        have member := mem_markKinds isMark
        rcases isKind with rfl | rfl <;> simp [markKinds] at member
    | call _ isInside =>
        exact absurd isOutside isInside
    | declaration _ isInside =>
        exact absurd isOutside isInside
  · refine .of_nextPiece isOutside (.inl ?_) found
    rcases isKind with rfl | rfl <;> rfl

/-- The numbers and colors of a text are values. -/
theorem valueText_of_mem_tokens
    {source : String}
    {token : Token}
    (isToken : token ∈ (tokenize source).tokens)
    (isKind : token.kind = .number ∨ token.kind = .color) :
    ValueText token.kind token.text.toList := by
  have noEnd : token ≠ endToken source.toList := by
    rintro rfl
    simp [endToken] at isKind
  have isInside : token ∈ Joint.first.tokens (placedPieces source.toList) := by
    simpa [tokenize, noEnd] using isToken
  obtain ⟨before, behind, split⟩ := List.append_of_mem isInside
  have noCombinator : token.kind ≠ .combinator := by
    rcases isKind with isKind | isKind <;> simp [isKind]
  obtain ⟨c, word, isText, found⟩ := nextPiece_of_tokens split noCombinator
  rw [isText]
  exact valueText_of_nextPiece isKind found

theorem ValueText.isNumber
    {text : List Char}
    (valueText : ValueText .number text) :
    cutNumber? text = some (text, []) := by
  cases valueText with
  | number isNumber => exact isNumber
  | call isKind => simp at isKind

theorem ValueText.isHash
    {text : List Char}
    (valueText : ValueText .color text) :
    cutHash? text = some (text, []) := by
  cases valueText with
  | color isHash => exact isHash
  | call isKind => simp at isKind

end Value

/--
The text of every number is a sign, a numeral and a unit, in one way only. The
number is a length by the lower case of its unit, and a number without a unit of
length if there is no unit or a percent sign. A color in digits is one by the
number of its digits.
-/
theorem fits_by_spelling
    (source : String)
    {token : Token}
    (isToken : token ∈ (tokenize source).tokens) :
    (token.kind = .number →
      ∃ parts : Value.NumberParts,
        parts.text = token.text.toList ∧
          (∀ others : Value.NumberParts, others.text = token.text.toList → others = parts) ∧
          (Shape.length.fits [token] = true ↔
            lowercase (String.ofList parts.unit) ∈ ["", "px", "pt", "em", "ex"]) ∧
          (Shape.number.fits [token] = true ↔ parts.unit = [] ∨ parts.unit = ['%'])) ∧
      (token.kind = .color →
        (Shape.color.fits [token] = true ↔
          ∃ digits,
            token.text.toList = '#' :: digits ∧
              digits.length ∈ [3, 6, 8] ∧ ∀ c ∈ digits, c ∈ Value.hexDigits)) := by
  constructor
  · intro isKind
    have valueText := Value.valueText_of_mem_tokens isToken (.inl isKind)
    rw [isKind] at valueText
    have isNumber := valueText.isNumber
    obtain ⟨parts, isText, isNumeral⟩ := Value.exists_parts_of_cutNumber? isNumber
    refine ⟨parts, isText, fun others isOther => ?_, ?_, ?_⟩
    · exact Value.NumberParts.eq_of_text (isOther.trans isText.symm)
    · simp only [Value.fits_length_iff, Value.terms?_number_iff isNumber isNumeral]
      exact parts.isUnit.isLength_iff
    · simp only [Value.fits_number_iff, Value.terms?_number_iff isNumber isNumeral]
      exact parts.isUnit.isNumber_iff
  · intro isKind
    have valueText := Value.valueText_of_mem_tokens isToken (.inr isKind)
    rw [isKind] at valueText
    exact Value.fits_color_iff valueText.isHash

/-- A length in digits of another script, and a color in three digits. -/
theorem fits_by_spelling_arabic :
    let source := "a\x7bb:-٣.٥PX #aBc\x7d"
    let number : Token := ⟨⟨"-٣.٥PX", 4, 6, 1, 5⟩, .number⟩
    let color : Token := ⟨⟨"#aBc", 11, 4, 1, 12⟩, .color⟩
    (number ∈ (tokenize source).tokens ∧
      Shape.length.fits [number] = true ∧ ¬ Shape.number.fits [number] = true) ∧
      (color ∈ (tokenize source).tokens ∧ Shape.color.fits [color] = true) := by
  intro source number color
  have isNumber : number ∈ (tokenize source).tokens := by decide +kernel
  have isColor : color ∈ (tokenize source).tokens := by decide +kernel
  let own : Value.NumberParts :=
    ⟨['-'], ['٣'] ++ '.' :: ['٥'], ['P', 'X'], by simp,
      .mixed (by simp) (List.all_eq_true.mp (by decide)) (List.all_eq_true.mp (by decide)),
      .name (by decide)⟩
  obtain ⟨parts, _, isOnly, isLength, isPlain⟩ := (fits_by_spelling source isNumber).1 rfl
  obtain rfl : own = parts := isOnly own (by decide)
  refine ⟨⟨isNumber, isLength.mpr (by decide), fun fits => ?_⟩, isColor, ?_⟩
  · exact absurd (isPlain.mp fits) (by decide)
  · apply ((fits_by_spelling source isColor).2 rfl).mpr
    refine ⟨['a', 'B', 'c'], by decide, by decide, fun c isDigit => ?_⟩
    exact (Value.isHexDigit_iff c).mp (List.all_eq_true.mp (by decide) c isDigit)

end QtSheet
