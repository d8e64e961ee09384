import QtSheet.Proofs.Value.Phrase
import QtSheet.Value.Match

namespace QtSheet.Value.Phrase

/-!
# Items and phrases

The functions that take the items of a value from the front of its terms find
the phrases of the grammar and nothing else, and so do the functions that test
the terms of a whole value.
-/

variable {terms rest : List Term}

/-- A number is a numeral with a percent sign, or without a unit. -/
theorem leads_number :
    (of .number).Leads terms rest ↔
      ∃ unit : NumeralUnit, unit.isNumber = true ∧ terms = .numeral unit :: rest := by
  simp [leads_of, Terminal.admits_iff]

/-- A length is a numeral with a unit of length, or without one. -/
theorem leads_length :
    (of .length).Leads terms rest ↔
      ∃ unit : NumeralUnit, unit.isLength = true ∧ terms = .numeral unit :: rest := by
  simp [leads_of, Terminal.admits_iff]

theorem leads_name :
    (of .name).Leads terms rest ↔ ∃ name, terms = .name name :: rest := by
  simp [leads_of, Terminal.admits_iff]

/-- The other terminals stand for one term each. -/
theorem leads_fixed
    {terminal : Terminal}
    {term : Term}
    (isFixed : ∀ other, terminal.Admits other ↔ other = term) :
    (of terminal).Leads terms rest ↔ terms = term :: rest := by
  simp [leads_of, isFixed]

theorem leads_close :
    (of .close).Leads terms rest ↔ terms = .close :: rest :=
  leads_fixed (by simp [Terminal.admits_iff])

theorem leads_colon :
    (of .colon).Leads terms rest ↔ terms = .colon :: rest :=
  leads_fixed (by simp [Terminal.admits_iff])

theorem leads_hexColor :
    (of .hexColor).Leads terms rest ↔ terms = .hexColor :: rest :=
  leads_fixed (by simp [Terminal.admits_iff])

/-- After a number there is the end of the arguments, or a comma and more of them. -/
theorem leads_arguments_iff :
    (separated (of .number) * of .close).Leads terms rest ↔
      ∃ unit : NumeralUnit, unit.isNumber = true ∧
        (terms = .numeral unit :: .close :: rest ∨
          ∃ after, terms = .numeral unit :: .comma :: after ∧
            (separated (of .number) * of .close).Leads after rest) := by
  rw [leads_separated_mul]
  simp only [leads_number, leads_close]
  constructor
  · rintro ⟨middle, ⟨unit, isNumber, rfl⟩, rfl | ⟨after, rfl, others⟩⟩
    · exact ⟨unit, isNumber, .inl rfl⟩
    · exact ⟨unit, isNumber, .inr ⟨after, rfl, others⟩⟩
  · rintro ⟨unit, isNumber, rfl | ⟨after, rfl, others⟩⟩
    · exact ⟨_, ⟨unit, isNumber, rfl⟩, .inl rfl⟩
    · exact ⟨_, ⟨unit, isNumber, rfl⟩, .inr ⟨after, rfl, others⟩⟩

/-- Numbers between commas up to a parenthesis are the arguments of a color. -/
theorem leads_arguments :
    (separated (of .number) * of .close).Leads terms rest ↔ afterArguments? terms = some rest := by
  fun_induction afterArguments? terms with
  | case1 unit after isNumber inductionHypothesis =>
      rw [leads_arguments_iff, ← inductionHypothesis]
      simp [isNumber]
  | case2 unit after notNumber =>
      rw [leads_arguments_iff]
      simp [notNumber]
  | case3 unit after isNumber =>
      rw [leads_arguments_iff]
      simp [isNumber]
  | case4 unit after notNumber =>
      rw [leads_arguments_iff]
      simp [notNumber]
  | case5 terms noComma noClose =>
      rw [leads_arguments_iff]
      refine iff_of_false ?_ (by simp)
      rintro ⟨unit, _, isClose | ⟨after, isComma, _⟩⟩
      · exact noClose unit rest isClose
      · exact noComma unit after isComma

/-- The call of a color is its function and its arguments. -/
theorem leads_colorCall :
    colorCall.Leads terms rest ↔
      ∃ after, terms = .colorCall :: after ∧ afterArguments? after = some rest := by
  rw [colorCall, leads_mul]
  simp [leads_of, Terminal.admits_iff, leads_arguments]

/-- A color of the palette is its function with a role. -/
theorem leads_paletteCall :
    paletteCall.Leads terms rest ↔
      ∃ name ∈ Keyword.paletteRoles, terms = .paletteCall :: .name name :: .close :: rest := by
  rw [paletteCall, leads_mul]
  simp [leads_mul, leads_of, Terminal.admits_iff, leads_word, NameUse.words, and_comm]

/-- A value in a gradient is a number, a color or a name. -/
theorem leads_gradientValue :
    gradientValue.Leads terms rest ↔
      (∃ unit : NumeralUnit, unit.isNumber = true ∧ terms = .numeral unit :: rest) ∨
        terms = .hexColor :: rest ∨
        (∃ after, terms = .colorCall :: after ∧ afterArguments? after = some rest) ∨
        ∃ name, terms = .name name :: rest := by
  simp only [gradientValue, leads_add, leads_number, leads_hexColor, leads_colorCall, leads_name,
    or_assoc]

/-- An argument of a gradient is a name, a colon and values. -/
theorem leads_gradientArgument :
    gradientArgument.Leads terms rest ↔
      ∃ name after, terms = .name name :: .colon :: after ∧
        (oneOrMore gradientValue).Leads after rest := by
  simp only [gradientArgument, leads_mul, leads_name, leads_colon]
  constructor
  · rintro ⟨_, ⟨name, rfl⟩, after, rfl, areValues⟩
    exact ⟨name, after, rfl, areValues⟩
  · rintro ⟨name, after, rfl, areValues⟩
    exact ⟨_, ⟨name, rfl⟩, after, rfl, areValues⟩

/-- The values of an argument of a gradient that are left, when it has a value or when not. -/
def gradientValues : Bool → Phrase
  | true => many gradientValue
  | false => oneOrMore gradientValue

/-- What is left of the arguments of a gradient, from the values of one argument on. -/
def GradientLeads (hasValue : Bool) (terms rest : List Term) : Prop :=
  ∃ middle, (gradientValues hasValue).Leads terms middle ∧
    (middle = .close :: rest ∨
      ∃ after, middle = .comma :: after ∧
        (separated gradientArgument * of .close).Leads after rest)

/-- The arguments of a gradient, with the first name taken off. -/
theorem leads_gradientArguments :
    (separated gradientArgument * of .close).Leads terms rest ↔
      ∃ name after, terms = .name name :: .colon :: after ∧ GradientLeads false after rest := by
  rw [leads_separated_mul]
  simp only [leads_gradientArgument, leads_close]
  constructor
  · rintro ⟨middle, ⟨name, after, rfl, areValues⟩, isNext⟩
    exact ⟨name, after, rfl, middle, areValues, isNext⟩
  · rintro ⟨name, after, rfl, middle, areValues, isNext⟩
    exact ⟨middle, ⟨name, after, rfl, areValues⟩, isNext⟩

/-- A value goes on with values; an argument that has one may also end. -/
theorem gradientLeads_iff {hasValue : Bool} :
    GradientLeads hasValue terms rest ↔
      (∃ middle, gradientValue.Leads terms middle ∧ GradientLeads true middle rest) ∨
        hasValue = true ∧
          (terms = .close :: rest ∨
            ∃ name after,
              terms = .comma :: .name name :: .colon :: after ∧
                GradientLeads false after rest) := by
  constructor
  · rintro ⟨last, areValues, isNext⟩
    cases hasValue with
    | false =>
        obtain ⟨middle, isValue, others⟩ := leads_oneOrMore.mp areValues
        exact .inl ⟨middle, isValue, last, others, isNext⟩
    | true =>
        rcases leads_many.mp areValues with rfl | ⟨middle, isValue, others⟩
        · refine .inr ⟨rfl, isNext.imp_right ?_⟩
          rintro ⟨_, rfl, arguments⟩
          obtain ⟨name, after, rfl, others⟩ := leads_gradientArguments.mp arguments
          exact ⟨name, after, rfl, others⟩
        · exact .inl ⟨middle, isValue, last, others, isNext⟩
  · rintro (⟨middle, isValue, last, others, isNext⟩ | ⟨rfl, isNext⟩)
    · refine ⟨last, ?_, isNext⟩
      cases hasValue with
      | false => exact leads_oneOrMore.mpr ⟨middle, isValue, others⟩
      | true => exact leads_many.mpr (.inr ⟨middle, isValue, others⟩)
    · refine ⟨terms, leads_many.mpr (.inl rfl), isNext.imp_right ?_⟩
      rintro ⟨name, after, rfl, others⟩
      exact ⟨_, rfl, leads_gradientArguments.mpr ⟨name, after, rfl, others⟩⟩

/-- What is left behind the arguments of a gradient is what its function says. -/
theorem leads_afterGradient? {hasValue : Bool} :
    GradientLeads hasValue terms rest ↔ afterGradient? hasValue terms = some rest := by
  fun_induction afterGradient? hasValue terms with
  | case1 hasValue unit after isNumber inductionHypothesis =>
      rw [gradientLeads_iff, ← inductionHypothesis]
      simp [leads_gradientValue, isNumber]
  | case2 hasValue unit after notNumber =>
      rw [gradientLeads_iff]
      simp [leads_gradientValue, notNumber]
  | case3 hasValue after inductionHypothesis =>
      rw [gradientLeads_iff, ← inductionHypothesis]
      simp [leads_gradientValue]
  | case4 hasValue name after inductionHypothesis =>
      rw [gradientLeads_iff, ← inductionHypothesis]
      simp [leads_gradientValue]
  | case5 hasValue after noArguments =>
      rw [gradientLeads_iff]
      simp [leads_gradientValue, noArguments]
  | case6 hasValue after behind arguments inductionHypothesis =>
      rw [gradientLeads_iff, ← inductionHypothesis]
      simp [leads_gradientValue, arguments]
  | case7 name after inductionHypothesis =>
      rw [gradientLeads_iff, ← inductionHypothesis]
      simp [leads_gradientValue]
  | case8 hasValue name after noValue =>
      rw [gradientLeads_iff]
      simp [leads_gradientValue, noValue]
  | case9 after =>
      rw [gradientLeads_iff]
      simp [leads_gradientValue]
  | case10 hasValue after noValue =>
      rw [gradientLeads_iff]
      simp [leads_gradientValue, noValue]
  | case11 hasValue terms noNumeral noHexColor noName noCall noComma noClose =>
      rw [gradientLeads_iff]
      refine iff_of_false ?_ (by simp)
      rintro (⟨middle, isValue, _⟩ | ⟨_, isClose | ⟨name, after, isComma, _⟩⟩)
      · rcases leads_gradientValue.mp isValue with
          ⟨unit, _, isNumeral⟩ | isHexColor | ⟨after, isCall, _⟩ | ⟨name, isName⟩
        · exact noNumeral unit middle isNumeral
        · exact noHexColor middle isHexColor
        · exact noCall after isCall
        · exact noName name middle isName
      · exact noClose rest isClose
      · exact noComma name after isComma

/-- The call of a gradient is its function and its arguments. -/
theorem leads_gradientCall :
    gradientCall.Leads terms rest ↔
      ∃ name after, terms = .gradientCall :: .name name :: .colon :: after ∧
        afterGradient? false after = some rest := by
  rw [gradientCall, leads_mul]
  simp [leads_of, Terminal.admits_iff, leads_gradientArguments, leads_afterGradient?]

theorem leads_color :
    color.Leads terms rest ↔ afterColor? terms = some rest := by
  simp only [color, leads_add, leads_hexColor, leads_colorCall, leads_word, NameUse.words]
  fun_cases afterColor? terms with
  | case1 | case2 =>
      simp
  | case3 name after isColor | case4 name after noColor =>
      simp_all
  | case5 terms noHexColor noCall noName =>
      refine iff_of_false ?_ (by simp)
      rintro ((isHexColor | ⟨after, isCall, _⟩) | ⟨name, _, isName⟩)
      · exact noHexColor rest isHexColor
      · exact noCall after isCall
      · exact noName name rest isName

theorem leads_brush :
    brush.Leads terms rest ↔ afterBrush? terms = some rest := by
  simp only [brush, leads_add, leads_color, leads_gradientCall, leads_paletteCall]
  fun_cases afterBrush? terms with
  | case1 =>
      simp [afterColor?]
  | case2 name after isRole | case3 name after noRole =>
      simp_all [afterColor?]
  | case4 terms noGradient noPalette =>
      constructor
      · rintro ((isColor | ⟨name, after, isGradient, _⟩) | ⟨name, _, isPalette⟩)
        · exact isColor
        · exact absurd isGradient (noGradient name after)
        · exact absurd isPalette (noPalette name rest)
      · intro isColor
        exact .inl (.inl isColor)

theorem leads_borderPart :
    borderPart.Leads terms rest ↔ afterBorderPart? terms = some rest := by
  unfold afterBorderPart?
  split
  case h_1 =>
    simp [borderPart, leads_add, leads_length, leads_word, leads_hexColor, leads_colorCall,
      leads_gradientCall, leads_paletteCall]
  case h_2 =>
    simp [borderPart, leads_add, leads_length, leads_word, leads_hexColor, leads_colorCall,
      leads_gradientCall, leads_paletteCall, NameUse.words]
  case h_3 noNumeral noName =>
    have noWord : ∀ use, ¬ (word use).Leads terms rest := by
      intro use isWord
      obtain ⟨name, _, isName⟩ := leads_word.mp isWord
      exact noName name rest isName
    have noLength : ¬ (of .length).Leads terms rest := by
      intro isLength
      obtain ⟨unit, _, isNumeral⟩ := leads_length.mp isLength
      exact noNumeral unit rest isNumeral
    rw [← leads_brush]
    simp [borderPart, brush, color, leads_add, noWord, noLength]

theorem leads_afterLength? :
    (of .length).Leads terms rest ↔ afterLength? terms = some rest := by
  rw [leads_length]
  fun_cases afterLength? terms with
  | case1 unit after isLength | case2 unit after noLength =>
      simp_all
  | case3 terms noNumeral =>
      refine iff_of_false ?_ (by simp)
      rintro ⟨unit, _, isNumeral⟩
      exact noNumeral unit rest isNumeral

/-- The phrase of an item: it takes from the front of a list what the item takes. -/
def IsItem (phrase : Phrase) (item : Item) : Prop :=
  ∀ terms rest, phrase.Leads terms rest ↔ item.after? terms = some rest

namespace IsItem

variable {phrase : Phrase} {item : Item}

/-- Terms are an item as a whole when the phrase of the item takes all of them. -/
theorem isWhole (isItem : phrase.IsItem item) (terms : List Term) :
    item.isWhole terms = true ↔ phrase.Leads terms [] := by
  rw [isItem, Item.isWhole, decide_eq_true_eq]

/-- The number of items that a list is made of. -/
theorem count? (isItem : phrase.IsItem item) (terms : List Term) (count : Nat) :
    item.count? terms = some count ↔ (phrase ^ count).Leads terms [] := by
  fun_induction Item.count? item terms generalizing count with
  | case1 =>
      cases count with
      | zero =>
          rw [leads_pow_zero]
          simp
      | succ count =>
          rw [leads_pow_succ]
          refine iff_of_false (by simp) ?_
          rintro ⟨middle, isTaken, _⟩
          exact absurd (item.shorter ((isItem [] middle).mp isTaken)) (by simp)
  | case2 term terms nothing =>
      cases count with
      | zero =>
          rw [leads_pow_zero]
          simp
      | succ count =>
          rw [leads_pow_succ]
          simp [isItem _ _, nothing]
  | case3 term terms rest taken inductionHypothesis =>
      cases count with
      | zero =>
          rw [leads_pow_zero]
          simp
      | succ count =>
          rw [leads_pow_succ]
          simp [isItem _ _, taken, inductionHypothesis]

/-- One to four items. -/
theorem count?_oneToFour (isItem : phrase.IsItem item) (terms : List Term) :
    ((item.count? terms).any fun count => 1 ≤ count && count ≤ 4) = true ↔
      (oneToFour phrase).Leads terms [] := by
  simp only [oneToFour, leads_add, ← isItem.count?]
  cases item.count? terms with
  | none => simp
  | some count => simp; omega

/-- At least one item. -/
theorem count?_oneOrMore (isItem : phrase.IsItem item) (terms : List Term) :
    ((item.count? terms).any fun count => 1 ≤ count) = true ↔
      (oneOrMore phrase).Leads terms [] := by
  have powers :
      (oneOrMore phrase).Leads terms [] ↔ ∃ count, (phrase ^ (count + 1)).Leads terms [] := by
    simp only [leads_oneOrMore, leads_many_iff_pow, leads_pow_succ]
    constructor
    · rintro ⟨middle, isFirst, count, others⟩
      exact ⟨count, middle, isFirst, others⟩
    · rintro ⟨count, middle, isFirst, others⟩
      exact ⟨middle, isFirst, count, others⟩
  simp only [powers, ← isItem.count?]
  cases item.count? terms with
  | none =>
      simp
  | some count =>
      cases count <;> simp

end IsItem

theorem color_isItem : color.IsItem Value.color :=
  fun _ _ => leads_color

theorem brush_isItem : brush.IsItem Value.brush :=
  fun _ _ => leads_brush

theorem length_isItem : (of .length).IsItem Value.length :=
  fun _ _ => leads_afterLength?

theorem borderPart_isItem : borderPart.IsItem Value.borderPart :=
  fun _ _ => leads_borderPart

/-- A family is a string, or names. -/
theorem leads_family :
    family.Leads terms rest ↔
      terms = .string :: rest ∨
        ∃ name after, terms = .name name :: after ∧ (many (of .name)).Leads after rest := by
  have isString : (of .string).Leads terms rest ↔ terms = .string :: rest :=
    leads_fixed (by simp [Terminal.admits_iff])
  simp only [family, leads_add, leads_oneOrMore, leads_name, isString]
  refine or_congr_right ⟨?_, ?_⟩
  · rintro ⟨after, ⟨name, isName⟩, others⟩
    exact ⟨name, after, isName, others⟩
  · rintro ⟨name, after, isName, others⟩
    exact ⟨after, ⟨name, isName⟩, others⟩

/-- The rest of a family in names, with the families after it. -/
def FamilyRest (terms : List Term) : Prop :=
  ∃ middle, (many (of .name)).Leads terms middle ∧
    (middle = [] ∨ ∃ after, middle = .comma :: after ∧ (separated family).Leads after [])

/-- Behind a name of a family there is nothing, another family, or another name of it. -/
theorem familyRest_iff :
    FamilyRest terms ↔
      terms = [] ∨
        (∃ after, terms = .comma :: after ∧ (separated family).Leads after []) ∨
        ∃ name after, terms = .name name :: after ∧ FamilyRest after := by
  constructor
  · rintro ⟨last, areNames, isNext⟩
    rcases leads_many.mp areNames with rfl | ⟨middle, isName, others⟩
    · exact isNext.imp_right .inl
    · obtain ⟨name, rfl⟩ := leads_name.mp isName
      exact .inr (.inr ⟨name, middle, rfl, last, others, isNext⟩)
  · rintro (rfl | isComma | ⟨name, after, rfl, last, others, isNext⟩)
    · exact ⟨[], leads_many.mpr (.inl rfl), .inl rfl⟩
    · exact ⟨terms, leads_many.mpr (.inl rfl), .inr isComma⟩
    · exact ⟨last, leads_many.mpr (.inr ⟨after, leads_name.mpr ⟨name, rfl⟩, others⟩), isNext⟩

/-- Families are a string, a string and further families, or names and what follows them. -/
theorem leads_families_iff :
    (separated family).Leads terms [] ↔
      terms = [.string] ∨
        (∃ after, terms = .string :: .comma :: after ∧ (separated family).Leads after []) ∨
        ∃ name after, terms = .name name :: after ∧ FamilyRest after := by
  rw [leads_separated]
  simp only [leads_family]
  constructor
  · rintro ⟨middle, rfl | ⟨name, after, rfl, areNames⟩, isNext⟩
    · rcases isNext with rfl | ⟨after, rfl, others⟩
      · exact .inl rfl
      · exact .inr (.inl ⟨after, rfl, others⟩)
    · exact .inr (.inr ⟨name, after, rfl, middle, areNames, isNext⟩)
  · rintro (rfl | ⟨after, rfl, others⟩ | ⟨name, after, rfl, middle, areNames, isNext⟩)
    · exact ⟨[], .inl rfl, .inl rfl⟩
    · exact ⟨_, .inl rfl, .inr ⟨after, rfl, others⟩⟩
    · exact ⟨middle, .inr ⟨name, after, rfl, areNames⟩, isNext⟩

/-- Families, and the rest of one, by the functions that call each other. -/
theorem isFamilies_iff :
    (∀ terms, isFamilies terms = true ↔ (separated family).Leads terms []) ∧
      (∀ terms, isFamilyRest terms = true ↔ FamilyRest terms) := by
  apply isFamilies.mutual_induct
  · rw [leads_families_iff]
    simp [isFamilies]
  · intro rest inductionHypothesis
    rw [leads_families_iff, isFamilies, inductionHypothesis]
    simp
  · intro name rest inductionHypothesis
    rw [isFamilies, inductionHypothesis, leads_families_iff]
    simp
  · intro terms noString noComma noName
    have noFamilies : isFamilies terms = false := by
      unfold isFamilies
      split <;> simp_all
    rw [leads_families_iff]
    refine iff_of_false (by simp [noFamilies]) ?_
    rintro (isString | ⟨after, isComma, _⟩ | ⟨name, after, isName, _⟩)
    · exact noString isString
    · exact noComma after isComma
    · exact noName name after isName
  · rw [familyRest_iff]
    simp [isFamilyRest]
  · intro rest inductionHypothesis
    rw [isFamilyRest, inductionHypothesis, familyRest_iff]
    simp
  · intro name rest inductionHypothesis
    rw [familyRest_iff, isFamilyRest, inductionHypothesis]
    simp
  · intro terms notNil noComma noName
    have noRest : isFamilyRest terms = false := by
      unfold isFamilyRest
      split <;> simp_all
    rw [familyRest_iff]
    refine iff_of_false (by simp [noRest]) ?_
    rintro (isNil | ⟨after, isComma, _⟩ | ⟨name, after, isName, _⟩)
    · exact notNil isNil
    · exact noComma after isComma
    · exact noName name after isName

theorem isOptionalFamilies_iff :
    isOptionalFamilies terms = true ↔ (optional (separated family)).Leads terms [] := by
  rw [isOptionalFamilies, Bool.or_eq_true, isFamilies_iff.1, List.isEmpty_iff, leads_optional]

/-- The size of a font, with a possible height, is followed by possible families. -/
theorem leads_fontSize :
    fontSize.Leads terms [] ↔
      ∃ size : NumeralUnit, size.isLength = true ∧
        ((∃ after, terms = .numeral size :: after ∧ isOptionalFamilies after = true) ∨
          ∃ height : NumeralUnit, height.isLength = true ∧
            ∃ after, terms = .numeral size :: .slash :: .numeral height :: after ∧
              isOptionalFamilies after = true) := by
  have isHeight :
      ∀ middle after,
        (optional (of .slash * of .length)).Leads middle after ↔
          middle = after ∨
            ∃ height : NumeralUnit, height.isLength = true ∧
              middle = .slash :: .numeral height :: after := by
    intro middle after
    rw [leads_optional, leads_mul]
    simp only [leads_fixed (show ∀ other, Terminal.Admits .slash other ↔ other = .slash by
      simp [Terminal.admits_iff]), leads_length]
    simp [and_comm]
  simp only [fontSize, leads_mul, leads_length, isHeight, ← isOptionalFamilies_iff]
  constructor
  · rintro ⟨middle, ⟨size, isSize, rfl⟩, after, rfl | ⟨height, isLength, rfl⟩, areFamilies⟩
    · exact ⟨size, isSize, .inl ⟨middle, rfl, areFamilies⟩⟩
    · exact ⟨size, isSize, .inr ⟨height, isLength, after, rfl, areFamilies⟩⟩
  · rintro ⟨size, isSize, ⟨after, rfl, areFamilies⟩ | ⟨height, isLength, after, rfl, areFamilies⟩⟩
    · exact ⟨after, ⟨size, isSize, rfl⟩, after, .inl rfl, areFamilies⟩
    · exact ⟨_, ⟨size, isSize, rfl⟩, after, .inr ⟨height, isLength, rfl⟩, areFamilies⟩

/-- A font begins with a flag and goes on as a font, or it is a size. -/
theorem leads_font_iff :
    font.Leads terms [] ↔
      (∃ name ∈ Keyword.fontFlags, ∃ after, terms = .name name :: after ∧ font.Leads after []) ∨
        fontSize.Leads terms [] := by
  simp only [font, leads_mul]
  constructor
  · rintro ⟨last, areFlags, isSize⟩
    rcases leads_many.mp areFlags with rfl | ⟨middle, isFlag, others⟩
    · exact .inr isSize
    · obtain ⟨name, isKnown, rfl⟩ := leads_word.mp isFlag
      exact .inl ⟨name, isKnown, middle, rfl, last, others, isSize⟩
  · rintro (⟨name, isKnown, after, rfl, last, others, isSize⟩ | isSize)
    · have isFlag : (word .fontFlag).Leads (.name name :: after) after :=
        leads_word.mpr ⟨name, isKnown, rfl⟩
      exact ⟨last, leads_many.mpr (.inr ⟨after, isFlag, others⟩), isSize⟩
    · exact ⟨terms, leads_many.mpr (.inl rfl), isSize⟩

/-- Terms are a font when the phrase of fonts takes all of them. -/
theorem isFont_iff :
    isFont terms = true ↔ font.Leads terms [] := by
  fun_induction isFont terms with
  | case1 name rest inductionHypothesis =>
      rw [leads_font_iff, leads_fontSize, Bool.and_eq_true, inductionHypothesis]
      simp
  | case2 size height rest =>
      rw [leads_font_iff, leads_fontSize]
      simp [isOptionalFamilies, isFamilies, and_assoc]
  | case3 size rest noHeight =>
      rw [leads_font_iff, leads_fontSize]
      have noSlash : ∀ height after, rest ≠ .slash :: .numeral height :: after := noHeight
      simp [noSlash]
  | case4 terms noName noHeight noSize =>
      rw [leads_font_iff, leads_fontSize]
      refine iff_of_false Bool.false_ne_true ?_
      rintro (⟨name, _, after, isName, _⟩ |
        ⟨size, _, ⟨after, isSize, _⟩ | ⟨height, _, after, isHeight, _⟩⟩)
      · exact noName name after isName
      · exact noSize size after isSize
      · exact noHeight size height after isHeight

end QtSheet.Value.Phrase
