import Mathlib.Computability.RegularExpressions
import QtSheet.Proofs.Value.Cut
import QtSheet.Property

namespace QtSheet.Value

/-!
# Phrases

The grammar of values, as regular expressions over the terminals. A plain name
that is looked up in a table is a symbol of its own (`Symbol.name`). Each rule of
the grammar is a phrase:

```text
color    = hex-color | color-call | name
brush    = color | gradient-call | palette-call
colors   = brush{1,4}
box      = length{1,4}
border   = (length | name | hex-color | color-call | gradient-call | palette-call)+
font     = name* length ('/' length)? families?
families = family (',' family)*
family   = string | name+
```

Terms are taken from the front of a list by a phrase (`Phrase.Leads`) as the
regular expression is built: one part after another, one part or another.
-/

/-- What a plain name is looked up for. -/
inductive NameUse where
  | namedColor
  | paletteRole
  | borderKeyword
  | fontFlag
  deriving Repr, DecidableEq

/-- The names that a use knows, in lower case. -/
def NameUse.words : NameUse → List String
  | namedColor => Keyword.colors
  | paletteRole => Keyword.paletteRoles
  | borderKeyword => Keyword.borderStyles ++ Keyword.colors
  | fontFlag => Keyword.fontFlags

/-- A symbol of the grammar: a terminal, or a plain name that is looked up. -/
inductive Symbol where
  | plain (terminal : Terminal)
  | name (use : NameUse)
  deriving Repr, DecidableEq

/-- The terminal that a symbol is. -/
def Symbol.terminal : Symbol → Terminal
  | plain terminal => terminal
  | name _ => .name

/-- A part of the grammar: the sequences of symbols that it is. -/
abbrev Phrase := RegularExpression Symbol

namespace Phrase

/-- One terminal. -/
def of (terminal : Terminal) : Phrase :=
  .char (.plain terminal)

/-- One plain name that is looked up. -/
def word (use : NameUse) : Phrase :=
  .char (.name use)

/-- A phrase or nothing. -/
def optional (phrase : Phrase) : Phrase :=
  1 + phrase

/-- A phrase any number of times. -/
def many (phrase : Phrase) : Phrase :=
  phrase.star

/-- A phrase once or more often. -/
def oneOrMore (phrase : Phrase) : Phrase :=
  phrase * many phrase

/-- A phrase one to four times. -/
def oneToFour (phrase : Phrase) : Phrase :=
  phrase ^ 1 + phrase ^ 2 + phrase ^ 3 + phrase ^ 4

/-- A phrase once or more often, with commas between. -/
def separated (phrase : Phrase) : Phrase :=
  phrase * many (of .comma * phrase)

/-- A call of a color function. -/
def colorCall : Phrase :=
  of .colorFunction * (separated (of .number) * of .close)

/-- A value of an argument of a gradient. -/
def gradientValue : Phrase :=
  of .number + of .hexColor + colorCall + of .name

/-- An argument of a gradient. -/
def gradientArgument : Phrase :=
  of .name * (of .colon * oneOrMore gradientValue)

/-- A call of a gradient function. -/
def gradientCall : Phrase :=
  of .gradientFunction * (separated gradientArgument * of .close)

/-- A call of the palette function. -/
def paletteCall : Phrase :=
  of .paletteFunction * (word .paletteRole * of .close)

/-- A color. -/
def color : Phrase :=
  of .hexColor + colorCall + word .namedColor

/-- A brush. -/
def brush : Phrase :=
  color + gradientCall + paletteCall

/-- A part of a border. -/
def borderPart : Phrase :=
  of .length + word .borderKeyword + of .hexColor + colorCall + gradientCall + paletteCall

/-- A family of fonts. -/
def family : Phrase :=
  of .string + oneOrMore (of .name)

/-- The size of a font, with a possible line height and families. -/
def fontSize : Phrase :=
  of .length * (optional (of .slash * of .length) * optional (separated family))

/-- A font. -/
def font : Phrase :=
  many (word .fontFlag) * fontSize

/-- The phrase of a shape, but for shapes that are a matter of words alone. -/
def ofShape? : Shape → Option Phrase
  | .color => some color
  | .brush => some brush
  | .colors => some (oneToFour brush)
  | .length => some (of .length)
  | .box => some (oneToFour (of .length))
  | .border => some (oneOrMore borderPart)
  | .font => some font
  | .fontFamily => some (separated family)
  | .url => some (of .url)
  | .number => some (of .number)
  | .keyword _ _ => none
  | .any => none

end Phrase

attribute [mk_iff] Terminal.Admits

/-- A symbol stands for a term, and a name that it looks up is known. -/
def Symbol.Admits : Symbol → Term → Prop
  | plain terminal, term => terminal.Admits term
  | name use, term => ∃ word ∈ use.words, term = .name word

namespace Phrase

/-- A phrase takes terms from the front of a list and leaves the rest. -/
def Leads (phrase : Phrase) (terms rest : List Term) : Prop :=
  ∃ symbols ∈ phrase.matches', ∃ own,
    List.Forall₂ Symbol.Admits symbols own ∧ terms = own ++ rest

section Leads

variable {phrase front back : Phrase} {terms rest : List Term}

/-- What a phrase takes depends on its sentences only. -/
theorem leads_congr
    (same : front.matches' = back.matches') :
    front.Leads terms rest ↔ back.Leads terms rest := by
  rw [Leads, Leads, same]

/-- A symbol takes one term that it admits. -/
theorem leads_char {symbol : Symbol} :
    Leads (.char symbol) terms rest ↔ ∃ term, symbol.Admits term ∧ terms = term :: rest := by
  constructor
  · rintro ⟨symbols, isMatch, own, areAdmitted, rfl⟩
    obtain rfl : symbols = [symbol] := isMatch
    obtain ⟨term, others, isAdmitted, areOthers, rfl⟩ := List.forall₂_cons_left_iff.mp areAdmitted
    obtain rfl := List.forall₂_nil_left_iff.mp areOthers
    exact ⟨term, isAdmitted, rfl⟩
  · rintro ⟨term, isAdmitted, rfl⟩
    exact ⟨[symbol], rfl, [term], .cons isAdmitted .nil, rfl⟩

/-- The empty phrase takes nothing. -/
theorem leads_one :
    Leads 1 terms rest ↔ terms = rest := by
  constructor
  · rintro ⟨symbols, isMatch, own, areAdmitted, rfl⟩
    obtain rfl : symbols = [] := isMatch
    obtain rfl := List.forall₂_nil_left_iff.mp areAdmitted
    rfl
  · rintro rfl
    exact ⟨[], rfl, [], .nil, rfl⟩

/-- Either of two phrases takes what one of them takes. -/
theorem leads_add :
    (front + back).Leads terms rest ↔ front.Leads terms rest ∨ back.Leads terms rest := by
  constructor
  · rintro ⟨symbols, isFront | isBack, own, areAdmitted, isText⟩
    · exact .inl ⟨symbols, isFront, own, areAdmitted, isText⟩
    · exact .inr ⟨symbols, isBack, own, areAdmitted, isText⟩
  · rintro (⟨symbols, isFront, others⟩ | ⟨symbols, isBack, others⟩)
    · exact ⟨symbols, .inl isFront, others⟩
    · exact ⟨symbols, .inr isBack, others⟩

/-- Two phrases in sequence take what the first takes, and then the second. -/
theorem leads_mul :
    (front * back).Leads terms rest ↔
      ∃ middle, front.Leads terms middle ∧ back.Leads middle rest := by
  constructor
  · rintro ⟨symbols, isMatch, own, areAdmitted, rfl⟩
    obtain ⟨before, isFront, behind, isBack, rfl⟩ := Language.mem_mul.mp isMatch
    have turned := areAdmitted.flip
    refine ⟨own.drop before.length ++ rest,
      ⟨before, isFront, own.take before.length, (List.forall₂_take_append _ _ _ turned).flip, ?_⟩,
      ⟨behind, isBack, own.drop before.length, (List.forall₂_drop_append _ _ _ turned).flip, rfl⟩⟩
    rw [← List.append_assoc, List.take_append_drop]
  · rintro ⟨middle, ⟨before, isFront, first, areBefore, rfl⟩,
      ⟨behind, isBack, last, areBehind, rfl⟩⟩
    exact ⟨before ++ behind, Language.append_mem_mul isFront isBack, first ++ last,
      List.rel_append areBefore areBehind, (List.append_assoc ..).symm⟩

/-- A repetition takes nothing, or once and then again. -/
theorem leads_many :
    (many phrase).Leads terms rest ↔
      terms = rest ∨ ∃ middle, phrase.Leads terms middle ∧ (many phrase).Leads middle rest := by
  have unfolded : (many phrase).matches' = (1 + phrase * many phrase).matches' :=
    (Language.one_add_self_mul_kstar_eq_kstar phrase.matches').symm
  rw [leads_congr unfolded, leads_add, leads_one, leads_mul]

theorem leads_pow_zero :
    (phrase ^ 0).Leads terms rest ↔ terms = rest :=
  leads_one

/-- One time more is once and then the other times. -/
theorem leads_pow_succ {count : Nat} :
    (phrase ^ (count + 1)).Leads terms rest ↔
      ∃ middle, phrase.Leads terms middle ∧ (phrase ^ count).Leads middle rest := by
  have unfolded : (phrase ^ (count + 1)).matches' = (phrase * phrase ^ count).matches' := by
    rw [RegularExpression.matches'_mul, RegularExpression.matches'_pow,
      RegularExpression.matches'_pow, pow_succ']
  rw [leads_congr unfolded, leads_mul]

/-- A phrase any number of times is a phrase some number of times. -/
theorem mem_many {symbols : List Symbol} :
    symbols ∈ (many phrase).matches' ↔ ∃ count, symbols ∈ (phrase ^ count).matches' := by
  have powers : (many phrase).matches' = ⨆ count : Nat, (phrase ^ count).matches' := by
    simp only [RegularExpression.matches'_pow]
    exact Language.kstar_eq_iSup_pow phrase.matches'
  rw [powers, Language.mem_iSup]

/-- A repetition is some number of times. -/
theorem leads_many_iff_pow :
    (many phrase).Leads terms rest ↔ ∃ count, (phrase ^ count).Leads terms rest := by
  simp only [Leads, mem_many]
  constructor
  · rintro ⟨symbols, ⟨count, isMatch⟩, others⟩
    exact ⟨count, symbols, isMatch, others⟩
  · rintro ⟨count, symbols, isMatch, others⟩
    exact ⟨symbols, ⟨count, isMatch⟩, others⟩

/-- What may be missing takes nothing, or what it takes. -/
theorem leads_optional :
    (optional phrase).Leads terms rest ↔ terms = rest ∨ phrase.Leads terms rest := by
  rw [optional, leads_add, leads_one]

/-- Once or more is once, and then any number of times. -/
theorem leads_oneOrMore :
    (oneOrMore phrase).Leads terms rest ↔
      ∃ middle, phrase.Leads terms middle ∧ (many phrase).Leads middle rest :=
  leads_mul

theorem leads_of {terminal : Terminal} :
    (of terminal).Leads terms rest ↔ ∃ term, terminal.Admits term ∧ terms = term :: rest :=
  leads_char

/-- A word takes one of the names for its use. -/
theorem leads_word {use : NameUse} :
    (word use).Leads terms rest ↔ ∃ name ∈ use.words, terms = .name name :: rest := by
  rw [word, leads_char]
  constructor
  · rintro ⟨term, ⟨name, isKnown, rfl⟩, isText⟩
    exact ⟨name, isKnown, isText⟩
  · rintro ⟨name, isKnown, isText⟩
    exact ⟨.name name, ⟨name, isKnown, rfl⟩, isText⟩

/-- After an item there is the end, or a comma and the items all over again. -/
theorem leads_separated_mul :
    (separated phrase * back).Leads terms rest ↔
      ∃ middle, phrase.Leads terms middle ∧
        (back.Leads middle rest ∨
          ∃ after, middle = .comma :: after ∧ (separated phrase * back).Leads after rest) := by
  have afterComma :
      ∀ middle last,
        (of .comma * phrase).Leads middle last ↔
          ∃ after, middle = .comma :: after ∧ phrase.Leads after last := by
    intro middle last
    rw [leads_mul]
    constructor
    · rintro ⟨after, isComma, isItem⟩
      obtain ⟨_, ⟨⟩, rfl⟩ := leads_of.mp isComma
      exact ⟨after, rfl, isItem⟩
    · rintro ⟨after, rfl, isItem⟩
      exact ⟨after, leads_of.mpr ⟨.comma, .comma, rfl⟩, isItem⟩
  simp only [separated, leads_mul]
  constructor
  · rintro ⟨last, ⟨middle, isItem, areOthers⟩, isBack⟩
    refine ⟨middle, isItem, ?_⟩
    rcases leads_many.mp areOthers with rfl | ⟨next, isNext, areLater⟩
    · exact .inl isBack
    · obtain ⟨after, rfl, isLater⟩ := (afterComma middle next).mp isNext
      exact .inr ⟨after, rfl, last, ⟨next, isLater, areLater⟩, isBack⟩
  · rintro ⟨middle, isItem, isBack | ⟨after, rfl, last, ⟨next, isNext, areLater⟩, isBack⟩⟩
    · exact ⟨middle, ⟨middle, isItem, leads_many.mpr (.inl rfl)⟩, isBack⟩
    · have isLater := (afterComma (.comma :: after) next).mpr ⟨after, rfl, isNext⟩
      exact ⟨last, ⟨_, isItem, leads_many.mpr (.inr ⟨next, isLater, areLater⟩)⟩, isBack⟩

/-- Phrases between commas are one, and behind a comma further ones. -/
theorem leads_separated :
    (separated phrase).Leads terms rest ↔
      ∃ middle, phrase.Leads terms middle ∧
        (middle = rest ∨
          ∃ after, middle = .comma :: after ∧ (separated phrase).Leads after rest) := by
  have alone : ∀ terms, (separated phrase).Leads terms rest ↔
      (separated phrase * 1).Leads terms rest := by
    intro terms
    rw [leads_mul]
    simp [leads_one]
  rw [alone, leads_separated_mul]
  simp only [leads_one, ← alone]

end Leads

end Phrase

end QtSheet.Value
