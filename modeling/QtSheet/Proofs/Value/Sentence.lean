import QtSheet.Proofs.Value.Item
import QtSheet.Proofs.Value.Unique

namespace QtSheet

/-!
# Values that fit a shape

The values that fit a shape are the sentences of its phrase, with the names that
are looked up in their tables.
-/

namespace Value

/-- Terms pass the test of a shape when its phrase takes all of them. -/
theorem hasTerms_iff
    {test : List Term → Bool}
    {phrase : Phrase}
    (isTest : ∀ terms, test terms = true ↔ phrase.Leads terms [])
    (tokens : List Token) :
    hasTerms test tokens = true ↔
      ∃ terms, terms? (Token.joined tokens).toList = some terms ∧ phrase.Leads terms [] := by
  rw [hasTerms, Option.any_eq_true]
  simp only [isTest]

/-- Terms are a number when the phrase of numbers takes all of them. -/
theorem isNumber_iff (terms : List Term) :
    isNumber terms = true ↔ (Phrase.of .number).Leads terms [] := by
  rw [Phrase.leads_number]
  fun_cases isNumber terms with
  | case1 unit =>
      simp
  | case2 terms noNumeral =>
      refine iff_of_false Bool.false_ne_true ?_
      rintro ⟨unit, _, isNumeral⟩
      exact noNumeral unit isNumeral

/-- Terms are a reference when the phrase of references takes all of them. -/
theorem isUrl_iff (terms : List Term) :
    isUrl terms = true ↔ (Phrase.of .url).Leads terms [] := by
  rw [Phrase.leads_fixed (show ∀ other, Terminal.Admits .url other ↔ other = .url by
    simp [Terminal.admits_iff]), isUrl, decide_eq_true_eq]

/-- A value fits a shape when the phrase of the shape takes its terms. -/
theorem fits_iff_leads
    {shape : Shape}
    {phrase : Phrase}
    (isStructured : Phrase.ofShape? shape = some phrase)
    (tokens : List Token) :
    shape.fits tokens = true ↔
      ∃ terms, terms? (Token.joined tokens).toList = some terms ∧ phrase.Leads terms [] := by
  cases shape with
  | color =>
      obtain rfl := Option.some.inj isStructured
      exact hasTerms_iff Phrase.color_isItem.isWhole tokens
  | brush =>
      obtain rfl := Option.some.inj isStructured
      exact hasTerms_iff Phrase.brush_isItem.isWhole tokens
  | colors =>
      obtain rfl := Option.some.inj isStructured
      exact hasTerms_iff Phrase.brush_isItem.count?_oneToFour tokens
  | length =>
      obtain rfl := Option.some.inj isStructured
      exact hasTerms_iff Phrase.length_isItem.isWhole tokens
  | box =>
      obtain rfl := Option.some.inj isStructured
      exact hasTerms_iff Phrase.length_isItem.count?_oneToFour tokens
  | border =>
      obtain rfl := Option.some.inj isStructured
      exact hasTerms_iff Phrase.borderPart_isItem.count?_oneOrMore tokens
  | font =>
      obtain rfl := Option.some.inj isStructured
      exact hasTerms_iff (fun _ => Phrase.isFont_iff) tokens
  | fontFamily =>
      obtain rfl := Option.some.inj isStructured
      exact hasTerms_iff Phrase.isFamilies_iff.1 tokens
  | url =>
      obtain rfl := Option.some.inj isStructured
      exact hasTerms_iff isUrl_iff tokens
  | number =>
      obtain rfl := Option.some.inj isStructured
      exact hasTerms_iff isNumber_iff tokens
  | keyword =>
      contradiction
  | any =>
      contradiction

/-- A symbol stands for the term whose text is a lexeme that the symbol stands for. -/
theorem Symbol.Is.admits
    {symbol : Symbol}
    {lexeme : Lexeme}
    {term : Term}
    (isLexeme : symbol.Is lexeme)
    (isTerm : lexeme.Is term) :
    symbol.Admits term := by
  have admits := isTerm.admits
  rw [← isLexeme.terminal] at admits
  cases symbol with
  | plain terminal =>
      exact admits
  | name use =>
      obtain ⟨word, rfl⟩ : ∃ word, term = .name word := by
        cases admits
        exact ⟨_, rfl⟩
      exact ⟨word, isTerm.isName word rfl ▸ isLexeme.isKnown use rfl, rfl⟩

/-- Symbols that lexemes are of admit the terms of these. -/
theorem forall₂_admits
    {symbols : List Symbol}
    {lexemes : List Lexeme}
    {terms : List Term}
    (areLexemes : List.Forall₂ Symbol.Is symbols lexemes)
    (areTerms : List.Forall₂ Lexeme.Is lexemes terms) :
    List.Forall₂ Symbol.Admits symbols terms := by
  induction areLexemes generalizing terms with
  | nil =>
      rw [List.forall₂_nil_left_iff.mp areTerms]
      exact .nil
  | cons isLexeme _ inductionHypothesis =>
      obtain ⟨term, others, isTerm, areOthers, rfl⟩ := List.forall₂_cons_left_iff.mp areTerms
      exact .cons (isLexeme.admits isTerm) (inductionHypothesis areOthers)

/-- The sentences of a phrase are the texts whose terms it takes. -/
theorem isSentence_iff_leads
    (phrase : Phrase)
    (text : String) :
    phrase.IsSentence text ↔
      ∃ terms, terms? text.toList = some terms ∧ phrase.Leads terms [] := by
  constructor
  · rintro ⟨lexemes, scans, symbols, isMatch, areLexemes⟩
    obtain ⟨terms, areTerms, areSame⟩ := scans.exists_terms
    refine ⟨terms, areTerms, symbols, isMatch, terms, ?_, (List.append_nil terms).symm⟩
    exact forall₂_admits areLexemes areSame
  · rintro ⟨terms, areTerms, symbols, isMatch, own, areAdmitted, rfl⟩
    rw [List.append_nil] at areTerms
    obtain ⟨lexemes, scans, areLexemes⟩ :=
      scans_of_terms? isMatch (List.nil_append _).symm areTerms areAdmitted
    exact ⟨lexemes, scans, symbols, isMatch, areLexemes⟩

end Value

namespace Shape

/--
A value fits a structured shape exactly when the texts of its tokens, with one
space between them, are a sentence of the grammar of the shape whose names are
known where they are looked up. The grammar reads a text in one way at most.
-/
theorem fits_iff_isSentence
    {shape : Shape}
    {phrase : Value.Phrase}
    (isStructured : Value.Phrase.ofShape? shape = some phrase)
    (tokens : List Token) :
    (shape.fits tokens = true ↔
      phrase.IsSentence (" ".intercalate (tokens.map fun token => token.text))) ∧
      ∀ text lexemes others,
        Value.Scans phrase [] text lexemes →
        Value.Scans phrase [] text others →
        lexemes = others := by
  constructor
  · rw [Value.fits_iff_leads isStructured, Value.isSentence_iff_leads]
    rfl
  · intro text lexemes others scans scansOther
    obtain ⟨depth, walks⟩ := Value.Phrase.exists_walks isStructured
    exact scans.eq_of_scans walks scansOther

/-- In a border, a plain numeral is a length outside of a call and a number inside of one. -/
theorem fits_iff_isSentence_border :
    let width : Token := ⟨⟨"2", 0, 1, 1, 1⟩, .number⟩
    let style : Token := ⟨⟨"Solid", 2, 5, 1, 3⟩, .identifier⟩
    let brush : Token := ⟨⟨"RGB(2, 50%,.5)", 8, 14, 1, 9⟩, .function⟩
    let broken : Token := ⟨⟨"rgb(2px, 0, 0)", 8, 14, 1, 9⟩, .function⟩
    let phrase := Value.Phrase.oneOrMore Value.Phrase.borderPart
    border.fits [width, style, brush] = true ∧
      phrase.IsSentence "2 Solid RGB(2, 50%,.5)" ∧
      border.fits [width, style, broken] = false ∧
      ¬ phrase.IsSentence "2 Solid rgb(2px, 0, 0)" := by
  intro width style brush broken phrase
  have fits : border.fits [width, style, brush] = true := by
    decide +kernel
  have fails : border.fits [width, style, broken] = false := by
    decide +kernel
  have isStructured : Value.Phrase.ofShape? border = some phrase := rfl
  refine ⟨fits, (fits_iff_isSentence isStructured [width, style, brush]).1.mp fits, fails, ?_⟩
  intro isSentence
  have alsoFits := (fits_iff_isSentence isStructured [width, style, broken]).1.mpr isSentence
  rw [fails] at alsoFits
  contradiction

end Shape

end QtSheet
