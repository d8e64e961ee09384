import QtSheet.Proofs.Value.Phrase

namespace QtSheet.Value

open Text

/-!
# Reading a value by its grammar

A value is read from left to right as terminals. Layout is left out. At each
point only the terminals are tried with which a sentence of the phrase can go on
(`Phrase.Continues`), the functions before the others, and a terminal takes the
match of its pattern (`Scans`).

The terms of a value are cut without the grammar, and the two readings agree: a
reading by the grammar takes the terms one by one (`Scans.exists_terms`), and
terms that a phrase takes are read by it (`scans_of_terms?`).
-/

/-- A stretch of a text that is read as a terminal. -/
structure Lexeme where
  terminal : Terminal
  text : String
  deriving Repr, DecidableEq

/-- Whether a terminal is the beginning of a call. -/
def Terminal.isFunction : Terminal → Bool
  | colorFunction | gradientFunction | paletteFunction => true
  | _ => false

/-- A sentence of a phrase can go on with a terminal after some terminals. -/
def Phrase.Continues (phrase : Phrase) (before : List Terminal) (terminal : Terminal) : Prop :=
  ∃ symbols ∈ phrase.matches', before ++ [terminal] <+: symbols.map Symbol.terminal

/-- What is read at the front of a text after some terminals. -/
structure Reads
    (phrase : Phrase)
    (before : List Terminal)
    (text : List Char)
    (lexeme : Lexeme)
    (rest : List Char) :
    Prop where
  continues : phrase.Continues before lexeme.terminal
  isMatch : lexeme.terminal.pattern.first? text = some rest
  whole : lexeme.text.toList ++ rest = text
  /-- A function that can stand here is read as one. -/
  functionsFirst :
    lexeme.terminal.isFunction = false →
    ∀ function : Terminal,
      function.isFunction = true →
      phrase.Continues before function →
      function.pattern.first? text = none

/-- The lexemes that a text is read as, after some terminals. -/
inductive Scans (phrase : Phrase) : List Terminal → List Char → List Lexeme → Prop where
  | done {before : List Terminal} :
      Scans phrase before [] []
  | layout
      {before : List Terminal}
      {c : Char}
      {text : List Char}
      {lexemes : List Lexeme} :
      isLayout c = true →
      Scans phrase before text lexemes →
      Scans phrase before (c :: text) lexemes
  | lexeme
      {before : List Terminal}
      {text rest : List Char}
      {lexeme : Lexeme}
      {lexemes : List Lexeme} :
      Reads phrase before text lexeme rest →
      Scans phrase (before ++ [lexeme.terminal]) rest lexemes →
      Scans phrase before text (lexeme :: lexemes)

/-- A lexeme stands where a symbol stands, and a name that the symbol looks up is known. -/
structure Symbol.Is (symbol : Symbol) (lexeme : Lexeme) : Prop where
  terminal : symbol.terminal = lexeme.terminal
  isKnown : ∀ use, symbol = .name use → lowercase lexeme.text ∈ use.words

/-- A text is a sentence of a phrase, and its names are known where they are looked up. -/
def Phrase.IsSentence (phrase : Phrase) (text : String) : Prop :=
  ∃ lexemes,
    Scans phrase [] text.toList lexemes ∧
      ∃ symbols ∈ phrase.matches', List.Forall₂ Symbol.Is symbols lexemes

/-- No terminal begins with a character that is neither mark, letter, digit, sign nor point. -/
theorem first?_eq_none
    {c : Char}
    (others : c ∉ '-' :: '+' :: '.' :: '_' :: marks)
    (notAlpha : c.isAlpha = false)
    (notDigit : isDecimalDigit c = false)
    (terminal : Terminal)
    (rest : List Char) :
    terminal.pattern.first? (c :: rest) = none := by
  obtain ⟨noTerm, noName⟩ := cut?_of_others others notAlpha notDigit rest
  apply Option.eq_none_iff_forall_ne_some.mpr
  intro after found
  rcases cutTerm?_of_first? found with ⟨term, _, isTerm⟩ | ⟨rfl, _⟩
  · rw [noTerm] at isTerm
    contradiction
  · rw [Terminal.first?_name, noName] at found
    contradiction

/-- No terminal matches layout. -/
theorem first?_eq_none_of_isLayout
    {c : Char}
    (layout : isLayout c = true)
    (terminal : Terminal)
    (rest : List Char) :
    terminal.pattern.first? (c :: rest) = none := by
  simp only [isLayout, Bool.or_eq_true, beq_iff_eq] at layout
  rcases layout with (((rfl | rfl) | rfl) | rfl) | rfl <;>
    exact first?_eq_none (by decide) (by decide) (by decide) terminal rest

/-- No terminal matches where no term begins. -/
theorem first?_eq_none_of_isStuck
    {c : Char}
    (stuck : isStuck c = true)
    (terminal : Terminal)
    (rest : List Char) :
    terminal.pattern.first? (c :: rest) = none := by
  simp only [isStuck, isStray, Bool.or_eq_true, beq_iff_eq] at stuck
  rcases stuck with rfl | (rfl | rfl) | rfl <;>
    exact first?_eq_none (by decide) (by decide) (by decide) terminal rest

/-- No terminal matches nothing. -/
theorem first?_nil (terminal : Terminal) :
    terminal.pattern.first? [] = none := by
  cases terminal <;> rfl

/-- A lexeme is the text of a term. -/
structure Lexeme.Is (lexeme : Lexeme) (term : Term) : Prop where
  admits : lexeme.terminal.Admits term
  isName : ∀ word, term = .name word → word = lowercase lexeme.text

/-- A name among the terms is the plain name at the front of the text. -/
theorem cutNameTerm?_of_cutTerm?
    {c : Char}
    {rest after : List Char}
    {word : String}
    (found : cutTerm? c rest = some (.name word, after)) :
    cutNameTerm? (c :: rest) = some (.name word, after) := by
  have isMatch := first?_of_cutTerm? .name found
  rw [Terminal.first?_name] at isMatch
  obtain ⟨cut, isCut, rfl⟩ := Option.map_eq_some_iff.mp isMatch
  rw [cutTerm?_of_notMem (notMem_of_cutNameTerm? isCut)] at found
  rcases cutWordTerm?_eq_some_iff.mp found with
    isCall | ⟨_, isUrl | ⟨_, isName | ⟨_, isNumeral⟩⟩⟩
  · rcases cutCallTerm?_eq_some_iff.mp isCall with ⟨same, _⟩ | ⟨same, _⟩ | ⟨same, _⟩ <;>
      contradiction
  · exact absurd (eq_url_of_cutUrlTerm? isUrl) (by simp)
  · exact isName
  · obtain ⟨unit, same⟩ := eq_numeral_of_cutNumeralTerm? isNumeral
    contradiction

/-- The term at the front of a text is the one whose text a lexeme is. -/
theorem Lexeme.is_of_cutTerm?
    {c : Char}
    {rest after : List Char}
    {term : Term}
    {lexeme : Lexeme}
    (found : cutTerm? c rest = some (term, after))
    (admits : lexeme.terminal.Admits term)
    (whole : lexeme.text.toList ++ after = c :: rest) :
    lexeme.Is term := by
  refine ⟨admits, ?_⟩
  rintro word rfl
  obtain ⟨own, isWhole, isName, _⟩ := eq_name_of_cutNameTerm? (cutNameTerm?_of_cutTerm? found)
  have same : lexeme.text.toList = own := List.append_cancel_right (whole.trans isWhole.symm)
  rw [Term.name.inj isName, ← same, String.ofList_toList]

/-- No reading goes on where a plain name has left the rest of a call. -/
theorem Scans.not_isStuck
    {phrase : Phrase}
    {before : List Terminal}
    {c : Char}
    {text : List Char}
    {lexemes : List Lexeme}
    (scans : Scans phrase before (c :: text) lexemes) :
    isStuck c = false := by
  apply Bool.eq_false_iff.mpr
  intro stuck
  cases scans with
  | layout layout _ =>
      simp only [isStuck, isStray, Bool.or_eq_true, beq_iff_eq] at stuck
      rcases stuck with rfl | (rfl | rfl) | rfl <;> contradiction
  | lexeme reads _ =>
      have found := reads.isMatch
      rw [first?_eq_none_of_isStuck stuck] at found
      contradiction

/-- A lexeme behind which a reading goes on is the text of the term at the front. -/
theorem Reads.exists_term
    {phrase : Phrase}
    {before behind : List Terminal}
    {text : List Char}
    {lexemes : List Lexeme}
    {rest : List Char}
    {lexeme : Lexeme}
    (reads : Reads phrase before text lexeme rest)
    (scans : Scans phrase behind rest lexemes) :
    ∃ c after term,
      text = c :: after ∧
        isLayout c = false ∧
        lexeme.Is term ∧
        cutTerm? c after = some (term, rest) := by
  have found := reads.isMatch
  cases text with
  | nil =>
      rw [first?_nil] at found
      contradiction
  | cons c after =>
      have notLayout : isLayout c = false := by
        apply Bool.eq_false_iff.mpr
        intro layout
        rw [first?_eq_none_of_isLayout layout] at found
        contradiction
      rcases cutTerm?_of_first? found with ⟨term, admits, isTerm⟩ | ⟨_, next, isNext, stuck⟩
      · exact ⟨c, after, term, rfl, notLayout, Lexeme.is_of_cutTerm? isTerm admits reads.whole,
          isTerm⟩
      · obtain ⟨tail, rfl⟩ := List.head?_eq_some_iff.mp isNext
        exact absurd stuck (by simp [scans.not_isStuck])

/-- A text that is read by the grammar is read as its terms. -/
theorem Scans.exists_terms
    {phrase : Phrase}
    {before : List Terminal}
    {text : List Char}
    {lexemes : List Lexeme}
    (scans : Scans phrase before text lexemes) :
    ∃ terms, terms? text = some terms ∧ List.Forall₂ Lexeme.Is lexemes terms := by
  induction scans with
  | done =>
      exact ⟨[], by rw [terms?], .nil⟩
  | layout layout _ inductionHypothesis =>
      obtain ⟨terms, areTerms, areSame⟩ := inductionHypothesis
      exact ⟨terms, by rw [terms?, if_pos layout, areTerms], areSame⟩
  | lexeme reads scans inductionHypothesis =>
      obtain ⟨terms, areTerms, areSame⟩ := inductionHypothesis
      obtain ⟨c, after, term, rfl, notLayout, isSame, isTerm⟩ := reads.exists_term scans
      refine ⟨term :: terms, ?_, .cons isSame areSame⟩
      rw [terms?, if_neg (by simp [notLayout])]
      split <;> simp_all

/-- The terminal of a symbol stands for the terms that the symbol stands for. -/
theorem Symbol.Admits.terminal
    {symbol : Symbol}
    {term : Term}
    (admits : symbol.Admits term) :
    symbol.terminal.Admits term := by
  cases symbol with
  | plain terminal =>
      exact admits
  | name use =>
      obtain ⟨word, _, rfl⟩ := admits
      exact .name

/-- A term that is a call is one for a single terminal. -/
theorem Terminal.Admits.eq_of_isFunction
    {function terminal : Terminal}
    {term : Term}
    (admits : terminal.Admits term)
    (isFunction : function.isFunction = true)
    (isCall : function.Admits term) :
    terminal = function := by
  cases isCall <;> first | contradiction | (cases admits; rfl)

/-- The terms of a text that continue a sentence are read by the grammar. -/
theorem scans_of_terms?
    {phrase : Phrase}
    {sentence symbols : List Symbol}
    {before : List Terminal}
    {text : List Char}
    {terms : List Term}
    (isSentence : sentence ∈ phrase.matches')
    (isRest : sentence.map Symbol.terminal = before ++ symbols.map Symbol.terminal)
    (areTerms : terms? text = some terms)
    (areAdmitted : List.Forall₂ Symbol.Admits symbols terms) :
    ∃ lexemes, Scans phrase before text lexemes ∧ List.Forall₂ Symbol.Is symbols lexemes := by
  fun_induction terms? text generalizing before symbols terms with
  | case1 =>
      obtain rfl := Option.some.inj areTerms
      obtain rfl := List.forall₂_nil_right_iff.mp areAdmitted
      exact ⟨[], .done, .nil⟩
  | case2 c rest layout inductionHypothesis =>
      obtain ⟨lexemes, scans, areSame⟩ := inductionHypothesis isRest areTerms areAdmitted
      exact ⟨lexemes, .layout layout scans, areSame⟩
  | case3 =>
      contradiction
  | case4 c rest notLayout term after isTerm inductionHypothesis =>
      obtain ⟨others, areOthers, rfl⟩ := Option.map_eq_some_iff.mp areTerms
      obtain ⟨symbol, later, admits, areLater, rfl⟩ := List.forall₂_cons_right_iff.mp areAdmitted
      have isMatch := first?_of_cutTerm? admits.terminal isTerm
      obtain ⟨own, whole⟩ := Pattern.exists_append_of_first? isMatch
      have isNext :
          sentence.map Symbol.terminal =
            (before ++ [symbol.terminal]) ++ later.map Symbol.terminal := by
        rw [isRest, List.map_cons, List.append_assoc, List.singleton_append]
      obtain ⟨lexemes, scans, areSame⟩ := inductionHypothesis isNext areOthers areLater
      let lexeme : Lexeme := ⟨symbol.terminal, String.ofList own⟩
      have ownText : lexeme.text.toList ++ after = c :: rest := by
        rw [String.toList_ofList, whole]
      have reads : Reads phrase before (c :: rest) lexeme after := by
        refine ⟨⟨sentence, isSentence, ?_⟩, isMatch, ownText, ?_⟩
        · exact ⟨later.map Symbol.terminal, isNext.symm⟩
        · intro notFunction function isFunction _
          apply Option.eq_none_iff_forall_ne_some.mpr
          intro behind found
          rcases cutTerm?_of_first? found with ⟨other, isCall, isOther⟩ | ⟨rfl, _⟩
          · obtain ⟨rfl, _⟩ := Prod.mk.inj (Option.some.inj (isTerm.symm.trans isOther))
            have same : lexeme.terminal = function :=
              admits.terminal.eq_of_isFunction isFunction isCall
            rw [same, isFunction] at notFunction
            contradiction
          · contradiction
      refine ⟨lexeme :: lexemes, .lexeme reads scans, .cons ⟨rfl, ?_⟩ areSame⟩
      rintro use rfl
      obtain ⟨word, isKnown, rfl⟩ := admits
      have isName := (Lexeme.is_of_cutTerm? isTerm .name ownText).isName word rfl
      exact isName ▸ isKnown

end QtSheet.Value
