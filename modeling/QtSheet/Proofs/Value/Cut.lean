import QtSheet.Proofs.Value.Terminal

namespace QtSheet.Value

open Text

/-!
# Terms and terminals

A term is cut without regard to what stands around it, and a terminal is tried
where the grammar can go on with it. Each terminal that admits the term at the
front of a text matches what the term takes (`first?_of_cutTerm?`). A terminal
that matches admits the term (`cutTerm?_of_first?`), but for a plain name where a
call stands, which leaves a text that begins with no terminal.
-/

/-- A terminal stands for a term. -/
inductive Terminal.Admits : Terminal → Term → Prop where
  | hexColor : Admits .hexColor .hexColor
  | colorFunction : Admits .colorFunction .colorCall
  | gradientFunction : Admits .gradientFunction .gradientCall
  | paletteFunction : Admits .paletteFunction .paletteCall
  | url : Admits .url .url
  | name {word : String} : Admits .name (.name word)
  | length {unit : NumeralUnit} : unit.isLength = true → Admits .length (.numeral unit)
  | number {unit : NumeralUnit} : unit.isNumber = true → Admits .number (.numeral unit)
  | string : Admits .string .string
  | comma : Admits .comma .comma
  | slash : Admits .slash .slash
  | colon : Admits .colon .colon
  | close : Admits .close .close

/-- What is cut as a color in digits is one. -/
theorem eq_hexColor_of_cutHexTerm?
    {text : List Char}
    {cut : TermCut}
    (found : cutHexTerm? text = some cut) :
    cut.1 = .hexColor := by
  unfold cutHexTerm? at found
  dsimp only at found
  split at found
  · rw [← Option.some.inj found]
  · contradiction

/-- What is cut as a reference is one. -/
theorem eq_url_of_cutUrlTerm?
    {text : List Char}
    {cut : TermCut}
    (found : cutUrlTerm? text = some cut) :
    cut.1 = .url := by
  obtain ⟨rest, _, rfl⟩ := Option.map_eq_some_iff.mp found
  rfl

/-- What is cut as a numeral is one. -/
theorem eq_numeral_of_cutNumeralTerm?
    {text after : List Char}
    {term : Term}
    (found : cutNumeralTerm? text = some (term, after)) :
    ∃ unit, term = .numeral unit := by
  obtain ⟨numeral, _, isCut⟩ := Option.bind_eq_some_iff.mp found
  obtain ⟨unit, _, same⟩ := Option.map_eq_some_iff.mp isCut
  exact ⟨unit.1, (Prod.mk.inj same).1.symm⟩

/-- A name is in lower case, and it is all characters that it can be. -/
theorem eq_name_of_cutNameTerm?
    {text : List Char}
    {cut : TermCut}
    (found : cutNameTerm? text = some cut) :
    ∃ own,
      own ++ cut.2 = text ∧
        cut.1 = .name (lowercase (String.ofList own)) ∧
        cut.2 = text.dropWhile isPlainCharacter := by
  have startIsPlain : ∀ c, isPlainStart c = true → isPlainCharacter c = true := by
    intro c starts
    simp only [isPlainStart, Bool.or_eq_true, beq_iff_eq] at starts
    rcases starts with starts | starts <;> simp [isPlainCharacter, Char.isAlphanum, starts]
  obtain ⟨name, isName, rfl⟩ := Option.map_eq_some_iff.mp found
  refine ⟨name.1, ?_⟩
  revert isName
  fun_cases cutPlainName? text with
  | case1 =>
      rintro ⟨⟩
  | case2 hyphen c rest left starts =>
      rintro ⟨rfl⟩
      revert left
      dsimp only [hyphen]
      fun_cases cutHyphen text with
      | case1 behind =>
          rintro ⟨⟩
          have isPlain : isPlainCharacter '-' = true := by decide
          simp [isPlain, startIsPlain c starts]
      | case2 text noHyphen =>
          rintro rfl
          simp [startIsPlain c starts]
  | case3 =>
      rintro ⟨⟩

/-- The characters that are a term, or the first one of a term, that is neither word nor numeral. -/
def marks : List Char :=
  [',', '/', ':', ')', '#', '"', '\x27']

/-- What begins with no mark is a word or a numeral, or no term. -/
theorem cutTerm?_of_notMem
    {c : Char}
    (notMark : c ∉ marks)
    (rest : List Char) :
    cutTerm? c rest = cutWordTerm? (c :: rest) := by
  simp only [marks, List.mem_cons, List.not_mem_nil, or_false, not_or] at notMark
  simp [cutTerm?, sign?, notMark]

/-- No mark is a letter. -/
theorem notMem_of_isAlpha
    {c : Char}
    (isAlpha : c.isAlpha = true) :
    c ∉ marks := by
  have noLetter : marks.all (fun mark => !mark.isAlpha) = true := by decide
  intro isMark
  have notAlpha := List.all_eq_true.mp noLetter c isMark
  simp [isAlpha] at notAlpha

/-- A function of colors begins with an `r` or an `h`. -/
theorem begins_of_colorFunction
    {text rest : List Char}
    (found : afterAnyWord? colorFunctions text = some rest) :
    Begins ['r', 'h'] text :=
  begins_of_afterAnyWord? (by decide) (by decide) found

/-- A function of gradients begins with a `q`. -/
theorem begins_of_gradientFunction
    {text rest : List Char}
    (found : afterAnyWord? gradientFunctions text = some rest) :
    Begins ['q'] text :=
  begins_of_afterAnyWord? (by decide) (by decide) found

/-- The function of the palette begins with a `p`. -/
theorem begins_of_paletteFunction
    {text rest : List Char}
    (found : afterAnyWord? paletteFunctions text = some rest) :
    Begins ['p'] text :=
  begins_of_afterAnyWord? (by decide) (by decide) found

/-- A reference begins with a `u`. -/
theorem begins_of_cutUrlTerm?
    {text : List Char}
    {cut : TermCut}
    (found : cutUrlTerm? text = some cut) :
    Begins ['u'] text := by
  obtain ⟨rest, isUrl, _⟩ := Option.map_eq_some_iff.mp found
  obtain ⟨body, isName, _⟩ := Option.bind_eq_some_iff.mp isUrl
  exact begins_of_afterWord? (by decide) (by decide) isName

/-- A call begins with a letter of its own, so no call hides another one. -/
theorem cutCallTerm?_eq_some_iff
    {text rest : List Char}
    {term : Term} :
    cutCallTerm? text = some (term, rest) ↔
      term = .colorCall ∧ afterAnyWord? colorFunctions text = some rest ∨
        term = .gradientCall ∧ afterAnyWord? gradientFunctions text = some rest ∨
        term = .paletteCall ∧ afterAnyWord? paletteFunctions text = some rest := by
  have noColor :
      Begins ['q'] text ∨ Begins ['p'] text → afterAnyWord? colorFunctions text = none := by
    intro begins
    apply Option.eq_none_iff_forall_ne_some.mpr
    intro rest found
    rcases begins with begins | begins <;>
      exact begins.not_begins (by simp) (begins_of_colorFunction found)
  have noGradient : Begins ['p'] text → afterAnyWord? gradientFunctions text = none := by
    intro begins
    apply Option.eq_none_iff_forall_ne_some.mpr
    intro rest found
    exact begins.not_begins (by simp) (begins_of_gradientFunction found)
  constructor
  · fun_cases cutCallTerm? text with
    | case1 after isColor =>
        rintro ⟨⟩
        exact .inl ⟨rfl, isColor⟩
    | case2 noColor after isGradient =>
        rintro ⟨⟩
        exact .inr (.inl ⟨rfl, isGradient⟩)
    | case3 noColor noGradient =>
        intro found
        obtain ⟨after, isPalette, same⟩ := Option.map_eq_some_iff.mp found
        obtain ⟨rfl, rfl⟩ := Prod.mk.inj same
        exact .inr (.inr ⟨rfl, isPalette⟩)
  · rintro (⟨rfl, found⟩ | ⟨rfl, found⟩ | ⟨rfl, found⟩)
    · simp [cutCallTerm?, found]
    · simp [cutCallTerm?, found, noColor (.inl (begins_of_gradientFunction found))]
    · have begins := begins_of_paletteFunction found
      simp [cutCallTerm?, found, noColor (.inr begins), noGradient begins]

/-- A call begins with a letter. -/
theorem isAlpha_of_cutCallTerm?
    {c : Char}
    {rest : List Char}
    {cut : TermCut}
    (found : cutCallTerm? (c :: rest) = some cut) :
    c.isAlpha = true := by
  rcases cutCallTerm?_eq_some_iff.mp found with ⟨_, found⟩ | ⟨_, found⟩ | ⟨_, found⟩
  · exact (begins_of_colorFunction found).isAlpha (by decide)
  · exact (begins_of_gradientFunction found).isAlpha (by decide)
  · exact (begins_of_paletteFunction found).isAlpha (by decide)

/-- A reference begins with a letter. -/
theorem isAlpha_of_cutUrlTerm?
    {c : Char}
    {rest : List Char}
    {cut : TermCut}
    (found : cutUrlTerm? (c :: rest) = some cut) :
    c.isAlpha = true :=
  (begins_of_cutUrlTerm? found).isAlpha (by decide)

/-- What begins with no letter is neither a call nor a reference. -/
theorem cut?_of_notAlpha
    {c : Char}
    (notAlpha : c.isAlpha = false)
    (rest : List Char) :
    cutCallTerm? (c :: rest) = none ∧ cutUrlTerm? (c :: rest) = none := by
  constructor
  · apply Option.eq_none_iff_forall_ne_some.mpr
    intro cut found
    exact absurd (isAlpha_of_cutCallTerm? found) (by simp [notAlpha])
  · apply Option.eq_none_iff_forall_ne_some.mpr
    intro cut found
    exact absurd (isAlpha_of_cutUrlTerm? found) (by simp [notAlpha])

/-- No call hides a reference. -/
theorem cutCallTerm?_of_cutUrlTerm?
    {text : List Char}
    {cut : TermCut}
    (found : cutUrlTerm? text = some cut) :
    cutCallTerm? text = none := by
  have begins := begins_of_cutUrlTerm? found
  apply Option.eq_none_iff_forall_ne_some.mpr
  intro call isCall
  rcases cutCallTerm?_eq_some_iff.mp isCall with ⟨_, found⟩ | ⟨_, found⟩ | ⟨_, found⟩
  · exact begins.not_begins (by simp) (begins_of_colorFunction found)
  · exact begins.not_begins (by simp) (begins_of_gradientFunction found)
  · exact begins.not_begins (by simp) (begins_of_paletteFunction found)

/-- A name begins with a hyphen, a letter or a low line, and not with a mark. -/
theorem notMem_of_cutNameTerm?
    {c : Char}
    {rest : List Char}
    {cut : TermCut}
    (found : cutNameTerm? (c :: rest) = some cut) :
    c ∉ marks := by
  have noName : marks.all (fun mark => mark != '-' && !isPlainStart mark) = true := by decide
  intro isMark
  have others := List.all_eq_true.mp noName c isMark
  simp only [Bool.and_eq_true, bne_iff_ne, Bool.not_eq_true'] at others
  simp [cutNameTerm?, cutPlainName?, cutHyphen, others] at found

/-- A magnitude begins with a character that is neither mark nor letter. -/
theorem begins_of_cutMagnitude?
    {text : List Char}
    {cut : Cut}
    (found : cutMagnitude? text = some cut) :
    ∃ c rest,
      text = c :: rest ∧ c ∉ marks ∧ c.isAlpha = false ∧ isPlainStart c = false := by
  cases text with
  | nil =>
      contradiction
  | cons c rest =>
      refine ⟨c, rest, rfl, ?_⟩
      have begins := cutMagnitude?_ne_none_iff.mp (found ▸ Option.some_ne_none cut)
      rcases begins with ⟨digit, isFirst, isDigit⟩ | ⟨isPoint, _⟩
      · obtain rfl := Option.some.inj isFirst
        have noDigit : ('_' :: marks).all (fun other => !isDecimalDigit other) = true := by decide
        have others : c ∉ '_' :: marks := by
          intro isOther
          have notDigit := List.all_eq_true.mp noDigit c isOther
          simp [isDigit] at notDigit
        rw [List.mem_cons, not_or] at others
        have notAlpha := isAlpha_eq_false_of_isDecimalDigit isDigit
        exact ⟨others.2, notAlpha, by simp [isPlainStart, notAlpha, others.1]⟩
      · obtain rfl := Option.some.inj isPoint
        decide

/-- A numeral begins neither with a mark nor like a word. -/
theorem begins_of_cutNumeral?
    {c : Char}
    {rest : List Char}
    {cut : Cut}
    (found : cutNumeral? (c :: rest) = some cut) :
    c ∉ marks ∧ c.isAlpha = false ∧ cutNameTerm? (c :: rest) = none := by
  obtain ⟨magnitude, isMagnitude, _⟩ := Option.map_eq_some_iff.mp found
  obtain ⟨first, others, isText, notMark, notAlpha, noStart⟩ :=
    begins_of_cutMagnitude? isMagnitude
  by_cases isPlus : c = '+'
  · subst isPlus
    exact ⟨by decide, by decide, rfl⟩
  · by_cases isMinus : c = '-'
    · subst isMinus
      obtain rfl : rest = first :: others := isText
      refine ⟨by decide, by decide, ?_⟩
      simp [cutNameTerm?, cutPlainName?, cutHyphen, noStart]
    · have noSign : cutSign (c :: rest) = ([], c :: rest) := by
        simp [cutSign, isPlus, isMinus]
      rw [noSign] at isText
      obtain ⟨rfl, rfl⟩ := List.cons.inj isText
      refine ⟨notMark, notAlpha, ?_⟩
      simp [cutNameTerm?, cutPlainName?, cutHyphen, isMinus, noStart]

/-- Where a numeral begins there is no mark, no letter and no name. -/
theorem begins_of_cutNumeralTerm?
    {c : Char}
    {rest : List Char}
    {cut : TermCut}
    (found : cutNumeralTerm? (c :: rest) = some cut) :
    c ∉ marks ∧ c.isAlpha = false ∧ cutNameTerm? (c :: rest) = none := by
  obtain ⟨numeral, isNumeral, _⟩ := Option.bind_eq_some_iff.mp found
  exact begins_of_cutNumeral? isNumeral

/-- Where a function stands, a plain name leaves a text that begins with no term. -/
theorem isStuck_of_afterAnyWord?
    {words : List String}
    (spelled :
      ∀ word ∈ words,
        word.toList.all (fun letter => letter.isLower || letter == '(') = true ∧
          '(' ∈ word.toList)
    {text rest : List Char}
    (found : afterAnyWord? words text = some rest) :
    ∃ c ∈ (text.dropWhile isPlainCharacter).head?, isStuck c = true := by
  obtain ⟨word, member, isFound⟩ := List.exists_of_findSome?_eq_some found
  exact isStuck_of_afterWord? (spelled word member).1 (spelled word member).2 isFound

/-- Behind the name of a call no term begins. -/
theorem isStuck_of_cutCallTerm?
    {text : List Char}
    {cut : TermCut}
    (found : cutCallTerm? text = some cut) :
    ∃ c ∈ (text.dropWhile isPlainCharacter).head?, isStuck c = true := by
  rcases cutCallTerm?_eq_some_iff.mp found with ⟨_, found⟩ | ⟨_, found⟩ | ⟨_, found⟩ <;>
    exact isStuck_of_afterAnyWord? (by decide) found

/-- Behind the name of a reference no term begins. -/
theorem isStuck_of_cutUrlTerm?
    {text : List Char}
    {cut : TermCut}
    (found : cutUrlTerm? text = some cut) :
    ∃ c ∈ (text.dropWhile isPlainCharacter).head?, isStuck c = true := by
  obtain ⟨rest, isUrl, _⟩ := Option.map_eq_some_iff.mp found
  obtain ⟨body, isName, _⟩ := Option.bind_eq_some_iff.mp isUrl
  exact isStuck_of_afterWord? (by decide) (by decide) isName

/-- No term begins with a character that is neither mark, letter, digit, sign nor point. -/
theorem cut?_of_others
    {c : Char}
    (others : c ∉ '-' :: '+' :: '.' :: '_' :: marks)
    (notAlpha : c.isAlpha = false)
    (notDigit : isDecimalDigit c = false)
    (rest : List Char) :
    cutTerm? c rest = none ∧ cutNameTerm? (c :: rest) = none := by
  simp only [List.mem_cons, not_or] at others
  obtain ⟨notMinus, notPlus, notPoint, notLine, notMark⟩ := others
  obtain ⟨noCall, noUrl⟩ := cut?_of_notAlpha notAlpha rest
  have noName : cutNameTerm? (c :: rest) = none := by
    simp [cutNameTerm?, cutPlainName?, cutHyphen, isPlainStart, notMinus, notAlpha, notLine]
  have noNumeral : cutNumeralTerm? (c :: rest) = none := by
    simp [cutNumeralTerm?, cutNumeral?, cutSign, cutMagnitude?, cutWhile, cutFraction,
      notMinus, notPlus, notPoint, notDigit]
  refine ⟨?_, noName⟩
  rw [cutTerm?_of_notMem notMark, cutWordTerm?, noCall, noUrl, noName, noNumeral]
  rfl

/-- Of words, calls come first, then references, names and numerals. -/
theorem cutWordTerm?_eq_some_iff
    {text : List Char}
    {cut : TermCut} :
    cutWordTerm? text = some cut ↔
      cutCallTerm? text = some cut ∨
        cutCallTerm? text = none ∧
          (cutUrlTerm? text = some cut ∨
            cutUrlTerm? text = none ∧
              (cutNameTerm? text = some cut ∨
                cutNameTerm? text = none ∧ cutNumeralTerm? text = some cut)) := by
  simp only [cutWordTerm?, Option.orElse_eq_orElse, Option.orElse_eq_or, Option.or_eq_some_iff]

/-- A terminal that admits the word or numeral at the front of a text takes the same of it. -/
theorem first?_of_cutWordTerm?
    {text after : List Char}
    {term : Term}
    {terminal : Terminal}
    (admits : terminal.Admits term)
    (found : cutWordTerm? text = some (term, after)) :
    terminal.pattern.first? text = some after := by
  rcases cutWordTerm?_eq_some_iff.mp found with
    isCall | ⟨_, isUrl | ⟨_, isName | ⟨_, isNumeral⟩⟩⟩
  · rcases cutCallTerm?_eq_some_iff.mp isCall with
      ⟨rfl, isColor⟩ | ⟨rfl, isGradient⟩ | ⟨rfl, isPalette⟩
    · cases admits
      rw [Terminal.first?_colorFunction, isColor]
    · cases admits
      rw [Terminal.first?_gradientFunction, isGradient]
    · cases admits
      rw [Terminal.first?_paletteFunction, isPalette]
  · obtain rfl : term = .url := eq_url_of_cutUrlTerm? isUrl
    cases admits
    rw [Terminal.first?_url, isUrl]
    rfl
  · obtain ⟨own, _, same, _⟩ := eq_name_of_cutNameTerm? isName
    obtain rfl : term = .name _ := same
    cases admits
    rw [Terminal.first?_name, isName]
    rfl
  · obtain ⟨unit, rfl⟩ := eq_numeral_of_cutNumeralTerm? isNumeral
    cases admits with
    | length isLength => exact Terminal.first?_length.mpr ⟨unit, isNumeral, isLength⟩
    | number isNumber => exact Terminal.first?_number.mpr ⟨unit, isNumeral, isNumber⟩

/-- A terminal that admits a sign matches it. -/
theorem first?_of_sign?
    {c : Char}
    {term : Term}
    {terminal : Terminal}
    {rest : List Char}
    (admits : terminal.Admits term)
    (isSign : sign? c = some term) :
    terminal.pattern.first? (c :: rest) = some rest := by
  revert isSign
  fun_cases sign? c with
  | case1 | case2 | case3 | case4 =>
      rintro ⟨⟩
      cases admits
      rfl
  | case5 =>
      rintro ⟨⟩

/-- A terminal that admits the term at the front of a text takes the same of it. -/
theorem first?_of_cutTerm?
    {c : Char}
    {rest after : List Char}
    {term : Term}
    {terminal : Terminal}
    (admits : terminal.Admits term)
    (found : cutTerm? c rest = some (term, after)) :
    terminal.pattern.first? (c :: rest) = some after := by
  revert found
  fun_cases cutTerm? c rest with
  | case1 sign isSign =>
      rintro ⟨⟩
      exact first?_of_sign? admits isSign
  | case2 noSign isHash =>
      intro found
      obtain rfl : term = .hexColor := eq_hexColor_of_cutHexTerm? found
      cases admits
      rw [Terminal.first?_hexColor, if_pos isHash, found]
      rfl
  | case3 noSign notHash isQuote =>
      intro found
      obtain ⟨tail, isQuoted, same⟩ := Option.map_eq_some_iff.mp found
      obtain ⟨rfl, rfl⟩ := Prod.mk.inj same
      cases admits
      rw [Terminal.first?_string, if_pos isQuote, isQuoted]
  | case4 noSign notHash noQuote =>
      exact first?_of_cutWordTerm? admits

/-- A call at the front of a text is its first term. -/
theorem cutTerm?_of_cutCallTerm?
    {c : Char}
    {rest : List Char}
    {cut : TermCut}
    (found : cutCallTerm? (c :: rest) = some cut) :
    cutTerm? c rest = some cut := by
  rw [cutTerm?_of_notMem (notMem_of_isAlpha (isAlpha_of_cutCallTerm? found))]
  exact cutWordTerm?_eq_some_iff.mpr (.inl found)

/-- A reference at the front of a text is its first term. -/
theorem cutTerm?_of_cutUrlTerm?
    {c : Char}
    {rest : List Char}
    {cut : TermCut}
    (found : cutUrlTerm? (c :: rest) = some cut) :
    cutTerm? c rest = some cut := by
  rw [cutTerm?_of_notMem (notMem_of_isAlpha (isAlpha_of_cutUrlTerm? found))]
  exact cutWordTerm?_eq_some_iff.mpr (.inr ⟨cutCallTerm?_of_cutUrlTerm? found, .inl found⟩)

/-- A numeral at the front of a text is its first term. -/
theorem cutTerm?_of_cutNumeralTerm?
    {c : Char}
    {rest : List Char}
    {cut : TermCut}
    (found : cutNumeralTerm? (c :: rest) = some cut) :
    cutTerm? c rest = some cut := by
  obtain ⟨notMark, notAlpha, noName⟩ := begins_of_cutNumeralTerm? found
  obtain ⟨noCall, noUrl⟩ := cut?_of_notAlpha notAlpha rest
  rw [cutTerm?_of_notMem notMark]
  exact cutWordTerm?_eq_some_iff.mpr (.inr ⟨noCall, .inr ⟨noUrl, .inr ⟨noName, found⟩⟩⟩)

/-- The character of a sign is a term for itself. -/
theorem cutTerm?_of_character
    (sign : Char)
    {c : Char}
    {term : Term}
    {rest after : List Char}
    (isSign : sign? sign = some term)
    (found : (Pattern.character sign).first? (c :: rest) = some after) :
    cutTerm? c rest = some (term, after) := by
  rw [Pattern.character, Pattern.first?_one_cons, Option.ite_none_right_eq_some] at found
  obtain rfl := beq_iff_eq.mp found.1
  rw [cutTerm?, isSign, Option.some.inj found.2]

/--
The term at the front of a text where a terminal matches. Only a plain name may
miss it, and then it leaves a text that begins with no term.
-/
theorem cutTerm?_of_first?
    {c : Char}
    {rest after : List Char}
    {terminal : Terminal}
    (found : terminal.pattern.first? (c :: rest) = some after) :
    (∃ term, terminal.Admits term ∧ cutTerm? c rest = some (term, after)) ∨
      terminal = .name ∧ ∃ next ∈ after.head?, isStuck next = true := by
  cases terminal with
  | hexColor =>
      rw [Terminal.first?_hexColor, Option.ite_none_right_eq_some] at found
      obtain ⟨rfl, isColor⟩ := found
      obtain ⟨cut, isCut, rfl⟩ := Option.map_eq_some_iff.mp isColor
      have same : cut = (.hexColor, cut.2) := by rw [← eq_hexColor_of_cutHexTerm? isCut]
      exact .inl ⟨.hexColor, .hexColor, same ▸ isCut⟩
  | colorFunction =>
      rw [Terminal.first?_colorFunction] at found
      exact .inl ⟨.colorCall, .colorFunction,
        cutTerm?_of_cutCallTerm? (cutCallTerm?_eq_some_iff.mpr (.inl ⟨rfl, found⟩))⟩
  | gradientFunction =>
      rw [Terminal.first?_gradientFunction] at found
      exact .inl ⟨.gradientCall, .gradientFunction,
        cutTerm?_of_cutCallTerm? (cutCallTerm?_eq_some_iff.mpr (.inr (.inl ⟨rfl, found⟩)))⟩
  | paletteFunction =>
      rw [Terminal.first?_paletteFunction] at found
      exact .inl ⟨.paletteCall, .paletteFunction,
        cutTerm?_of_cutCallTerm? (cutCallTerm?_eq_some_iff.mpr (.inr (.inr ⟨rfl, found⟩)))⟩
  | url =>
      rw [Terminal.first?_url] at found
      obtain ⟨cut, isCut, rfl⟩ := Option.map_eq_some_iff.mp found
      have same : cut = (.url, cut.2) := by rw [← eq_url_of_cutUrlTerm? isCut]
      exact .inl ⟨.url, .url, same ▸ cutTerm?_of_cutUrlTerm? isCut⟩
  | name =>
      rw [Terminal.first?_name] at found
      obtain ⟨cut, isCut, rfl⟩ := Option.map_eq_some_iff.mp found
      obtain ⟨own, _, isName, longest⟩ := eq_name_of_cutNameTerm? isCut
      rw [cutTerm?_of_notMem (notMem_of_cutNameTerm? isCut), longest]
      cases isCall : cutCallTerm? (c :: rest) with
      | some call =>
          exact .inr ⟨rfl, isStuck_of_cutCallTerm? isCall⟩
      | none =>
          cases isUrl : cutUrlTerm? (c :: rest) with
          | some url =>
              exact .inr ⟨rfl, isStuck_of_cutUrlTerm? isUrl⟩
          | none =>
              refine .inl ⟨cut.1, isName ▸ .name, cutWordTerm?_eq_some_iff.mpr ?_⟩
              rw [← longest]
              exact .inr ⟨isCall, .inr ⟨isUrl, .inl isCut⟩⟩
  | length =>
      obtain ⟨unit, isNumeral, isLength⟩ := Terminal.first?_length.mp found
      exact .inl ⟨.numeral unit, .length isLength, cutTerm?_of_cutNumeralTerm? isNumeral⟩
  | number =>
      obtain ⟨unit, isNumeral, isNumber⟩ := Terminal.first?_number.mp found
      exact .inl ⟨.numeral unit, .number isNumber, cutTerm?_of_cutNumeralTerm? isNumeral⟩
  | string =>
      rw [Terminal.first?_string, Option.ite_none_right_eq_some] at found
      obtain ⟨isQuote, isQuoted⟩ := found
      have noSign : sign? c = none ∧ c ≠ '#' := by
        simp only [Bool.or_eq_true, decide_eq_true_eq] at isQuote
        rcases isQuote with rfl | rfl <;> decide
      refine .inl ⟨.string, .string, ?_⟩
      rw [cutTerm?, noSign.1]
      dsimp only
      rw [if_neg noSign.2, if_pos isQuote, isQuoted]
      rfl
  | comma =>
      exact .inl ⟨.comma, .comma, cutTerm?_of_character ',' rfl found⟩
  | slash =>
      exact .inl ⟨.slash, .slash, cutTerm?_of_character '/' rfl found⟩
  | colon =>
      exact .inl ⟨.colon, .colon, cutTerm?_of_character ':' rfl found⟩
  | close =>
      exact .inl ⟨.close, .close, cutTerm?_of_character ')' rfl found⟩

end QtSheet.Value
