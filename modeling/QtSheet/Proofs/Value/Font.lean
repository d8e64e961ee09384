import QtSheet.Proofs.Value.FontToken

namespace QtSheet

/-!
# Fonts and their families

Which values are fonts or families of fonts (`fits_font_by_terms`). The terms of
a value are those of its tokens, one token after the other, so a font is read
token by token: each step takes one token and leaves the question what may
follow it.
-/

namespace Value

/-- Whether the terms of tokens, one token after the other, pass a test. -/
def passes (test : List Term → Bool) (tokens : List Token) : Bool :=
  ((tokens.mapM fun token => terms? token.text.toList).map List.flatten).any test

/-- The terms of tokens of a value are those of each of them, one after the other. -/
theorem hasTerms_eq_passes
    {tokens : List Token}
    (areValues : ∀ token ∈ tokens, IsValue token)
    (test : List Term → Bool) :
    hasTerms test tokens = passes test tokens := by
  rw [hasTerms, passes, terms?_joined areValues]

theorem passes_nil (test : List Term → Bool) : passes test [] = test [] :=
  rfl

/-- A test of a token and those behind it tests the terms of the one before those of the others. -/
theorem passes_cons
    (test : List Term → Bool)
    (token : Token)
    (tokens : List Token) :
    passes test (token :: tokens) = true ↔
      ∃ own, terms? token.text.toList = some own ∧
        passes (fun others => test (own ++ others)) tokens = true := by
  simp only [passes, List.mapM_cons]
  cases terms? token.text.toList <;>
    cases tokens.mapM fun token => terms? token.text.toList <;> simp

/-- A condition on nothing in the tokens can be tested apart. -/
theorem passes_and
    (isSo : Bool)
    (test : List Term → Bool)
    (tokens : List Token) :
    passes (fun terms => isSo && test terms) tokens = (isSo && passes test tokens) := by
  cases isSo <;> simp [passes]

/-- Calls, references and colors in hexadecimal digits, which are no parts of fonts. -/
def Term.isForeign (term : Term) : Bool :=
  term.isCall || term = .url || term = .hexColor

/-- A test that terms with a foreign one at the front do not pass. -/
def RejectsForeign (test : List Term → Bool) : Prop :=
  ∀ term others, term.isForeign = true → test (term :: others) = false

/-- The terms of a token that may be a part of a font. -/
inductive FontTerms : List Term → Prop where
  | name (word : String) :
      FontTerms [.name word]
  | spliced (word : String) (unit : NumeralUnit) :
      FontTerms [.name word, .numeral unit]
  | numeral (unit : NumeralUnit) :
      FontTerms [.numeral unit]
  | string :
      FontTerms [.string]
  | comma :
      FontTerms [.comma]
  | slash :
      FontTerms [.slash]

/-- A token at the front of what passes a test that no foreign terms pass. -/
theorem fontTerms_of_passes
    {kind : Kind}
    {test : List Term → Bool}
    {own : List Term}
    {tokens : List Token}
    (rejects : RejectsForeign test)
    (tokenTerms : TokenTerms kind own)
    (passesRest : passes (fun others => test (own ++ others)) tokens = true) :
    FontTerms own := by
  have notForeign (term : Term) (rest : List Term) (same : own = term :: rest) :
      term.isForeign = false := by
    apply Bool.eq_false_iff.mpr
    intro isForeign
    simp [same, rejects _ _ isForeign, passes] at passesRest
  cases tokenTerms with
  | name => exact .name _
  | spliced => exact .spliced _ _
  | numeral => exact .numeral _
  | string => exact .string
  | comma => exact .comma
  | slash => exact .slash
  | hexColor =>
      exact absurd (notForeign _ _ rfl) (by decide)
  | call _ isCall =>
      exact absurd (notForeign _ _ rfl) (by simp [Term.isForeign, isCall])
  | url =>
      exact absurd (notForeign _ _ rfl) (by decide)

/-- Only terms of a font need be considered by a test that rejects all others. -/
theorem passes_cons_iff
    {test : List Term → Bool}
    {token : Token}
    (rejects : RejectsForeign test)
    (isValue : IsValue token)
    (tokens : List Token) :
    passes test (token :: tokens) = true ↔
      ∃ own, terms? token.text.toList = some own ∧ FontTerms own ∧
        passes (fun others => test (own ++ others)) tokens = true := by
  rw [passes_cons]
  refine exists_congr fun own => ⟨?_, fun ⟨areTerms, _, passesRest⟩ => ⟨areTerms, passesRest⟩⟩
  rintro ⟨areTerms, passesRest⟩
  exact ⟨areTerms, fontTerms_of_passes rejects (isValue.tokenTerms areTerms) passesRest, passesRest⟩

/-- A family: a string or names. -/
inductive FamilyForm (font : FontTokens) : List Token → Prop where
  | string
      {token : Token} :
      font.isString token →
      FamilyForm font [token]
  | names
      {tokens : List Token} :
      tokens ≠ [] →
      (∀ token ∈ tokens, font.isName token) →
      FamilyForm font tokens

/-- Families with commas between them, one at least. -/
inductive FamiliesForm (font : FontTokens) : List Token → Prop where
  | last
      {family : List Token} :
      FamilyForm font family →
      FamiliesForm font family
  | cons
      {family rest : List Token}
      {comma : Token} :
      FamilyForm font family →
      comma.kind = .comma →
      FamiliesForm font rest →
      FamiliesForm font (family ++ comma :: rest)

/-- What may follow a family: nothing, or a comma and further families. -/
def isFurther : List Term → Bool
  | [] => true
  | .comma :: rest => isFamilies rest
  | _ => false

/-- The tokens that may follow a family. -/
inductive FurtherForm (font : FontTokens) : List Token → Prop where
  | nil :
      FurtherForm font []
  | cons
      {comma : Token}
      {rest : List Token} :
      comma.kind = .comma →
      FamiliesForm font rest →
      FurtherForm font (comma :: rest)

/-- The tokens that may follow a name of a family. -/
def FamilyRestForm (font : FontTokens) (tokens : List Token) : Prop :=
  ∃ names rest,
    tokens = names ++ rest ∧ (∀ token ∈ names, font.isName token) ∧ FurtherForm font rest

section

variable {font : FontTokens}

/-- Families are a first one and further ones. -/
theorem familiesForm_iff {tokens : List Token} :
    FamiliesForm font tokens ↔
      ∃ family rest, tokens = family ++ rest ∧ FamilyForm font family ∧ FurtherForm font rest := by
  constructor
  · rintro (form | ⟨form, isComma, others⟩)
    · exact ⟨tokens, [], by simp, form, .nil⟩
    · exact ⟨_, _, rfl, form, .cons isComma others⟩
  · rintro ⟨family, rest, rfl, form, _ | ⟨isComma, others⟩⟩
    · rw [List.append_nil]
      exact .last form
    · exact .cons form isComma others

theorem not_familiesForm_nil : ¬ FamiliesForm font [] := by
  rw [familiesForm_iff]
  rintro ⟨family, rest, isAll, form, _⟩
  obtain ⟨rfl, rfl⟩ := List.append_eq_nil_iff.mp isAll.symm
  cases form
  contradiction

/-- Families begin with a name or with a string. -/
theorem familiesForm_cons {token : Token} {tokens : List Token} :
    FamiliesForm font (token :: tokens) ↔
      font.isName token ∧ FamilyRestForm font tokens ∨
        font.isString token ∧ FurtherForm font tokens := by
  rw [familiesForm_iff]
  constructor
  · rintro ⟨family, rest, isAll, form, further⟩
    cases form with
    | string isString =>
        obtain ⟨rfl, rfl⟩ := List.cons.inj isAll
        exact .inr ⟨isString, further⟩
    | names notEmpty areNames =>
        obtain ⟨first, names, rfl⟩ := List.exists_cons_of_ne_nil notEmpty
        obtain ⟨rfl, rfl⟩ := List.cons.inj isAll
        obtain ⟨isName, areOthers⟩ := List.forall_mem_cons.mp areNames
        exact .inl ⟨isName, names, rest, rfl, areOthers, further⟩
  · rintro (⟨isName, names, rest, rfl, areNames, further⟩ | ⟨isString, further⟩)
    · exact ⟨token :: names, rest, rfl,
        .names (by simp) (List.forall_mem_cons.mpr ⟨isName, areNames⟩), further⟩
    · exact ⟨[token], tokens, rfl, .string isString, further⟩

/-- Behind a name of a family stand further names or a comma and further families. -/
theorem familyRestForm_cons {token : Token} {tokens : List Token} :
    FamilyRestForm font (token :: tokens) ↔
      font.isName token ∧ FamilyRestForm font tokens ∨
        token.kind = .comma ∧ FamiliesForm font tokens := by
  constructor
  · rintro ⟨names, rest, isAll, areNames, further⟩
    cases names with
    | nil =>
        obtain rfl : token :: tokens = rest := isAll
        cases further with
        | cons isComma others =>
            exact .inr ⟨isComma, others⟩
    | cons first names =>
        obtain ⟨rfl, rfl⟩ := List.cons.inj isAll
        obtain ⟨isName, areOthers⟩ := List.forall_mem_cons.mp areNames
        exact .inl ⟨isName, names, rest, rfl, areOthers, further⟩
  · rintro (⟨isName, names, rest, rfl, areNames, further⟩ | ⟨isComma, others⟩)
    · exact ⟨token :: names, rest, rfl, List.forall_mem_cons.mpr ⟨isName, areNames⟩, further⟩
    · exact ⟨[], token :: tokens, rfl, by simp, .cons isComma others⟩

end

/-- Behind a string of families stand further families. -/
theorem isFamilies_string (rest : List Term) : isFamilies (.string :: rest) = isFurther rest := by
  match rest with
  | [] =>
      simp [isFamilies, isFurther]
  | term :: _ =>
      cases term <;> simp [isFamilies, isFurther]

theorem rejectsForeign_isFamilies : RejectsForeign isFamilies := by
  intro term others isForeign
  cases term <;> simp_all [Term.isForeign, Term.isCall, isFamilies]

theorem rejectsForeign_isFamilyRest : RejectsForeign isFamilyRest := by
  intro term others isForeign
  cases term <;> simp_all [Term.isForeign, Term.isCall, isFamilyRest]

theorem rejectsForeign_isFurther : RejectsForeign isFurther := by
  intro term others isForeign
  cases term <;> simp_all [Term.isForeign, Term.isCall, isFurther]

/-- One step of families: a name or a string, and what may follow it. -/
theorem passes_isFamilies_cons
    {token : Token}
    (isValue : IsValue token)
    (tokens : List Token) :
    passes isFamilies (token :: tokens) = true ↔
      IsFamilyName token ∧ passes isFamilyRest tokens = true ∨
        IsFamilyString token ∧ passes isFurther tokens = true := by
  rw [passes_cons_iff rejectsForeign_isFamilies isValue, isFamilyName_iff isValue,
    isFamilyString_iff isValue]
  constructor
  · rintro ⟨own, areTerms, fontTerms, passesRest⟩
    cases fontTerms with
    | name word =>
        exact .inl ⟨⟨word, areTerms⟩, by simpa [isFamilies] using passesRest⟩
    | string =>
        exact .inr ⟨areTerms, by simpa [isFamilies_string] using passesRest⟩
    | _ =>
        simp [isFamilies, isFamilyRest, passes] at passesRest
  · rintro (⟨⟨word, areTerms⟩, passesRest⟩ | ⟨areTerms, passesRest⟩)
    · exact ⟨_, areTerms, .name word, by simpa [isFamilies] using passesRest⟩
    · exact ⟨_, areTerms, .string, by simpa [isFamilies_string] using passesRest⟩

/-- One step behind a name: a further name, or a comma and further families. -/
theorem passes_isFamilyRest_cons
    {token : Token}
    (isValue : IsValue token)
    (tokens : List Token) :
    passes isFamilyRest (token :: tokens) = true ↔
      IsFamilyName token ∧ passes isFamilyRest tokens = true ∨
        token.kind = .comma ∧ passes isFamilies tokens = true := by
  rw [passes_cons_iff rejectsForeign_isFamilyRest isValue, isFamilyName_iff isValue,
    kind_eq_iff_of_sign isValue (.inl ⟨rfl, rfl⟩)]
  constructor
  · rintro ⟨own, areTerms, fontTerms, passesRest⟩
    cases fontTerms with
    | name word =>
        exact .inl ⟨⟨word, areTerms⟩, by simpa [isFamilyRest] using passesRest⟩
    | comma =>
        exact .inr ⟨areTerms, by simpa [isFamilyRest] using passesRest⟩
    | _ =>
        simp [isFamilyRest, passes] at passesRest
  · rintro (⟨⟨word, areTerms⟩, passesRest⟩ | ⟨areTerms, passesRest⟩)
    · exact ⟨_, areTerms, .name word, by simpa [isFamilyRest] using passesRest⟩
    · exact ⟨_, areTerms, .comma, by simpa [isFamilyRest] using passesRest⟩

/-- Further families begin with a comma. -/
theorem passes_isFurther_cons
    {token : Token}
    (isValue : IsValue token)
    (tokens : List Token) :
    passes isFurther (token :: tokens) = true ↔
      token.kind = .comma ∧ passes isFamilies tokens = true := by
  rw [passes_cons_iff rejectsForeign_isFurther isValue,
    kind_eq_iff_of_sign isValue (.inl ⟨rfl, rfl⟩)]
  constructor
  · rintro ⟨own, areTerms, fontTerms, passesRest⟩
    cases fontTerms with
    | comma =>
        exact ⟨areTerms, by simpa [isFurther] using passesRest⟩
    | _ =>
        simp [isFurther, passes] at passesRest
  · rintro ⟨areTerms, passesRest⟩
    exact ⟨_, areTerms, .comma, by simpa [isFurther] using passesRest⟩

/-- The tokens of families, and those behind a name and behind a whole family. -/
theorem passes_families_iff
    {tokens : List Token}
    (areValues : ∀ token ∈ tokens, IsValue token) :
    (passes isFamilies tokens = true ↔ FamiliesForm .byTerms tokens) ∧
      (passes isFamilyRest tokens = true ↔ FamilyRestForm .byTerms tokens) ∧
      (passes isFurther tokens = true ↔ FurtherForm .byTerms tokens) := by
  induction tokens with
  | nil =>
      refine ⟨?_, ?_, ?_⟩
      · simp [passes_nil, isFamilies, not_familiesForm_nil]
      · exact iff_of_true (by simp [passes_nil, isFamilyRest]) ⟨[], [], rfl, by simp, .nil⟩
      · exact iff_of_true rfl .nil
  | cons token tokens inductionHypothesis =>
      obtain ⟨isValue, areOthers⟩ := List.forall_mem_cons.mp areValues
      obtain ⟨families, familyRest, further⟩ := inductionHypothesis areOthers
      refine ⟨?_, ?_, ?_⟩
      · rw [passes_isFamilies_cons isValue, familiesForm_cons, familyRest, further]
        rfl
      · rw [passes_isFamilyRest_cons isValue, familyRestForm_cons, familyRest, families]
        rfl
      · rw [passes_isFurther_cons isValue, families]
        constructor
        · rintro ⟨isComma, others⟩
          exact .cons isComma others
        · rintro (_ | ⟨isComma, others⟩)
          exact ⟨isComma, others⟩

/-- The height of lines behind the size of a font, which may be missing. -/
inductive HeightForm : List Token → Prop where
  | nil :
      HeightForm []
  | height
      {slash height : Token} :
      slash.kind = .slash →
      Shape.length.fits [height] = true →
      HeightForm [slash, height]

/-- The families of a font, which may be missing. -/
def OptionalFamiliesForm (font : FontTokens) (tokens : List Token) : Prop :=
  tokens = [] ∨ FamiliesForm font tokens

/-- A font: flags, a size with a possible line height, and families. -/
inductive FontForm (font : FontTokens) : List Token → Prop where
  | intro
      {flags height families : List Token}
      {size : Token} :
      (∀ token ∈ flags, IsFlag token) →
      font.isSize size →
      HeightForm height →
      OptionalFamiliesForm font families →
      FontForm font (flags ++ size :: (height ++ families))

/-- What may follow the slash behind a size: a length and families. -/
def isAfterSlash : List Term → Bool
  | .numeral height :: rest => height.isLength && isOptionalFamilies rest
  | _ => false

/-- What may follow a size with a line height: a slash, a length and families. -/
def isHeight : List Term → Bool
  | .slash :: rest => isAfterSlash rest
  | _ => false

/-- What may follow the size of a font. -/
def isAfterSize (terms : List Term) : Bool :=
  isOptionalFamilies terms || isHeight terms

/-- The tokens that may follow the size of a font. -/
inductive AfterSizeForm (font : FontTokens) : List Token → Prop where
  | intro
      {height families : List Token} :
      HeightForm height →
      OptionalFamiliesForm font families →
      AfterSizeForm font (height ++ families)

/-- A font that begins with a numeral begins with its size. -/
theorem isFont_numeral (size : NumeralUnit) (rest : List Term) :
    isFont (.numeral size :: rest) = (size.isLength && isAfterSize rest) := by
  match rest with
  | [] =>
      simp [isFont, isAfterSize, isHeight]
  | [term] =>
      cases term <;>
        simp [isFont, isAfterSize, isHeight, isAfterSlash, isOptionalFamilies, isFamilies]
  | first :: second :: _ =>
      cases first <;> cases second <;>
        simp [isFont, isAfterSize, isHeight, isAfterSlash, isOptionalFamilies, isFamilies,
          Bool.and_assoc]

theorem rejectsForeign_isFont : RejectsForeign isFont := by
  intro term others isForeign
  cases term <;> simp_all [Term.isForeign, Term.isCall, isFont]

theorem rejectsForeign_isHeight : RejectsForeign isHeight := by
  intro term others isForeign
  cases term <;> simp_all [Term.isForeign, Term.isCall, isHeight]

theorem rejectsForeign_isAfterSlash : RejectsForeign isAfterSlash := by
  intro term others isForeign
  cases term <;> simp_all [Term.isForeign, Term.isCall, isAfterSlash]

/-- One step of a font: a flag, or the size and what may follow it. -/
theorem passes_isFont_cons
    {token : Token}
    (isValue : IsValue token)
    (tokens : List Token) :
    passes isFont (token :: tokens) = true ↔
      IsFlag token ∧ passes isFont tokens = true ∨
        FontTokens.byTerms.isSize token ∧ passes isAfterSize tokens = true := by
  rw [passes_cons_iff rejectsForeign_isFont isValue, isFlag_iff isValue, isSize_iff isValue]
  constructor
  · rintro ⟨own, areTerms, fontTerms, passesRest⟩
    cases fontTerms with
    | name word =>
        simp only [List.cons_append, List.nil_append, isFont, passes_and, Bool.and_eq_true,
          decide_eq_true_eq] at passesRest
        exact .inl ⟨⟨word, areTerms, passesRest.1⟩, passesRest.2⟩
    | spliced word unit =>
        simp only [List.cons_append, List.nil_append, isFont, isFont_numeral, passes_and,
          Bool.and_eq_true, decide_eq_true_eq] at passesRest
        obtain ⟨isFlag, isLength, behind⟩ := passesRest
        exact .inr ⟨.inr ⟨word, unit, areTerms, isFlag, isLength⟩, behind⟩
    | numeral unit =>
        simp only [List.cons_append, List.nil_append, isFont_numeral, passes_and,
          Bool.and_eq_true] at passesRest
        exact .inr ⟨.inl ⟨unit, areTerms, passesRest.1⟩, passesRest.2⟩
    | _ =>
        simp [isFont, passes] at passesRest
  · rintro (⟨⟨word, areTerms, isFlag⟩, behind⟩ | ⟨⟨unit, areTerms, isLength⟩ | isFlagged, behind⟩)
    · exact ⟨_, areTerms, .name word, by simp [isFont, isFlag, behind]⟩
    · exact ⟨_, areTerms, .numeral unit, by simp [isFont_numeral, isLength, behind]⟩
    · obtain ⟨word, unit, areTerms, isFlag, isLength⟩ := isFlagged
      exact ⟨_, areTerms, .spliced word unit, by
        simp [isFont, isFlag, isFont_numeral, isLength, behind]⟩

/-- A font begins with a flag or with its size. -/
theorem fontForm_cons {font : FontTokens} {token : Token} {tokens : List Token} :
    FontForm font (token :: tokens) ↔
      IsFlag token ∧ FontForm font tokens ∨ font.isSize token ∧ AfterSizeForm font tokens := by
  constructor
  · intro form
    generalize isAll : token :: tokens = all at form
    cases form with
    | @intro flags height families size areFlags isSize heightForm familiesForm =>
        cases flags with
        | nil =>
            obtain ⟨rfl, rfl⟩ := List.cons.inj isAll
            exact .inr ⟨isSize, .intro heightForm familiesForm⟩
        | cons flag flags =>
            obtain ⟨rfl, rfl⟩ := List.cons.inj isAll
            obtain ⟨isFlag, areOthers⟩ := List.forall_mem_cons.mp areFlags
            exact .inl ⟨isFlag, .intro areOthers isSize heightForm familiesForm⟩
  · rintro (⟨isFlag, areFlags, isSize, heightForm, familiesForm⟩ |
      ⟨isSize, heightForm, familiesForm⟩)
    · exact .intro (List.forall_mem_cons.mpr ⟨isFlag, areFlags⟩) isSize heightForm familiesForm
    · have noFlags : ∀ flag ∈ ([] : List Token), IsFlag flag := by
        simp
      exact .intro noFlags isSize heightForm familiesForm

/-- The families behind a size may be left out. -/
theorem passes_isOptionalFamilies_iff
    {tokens : List Token}
    (areValues : ∀ token ∈ tokens, IsValue token) :
    passes isOptionalFamilies tokens = true ↔ OptionalFamiliesForm .byTerms tokens := by
  cases tokens with
  | nil =>
      exact iff_of_true rfl (.inl rfl)
  | cons token tokens =>
      have isValue : IsValue token := areValues token (by simp)
      rw [OptionalFamiliesForm, ← (passes_families_iff areValues).1, passes_cons, passes_cons]
      simp only [List.cons_ne_nil, false_or]
      refine exists_congr fun own => and_congr_right fun areTerms => ?_
      obtain ⟨term, rest, rfl⟩ :=
        List.exists_cons_of_ne_nil (isValue.tokenTerms areTerms).ne_nil
      simp [isOptionalFamilies]

/-- Behind the slash of a font stands a length. -/
theorem passes_isAfterSlash_cons
    {token : Token}
    (isValue : IsValue token)
    (tokens : List Token) :
    passes isAfterSlash (token :: tokens) = true ↔
      Shape.length.fits [token] = true ∧ passes isOptionalFamilies tokens = true := by
  rw [passes_cons_iff rejectsForeign_isAfterSlash isValue, fits_length_iff]
  constructor
  · rintro ⟨own, areTerms, fontTerms, passesRest⟩
    cases fontTerms with
    | numeral unit =>
        simp only [List.cons_append, List.nil_append, isAfterSlash, passes_and,
          Bool.and_eq_true] at passesRest
        exact ⟨⟨unit, areTerms, passesRest.1⟩, passesRest.2⟩
    | _ =>
        simp [isAfterSlash, passes] at passesRest
  · rintro ⟨⟨unit, areTerms, isLength⟩, behind⟩
    exact ⟨_, areTerms, .numeral unit, by simp [isAfterSlash, isLength, behind]⟩

/-- The height of a line begins with a slash. -/
theorem passes_isHeight_cons
    {token : Token}
    (isValue : IsValue token)
    (tokens : List Token) :
    passes isHeight (token :: tokens) = true ↔
      token.kind = .slash ∧ passes isAfterSlash tokens = true := by
  rw [passes_cons_iff rejectsForeign_isHeight isValue,
    kind_eq_iff_of_sign isValue (.inr ⟨rfl, rfl⟩)]
  constructor
  · rintro ⟨own, areTerms, fontTerms, passesRest⟩
    cases fontTerms with
    | slash =>
        exact ⟨areTerms, by simpa [isHeight] using passesRest⟩
    | _ =>
        simp [isHeight, passes] at passesRest
  · rintro ⟨areTerms, passesRest⟩
    exact ⟨_, areTerms, .slash, by simpa [isHeight] using passesRest⟩

/-- The height of a line is a slash and a length, with the families behind it. -/
theorem passes_isHeight_iff
    {tokens : List Token}
    (areValues : ∀ token ∈ tokens, IsValue token) :
    passes isHeight tokens = true ↔
      ∃ slash height families,
        tokens = slash :: height :: families ∧ slash.kind = .slash ∧
          Shape.length.fits [height] = true ∧ OptionalFamiliesForm .byTerms families := by
  match tokens with
  | [] =>
      simp [passes_nil, isHeight]
  | [slash] =>
      rw [passes_isHeight_cons (areValues slash (by simp))]
      simp [passes_nil, isAfterSlash]
  | slash :: height :: families =>
      obtain ⟨slashValue, areOthers⟩ := List.forall_mem_cons.mp areValues
      obtain ⟨heightValue, areFamilies⟩ := List.forall_mem_cons.mp areOthers
      rw [passes_isHeight_cons slashValue, passes_isAfterSlash_cons heightValue,
        passes_isOptionalFamilies_iff areFamilies]
      simp

/-- Behind the size of a font stand families, or a height and families. -/
theorem afterSizeForm_iff {font : FontTokens} {tokens : List Token} :
    AfterSizeForm font tokens ↔
      OptionalFamiliesForm font tokens ∨
        ∃ slash height families,
          tokens = slash :: height :: families ∧ slash.kind = .slash ∧
            Shape.length.fits [height] = true ∧ OptionalFamiliesForm font families := by
  constructor
  · rintro ⟨_ | ⟨isSlash, isLength⟩, familiesForm⟩
    · exact .inl familiesForm
    · exact .inr ⟨_, _, _, rfl, isSlash, isLength, familiesForm⟩
  · rintro (familiesForm | ⟨slash, height, families, rfl, isSlash, isLength, familiesForm⟩)
    · exact .intro .nil familiesForm
    · exact .intro (.height isSlash isLength) familiesForm

/-- The tokens behind the size of a font pass its test if they are of the form. -/
theorem passes_isAfterSize_iff
    {tokens : List Token}
    (areValues : ∀ token ∈ tokens, IsValue token) :
    passes isAfterSize tokens = true ↔ AfterSizeForm .byTerms tokens := by
  rw [afterSizeForm_iff, ← passes_isHeight_iff areValues, ← passes_isOptionalFamilies_iff areValues]
  cases areTerms : tokens.mapM fun token => terms? token.text.toList <;>
    simp [passes, areTerms, isAfterSize]

/-- The tokens of a font. -/
theorem passes_isFont_iff
    {tokens : List Token}
    (areValues : ∀ token ∈ tokens, IsValue token) :
    passes isFont tokens = true ↔ FontForm .byTerms tokens := by
  induction tokens with
  | nil =>
      refine iff_of_false (by simp [passes_nil, isFont]) ?_
      intro form
      generalize isAll : [] = all at form
      obtain ⟨_⟩ := form
      simp at isAll
  | cons token tokens inductionHypothesis =>
      obtain ⟨isValue, areOthers⟩ := List.forall_mem_cons.mp areValues
      rw [passes_isFont_cons isValue, fontForm_cons, inductionHypothesis areOthers,
        passes_isAfterSize_iff areOthers]

/-- The value of a list of families is of its form. -/
theorem fits_fontFamily_iff
    {tokens : List Token}
    (areValues : ∀ token ∈ tokens, IsValue token) :
    Shape.fontFamily.fits tokens = true ↔ FamiliesForm .byTerms tokens := by
  rw [Shape.fits, hasTerms_eq_passes areValues]
  exact (passes_families_iff areValues).1

/-- The value of a font is of its form. -/
theorem fits_font_iff
    {tokens : List Token}
    (areValues : ∀ token ∈ tokens, IsValue token) :
    Shape.font.fits tokens = true ↔ FontForm .byTerms tokens := by
  rw [Shape.fits, hasTerms_eq_passes areValues]
  exact passes_isFont_iff areValues

end Value

/--
Fonts and families are decided token by token, by the terms that the tokens are.
Families are strings and names with single commas between them, where a string
is a family if its mark is not inside, and an identifier is a name if it is in
ASCII. A font is flags, a size, a possible line height and possible families; the
size is a length, or an identifier that is a flag and a length.
-/
theorem fits_font_by_terms
    {source : String}
    {sheet : Sheet}
    {declaration : Declaration}
    (isRead : Sheet.ofSource source = .ok sheet)
    (isDeclaration : declaration ∈ sheet.declarations) :
    (Shape.fontFamily.fits declaration.values = true ↔
        Value.FamiliesForm .byTerms declaration.values) ∧
      (Shape.font.fits declaration.values = true ↔
        Value.FontForm .byTerms declaration.values) := by
  have areValues : ∀ value ∈ declaration.values, Value.IsValue value :=
    fun _ member => Value.valueText_of_mem isRead isDeclaration member
  exact ⟨Value.fits_fontFamily_iff areValues, Value.fits_font_iff areValues⟩

/-- A font with two flags, one of them in front of the size, a line height and two families. -/
theorem fits_font_flagged :
    let source := "a\x7bfont:ITALIC bold٣px/2em 'x\"',Arial Black\x7d"
    let values : List Token :=
      [⟨⟨"ITALIC", 7, 6, 1, 8⟩, .identifier⟩, ⟨⟨"bold٣px", 14, 7, 1, 15⟩, .identifier⟩,
        ⟨⟨"/", 21, 1, 1, 22⟩, .slash⟩, ⟨⟨"2em", 22, 3, 1, 23⟩, .number⟩,
        ⟨⟨"'x\"'", 26, 4, 1, 27⟩, .string⟩, ⟨⟨",", 30, 1, 1, 31⟩, .comma⟩,
        ⟨⟨"Arial", 31, 5, 1, 32⟩, .identifier⟩, ⟨⟨"Black", 37, 5, 1, 38⟩, .identifier⟩]
    let declaration : Declaration :=
      ⟨"font", values, 2, 40, some ⟨⟨"font", 2, 4, 1, 3⟩, .identifier⟩, false⟩
    let sheet : Sheet :=
      ⟨[⟨[[⟨some "a", none, [], [], none, [], none, 0, 1⟩]], [declaration], 0, 43⟩]⟩
    Sheet.ofSource source = .ok sheet ∧
      declaration ∈ sheet.declarations ∧
      Value.FontForm .byTerms values ∧
      ¬ Value.FamiliesForm .byTerms values := by
  intro source values declaration sheet
  have isRead : Sheet.ofSource source = .ok sheet := by
    decide +kernel
  have isDeclaration : declaration ∈ sheet.declarations := by
    simp [sheet, Sheet.declarations]
  obtain ⟨families, font⟩ := fits_font_by_terms isRead isDeclaration
  refine ⟨isRead, isDeclaration, font.mp ?_, fun form => ?_⟩
  · decide +kernel
  · exact absurd (families.mpr form) (by decide +kernel)

/--
The kinds of tokens do not decide: a string with an escaped mark inside is no
family, and a font may be one identifier.
-/
theorem not_forall_fits_font_by_kind :
    (¬ ∀ (source : String) (sheet : Sheet) (declaration : Declaration),
        Sheet.ofSource source = .ok sheet →
        declaration ∈ sheet.declarations →
        (Shape.fontFamily.fits declaration.values = true ↔
          Value.FamiliesForm .byKind declaration.values)) ∧
      ¬ ∀ (source : String) (sheet : Sheet) (declaration : Declaration),
        Sheet.ofSource source = .ok sheet →
        declaration ∈ sheet.declarations →
        (Shape.font.fits declaration.values = true ↔
          Value.FontForm .byKind declaration.values) := by
  let selector : Selector := ⟨some "a", none, [], [], none, [], none, 0, 1⟩
  constructor
  · intro byKind
    let value : Token := ⟨⟨"\"\\\"\"", 14, 4, 1, 15⟩, .string⟩
    let declaration : Declaration :=
      ⟨"font-family", [value], 2, 16, some ⟨⟨"font-family", 2, 11, 1, 3⟩, .identifier⟩, false⟩
    have isRead :
        Sheet.ofSource "a\x7bfont-family:\"\\\"\"\x7d" =
          .ok ⟨[⟨[[selector]], [declaration], 0, 19⟩]⟩ := by
      decide +kernel
    have families := byKind _ _ declaration isRead (by simp [Sheet.declarations])
    exact absurd (families.mpr (.last (.string rfl))) (by decide +kernel)
  · intro byKind
    let value : Token := ⟨⟨"bold٣px", 7, 7, 1, 8⟩, .identifier⟩
    let declaration : Declaration :=
      ⟨"font", [value], 2, 12, some ⟨⟨"font", 2, 4, 1, 3⟩, .identifier⟩, false⟩
    have isRead :
        Sheet.ofSource "a\x7bfont:bold٣px\x7d" = .ok ⟨[⟨[[selector]], [declaration], 0, 15⟩]⟩ := by
      decide +kernel
    have font := byKind _ _ declaration isRead (by simp [Sheet.declarations])
    rcases Value.fontForm_cons.mp (font.mp (by decide +kernel)) with ⟨isFlag, _⟩ | ⟨isSize, _⟩
    · exact absurd isFlag.2 (by decide +kernel)
    · have isLength : Shape.length.fits [value] = true := isSize
      exact absurd isLength (by decide +kernel)

end QtSheet
