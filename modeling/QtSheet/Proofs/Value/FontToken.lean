import QtSheet.Proofs.Lowercase
import QtSheet.Proofs.Value.Sequence

namespace QtSheet.Value

open Text

/-!
# Tokens of fonts

Which tokens are names, strings, flags and sizes of a font. Tokens are cut by
other rules than terms: identifiers may have letters and digits of any script,
and strings may have escaped marks inside. As terms, names are in ASCII and a
string ends with the next mark. So of the identifiers and strings only those are
one term that are the same by both rules, and a flag may go on with a size in
other digits in the same identifier.
-/

/-- A character of plain names that begins a name begins a plain name. -/
theorem isPlainStart_of_isNameStart
    {c : Char}
    (starts : isNameStart c = true)
    (isPlain : isPlainCharacter c = true) :
    isPlainStart c = true := by
  have notHyphen : c ≠ '-' := by
    rintro rfl
    exact absurd starts (by decide)
  have notDigit : c.isDigit = false := by
    apply Bool.eq_false_iff.mpr
    intro isDigit
    have isCovered : covers decimalDigitRanges c.toNat = true := by
      refine covers_of_encloses (by decide) (show covers [⟨0x30, 0x39⟩] c.toNat = true from ?_)
      simp only [Char.isDigit, UInt32.le_iff_toNat_le, Bool.and_eq_true, decide_eq_true_eq,
        ge_iff_le, Char.toNat_val] at isDigit
      simp only [covers]
      grind
    simp [isNameStart, isDecimalDigit, isCovered] at starts
  simpa [isPlainStart, isPlainCharacter, Char.isAlphanum, notDigit, notHyphen] using isPlain

/-- No term begins with a character that begins a name but no plain one. -/
theorem terms?_of_notPlain
    {c : Char}
    {rest : List Char}
    (areNames : ∀ d ∈ c :: rest, isNameCharacter d = true)
    (starts : isNameStart c = true)
    (notPlain : isPlainCharacter c = false) :
    terms? (c :: rest) = none := by
  apply Option.eq_none_iff_forall_ne_some.mpr
  intro terms areTerms
  have notLayout := isLayout_eq_false_of_isNameCharacter (areNames c (by simp))
  obtain ⟨term, after, others, isTerm, _, rfl⟩ := exists_cutTerm?_of_terms? notLayout areTerms
  rw [← List.append_nil rest] at isTerm
  cases nameTerm_of_cutTerm? areNames (by simp [EndsName]) isTerm with
  | call _ _ opens =>
      contradiction
  | url _ someTail =>
      contradiction
  | name someFront =>
      rw [List.takeWhile_cons_of_neg (by simp [notPlain])] at someFront
      contradiction
  | numeral isNumeral =>
      have isName : cutName? (c :: rest) ≠ none := by simp [cutName?, starts]
      rw [List.append_nil, cutNumeral?_of_cutName? isName] at isNumeral
      contradiction

/-- The plain name at the front of an identifier behind which there are terms. -/
theorem cutPlainName?_of_cutName?
    {text : List Char}
    (isName : cutName? text = some (text, []))
    (someFront : text.takeWhile isPlainCharacter ≠ [])
    (someTerms : terms? (text.dropWhile isPlainCharacter) ≠ none) :
    cutPlainName? text =
      some (text.takeWhile isPlainCharacter, text.dropWhile isPlainCharacter) := by
  have areNames := isNameCharacter_of_cutName? isName
  obtain ⟨hyphen, first, rest, isHyphen, starts, rfl, -⟩ := cutName?_eq_some_iff.mp isName
  rcases isHyphen with rfl | rfl
  · have isPlain : isPlainCharacter first = true := by
      refine Decidable.byContradiction fun notPlain => someFront ?_
      exact List.takeWhile_cons_of_neg notPlain
    have notHyphen : first ≠ '-' := by
      rintro rfl
      exact absurd starts (by decide)
    simp [cutPlainName?, cutHyphen, notHyphen, isPlainStart_of_isNameStart starts isPlain, isPlain]
  · have isPlain : isPlainCharacter '-' = true := by
      decide
    have firstIsPlain : isPlainCharacter first = true := by
      refine Decidable.byContradiction fun notPlain => someTerms ?_
      rw [List.singleton_append, List.dropWhile_cons_of_pos isPlain,
        List.dropWhile_cons_of_neg notPlain]
      exact terms?_of_notPlain (fun d member => areNames d (List.mem_cons_of_mem _ member))
        starts (by simpa using notPlain)
    simp [cutPlainName?, cutHyphen, isPlainStart_of_isNameStart starts firstIsPlain, isPlain,
      firstIsPlain]

/-- The terms of an identifier whose plain characters are followed by terms. -/
theorem terms?_identifier
    {text : List Char}
    {others : List Term}
    (isName : cutName? text = some (text, []))
    (someFront : text.takeWhile isPlainCharacter ≠ [])
    (areOthers : terms? (text.dropWhile isPlainCharacter) = some others) :
    terms? text =
      some (.name (lowercase (String.ofList (text.takeWhile isPlainCharacter))) :: others) := by
  have areNames := isNameCharacter_of_cutName? isName
  have someTerms : terms? (text.dropWhile isPlainCharacter) ≠ none := by simp [areOthers]
  have isPlainName := cutPlainName?_of_cutName? isName someFront someTerms
  have notStuck :
      ¬ ∃ c ∈ (text.dropWhile isPlainCharacter).head?, isStuck c = true := by
    rintro ⟨c, isFirst, stuck⟩
    obtain ⟨rest, isRest⟩ := List.head?_eq_some_iff.mp isFirst
    rw [isRest, terms?_of_isStuck stuck] at areOthers
    contradiction
  have noCall : cutCallTerm? text = none :=
    Option.eq_none_iff_forall_ne_some.mpr fun _ isCall => notStuck (isStuck_of_cutCallTerm? isCall)
  have noUrl : cutUrlTerm? text = none :=
    Option.eq_none_iff_forall_ne_some.mpr fun _ isUrl => notStuck (isStuck_of_cutUrlTerm? isUrl)
  cases text with
  | nil =>
      contradiction
  | cons c rest =>
      have isNameCharacter := areNames c (by simp)
      have isTerm :
          cutTerm? c rest =
            some (.name (lowercase (String.ofList ((c :: rest).takeWhile isPlainCharacter))),
              (c :: rest).dropWhile isPlainCharacter) := by
        rw [cutTerm?_of_notMem (notMem_marks_of_isNameCharacter isNameCharacter)]
        refine cutWordTerm?_eq_some_iff.mpr (.inr ⟨noCall, .inr ⟨noUrl, .inl ?_⟩⟩)
        rw [cutNameTerm?, isPlainName]
        rfl
      rw [terms?_of_cutTerm? (isLayout_eq_false_of_isNameCharacter isNameCharacter) isTerm,
        areOthers]
      rfl

/-- An identifier in ASCII. -/
def IsFamilyName (token : Token) : Prop :=
  token.kind = .identifier ∧ ∀ c ∈ token.text.toList, isPlainCharacter c = true

/-- A string that has its mark at both ends and nowhere else. -/
def IsFamilyString (token : Token) : Prop :=
  token.kind = .string ∧
    ∃ mark inside, token.text.toList = mark :: (inside ++ [mark]) ∧ mark ∉ inside

/-- An identifier that is the word of a flag in any letter case. -/
def IsFlag (token : Token) : Prop :=
  token.kind = .identifier ∧ lowercase token.text ∈ Keyword.fontFlags

/-- An identifier that is a flag and a length, which begins with a digit other than in ASCII. -/
def IsFlaggedSize (token : Token) : Prop :=
  token.kind = .identifier ∧
    lowercase (String.ofList (token.text.toList.takeWhile isPlainCharacter)) ∈ Keyword.fontFlags ∧
    (terms? (token.text.toList.dropWhile isPlainCharacter)).any length.isWhole = true

/-- Which tokens are the names, the strings and the sizes of fonts. -/
structure FontTokens where
  isName : Token → Prop
  isString : Token → Prop
  isSize : Token → Prop

/-- All identifiers are names, all strings are strings, and all lengths are sizes. -/
def FontTokens.byKind : FontTokens where
  isName token := token.kind = .identifier
  isString token := token.kind = .string
  isSize token := Shape.length.fits [token] = true

/-- The tokens that are names, strings and sizes as terms. -/
def FontTokens.byTerms : FontTokens where
  isName := IsFamilyName
  isString := IsFamilyString
  isSize token := Shape.length.fits [token] = true ∨ IsFlaggedSize token

theorem terms?_nil : terms? [] = some [] := by
  rw [terms?]

/-- A name is not empty. -/
theorem ne_nil_of_cutName?
    {text : List Char}
    (isName : cutName? text = some (text, [])) :
    text ≠ [] := by
  rintro rfl
  contradiction

/-- An identifier in ASCII is one name. -/
theorem terms?_of_isPlainCharacter
    {text : List Char}
    (isName : cutName? text = some (text, []))
    (arePlain : ∀ c ∈ text, isPlainCharacter c = true) :
    terms? text = some [.name (lowercase (String.ofList text))] := by
  have isFront : (text ++ []).takeWhile isPlainCharacter = text ++ [] :=
    List.takeWhile_append_of_pos arePlain
  have isEnd : (text ++ []).dropWhile isPlainCharacter = [] :=
    List.dropWhile_append_of_pos arePlain
  rw [List.append_nil] at isFront isEnd
  have areTerms :=
    terms?_identifier isName (isFront.symm ▸ ne_nil_of_cutName? isName) (isEnd.symm ▸ terms?_nil)
  rwa [isFront] at areTerms

/-- The kind of the tokens that begin with a term, if it is no call and no reference. -/
def Term.kind? : Term → Option Kind
  | .name _ => some .identifier
  | .numeral _ => some .number
  | .hexColor => some .color
  | .string => some .string
  | .comma => some .comma
  | .slash => some .slash
  | _ => none

/-- A token whose first term belongs to one kind of token only is of that kind. -/
theorem TokenTerms.kind_eq
    {kind own : Kind}
    {term : Term}
    {rest : List Term}
    (tokenTerms : TokenTerms kind (term :: rest))
    (isOwn : term.kind? = some own) :
    kind = own := by
  cases tokenTerms with
  | call _ isCall =>
      cases term <;> contradiction
  | url =>
      contradiction
  | _ =>
      exact Option.some.inj isOwn

/-- The terms of a token of a value are terms of its kind. -/
theorem IsValue.tokenTerms
    {token : Token}
    {terms : List Term}
    (isValue : IsValue token)
    (areTerms : terms? token.text.toList = some terms) :
    TokenTerms token.kind terms :=
  ValueText.tokenTerms isValue areTerms

/-- The text of an identifier is one name. -/
theorem IsValue.cutName?
    {token : Token}
    (isValue : IsValue token)
    (isIdentifier : token.kind = .identifier) :
    cutName? token.text.toList = some (token.text.toList, []) := by
  unfold IsValue at isValue
  rw [isIdentifier] at isValue
  generalize token.text.toList = text at isValue
  cases isValue with
  | identifier isName =>
      exact isName
  | call isKind =>
      simp at isKind

/-- The text of a string is a quote mark and a body that its own mark closes. -/
theorem IsValue.exists_string
    {token : Token}
    (isValue : IsValue token)
    (isString : token.kind = .string) :
    ∃ mark body,
      token.text.toList = mark :: body ∧
        mark ∈ quotes ∧
        cutString? mark body = some (body, []) := by
  unfold IsValue at isValue
  rw [isString] at isValue
  generalize token.text.toList = text at isValue
  cases isValue with
  | string isMark isBody =>
      exact ⟨_, _, rfl, isMark, isBody⟩
  | call isKind =>
      simp at isKind

/-- The names of families are the tokens with one name as their terms. -/
theorem isFamilyName_iff
    {token : Token}
    (isValue : IsValue token) :
    IsFamilyName token ↔ ∃ word, terms? token.text.toList = some [.name word] := by
  constructor
  · rintro ⟨isIdentifier, arePlain⟩
    exact ⟨_, terms?_of_isPlainCharacter (isValue.cutName? isIdentifier) arePlain⟩
  · rintro ⟨word, areTerms⟩
    have isIdentifier : token.kind = .identifier := (isValue.tokenTerms areTerms).kind_eq rfl
    rcases terms_of_identifier (isValue.cutName? isIdentifier) areTerms with
      ⟨arePlain, _⟩ | ⟨unit, isSpliced, _⟩
    · exact ⟨isIdentifier, arePlain⟩
    · simp at isSpliced

/-- The flags of a font are the tokens with one of the font's words as their terms. -/
theorem isFlag_iff
    {token : Token}
    (isValue : IsValue token) :
    IsFlag token ↔
      ∃ word, terms? token.text.toList = some [.name word] ∧ word ∈ Keyword.fontFlags := by
  constructor
  · rintro ⟨isIdentifier, isFlag⟩
    have areOwn :
        Keyword.fontFlags.all fun flag => flag.toList.all fun c => decide (c ∈ ownLetters) := by
      decide
    have isOwn := List.all_eq_true.mp areOwn _ isFlag
    have arePlain := isPlainCharacter_of_lowercase (by simpa using isOwn)
    refine ⟨_, terms?_of_isPlainCharacter (isValue.cutName? isIdentifier) arePlain, ?_⟩
    rwa [String.ofList_toList]
  · rintro ⟨word, areTerms, isFlag⟩
    obtain ⟨isIdentifier, arePlain⟩ := (isFamilyName_iff isValue).mpr ⟨word, areTerms⟩
    rw [terms?_of_isPlainCharacter (isValue.cutName? isIdentifier) arePlain,
      String.ofList_toList] at areTerms
    injection areTerms with areTerms
    injection areTerms with isWord
    injection isWord with isWord
    exact ⟨isIdentifier, isWord ▸ isFlag⟩

/-- The strings that name families are the tokens with one string as their terms. -/
theorem isFamilyString_iff
    {token : Token}
    (isValue : IsValue token) :
    IsFamilyString token ↔ terms? token.text.toList = some [.string] := by
  constructor
  · rintro ⟨isString, mark, inside, isText, notInside⟩
    obtain ⟨first, body, isFirst, isMark, isBody⟩ := isValue.exists_string isString
    obtain ⟨rfl, rfl⟩ := List.cons.inj (isFirst.symm.trans isText)
    rw [isFirst]
    exact terms?_of_cutString? isMark isBody (by simpa using notInside)
  · intro areTerms
    have isString : token.kind = .string := (isValue.tokenTerms areTerms).kind_eq rfl
    obtain ⟨mark, body, isText, isMark, isBody⟩ := isValue.exists_string isString
    rw [isText] at areTerms
    refine ⟨isString, mark, body.dropLast, ?_, (terms_of_string isMark isBody areTerms).1⟩
    rw [isText, List.dropLast_append_getLast? mark (getLast?_of_cutString? isBody)]

/-- Commas and slashes are told by their terms. -/
theorem kind_eq_iff_of_sign
    {token : Token}
    {kind : Kind}
    {sign : Term}
    (isValue : IsValue token)
    (isSign : kind = .comma ∧ sign = .comma ∨ kind = .slash ∧ sign = .slash) :
    token.kind = kind ↔ terms? token.text.toList = some [sign] := by
  constructor
  · intro isKind
    unfold IsValue at isValue
    rw [isKind] at isValue
    generalize token.text.toList = text at isValue
    rcases isSign with ⟨rfl, rfl⟩ | ⟨rfl, rfl⟩ <;> cases isValue with
    | call isCall =>
        simp at isCall
    | _ =>
        exact terms?_of_sign (by decide) rfl
  · intro areTerms
    refine (isValue.tokenTerms areTerms).kind_eq ?_
    rcases isSign with ⟨rfl, rfl⟩ | ⟨rfl, rfl⟩ <;> rfl

/-- The terms of a length are one numeral with a unit of length. -/
theorem isWhole_length_iff {terms : List Term} :
    length.isWhole terms = true ↔ ∃ unit, terms = [.numeral unit] ∧ unit.isLength = true := by
  constructor
  · intro isWhole
    have isTaken : afterLength? terms = some [] := of_decide_eq_true isWhole
    revert isTaken
    fun_cases afterLength? terms with
    | case1 unit rest isLength =>
        rintro ⟨⟩
        exact ⟨unit, rfl, isLength⟩
    | case2 | case3 =>
        rintro ⟨⟩
  · rintro ⟨unit, rfl, isLength⟩
    refine decide_eq_true (show afterLength? [.numeral unit] = some [] from ?_)
    simp [afterLength?, isLength]

/-- A text is a length if its terms are one numeral with a unit of length. -/
theorem any_isWhole_length_iff {text : List Char} :
    (terms? text).any length.isWhole = true ↔
      ∃ unit, terms? text = some [.numeral unit] ∧ unit.isLength = true := by
  cases terms? text <;> simp [isWhole_length_iff]

/-- A token is a length if its terms are one numeral with a unit of length. -/
theorem fits_length_iff {token : Token} :
    Shape.length.fits [token] = true ↔
      ∃ unit, terms? token.text.toList = some [.numeral unit] ∧ unit.isLength = true := by
  rw [← any_isWhole_length_iff, ← toList_joined_singleton]
  rfl

/-- A flag and a size are one token if its terms are the word and the numeral. -/
theorem isFlaggedSize_iff
    {token : Token}
    (isValue : IsValue token) :
    IsFlaggedSize token ↔
      ∃ word unit,
        terms? token.text.toList = some [.name word, .numeral unit] ∧
          word ∈ Keyword.fontFlags ∧ unit.isLength = true := by
  constructor
  · rintro ⟨isIdentifier, isFlag, isSize⟩
    obtain ⟨unit, isNumeral, isLength⟩ := any_isWhole_length_iff.mp isSize
    refine ⟨_, unit, terms?_identifier (isValue.cutName? isIdentifier) ?_ isNumeral, isFlag,
      isLength⟩
    intro isEmpty
    rw [isEmpty] at isFlag
    exact absurd isFlag (by decide)
  · rintro ⟨word, unit, areTerms, isFlag, isLength⟩
    have isIdentifier : token.kind = .identifier := (isValue.tokenTerms areTerms).kind_eq rfl
    rcases terms_of_identifier (isValue.cutName? isIdentifier) areTerms with
      ⟨_, isName⟩ | ⟨other, isSpliced, isNumeral⟩
    · simp at isName
    · simp only [List.cons.injEq, Term.name.injEq, Term.numeral.injEq, and_true] at isSpliced
      obtain ⟨rfl, rfl⟩ := isSpliced
      exact ⟨isIdentifier, isFlag, any_isWhole_length_iff.mpr ⟨unit, isNumeral, isLength⟩⟩

/-- The size of a font is a length, on its own or behind a flag in the same token. -/
theorem isSize_iff
    {token : Token}
    (isValue : IsValue token) :
    FontTokens.byTerms.isSize token ↔
      (∃ unit, terms? token.text.toList = some [.numeral unit] ∧ unit.isLength = true) ∨
        ∃ word unit,
          terms? token.text.toList = some [.name word, .numeral unit] ∧
            word ∈ Keyword.fontFlags ∧ unit.isLength = true :=
  or_congr fits_length_iff (isFlaggedSize_iff isValue)

end QtSheet.Value
