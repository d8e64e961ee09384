import Mathlib.Data.List.Forall2
import QtSheet.Proofs.Value.Cut

namespace QtSheet.Value

open Text

/-!
# What terms take

The characters that a term takes from the front of a text (`Extent`). Quotation
marks stand at the ends of strings and in references only, parentheses in calls,
references and where a call is closed, and spaces in strings and references only.
-/

/-- The quotation marks. -/
def quotes : List Char :=
  ['"', '\x27']

/-- The characters that stand in no word, numeral or sign but a closing parenthesis. -/
def seams : List Char :=
  ['(', ')', '"', '\x27', '\\', ' ']

/-- A text without seams. -/
def Seamless (text : List Char) : Prop :=
  ∀ c ∈ text, c ∉ seams

namespace Seamless

/-- Two texts without seams have none together. -/
theorem append
    {front back : List Char}
    (frontSeamless : Seamless front)
    (backSeamless : Seamless back) :
    Seamless (front ++ back) := by
  intro c member
  rcases List.mem_append.mp member with inFront | inBack
  · exact frontSeamless c inFront
  · exact backSeamless c inBack

/-- Characters of a class without seams make up a text without seams. -/
theorem of_class
    {inClass : Char → Bool}
    {text : List Char}
    (noSeam : seams.all (fun seam => !inClass seam) = true)
    (allIn : ∀ c ∈ text, inClass c = true) :
    Seamless text := by
  intro c member isSeam
  have notIn := List.all_eq_true.mp noSeam c isSeam
  simp [allIn c member] at notIn

end Seamless

/-- Whether a term is the name of a function with its opening parenthesis. -/
def Term.isCall : Term → Bool
  | .colorCall | .gradientCall | .paletteCall => true
  | _ => false

/-- Whether a term is a word, a numeral or a sign but a closing parenthesis. -/
def Term.isWord : Term → Bool
  | .hexColor | .name _ | .numeral _ | .comma | .slash | .colon => true
  | _ => false

/-- The body of a reference, with its closing parenthesis. -/
inductive Reference : List Char → Prop where
  | quoted
      {blanks inside behind : List Char}
      {mark : Char} :
      (∀ c ∈ blanks, isBlank c = true) →
      mark ∈ quotes →
      mark ∉ inside →
      (∀ c ∈ behind, isBlank c = true) →
      Reference (blanks ++ mark :: (inside ++ mark :: (behind ++ [')'])))
  | bare
      {inside : List Char} :
      (∀ c ∈ inside, c ∉ ')' :: quotes) →
      Reference (inside ++ [')'])

/-- The characters that a term takes from the front of a text. -/
inductive Extent : Term → List Char → Prop where
  | close :
      Extent .close [')']
  | word
      {term : Term}
      {own : List Char} :
      term.isWord = true →
      own ≠ [] →
      Seamless own →
      Extent term own
  | call
      {term : Term}
      {name : List Char} :
      term.isCall = true →
      Seamless name →
      Extent term (name ++ ['('])
  | string
      {mark : Char}
      {inside : List Char} :
      mark ∈ quotes →
      mark ∉ inside →
      Extent .string (mark :: (inside ++ [mark]))
  | url
      {name body : List Char} :
      Seamless name →
      Reference body →
      Extent .url (name ++ '(' :: body)

/-- Words have no seams. -/
theorem Extent.seamless
    {term : Term}
    {own : List Char}
    (extent : Extent term own)
    (isWord : term.isWord = true) :
    Seamless own := by
  cases extent with
  | word _ _ seamless =>
      exact seamless
  | call isCall =>
      cases term <;> contradiction
  | _ =>
      contradiction

/-- The characters that a word takes stand for its letters. -/
theorem exists_own_of_afterWord?
    {word text rest : List Char}
    (found : afterWord? word text = some rest) :
    ∃ own,
      own ++ rest = text ∧
        List.Forall₂ (fun letter c => isLetter letter c = true) word own := by
  fun_induction afterWord? word text with
  | case1 text =>
      obtain rfl := Option.some.inj found
      exact ⟨[], rfl, .nil⟩
  | case2 =>
      contradiction
  | case3 letter word c text stands inductionHypothesis =>
      obtain ⟨own, rfl, stand⟩ := inductionHypothesis found
      exact ⟨c :: own, rfl, .cons stands stand⟩
  | case4 =>
      contradiction

/-- What stands for small letters has no seams. -/
theorem seamless_of_letters
    {letters own : List Char}
    (areSmall : letters.all Char.isLower = true)
    (stand : List.Forall₂ (fun letter c => isLetter letter c = true) letters own) :
    Seamless own := by
  have areLetters : ∀ c ∈ own, (c.isAlpha || isStray c) = true := by
    induction stand with
    | nil =>
        simp
    | @cons letter c letters own stands _ inductionHypothesis =>
        simp only [List.all_cons, Bool.and_eq_true] at areSmall
        refine List.forall_mem_cons.mpr ⟨?_, inductionHypothesis areSmall.2⟩
        exact (Bool.or_eq_true _ _).mpr (isAlpha_or_isStray_of_isLetter areSmall.1 stands)
  have noSeam : seams.all (fun seam => !(seam.isAlpha || isStray seam)) = true := by decide
  exact .of_class noSeam areLetters

/-- The name of a function and its parenthesis take a name and a parenthesis. -/
theorem exists_name_of_afterWord?
    {word text rest : List Char}
    (spelled : word = word.dropLast ++ ['('] ∧ word.dropLast.all Char.isLower = true)
    (found : afterWord? word text = some rest) :
    ∃ name, name ++ '(' :: rest = text ∧ Seamless name := by
  rw [spelled.1, afterWord?_append] at found
  obtain ⟨middle, isName, opens⟩ := Option.bind_eq_some_iff.mp found
  obtain ⟨name, rfl, areLetters⟩ := exists_own_of_afterWord? isName
  refine ⟨name, ?_, seamless_of_letters spelled.2 areLetters⟩
  cases middle with
  | nil =>
      contradiction
  | cons c inside =>
      simp only [afterWord?, Option.ite_none_right_eq_some, Option.some.injEq] at opens
      obtain ⟨isParenthesis, rfl⟩ := opens
      rw [eq_of_isLetter (by decide) isParenthesis]

/-- A function of some that are spelled in small letters takes a name and a parenthesis. -/
theorem exists_name_of_afterAnyWord?
    {words : List String}
    (spelled :
      ∀ word ∈ words,
        word.toList = word.toList.dropLast ++ ['('] ∧
          word.toList.dropLast.all Char.isLower = true)
    {text rest : List Char}
    (found : afterAnyWord? words text = some rest) :
    ∃ name, name ++ '(' :: rest = text ∧ Seamless name := by
  obtain ⟨word, member, isFound⟩ := List.exists_of_findSome?_eq_some found
  exact exists_name_of_afterWord? (spelled word member) isFound

/-- A call takes a name without seams and a parenthesis. -/
theorem exists_name_of_cutCallTerm?
    {text rest : List Char}
    {term : Term}
    (found : cutCallTerm? text = some (term, rest)) :
    term.isCall = true ∧ ∃ name, name ++ '(' :: rest = text ∧ Seamless name := by
  rcases cutCallTerm?_eq_some_iff.mp found with
    ⟨rfl, isColor⟩ | ⟨rfl, isGradient⟩ | ⟨rfl, isPalette⟩
  · exact ⟨rfl, exists_name_of_afterAnyWord? (by decide) isColor⟩
  · exact ⟨rfl, exists_name_of_afterAnyWord? (by decide) isGradient⟩
  · exact ⟨rfl, exists_name_of_afterAnyWord? (by decide) isPalette⟩

/-- A quoted text ends with its first mark. -/
theorem exists_inside_of_afterQuoted?
    {mark : Char}
    {text rest : List Char}
    (found : afterQuoted? mark text = some rest) :
    ∃ inside, inside ++ mark :: rest = text ∧ mark ∉ inside := by
  revert found
  fun_cases afterQuoted? mark text with
  | case1 =>
      rintro ⟨⟩
  | case2 c after isDropped =>
      rintro ⟨⟩
      have isMark := List.head?_dropWhile_not (fun c => c != mark) text
      rw [isDropped] at isMark
      obtain rfl : c = mark := by simpa using isMark
      refine ⟨text.takeWhile fun other => other != c, ?_, ?_⟩
      · rw [← isDropped, List.takeWhile_append_dropWhile]
      · intro member
        simpa using List.all_eq_true.mp List.all_takeWhile c member

/-- What is closed begins with a parenthesis. -/
theorem eq_of_afterClose?
    {text rest : List Char}
    (found : afterClose? text = some rest) :
    text = ')' :: rest := by
  unfold afterClose? at found
  split at found
  · rw [Option.some.inj found]
  · contradiction

/-- The characters of a class at the front of a text, and the rest. -/
theorem exists_front_of_dropWhile
    {inClass : Char → Bool}
    {text rest : List Char}
    (isDropped : text.dropWhile inClass = rest) :
    ∃ front, front ++ rest = text ∧ ∀ c ∈ front, inClass c = true := by
  refine ⟨text.takeWhile inClass, ?_, List.all_eq_true.mp List.all_takeWhile⟩
  rw [← isDropped, List.takeWhile_append_dropWhile]

/-- No blank closes a reference or opens a quoted text. -/
theorem notMem_of_isBlank
    {c : Char}
    (blank : isBlank c = true) :
    c ∉ ')' :: quotes := by
  have noBlank : (')' :: quotes).all (fun mark => !isBlank mark) = true := by decide
  intro isMark
  have notBlank := List.all_eq_true.mp noBlank c isMark
  simp [blank] at notBlank

/-- The content of a reference ends with its parenthesis. -/
theorem exists_body_of_afterReference?
    {text rest : List Char}
    (found : afterReference? text = some rest) :
    ∃ body, body ++ rest = text ∧ Reference body := by
  revert found
  fun_cases afterReference? text with
  | case1 =>
      rintro ⟨⟩
  | case2 mark inside isDropped isQuote =>
      intro found
      obtain ⟨blanks, rfl, areBlank⟩ := exists_front_of_dropWhile isDropped
      obtain ⟨behind, isQuoted, isClosed⟩ := Option.bind_eq_some_iff.mp found
      obtain ⟨quoted, rfl, noMark⟩ := exists_inside_of_afterQuoted? isQuoted
      obtain ⟨others, rfl, areOthers⟩ := exists_front_of_dropWhile (eq_of_afterClose? isClosed)
      refine ⟨_, ?_, .quoted areBlank ?_ noMark areOthers⟩
      · simp
      · simpa [quotes] using isQuote
  | case3 c inside isDropped noQuote =>
      intro found
      obtain ⟨blanks, rfl, areBlank⟩ := exists_front_of_dropWhile isDropped
      obtain ⟨bare, isBare, areBare⟩ := exists_front_of_dropWhile (eq_of_afterClose? found)
      refine ⟨blanks ++ bare ++ [')'], ?_, .bare ?_⟩
      · simp [← isBare]
      · intro other member
        rcases List.mem_append.mp member with inBlanks | inBare
        · exact notMem_of_isBlank (areBlank other inBlanks)
        · simpa [quotes, and_assoc] using areBare other inBare

/-- A reference takes what a reference may take. -/
theorem exists_own_of_cutUrlTerm?
    {text rest : List Char}
    {term : Term}
    (found : cutUrlTerm? text = some (term, rest)) :
    ∃ own, own ++ rest = text ∧ Extent term own := by
  obtain ⟨after, isUrl, same⟩ := Option.map_eq_some_iff.mp found
  obtain ⟨rfl, rfl⟩ := Prod.mk.inj same
  obtain ⟨behind, isName, isReference⟩ := Option.bind_eq_some_iff.mp isUrl
  obtain ⟨name, rfl, nameSeamless⟩ := exists_name_of_afterWord? (by decide) isName
  obtain ⟨body, rfl, reference⟩ := exists_body_of_afterReference? isReference
  exact ⟨name ++ '(' :: body, by simp, .url nameSeamless reference⟩

/-- A name takes what a name may take. -/
theorem exists_own_of_cutNameTerm?
    {text rest : List Char}
    {term : Term}
    (found : cutNameTerm? text = some (term, rest)) :
    ∃ own, own ++ rest = text ∧ Extent term own := by
  have shorter := length_of_cutNameTerm? found
  obtain ⟨own, isText, isName, isRest⟩ := eq_name_of_cutNameTerm? found
  obtain rfl : term = .name _ := isName
  refine ⟨own, isText, .word rfl ?_ ?_⟩
  · rintro rfl
    rw [← isText] at shorter
    exact Nat.lt_irrefl _ shorter
  · have isTaken : own = text.takeWhile isPlainCharacter := by
      have whole : text.takeWhile isPlainCharacter ++ rest = text := by
        rw [show rest = text.dropWhile isPlainCharacter from isRest]
        exact List.takeWhile_append_dropWhile
      exact List.append_cancel_right (isText.trans whole.symm)
    rw [isTaken]
    exact .of_class (by decide) (List.all_eq_true.mp List.all_takeWhile)

/-- A number without its unit has no seams. -/
theorem seamless_of_cutNumeral?
    {text : List Char}
    {cut : Cut}
    (found : cutNumeral? text = some cut) :
    Seamless cut.1 := by
  have digits : ∀ text, Seamless (cutWhile isDecimalDigit text).1 :=
    fun _ => .of_class (by decide) (List.all_eq_true.mp List.all_takeWhile)
  have sign : Seamless (cutSign text).1 := by
    unfold cutSign
    split <;> simp [Seamless, seams]
  obtain ⟨magnitude, isMagnitude, rfl⟩ := Option.map_eq_some_iff.mp found
  refine sign.append ?_
  unfold cutMagnitude? at isMagnitude
  dsimp only at isMagnitude
  split at isMagnitude
  · obtain rfl := Option.some.inj isMagnitude
    refine (digits _).append ?_
    unfold cutFraction
    split
    · have point : Seamless ['.'] := by simp [Seamless, seams]
      exact point.append (digits _)
    · simp [Seamless]
  · contradiction

/-- The unit of a numeral has no seams. -/
theorem exists_own_of_cutNumeralUnit?
    {text rest : List Char}
    {unit : NumeralUnit}
    (found : cutNumeralUnit? text = some (unit, rest)) :
    ∃ own, own ++ rest = text ∧ Seamless own := by
  revert found
  fun_cases cutNumeralUnit? text with
  | case1 =>
      rintro ⟨⟩
      exact ⟨[], rfl, by simp [Seamless]⟩
  | case2 someUnit after isPercent =>
      rintro ⟨⟩
      rw [Pattern.eq_of_afterPercent isPercent]
      exact ⟨['%'], rfl, by simp [Seamless, seams]⟩
  | case3 =>
      rintro ⟨⟩
  | case4 someUnit after isLength =>
      rintro ⟨⟩
      obtain ⟨word, member, isWord⟩ := List.exists_of_findSome?_eq_some isLength
      obtain ⟨own, isText, areLetters⟩ := exists_own_of_afterWord? isWord
      have areSmall : ∀ word ∈ lengthUnits, word.toList.all Char.isLower = true := by decide
      exact ⟨own, isText, seamless_of_letters (areSmall word member) areLetters⟩
  | case5 =>
      rintro ⟨⟩
  | case6 =>
      rintro ⟨⟩

/-- A numeral takes what a numeral may take. -/
theorem exists_own_of_cutNumeralTerm?
    {text rest : List Char}
    {term : Term}
    (found : cutNumeralTerm? text = some (term, rest)) :
    ∃ own, own ++ rest = text ∧ Extent term own := by
  obtain ⟨numeral, isNumeral, isCut⟩ := Option.bind_eq_some_iff.mp found
  obtain ⟨⟨unit, after⟩, isUnit, same⟩ := Option.map_eq_some_iff.mp isCut
  obtain ⟨rfl, rfl⟩ := Prod.mk.inj same
  obtain ⟨whole, nonempty⟩ := whole_of_cutNumeral? isNumeral
  obtain ⟨own, isOwn, ownSeamless⟩ := exists_own_of_cutNumeralUnit? isUnit
  have isSeamless := (seamless_of_cutNumeral? isNumeral).append ownSeamless
  refine ⟨numeral.1 ++ own, ?_, .word rfl ?_ isSeamless⟩
  · rw [List.append_assoc, isOwn]
    exact whole
  · simp [nonempty]

/-- A word takes what a word may take. -/
theorem exists_own_of_cutWordTerm?
    {text rest : List Char}
    {term : Term}
    (found : cutWordTerm? text = some (term, rest)) :
    ∃ own, own ++ rest = text ∧ Extent term own := by
  simp only [cutWordTerm?, Option.orElse_eq_orElse, Option.orElse_eq_or,
    Option.or_eq_some_iff] at found
  rcases found with isCall | ⟨_, isUrl | ⟨_, isName | ⟨_, isNumeral⟩⟩⟩
  · obtain ⟨isCallTerm, name, rfl, nameSeamless⟩ := exists_name_of_cutCallTerm? isCall
    exact ⟨name ++ ['('], by simp, .call isCallTerm nameSeamless⟩
  · exact exists_own_of_cutUrlTerm? isUrl
  · exact exists_own_of_cutNameTerm? isName
  · exact exists_own_of_cutNumeralTerm? isNumeral

/-- A sign is a term by itself. -/
theorem extent_of_sign?
    {c : Char}
    {term : Term}
    (isSign : sign? c = some term) :
    Extent term [c] := by
  revert isSign
  fun_cases sign? c with
  | case1 | case2 | case3 =>
      rintro ⟨⟩
      exact .word rfl (by simp) (by simp [Seamless, seams])
  | case4 =>
      rintro ⟨⟩
      exact .close
  | case5 =>
      rintro ⟨⟩

/-- A term takes characters that it may take. -/
theorem exists_own_of_cutTerm?
    {c : Char}
    {rest after : List Char}
    {term : Term}
    (found : cutTerm? c rest = some (term, after)) :
    ∃ own, own ++ after = c :: rest ∧ Extent term own := by
  revert found
  fun_cases cutTerm? c rest with
  | case1 sign isSign =>
      rintro ⟨⟩
      exact ⟨[c], rfl, extent_of_sign? isSign⟩
  | case2 noSign isHash =>
      intro found
      rw [cutHexTerm?, Option.ite_none_right_eq_some] at found
      obtain ⟨rfl, rfl⟩ := Prod.mk.inj (Option.some.inj found.2)
      subst isHash
      refine ⟨'#' :: (cutWhile isHexDigit rest).1, ?_, .word rfl (by simp) ?_⟩
      · exact congrArg (List.cons '#') (whole_cutWhile isHexDigit rest)
      · have hash : Seamless ['#'] := by simp [Seamless, seams]
        exact hash.append (.of_class (by decide) (List.all_eq_true.mp List.all_takeWhile))
  | case3 noSign notHash isQuote =>
      intro found
      obtain ⟨behind, isQuoted, same⟩ := Option.map_eq_some_iff.mp found
      obtain ⟨rfl, rfl⟩ := Prod.mk.inj same
      obtain ⟨inside, rfl, noMark⟩ := exists_inside_of_afterQuoted? isQuoted
      refine ⟨c :: (inside ++ [c]), by simp, .string ?_ noMark⟩
      simpa [quotes] using isQuote
  | case4 =>
      exact exists_own_of_cutWordTerm?

end QtSheet.Value
