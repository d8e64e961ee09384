import QtSheet.Proofs.Value.Token

namespace QtSheet.Value

open Text

/-!
# The terms of a token

What terms there can be in the text of one token (`TokenTerms`). All tokens but
calls have one term, with one exception: a name of ASCII characters that goes on
with a number in other digits is one identifier and two terms. The terms of a
call begin with its name, and the parenthesis of the call is closed by the last
of them if there are neither strings nor references inside.
-/

/--
The terms behind the parenthesis that closes a call, with a number of
parentheses open besides. There are none behind a string or a reference.
-/
def afterCall? : Nat → List Term → Option (List Term)
  | _, [] => none
  | nested, term :: rest =>
      if term.isCall then
        afterCall? (nested + 1) rest
      else if term.isWord then
        afterCall? nested rest
      else if term = .close then
        if nested = 0 then some rest else afterCall? (nested - 1) rest
      else
        none

/-- What is taken in front of the rest of a call leaves the rest to be taken. -/
theorem eq_of_map_push
    {cut? : Option Cut}
    {c : Char}
    {rest : List Char}
    (found : cut?.map (Cut.push c) = some (c :: rest, [])) :
    cut? = some (rest, []) := by
  obtain ⟨⟨taken, left⟩, rfl, same⟩ := Option.map_eq_some_iff.mp found
  simp only [Cut.push, Prod.mk.injEq, List.cons.injEq, true_and] at same
  rw [same.1, same.2]

/-- A character that a call does not count is passed by. -/
theorem cutCall?_cons
    {nested : Nat}
    {c : Char}
    {rest : List Char}
    (notCounted : c ∉ '(' :: ')' :: quotes)
    (isCall : cutCall? nested none (c :: rest) = some (c :: rest, [])) :
    cutCall? nested none rest = some (rest, []) := by
  simp only [quotes, List.mem_cons, List.not_mem_nil, or_false, not_or] at notCounted
  refine eq_of_map_push (c := c) (isCall ▸ ?_)
  simp [cutCall?, notCounted]

/-- A call goes on behind a text without seams. -/
theorem cutCall?_append
    {nested : Nat}
    {own rest : List Char}
    (seamless : Seamless own)
    (isCall : cutCall? nested none (own ++ rest) = some (own ++ rest, [])) :
    cutCall? nested none rest = some (rest, []) := by
  have areSeams : ∀ c ∈ '(' :: ')' :: quotes, c ∈ seams := by simp [quotes, seams]
  induction own with
  | nil =>
      exact isCall
  | cons c own inductionHypothesis =>
      obtain ⟨notSeam, others⟩ := List.forall_mem_cons.mp seamless
      exact inductionHypothesis others
        (cutCall?_cons (fun counted => notSeam (areSeams c counted)) isCall)

/-- A parenthesis that opens is closed before the call is. -/
theorem cutCall?_open
    {nested : Nat}
    {rest : List Char}
    (isCall : cutCall? nested none ('(' :: rest) = some ('(' :: rest, [])) :
    cutCall? (nested + 1) none rest = some (rest, []) :=
  eq_of_map_push (by simpa [cutCall?] using isCall)

/-- A parenthesis that closes leaves one less to close. -/
theorem cutCall?_close
    {nested : Nat}
    {rest : List Char}
    (isCall : cutCall? (nested + 1) none (')' :: rest) = some (')' :: rest, [])) :
    cutCall? nested none rest = some (rest, []) :=
  eq_of_map_push (by simpa [cutCall?] using isCall)

/-- The terms inside of a call close it with the last of them, or not at all. -/
theorem afterCall?_append
    {nested : Nat}
    {body : List Char}
    {terms : List Term}
    (isCall : cutCall? nested none body = some (body, []))
    (areTerms : terms? body = some terms)
    (behind : List Term) :
    afterCall? nested (terms ++ behind) = some behind ∨
      afterCall? nested (terms ++ behind) = none := by
  fun_induction terms? body generalizing nested terms with
  | case1 =>
      simp [cutCall?] at isCall
  | case2 c rest layout inductionHypothesis =>
      refine inductionHypothesis (cutCall?_cons ?_ isCall) areTerms
      simp only [isLayout, Bool.or_eq_true, beq_iff_eq] at layout
      rcases layout with (((rfl | rfl) | rfl) | rfl) | rfl <;> decide
  | case3 =>
      contradiction
  | case4 c rest notLayout term after isTerm inductionHypothesis =>
      obtain ⟨others, areOthers, rfl⟩ := Option.map_eq_some_iff.mp areTerms
      obtain ⟨own, isText, extent⟩ := exists_own_of_cutTerm? isTerm
      rw [← isText] at isCall
      rw [List.cons_append, afterCall?]
      cases extent with
      | close =>
          rw [if_neg (by decide), if_neg (by decide), if_pos rfl]
          cases nested with
          | zero =>
              obtain rfl : after = [] := by
                simpa [cutCall?] using isCall
              obtain rfl : [] = others := by
                simpa [terms?] using areOthers
              exact .inl rfl
          | succ nested =>
              exact inductionHypothesis (cutCall?_close isCall) areOthers
      | word isWord _ seamless =>
          have notCall : term.isCall = false := by
            cases term <;> first | rfl | contradiction
          rw [if_neg (by simp [notCall]), if_pos isWord]
          exact inductionHypothesis (cutCall?_append seamless isCall) areOthers
      | call isCallTerm seamless =>
          rw [if_pos isCallTerm]
          rw [List.append_assoc] at isCall
          exact inductionHypothesis (cutCall?_open (cutCall?_append seamless isCall)) areOthers
      | string =>
          exact .inr rfl
      | url =>
          exact .inr rfl

/-- Name characters are no layout. -/
theorem isLayout_eq_false_of_isNameCharacter
    {c : Char}
    (isName : isNameCharacter c = true) :
    isLayout c = false := by
  apply Bool.eq_false_iff.mpr
  intro layout
  simp only [isLayout, Bool.or_eq_true, beq_iff_eq] at layout
  rcases layout with (((rfl | rfl) | rfl) | rfl) | rfl <;> exact absurd isName (by decide)

/-- Name characters are no marks. -/
theorem notMem_marks_of_isNameCharacter
    {c : Char}
    (isName : isNameCharacter c = true) :
    c ∉ marks := by
  have noName : marks.all (fun mark => !isNameCharacter mark) = true := by decide
  intro isMark
  have notName := List.all_eq_true.mp noName c isMark
  simp [isName] at notName

/-- A numeral does not go on with characters of names. -/
theorem endsNumeral_of_cutNumeralTerm?
    {text after : List Char}
    {term : Term}
    (found : cutNumeralTerm? text = some (term, after)) :
    endsNumeral after = true := by
  obtain ⟨numeral, _, isCut⟩ := Option.bind_eq_some_iff.mp found
  obtain ⟨⟨unit, rest⟩, isUnit, same⟩ := Option.map_eq_some_iff.mp isCut
  obtain ⟨_, rfl⟩ := Prod.mk.inj same
  revert isUnit
  fun_cases cutNumeralUnit? numeral.2 with
  | case1 ends =>
      rintro ⟨⟩
      exact ends
  | case2 someUnit after isPercent ends =>
      rintro ⟨⟩
      exact ends
  | case3 =>
      rintro ⟨⟩
  | case4 someUnit after isLength notPercent ends =>
      rintro ⟨⟩
      exact ends
  | case5 =>
      rintro ⟨⟩
  | case6 =>
      rintro ⟨⟩

/-- What stands behind a name: nothing, or the parenthesis of a call. -/
def EndsName (tail : List Char) : Prop :=
  ∀ c ∈ tail.head?, c = '('

/-- The first term of a name, and what it leaves. -/
inductive NameTerm (text tail : List Char) : Term → List Char → Prop where
  | call
      {term : Term}
      {after : List Char} :
      (∀ c ∈ text.head?, c.isAlpha = true) →
      term.isCall = true →
      tail = '(' :: after →
      NameTerm text tail term after
  | url
      {after : List Char} :
      (∀ c ∈ text.head?, c.isAlpha = true) →
      tail ≠ [] →
      NameTerm text tail .url after
  | name :
      text.takeWhile isPlainCharacter ≠ [] →
      NameTerm text tail (.name (lowercase (String.ofList (text.takeWhile isPlainCharacter))))
        (text.dropWhile isPlainCharacter ++ tail)
  | numeral
      {unit : NumeralUnit} :
      cutNumeral? (text ++ tail) ≠ none →
      NameTerm text tail (.numeral unit) tail

/-- The call at the front of a name has the whole name. -/
theorem eq_of_name_append
    {text tail name rest : List Char}
    (seamless : Seamless text)
    (nameSeamless : Seamless name)
    (ends : EndsName tail)
    (whole : name ++ '(' :: rest = text ++ tail) :
    tail = '(' :: rest := by
  obtain ⟨further, rfl, isTail⟩ :=
    exists_of_append_eq whole.symm fun member => seamless '(' member (by decide)
  cases further with
  | nil =>
      exact isTail
  | cons first others =>
      rw [ends first (by simp [isTail])] at nameSeamless
      exact absurd (by decide) (nameSeamless '(' (by simp))

/-- The term at the front of name characters is one of four. -/
theorem nameTerm_of_cutTerm?
    {c : Char}
    {rest tail after : List Char}
    {term : Term}
    (areNames : ∀ d ∈ c :: rest, isNameCharacter d = true)
    (ends : EndsName tail)
    (found : cutTerm? c (rest ++ tail) = some (term, after)) :
    NameTerm (c :: rest) tail term after := by
  have seamless := seamless_of_names areNames
  rw [cutTerm?_of_notMem (notMem_marks_of_isNameCharacter (areNames c (by simp))),
    ← List.cons_append] at found
  rcases cutWordTerm?_eq_some_iff.mp found with
    isCall | ⟨_, isUrl | ⟨_, isName | ⟨_, isNumeral⟩⟩⟩
  · obtain ⟨isCallTerm, name, whole, nameSeamless⟩ := exists_name_of_cutCallTerm? isCall
    refine .call ?_ isCallTerm (eq_of_name_append seamless nameSeamless ends whole)
    simpa using isAlpha_of_cutCallTerm? isCall
  · obtain rfl : term = .url := eq_url_of_cutUrlTerm? isUrl
    refine .url (by simpa using isAlpha_of_cutUrlTerm? isUrl) ?_
    rintro rfl
    obtain ⟨_, isReference, _⟩ := Option.map_eq_some_iff.mp isUrl
    obtain ⟨_, isWord, _⟩ := Option.bind_eq_some_iff.mp isReference
    obtain ⟨name, whole, nameSeamless⟩ := exists_name_of_afterWord? (by decide) isWord
    exact absurd (eq_of_name_append seamless nameSeamless ends whole) (by simp)
  · have shorter := length_of_cutNameTerm? isName
    obtain ⟨own, whole, isTerm, isAfter⟩ := eq_name_of_cutNameTerm? isName
    have stops : ∀ d ∈ tail.head?, isPlainCharacter d = false := by
      intro d isFirst
      rw [ends d isFirst]
      decide
    have isCut := congrArg Prod.snd (cutWhile_append stops (c :: rest))
    simp only [cutWhile, Cut.extend] at isCut
    rw [isCut] at isAfter
    obtain rfl : after = (c :: rest).dropWhile isPlainCharacter ++ tail := isAfter
    obtain rfl : term = .name (lowercase (String.ofList own)) := isTerm
    have isOwn : own = (c :: rest).takeWhile isPlainCharacter := by
      rw [← List.append_assoc] at whole
      refine List.append_cancel_right ((List.append_cancel_right whole).trans ?_)
      exact List.takeWhile_append_dropWhile.symm
    rw [isOwn]
    refine .name ?_
    rw [← isOwn]
    rintro rfl
    rw [← whole] at shorter
    exact Nat.lt_irrefl _ shorter
  · obtain ⟨unit, rfl⟩ := eq_numeral_of_cutNumeralTerm? isNumeral
    have endsNumeral := endsNumeral_of_cutNumeralTerm? isNumeral
    obtain ⟨own, whole, extent⟩ := exists_own_of_cutNumeralTerm? isNumeral
    have ownSeamless := extent.seamless rfl
    have isNumber : cutNumeral? (c :: rest ++ tail) ≠ none := by
      obtain ⟨numeral, isCut, _⟩ := Option.bind_eq_some_iff.mp isNumeral
      rw [isCut]
      exact Option.some_ne_none numeral
    suffices isTail : after = tail by
      rw [isTail]
      exact .numeral isNumber
    rcases List.append_eq_append_iff.mp whole with
      ⟨left, isText, isAfter⟩ | ⟨further, isOwn, isTail⟩
    · cases left with
      | nil =>
          exact isAfter
      | cons first others =>
          have isName := areNames first (by simp [isText])
          simp [isAfter, Value.endsNumeral, isName] at endsNumeral
    · cases further with
      | nil =>
          exact isTail.symm
      | cons first others =>
          rw [ends first (by simp [isTail])] at isOwn
          exact absurd (by decide) (ownSeamless '(' (by simp [isOwn]))

/-- No term begins with the parenthesis behind a name. -/
theorem EndsName.eq_nil
    {tail : List Char}
    (ends : EndsName tail)
    (someTerms : terms? tail ≠ none) :
    tail = [] := by
  cases tail with
  | nil =>
      rfl
  | cons c rest =>
      rw [ends c rfl] at someTerms
      exact absurd (terms?_of_isStuck (by decide) rest) someTerms

/-- Terms that do not begin with layout begin with a term. -/
theorem exists_cutTerm?_of_terms?
    {c : Char}
    {rest : List Char}
    {terms : List Term}
    (notLayout : isLayout c = false)
    (areTerms : terms? (c :: rest) = some terms) :
    ∃ term after others,
      cutTerm? c rest = some (term, after) ∧
        terms? after = some others ∧
        terms = term :: others := by
  rw [terms?, if_neg (by simp [notLayout])] at areTerms
  split at areTerms
  case h_1 =>
    contradiction
  case h_2 term after isTerm =>
    obtain ⟨others, areOthers, rfl⟩ := Option.map_eq_some_iff.mp areTerms
    exact ⟨term, after, others, isTerm, areOthers, rfl⟩

theorem head?_dropWhile (inClass : Char → Bool) (text : List Char) :
    ∀ c ∈ (text.dropWhile inClass).head?, inClass c = false := by
  intro c isFirst
  have notIn := List.head?_dropWhile_not inClass text
  rwa [show (text.dropWhile inClass).head? = some c from isFirst] at notIn

/-- What a plain name leaves of a longer name is a numeral. -/
theorem eq_numeral_of_dropWhile
    {text tail : List Char}
    {terms : List Term}
    (areNames : ∀ c ∈ text, isNameCharacter c = true)
    (notPlain : ∀ c ∈ text.head?, isPlainCharacter c = false)
    (ends : EndsName tail)
    (areTerms : terms? (text ++ tail) = some terms) :
    tail = [] ∧ (text = [] ∧ terms = [] ∨ ∃ unit, terms = [.numeral unit]) := by
  cases text with
  | nil =>
      obtain rfl := ends.eq_nil (by simp [show terms? tail = some terms from areTerms])
      exact ⟨rfl, .inl ⟨rfl, by simpa [terms?] using areTerms.symm⟩⟩
  | cons c rest =>
      have notLayout := isLayout_eq_false_of_isNameCharacter (areNames c (by simp))
      obtain ⟨term, after, others, isTerm, areOthers, rfl⟩ :=
        exists_cutTerm?_of_terms? notLayout areTerms
      have noAlpha : ¬ c.isAlpha = true := by
        intro isAlpha
        have isPlain := notPlain c rfl
        simp [isPlainCharacter, Char.isAlphanum, isAlpha] at isPlain
      cases nameTerm_of_cutTerm? areNames ends isTerm with
      | call isAlpha =>
          exact absurd (isAlpha c rfl) noAlpha
      | url isAlpha =>
          exact absurd (isAlpha c rfl) noAlpha
      | name someFront =>
          rw [List.takeWhile_cons_of_neg (by simp [notPlain c rfl])] at someFront
          contradiction
      | numeral =>
          obtain rfl := ends.eq_nil (by simp [areOthers])
          obtain rfl : [] = others := by simpa [terms?] using areOthers
          exact ⟨rfl, .inr ⟨_, rfl⟩⟩

/-- No number begins with a character that begins a name. -/
theorem cutMagnitude?_of_isNameStart
    {c : Char}
    (starts : isNameStart c = true)
    (rest : List Char) :
    cutMagnitude? (c :: rest) = none := by
  refine Decidable.byContradiction fun isMagnitude => ?_
  simp only [isNameStart, Bool.and_eq_true, Bool.not_eq_true'] at starts
  rcases cutMagnitude?_ne_none_iff.mp isMagnitude with
    ⟨digit, isFirst, isDigit⟩ | ⟨isPoint, _⟩
  · obtain rfl := Option.some.inj isFirst
    simp [starts.2] at isDigit
  · obtain rfl := Option.some.inj isPoint
    exact absurd starts.1 (by decide)

/-- Where a name begins, no number does. -/
theorem cutNumeral?_of_cutName?
    {text : List Char}
    (isName : cutName? text ≠ none) :
    cutNumeral? text = none := by
  obtain ⟨cut, found⟩ := Option.ne_none_iff_exists'.mp isName
  obtain ⟨hyphen, first, rest, isHyphen, starts, rfl, _⟩ := cutName?_eq_some_iff.mp found
  -- A hyphen is taken for a sign, and no number begins behind it.
  have behindSign : (cutSign (hyphen ++ first :: rest)).2 = first :: rest := by
    rcases isHyphen with rfl | rfl
    · have notPlus : first ≠ '+' := by
        rintro rfl
        exact absurd starts (by decide)
      have notMinus : first ≠ '-' := by
        rintro rfl
        exact absurd starts (by decide)
      simp [cutSign, notPlus, notMinus]
    · rfl
  rw [cutNumeral?, behindSign, cutMagnitude?_of_isNameStart starts]
  rfl

/--
The terms of an identifier. It is one name if all of its characters are plain;
otherwise what is behind the plain ones is a numeral.
-/
theorem terms_of_identifier
    {text : List Char}
    {terms : List Term}
    (isName : cutName? text = some (text, []))
    (areTerms : terms? text = some terms) :
    (∀ c ∈ text, isPlainCharacter c = true) ∧ terms = [.name (lowercase (String.ofList text))] ∨
      ∃ unit,
        terms =
            [.name (lowercase (String.ofList (text.takeWhile isPlainCharacter))), .numeral unit] ∧
          terms? (text.dropWhile isPlainCharacter) = some [.numeral unit] := by
  have areNames := isNameCharacter_of_cutName? isName
  cases text with
  | nil =>
      contradiction
  | cons c rest =>
      have noTail : EndsName [] := by simp [EndsName]
      have notLayout := isLayout_eq_false_of_isNameCharacter (areNames c (by simp))
      obtain ⟨term, after, others, isTerm, areOthers, rfl⟩ :=
        exists_cutTerm?_of_terms? notLayout areTerms
      rw [← List.append_nil rest] at isTerm
      cases nameTerm_of_cutTerm? areNames noTail isTerm with
      | call _ _ opens =>
          contradiction
      | url _ someTail =>
          contradiction
      | numeral isNumeral =>
          rw [List.append_nil, cutNumeral?_of_cutName? (by simp [isName])] at isNumeral
          contradiction
      | name someFront =>
          have leftNames : ∀ d ∈ (c :: rest).dropWhile isPlainCharacter, isNameCharacter d = true :=
            fun d member => areNames d ((List.dropWhile_suffix _).subset member)
          obtain ⟨_, ⟨isEmpty, rfl⟩ | ⟨unit, rfl⟩⟩ :=
            eq_numeral_of_dropWhile leftNames (head?_dropWhile _ _) noTail areOthers
          · have isText : (c :: rest).takeWhile isPlainCharacter = c :: rest := by
              have whole :
                  (c :: rest).takeWhile isPlainCharacter ++ (c :: rest).dropWhile isPlainCharacter =
                    c :: rest :=
                List.takeWhile_append_dropWhile
              rwa [isEmpty, List.append_nil] at whole
            rw [isText]
            refine .inl ⟨?_, rfl⟩
            rw [← isText]
            exact List.all_eq_true.mp List.all_takeWhile
          · exact .inr ⟨unit, rfl, by simpa using areOthers⟩

/-- A number does not begin with layout. -/
theorem isLayout_eq_false_of_cutNumeral?
    {c : Char}
    {rest : List Char}
    {cut : Cut}
    (found : cutNumeral? (c :: rest) = some cut) :
    isLayout c = false := by
  apply Bool.eq_false_iff.mpr
  intro layout
  obtain ⟨magnitude, isCut, _⟩ := Option.map_eq_some_iff.mp found
  have isMagnitude := Option.ne_none_iff_exists'.mpr ⟨magnitude, isCut⟩
  simp only [isLayout, Bool.or_eq_true, beq_iff_eq] at layout
  rcases layout with (((rfl | rfl) | rfl) | rfl) | rfl <;>
  · rcases cutMagnitude?_ne_none_iff.mp isMagnitude with ⟨digit, isFirst, isDigit⟩ | ⟨isPoint, _⟩
    · obtain rfl := Option.some.inj isFirst
      exact absurd isDigit (by decide)
    · exact absurd (Option.some.inj isPoint) (by decide)

/-- Nothing of a unit is left where a numeral ends. -/
theorem eq_nil_of_endsNumeral
    {text : List Char}
    (ends : endsNumeral text = true)
    (areNames : ∀ c ∈ text, isNameCharacter c = true ∨ c = '%') :
    text = [] := by
  cases text with
  | nil =>
      rfl
  | cons c rest =>
      simp only [endsNumeral, Bool.not_eq_true', Bool.or_eq_false_iff, beq_eq_false_iff_ne] at ends
      rcases areNames c (by simp) with isName | isPercent
      · simp [isName] at ends
      · exact absurd isPercent ends.1.2

/-- A number whose text has terms is one numeral. -/
theorem terms_of_number
    {text : List Char}
    {terms : List Term}
    (isNumber : cutNumber? text = some (text, []))
    (areTerms : terms? text = some terms) :
    ∃ unit, terms = [.numeral unit] ∧ cutNumeralTerm? text = some (.numeral unit, []) := by
  obtain ⟨numeral, isNumeral, same⟩ := Option.map_eq_some_iff.mp isNumber
  obtain ⟨_, isRest⟩ := Prod.mk.inj same
  have isUnit := whole_cutUnit numeral.2
  rw [Cut.whole, isRest, List.append_nil] at isUnit
  cases text with
  | nil =>
      exact absurd rfl (whole_of_cutNumber? isNumber).2
  | cons c rest =>
      obtain ⟨notMark, notAlpha, noName⟩ := begins_of_cutNumeral? isNumeral
      obtain ⟨noCall, noUrl⟩ := cut?_of_notAlpha notAlpha rest
      obtain ⟨term, after, others, isTerm, areOthers, rfl⟩ :=
        exists_cutTerm?_of_terms? (isLayout_eq_false_of_cutNumeral? isNumeral) areTerms
      have isNumeralTerm : cutNumeralTerm? (c :: rest) = some (term, after) := by
        rw [cutTerm?_of_notMem notMark] at isTerm
        simpa [cutWordTerm?_eq_some_iff, noCall, noUrl, noName] using isTerm
      obtain ⟨unit, rfl⟩ := eq_numeral_of_cutNumeralTerm? isNumeralTerm
      -- What the term leaves of the unit would go on with the numeral.
      have isNothing : after = [] := by
        refine eq_nil_of_endsNumeral (endsNumeral_of_cutNumeralTerm? isNumeralTerm) ?_
        rw [cutNumeralTerm?, isNumeral] at isNumeralTerm
        obtain ⟨⟨_, left⟩, isLeft, sameLeft⟩ := Option.map_eq_some_iff.mp isNumeralTerm
        obtain ⟨_, rfl⟩ := Prod.mk.inj sameLeft
        obtain ⟨own, isOwn, _⟩ := exists_own_of_cutNumeralUnit? isLeft
        rw [← isUnit] at isOwn
        exact fun d member =>
          isNameCharacter_of_cutUnit numeral.2 d (isOwn ▸ List.mem_append_right own member)
      obtain rfl : [] = others := by simpa [isNothing, terms?] using areOthers
      exact ⟨unit, rfl, isNothing ▸ isNumeralTerm⟩

/-- A color whose text has terms is one color in digits. -/
theorem terms_of_color
    {text : List Char}
    {terms : List Term}
    (isHash : cutHash? text = some (text, []))
    (areTerms : terms? text = some terms) :
    terms = [.hexColor] ∧
      ∃ digits, text = '#' :: digits ∧ cutHexTerm? digits = some (.hexColor, []) := by
  obtain ⟨first, rest, isName, rfl, isCut⟩ := cutHash?_eq_some_iff.mp isHash
  simp only [Prod.mk.injEq, List.cons.injEq, true_and] at isCut
  have areNames : ∀ c ∈ first :: rest, isNameCharacter c = true := by
    rw [isCut.1]
    exact List.forall_mem_cons.mpr ⟨isName, List.all_eq_true.mp List.all_takeWhile⟩
  obtain ⟨term, after, others, isTerm, areOthers, rfl⟩ :=
    exists_cutTerm?_of_terms? (by decide) areTerms
  have isColor : cutHexTerm? (first :: rest) = some (term, after) := isTerm
  simp only [cutHexTerm?, Option.ite_none_right_eq_some, Bool.and_eq_true, Option.some.injEq,
    Prod.mk.injEq] at isColor
  obtain ⟨⟨_, notName⟩, rfl, rfl⟩ := isColor
  have isNothing : (cutWhile isHexDigit (first :: rest)).2 = [] := by
    cases isLeft : (cutWhile isHexDigit (first :: rest)).2 with
    | nil =>
        rfl
    | cons d left =>
        have isMember : d ∈ first :: rest :=
          (List.dropWhile_suffix isHexDigit).subset
            (show d ∈ (cutWhile isHexDigit (first :: rest)).2 by simp [isLeft])
        simp [isLeft, areNames d isMember] at notName
  obtain rfl : [] = others := by simpa [isNothing, terms?] using areOthers
  refine ⟨rfl, _, rfl, ?_⟩
  rw [← isNothing]
  exact isTerm

/-- A string whose text has terms is one string, without marks of its own inside. -/
theorem terms_of_string
    {mark : Char}
    {body : List Char}
    {terms : List Term}
    (isMark : mark ∈ quotes)
    (isString : cutString? mark body = some (body, []))
    (areTerms : terms? (mark :: body) = some terms) :
    mark ∉ body.dropLast ∧ terms = [.string] := by
  have leads := run_of_terms? (Option.ne_none_iff_exists'.mpr ⟨terms, areTerms⟩)
  have isInside : (Quotation.within mark).run body = some .outside := by
    simpa [Quotation.next, isMark] using leads
  have noMark := not_mem_of_cutString? isMark isString isInside rfl
  rw [terms?_of_cutString? isMark isString noMark] at areTerms
  exact ⟨noMark, (Option.some.inj areTerms).symm⟩

/-- The terms of a call begin with its name, or with a reference. -/
theorem terms_of_call
    {name body : List Char}
    {terms : List Term}
    (isName : cutName? name = some (name, []))
    (areTerms : terms? (name ++ '(' :: body) = some terms) :
    (∃ call others, call.isCall = true ∧ terms = call :: others ∧ terms? body = some others) ∨
      ∃ others, terms = .url :: others := by
  have areNames := isNameCharacter_of_cutName? isName
  have ends : EndsName ('(' :: body) := by simp [EndsName]
  cases name with
  | nil =>
      contradiction
  | cons c rest =>
      have notLayout := isLayout_eq_false_of_isNameCharacter (areNames c (by simp))
      obtain ⟨term, after, others, isTerm, areOthers, rfl⟩ :=
        exists_cutTerm?_of_terms? notLayout areTerms
      have noEnd : terms? ('(' :: body) = none := terms?_of_isStuck (by decide) body
      cases nameTerm_of_cutTerm? areNames ends isTerm with
      | call _ isCall opens =>
          obtain rfl := (List.cons.inj opens).2
          exact .inl ⟨term, others, isCall, rfl, areOthers⟩
      | url =>
          exact .inr ⟨others, rfl⟩
      | numeral =>
          rw [noEnd] at areOthers
          contradiction
      | name someFront =>
          have leftNames : ∀ d ∈ (c :: rest).dropWhile isPlainCharacter, isNameCharacter d = true :=
            fun d member => areNames d ((List.dropWhile_suffix _).subset member)
          have isNothing :=
            (eq_numeral_of_dropWhile leftNames (head?_dropWhile _ _) ends areOthers).1
          contradiction

/-- A sign alone is one term. -/
theorem terms?_of_sign
    {c : Char}
    {sign : Term}
    (notLayout : isLayout c = false)
    (isSign : sign? c = some sign) :
    terms? [c] = some [sign] := by
  have isTerm : cutTerm? c [] = some (sign, []) := by
    rw [cutTerm?, isSign]
  rw [terms?_of_cutTerm? notLayout isTerm, terms?]
  rfl

/-- What the terms of a token of a kind can be. -/
inductive TokenTerms : Kind → List Term → Prop where
  | name
      {word : String} :
      TokenTerms .identifier [.name word]
  | spliced
      {word : String}
      {unit : NumeralUnit} :
      TokenTerms .identifier [.name word, .numeral unit]
  | numeral
      {unit : NumeralUnit} :
      TokenTerms .number [.numeral unit]
  | hexColor :
      TokenTerms .color [.hexColor]
  | string :
      TokenTerms .string [.string]
  | comma :
      TokenTerms .comma [.comma]
  | slash :
      TokenTerms .slash [.slash]
  | call
      {kind : Kind}
      {call : Term}
      {terms : List Term} :
      kind = .function ∨ kind = .url →
      call.isCall = true →
      (∀ behind,
        afterCall? 0 (terms ++ behind) = some behind ∨
          afterCall? 0 (terms ++ behind) = none) →
      TokenTerms kind (call :: terms)
  | url
      {kind : Kind}
      {terms : List Term} :
      kind = .function ∨ kind = .url →
      TokenTerms kind (.url :: terms)

/-- The terms of a token of a value are terms of its kind. -/
theorem ValueText.tokenTerms
    {kind : Kind}
    {text : List Char}
    {terms : List Term}
    (valueText : ValueText kind text)
    (areTerms : terms? text = some terms) :
    TokenTerms kind terms := by
  cases valueText with
  | identifier isName =>
      rcases terms_of_identifier isName areTerms with ⟨_, rfl⟩ | ⟨unit, rfl, _⟩
      · exact .name
      · exact .spliced
  | number isNumber =>
      obtain ⟨unit, rfl, _⟩ := terms_of_number isNumber areTerms
      exact .numeral
  | color isHash =>
      exact (terms_of_color isHash areTerms).1 ▸ .hexColor
  | comma =>
      rw [terms?_of_sign (by decide) rfl] at areTerms
      exact Option.some.inj areTerms ▸ .comma
  | slash =>
      rw [terms?_of_sign (by decide) rfl] at areTerms
      exact Option.some.inj areTerms ▸ .slash
  | string isMark isString =>
      exact (terms_of_string isMark isString areTerms).2 ▸ .string
  | call isKind isName isCall =>
      rcases terms_of_call isName areTerms with
        ⟨call, others, isCallTerm, rfl, areOthers⟩ | ⟨others, rfl⟩
      · exact .call isKind isCallTerm (afterCall?_append isCall areOthers)
      · exact .url isKind

end QtSheet.Value
