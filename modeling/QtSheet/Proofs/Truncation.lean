import QtSheet.Proofs.Boundary

namespace QtSheet

/-!
# Fronts of a text

A text may be cut off behind any of its pieces: the pieces of its front are the
same as before, as long as they are closed (`pieces_flatMap_text`). No word is
longer, and no other word begins, because something is missing behind it.
-/

open Text

/-- What is taken and what is left of a front make the front up. -/
private theorem eq_append_of_whole
    {text taken left tail : List Char}
    (whole : Cut.whole (taken, left ++ tail) = text ++ tail) :
    taken ++ left = text := by
  rw [Cut.whole, ← List.append_assoc] at whole
  exact List.append_cancel_right whole

/-- What a cut leaves is found again without the text put behind it. -/
private theorem Cut.eq_of_extend
    {cut : Cut}
    {taken left tail : List Char}
    (found : cut.extend tail = (taken, left ++ tail)) :
    cut = (taken, left) := by
  obtain ⟨sameTaken, sameLeft⟩ := Prod.mk.inj found
  exact Prod.ext sameTaken (List.append_cancel_right sameLeft)

/-- What is taken from a text within its front is taken from the front. -/
theorem cutWhile_truncate
    {inClass : Char → Bool}
    {text taken left tail : List Char}
    (found : cutWhile inClass (text ++ tail) = (taken, left ++ tail)) :
    cutWhile inClass text = (taken, left) := by
  have whole := whole_cutWhile inClass (text ++ tail)
  rw [found] at whole
  obtain rfl := eq_append_of_whole whole
  obtain ⟨isTaken, isLeft⟩ := Prod.mk.inj found
  have allIn : ∀ c ∈ taken, inClass c = true := by
    rw [← isTaken]
    exact List.all_eq_true.mp List.all_takeWhile
  have stops : ∀ c ∈ left.head?, inClass c = false := by
    intro c isFirst
    obtain ⟨others, rfl⟩ := List.head?_eq_some_iff.mp isFirst
    have notIn := List.head?_dropWhile_not inClass (taken ++ c :: others ++ tail)
    rw [isLeft] at notIn
    exact notIn
  have nothing : cutWhile inClass left = ([], left) := by
    simpa [cutWhile, Cut.extend] using cutWhile_append stops []
  obtain ⟨noneTaken, allLeft⟩ := Prod.mk.inj nothing
  rw [cutWhile, List.takeWhile_append_of_pos allIn, List.dropWhile_append_of_pos allIn,
    noneTaken, allLeft, List.append_nil]

/-- Where only more is left behind it, the same is taken without that. -/
theorem cutWhile_takeWhile_append
    {inClass : Char → Bool}
    {rest left tail : List Char}
    (isLeft : rest.dropWhile inClass = left ++ tail) :
    cutWhile inClass (rest.takeWhile inClass ++ left) = (rest.takeWhile inClass, left) := by
  have isWhole : rest.takeWhile inClass ++ left ++ tail = rest := by
    rw [List.append_assoc, ← isLeft, List.takeWhile_append_dropWhile]
  have isCut :
      cutWhile inClass (rest.takeWhile inClass ++ left ++ tail) =
        (rest.takeWhile inClass, left ++ tail) := by
    rw [isWhole, ← isLeft]
    rfl
  exact cutWhile_truncate isCut

theorem cutName?_truncate
    {text taken left tail : List Char}
    (found : cutName? (text ++ tail) = some (taken, left ++ tail)) :
    cutName? text = some (taken, left) := by
  have shape := eq_append_of_whole (whole_of_cutName? found).1
  obtain ⟨hyphen, first, rest, isHyphen, isStart, _, isCut⟩ := cutName?_eq_some_iff.mp found
  obtain ⟨rfl, isLeft⟩ := Prod.mk.inj isCut
  obtain ⟨isTaken, isBehind⟩ := Prod.mk.inj (cutWhile_takeWhile_append isLeft.symm)
  refine cutName?_eq_some_iff.mpr
    ⟨hyphen, first, rest.takeWhile isNameCharacter ++ left, isHyphen, isStart, ?_, ?_⟩
  · rw [← shape, List.append_assoc, List.cons_append]
  · rw [isTaken, isBehind]

theorem cutHash?_truncate
    {text taken left tail : List Char}
    (found : cutHash? (text ++ tail) = some (taken, left ++ tail)) :
    cutHash? text = some (taken, left) := by
  have shape := eq_append_of_whole (whole_of_cutHash? found).1
  obtain ⟨first, rest, goesOn, _, isCut⟩ := cutHash?_eq_some_iff.mp found
  obtain ⟨rfl, isLeft⟩ := Prod.mk.inj isCut
  obtain ⟨isTaken, isBehind⟩ := Prod.mk.inj (cutWhile_takeWhile_append isLeft.symm)
  refine cutHash?_eq_some_iff.mpr
    ⟨first, rest.takeWhile isNameCharacter ++ left, goesOn, ?_, ?_⟩
  · rw [← shape, List.cons_append, List.cons_append]
  · rw [isTaken, isBehind]

/-- Whether a sign stands at the front of a text is seen from its first character. -/
theorem cutSign_cons_append (first : Char) (rest tail : List Char) :
    cutSign (first :: rest ++ tail) = (cutSign (first :: rest)).extend tail := by
  by_cases isPlus : first = '+'
  · subst isPlus
    rfl
  · by_cases isMinus : first = '-'
    · subst isMinus
      rfl
    · simp [cutSign, isPlus, isMinus, Cut.extend]

theorem cutSign_truncate
    {text taken left tail : List Char}
    (found : cutSign (text ++ tail) = (taken, left ++ tail)) :
    cutSign text = (taken, left) := by
  have whole := whole_cutSign (text ++ tail)
  rw [found] at whole
  have shape := eq_append_of_whole whole
  cases text with
  | nil =>
      obtain ⟨rfl, rfl⟩ := List.append_eq_nil_iff.mp shape
      rfl
  | cons first rest =>
      rw [cutSign_cons_append] at found
      exact Cut.eq_of_extend found

theorem cutFraction_truncate
    {text taken left tail : List Char}
    (found : cutFraction (text ++ tail) = (taken, left ++ tail)) :
    cutFraction text = (taken, left) := by
  have whole := whole_cutFraction (text ++ tail)
  rw [found] at whole
  have shape := eq_append_of_whole whole
  cases text with
  | nil =>
      obtain ⟨rfl, rfl⟩ := List.append_eq_nil_iff.mp shape
      rfl
  | cons first rest =>
      by_cases isPoint : first = '.'
      · subst isPoint
        obtain ⟨rfl, isLeft⟩ := Prod.mk.inj found
        rw [cutFraction, cutWhile_truncate (Prod.ext rfl isLeft)]
        rfl
      · refine Cut.eq_of_extend (Eq.trans ?_ found)
        simp [cutFraction, isPoint, Cut.extend]

theorem cutUnit_truncate
    {text taken left tail : List Char}
    (found : cutUnit (text ++ tail) = (taken, left ++ tail)) :
    cutUnit text = (taken, left) := by
  have whole := whole_cutUnit (text ++ tail)
  rw [found] at whole
  have shape := eq_append_of_whole whole
  cases text with
  | nil =>
      obtain ⟨rfl, rfl⟩ := List.append_eq_nil_iff.mp shape
      rfl
  | cons first rest =>
      by_cases isStart : isNameStart first = true
      · have noPercent : first ≠ '%' := by
          rintro rfl
          exact absurd isStart (by decide)
        simp only [List.cons_append, cutUnit, isStart, ↓reduceIte] at found ⊢
        obtain ⟨rfl, isLeft⟩ := Prod.mk.inj found
        rw [cutWhile_truncate (Prod.ext rfl isLeft)]
        rfl
      · refine Cut.eq_of_extend (Eq.trans ?_ found)
        by_cases isPercent : first = '%'
        · subst isPercent
          rfl
        · simp [cutUnit, isStart, Cut.extend]

theorem cutMagnitude?_truncate
    {text taken left tail : List Char}
    (found : cutMagnitude? (text ++ tail) = some (taken, left ++ tail)) :
    cutMagnitude? text = some (taken, left) := by
  rw [cutMagnitude?, Option.ite_none_right_eq_some] at found
  obtain ⟨someDigit, isCut⟩ := found
  obtain ⟨rfl, isLeft⟩ := Prod.mk.inj (Option.some.inj isCut)
  generalize isDigits : cutWhile isDecimalDigit (text ++ tail) = digits at isLeft someDigit ⊢
  generalize isFraction : cutFraction digits.2 = fraction at isLeft someDigit ⊢
  have isBehind := whole_cutFraction digits.2
  rw [isFraction, Cut.whole, isLeft, ← List.append_assoc] at isBehind
  have digitsCut : cutWhile isDecimalDigit text = (digits.1, fraction.1 ++ left) :=
    cutWhile_truncate (isDigits.trans (Prod.ext rfl isBehind.symm))
  rw [← isBehind] at isFraction
  have fractionCut : cutFraction (fraction.1 ++ left) = (fraction.1, left) :=
    cutFraction_truncate (isFraction.trans (Prod.ext rfl isLeft))
  rw [cutMagnitude?, digitsCut, fractionCut]
  exact if_pos someDigit

theorem cutNumeral?_truncate
    {text taken left tail : List Char}
    (found : cutNumeral? (text ++ tail) = some (taken, left ++ tail)) :
    cutNumeral? text = some (taken, left) := by
  obtain ⟨magnitude, isMagnitude, same⟩ := Option.map_eq_some_iff.mp found
  obtain ⟨rfl, isLeft⟩ := Prod.mk.inj same
  have isBehind := (whole_of_cutMagnitude? isMagnitude).1
  rw [Cut.whole, isLeft, ← List.append_assoc] at isBehind
  have signCut : cutSign text = ((cutSign (text ++ tail)).1, magnitude.1 ++ left) :=
    cutSign_truncate (Prod.ext rfl isBehind.symm)
  rw [← isBehind] at isMagnitude
  have magnitudeCut : cutMagnitude? (magnitude.1 ++ left) = some (magnitude.1, left) :=
    cutMagnitude?_truncate (isMagnitude.trans (congrArg some (Prod.ext rfl isLeft)))
  rw [cutNumeral?, signCut, magnitudeCut]
  rfl

theorem cutNumber?_truncate
    {text taken left tail : List Char}
    (found : cutNumber? (text ++ tail) = some (taken, left ++ tail)) :
    cutNumber? text = some (taken, left) := by
  obtain ⟨numeral, isNumeral, same⟩ := Option.map_eq_some_iff.mp found
  obtain ⟨rfl, isLeft⟩ := Prod.mk.inj same
  have isBehind := whole_cutUnit numeral.2
  rw [Cut.whole, isLeft, ← List.append_assoc] at isBehind
  have numeralCut : cutNumeral? text = some (numeral.1, (cutUnit numeral.2).1 ++ left) :=
    cutNumeral?_truncate (isNumeral.trans (congrArg some (Prod.ext rfl isBehind.symm)))
  have isUnit :
      cutUnit ((cutUnit numeral.2).1 ++ left ++ tail) = ((cutUnit numeral.2).1, left ++ tail) := by
    rw [isBehind]
    exact Prod.ext rfl isLeft
  rw [cutNumber?, numeralCut, Option.map_some, cutUnit_truncate isUnit]

/-- No name begins at the front of a text that begins none with more behind it. -/
theorem cutName?_eq_none_of_append
    {text tail : List Char}
    (noName : cutName? (text ++ tail) = none) :
    cutName? text = none := by
  refine Option.eq_none_iff_forall_ne_some.mpr fun cut found => ?_
  obtain ⟨hyphen, first, rest, isHyphen, isStart, rfl, _⟩ := cutName?_eq_some_iff.mp found
  have isName := cutName?_eq_some_iff.mpr ⟨hyphen, first, rest ++ tail, isHyphen, isStart, rfl, rfl⟩
  rw [List.append_assoc, List.cons_append, isName] at noName
  contradiction

theorem cutHash?_eq_none_of_append
    {text tail : List Char}
    (noHash : cutHash? (text ++ tail) = none) :
    cutHash? text = none := by
  refine Option.eq_none_iff_forall_ne_some.mpr fun cut found => ?_
  obtain ⟨first, rest, goesOn, rfl, _⟩ := cutHash?_eq_some_iff.mp found
  have isHash := cutHash?_eq_some_iff.mpr ⟨first, rest ++ tail, goesOn, rfl, rfl⟩
  rw [List.cons_append, List.cons_append, isHash] at noHash
  contradiction

/-- A magnitude begins with a digit, or with a point and a digit. -/
theorem cutMagnitude?_ne_none_iff
    {text : List Char} :
    cutMagnitude? text ≠ none ↔
      (∃ digit ∈ text.head?, isDecimalDigit digit) ∨
        text.head? = some '.' ∧ ∃ digit ∈ text.tail.head?, isDecimalDigit digit := by
  have noDigit : isDecimalDigit '.' = false := by decide
  rcases text with _ | ⟨first, _ | ⟨second, others⟩⟩
  · simp [cutMagnitude?, cutWhile, cutFraction]
  · by_cases isDigit : isDecimalDigit first = true
    · simp [cutMagnitude?, cutWhile, isDigit]
    · by_cases isPoint : first = '.'
      · subst isPoint
        simp [cutMagnitude?, cutWhile, noDigit, cutFraction, Cut.push]
      · simp [cutMagnitude?, cutWhile, isDigit, cutFraction, isPoint]
  · by_cases isDigit : isDecimalDigit first = true
    · simp [cutMagnitude?, cutWhile, isDigit]
    · by_cases isPoint : first = '.'
      · subst isPoint
        by_cases isFraction : isDecimalDigit second = true
        · simp [cutMagnitude?, cutWhile, noDigit, cutFraction, Cut.push, isFraction]
        · simp [cutMagnitude?, cutWhile, noDigit, cutFraction, Cut.push, isFraction]
      · simp [cutMagnitude?, cutWhile, isDigit, cutFraction, isPoint]

theorem cutMagnitude?_eq_none_of_append
    {text tail : List Char}
    (noMagnitude : cutMagnitude? (text ++ tail) = none) :
    cutMagnitude? text = none := by
  refine Decidable.byContradiction fun isMagnitude => cutMagnitude?_ne_none_iff.mpr ?_ noMagnitude
  rcases cutMagnitude?_ne_none_iff.mp isMagnitude with
    ⟨digit, isFirst, isDigit⟩ | ⟨isPoint, digit, isSecond, isDigit⟩
  · obtain ⟨others, rfl⟩ := List.head?_eq_some_iff.mp isFirst
    exact .inl ⟨digit, rfl, isDigit⟩
  · obtain ⟨others, rfl⟩ := List.head?_eq_some_iff.mp isPoint
    obtain ⟨behind, rfl⟩ := List.head?_eq_some_iff.mp isSecond
    exact .inr ⟨rfl, digit, rfl, isDigit⟩

theorem cutNumber?_eq_none_of_append
    {text tail : List Char}
    (noNumber : cutNumber? (text ++ tail) = none) :
    cutNumber? text = none := by
  simp only [cutNumber?, cutNumeral?, Option.map_eq_none_iff] at noNumber ⊢
  cases text with
  | nil =>
      decide
  | cons first rest =>
      rw [cutSign_cons_append] at noNumber
      exact cutMagnitude?_eq_none_of_append noNumber

theorem NoPair.truncate
    {c : Char}
    {rest tail : List Char}
    (noPair : NoPair c (rest ++ tail)) :
    NoPair c rest := by
  cases rest with
  | nil =>
      intro second isFirst
      contradiction
  | cons second others =>
      exact noPair

/-- A sign within the front of a text is found in the front. -/
theorem SignPiece.truncate
    {c : Char}
    {rest left tail : List Char}
    {piece : Piece}
    {cut : PieceCut}
    (way : SignPiece c (rest ++ tail) cut)
    (isCut : cut = (piece, left ++ tail)) :
    SignPiece c rest (piece, left) := by
  cases way with
  | @pair kind second others shape isPair =>
      obtain ⟨rfl, isLeft⟩ := Prod.mk.inj isCut
      -- The second sign does not stand behind the front.
      have isRest : rest = second :: left := by
        rw [isLeft, ← List.cons_append] at shape
        exact List.append_cancel_right shape
      exact .pair isRest isPair
  | single noPair isSign =>
      obtain ⟨rfl, isLeft⟩ := Prod.mk.inj isCut
      obtain rfl := List.append_cancel_right isLeft
      exact .single noPair.truncate isSign
  | stray noPair noSign =>
      obtain ⟨rfl, isLeft⟩ := Prod.mk.inj isCut
      obtain rfl := List.append_cancel_right isLeft
      exact .stray noPair.truncate noSign

/-- A piece of a selector within the front of a text is found in the front. -/
theorem SelectorPiece.truncate
    {c : Char}
    {rest left tail : List Char}
    {piece : Piece}
    {cut : PieceCut}
    (way : SelectorPiece c (rest ++ tail) cut)
    (isCut : cut = (piece, left ++ tail)) :
    SelectorPiece c rest (piece, left) := by
  cases way with
  | name isName =>
      obtain ⟨rfl, isLeft⟩ := Prod.mk.inj isCut
      exact .name (cutName?_truncate (isName.trans (congrArg some (Prod.ext rfl isLeft))))
  | hash noName isHash =>
      obtain ⟨rfl, isLeft⟩ := Prod.mk.inj isCut
      exact .hash (cutName?_eq_none_of_append noName)
        (cutHash?_truncate (isHash.trans (congrArg some (Prod.ext rfl isLeft))))
  | number noName noHash isDigit isNumber =>
      obtain ⟨rfl, isLeft⟩ := Prod.mk.inj isCut
      exact .number (cutName?_eq_none_of_append noName) (cutHash?_eq_none_of_append noHash) isDigit
        (cutNumber?_truncate (isNumber.trans (congrArg some (Prod.ext rfl isLeft))))
  | sign noName noHash noNumber way =>
      exact .sign (cutName?_eq_none_of_append noName) (cutHash?_eq_none_of_append noHash)
        (fun isDigit => cutNumber?_eq_none_of_append (noNumber isDigit)) (way.truncate isCut)

/-- A name goes no further than to what is no part of names. -/
theorem cutName?_append_of_some
    {text tail : List Char}
    {cut : Cut}
    (stops : ∀ c ∈ tail.head?, isNameCharacter c = false)
    (found : cutName? text = some cut) :
    cutName? (text ++ tail) = some (cut.extend tail) := by
  obtain ⟨hyphen, first, rest, isHyphen, isStart, rfl, rfl⟩ := cutName?_eq_some_iff.mp found
  obtain ⟨isTaken, isLeft⟩ := Prod.mk.inj (cutWhile_append stops rest)
  refine cutName?_eq_some_iff.mpr ⟨hyphen, first, rest ++ tail, isHyphen, isStart, by simp, ?_⟩
  rw [isTaken, isLeft]
  rfl

/-- A call that begins in a front begins there with more behind it, too. -/
theorem noCall_of_append
    {text tail : List Char}
    (noCall : NoCall (text ++ tail)) :
    NoCall text := by
  intro name inside isName
  obtain rfl : name ++ '(' :: inside = text := (whole_of_cutName? isName).1
  have isWhole : cutName? name = some (name, []) := by
    rw [← List.nil_append ('(' :: inside)] at isName
    exact cutName?_truncate isName
  have stops : ∀ c ∈ ('(' :: inside ++ tail).head?, isNameCharacter c = false := by
    intro c isFirst
    cases isFirst
    decide
  apply noCall name (inside ++ tail)
  rw [List.append_assoc, cutName?_append_of_some stops isWhole]
  rfl

theorem NoWord.truncate
    {text tail : List Char}
    (noWord : NoWord (text ++ tail)) :
    NoWord text :=
  ⟨cutName?_eq_none_of_append noWord.noName, cutNumber?_eq_none_of_append noWord.noNumber,
    cutHash?_eq_none_of_append noWord.noHash⟩

/-- Without a call, a piece within the front of a text is found in the front. -/
theorem DeclarationPiece.truncate
    {c : Char}
    {rest left tail : List Char}
    {piece : Piece}
    {cut : PieceCut}
    (way : DeclarationPiece c (rest ++ tail) cut)
    (isCut : cut = (piece, left ++ tail)) :
    DeclarationPiece c rest (piece, left) := by
  cases way with
  | name isName =>
      obtain ⟨rfl, isLeft⟩ := Prod.mk.inj isCut
      exact .name (cutName?_truncate (isName.trans (congrArg some (Prod.ext rfl isLeft))))
  | number noName isNumber =>
      obtain ⟨rfl, isLeft⟩ := Prod.mk.inj isCut
      exact .number (cutName?_eq_none_of_append noName)
        (cutNumber?_truncate (isNumber.trans (congrArg some (Prod.ext rfl isLeft))))
  | hash noName noNumber isHash =>
      obtain ⟨rfl, isLeft⟩ := Prod.mk.inj isCut
      exact .hash (cutName?_eq_none_of_append noName) (cutNumber?_eq_none_of_append noNumber)
        (cutHash?_truncate (isHash.trans (congrArg some (Prod.ext rfl isLeft))))
  | colon noWord isColon =>
      obtain ⟨rfl, isLeft⟩ := Prod.mk.inj isCut
      obtain rfl := List.append_cancel_right isLeft
      exact .colon noWord.truncate isColon
  | slash noWord isSlash =>
      obtain ⟨rfl, isLeft⟩ := Prod.mk.inj isCut
      obtain rfl := List.append_cancel_right isLeft
      exact .slash noWord.truncate isSlash
  | stray noWord noColon noSlash =>
      obtain ⟨rfl, isLeft⟩ := Prod.mk.inj isCut
      obtain rfl := List.append_cancel_right isLeft
      exact .stray noWord.truncate noColon noSlash

private theorem IsWordStart.truncate
    {c : Char}
    {rest tail : List Char}
    (isStart : IsWordStart c (rest ++ tail)) :
    IsWordStart c rest := by
  refine ⟨isStart.noLayout, ?_, isStart.noQuote, isStart.noMark⟩
  intro isSlash isStar
  obtain ⟨others, rfl⟩ := List.head?_eq_some_iff.mp isStar
  exact isStart.noComment isSlash rfl

/-- A closed piece within the front of a text is the next piece of the front. -/
theorem nextPiece_truncate
    {depth : Nat}
    {c : Char}
    {rest left tail : List Char}
    {piece : Piece}
    (found : nextPiece depth c (rest ++ tail) = (piece, left ++ tail))
    (isClosed : piece.isUnterminated = false) :
    nextPiece depth c rest = (piece, left) := by
  have whole : piece.text ++ left = c :: rest := by
    have whole := (splits_nextPiece depth c (rest ++ tail)).1
    rw [found, PieceCut.whole, ← List.append_assoc, ← List.cons_append] at whole
    exact List.append_cancel_right whole
  have way := nextPiece_ways depth c (rest ++ tail)
  rw [found] at way
  generalize same : (piece, left ++ tail) = cut at way
  cases way with
  | blank isBlank =>
      obtain ⟨rfl, sameRest⟩ := Prod.mk.inj same
      have isCut :
          cutWhile isLayout (rest ++ tail) = ((rest ++ tail).takeWhile isLayout, left ++ tail) :=
        Prod.ext rfl sameRest.symm
      obtain ⟨isTaken, isLeft⟩ := Prod.mk.inj (cutWhile_truncate isCut)
      rw [(NextPiece.blank isBlank).eq, isTaken, isLeft]
  | @comment inside comment isSlash shape closed =>
      obtain ⟨rfl, _⟩ := Prod.mk.inj same
      subst isSlash
      have isRest : '*' :: (comment.1 ++ left) = rest := (List.cons.inj whole).2
      exact (NextPiece.comment rfl isRest.symm (cutComment?_behind closed left)).eq
  | openComment =>
      obtain ⟨rfl, _⟩ := Prod.mk.inj same
      contradiction
  | @string string isQuote closed =>
      obtain ⟨rfl, _⟩ := Prod.mk.inj same
      have isRest : string.1 ++ left = rest := (List.cons.inj whole).2
      have closedBehind := cutString?_behind closed left
      rw [isRest] at closedBehind
      exact (NextPiece.string isQuote closedBehind).eq
  | openString =>
      obtain ⟨rfl, _⟩ := Prod.mk.inj same
      contradiction
  | mark isMark =>
      obtain ⟨rfl, sameRest⟩ := Prod.mk.inj same
      rw [List.append_cancel_right sameRest]
      exact (NextPiece.mark isMark).eq
  | selector isStart outside way =>
      exact (NextPiece.selector isStart.truncate outside (way.truncate same.symm)).eq
  | @call name inside call isStart isInside isName closed =>
      obtain ⟨rfl, sameRest⟩ := Prod.mk.inj same
      have isInsideText : '(' :: inside = '(' :: (call.1 ++ left) ++ tail := by
        have callWhole := whole_of_cutCall? closed
        rw [Cut.whole, ← sameRest, ← List.append_assoc] at callWhole
        rw [List.cons_append, callWhole]
      rw [← List.cons_append, isInsideText] at isName
      exact (NextPiece.call isStart.truncate isInside (cutName?_truncate isName)
        (cutCall?_behind closed left)).eq
  | openCall =>
      obtain ⟨rfl, _⟩ := Prod.mk.inj same
      contradiction
  | declaration isStart isInside noCall way =>
      exact (NextPiece.declaration isStart.truncate isInside (noCall_of_append noCall)
        (way.truncate same.symm)).eq

/-- The pieces of a front of a text that ends behind one of the text's pieces. -/
theorem pieces_flatMap_text
    {depth : Nat}
    {tail : List Char}
    {front back : List Piece}
    (cut : pieces depth (front.flatMap Piece.text ++ tail) = front ++ back)
    (areClosed : ∀ piece ∈ front, piece.isUnterminated = false) :
    pieces depth (front.flatMap Piece.text) = front := by
  induction front generalizing depth with
  | nil =>
      rw [List.flatMap_nil, pieces]
  | cons piece others inductionHypothesis =>
      rw [List.flatMap_cons, List.append_assoc] at cut
      obtain ⟨c, word, isWord, found, isBehind⟩ := exists_nextPiece_of_pieces cut
      rw [← List.append_assoc] at found
      rw [List.flatMap_cons, isWord, List.cons_append, pieces,
        nextPiece_truncate found (areClosed piece (by simp))]
      exact congrArg (piece :: ·)
        (inductionHypothesis isBehind.symm
          fun member isMember => areClosed member (by simp [isMember]))

end QtSheet
