import QtSheet.Proofs.Layout

namespace QtSheet

/-!
# Where words end

Layout, slashes and marks end every word. So what stands in front of such a
character is cut into the same pieces whatever comes behind it, as long as the
pieces are closed (`pieces_append`).
-/

open Text

/-- The characters that no word goes on with: layout, slashes and marks. -/
def wordEnds : List Char :=
  [' ', '\t', '\r', '\n', '\x0c', '/', '\x7b', '\x7d', ';', ',', '!']

/-- No word goes on with the front of a text. -/
def EndsWord (text : List Char) : Prop :=
  ∀ c ∈ text.head?, c ∈ wordEnds

/-- What a character that ends words is not. -/
structure IsBreak (c : Char) : Prop where
  noNameStart : isNameStart c = false
  noNameCharacter : isNameCharacter c = false
  noDigit : isDecimalDigit c = false
  noSign : c ∉ ['-', '+', '.', '%', '(', '#', ':', '=', '*']

/-- The front of a text that no word goes on with is part of none. -/
theorem EndsWord.isBreak
    {text : List Char}
    (ends : EndsWord text) :
    ∀ c ∈ text.head?, IsBreak c := by
  have classes :
      wordEnds.all fun c =>
        !isNameStart c && !isNameCharacter c && !isDecimalDigit c &&
          decide (c ∉ ['-', '+', '.', '%', '(', '#', ':', '=', '*']) := by
    decide
  intro c isFirst
  have isClass := List.all_eq_true.mp classes c (ends c isFirst)
  simp only [Bool.and_eq_true, Bool.not_eq_true', decide_eq_true_eq] at isClass
  obtain ⟨⟨⟨noNameStart, noNameCharacter⟩, noDigit⟩, noSign⟩ := isClass
  exact ⟨noNameStart, noNameCharacter, noDigit, noSign⟩

/-- Layout ends words. -/
theorem endsWord_of_layout
    {layout : List Char}
    (isLayouts : Layout layout)
    (nonempty : layout ≠ [])
    (rest : List Char) :
    EndsWord (layout ++ rest) := by
  intro c isFirst
  have isLayoutFirst : c ∈ layout.head? := by
    rwa [List.head?_append, Option.or_of_isSome (by simpa using nonempty)] at isFirst
  rcases isLayouts.head c isLayoutFirst with isBlank | rfl
  · simp only [isLayout, Bool.or_eq_true, beq_iff_eq] at isBlank
    rcases isBlank with (((rfl | rfl) | rfl) | rfl) | rfl <;> decide
  · decide

namespace Text

/-- A cut with more text behind it. -/
def Cut.extend (tail : List Char) (cut : Cut) : Cut :=
  (cut.1, cut.2 ++ tail)

@[simp] theorem Cut.extend_push (tail : List Char) (c : Char) (cut : Cut) :
    (cut.push c).extend tail = (cut.extend tail).push c :=
  rfl

@[simp] theorem Cut.extend_fst (tail : List Char) (cut : Cut) :
    (cut.extend tail).1 = cut.1 :=
  rfl

@[simp] theorem Cut.extend_snd (tail : List Char) (cut : Cut) :
    (cut.extend tail).2 = cut.2 ++ tail :=
  rfl

/-- What is not of the class ends the characters of one class. -/
theorem cutWhile_append
    {inClass : Char → Bool}
    {tail : List Char}
    (stops : ∀ c ∈ tail.head?, inClass c = false)
    (text : List Char) :
    cutWhile inClass (text ++ tail) = (cutWhile inClass text).extend tail := by
  induction text with
  | nil =>
      cases tail with
      | nil =>
          rfl
      | cons c rest =>
          simp [cutWhile, Cut.extend, stops c rfl]
  | cons c rest inductionHypothesis =>
      simp only [cutWhile, Cut.extend, Prod.mk.injEq] at inductionHypothesis ⊢
      by_cases isIn : inClass c = true
      · simpa [isIn] using inductionHypothesis
      · simp [isIn]

end Text

section Splitters

variable {tail : List Char} (ends : EndsWord tail)

include ends

/-- A name ends where words end. -/
theorem cutName?_append (text : List Char) :
    cutName? (text ++ tail) = (cutName? text).map (Cut.extend tail) := by
  have stops : ∀ c ∈ tail.head?, isNameCharacter c = false :=
    fun c isFirst => (ends.isBreak c isFirst).noNameCharacter
  have noName : cutName? tail = none := by
    cases tail with
    | nil =>
        rfl
    | cons c rest =>
        have isBreak := ends.isBreak c rfl
        have noHyphen : c ≠ '-' := by
          rintro rfl
          exact isBreak.noSign (by decide)
        simp [cutName?, isBreak.noNameStart, noHyphen]
  cases text with
  | nil =>
      exact noName
  | cons first rest =>
      unfold cutName?
      simp only [List.cons_append]
      by_cases isStart : isNameStart first = true
      · simp only [isStart, ↓reduceIte, cutWhile_append stops]
        rfl
      · by_cases isHyphen : first = '-'
        · subst isHyphen
          simp only [isStart, ↓reduceIte]
          cases rest with
          | nil =>
              cases tail with
              | nil =>
                  rfl
              | cons c others =>
                  simp [(ends.isBreak c rfl).noNameStart]
          | cons second others =>
              by_cases goesOn : isNameStart second = true
              · simp only [List.cons_append, goesOn, ↓reduceIte, cutWhile_append stops]
                rfl
              · simp [goesOn]
        · simp [isStart, isHyphen]

theorem cutHash?_append (text : List Char) :
    cutHash? (text ++ tail) = (cutHash? text).map (Cut.extend tail) := by
  have stops : ∀ c ∈ tail.head?, isNameCharacter c = false :=
    fun c isFirst => (ends.isBreak c isFirst).noNameCharacter
  cases text with
  | nil =>
      cases tail with
      | nil =>
          rfl
      | cons c rest =>
          have noHash : c ≠ '#' := by
            rintro rfl
            exact (ends.isBreak '#' rfl).noSign (by decide)
          simp [cutHash?, noHash]
  | cons first rest =>
      by_cases isHash : first = '#'
      · subst isHash
        cases rest with
        | nil =>
            cases tail with
            | nil =>
                rfl
            | cons c others =>
                simp [cutHash?, stops c rfl]
        | cons second others =>
            simp only [List.cons_append, cutHash?]
            by_cases goesOn : isNameCharacter second = true
            · simp only [goesOn, ↓reduceIte, cutWhile_append stops]
              rfl
            · simp [goesOn]
      · simp [cutHash?, isHash]

theorem cutSign_append (text : List Char) :
    cutSign (text ++ tail) = (cutSign text).extend tail := by
  cases text with
  | nil =>
      cases tail with
      | nil =>
          rfl
      | cons c rest =>
          have noSign := (ends.isBreak c rfl).noSign
          simp only [List.mem_cons, not_or] at noSign
          simp [cutSign, noSign, Cut.extend]
  | cons first rest =>
      by_cases isPlus : first = '+'
      · subst isPlus
        rfl
      · by_cases isMinus : first = '-'
        · subst isMinus
          rfl
        · simp [cutSign, isPlus, isMinus, Cut.extend]

theorem cutFraction_append (text : List Char) :
    cutFraction (text ++ tail) = (cutFraction text).extend tail := by
  have stops : ∀ c ∈ tail.head?, isDecimalDigit c = false :=
    fun c isFirst => (ends.isBreak c isFirst).noDigit
  cases text with
  | nil =>
      cases tail with
      | nil =>
          rfl
      | cons c rest =>
          have noSign := (ends.isBreak c rfl).noSign
          simp only [List.mem_cons, not_or] at noSign
          simp [cutFraction, noSign, Cut.extend]
  | cons first rest =>
      by_cases isPoint : first = '.'
      · subst isPoint
        simp only [List.cons_append, cutFraction, cutWhile_append stops, Cut.extend_push]
      · simp [cutFraction, isPoint, Cut.extend]

theorem cutUnit_append (text : List Char) :
    cutUnit (text ++ tail) = (cutUnit text).extend tail := by
  have stops : ∀ c ∈ tail.head?, isNameCharacter c = false :=
    fun c isFirst => (ends.isBreak c isFirst).noNameCharacter
  cases text with
  | nil =>
      cases tail with
      | nil =>
          rfl
      | cons c rest =>
          have isBreak := ends.isBreak c rfl
          have noSign := isBreak.noSign
          simp only [List.mem_cons, not_or] at noSign
          simp [cutUnit, noSign, isBreak.noNameStart, Cut.extend]
  | cons first rest =>
      by_cases isPercent : first = '%'
      · subst isPercent
        rfl
      · by_cases isStart : isNameStart first = true
        · simp [cutUnit, isStart, cutWhile_append stops]
        · simp [cutUnit, isStart, Cut.extend]

theorem cutNumeral?_append (text : List Char) :
    cutNumeral? (text ++ tail) = (cutNumeral? text).map (Cut.extend tail) := by
  have stops : ∀ c ∈ tail.head?, isDecimalDigit c = false :=
    fun c isFirst => (ends.isBreak c isFirst).noDigit
  have magnitude :
      ∀ text, cutMagnitude? (text ++ tail) = (cutMagnitude? text).map (Cut.extend tail) := by
    intro text
    simp only [cutMagnitude?, cutWhile_append stops, Cut.extend_fst, Cut.extend_snd,
      cutFraction_append ends]
    split <;> rfl
  simp only [cutNumeral?, cutSign_append ends, Cut.extend_fst, Cut.extend_snd, magnitude,
    Option.map_map]
  rfl

theorem cutNumber?_append (text : List Char) :
    cutNumber? (text ++ tail) = (cutNumber? text).map (Cut.extend tail) := by
  simp only [cutNumber?, cutNumeral?_append ends, Option.map_map]
  congr 1
  funext numeral
  simp only [Function.comp, Cut.extend_fst, Cut.extend_snd, cutUnit_append ends]
  rfl

end Splitters

/-- A piece with more text behind it. -/
def PieceCut.extend (tail : List Char) (cut : PieceCut) : PieceCut :=
  (cut.1, cut.2 ++ tail)

section Words

variable {tail : List Char} (ends : EndsWord tail)

include ends

/-- No pair of signs goes beyond the end of words. -/
theorem NoPair.append
    {c : Char}
    {rest : List Char}
    (noPair : NoPair c rest) :
    NoPair c (rest ++ tail) := by
  cases rest with
  | nil =>
      intro second isFirst
      have noSign := (ends.isBreak second isFirst).noSign
      simp only [List.mem_cons, not_or] at noSign
      simp [selectorPair?, noSign]
  | cons second others =>
      exact noPair

/-- A sign in front of the end of words comes about in the same way. -/
theorem SignPiece.extend
    {c : Char}
    {rest : List Char}
    {cut : PieceCut}
    (way : SignPiece c rest cut) :
    SignPiece c (rest ++ tail) (cut.extend tail) := by
  cases way with
  | pair shape isPair =>
      exact .pair (by rw [shape, List.cons_append]) isPair
  | single noPair isSign =>
      exact .single (noPair.append ends) isSign
  | stray noPair noSign =>
      exact .stray (noPair.append ends) noSign

/-- A piece of a selector in front of the end of words comes about in the same way. -/
theorem SelectorPiece.extend
    {c : Char}
    {rest : List Char}
    {cut : PieceCut}
    (way : SelectorPiece c rest cut) :
    SelectorPiece c (rest ++ tail) (cut.extend tail) := by
  have name := cutName?_append ends (c :: rest)
  have hash := cutHash?_append ends (c :: rest)
  have number := cutNumber?_append ends (c :: rest)
  cases way with
  | name isName =>
      rw [isName] at name
      exact .name name
  | hash noName isHash =>
      rw [noName] at name
      rw [isHash] at hash
      exact .hash name hash
  | number noName noHash isDigit isNumber =>
      rw [noName] at name
      rw [noHash] at hash
      rw [isNumber] at number
      exact .number name hash isDigit number
  | sign noName noHash noNumber way =>
      rw [noName] at name
      rw [noHash] at hash
      refine .sign name hash (fun isDigit => ?_) (way.extend ends)
      rw [noNumber isDigit] at number
      exact number

/-- The pieces of selectors end where words end. -/
theorem selectorPiece_append (c : Char) (rest : List Char) :
    selectorPiece c (rest ++ tail) = (selectorPiece c rest).extend tail :=
  ((selectorPiece_ways c rest).extend ends).eq

/-- A call begins in front of the end of words. -/
theorem exists_call_of_append
    {text name inside : List Char}
    (isName : cutName? (text ++ tail) = some (name, '(' :: inside)) :
    ∃ before, cutName? text = some (name, '(' :: before) ∧ inside = before ++ tail := by
  rw [cutName?_append ends] at isName
  obtain ⟨⟨taken, behind⟩, isFound, same⟩ := Option.map_eq_some_iff.mp isName
  obtain ⟨rfl, shape⟩ := Prod.mk.inj same
  cases behind with
  | nil =>
      have isBreak := ends.isBreak '(' (by rw [show tail = '(' :: inside from shape]; rfl)
      exact absurd (by decide) isBreak.noSign
  | cons first before =>
      obtain ⟨rfl, rfl⟩ := List.cons.inj shape
      exact ⟨before, isFound, rfl⟩

/-- No call begins where none began without what is behind the end of words. -/
theorem noCall_append
    {text : List Char}
    (noCall : NoCall text) :
    NoCall (text ++ tail) := by
  intro name inside isName
  obtain ⟨before, isFound, _⟩ := exists_call_of_append ends isName
  exact noCall name before isFound

/-- Without a call, a piece in front of the end of words comes about in the same way. -/
theorem DeclarationPiece.extend
    {c : Char}
    {rest : List Char}
    {cut : PieceCut}
    (way : DeclarationPiece c rest cut) :
    DeclarationPiece c (rest ++ tail) (cut.extend tail) := by
  have name := cutName?_append ends (c :: rest)
  have number := cutNumber?_append ends (c :: rest)
  have hash := cutHash?_append ends (c :: rest)
  have noWordBehind (noWord : NoWord (c :: rest)) : NoWord (c :: (rest ++ tail)) := by
    rw [noWord.noName] at name
    rw [noWord.noNumber] at number
    rw [noWord.noHash] at hash
    exact ⟨name, number, hash⟩
  cases way with
  | name isName =>
      rw [isName] at name
      exact .name name
  | number noName isNumber =>
      rw [noName] at name
      rw [isNumber] at number
      exact .number name number
  | hash noName noNumber isHash =>
      rw [noName] at name
      rw [noNumber] at number
      rw [isHash] at hash
      exact .hash name number hash
  | colon noWord isColon =>
      exact .colon (noWordBehind noWord) isColon
  | slash noWord isSlash =>
      exact .slash (noWordBehind noWord) isSlash
  | stray noWord noColon noSlash =>
      exact .stray (noWordBehind noWord) noColon noSlash

/-- Without a call, the pieces of declarations end where words end. -/
theorem declarationPiece_append
    {c : Char}
    {rest : List Char}
    (noCall : NoCall (c :: rest)) :
    declarationPiece c (rest ++ tail) = (declarationPiece c rest).extend tail :=
  ((declarationPiece_ways noCall).extend ends).eq (noCall_append ends noCall)

end Words

/-- A closed comment is one whatever comes behind it. -/
theorem cutComment?_behind
    {text : List Char}
    {cut : Cut}
    (found : cutComment? text = some cut)
    (other : List Char) :
    cutComment? (cut.1 ++ other) = some (cut.1, other) := by
  obtain ⟨body, shape, isBody⟩ := isCommentBody_of_cutComment? found
  rw [shape, List.append_assoc]
  exact cutComment?_of_isCommentBody isBody other

/-- A string is cut alike whatever follows it. -/
theorem cutString?_behind
    {mark : Char}
    {text : List Char}
    {cut : Cut}
    (found : cutString? mark text = some cut)
    (other : List Char) :
    cutString? mark (cut.1 ++ other) = some (cut.1, other) := by
  fun_induction cutString? mark text generalizing cut with
  | case1 =>
      contradiction
  | case2 =>
      contradiction
  | case3 next rest inductionHypothesis =>
      obtain ⟨tail, isTail, rfl⟩ := Option.map_eq_some_iff.mp found
      simp [Cut.push, cutString?, inductionHypothesis isTail]
  | case4 rest noBackslash =>
      cases found
      rw [cutString?.eq_def]
      simp [noBackslash]
  | case5 c rest noBackslash noMark inductionHypothesis =>
      obtain ⟨tail, isTail, rfl⟩ := Option.map_eq_some_iff.mp found
      rw [cutString?.eq_def]
      simp [Cut.push, noBackslash, noMark, inductionHypothesis isTail]

/-- A call is cut alike whatever follows it. -/
theorem cutCall?_behind
    {nested : Nat}
    {mark? : Option Char}
    {text : List Char}
    {cut : Cut}
    (found : cutCall? nested mark? text = some cut)
    (other : List Char) :
    cutCall? nested mark? (cut.1 ++ other) = some (cut.1, other) := by
  fun_induction cutCall? nested mark? text generalizing cut with
  | case1 =>
      contradiction
  | case2 nested mark c rest inductionHypothesis =>
      obtain ⟨tail, isTail, rfl⟩ := Option.map_eq_some_iff.mp found
      simp [Cut.push, cutCall?, inductionHypothesis isTail]
  | case3 nested c rest isQuote inductionHypothesis =>
      obtain ⟨tail, isTail, rfl⟩ := Option.map_eq_some_iff.mp found
      simp [Cut.push, cutCall?, isQuote, inductionHypothesis isTail]
  | case4 nested rest _ inductionHypothesis =>
      obtain ⟨tail, isTail, rfl⟩ := Option.map_eq_some_iff.mp found
      simp [Cut.push, cutCall?, inductionHypothesis isTail]
  | case5 rest =>
      cases found
      simp [cutCall?]
  | case6 rest nested _ _ inductionHypothesis =>
      obtain ⟨tail, isTail, rfl⟩ := Option.map_eq_some_iff.mp found
      simp [Cut.push, cutCall?, inductionHypothesis isTail]
  | case7 nested c rest noQuote noOpen noClose inductionHypothesis =>
      obtain ⟨tail, isTail, rfl⟩ := Option.map_eq_some_iff.mp found
      simp [Cut.push, cutCall?, noQuote, noOpen, noClose, inductionHypothesis isTail]

/-- Where a word begins, it begins with something else behind it that ends words, too. -/
private theorem IsWordStart.exchange
    {c : Char}
    {rest tail other : List Char}
    (ends : EndsWord other)
    (isStart : IsWordStart c (rest ++ tail)) :
    IsWordStart c (rest ++ other) := by
  refine ⟨isStart.noLayout, ?_, isStart.noQuote, isStart.noMark⟩
  intro isSlash
  cases rest with
  | nil =>
      intro isStar
      exact (ends.isBreak '*' isStar).noSign (by decide)
  | cons second others =>
      exact isStart.noComment isSlash

/-- What a cut piece leaves is found again without the text put behind it. -/
theorem PieceCut.eq_of_extend
    {cut : PieceCut}
    {piece : Piece}
    {left tail : List Char}
    (found : cut.extend tail = (piece, left ++ tail)) :
    cut = (piece, left) := by
  obtain ⟨samePiece, sameRest⟩ := Prod.mk.inj found
  exact Prod.ext samePiece (List.append_cancel_right sameRest)

/--
A closed piece in front of the end of words is found there with something else
behind the end of words, too.
-/
theorem nextPiece_append
    {depth : Nat}
    {c : Char}
    {rest left tail other : List Char}
    {piece : Piece}
    (tailEnds : EndsWord tail)
    (otherEnds : EndsWord other)
    (found : nextPiece depth c (rest ++ tail) = (piece, left ++ tail))
    (isClosed : piece.isUnterminated = false)
    (gapEnds : piece.isGap = true → left = [] → ∀ next ∈ other.head?, isLayout next = false) :
    nextPiece depth c (rest ++ other) = (piece, left ++ other) := by
  have whole : piece.text ++ left = c :: rest := by
    have whole := (splits_nextPiece depth c (rest ++ tail)).1
    rw [found, PieceCut.whole, ← List.append_assoc, ← List.cons_append] at whole
    exact List.append_cancel_right whole
  have way := nextPiece_ways depth c (rest ++ tail)
  rw [found] at way
  generalize same : (piece, left ++ tail) = cut at way
  cases way with
  | blank isBlank =>
      obtain ⟨rfl, sameRest⟩ := Prod.mk.inj same
      have isRest : (rest ++ tail).takeWhile isLayout ++ left = rest := (List.cons.inj whole).2
      have stops : ∀ next ∈ (left ++ other).head?, isLayout next = false := by
        cases left with
        | nil =>
            exact gapEnds rfl rfl
        | cons next others =>
            intro e isFirst
            cases isFirst
            have notLayout := List.head?_dropWhile_not isLayout (rest ++ tail)
            rw [← sameRest] at notLayout
            exact notLayout
      have allLayout : ∀ next ∈ (rest ++ tail).takeWhile isLayout, isLayout next = true :=
        List.all_eq_true.mp List.all_takeWhile
      have isLonger :
          rest ++ other = (rest ++ tail).takeWhile isLayout ++ (left ++ other) := by
        rw [← List.append_assoc, isRest]
      obtain ⟨takenBehind, leftBehind⟩ := Prod.mk.inj (cutWhile_append stops [])
      rw [(NextPiece.blank isBlank).eq, isLonger, List.takeWhile_append_of_pos allLayout,
        List.dropWhile_append_of_pos allLayout]
      simp only [List.nil_append] at takenBehind leftBehind
      rw [takenBehind, leftBehind]
      simp [cutWhile]
  | @comment inside comment isSlash shape closed =>
      obtain ⟨rfl, sameRest⟩ := Prod.mk.inj same
      subst isSlash
      have isRest : '*' :: (comment.1 ++ left) = rest := (List.cons.inj whole).2
      refine (NextPiece.comment rfl ?_ (cutComment?_behind closed (left ++ other))).eq
      rw [← isRest, List.cons_append, List.append_assoc]
  | openComment =>
      obtain ⟨rfl, _⟩ := Prod.mk.inj same
      contradiction
  | @string string isQuote closed =>
      obtain ⟨rfl, sameRest⟩ := Prod.mk.inj same
      have isRest : string.1 ++ left = rest := (List.cons.inj whole).2
      have closedBehind := cutString?_behind closed (left ++ other)
      rw [← List.append_assoc, isRest] at closedBehind
      exact (NextPiece.string isQuote closedBehind).eq
  | openString =>
      obtain ⟨rfl, _⟩ := Prod.mk.inj same
      contradiction
  | mark isMark =>
      obtain ⟨rfl, sameRest⟩ := Prod.mk.inj same
      rw [List.append_cancel_right sameRest]
      exact (NextPiece.mark isMark).eq
  | selector isStart outside way =>
      have isShorter : selectorPiece c rest = (piece, left) :=
        PieceCut.eq_of_extend (by rw [← selectorPiece_append tailEnds, way.eq, same])
      have shorterWay := selectorPiece_ways c rest
      rw [isShorter] at shorterWay
      exact (NextPiece.selector (isStart.exchange otherEnds) outside
        (shorterWay.extend otherEnds)).eq
  | @call name inside call isStart isInside isName closed =>
      obtain ⟨rfl, sameRest⟩ := Prod.mk.inj same
      rw [← List.cons_append] at isName
      obtain ⟨before, isShorter, rfl⟩ := exists_call_of_append tailEnds isName
      have nameWhole : name ++ '(' :: before = c :: rest := (whole_of_cutName? isShorter).1
      have isBefore : call.1 ++ left = before := by
        rw [← nameWhole, Piece.text, List.append_assoc] at whole
        exact (List.cons.inj (List.append_cancel_left whole)).2
      have isLonger : cutName? (c :: (rest ++ other)) = some (name, '(' :: (before ++ other)) := by
        rw [← List.cons_append, cutName?_append otherEnds, isShorter]
        rfl
      have closedBehind := cutCall?_behind closed (left ++ other)
      rw [← List.append_assoc, isBefore] at closedBehind
      exact (NextPiece.call (isStart.exchange otherEnds) isInside isLonger closedBehind).eq
  | openCall =>
      obtain ⟨rfl, _⟩ := Prod.mk.inj same
      contradiction
  | declaration isStart isInside noCall way =>
      have noCallBefore : NoCall (c :: rest) := by
        intro name inside isName
        apply noCall name (inside ++ tail)
        rw [← List.cons_append, cutName?_append tailEnds, isName]
        rfl
      have isShorter : declarationPiece c rest = (piece, left) :=
        PieceCut.eq_of_extend
          (by rw [← declarationPiece_append tailEnds noCallBefore, way.eq noCall, same])
      have shorterWay := declarationPiece_ways noCallBefore
      rw [isShorter] at shorterWay
      exact (NextPiece.declaration (isStart.exchange otherEnds) isInside
        (noCall_append otherEnds noCallBefore) (shorterWay.extend otherEnds)).eq

/-- The number of open braces after some pieces. -/
def depthAfter (depth : Nat) (parts : List Piece) : Nat :=
  parts.foldl (fun depth piece => piece.depthAfter depth) depth

/-- The first of the pieces of a text is its next piece, and the others are those behind it. -/
theorem exists_nextPiece_of_pieces
    {depth : Nat}
    {rest : List Char}
    {piece : Piece}
    {others : List Piece}
    (cut : pieces depth (piece.text ++ rest) = piece :: others) :
    ∃ c word,
      piece.text = c :: word ∧
        nextPiece depth c (word ++ rest) = (piece, rest) ∧
        others = pieces (piece.depthAfter depth) rest := by
  have nonempty : piece.text ≠ [] := by
    have wellCut := wellCut_pieces depth (piece.text ++ rest)
    rw [cut] at wellCut
    exact wellCut.text_ne_nil (by simp)
  obtain ⟨c, word, isWord⟩ := List.exists_cons_of_ne_nil nonempty
  have whole := (splits_nextPiece depth c (word ++ rest)).1
  rw [isWord, List.cons_append, pieces] at cut
  obtain ⟨isPiece, isOthers⟩ := List.cons.inj cut
  rw [PieceCut.whole, isPiece, isWord, List.cons_append] at whole
  have found : nextPiece depth c (word ++ rest) = (piece, rest) :=
    Prod.ext isPiece (List.append_cancel_left (List.cons.inj whole).2)
  rw [found] at isOthers
  exact ⟨c, word, isWord, found, isOthers.symm⟩

/-- The pieces behind some pieces of a text are those of the text behind them. -/
theorem eq_pieces_of_append
    {depth : Nat}
    {text rest : List Char}
    {front back : List Piece}
    (cut : pieces depth text = front ++ back)
    (isFront : text = front.flatMap Piece.text ++ rest) :
    back = pieces (depthAfter depth front) rest := by
  induction front generalizing depth text with
  | nil =>
      rw [List.flatMap_nil, List.nil_append] at isFront
      subst isFront
      exact cut.symm
  | cons piece others inductionHypothesis =>
      rw [isFront, List.flatMap_cons, List.append_assoc] at cut
      obtain ⟨_, _, _, _, isBehind⟩ := exists_nextPiece_of_pieces cut
      exact inductionHypothesis isBehind.symm rfl

/--
Closed pieces in front of the end of words are found there with something else
behind the end of words, too.
-/
theorem pieces_append
    {depth : Nat}
    {tail other : List Char}
    {front back : List Piece}
    (tailEnds : EndsWord tail)
    (otherEnds : EndsWord other)
    (cut : pieces depth (front.flatMap Piece.text ++ tail) = front ++ back)
    (areClosed : ∀ piece ∈ front, piece.isUnterminated = false)
    (gapEnds :
      ∀ piece ∈ front.getLast?, piece.isGap = true →
        ∀ next ∈ other.head?, isLayout next = false) :
    pieces depth (front.flatMap Piece.text ++ other) =
      front ++ pieces (depthAfter depth front) other := by
  induction front generalizing depth with
  | nil =>
      rfl
  | cons piece others inductionHypothesis =>
      have nonempty : ∀ member ∈ piece :: others, member.text ≠ [] := by
        intro member isMember
        have wellCut := wellCut_pieces depth ((piece :: others).flatMap Piece.text ++ tail)
        rw [cut] at wellCut
        exact wellCut.text_ne_nil (List.mem_append_left back isMember)
      rw [List.flatMap_cons, List.append_assoc] at cut
      obtain ⟨c, word, isWord, found, isBehind⟩ := exists_nextPiece_of_pieces cut
      rw [← List.append_assoc] at found
      have exchanged :=
        nextPiece_append tailEnds otherEnds found (areClosed piece (by simp)) (by
          intro isGap noText
          refine gapEnds piece ?_ isGap
          cases others with
          | nil =>
              rfl
          | cons next behind =>
              rw [List.flatMap_cons, List.append_eq_nil_iff] at noText
              exact absurd noText.1 (nonempty next (by simp)))
      rw [List.flatMap_cons, isWord, List.cons_append, List.cons_append, pieces, exchanged]
      refine congrArg (piece :: ·) (inductionHypothesis isBehind.symm ?_ ?_)
      · exact fun member isMember => areClosed member (by simp [isMember])
      · intro last isLast
        refine gapEnds last ?_
        rw [List.getLast?_cons, isLast]
        rfl

end QtSheet
