import QtSheet.Proofs.Case.Letter
import QtSheet.Proofs.Piece

namespace QtSheet

open Text

/-!
# Pieces in small letters

A text in small letters has the pieces of the text, in small letters
(`pieces_small`): each splitter takes as much from the front of the one as from
the front of the other.
-/

namespace Text

/-- A cut with both parts in small letters. -/
def Cut.small (cut : Cut) : Cut :=
  (Text.small cut.1, Text.small cut.2)

@[simp] theorem Cut.small_push (c : Char) (cut : Cut) :
    (cut.push c).small = cut.small.push c.toLower :=
  rfl

theorem cutWhile_small
    {inClass : Char → Bool}
    (isBlind : ∀ c, inClass c.toLower = inClass c)
    (text : List Char) :
    cutWhile inClass (small text) = (cutWhile inClass text).small := by
  rw [cutWhile, takeWhile_small isBlind, dropWhile_small isBlind]
  rfl

theorem cutName?_small (text : List Char) :
    cutName? (small text) = (cutName? text).map Cut.small := by
  have isHyphen (c : Char) : c.toLower = '-' ↔ c = '-' := toLower_eq_iff (by decide) c
  fun_cases cutName? text <;>
    simp_all [cutName?, cutWhile_small isNameCharacter_toLower]

theorem cutHash?_small (text : List Char) :
    cutHash? (small text) = (cutHash? text).map Cut.small := by
  have isMark (c : Char) : c.toLower = '#' ↔ c = '#' := toLower_eq_iff (by decide) c
  match text with
  | [] =>
      rfl
  | [c] =>
      simp [cutHash?]
  | c :: first :: rest =>
      by_cases hash : c = '#'
      · subst hash
        by_cases isName : isNameCharacter first <;>
          simp [cutHash?, isName, cutWhile_small isNameCharacter_toLower]
      · simp [cutHash?, isMark, hash]

theorem cutSign_small (text : List Char) : cutSign (small text) = (cutSign text).small := by
  have isPlus (c : Char) : c.toLower = '+' ↔ c = '+' := toLower_eq_iff (by decide) c
  have isMinus (c : Char) : c.toLower = '-' ↔ c = '-' := toLower_eq_iff (by decide) c
  fun_cases cutSign text with
  | case1 rest =>
      rfl
  | case2 rest =>
      rfl
  | case3 text noPlus noMinus =>
      cases text with
      | nil =>
          rfl
      | cons c rest =>
          simp_all [cutSign, Cut.small]

theorem cutFraction_small (text : List Char) :
    cutFraction (small text) = (cutFraction text).small := by
  have isPoint (c : Char) : c.toLower = '.' ↔ c = '.' := toLower_eq_iff (by decide) c
  fun_cases cutFraction text with
  | case1 rest =>
      simp [cutFraction, cutWhile_small isDecimalDigit_toLower]
  | case2 text noPoint =>
      cases text with
      | nil =>
          rfl
      | cons c rest =>
          simp_all [cutFraction, Cut.small]

theorem cutMagnitude?_small (text : List Char) :
    cutMagnitude? (small text) = (cutMagnitude? text).map Cut.small := by
  simp only [cutMagnitude?, cutWhile_small isDecimalDigit_toLower, Cut.small, cutFraction_small,
    small_eq_nil_iff, ne_eq, length_small]
  split <;> simp [Cut.small]

theorem cutNumeral?_small (text : List Char) :
    cutNumeral? (small text) = (cutNumeral? text).map Cut.small := by
  simp only [cutNumeral?, cutSign_small, Cut.small, cutMagnitude?_small, Option.map_map]
  congr 1
  funext magnitude
  simp [Cut.small]

theorem cutUnit_small (text : List Char) : cutUnit (small text) = (cutUnit text).small := by
  have isPercent (c : Char) : c.toLower = '%' ↔ c = '%' := toLower_eq_iff (by decide) c
  fun_cases cutUnit text with
  | case1 rest =>
      rfl
  | case2 first rest notPercent starts =>
      simp_all [cutUnit, cutWhile_small isNameCharacter_toLower]
  | case3 first rest notPercent notStart =>
      simp_all [cutUnit, Cut.small]
  | case4 =>
      rfl

theorem cutNumber?_small (text : List Char) :
    cutNumber? (small text) = (cutNumber? text).map Cut.small := by
  simp only [cutNumber?, cutNumeral?_small, Option.map_map]
  congr 1
  funext numeral
  simp [Cut.small, cutUnit_small]

end Text

/-- What is taken in front of a cut is taken in small letters too. -/
theorem map_push_small
    {cut? smallCut? : Option Cut}
    (same : smallCut? = cut?.map Cut.small)
    (c : Char) :
    smallCut?.map (Cut.push c.toLower) = (cut?.map (Cut.push c)).map Cut.small := by
  rw [same, Option.map_map, Option.map_map]
  rfl

theorem cutComment?_small (text : List Char) :
    cutComment? (small text) = (cutComment? text).map Cut.small := by
  have isStar (c : Char) : c.toLower = '*' ↔ c = '*' := toLower_eq_iff (by decide) c
  have isSlash (c : Char) : c.toLower = '/' ↔ c = '/' := toLower_eq_iff (by decide) c
  fun_induction cutComment? text with
  | case1 =>
      rfl
  | case2 rest =>
      rfl
  | case3 c rest notEnd inductionHypothesis =>
      rw [← map_push_small inductionHypothesis, small_cons, cutComment?]
      intro behind sameStar sameSlash
      cases rest with
      | nil =>
          cases sameSlash
      | cons d rest =>
          obtain ⟨slash, _⟩ := List.cons.inj sameSlash
          exact notEnd rest ((isStar c).mp sameStar) (by rw [(isSlash d).mp slash])

/-- A string is cut alike from a text in small letters, as no letter is a quote mark. -/
theorem cutString?_small
    {mark : Char}
    (isMark : mark.isAlpha = false)
    (text : List Char) :
    cutString? mark (small text) = (cutString? mark text).map Cut.small := by
  have isEscape (c : Char) : c.toLower = '\\' ↔ c = '\\' := toLower_eq_iff (by decide) c
  fun_induction cutString? mark text with
  | case1 =>
      rfl
  | case2 =>
      rfl
  | case3 next rest inductionHypothesis =>
      simp only [small_cons, cutString?, isEscape, ↓reduceIte, inductionHypothesis, Option.map_map]
      rfl
  | case4 rest notEscape =>
      rw [small_cons, cutString?.eq_def]
      simp [isEscape, toLower_eq_iff isMark, notEscape, Cut.small]
  | case5 c rest notEscape notMark inductionHypothesis =>
      rw [← map_push_small inductionHypothesis, small_cons, cutString?.eq_def]
      simp [isEscape, toLower_eq_iff isMark, notEscape, notMark]

/-- A call is cut alike from a text in small letters, as no letter is a quote mark. -/
theorem cutCall?_small
    (nested : Nat)
    {mark? : Option Char}
    (areMarks : ∀ mark ∈ mark?, mark.isAlpha = false)
    (text : List Char) :
    cutCall? nested mark? (small text) = (cutCall? nested mark? text).map Cut.small := by
  have isDouble (c : Char) : c.toLower = '"' ↔ c = '"' := toLower_eq_iff (by decide) c
  have isSingle (c : Char) : c.toLower = '\x27' ↔ c = '\x27' := toLower_eq_iff (by decide) c
  have isOpening (c : Char) : c.toLower = '(' ↔ c = '(' := toLower_eq_iff (by decide) c
  have isClosing (c : Char) : c.toLower = ')' ↔ c = ')' := toLower_eq_iff (by decide) c
  have noMark : ∀ mark ∈ (none : Option Char), mark.isAlpha = false := by
    simp
  fun_induction cutCall? nested mark? text with
  | case1 =>
      rfl
  | case2 nested mark c rest inductionHypothesis =>
      have isMark : mark.isAlpha = false := areMarks mark rfl
      have stays : ∀ other ∈ if c = mark then .none else some mark, other.isAlpha = false := by
        intro other isOther
        split at isOther
        · cases isOther
        · exact Option.some.inj isOther ▸ isMark
      rw [← map_push_small (inductionHypothesis stays), small_cons, cutCall?]
      simp only [toLower_eq_iff isMark]
  | case3 nested c rest isMark inductionHypothesis =>
      have isQuote : c = '"' ∨ c = '\x27' := by
        simpa using isMark
      obtain ⟨notAlpha, isSmall⟩ := isAlpha_toLower_mark isQuote
      have opens : ∀ mark ∈ some c, mark.isAlpha = false := by
        simpa using notAlpha
      rw [← map_push_small (inductionHypothesis opens), small_cons, isSmall, cutCall?.eq_def]
      simp [isMark]
  | case4 nested rest _ inductionHypothesis =>
      rw [← map_push_small (inductionHypothesis noMark)]
      rfl
  | case5 rest =>
      rfl
  | case6 rest nested _ _ inductionHypothesis =>
      rw [← map_push_small (inductionHypothesis noMark)]
      rfl
  | case7 nested c rest notMark notOpening notClosing inductionHypothesis =>
      rw [← map_push_small (inductionHypothesis noMark), small_cons, cutCall?.eq_def]
      simp only [isDouble, isSingle, isOpening, isClosing, notMark, notOpening, notClosing]
      rfl

/-- A piece in small letters. -/
def Piece.small : Piece → Piece
  | .gap text => .gap (Text.small text)
  | .token kind text => .token kind (Text.small text)
  | .stray character => .stray character.toLower
  | .unterminated construct text => .unterminated construct (Text.small text)

/-- A piece and the text after it in small letters. -/
def PieceCut.small (cut : PieceCut) : PieceCut :=
  (cut.1.small, Text.small cut.2)

@[simp] theorem Piece.text_small (piece : Piece) : piece.small.text = Text.small piece.text := by
  cases piece <;> rfl

@[simp] theorem Piece.depthAfter_small (depth : Nat) (piece : Piece) :
    piece.small.depthAfter depth = piece.depthAfter depth := by
  cases piece with
  | token kind text =>
      cases kind <;> rfl
  | _ =>
      rfl

theorem selectorPair?_toLower (first second : Char) :
    selectorPair? first.toLower second.toLower = selectorPair? first second := by
  have isColon (c : Char) : c.toLower = ':' ↔ c = ':' := toLower_eq_iff (by decide) c
  have isTilde (c : Char) : c.toLower = '~' ↔ c = '~' := toLower_eq_iff (by decide) c
  have isBar (c : Char) : c.toLower = '|' ↔ c = '|' := toLower_eq_iff (by decide) c
  have isEquals (c : Char) : c.toLower = '=' ↔ c = '=' := toLower_eq_iff (by decide) c
  fun_cases selectorPair? first second with
  | case4 first second notColons notTilde notBar =>
      rw [selectorPair?]
      · simpa only [isColon] using notColons
      · simpa only [isTilde, isEquals] using notTilde
      · simpa only [isBar, isEquals] using notBar
  | _ =>
      rfl

theorem selectorSign?_toLower (c : Char) : selectorSign? c.toLower = selectorSign? c :=
  eq_of_capitals (by decide) c

theorem mark?_toLower (c : Char) : mark? c.toLower = mark? c :=
  eq_of_capitals (by decide) c

/-- No sign of two characters appears when letters are made small. -/
theorem NoPair.small
    {c : Char}
    {rest : List Char}
    (noPair : NoPair c rest) :
    NoPair c.toLower (small rest) := by
  intro second isSecond
  cases rest with
  | nil =>
      contradiction
  | cons first others =>
      obtain rfl := Option.some.inj isSecond
      rw [selectorPair?_toLower]
      exact noPair first rfl

theorem SignPiece.small
    {c : Char}
    {rest : List Char}
    {cut : PieceCut}
    (way : SignPiece c rest cut) :
    SignPiece c.toLower (small rest) cut.small := by
  cases way with
  | @pair kind second others shape isPair =>
      exact .pair (by rw [shape, small_cons]) (by rw [selectorPair?_toLower, isPair])
  | single noPair isSign =>
      exact .single noPair.small (by rw [selectorSign?_toLower, isSign])
  | stray noPair noSign =>
      exact .stray noPair.small (by rw [selectorSign?_toLower, noSign])

theorem SelectorPiece.small
    {c : Char}
    {rest : List Char}
    {cut : PieceCut}
    (way : SelectorPiece c rest cut) :
    SelectorPiece c.toLower (small rest) cut.small := by
  have name := cutName?_small (c :: rest)
  have hash := cutHash?_small (c :: rest)
  have number := cutNumber?_small (c :: rest)
  cases way with
  | name isName =>
      rw [isName] at name
      exact .name name
  | hash noName isHash =>
      rw [noName] at name
      rw [isHash] at hash
      exact .hash name hash
  | number noName noHash isDigit isNumber =>
      rw [noName] at name
      rw [noHash] at hash
      rw [isNumber] at number
      exact .number name hash (by rw [isDecimalDigit_toLower, isDigit]) number
  | sign noName noHash noNumber way =>
      rw [noName] at name
      rw [noHash] at hash
      refine .sign name hash (fun isDigit => ?_) way.small
      rw [isDecimalDigit_toLower] at isDigit
      rw [noNumber isDigit] at number
      exact number

theorem DeclarationPiece.small
    {c : Char}
    {rest : List Char}
    {cut : PieceCut}
    (way : DeclarationPiece c rest cut) :
    DeclarationPiece c.toLower (small rest) cut.small := by
  have name := cutName?_small (c :: rest)
  have number := cutNumber?_small (c :: rest)
  have hash := cutHash?_small (c :: rest)
  have isColon := toLower_eq_iff (show ':'.isAlpha = false by decide) c
  have isSlash := toLower_eq_iff (show '/'.isAlpha = false by decide) c
  have noWordSmall (noWord : NoWord (c :: rest)) : NoWord (c.toLower :: Text.small rest) := by
    rw [noWord.noName] at name
    rw [noWord.noNumber] at number
    rw [noWord.noHash] at hash
    exact ⟨name, number, hash⟩
  cases way with
  | name isName =>
      rw [isName] at name
      exact .name name
  | number noName isNumber =>
      rw [noName] at name
      rw [isNumber] at number
      exact .number name number
  | hash noName noNumber isHash =>
      rw [noName] at name
      rw [noNumber] at number
      rw [isHash] at hash
      exact .hash name number hash
  | colon noWord colon =>
      exact .colon (noWordSmall noWord) (isColon.mpr colon)
  | slash noWord slash =>
      exact .slash (noWordSmall noWord) (isSlash.mpr slash)
  | stray noWord noColon noSlash =>
      exact .stray (noWordSmall noWord) (mt isColon.mp noColon) (mt isSlash.mp noSlash)

theorem IsWordStart.small
    {c : Char}
    {rest : List Char}
    (isStart : IsWordStart c rest) :
    IsWordStart c.toLower (small rest) := by
  refine ⟨by rw [isLayout_toLower, isStart.noLayout], fun isSlash => ?_, ?_,
    by rw [mark?_toLower, isStart.noMark]⟩
  · have noStar :=
      isStart.noComment ((toLower_eq_iff (show '/'.isAlpha = false by decide) c).mp isSlash)
    cases rest with
    | nil =>
        exact noStar
    | cons second others =>
        simpa [toLower_eq_iff (show '*'.isAlpha = false by decide)] using noStar
  · rw [toLower_eq_iff (show '"'.isAlpha = false by decide),
      toLower_eq_iff (show '\x27'.isAlpha = false by decide)]
    exact isStart.noQuote

theorem cutName?_small_call
    {text name inside : List Char}
    (isCall : cutName? text = some (name, '(' :: inside)) :
    cutName? (small text) = some (small name, '(' :: small inside) := by
  rw [cutName?_small, isCall]
  rfl

/-- No call appears when letters are made small. -/
theorem NoCall.small
    {text : List Char}
    (noCall : NoCall text) :
    NoCall (small text) := by
  intro name inside isCall
  rw [cutName?_small] at isCall
  obtain ⟨⟨own, behind⟩, isName, same⟩ := Option.map_eq_some_iff.mp isCall
  obtain ⟨_, isBehind⟩ := Prod.mk.inj same
  cases behind with
  | nil =>
      contradiction
  | cons first others =>
      obtain ⟨isOpening, _⟩ := List.cons.inj isBehind
      rw [(toLower_eq_iff (by decide) first).mp isOpening] at isName
      exact noCall own others isName

theorem NextPiece.small
    {depth : Nat}
    {c : Char}
    {rest : List Char}
    {cut : PieceCut}
    (way : NextPiece depth c rest cut) :
    NextPiece depth c.toLower (small rest) cut.small := by
  have noMark : ∀ mark ∈ (none : Option Char), mark.isAlpha = false := by
    simp
  cases way with
  | blank isBlank =>
      rw [PieceCut.small, Piece.small, small_cons, ← takeWhile_small isLayout_toLower,
        ← dropWhile_small isLayout_toLower]
      exact .blank (by rw [isLayout_toLower, isBlank])
  | @comment inside comment isSlash shape closed =>
      subst isSlash shape
      have isClosed : cutComment? (Text.small inside) = some comment.small := by
        rw [cutComment?_small, closed]
        rfl
      exact .comment rfl rfl isClosed
  | @openComment inside isSlash shape stillOpen =>
      subst isSlash shape
      have isOpen : cutComment? (Text.small inside) = none := by
        rw [cutComment?_small, stillOpen]
        rfl
      exact .openComment rfl rfl isOpen
  | @string string isQuote closed =>
      obtain ⟨notAlpha, isSmall⟩ := isAlpha_toLower_mark isQuote
      have isClosed : cutString? c (Text.small rest) = some string.small := by
        rw [cutString?_small notAlpha, closed]
        rfl
      rw [PieceCut.small, Piece.small, small_cons, isSmall]
      exact .string isQuote isClosed
  | openString isQuote stillOpen =>
      obtain ⟨notAlpha, isSmall⟩ := isAlpha_toLower_mark isQuote
      have isOpen : cutString? c (Text.small rest) = none := by
        rw [cutString?_small notAlpha, stillOpen]
        rfl
      rw [PieceCut.small, Piece.small, small_cons, isSmall]
      exact .openString isQuote isOpen
  | mark isMark =>
      exact .mark (by rw [mark?_toLower, isMark])
  | selector isStart outside way =>
      exact .selector isStart.small outside way.small
  | @call name inside call isStart isInside isName closed =>
      have isClosed : cutCall? 0 none (Text.small inside) = some call.small := by
        rw [cutCall?_small 0 noMark, closed]
        rfl
      rw [PieceCut.small, Piece.small, small_append, ← lowercase_small]
      exact .call isStart.small isInside (cutName?_small_call isName) isClosed
  | @openCall name inside isStart isInside isName stillOpen =>
      have isOpen : cutCall? 0 none (Text.small inside) = none := by
        rw [cutCall?_small 0 noMark, stillOpen]
        rfl
      rw [PieceCut.small, Piece.small, small_append, ← lowercase_small]
      exact .openCall isStart.small isInside (cutName?_small_call isName) isOpen
  | declaration isStart isInside noCall way =>
      exact .declaration isStart.small isInside noCall.small way.small

/-- The first piece of a text in small letters is the small form of its first piece. -/
theorem nextPiece_small (depth : Nat) (c : Char) (rest : List Char) :
    nextPiece depth c.toLower (small rest) = PieceCut.small (nextPiece depth c rest) :=
  (nextPiece_ways depth c rest).small.eq

/-- The pieces of a text in small letters are the pieces of the text, in small letters. -/
theorem pieces_small (depth : Nat) (text : List Char) :
    pieces depth (small text) = (pieces depth text).map Piece.small := by
  fun_induction pieces depth text with
  | case1 =>
      rw [small_nil, pieces]
      rfl
  | case2 depth c rest cut inductionHypothesis =>
      rw [small_cons, pieces, nextPiece_small]
      simp only [PieceCut.small, Piece.depthAfter_small, List.map_cons]
      rw [inductionHypothesis]

end QtSheet
