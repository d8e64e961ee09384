import QtSheet.Piece

namespace QtSheet

/-!
# How pieces come about

The next piece of a text is found by one test after another. `NextPiece` lists
the ways in which it can come about, each with what is known of the text then;
a way determines the piece (`NextPiece.eq`), and there always is one
(`nextPiece_ways`). Words and signs have ways of their own, `SelectorPiece`
outside of all braces and `DeclarationPiece` inside of them. What holds of every
piece is proved for each way, so that the tests are looked at here only.
-/

open Text

namespace Piece

/-- Whether a piece is a gap. -/
def isGap : Piece → Bool
  | .gap _ => true
  | _ => false

/-- Whether a piece is a construct without its end. -/
def isUnterminated : Piece → Bool
  | .unterminated _ _ => true
  | _ => false

/-- A token or a stray character. -/
def IsPlain (piece : Piece) : Prop :=
  piece.isGap = false ∧ piece.isUnterminated = false

end Piece

/-- A text whose first piece depends on the number of open braces. -/
structure IsWordStart (c : Char) (rest : List Char) : Prop where
  noLayout : isLayout c = false
  noComment : c = '/' → rest.head? ≠ some '*'
  noQuote : ¬ (c = '"' ∨ c = '\x27')
  noMark : mark? c = none

/-- The name at the front of a text is not the beginning of a call. -/
def NoCall (text : List Char) : Prop :=
  ∀ name inside, cutName? text ≠ some (name, '(' :: inside)

/-- The name at the front of a text, if there is one, is a token by itself. -/
theorem wordPiece_of_cutName?
    {text : List Char}
    {name : Cut}
    (noCall : NoCall text)
    (isName : cutName? text = some name) :
    wordPiece name = tokenCut .identifier name := by
  fun_cases wordPiece name with
  | case1 inside shape _ _ _ =>
      exact absurd (by rw [isName, ← shape]) (noCall name.1 inside)
  | case2 inside shape _ _ =>
      exact absurd (by rw [isName, ← shape]) (noCall name.1 inside)
  | case3 =>
      rfl

/-- No pair of signs begins with a character. -/
def NoPair (c : Char) (rest : List Char) : Prop :=
  ∀ second ∈ rest.head?, selectorPair? c second = none

/-- The ways in which a piece comes about in selectors where no word begins. -/
inductive SignPiece
    (c : Char)
    (rest : List Char) :
    PieceCut → Prop where
  | pair
      {kind : Kind}
      {second : Char}
      {others : List Char} :
      rest = second :: others →
      selectorPair? c second = some kind →
      SignPiece c rest (.token kind [c, second], others)
  | single
      {kind : Kind} :
      NoPair c rest →
      selectorSign? c = some kind →
      SignPiece c rest (.token kind [c], rest)
  | stray :
      NoPair c rest →
      selectorSign? c = none →
      SignPiece c rest (.stray c, rest)

/-- There always is a way for a sign or a stray character. -/
theorem signPiece_ways (c : Char) (rest : List Char) :
    SignPiece c rest (signPiece c rest) := by
  unfold signPiece
  cases isPair : rest.head?.bind (selectorPair? c) with
  | some kind =>
      obtain ⟨second, isFirst, isKind⟩ := Option.bind_eq_some_iff.mp isPair
      obtain ⟨others, rfl⟩ := List.head?_eq_some_iff.mp isFirst
      exact .pair rfl isKind
  | none =>
      have noPair : NoPair c rest := Option.bind_eq_none_iff.mp isPair
      cases isSign : selectorSign? c with
      | some kind =>
          exact .single noPair isSign
      | none =>
          exact .stray noPair isSign

/-- A way determines the sign. -/
theorem SignPiece.eq
    {c : Char}
    {rest : List Char}
    {cut : PieceCut}
    (way : SignPiece c rest cut) :
    signPiece c rest = cut := by
  cases way with
  | pair shape isPair =>
      subst shape
      simp [signPiece, isPair]
  | single noPair isSign =>
      rw [signPiece, Option.bind_eq_none_iff.mpr noPair, isSign]
  | stray noPair noSign =>
      rw [signPiece, Option.bind_eq_none_iff.mpr noPair, noSign]

/-- The ways in which a piece comes about outside of all braces. -/
inductive SelectorPiece
    (c : Char)
    (rest : List Char) :
    PieceCut → Prop where
  | name
      {cut : Cut} :
      cutName? (c :: rest) = some cut →
      SelectorPiece c rest (.token .identifier cut.1, cut.2)
  | hash
      {cut : Cut} :
      cutName? (c :: rest) = none →
      cutHash? (c :: rest) = some cut →
      SelectorPiece c rest (.token .hash cut.1, cut.2)
  | number
      {cut : Cut} :
      cutName? (c :: rest) = none →
      cutHash? (c :: rest) = none →
      isDecimalDigit c = true →
      cutNumber? (c :: rest) = some cut →
      SelectorPiece c rest (.token .number cut.1, cut.2)
  | sign
      {cut : PieceCut} :
      cutName? (c :: rest) = none →
      cutHash? (c :: rest) = none →
      (isDecimalDigit c = true → cutNumber? (c :: rest) = none) →
      SignPiece c rest cut →
      SelectorPiece c rest cut

/-- There always is a way for a piece outside of all braces. -/
theorem selectorPiece_ways (c : Char) (rest : List Char) :
    SelectorPiece c rest (selectorPiece c rest) := by
  unfold selectorPiece
  cases isName : cutName? (c :: rest) with
  | some name =>
      exact .name isName
  | none =>
      cases isHash : cutHash? (c :: rest) with
      | some hash =>
          exact .hash isName isHash
      | none =>
          by_cases isDigit : isDecimalDigit c = true
          · rw [if_pos isDigit]
            cases isNumber : cutNumber? (c :: rest) with
            | some number =>
                exact .number isName isHash isDigit isNumber
            | none =>
                exact .sign isName isHash (fun _ => isNumber) (signPiece_ways c rest)
          · rw [if_neg isDigit]
            exact .sign isName isHash (fun digit => absurd digit isDigit) (signPiece_ways c rest)

/-- A way determines the piece outside of all braces. -/
theorem SelectorPiece.eq
    {c : Char}
    {rest : List Char}
    {cut : PieceCut}
    (way : SelectorPiece c rest cut) :
    selectorPiece c rest = cut := by
  cases way with
  | name isName =>
      rw [selectorPiece, isName]
      rfl
  | hash noName isHash =>
      rw [selectorPiece, noName, isHash]
      rfl
  | number noName noHash isDigit isNumber =>
      rw [selectorPiece, noName, noHash, if_pos isDigit, isNumber]
      rfl
  | sign noName noHash noNumber way =>
      by_cases isDigit : isDecimalDigit c = true
      · rw [selectorPiece, noName, noHash, if_pos isDigit, noNumber isDigit]
        exact way.eq
      · rw [selectorPiece, noName, noHash, if_neg isDigit]
        exact way.eq

/-- No word begins at the front of a text. -/
structure NoWord (text : List Char) : Prop where
  noName : cutName? text = none
  noNumber : cutNumber? text = none
  noHash : cutHash? text = none

/-- The ways in which a piece comes about inside of braces where no call begins. -/
inductive DeclarationPiece
    (c : Char)
    (rest : List Char) :
    PieceCut → Prop where
  | name
      {cut : Cut} :
      cutName? (c :: rest) = some cut →
      DeclarationPiece c rest (.token .identifier cut.1, cut.2)
  | number
      {cut : Cut} :
      cutName? (c :: rest) = none →
      cutNumber? (c :: rest) = some cut →
      DeclarationPiece c rest (.token .number cut.1, cut.2)
  | hash
      {cut : Cut} :
      cutName? (c :: rest) = none →
      cutNumber? (c :: rest) = none →
      cutHash? (c :: rest) = some cut →
      DeclarationPiece c rest (.token .color cut.1, cut.2)
  | colon :
      NoWord (c :: rest) →
      c = ':' →
      DeclarationPiece c rest (.token .propertySeparator [c], rest)
  | slash :
      NoWord (c :: rest) →
      c = '/' →
      DeclarationPiece c rest (.token .slash [c], rest)
  | stray :
      NoWord (c :: rest) →
      c ≠ ':' →
      c ≠ '/' →
      DeclarationPiece c rest (.stray c, rest)

/-- There always is a way for a piece inside of braces where no call begins. -/
theorem declarationPiece_ways
    {c : Char}
    {rest : List Char}
    (noCall : NoCall (c :: rest)) :
    DeclarationPiece c rest (declarationPiece c rest) := by
  unfold declarationPiece
  cases isName : cutName? (c :: rest) with
  | some name =>
      dsimp only
      rw [wordPiece_of_cutName? noCall isName]
      exact .name isName
  | none =>
      cases isNumber : cutNumber? (c :: rest) with
      | some number =>
          exact .number isName isNumber
      | none =>
          cases isHash : cutHash? (c :: rest) with
          | some hash =>
              exact .hash isName isNumber isHash
          | none =>
              have noWord : NoWord (c :: rest) := ⟨isName, isNumber, isHash⟩
              by_cases isColon : c = ':'
              · rw [if_pos isColon]
                exact .colon noWord isColon
              · rw [if_neg isColon]
                by_cases isSlash : c = '/'
                · rw [if_pos isSlash]
                  exact .slash noWord isSlash
                · rw [if_neg isSlash]
                  exact .stray noWord isColon isSlash

/-- A way determines the piece inside of braces where no call begins. -/
theorem DeclarationPiece.eq
    {c : Char}
    {rest : List Char}
    {cut : PieceCut}
    (noCall : NoCall (c :: rest))
    (way : DeclarationPiece c rest cut) :
    declarationPiece c rest = cut := by
  cases way with
  | name isName =>
      rw [declarationPiece, isName]
      exact wordPiece_of_cutName? noCall isName
  | number noName isNumber =>
      rw [declarationPiece, noName, isNumber]
      rfl
  | hash noName noNumber isHash =>
      rw [declarationPiece, noName, noNumber, isHash]
      rfl
  | colon noWord isColon =>
      rw [declarationPiece, noWord.noName, noWord.noNumber, noWord.noHash, if_pos isColon]
  | slash noWord isSlash =>
      have noColon : c ≠ ':' := by simp [isSlash]
      rw [declarationPiece, noWord.noName, noWord.noNumber, noWord.noHash, if_neg noColon,
        if_pos isSlash]
  | stray noWord noColon noSlash =>
      rw [declarationPiece, noWord.noName, noWord.noNumber, noWord.noHash, if_neg noColon,
        if_neg noSlash]

/-- The ways in which the next piece of a text comes about. -/
inductive NextPiece
    (depth : Nat)
    (c : Char)
    (rest : List Char) :
    PieceCut → Prop where
  | blank :
      isLayout c →
      NextPiece depth c rest
        (.gap (c :: rest.takeWhile isLayout), rest.dropWhile isLayout)
  | comment
      {inside : List Char}
      {cut : Cut} :
      c = '/' →
      rest = '*' :: inside →
      cutComment? inside = some cut →
      NextPiece depth c rest (.gap ('/' :: '*' :: cut.1), cut.2)
  | openComment
      {inside : List Char} :
      c = '/' →
      rest = '*' :: inside →
      cutComment? inside = none →
      NextPiece depth c rest (.unterminated .comment (c :: rest), [])
  | string
      {cut : Cut} :
      c = '"' ∨ c = '\x27' →
      cutString? c rest = some cut →
      NextPiece depth c rest (.token .string (c :: cut.1), cut.2)
  | openString :
      c = '"' ∨ c = '\x27' →
      cutString? c rest = none →
      NextPiece depth c rest (.unterminated .string (c :: rest), [])
  | mark
      {kind : Kind} :
      mark? c = some kind →
      NextPiece depth c rest (.token kind [c], rest)
  | selector
      {cut : PieceCut} :
      IsWordStart c rest →
      depth = 0 →
      SelectorPiece c rest cut →
      NextPiece depth c rest cut
  | call
      {name inside : List Char}
      {cut : Cut} :
      IsWordStart c rest →
      depth ≠ 0 →
      cutName? (c :: rest) = some (name, '(' :: inside) →
      cutCall? 0 none inside = some cut →
      NextPiece depth c rest
        (.token (if lowercase (String.ofList name) = "url" then .url else .function)
          (name ++ '(' :: cut.1), cut.2)
  | openCall
      {name inside : List Char} :
      IsWordStart c rest →
      depth ≠ 0 →
      cutName? (c :: rest) = some (name, '(' :: inside) →
      cutCall? 0 none inside = none →
      NextPiece depth c rest
        (.unterminated (if lowercase (String.ofList name) = "url" then .url else .functionCall)
          (name ++ '(' :: inside), [])
  | declaration
      {cut : PieceCut} :
      IsWordStart c rest →
      depth ≠ 0 →
      NoCall (c :: rest) →
      DeclarationPiece c rest cut →
      NextPiece depth c rest cut

/-- A comment begins where a star follows on a slash. -/
private theorem commentPiece?_eq_none
    {c : Char}
    {rest : List Char} :
    commentPiece? c rest = none ↔ (c = '/' → rest.head? ≠ some '*') := by
  by_cases opens : (c = '/' && rest.head? = some '*') = true
  · have isOpening : c = '/' ∧ rest.head? = some '*' := by simpa using opens
    rw [commentPiece?, if_pos opens]
    cases cutComment? (rest.drop 1) <;> simp [isOpening]
  · rw [commentPiece?, if_neg opens]
    simpa using opens

/-- The way of a comment, with or without its end. -/
private theorem NextPiece.of_commentPiece?
    {depth : Nat}
    {c : Char}
    {rest : List Char}
    {cut : PieceCut}
    (isComment : commentPiece? c rest = some cut) :
    NextPiece depth c rest cut := by
  have opens : c = '/' ∧ rest.head? = some '*' := by
    refine Decidable.byContradiction fun noComment => ?_
    rw [commentPiece?_eq_none.mpr (not_and.mp noComment)] at isComment
    contradiction
  obtain ⟨rfl, isStar⟩ := opens
  obtain ⟨inside, rfl⟩ := List.head?_eq_some_iff.mp isStar
  rw [commentPiece?, if_pos (by simp)] at isComment
  cases isEnd : cutComment? inside with
  | some comment =>
      rw [List.drop_one, List.tail_cons, isEnd] at isComment
      obtain rfl := Option.some.inj isComment
      exact .comment rfl rfl isEnd
  | none =>
      rw [List.drop_one, List.tail_cons, isEnd] at isComment
      obtain rfl := Option.some.inj isComment
      exact .openComment rfl rfl isEnd

/-- The way of a call, with or without its end. -/
private theorem NextPiece.of_call
    {depth : Nat}
    {c : Char}
    {rest : List Char}
    (isStart : IsWordStart c rest)
    (isInside : depth ≠ 0)
    (isCall : ¬ NoCall (c :: rest)) :
    NextPiece depth c rest (declarationPiece c rest) := by
  simp only [NoCall, ne_eq, Classical.not_forall, Classical.not_not] at isCall
  obtain ⟨name, inside, isName⟩ := isCall
  simp only [declarationPiece, isName, wordPiece]
  cases isEnd : cutCall? 0 none inside with
  | some call =>
      exact .call isStart isInside isName isEnd
  | none =>
      exact .openCall isStart isInside isName isEnd

/-- There always is a way for the next piece. -/
theorem nextPiece_ways (depth : Nat) (c : Char) (rest : List Char) :
    NextPiece depth c rest (nextPiece depth c rest) := by
  unfold nextPiece
  by_cases isBlank : isLayout c = true
  · rw [if_pos isBlank]
    exact .blank isBlank
  · rw [if_neg isBlank]
    cases isComment : commentPiece? c rest with
    | some cut =>
        exact .of_commentPiece? isComment
    | none =>
        by_cases isQuote : (c = '"' || c = '\x27') = true
        · have quote : c = '"' ∨ c = '\x27' := by simpa using isQuote
          rw [if_pos isQuote, stringPiece]
          cases isEnd : cutString? c rest with
          | some string =>
              exact .string quote isEnd
          | none =>
              exact .openString quote isEnd
        · rw [if_neg isQuote]
          cases isMark : mark? c with
          | some kind =>
              exact .mark isMark
          | none =>
              have isStart : IsWordStart c rest :=
                ⟨by simpa using isBlank, commentPiece?_eq_none.mp isComment,
                  by simpa using isQuote, isMark⟩
              by_cases isOutside : depth = 0
              · rw [if_pos isOutside]
                exact .selector isStart isOutside (selectorPiece_ways c rest)
              · rw [if_neg isOutside]
                by_cases noCall : NoCall (c :: rest)
                · exact .declaration isStart isOutside noCall (declarationPiece_ways noCall)
                · exact .of_call isStart isOutside noCall

private theorem nextPiece_of_isWordStart
    {c : Char}
    {rest : List Char}
    (isStart : IsWordStart c rest)
    (depth : Nat) :
    nextPiece depth c rest =
      if depth = 0 then selectorPiece c rest else declarationPiece c rest := by
  have noQuote : ¬ (c = '"' || c = '\x27') = true := by
    simpa using isStart.noQuote
  rw [nextPiece, isStart.noLayout, commentPiece?_eq_none.mpr isStart.noComment,
    isStart.noMark, if_neg noQuote]
  rfl

/-- A way determines the next piece. -/
theorem NextPiece.eq
    {depth : Nat}
    {c : Char}
    {rest : List Char}
    {cut : PieceCut}
    (way : NextPiece depth c rest cut) :
    nextPiece depth c rest = cut := by
  cases way with
  | blank isBlank =>
      rw [nextPiece, if_pos isBlank]
  | @comment inside cut isSlash shape closed =>
      subst isSlash shape
      have isComment :
          commentPiece? '/' ('*' :: inside) = some (.gap ('/' :: '*' :: cut.1), cut.2) := by
        simp [commentPiece?, closed]
      rw [nextPiece, isComment]
      rfl
  | @openComment inside isSlash shape stillOpen =>
      subst isSlash shape
      have isComment :
          commentPiece? '/' ('*' :: inside) =
            some (.unterminated .comment ('/' :: '*' :: inside), []) := by
        simp [commentPiece?, stillOpen]
      rw [nextPiece, isComment]
      rfl
  | string isQuote closed =>
      rcases isQuote with rfl | rfl
      · simp [nextPiece, isLayout, commentPiece?, stringPiece, closed]
      · simp [nextPiece, isLayout, commentPiece?, stringPiece, closed]
  | openString isQuote stillOpen =>
      rcases isQuote with rfl | rfl
      · simp [nextPiece, isLayout, commentPiece?, stringPiece, stillOpen]
      · simp [nextPiece, isLayout, commentPiece?, stringPiece, stillOpen]
  | mark isMark =>
      unfold mark? at isMark
      split at isMark
      all_goals first
        | contradiction
        | (cases isMark
           simp [nextPiece, isLayout, commentPiece?, mark?])
  | selector isStart outside way =>
      rw [nextPiece_of_isWordStart isStart, if_pos outside]
      exact way.eq
  | call isStart inside isName closed =>
      rw [nextPiece_of_isWordStart isStart, if_neg inside]
      simp [declarationPiece, isName, wordPiece, closed]
  | openCall isStart inside isName stillOpen =>
      rw [nextPiece_of_isWordStart isStart, if_neg inside]
      simp [declarationPiece, isName, wordPiece, stillOpen]
  | declaration isStart inside noCall way =>
      rw [nextPiece_of_isWordStart isStart, if_neg inside]
      exact way.eq noCall

/-- Outside of all braces stand tokens and stray characters. -/
theorem SelectorPiece.isPlain
    {c : Char}
    {rest : List Char}
    {cut : PieceCut}
    (way : SelectorPiece c rest cut) :
    cut.1.IsPlain := by
  cases way with
  | sign _ _ _ way =>
      cases way <;> exact ⟨rfl, rfl⟩
  | _ =>
      exact ⟨rfl, rfl⟩

/-- Inside of braces, too, stand tokens and stray characters when there is no call. -/
theorem DeclarationPiece.isPlain
    {c : Char}
    {rest : List Char}
    {cut : PieceCut}
    (way : DeclarationPiece c rest cut) :
    cut.1.IsPlain := by
  cases way <;> exact ⟨rfl, rfl⟩

/-- Nothing is left behind a construct without its end. -/
theorem rest_eq_nil_of_isUnterminated
    {depth : Nat}
    {c : Char}
    {rest : List Char}
    (unterminated : (nextPiece depth c rest).1.isUnterminated = true) :
    (nextPiece depth c rest).2 = [] := by
  have way := nextPiece_ways depth c rest
  generalize nextPiece depth c rest = cut at unterminated way ⊢
  cases way with
  | openComment =>
      rfl
  | openString =>
      rfl
  | openCall =>
      rfl
  | selector _ _ way =>
      rw [way.isPlain.2] at unterminated
      contradiction
  | declaration _ _ _ way =>
      rw [way.isPlain.2] at unterminated
      contradiction
  | _ =>
      contradiction

/-- Whether a kind is that of a mark, which is a token everywhere, or the end of the input. -/
def Kind.isMark : Kind → Bool
  | .openBrace | .closeBrace | .semicolon | .comma | .exclamation | .endOfInput => true
  | _ => false

/-- Whether a kind is that of signs, which are tokens in selectors. -/
def Kind.isSign : Kind → Bool
  | .dot | .colon | .doubleColon | .star | .combinator => true
  | .openBracket | .closeBracket | .attributeOperator => true
  | _ => false

/-- The characters that are marks. -/
def markKinds : List (Char × Kind) :=
  [('\x7b', .openBrace), ('\x7d', .closeBrace), (';', .semicolon), (',', .comma),
   ('!', .exclamation)]

/-- A mark is one of a few characters. -/
theorem mem_markKinds
    {c : Char}
    {kind : Kind}
    (isMark : mark? c = some kind) :
    (c, kind) ∈ markKinds := by
  unfold mark? at isMark
  split at isMark <;> cases isMark <;> simp [markKinds]

/-- The kind of a sign. -/
theorem isSign_of_selectorSign?
    {c : Char}
    {kind : Kind}
    (isSign : selectorSign? c = some kind) :
    kind.isSign = true := by
  unfold selectorSign? at isSign
  split at isSign <;> cases isSign <;> rfl

/-- The kind of a pair of signs. -/
theorem isSign_of_selectorPair?
    {first second : Char}
    {kind : Kind}
    (isPair : selectorPair? first second = some kind) :
    kind.isSign = true := by
  unfold selectorPair? at isPair
  split at isPair <;> cases isPair <;> rfl

/-- Where no word begins in a selector there are only tokens of signs. -/
theorem SignPiece.isSign
    {c : Char}
    {rest text after : List Char}
    {kind : Kind}
    (way : SignPiece c rest (.token kind text, after)) :
    kind.isSign = true := by
  cases way with
  | pair _ isPair =>
      exact isSign_of_selectorPair? isPair
  | single _ isSign =>
      exact isSign_of_selectorSign? isSign

/-- The kinds of the tokens outside of all braces. -/
theorem SelectorPiece.kind
    {c : Char}
    {rest text after : List Char}
    {kind : Kind}
    (way : SelectorPiece c rest (.token kind text, after)) :
    kind ∈ [.identifier, .hash, .number] ∨ kind.isSign = true := by
  cases way with
  | sign _ _ _ way =>
      exact .inr way.isSign
  | _ =>
      exact .inl (by simp)

/-- The kinds of the tokens inside of braces where no call begins. -/
theorem DeclarationPiece.kind
    {c : Char}
    {rest text after : List Char}
    {kind : Kind}
    (way : DeclarationPiece c rest (.token kind text, after)) :
    kind ∈ [.identifier, .number, .color, .propertySeparator, .slash] := by
  cases way <;> simp

/-- A token of the kind of a mark is the character of the mark. -/
theorem mark_of_nextPiece
    {depth : Nat}
    {c : Char}
    {rest after text : List Char}
    {kind : Kind}
    (found : nextPiece depth c rest = (.token kind text, after))
    (isMark : kind.isMark = true) :
    mark? c = some kind ∧ text = [c] := by
  have way := nextPiece_ways depth c rest
  rw [found] at way
  cases way with
  | mark isKind =>
      exact ⟨isKind, rfl⟩
  | string =>
      contradiction
  | selector _ _ way =>
      have isKind := way.kind
      cases kind <;> contradiction
  | declaration _ _ _ way =>
      have isKind := way.kind
      cases kind <;> contradiction
  | call =>
      split at isMark <;> contradiction

/-- A piece that is not the end of the input. -/
def Piece.NoEnd : Piece → Prop
  | .token kind _ => kind ≠ .endOfInput
  | _ => True

/-- No piece of a text is the end of the input. -/
theorem noEnd_nextPiece (depth : Nat) (c : Char) (rest : List Char) :
    (nextPiece depth c rest).1.NoEnd := by
  cases found : nextPiece depth c rest with
  | mk piece after =>
      cases piece with
      | token kind text =>
          rintro rfl
          obtain ⟨isMark, _⟩ := mark_of_nextPiece found rfl
          have member := mem_markKinds isMark
          simp [markKinds] at member
      | gap text =>
          trivial
      | stray character =>
          trivial
      | unterminated construct text =>
          trivial

end QtSheet
