import QtSheet.Proofs.Quote

namespace QtSheet

/-!
# Values spelled anew

The text of a value is the texts of its tokens with a space between them,
whatever stood there before. Put into a block of its own, it is cut into the
tokens of the value again (`tokenize_valueText`): no token runs into the next
one, none falls apart, and none opens a comment. So two values with the same
text have the same tokens.
-/

open Text

/-- The kind and the text of a token, which is all but its place. -/
def Token.word (token : Token) : Kind × String :=
  (token.kind, token.text)

/-- The kind and the text of a piece that is a token. -/
def Piece.word? : Piece → Option (Kind × String)
  | .token kind text => some (kind, String.ofList text)
  | _ => none

namespace Joint

/-- Where no gap has been left open, a piece adds the token that it is. -/
theorem map_word_emitted
    {joint : Joint}
    (noGap : joint.gap? = none)
    (placed : PlacedPiece) :
    (joint.emitted placed).map Token.word = placed.piece.word?.toList := by
  obtain ⟨position, piece⟩ := placed
  have noCombinator (kind : Kind) : joint.combinator? kind = none := by
    rw [combinator?, noGap]
  cases piece with
  | token kind text =>
      simp only [emitted, noCombinator]
      rfl
  | _ =>
      rfl

/-- Inside of braces no piece leaves a gap open. -/
theorem gap?_next
    {joint : Joint}
    (isInside : joint.depth ≠ 0)
    (noGap : joint.gap? = none)
    (placed : PlacedPiece) :
    (joint.next placed).gap? = none := by
  obtain ⟨position, piece⟩ := placed
  cases piece with
  | gap text =>
      simpa only [next, if_neg isInside] using noGap
  | token kind text =>
      rfl
  | stray character =>
      rfl
  | unterminated construct text =>
      exact noGap

/-- Inside of braces, pieces that are no braces add the tokens that they are. -/
theorem map_word_tokens
    {joint : Joint}
    {parts : List Piece}
    (isInside : joint.depth ≠ 0)
    (noGap : joint.gap? = none)
    (noBraces : ∀ piece ∈ parts, piece.depthAfter joint.depth = joint.depth)
    (position : Position) :
    (joint.tokens (place position parts)).map Token.word = parts.filterMap Piece.word? := by
  induction parts generalizing joint position with
  | nil =>
      rfl
  | cons piece rest inductionHypothesis =>
      obtain ⟨noBrace, restBraces⟩ := List.forall_mem_cons.mp noBraces
      have sameDepth : (joint.next ⟨position, piece⟩).depth = joint.depth :=
        (joint.depth_next _).trans noBrace
      rw [place, tokens, List.map_append, map_word_emitted noGap,
        inductionHypothesis (sameDepth ▸ isInside) (gap?_next isInside noGap _)
          (sameDepth ▸ restBraces), List.filterMap_cons]
      cases piece.word? <;> rfl

end Joint

namespace Value

/--
The text of a token by itself is cut into this token inside of a block, and the
token is no brace.
-/
structure StandsAlone (token : Token) : Prop where
  text :
    ∃ c word,
      token.text.toList = c :: word ∧ nextPiece 1 c word = (.token token.kind (c :: word), [])
  depth : (Piece.token token.kind token.text.toList).depthAfter 1 = 1

/-- The pieces of some tokens with a space between them. -/
def spacedPieces : List Token → List Piece
  | [] => []
  | [token] => [.token token.kind token.text.toList]
  | first :: second :: rest =>
      .token first.kind first.text.toList :: .gap [' '] :: spacedPieces (second :: rest)

/-- The tokens among the pieces are those that the pieces are made of. -/
theorem filterMap_word?_spacedPieces (tokens : List Token) :
    (spacedPieces tokens).filterMap Piece.word? = tokens.map Token.word := by
  fun_induction spacedPieces tokens with
  | case1 =>
      rfl
  | case2 token =>
      simp [Piece.word?, Token.word]
  | case3 first second rest inductionHypothesis =>
      simp only [List.filterMap_cons, Piece.word?, inductionHypothesis, List.map_cons, Token.word,
        String.ofList_toList]

section Tokens

variable {tokens : List Token} (standAlone : ∀ token ∈ tokens, StandsAlone token)

include standAlone

/-- The pieces of spaced tokens are proper and leave the braces as they are. -/
theorem depthAfter_of_mem_spacedPieces :
    ∀ piece ∈ spacedPieces tokens, piece.depthAfter 1 = 1 ∧ piece.isProper = true := by
  fun_induction spacedPieces tokens with
  | case1 =>
      simp
  | case2 token =>
      simpa [Piece.isProper] using (standAlone token List.mem_cons_self).depth
  | case3 first second rest inductionHypothesis =>
      obtain ⟨firstAlone, restAlone⟩ := List.forall_mem_cons.mp standAlone
      refine List.forall_mem_cons.mpr ⟨⟨firstAlone.depth, rfl⟩, ?_⟩
      exact List.forall_mem_cons.mpr ⟨⟨rfl, rfl⟩, inductionHypothesis restAlone⟩

end Tokens

/-- A token that stands alone is cut off in front of what ends words. -/
theorem StandsAlone.pieces_append
    {token : Token}
    (isAlone : StandsAlone token)
    {behind : List Char}
    (ends : EndsWord behind) :
    pieces 1 (token.text.toList ++ behind) =
      .token token.kind token.text.toList :: pieces 1 behind := by
  obtain ⟨c, word, isText, found⟩ := isAlone.text
  have isDepth := isAlone.depth
  rw [isText] at isDepth ⊢
  have isNext : nextPiece 1 c (word ++ behind) = (.token token.kind (c :: word), behind) := by
    have nothingEnds : EndsWord [] := by
      simp [EndsWord]
    have isWhole : nextPiece 1 c (word ++ []) = (.token token.kind (c :: word), [] ++ []) := by
      simpa using found
    refine nextPiece_append nothingEnds ends isWhole rfl ?_
    intro isGap
    contradiction
  rw [List.cons_append, pieces, isNext, isDepth]

/-- A space is cut off in front of what is no layout. -/
theorem pieces_space
    {behind : List Char}
    (noLayout : ∀ c ∈ behind.head?, isLayout c = false) :
    pieces 1 (' ' :: behind) = .gap [' '] :: pieces 1 behind := by
  have isNext : nextPiece 1 ' ' behind = (.gap [' '], behind) := by
    rw [(NextPiece.blank rfl).eq]
    cases behind with
    | nil =>
        rfl
    | cons c rest =>
        simp [noLayout c rfl]
  rw [pieces, isNext]
  rfl

/-- Tokens that stand alone are found again where a space stands between them. -/
theorem pieces_joined
    {tokens : List Token}
    (standAlone : ∀ token ∈ tokens, StandsAlone token)
    {behind : List Char}
    (ends : EndsWord behind) :
    pieces 1 ((Token.joined tokens).toList ++ behind) = spacedPieces tokens ++ pieces 1 behind := by
  fun_induction spacedPieces tokens with
  | case1 =>
      rfl
  | case2 token =>
      rw [toList_joined_singleton, (standAlone token List.mem_cons_self).pieces_append ends]
      rfl
  | case3 first second rest inductionHypothesis =>
      obtain ⟨firstAlone, restAlone⟩ := List.forall_mem_cons.mp standAlone
      have secondAlone := restAlone second List.mem_cons_self
      obtain ⟨c, word, isText, found⟩ := secondAlone.text
      have secondBegins := beginsVisibly_of_nextPiece found
      rw [← isText] at secondBegins
      obtain ⟨begins, sameHead⟩ := beginsVisibly_joined secondBegins rest
      have noLayout :
          ∀ c ∈ ((Token.joined (second :: rest)).toList ++ behind).head?, isLayout c = false := by
        rw [List.head?_append_of_ne_nil _ begins.ne_nil]
        obtain ⟨first, others, isJoined, noLayout, _⟩ := begins
        simpa [isJoined] using noLayout
      rw [toList_joined_cons, List.append_assoc, List.cons_append,
        firstAlone.pieces_append (by simp [EndsWord, wordEnds]), pieces_space noLayout,
        inductionHypothesis restAlone]
      rfl

/-- A style sheet with one declaration, whose value is written in a given way. -/
def valueSheet (text : String) : String :=
  "x\x7bp:" ++ text ++ "\x7d"

/-- The pieces behind a name and a colon inside of a block are those of the value. -/
theorem pieces_openValue (behind : List Char) :
    pieces 1 ('p' :: ':' :: behind) =
      [.token .identifier ['p'], .token .propertySeparator [':']] ++ pieces 1 behind := by
  have isName : cutName? ('p' :: ':' :: behind) = some (['p'], ':' :: behind) := by
    have starts : isNameStart 'p' = true := by decide
    have stops : isNameCharacter ':' = false := by decide
    simp [cutName?, starts, cutWhile, stops, Cut.push]
  have namePiece :
      nextPiece 1 'p' (':' :: behind) = (.token .identifier ['p'], ':' :: behind) := by
    have isStart : IsWordStart 'p' (':' :: behind) :=
      ⟨by decide, by simp, by decide, by decide⟩
    have noCall : NoCall ('p' :: ':' :: behind) := by
      intro name inside isCall
      rw [isName] at isCall
      simp at isCall
    exact (NextPiece.declaration isStart (by decide) noCall (.name isName)).eq
  have colonPiece : nextPiece 1 ':' behind = (.token .propertySeparator [':'], behind) := by
    have noName : cutName? (':' :: behind) = none := by
      simp [cutName?, show isNameStart ':' = false by decide]
    have noNumber : cutNumber? (':' :: behind) = none := by
      simp [cutNumber?, cutNumeral?, cutSign, cutMagnitude?, cutWhile, cutFraction,
        show isDecimalDigit ':' = false by decide]
    have isStart : IsWordStart ':' behind := ⟨by decide, by simp, by decide, by decide⟩
    have noCall : NoCall (':' :: behind) := by
      intro name inside isCall
      rw [noName] at isCall
      contradiction
    exact (NextPiece.declaration isStart (by decide) noCall
      (.colon ⟨noName, noNumber, rfl⟩ rfl)).eq
  have colonPieces :
      pieces 1 (':' :: behind) = .token .propertySeparator [':'] :: pieces 1 behind := by
    rw [pieces, colonPiece]
    rfl
  rw [pieces, namePiece]
  exact congrArg _ colonPieces

/-- The pieces of the sheet are those of the value, with what stands around it. -/
theorem pieces_valueSheet
    {tokens : List Token}
    (standAlone : ∀ token ∈ tokens, StandsAlone token) :
    pieces 0 (valueSheet (Token.joined tokens)).toList =
      [.token .identifier ['x'], openingPiece] ++
        (([.token .identifier ['p'], .token .propertySeparator [':']] ++ spacedPieces tokens) ++
          [closingPiece]) := by
  have lastPieces : pieces 1 ['\x7d'] = [closingPiece] := by
    decide +kernel
  have isText :
      (valueSheet (Token.joined tokens)).toList =
        'x' :: '\x7b' :: 'p' :: ':' :: ((Token.joined tokens).toList ++ ['\x7d']) := by
    simp [valueSheet]
  rw [isText, pieces_openBlock, pieces_openValue,
    pieces_joined standAlone (by simp [EndsWord, wordEnds]), lastPieces, List.append_assoc]

/-- Every token of a value stands alone. -/
theorem standsAlone_of_mem_values
    {source : String}
    {sheet : Sheet}
    {declaration : Declaration}
    {value : Token}
    (isRead : Sheet.ofSource source = .ok sheet)
    (isDeclaration : declaration ∈ sheet.declarations)
    (member : value ∈ declaration.values) :
    StandsAlone value := by
  obtain ⟨isValue, isText⟩ := nextPiece_of_mem_values isRead isDeclaration member
  refine ⟨isText, ?_⟩
  cases isKind : value.kind <;> simp_all [Kind.isValue, Kind.separatesValues, Piece.depthAfter]

/-- Tokens that stand alone are all that is found in the value of the sheet. -/
theorem map_word_valueSheet
    {tokens : List Token}
    (standAlone : ∀ token ∈ tokens, StandsAlone token) :
    (tokenize (valueSheet (Token.joined tokens))).tokens.map Token.word =
      [(.identifier, "x"), (.openBrace, "\x7b"), (.identifier, "p"), (.propertySeparator, ":")] ++
        tokens.map Token.word ++ [(.closeBrace, "\x7d"), (.endOfInput, "")] := by
  let inside : List Piece :=
    [.token .identifier ['p'], .token .propertySeparator [':']] ++ spacedPieces tokens
  let block := Position.first.after ['x', '\x7b']
  have noBraces : ∀ piece ∈ inside, piece.depthAfter 1 = 1 := by
    refine List.forall_mem_append.mpr ⟨by simp [Piece.depthAfter], ?_⟩
    exact fun piece member => (depthAfter_of_mem_spacedPieces standAlone piece member).1
  have insideWords :
      ((⟨1, some .openBrace, none⟩ : Joint).tokens (place block inside)).map Token.word =
        [(.identifier, "p"), (.propertySeparator, ":")] ++ tokens.map Token.word := by
    rw [Joint.map_word_tokens (by decide) rfl noBraces, List.filterMap_append,
      filterMap_word?_spacedPieces]
    rfl
  have blockWords :
      ((⟨1, some .openBrace, none⟩ : Joint).tokens (place block (inside ++ [closingPiece]))).map
          Token.word =
        [(.identifier, "p"), (.propertySeparator, ":")] ++ tokens.map Token.word ++
          [(.closeBrace, "\x7d")] := by
    rw [place_append, Joint.tokens_append, List.map_append, insideWords]
    simp only [place, Joint.tokens, Joint.emitted_closingPiece]
    rfl
  have areTokens :
      Joint.first.tokens (placedPieces (valueSheet (Token.joined tokens)).toList) =
        [⟨.ofPosition Position.first ['x'], .identifier⟩,
            ⟨.ofPosition (Position.first.after ['x']) ['\x7b'], .openBrace⟩] ++
          (⟨1, some .openBrace, none⟩ : Joint).tokens (place block (inside ++ [closingPiece])) := by
    rw [placedPieces, pieces_valueSheet standAlone, place_append, Joint.tokens_append]
    rfl
  simp only [tokenize, areTokens, List.map_append, blockWords, List.append_assoc]
  rfl

end Value

open Value

/--
The text of a value in a block of its own has the tokens of the value again, and
nothing is found about its characters. So it is the text of no other value.
-/
theorem tokenize_valueText
    {source : String}
    {sheet : Sheet}
    {declaration : Declaration}
    (isRead : Sheet.ofSource source = .ok sheet)
    (isDeclaration : declaration ∈ sheet.declarations) :
    (tokenize (valueSheet declaration.valueText)).diagnostics = [] ∧
      (tokenize (valueSheet declaration.valueText)).tokens.map Token.word =
        [(.identifier, "x"), (.openBrace, "\x7b"), (.identifier, "p"), (.propertySeparator, ":")] ++
          declaration.values.map Token.word ++ [(.closeBrace, "\x7d"), (.endOfInput, "")] ∧
      ∀ (otherSource : String) (otherSheet : Sheet) (other : Declaration),
        Sheet.ofSource otherSource = .ok otherSheet →
        other ∈ otherSheet.declarations →
        other.valueText = declaration.valueText →
        other.values.map Token.word = declaration.values.map Token.word := by
  have standAlone : ∀ value ∈ declaration.values, StandsAlone value :=
    fun value => standsAlone_of_mem_values isRead isDeclaration
  have areWords := map_word_valueSheet standAlone
  refine ⟨?_, areWords, ?_⟩
  · rw [tokenize, placedPieces, Declaration.valueText, pieces_valueSheet standAlone,
      diagnostics_eq_nil_iff]
    refine List.forall_mem_append.mpr ⟨by decide, List.forall_mem_append.mpr ⟨?_, by decide⟩⟩
    refine List.forall_mem_append.mpr ⟨by decide, ?_⟩
    exact fun piece member => (depthAfter_of_mem_spacedPieces standAlone piece member).2
  · intro otherSource otherSheet other otherRead isOther sameText
    have othersAlone : ∀ value ∈ other.values, StandsAlone value :=
      fun value => standsAlone_of_mem_values otherRead isOther
    have otherWords := map_word_valueSheet othersAlone
    rw [← Declaration.valueText, sameText, Declaration.valueText, areWords] at otherWords
    exact (List.append_cancel_left (List.append_cancel_right otherWords)).symm

/-- Numbers that touch each other do not run together, and a comment before a slash stays away. -/
theorem tokenize_valueText_touching :
    let source := "a\x7bb:1.-2/**//\"\\\"\"f(')')\x7d"
    let values : List Token :=
      [⟨⟨"1.", 4, 2, 1, 5⟩, .number⟩, ⟨⟨"-2", 6, 2, 1, 7⟩, .number⟩, ⟨⟨"/", 12, 1, 1, 13⟩, .slash⟩,
        ⟨⟨"\"\\\"\"", 13, 4, 1, 14⟩, .string⟩, ⟨⟨"f(')')", 17, 6, 1, 18⟩, .function⟩]
    let declaration : Declaration :=
      ⟨"b", values, 2, 21, some ⟨⟨"b", 2, 1, 1, 3⟩, .identifier⟩, false⟩
    let sheet : Sheet :=
      ⟨[⟨[[⟨some "a", none, [], [], none, [], none, 0, 1⟩]], [declaration], 0, 24⟩]⟩
    Sheet.ofSource source = .ok sheet ∧
      declaration ∈ sheet.declarations ∧
      (tokenize "x\x7bp:1. -2 / \"\\\"\" f(')')\x7d").tokens.map Token.word =
        [(.identifier, "x"), (.openBrace, "\x7b"), (.identifier, "p"), (.propertySeparator, ":"),
          (.number, "1."), (.number, "-2"), (.slash, "/"), (.string, "\"\\\"\""),
          (.function, "f(')')"), (.closeBrace, "\x7d"), (.endOfInput, "")] := by
  intro source values declaration sheet
  have isRead : Sheet.ofSource source = .ok sheet := by
    decide +kernel
  have isDeclaration : declaration ∈ sheet.declarations := by
    simp [sheet, Sheet.declarations]
  have isText : valueSheet declaration.valueText = "x\x7bp:1. -2 / \"\\\"\" f(')')\x7d" := by
    decide +kernel
  obtain ⟨_, areWords, _⟩ := tokenize_valueText isRead isDeclaration
  rw [isText] at areWords
  exact ⟨isRead, isDeclaration, areWords⟩

end QtSheet
