import QtSheet.Proofs.Reread
import QtSheet.Proofs.Value.Spacing

namespace QtSheet

open Text

/-!
# The text of a value and the texts of its tokens

The text of a value is the texts of its tokens with a space between them. Its
terms are found without regard to the tokens, yet they are the terms of the
tokens, one token after another (`terms?_joined`): no term goes past the end of
its token. Where a string has an escaped mark of its own there are no terms in
the text at all, whatever stands behind the string.
-/

/--
The text of a token by itself is cut into this token, with as many braces open
as there are in front of the token.
-/
theorem nextPiece_of_tokens
    {source : List Char}
    {before behind : List Token}
    {token : Token}
    (split : Joint.first.tokens (placedPieces source) = before ++ token :: behind)
    (noCombinator : token.kind ≠ .combinator) :
    ∃ c word,
      token.text.toList = c :: word ∧
        nextPiece (braceDepth before) c word = (.token token.kind (c :: word), []) := by
  obtain ⟨front, text, back, isParts, isExcerpt, rfl⟩ :=
    Joint.exists_piece_of_tokens split noCombinator
  have isText : token.text.toList = text := by
    rw [isExcerpt]
    exact String.toList_ofList
  have isDepth :
      braceDepth
          (Joint.first.tokens (place Position.first front) ++
            ((Joint.first.afterAll (place Position.first front)).combinator? token.kind).toList) =
        depthAfter 0 front := by
    rw [braceDepth, List.foldl_append, Joint.foldl_combinator?]
    exact (Joint.foldl_tokens _ _).trans (Joint.depth_afterAll Joint.first _ _)
  have whole : source = front.flatMap Piece.text ++ (text ++ back.flatMap Piece.text) := by
    rw [← text_pieces 0 source, isParts, List.flatMap_append, List.flatMap_cons]
    rfl
  have isCut := (eq_pieces_of_append isParts whole).symm
  -- The piece stays what it is when nothing follows it.
  have isAlone :
      pieces (depthAfter 0 front) ((Piece.token token.kind text).text ++ []) =
        [.token token.kind text] := by
    have isFront :
        pieces (depthAfter 0 front)
            ([Piece.token token.kind text].flatMap Piece.text ++ back.flatMap Piece.text) =
          [.token token.kind text] ++ back := by
      rw [List.flatMap_singleton]
      exact isCut
    have isClosed : ∀ piece ∈ [Piece.token token.kind text], piece.isUnterminated = false := by
      simp [Piece.isUnterminated]
    simpa [Piece.text] using pieces_flatMap_text isFront isClosed
  rw [← isDepth] at isAlone
  obtain ⟨c, word, rfl, found, _⟩ := exists_nextPiece_of_pieces isAlone
  exact ⟨c, word, isText, by simpa using found⟩

namespace Grammar

/-- Every token of a value is a value itself, or it separates values. -/
theorem ValuesForm.isValue_or_separatesValues
    {values : List Token}
    {value : Token}
    (form : ValuesForm values)
    (member : value ∈ values) :
    value.kind.isValue = true ∨ value.kind.separatesValues = true := by
  induction form with
  | last isValue =>
      obtain rfl := List.mem_singleton.mp member
      exact .inl isValue
  | next isValue _ inductionHypothesis =>
      rcases List.mem_cons.mp member with rfl | later
      · exact .inl isValue
      · exact inductionHypothesis later
  | separated isValue isSeparator _ inductionHypothesis =>
      rcases List.mem_cons.mp member with rfl | behind
      · exact .inl isValue
      · rcases List.mem_cons.mp behind with rfl | later
        · exact .inr (by rcases isSeparator with same | same <;> rw [same] <;> rfl)
        · exact inductionHypothesis later

end Grammar

namespace Value

open Grammar

/-- The text of a token of a value. -/
inductive ValueText : Kind → List Char → Prop where
  | identifier
      {text : List Char} :
      cutName? text = some (text, []) →
      ValueText .identifier text
  | number
      {text : List Char} :
      cutNumber? text = some (text, []) →
      ValueText .number text
  | color
      {text : List Char} :
      cutHash? text = some (text, []) →
      ValueText .color text
  | comma :
      ValueText .comma [',']
  | slash :
      ValueText .slash ['/']
  | string
      {mark : Char}
      {body : List Char} :
      mark ∈ quotes →
      cutString? mark body = some (body, []) →
      ValueText .string (mark :: body)
  | call
      {kind : Kind}
      {name body : List Char} :
      kind = .function ∨ kind = .url →
      cutName? name = some (name, []) →
      cutCall? 0 none body = some (body, []) →
      ValueText kind (name ++ '(' :: body)

/-- A token of a value inside of braces has the text of a token of a value. -/
theorem ValueText.of_nextPiece
    {depth : Nat}
    {kind : Kind}
    {c : Char}
    {word : List Char}
    (isInside : depth ≠ 0)
    (isValue : kind.isValue = true ∨ kind.separatesValues = true)
    (found : nextPiece depth c word = (.token kind (c :: word), [])) :
    ValueText kind (c :: word) := by
  have way := nextPiece_ways depth c word
  rw [found] at way
  generalize isText : c :: word = text at way ⊢
  generalize isEnd : ([] : List Char) = after at way
  cases way with
  | @string cut isQuote isString =>
      obtain ⟨_, rfl⟩ := List.cons.inj isText
      exact .string (by simpa [quotes] using isQuote) (isString.trans (by rw [isEnd]))
  | mark isMark =>
      have member := mem_markKinds isMark
      simp only [markKinds, List.mem_cons, Prod.mk.injEq, List.not_mem_nil, or_false] at member
      rcases member with ⟨rfl, rfl⟩ | ⟨rfl, rfl⟩ | ⟨rfl, rfl⟩ | ⟨rfl, rfl⟩ | ⟨rfl, rfl⟩
      all_goals first
        | exact .comma
        | simp [Kind.isValue, Kind.separatesValues] at isValue
  | @call name inside cut isStart _ isName isCall =>
      have isInsideCall : cut.1 ++ cut.2 = inside := whole_of_cutCall? isCall
      rw [← isEnd, List.append_nil] at isInsideCall
      rw [isText, ← isInsideCall] at isName
      rw [← isInsideCall] at isCall
      refine .call ?_ (cutName?_truncate isName) (isCall.trans ?_)
      · by_cases isUrl : lowercase (String.ofList name) = "url"
        · exact .inr (if_pos isUrl)
        · exact .inl (if_neg isUrl)
      · exact congrArg some (Prod.ext rfl isEnd.symm)
  | declaration _ _ _ way =>
      cases way with
      | name isName =>
          rw [← isText]
          exact .identifier (by rw [isName, isText, isEnd])
      | number _ isNumber =>
          rw [← isText]
          exact .number (by rw [isNumber, isText, isEnd])
      | hash _ _ isHash =>
          rw [← isText]
          exact .color (by rw [isHash, isText, isEnd])
      | colon =>
          simp [Kind.isValue, Kind.separatesValues] at isValue
      | slash _ isSlash =>
          exact isSlash ▸ .slash
  | selector _ isOutside =>
      exact absurd isOutside isInside

/--
The text of a token of a value by itself is cut into this token, inside of the
braces of a rule.
-/
theorem nextPiece_of_mem_values
    {source : String}
    {sheet : Sheet}
    {declaration : Declaration}
    {value : Token}
    (isRead : Sheet.ofSource source = .ok sheet)
    (isDeclaration : declaration ∈ sheet.declarations)
    (member : value ∈ declaration.values) :
    (value.kind.isValue = true ∨ value.kind.separatesValues = true) ∧
      ∃ c word,
        value.text.toList = c :: word ∧
          nextPiece 1 c word = (.token value.kind (c :: word), []) := by
  obtain ⟨_, form⟩ := ofSource_eq_ok.mp isRead
  obtain ⟨rule, isRule, inRule⟩ := List.mem_flatMap.mp isDeclaration
  obtain ⟨before, own, behind, _, split, beforeForm, ruleForm⟩ := form.exists_rule isRule
  cases ruleForm with
  | @intro group block _ opening closing _ _ groupForm _ isOpening blockForm _ =>
      obtain ⟨leading, mine, trailing, rfl, declarationForm⟩ := blockForm.exists_declaration inRule
      cases declarationForm with
      | @intro name colon last values importance _ _ _ valuesForm _ _ =>
          have isValue := valuesForm.isValue_or_separatesValues member
          obtain ⟨earlier, later, isValues⟩ := List.append_of_mem member
          obtain rfl : values = earlier ++ value :: later := isValues
          have insideAvoids : Avoids braces (leading ++ name :: colon :: earlier) := by
            intro token isToken
            refine blockForm.avoids token ?_
            simp only [List.mem_append, List.mem_cons] at isToken ⊢
            tauto
          have isDepth := beforeForm.braceDepth_inside groupForm isOpening insideAvoids
          have splitValue :
              Joint.first.tokens (placedPieces source.toList) =
                (before ++ (group ++ opening :: (leading ++ name :: colon :: earlier))) ++
                  value :: (later ++ (importance ++ (trailing ++ ([closing] ++ behind)))) := by
            simpa using split
          have noCombinator : value.kind ≠ .combinator := by
            intro isCombinator
            rw [isCombinator] at isValue
            simp [Kind.isValue, Kind.separatesValues] at isValue
          have found := nextPiece_of_tokens splitValue noCombinator
          rw [isDepth] at found
          exact ⟨isValue, found⟩

/-- The values of a declaration have texts of tokens of values. -/
theorem valueText_of_mem
    {source : String}
    {sheet : Sheet}
    {declaration : Declaration}
    {value : Token}
    (isRead : Sheet.ofSource source = .ok sheet)
    (isDeclaration : declaration ∈ sheet.declarations)
    (member : value ∈ declaration.values) :
    ValueText value.kind value.text.toList := by
  obtain ⟨isValue, c, word, isText, found⟩ := nextPiece_of_mem_values isRead isDeclaration member
  rw [isText]
  exact .of_nextPiece (by decide) isValue found

/-- What has terms leads from the outside of all marks to their outside. -/
theorem run_of_terms?
    {text : List Char}
    (someTerms : terms? text ≠ none) :
    Quotation.outside.run text = some .outside := by
  fun_induction terms? text with
  | case1 =>
      rfl
  | case2 c rest layout inductionHypothesis =>
      have isOutside : Quotation.outside.next c = some .outside := by
        simp only [isLayout, Bool.or_eq_true, beq_iff_eq] at layout
        rcases layout with (((rfl | rfl) | rfl) | rfl) | rfl <;> rfl
      rw [Quotation.run_cons, isOutside]
      exact inductionHypothesis someTerms
  | case3 =>
      contradiction
  | case4 c rest notLayout term after isTerm inductionHypothesis =>
      obtain ⟨own, isText, extent⟩ := exists_own_of_cutTerm? isTerm
      rw [← isText, Quotation.run_append, extent.run_eq]
      exact inductionHypothesis (by simpa using someTerms)

/-- What begins a name may go on with one. -/
theorem isNameCharacter_of_isNameStart
    {c : Char}
    (starts : isNameStart c = true) :
    isNameCharacter c = true := by
  simp only [isNameStart, Bool.and_eq_true] at starts
  simp [isNameCharacter, starts.1]

/-- The characters of a name are those with which a name may go on. -/
theorem isNameCharacter_of_cutName?
    {text : List Char}
    {cut : Cut}
    (found : cutName? text = some cut) :
    ∀ c ∈ cut.1, isNameCharacter c = true := by
  obtain ⟨hyphen, first, rest, isHyphen, starts, rfl, rfl⟩ := cutName?_eq_some_iff.mp found
  refine List.forall_mem_append.mpr ⟨?_, List.forall_mem_cons.mpr ⟨?_, ?_⟩⟩
  · intro c member
    rcases isHyphen with rfl | rfl
    · cases member
    · obtain rfl := List.mem_singleton.mp member
      decide
  · exact isNameCharacter_of_isNameStart starts
  · exact List.all_eq_true.mp List.all_takeWhile

theorem seamless_of_names
    {text : List Char}
    (areNames : ∀ c ∈ text, isNameCharacter c = true) :
    Seamless text :=
  .of_class (by decide) areNames

/-- A hash has no seams. -/
theorem seamless_of_cutHash?
    {text : List Char}
    {cut : Cut}
    (found : cutHash? text = some cut) :
    Seamless cut.1 := by
  obtain ⟨first, rest, isName, rfl, rfl⟩ := cutHash?_eq_some_iff.mp found
  have hash : Seamless ['#'] := by simp [Seamless, seams]
  refine hash.append (seamless_of_names ?_)
  exact List.forall_mem_cons.mpr ⟨isName, List.all_eq_true.mp List.all_takeWhile⟩

/-- A unit is made of name characters, or it is the percent sign. -/
theorem isNameCharacter_of_cutUnit (text : List Char) :
    ∀ c ∈ (cutUnit text).1, isNameCharacter c = true ∨ c = '%' := by
  fun_cases cutUnit text with
  | case1 rest =>
      simp
  | case2 first rest notPercent starts =>
      refine List.forall_mem_cons.mpr ⟨.inl (isNameCharacter_of_isNameStart starts), ?_⟩
      exact fun c member => .inl (List.all_eq_true.mp List.all_takeWhile c member)
  | case3 =>
      simp
  | case4 =>
      simp

/-- A number has no seams. -/
theorem seamless_of_cutNumber?
    {text : List Char}
    {cut : Cut}
    (found : cutNumber? text = some cut) :
    Seamless cut.1 := by
  obtain ⟨numeral, isNumeral, rfl⟩ := Option.map_eq_some_iff.mp found
  have noSeam : seams.all (fun seam => !(isNameCharacter seam || seam == '%')) = true := by decide
  refine (seamless_of_cutNumeral? isNumeral).append (.of_class noSeam fun c member => ?_)
  simpa using isNameCharacter_of_cutUnit numeral.2 c member

/-- What a token of a value looks like: a word without seams, a string or a call. -/
theorem ValueText.cases
    {kind : Kind}
    {text : List Char}
    (valueText : ValueText kind text) :
    Seamless text ∨
      (∃ mark body, text = mark :: body ∧ mark ∈ quotes ∧ cutString? mark body = some (body, [])) ∨
      ∃ name body, text = name ++ '(' :: body ∧ Seamless name ∧
        cutCall? 0 none body = some (body, []) := by
  cases valueText with
  | identifier isName =>
      exact .inl (seamless_of_names (isNameCharacter_of_cutName? isName))
  | number isNumber =>
      exact .inl (seamless_of_cutNumber? isNumber)
  | color isHash =>
      exact .inl (seamless_of_cutHash? isHash)
  | comma =>
      exact .inl (by simp [Seamless, seams])
  | slash =>
      exact .inl (by simp [Seamless, seams])
  | string isMark isString =>
      exact .inr (.inl ⟨_, _, rfl, isMark, isString⟩)
  | call _ isName isCall =>
      exact .inr (.inr ⟨_, _, rfl, seamless_of_names (isNameCharacter_of_cutName? isName), isCall⟩)

/-- A string ends with its mark. -/
theorem getLast?_of_cutString?
    {mark : Char}
    {text : List Char}
    {cut : Cut}
    (found : cutString? mark text = some cut) :
    cut.1.getLast? = some mark := by
  fun_induction cutString? mark text generalizing cut with
  | case1 =>
      contradiction
  | case2 =>
      contradiction
  | case3 next rest inductionHypothesis =>
      obtain ⟨tail, isTail, rfl⟩ := Option.map_eq_some_iff.mp found
      simp [Cut.push, List.getLast?_cons, inductionHypothesis isTail]
  | case4 rest notSlash =>
      obtain rfl := Option.some.inj found
      rfl
  | case5 c rest notSlash notSame inductionHypothesis =>
      obtain ⟨tail, isTail, rfl⟩ := Option.map_eq_some_iff.mp found
      simp [Cut.push, List.getLast?_cons, inductionHypothesis isTail]

/-- A call ends with a parenthesis. -/
theorem getLast?_of_cutCall?
    {nested : Nat}
    {mark? : Option Char}
    {text : List Char}
    {cut : Cut}
    (found : cutCall? nested mark? text = some cut) :
    cut.1.getLast? = some ')' := by
  -- A character in front of the call is not its last one.
  have lastOfPush :
      ∀ {c : Char} {cut? : Option Cut} {cut : Cut},
        (∀ {behind : Cut}, cut? = some behind → behind.1.getLast? = some ')') →
          cut?.map (Cut.push c) = some cut → cut.1.getLast? = some ')' := by
    intro c cut? cut lastBehind found
    obtain ⟨behind, isBehind, rfl⟩ := Option.map_eq_some_iff.mp found
    simp [Cut.push, List.getLast?_cons, lastBehind isBehind]
  fun_induction cutCall? nested mark? text generalizing cut with
  | case1 =>
      contradiction
  | case2 nested mark c rest inductionHypothesis =>
      exact lastOfPush inductionHypothesis found
  | case3 nested c rest isMark inductionHypothesis =>
      exact lastOfPush inductionHypothesis found
  | case4 nested rest noMark inductionHypothesis =>
      exact lastOfPush inductionHypothesis found
  | case5 rest =>
      obtain rfl := Option.some.inj found
      rfl
  | case6 rest nested noMark notOpen inductionHypothesis =>
      exact lastOfPush inductionHypothesis found
  | case7 nested c rest noMark notOpen notClose inductionHypothesis =>
      exact lastOfPush inductionHypothesis found

/-- A string without marks of its own inside is one term. -/
theorem terms?_of_cutString?
    {mark : Char}
    {body : List Char}
    (isMark : mark ∈ quotes)
    (isString : cutString? mark body = some (body, []))
    (noMark : mark ∉ body.dropLast) :
    terms? (mark :: body) = some [.string] := by
  have isBody : body = body.dropLast ++ [mark] :=
    (List.dropLast_append_getLast? mark (getLast?_of_cutString? isString)).symm
  have isTerm : cutTerm? mark body = some (.string, []) := by
    rw [isBody]
    have isQuoted := afterQuoted?_append noMark []
    simp only [quotes, List.mem_cons, List.not_mem_nil, or_false] at isMark
    rcases isMark with rfl | rfl <;> simp [cutTerm?, sign?, isQuoted]
  have notLayout : isLayout mark = false := by
    simp only [quotes, List.mem_cons, List.not_mem_nil, or_false] at isMark
    rcases isMark with rfl | rfl <;> rfl
  rw [terms?_of_cutTerm? notLayout isTerm, terms?]
  rfl

/-- Where a mark is open in front of a token of a value, one is open behind it. -/
theorem ValueText.mark?_ne_none
    {kind : Kind}
    {text : List Char}
    {quotation after : Quotation}
    (valueText : ValueText kind text)
    (areQuote : IsQuote quotation.mark?)
    (isOpen : quotation.mark? ≠ none)
    (leads : quotation.run text = some after) :
    after.mark? ≠ none := by
  obtain ⟨mark, rfl⟩ : ∃ mark, quotation = .within mark := by
    cases quotation <;> simp_all [Quotation.mark?]
  have areSeams : ∀ mark ∈ quotes, mark ∈ seams := by simp [quotes, seams]
  have noMark : ∀ {text : List Char}, Seamless text → mark ∉ text :=
    fun seamless member => seamless mark member (areSeams mark (areQuote mark rfl))
  rcases valueText.cases with
    seamless | ⟨own, body, rfl, isOwn, isString⟩ | ⟨name, body, rfl, nameSeamless, isCall⟩
  · rw [Quotation.run_within (noMark seamless)] at leads
    obtain rfl := Option.some.inj leads
    exact isOpen
  · rw [Quotation.run_cons] at leads
    obtain ⟨middle, isNext, further⟩ := Option.bind_eq_some_iff.mp leads
    have isToggled := mark?_of_next isNext
    refine mark?_ne_none_of_cutString? isOwn isString ?_ ?_ further
    · rw [isToggled]
      exact isQuote_toggle areQuote own
    · -- The first mark of the string closes the open one, or it leaves another one open.
      rw [isToggled]
      by_cases isSame : own = mark
      · simp [Quotation.mark?, toggle, isSame]
      · simp [Quotation.mark?, toggle, isSame, Ne.symm isSame]
  · rw [Quotation.run_append, Quotation.run_within (noMark nameSeamless), Option.bind_some,
      Quotation.run_cons] at leads
    obtain ⟨middle, isNext, further⟩ := Option.bind_eq_some_iff.mp leads
    have isToggled := mark?_of_next isNext
    have middleIsQuote : IsQuote middle.mark? := isToggled ▸ isQuote_toggle areQuote '('
    have notMark : '(' ≠ mark := by
      rintro rfl
      exact absurd (areQuote _ rfl) (by decide)
    rw [ne_eq, run_cutCall? isCall isQuote_none middleIsQuote further, isToggled]
    simp [Quotation.mark?, toggle, notMark]

/-- The terms of a token, a space and more are those of the token and of the rest. -/
theorem ValueText.terms?_append
    {kind : Kind}
    {text : List Char}
    {after : Quotation}
    (valueText : ValueText kind text)
    (leads : Quotation.outside.run text = some after)
    (notOpen : after.mark? = none)
    (behind : List Char) :
    terms? (text ++ ' ' :: behind) =
      (terms? text).bind fun terms => (terms? behind).map (terms ++ ·) := by
  rcases valueText.cases with
    seamless | ⟨mark, body, rfl, isMark, isString⟩ | ⟨name, body, rfl, nameSeamless, isCall⟩
  · refine Sealed.terms?_append ⟨⟨after, leads, notOpen⟩, ?_⟩ behind
    exact fun isOpen => absurd (by decide) (seamless '(' isOpen)
  · have isInside : (Quotation.within mark).run body = some after := by
      simpa [Quotation.next, isMark] using leads
    have noMark := not_mem_of_cutString? isMark isString isInside notOpen
    have isOne := terms?_of_cutString? isMark isString noMark
    rw [terms?_append_space isOne, isOne]
    rfl
  · refine Sealed.terms?_append ⟨⟨after, leads, notOpen⟩, ?_⟩ behind
    have isLast := getLast?_of_cutCall? isCall
    simp [List.getLast?_append, List.getLast?_cons, show body.getLast? = some ')' from isLast]

theorem toList_joined_singleton (token : Token) :
    (Token.joined [token]).toList = token.text.toList := by
  rw [Token.joined, String.toList_intercalate]
  exact List.intercalate_singleton

/-- Tokens are joined with spaces. -/
theorem toList_joined_cons (first second : Token) (rest : List Token) :
    (Token.joined (first :: second :: rest)).toList =
      first.text.toList ++ ' ' :: (Token.joined (second :: rest)).toList := by
  simp only [Token.joined, String.toList_intercalate, List.map_cons, List.intercalate_cons_cons,
    List.append_assoc]
  rfl

/-- A token has the text of a token of a value. -/
def IsValue (token : Token) : Prop :=
  ValueText token.kind token.text.toList

/-- Where a mark is open in front of tokens of a value, one is open behind them. -/
theorem mark?_ne_none_of_joined
    {tokens : List Token}
    {quotation after : Quotation}
    (areValues : ∀ token ∈ tokens, IsValue token)
    (areQuote : IsQuote quotation.mark?)
    (isOpen : quotation.mark? ≠ none)
    (leads : quotation.run (Token.joined tokens).toList = some after) :
    after.mark? ≠ none := by
  induction tokens generalizing quotation with
  | nil =>
      obtain rfl := Option.some.inj leads
      exact isOpen
  | cons first rest inductionHypothesis =>
      obtain ⟨isValue, restValues⟩ := List.forall_mem_cons.mp areValues
      cases rest with
      | nil =>
          rw [toList_joined_singleton] at leads
          exact isValue.mark?_ne_none areQuote isOpen leads
      | cons second others =>
          rw [toList_joined_cons, Quotation.run_append] at leads
          obtain ⟨middle, isFirst, further⟩ := Option.bind_eq_some_iff.mp leads
          have middleIsQuote := isQuote_run areQuote isFirst
          have middleIsOpen := isValue.mark?_ne_none areQuote isOpen isFirst
          rw [Quotation.run_cons, next_space middleIsQuote middleIsOpen] at further
          exact inductionHypothesis restValues middleIsQuote middleIsOpen further

/-- The terms of a value are the terms of its tokens. -/
theorem terms?_joined
    {tokens : List Token}
    (areValues : ∀ token ∈ tokens, IsValue token) :
    terms? (Token.joined tokens).toList =
      (tokens.mapM fun token => terms? token.text.toList).map List.flatten := by
  induction tokens with
  | nil =>
      exact show terms? [] = some [] by rw [terms?]
  | cons first rest inductionHypothesis =>
      obtain ⟨isValue, restValues⟩ := List.forall_mem_cons.mp areValues
      have areRest := inductionHypothesis restValues
      cases rest with
      | nil =>
          rw [toList_joined_singleton, List.mapM_cons, List.mapM_nil]
          cases terms? first.text.toList <;> simp
      | cons second others =>
          rw [toList_joined_cons, List.mapM_cons]
          by_cases isClosed :
              ∃ after, Quotation.outside.run first.text.toList = some after ∧ after.mark? = none
          · obtain ⟨after, leads, notOpen⟩ := isClosed
            rw [isValue.terms?_append leads notOpen, areRest]
            cases terms? first.text.toList with
            | none =>
                rfl
            | some terms =>
                cases (second :: others).mapM fun token => terms? token.text.toList <;> rfl
          · -- Neither the token nor the whole text leads to the outside of all marks.
            have noTerms : terms? first.text.toList = none := by
              refine Decidable.byContradiction fun someTerms => isClosed ?_
              exact ⟨.outside, run_of_terms? someTerms, rfl⟩
            rw [noTerms]
            refine Decidable.byContradiction fun someTerms => ?_
            have leads := run_of_terms? someTerms
            rw [Quotation.run_append] at leads
            obtain ⟨middle, isFirst, further⟩ := Option.bind_eq_some_iff.mp leads
            have middleIsQuote : IsQuote middle.mark? := isQuote_run isQuote_outside isFirst
            have middleIsOpen : middle.mark? ≠ none :=
              fun notOpen => isClosed ⟨middle, isFirst, notOpen⟩
            rw [Quotation.run_cons, next_space middleIsQuote middleIsOpen] at further
            exact mark?_ne_none_of_joined restValues middleIsQuote middleIsOpen further rfl

end Value

end QtSheet
