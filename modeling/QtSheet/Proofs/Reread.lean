import QtSheet.Proofs.Acceptance
import QtSheet.Proofs.Span

namespace QtSheet

/-!
# Parts of a sheet read by themselves

The characters of a rule are a style sheet with this rule alone. The characters
of a selector are one with an empty block behind them, and those of a
declaration inside of a block; what is read then is the selector or declaration,
at another place (`ofSource_slice`).
-/

open Grammar Text

/-- Tokens that begin and end with no combinator are those of the span that they bound. -/
theorem exists_segment_of_bounds
    {source : String}
    {before own behind : List Token}
    {span : Span}
    (split : Joint.first.tokens (placedPieces source.toList) = before ++ (own ++ behind))
    (bounds : span.Bounds own)
    (firstNoCombinator : ∀ token ∈ own.head?, token.kind ≠ .combinator)
    (lastNoCombinator : ∀ token ∈ own.getLast?, token.kind ≠ .combinator) :
    ∃ front,
      span.start = front.length ∧
        IsSegment source.toList (braceDepth before) front (span.slice source).toList own := by
  obtain ⟨⟨first, isFirst, isStart⟩, ⟨last, isLast, isStop⟩⟩ := bounds
  obtain ⟨front, middle, firstStart, lastStop, segment⟩ :=
    exists_segment split isFirst isLast (firstNoCombinator first isFirst)
      (lastNoCombinator last isLast)
  obtain ⟨rest, whole⟩ := segment.isPart
  have isLength : (span.stop - span.start).toNat = middle.length := by
    omega
  have isMiddle : (span.slice source).toList = middle := by
    rw [Span.slice, String.toList_ofList, isLength, isStart, firstStart, ← whole,
      List.append_assoc, Int.toNat_natCast, List.drop_left, List.take_left]
  rw [isMiddle]
  exact ⟨front, isStart.trans firstStart, segment⟩

/-- The piece of an opening brace. -/
def openingPiece : Piece :=
  .token .openBrace ['\x7b']

namespace Joint

/-- A token that no selector begins with is all that its piece adds. -/
private theorem emitted_eq_singleton
    {kind : Kind}
    (noStart : kind.startsSelector = false)
    (joint : Joint)
    (position : Position)
    (text : List Char) :
    joint.emitted ⟨position, .token kind text⟩ = [⟨.ofPosition position text, kind⟩] := by
  have noCombinator : joint.combinator? kind = none := by
    rw [combinator?_eq, noStart]
    rfl
  simp only [emitted, noCombinator]
  rfl

@[simp] theorem emitted_openingPiece (joint : Joint) (position : Position) :
    joint.emitted ⟨position, openingPiece⟩ = [⟨.ofPosition position ['\x7b'], .openBrace⟩] :=
  emitted_eq_singleton rfl joint position ['\x7b']

@[simp] theorem emitted_closingPiece (joint : Joint) (position : Position) :
    joint.emitted ⟨position, closingPiece⟩ = [⟨.ofPosition position ['\x7d'], .closeBrace⟩] :=
  emitted_eq_singleton rfl joint position ['\x7d']

end Joint

/-- A mark ends words and is no layout. -/
theorem endsWord_of_mark?
    {c : Char}
    (isMark : (mark? c).isSome)
    (behind : List Char) :
    EndsWord (c :: behind) ∧ isLayout c = false := by
  obtain ⟨kind, isKind⟩ := Option.isSome_iff_exists.mp isMark
  have areEnds : markKinds.all fun mark => mark.1 ∈ wordEnds ∧ isLayout mark.1 = false := by decide
  have isEnd := List.all_eq_true.mp areEnds _ (mem_markKinds isKind)
  simpa [EndsWord] using isEnd

/-- The pieces behind a name and an opening brace are those inside of one brace. -/
theorem pieces_openBlock (behind : List Char) :
    pieces 0 ('x' :: '\x7b' :: behind) =
      [.token .identifier ['x'], openingPiece] ++ pieces 1 behind := by
  let namePiece : Piece := .token .identifier ['x']
  have namePieces : pieces 0 ([namePiece].flatMap Piece.text ++ []) = [namePiece] ++ [] := by
    decide +kernel
  have opened : pieces 0 ('\x7b' :: behind) = openingPiece :: pieces 1 behind := by
    rw [pieces, (NextPiece.mark rfl).eq]
    rfl
  have appended :
      pieces 0 ('x' :: '\x7b' :: behind) = [namePiece] ++ pieces 0 ('\x7b' :: behind) := by
    refine pieces_append (by simp [EndsWord]) (endsWord_of_mark? rfl behind).1 namePieces ?_ ?_
    · decide
    · intro piece isLast isGap
      cases isLast
      contradiction
  rw [appended, opened]
  rfl

namespace IsSegment

variable
  {source front : List Char}
  {depth : Nat}
  {own : List Token}
  {text : String}
  (areProper : ∀ piece ∈ pieces 0 source, piece.isProper = true)

include areProper

/-- What a mark begins behind a stretch without braces does not change the pieces of the stretch. -/
theorem pieces_append
    (segment : IsSegment source depth front text.toList own)
    (avoids : Avoids braces own)
    {c : Char}
    (isMark : (mark? c).isSome)
    (behind : List Char) :
    pieces depth (text.toList ++ c :: behind) =
      pieces depth text.toList ++ pieces depth (c :: behind) := by
  obtain ⟨ends, noLayout⟩ := endsWord_of_mark? isMark behind
  have sameDepth : depthAfter depth (pieces depth text.toList) = depth := by
    have folded := Joint.foldl_tokens (Joint.atDepth depth)
      (place (Position.first.after front) (pieces depth text.toList))
    rw [← segment.tokens, avoids.foldl_depthAfter, Joint.depth_afterAll] at folded
    exact folded.symm
  have cut :
      pieces depth ((pieces depth text.toList).flatMap Piece.text ++ []) =
        pieces depth text.toList ++ [] := by
    rw [text_pieces, List.append_nil, List.append_nil]
  have areClosed : ∀ piece ∈ pieces depth text.toList, piece.isUnterminated = false :=
    fun piece member => Piece.isUnterminated_of_isProper (areProper piece (segment.parts member))
  have stops : ∀ next ∈ (c :: behind).head?, isLayout next = false := by
    simpa using noLayout
  have appended :=
    QtSheet.pieces_append (by simp [EndsWord]) ends cut areClosed fun _ _ _ => stops
  rwa [text_pieces, sameDepth] at appended

/-- The characters of a selector with an empty block behind them are a sheet with this selector. -/
theorem ofSource_selector
    {selector : Selector}
    (segment : IsSegment source 0 front text.toList own)
    (form : SelectorForm own selector) :
    ∃ (move : Relocation) (rule : Rule),
      Sheet.ofSource (text ++ "\x7b\x7d") = .ok ⟨[rule]⟩ ∧
        rule.chains = [[move.selector selector]] := by
  let move := Relocation.between front [] (text.toList ++ [])
  let after := Position.first.after text.toList
  let opening : Token := ⟨.ofPosition after ['\x7b'], .openBrace⟩
  let closing : Token := ⟨.ofPosition (after.after ['\x7b']) ['\x7d'], .closeBrace⟩
  have blockPieces : pieces 0 ['\x7b', '\x7d'] = [openingPiece, closingPiece] := by
    decide +kernel
  have cut :
      pieces 0 (text ++ "\x7b\x7d").toList =
        pieces 0 text.toList ++ [openingPiece, closingPiece] := by
    rw [String.toList_append, ← blockPieces]
    exact segment.pieces_append areProper form.avoids.of_cons rfl ['\x7d']
  have ownTokens :
      Joint.first.tokens (place Position.first (pieces 0 text.toList)) = own.map move.token :=
    segment.tokens_eq rfl rfl [] []
  have allTokens :
      Joint.first.tokens (placedPieces (text ++ "\x7b\x7d").toList) =
        own.map move.token ++ opening :: ([] ++ [closing]) := by
    rw [placedPieces, cut, place_append, Joint.tokens_append, ownTokens, text_pieces]
    simp only [place, Joint.tokens, Joint.emitted_openingPiece, Joint.emitted_closingPiece]
    rfl
  obtain ⟨first, isFirst, _⟩ := form.bounds.first
  have firstMoved : (own.map move.token).head? = some (move.token first) := by
    rw [List.head?_map, isFirst]
    rfl
  have isOpening : opening.kind = .openBrace := rfl
  have isClosing : closing.kind = .closeBrace := rfl
  have rulesForm :=
    RulesForm.cons
      (RuleForm.intro (.last (.last (move.selectorForm form))) firstMoved isOpening .nil isClosing)
      .nil
  rw [List.append_nil, ← allTokens] at rulesForm
  refine ⟨move, _, ofSource_eq_ok.mpr ⟨?_, rulesForm⟩, rfl⟩
  rw [cut]
  refine List.forall_mem_append.mpr ⟨fun piece member => areProper piece (segment.parts member), ?_⟩
  decide

/-- The characters of a declaration inside of a block are a sheet with this declaration. -/
theorem ofSource_declaration
    {declaration : Declaration}
    (segment : IsSegment source 1 front text.toList own)
    (form : DeclarationForm own declaration) :
    ∃ (move : Relocation) (sheet : Sheet),
      Sheet.ofSource ("x\x7b" ++ text ++ "\x7d") = .ok sheet ∧
        sheet.declarations = [move.declaration declaration] := by
  let move := Relocation.between front ['x', '\x7b'] (text.toList ++ [])
  let inside := Position.first.after ['x', '\x7b']
  let name : Token := ⟨.ofPosition Position.first ['x'], .identifier⟩
  let opening : Token := ⟨.ofPosition (Position.first.after ['x']) ['\x7b'], .openBrace⟩
  let closing : Token := ⟨.ofPosition (inside.after text.toList) ['\x7d'], .closeBrace⟩
  have closingPieces : pieces 1 ['\x7d'] = [closingPiece] := by
    decide +kernel
  have cut :
      pieces 0 ("x\x7b" ++ text ++ "\x7d").toList =
        [.token .identifier ['x'], openingPiece] ++ (pieces 1 text.toList ++ [closingPiece]) := by
    rw [String.toList_append, String.toList_append, List.append_assoc, ← closingPieces,
      ← segment.pieces_append areProper form.avoids.of_cons rfl []]
    exact pieces_openBlock _
  have ownTokens :
      (⟨1, some .openBrace, none⟩ : Joint).tokens (place inside (pieces 1 text.toList)) =
        own.map move.token :=
    segment.tokens_eq rfl rfl ['x', '\x7b'] []
  have allTokens :
      Joint.first.tokens (placedPieces ("x\x7b" ++ text ++ "\x7d").toList) =
        [name] ++ opening :: (own.map move.token ++ [closing]) := by
    have behind :
        (⟨1, some .openBrace, none⟩ : Joint).tokens
            (place inside (pieces 1 text.toList ++ [closingPiece])) =
          own.map move.token ++ [closing] := by
      rw [place_append, Joint.tokens_append, ownTokens, text_pieces]
      simp only [place, Joint.tokens, Joint.emitted_closingPiece]
      rfl
    rw [placedPieces, cut, place_append, Joint.tokens_append, ← behind]
    rfl
  have nameForm : SelectorForm [name] (assemble name name (some "x") []) :=
    .typed (.inl rfl) .nil (Nat.zero_le 1) (Nat.zero_le 1) rfl
  have isOpening : opening.kind = .openBrace := rfl
  have isClosing : closing.kind = .closeBrace := rfl
  have rulesForm :=
    RulesForm.cons
      (RuleForm.intro (.last (.last nameForm)) rfl isOpening
        (.last (move.declarationForm form)) isClosing)
      .nil
  rw [List.append_nil, ← allTokens] at rulesForm
  refine ⟨move, ⟨[_]⟩, ofSource_eq_ok.mpr ⟨?_, rulesForm⟩, rfl⟩
  rw [cut]
  refine List.forall_mem_append.mpr ⟨by decide, List.forall_mem_append.mpr ⟨?_, by decide⟩⟩
  exact fun piece member => areProper piece (segment.parts member)

end IsSegment

namespace Grammar

theorem SelectorForm.head_kind
    {tokens : List Token}
    {selector : Selector}
    (form : SelectorForm tokens selector)
    (behind : List Token) :
    ∀ token ∈ (tokens ++ behind).head?, token.kind ≠ .combinator := by
  intro token isFirst isCombinator
  obtain ⟨first, isHead, _⟩ := form.bounds.first
  rw [List.head?_append, isHead] at isFirst
  obtain rfl : first = token := Option.some.inj isFirst
  exact form.avoids first (List.mem_of_mem_head? isHead) (by simp [isCombinator])

theorem ChainForm.head_kind
    {tokens : List Token}
    {chain : Chain}
    (form : ChainForm tokens chain)
    (behind : List Token) :
    ∀ token ∈ (tokens ++ behind).head?, token.kind ≠ .combinator := by
  cases form with
  | last selectorForm =>
      exact selectorForm.head_kind behind
  | combined selectorForm _ _ =>
      rw [List.append_assoc]
      exact selectorForm.head_kind _
  | direct selectorForm _ _ =>
      rw [List.append_assoc]
      exact selectorForm.head_kind _

/-- A group of selectors does not begin with a combinator. -/
theorem ChainsForm.head_kind
    {tokens : List Token}
    {chains : List Chain}
    (form : ChainsForm tokens chains)
    (behind : List Token) :
    ∀ token ∈ (tokens ++ behind).head?, token.kind ≠ .combinator := by
  cases form with
  | last chainForm =>
      exact chainForm.head_kind behind
  | cons chainForm _ _ =>
      rw [List.append_assoc]
      exact chainForm.head_kind _

/-- A rule does not end with a combinator. -/
theorem RuleForm.getLast_kind
    {tokens : List Token}
    {rule : Rule}
    (form : RuleForm tokens rule) :
    ∀ token ∈ tokens.getLast?, token.kind ≠ .combinator := by
  cases form with
  | @intro group block _ opening closing _ _ _ _ _ _ isClosing =>
      intro token isLast
      obtain rfl : closing = token := by
        simpa [List.getLast?_cons] using isLast
      simp [isClosing]

end Grammar

/-- The text of a rule is read as this rule alone, moved to the front. -/
theorem ofSource_slice_rule
    {source : String}
    {sheet : Sheet}
    {rule : Rule}
    (isRead : Sheet.ofSource source = .ok sheet)
    (member : rule ∈ sheet.rules) :
    Sheet.ofSource (rule.span.slice source) =
      .ok ⟨[(Relocation.mk (rule.span.slice source).toList (-rule.start)).rule rule]⟩ := by
  obtain ⟨areProper, form⟩ := ofSource_eq_ok.mp isRead
  obtain ⟨before, own, behind, earlier, split, beforeForm, ownForm⟩ := form.exists_rule member
  have firstKind : ∀ token ∈ own.head?, token.kind ≠ .combinator := by
    obtain ⟨groupForm, _, _, _, _⟩ := ownForm
    exact groupForm.head_kind _
  obtain ⟨front, isStart, segment⟩ :=
    exists_segment_of_bounds split ownForm.bounds firstKind ownForm.getLast_kind
  rw [beforeForm.braceDepth_eq] at segment
  have sameMove :
      Relocation.between front [] (rule.span.slice source).toList =
        Relocation.mk (rule.span.slice source).toList (-rule.start) := by
    rw [show rule.start = front.length from isStart]
    simp [Relocation.between]
  have isTokens :
      Joint.first.tokens
          (place (Position.first.after []) (pieces 0 (rule.span.slice source).toList)) =
        own.map (Relocation.between front [] ((rule.span.slice source).toList ++ [])).token :=
    segment.tokens_eq rfl rfl [] []
  rw [List.append_nil, sameMove] at isTokens
  rw [ofSource_eq_ok]
  refine ⟨fun piece isPiece => areProper piece (segment.parts isPiece), ?_⟩
  rw [placedPieces, show Position.first = Position.first.after [] from rfl, isTokens,
    ← List.append_nil (own.map _)]
  exact .cons (Relocation.ruleForm _ ownForm) .nil

/-- Tokens of a style sheet without combinators are those of the span they bound. -/
theorem exists_segment_of_avoids
    {source : String}
    {before own behind : List Token}
    {span : Span}
    (split : Joint.first.tokens (placedPieces source.toList) = before ++ (own ++ behind))
    (bounds : span.Bounds own)
    (avoids : Avoids (.combinator :: braces) own) :
    ∃ front,
      IsSegment source.toList (braceDepth before) front (span.slice source).toList own := by
  obtain ⟨front, _, segment⟩ :=
    exists_segment_of_bounds split bounds
      (fun token isFirst isCombinator =>
        avoids token (List.mem_of_mem_head? isFirst) (by simp [isCombinator]))
      (fun token isLast isCombinator =>
        avoids token (List.mem_of_mem_getLast? isLast) (by simp [isCombinator]))
  exact ⟨front, segment⟩

/-- The text of a selector in front of an empty block is read as this selector alone. -/
theorem ofSource_slice_selector
    {source : String}
    {sheet : Sheet}
    {rule : Rule}
    {selector : Selector}
    (isRead : Sheet.ofSource source = .ok sheet)
    (isRule : rule ∈ sheet.rules)
    (member : selector ∈ rule.chains.flatten) :
    ∃ (move : Relocation) (other : Rule),
      Sheet.ofSource (selector.span.slice source ++ "\x7b\x7d") = .ok ⟨[other]⟩ ∧
        other.chains = [[move.selector (alone selector)]] := by
  obtain ⟨areProper, form⟩ := ofSource_eq_ok.mp isRead
  obtain ⟨before, ownRule, behind, earlier, split, beforeForm, ruleForm⟩ := form.exists_rule isRule
  cases ruleForm with
  | @intro group block _ opening closing chains _ groupForm _ _ _ _ =>
      obtain ⟨leading, own, trailing, rfl, selectorForm⟩ := groupForm.exists_selector member
      have leadingAvoids : Avoids braces leading := (avoids_append.mp groupForm.avoids).1
      have isDepth : braceDepth (before ++ leading) = 0 := by
        rw [braceDepth, List.foldl_append, ← braceDepth, beforeForm.braceDepth_eq,
          leadingAvoids.foldl_depthAfter]
      have splitOwn :
          Joint.first.tokens (placedPieces source.toList) =
            (before ++ leading) ++
              (own ++ (trailing ++ (opening :: (block ++ [closing]) ++ behind))) := by
        simpa using split
      obtain ⟨front, segment⟩ :=
        exists_segment_of_avoids splitOwn selectorForm.bounds selectorForm.avoids
      rw [isDepth] at segment
      exact segment.ofSource_selector areProper selectorForm

/-- The text of a declaration in a block is read as this declaration alone. -/
theorem ofSource_slice_declaration
    {source : String}
    {sheet : Sheet}
    {rule : Rule}
    {declaration : Declaration}
    (isRead : Sheet.ofSource source = .ok sheet)
    (isRule : rule ∈ sheet.rules)
    (member : declaration ∈ rule.declarations) :
    ∃ (move : Relocation) (other : Sheet),
      Sheet.ofSource ("x\x7b" ++ declaration.span.slice source ++ "\x7d") = .ok other ∧
        other.declarations = [move.declaration declaration] := by
  obtain ⟨areProper, form⟩ := ofSource_eq_ok.mp isRead
  obtain ⟨before, ownRule, behind, earlier, split, beforeForm, ruleForm⟩ := form.exists_rule isRule
  cases ruleForm with
  | @intro group block _ opening closing _ declarations groupForm _ isOpening blockForm _ =>
      obtain ⟨leading, own, trailing, rfl, declarationForm⟩ := blockForm.exists_declaration member
      have leadingAvoids : Avoids braces leading := (avoids_append.mp blockForm.avoids).1
      have isDepth := beforeForm.braceDepth_inside groupForm isOpening leadingAvoids
      have splitOwn :
          Joint.first.tokens (placedPieces source.toList) =
            (before ++ (group ++ opening :: leading)) ++
              (own ++ (trailing ++ ([closing] ++ behind))) := by
        simpa using split
      obtain ⟨front, segment⟩ :=
        exists_segment_of_avoids splitOwn declarationForm.bounds declarationForm.avoids
      rw [isDepth] at segment
      exact segment.ofSource_declaration areProper declarationForm

/-- The tokens of a style sheet follow one another, and none ends before it begins. -/
theorem successive_tokens (source : String) :
    Successive (Joint.first.tokens (placedPieces source.toList)) ∧
      ∀ token ∈ Joint.first.tokens (placedPieces source.toList), token.start ≤ token.stop := by
  constructor
  · exact (List.pairwise_append.mp pairwise_precedes_tokens).1
  · intro token member
    have isSlice := isSliceOf_of_mem_tokens (List.mem_append_left [_] member)
    have ordered := isSlice.ordered
    rw [Excerpt.stop]
    omega

/--
The parts of a style sheet are read again from their spans. The characters of a
rule are a sheet with this rule, at the front of the text. The characters of a
selector, with an empty block behind them, are a sheet with one rule for this
selector by itself, and those of a declaration, inside of a block, a sheet with
this declaration, up to places. The spans of the rules follow one another, and
so do those of the selectors and then of the declarations of a rule, inside of
its span.
-/
theorem ofSource_slice
    (source : String)
    (sheet : Sheet)
    (isRead : Sheet.ofSource source = .ok sheet) :
    (sheet.rules.map Rule.span).Pairwise Span.Precedes ∧
      ∀ rule ∈ sheet.rules,
        Sheet.ofSource (rule.span.slice source) =
            .ok ⟨[(Relocation.mk (rule.span.slice source).toList (-rule.start)).rule rule]⟩ ∧
          (∀ selector ∈ rule.chains.flatten,
            ∃ (other : Rule) (same : Selector),
              Sheet.ofSource (selector.span.slice source ++ "\x7b\x7d") = .ok ⟨[other]⟩ ∧
                other.chains = [[same]] ∧
                same.combinator? = none ∧
                same.unplaced = (alone selector).unplaced) ∧
          (∀ declaration ∈ rule.declarations,
            ∃ (other : Sheet) (same : Declaration),
              Sheet.ofSource ("x\x7b" ++ declaration.span.slice source ++ "\x7d") = .ok other ∧
                other.declarations = [same] ∧
                same.unplaced = declaration.unplaced) ∧
          rule.partSpans.Pairwise Span.Precedes ∧
          ∀ span ∈ rule.partSpans, span.Inside rule.span := by
  obtain ⟨_, form⟩ := ofSource_eq_ok.mp isRead
  obtain ⟨successive, notEmpty⟩ := successive_tokens source
  refine ⟨form.follow.pairwise successive, ?_⟩
  intro rule isRule
  obtain ⟨before, own, behind, _, split, _, ruleForm⟩ := form.exists_rule isRule
  rw [split] at successive notEmpty
  have ownSuccessive : Successive own :=
    (List.pairwise_append.mp (List.pairwise_append.mp successive).2.1).1
  have ownNotEmpty : ∀ token ∈ own, token.start ≤ token.stop := by
    intro token member
    exact notEmpty token (by simp [member])
  refine ⟨ofSource_slice_rule isRead isRule, ?_, ?_, ?_, ?_⟩
  · intro selector member
    obtain ⟨move, other, isOther, isChain⟩ := ofSource_slice_selector isRead isRule member
    exact ⟨other, _, isOther, isChain, rfl, move.unplaced_selector _⟩
  · intro declaration member
    obtain ⟨move, other, isOther, isDeclaration⟩ :=
      ofSource_slice_declaration isRead isRule member
    exact ⟨other, _, isOther, isDeclaration, move.unplaced_declaration _⟩
  · exact ruleForm.follow.pairwise ownSuccessive
  · intro span member
    exact (ruleForm.follow.within span member).inside ownSuccessive ownNotEmpty ruleForm.bounds

/-- A rule in the second line of a text is the only rule of its own characters. -/
theorem ofSource_slice_second_rule :
    let source := "a\x7b\x7d\nB #c\x7bd:e!important\x7d"
    let rule : Rule :=
      ⟨[[⟨some "B", none, [], [], none, [], some .descendant, 4, 1⟩,
          ⟨none, some "c", [], [], none, [], none, 6, 2⟩]],
        [⟨"d", [⟨⟨"e", 11, 1, 2, 8⟩, .identifier⟩], 9, 13,
          some ⟨⟨"d", 9, 1, 2, 6⟩, .identifier⟩, true⟩], 4, 19⟩
    let sheet : Sheet := ⟨[⟨[[⟨some "a", none, [], [], none, [], none, 0, 1⟩]], [], 0, 3⟩, rule]⟩
    Sheet.ofSource source = .ok sheet ∧
      (sheet.rules.map Rule.span).Pairwise Span.Precedes ∧
      Sheet.ofSource (rule.span.slice source) =
        .ok ⟨[(Relocation.mk (rule.span.slice source).toList (-4)).rule rule]⟩ := by
  intro source rule sheet
  have isRead : Sheet.ofSource source = .ok sheet := by
    decide +kernel
  obtain ⟨follow, reread⟩ := ofSource_slice source sheet isRead
  exact ⟨isRead, follow, (reread rule (by simp [sheet])).1⟩

end QtSheet
