import QtSheet.Proofs.Quote
import QtSheet.Proofs.Relayout
import QtSheet.Proofs.Segment

namespace QtSheet

/-!
# Where gaps are combinators

All other tokens are written out in the text; a descendant combinator is a gap.
Whether the gaps in front of a token become one is decided when the token is
found, by what has been left open since the token before it. Stray characters in
between begin the gap anew, so it goes back to the last of them or to the token
before (`tokenize_descendants`).
-/

open Text

/-- A token that is no gap. -/
def Token.IsWritten (token : Token) : Prop :=
  token.combinator? ≠ some .descendant

instance (token : Token) : Decidable token.IsWritten :=
  inferInstanceAs (Decidable (_ ≠ _))

/-- The signs that are combinators. -/
theorem mem_of_selectorSign?
    {c : Char}
    (isSign : selectorSign? c = some .combinator) :
    c ∈ ['>', '+', '~'] := by
  unfold selectorSign? at isSign
  split at isSign <;> first | contradiction | simp

/-- A combinator among the pieces of a text is a sign. -/
theorem mem_of_nextPiece
    {depth : Nat}
    {c : Char}
    {rest text after : List Char}
    (found : nextPiece depth c rest = (.token .combinator text, after)) :
    text ∈ [['>'], ['+'], ['~']] := by
  have way := nextPiece_ways depth c rest
  rw [found] at way
  generalize isKind : Kind.combinator = kind at way
  cases way with
  | selector _ _ way =>
      subst isKind
      cases way with
      | sign _ _ _ way =>
          cases way with
          | pair _ isPair =>
              unfold selectorPair? at isPair
              split at isPair <;> contradiction
          | single _ isSign =>
              simpa using mem_of_selectorSign? isSign
  | mark isMark =>
      subst isKind
      have member := mem_markKinds isMark
      simp [markKinds] at member
  | call =>
      split at isKind <;> contradiction
  | declaration _ _ _ way =>
      subst isKind
      have isDeclared := way.kind
      simp at isDeclared
  | string =>
      contradiction

/-- A token that is cut off a text is written there. -/
theorem isWritten_of_nextPiece
    {depth : Nat}
    {c : Char}
    {rest text after : List Char}
    {kind : Kind}
    (found : nextPiece depth c rest = (.token kind text, after))
    (position : Position) :
    Token.IsWritten { toExcerpt := .ofPosition position text, kind := kind } := by
  unfold Token.IsWritten Token.combinator?
  by_cases isCombinator : kind = .combinator
  · subst isCombinator
    have areSigns :
        [['>'], ['+'], ['~']].all fun sign =>
          Combinator.ofText (String.ofList sign) ≠ .descendant := by
      decide
    have isSign := of_decide_eq_true (List.all_eq_true.mp areSigns text (mem_of_nextPiece found))
    simpa [Excerpt.ofPosition] using isSign
  · simp [isCombinator]

/-- Every token among the pieces of a text is written. -/
theorem isWritten_of_mem_pieces
    {depth : Nat}
    {source text : List Char}
    {kind : Kind}
    (member : .token kind text ∈ pieces depth source)
    (position : Position) :
    Token.IsWritten { toExcerpt := .ofPosition position text, kind := kind } := by
  fun_induction pieces depth source with
  | case1 =>
      contradiction
  | case2 depth c rest cut inductionHypothesis =>
      rcases List.mem_cons.mp member with isHere | isLater
      · exact isWritten_of_nextPiece (Prod.ext isHere.symm rfl) position
      · exact inductionHypothesis isLater

namespace Joint

/-- The gap that is left open is layout. -/
def IsLaidOut (joint : Joint) : Prop :=
  ∀ gap ∈ joint.gap?, Layout gap.2

/-- An open gap is layout behind one more piece. -/
theorem IsLaidOut.next
    {joint : Joint}
    {placed : PlacedPiece}
    (isLaidOut : joint.IsLaidOut)
    (layout : ∀ text, placed.piece = .gap text → Layout text) :
    (joint.next placed).IsLaidOut := by
  unfold Joint.next
  cases isPiece : placed.piece with
  | gap text =>
      dsimp only
      by_cases outside : joint.depth = 0
      · rw [if_pos outside]
        intro gap isOpen
        obtain rfl := Option.some.inj isOpen
        unfold widen
        cases wasOpen : joint.gap? with
        | none =>
            exact layout text isPiece
        | some before =>
            exact (isLaidOut before wasOpen).append (layout text isPiece)
      · rw [if_neg outside]
        exact isLaidOut
  | token kind text =>
      simp [IsLaidOut]
  | stray character =>
      simp [IsLaidOut]
  | unterminated construct text =>
      exact isLaidOut

/-- An open gap is layout behind all pieces. -/
theorem IsLaidOut.afterAll
    {joint : Joint}
    {parts : List Piece}
    (isLaidOut : joint.IsLaidOut)
    (wellCut : WellCut parts)
    (position : Position) :
    (joint.afterAll (place position parts)).IsLaidOut := by
  induction wellCut generalizing joint position with
  | nil =>
      exact isLaidOut
  | cons isCut _ inductionHypothesis =>
      exact inductionHypothesis (isLaidOut.next isCut.layout) _

/-- What a gap becomes is not written. -/
theorem IsLaidOut.combinator?_eq
    {joint : Joint}
    {kind : Kind}
    {token : Token}
    (isLaidOut : joint.IsLaidOut)
    (member : token ∈ (joint.combinator? kind).toList) :
    token.combinator? = some .descendant := by
  rw [Joint.combinator?_eq] at member
  split at member
  · obtain ⟨gap, isOpen, rfl⟩ := Option.map_eq_some_iff.mp (Option.mem_toList.mp member)
    exact ((isLaidOut gap isOpen).isDescendant gap.1).combinator
  · contradiction

/-- A last piece adds its tokens behind the others. -/
theorem tokens_concat (joint : Joint) (position : Position) (parts : List Piece) (piece : Piece) :
    joint.tokens (place position (parts ++ [piece])) =
      joint.tokens (place position parts) ++
        (joint.afterAll (place position parts)).emitted
          ⟨position.after (parts.flatMap Piece.text), piece⟩ := by
  rw [place_append, tokens_append]
  simp [place, tokens]

/-- A last piece is the last to change what is left open. -/
theorem afterAll_concat (joint : Joint) (position : Position) (parts : List Piece) (piece : Piece) :
    joint.afterAll (place position (parts ++ [piece])) =
      (joint.afterAll (place position parts)).next
        ⟨position.after (parts.flatMap Piece.text), piece⟩ := by
  rw [place_append, afterAll, List.foldl_append]
  rfl

/-- The last token so far is the last of the tokens. -/
theorem last?_afterAll (joint : Joint) (position : Position) (parts : List Piece) :
    (joint.afterAll (place position parts)).last? =
      ((joint.tokens (place position parts)).getLast?.map Token.kind).or joint.last? := by
  induction parts using List.reverseRecOn with
  | nil =>
      rfl
  | append_singleton others piece inductionHypothesis =>
      rw [tokens_concat, afterAll_concat]
      cases piece with
      | token kind text =>
          simp [next, emitted]
      | gap text =>
          rw [emitted, List.append_nil, ← inductionHypothesis, next]
          dsimp only
          split <;> rfl
      | _ =>
          rw [emitted, List.append_nil, ← inductionHypothesis]
          rfl

/-- A gap that becomes a combinator follows on a token. -/
theorem exists_last_of_combinator?
    {position : Position}
    {parts : List Piece}
    {kind : Kind}
    {token : Token}
    (member : token ∈ ((first.afterAll (place position parts)).combinator? kind).toList) :
    ∃ others last,
      first.tokens (place position parts) = others ++ [last] ∧ kind.startsSelector = true := by
  rw [combinator?_eq] at member
  by_cases isOpen : (kind.startsSelector && (first.afterAll (place position parts)).endsPart) = true
  · obtain ⟨starts, ends⟩ := Bool.and_eq_true_iff.mp isOpen
    rw [endsPart, last?_afterAll] at ends
    rcases List.eq_nil_or_concat (first.tokens (place position parts)) with
      isEmpty | ⟨others, last, isConcat⟩
    · rw [isEmpty] at ends
      contradiction
    · exact ⟨others, last, by rw [isConcat, List.concat_eq_append], starts⟩
  · rw [if_neg isOpen] at member
    contradiction

/-- The last of the tokens of some pieces is written if those among the pieces are. -/
theorem isWritten_of_getLast?
    {joint : Joint}
    {position : Position}
    {parts : List Piece}
    {token : Token}
    (areWritten :
      ∀ kind text,
        .token kind text ∈ parts →
        ∀ position, Token.IsWritten { toExcerpt := .ofPosition position text, kind := kind })
    (isLast : (joint.tokens (place position parts)).getLast? = some token) :
    token.IsWritten := by
  induction parts using List.reverseRecOn with
  | nil =>
      contradiction
  | append_singleton others piece inductionHypothesis =>
      rw [tokens_concat] at isLast
      cases piece with
      | token kind text =>
          obtain rfl : _ = token := by simpa [emitted] using isLast
          exact areWritten kind text (by simp) _
      | _ =>
          rw [emitted, List.append_nil] at isLast
          refine inductionHypothesis (fun kind text member => ?_) isLast
          exact areWritten kind text (List.mem_append_left _ member)

end Joint

section Marks

variable {α : Type} (marked : α → Prop)

/-- Items are some up to one that is not marked, and marked ones behind it. -/
theorem exists_lead [DecidablePred marked] (items : List α) :
    ∃ lead tail,
      items = lead ++ tail ∧
        (∀ item ∈ tail, marked item) ∧
        ∀ item ∈ lead.getLast?, ¬ marked item := by
  induction items using List.reverseRecOn with
  | nil =>
      exact ⟨[], [], rfl, by simp, by simp⟩
  | append_singleton others item inductionHypothesis =>
      by_cases isMarked : marked item
      · obtain ⟨lead, tail, rfl, areMarked, notMarked⟩ := inductionHypothesis
        refine ⟨lead, tail ++ [item], List.append_assoc .., ?_, notMarked⟩
        exact List.forall_mem_append.mpr ⟨areMarked, by simp [isMarked]⟩
      · exact ⟨others ++ [item], [], by simp, by simp, by simp [isMarked]⟩

/-- There is only one place where the marked items at the end begin. -/
theorem eq_of_lead
    {lead other tail rest : List α}
    (same : lead ++ tail = other ++ rest)
    (areMarked : ∀ item ∈ tail, marked item)
    (otherMarked : ∀ item ∈ rest, marked item)
    (notMarked : ∀ item ∈ lead.getLast?, ¬ marked item)
    (otherNotMarked : ∀ item ∈ other.getLast?, ¬ marked item) :
    lead = other ∧ tail = rest := by
  rcases List.append_eq_append_iff.mp same with ⟨more, rfl, rfl⟩ | ⟨more, rfl, rfl⟩
  · rcases List.eq_nil_or_concat more with rfl | ⟨_, last, rfl⟩
    · simp
    · exact absurd (areMarked last (by simp)) (otherNotMarked last (by simp))
  · rcases List.eq_nil_or_concat more with rfl | ⟨_, last, rfl⟩
    · simp
    · exact absurd (otherMarked last (by simp)) (notMarked last (by simp))

end Marks

theorem piece_of_mem_place
    {position : Position}
    {parts : List Piece}
    {placed : PlacedPiece}
    (member : placed ∈ place position parts) :
    placed.piece ∈ parts := by
  induction parts generalizing position with
  | nil =>
      contradiction
  | cons piece rest inductionHypothesis =>
      rcases List.mem_cons.mp member with rfl | isLater
      · exact List.mem_cons_self
      · exact List.mem_cons_of_mem piece (inductionHypothesis isLater)

/-- A finding about some pieces is about characters of theirs. -/
theorem bounds_of_mem_findings
    {parts : List Piece}
    {position : Position}
    {finding : Diagnostic}
    (wellCut : WellCut parts)
    (member : finding ∈ (place position parts).filterMap PlacedPiece.diagnostic?) :
    position.offset ≤ finding.start ∧
      finding.start < finding.stop ∧
      finding.stop ≤ position.offset + (parts.flatMap Piece.text).length := by
  induction wellCut generalizing position with
  | nil =>
      contradiction
  | @cons piece rest isCut _ inductionHypothesis =>
      have positive := List.length_pos_iff.mpr isCut.nonempty
      rw [List.flatMap_cons, List.length_append]
      rw [place, List.filterMap_cons] at member
      cases isFinding : PlacedPiece.diagnostic? ⟨position, piece⟩ with
      | none =>
          rw [isFinding] at member
          have bounds := inductionHypothesis member
          rw [Position.offset_after] at bounds
          omega
      | some found =>
          rw [isFinding] at member
          rcases List.mem_cons.mp member with rfl | isLater
          · obtain ⟨message, rfl, _⟩ := PlacedPiece.exists_message_of_diagnostic? isFinding
            simp only [PlacedPiece.excerpt, Excerpt.stop, Excerpt.ofPosition]
            omega
          · have bounds := inductionHypothesis isLater
            rw [Position.offset_after] at bounds
            omega

/-- Two written tokens of a text with no other written token between them. -/
structure Neighbours (source : String) where
  before : List Token
  left : Token
  between : List Token
  right : Token
  behind : List Token
  split : (tokenize source).tokens = before ++ left :: (between ++ right :: behind)
  leftWritten : left.IsWritten
  rightWritten : right.IsWritten
  areGaps : ∀ token ∈ between, token.combinator? = some .descendant
  notEnd : right.kind ≠ .endOfInput

/-- The pieces in front of a written token, with the tokens in front of it. -/
theorem exists_front_of_isWritten
    {source : List Char}
    {before behind : List Token}
    {token : Token}
    (split : Joint.first.tokens (placedPieces source) = before ++ token :: behind)
    (isWritten : token.IsWritten) :
    ∃ front text back,
      pieces 0 source = front ++ .token token.kind text :: back ∧
        token.toExcerpt =
          .ofPosition (Position.first.after (front.flatMap Piece.text)) text ∧
        before =
          Joint.first.tokens (place Position.first front) ++
            ((Joint.first.afterAll (place Position.first front)).combinator? token.kind).toList ∧
        (∀ last ∈ (Joint.first.tokens (place Position.first front)).getLast?, last.IsWritten) ∧
        (Joint.first.afterAll (place Position.first front)).IsLaidOut := by
  have wellCut := wellCut_pieces 0 source
  have noneOpen : Joint.first.IsLaidOut := by simp [Joint.IsLaidOut, Joint.first]
  obtain ⟨front, text, back, isCut, isExcerpt, isBefore⟩ :=
    Joint.exists_piece_of_noGap split fun front isFront kind isGap => by
      obtain ⟨rest, isRest⟩ := isFront
      rw [← isRest] at wellCut
      exact isWritten ((noneOpen.afterAll wellCut.of_append_left _).combinator?_eq isGap)
  refine ⟨front, text, back, isCut, isExcerpt, isBefore, fun last isLast => ?_, ?_⟩
  · refine Joint.isWritten_of_getLast? (fun kind text member => ?_) isLast
    exact isWritten_of_mem_pieces (by rw [isCut]; exact List.mem_append_left _ member)
  · rw [isCut] at wellCut
    exact noneOpen.afterAll wellCut.of_append_left _

namespace Neighbours

variable {source : String} (pair : Neighbours source)

/-- Whether a finding is about characters between the two tokens. -/
def isBetween (finding : Diagnostic) : Bool :=
  pair.left.stop ≤ finding.start && finding.stop ≤ pair.right.start

/--
Where the gap in front of the second token may begin: behind the last finding
between the two tokens, or else behind the first token.
-/
def gapStart : Int :=
  ((tokenize source).diagnostics.filter pair.isBetween).getLast?.elim pair.left.stop
    fun finding => finding.stop

/-- The pieces in front of the second token: gaps behind a piece that is none. -/
structure IsCut (lead gaps : List Piece) (text : List Char) (back : List Piece) : Prop where
  cut : pieces 0 source.toList = lead ++ (gaps ++ .token pair.right.kind text :: back)
  areGaps : ∀ piece ∈ gaps, piece.isGap = true
  noGap : ∀ piece ∈ lead.getLast?, piece.isGap = false
  tokens : Joint.first.tokens (place Position.first lead) = pair.before ++ [pair.left]
  right :
    pair.right.toExcerpt =
      .ofPosition (Position.first.after ((lead ++ gaps).flatMap Piece.text)) text
  between :
    pair.between =
      ((Joint.first.afterAll (place Position.first (lead ++ gaps))).combinator?
        pair.right.kind).toList

/-- The tokens of a text, its end apart. -/
theorem exists_split :
    ∃ behind,
      Joint.first.tokens (placedPieces source.toList) =
        (pair.before ++ pair.left :: pair.between) ++ pair.right :: behind := by
  have split := pair.split
  rw [tokenize] at split
  rcases List.eq_nil_or_concat pair.behind with isEmpty | ⟨others, last, isBehind⟩
  · rw [isEmpty, ← List.cons_append, ← List.append_assoc] at split
    obtain ⟨_, isEnd⟩ := List.append_inj' split rfl
    exact absurd (by rw [← (List.cons.inj isEnd).1]; rfl) pair.notEnd
  · refine ⟨others, ?_⟩
    rw [isBehind, List.concat_eq_append, ← List.cons_append, ← List.cons_append,
      ← List.append_assoc, ← List.append_assoc] at split
    simpa using (List.append_inj' split rfl).1

/-- The pieces of a text can be cut at two neighbouring tokens. -/
theorem exists_isCut : ∃ lead gaps text back, pair.IsCut lead gaps text back := by
  obtain ⟨behind, split⟩ := pair.exists_split
  obtain ⟨front, text, back, isCut, isRight, isBefore, endsWritten, isLaidOut⟩ :=
    exists_front_of_isWritten split pair.rightWritten
  -- Both sides are tokens up to a written one and gaps behind it.
  obtain ⟨isFront, isBetween⟩ :
      pair.before ++ [pair.left] = Joint.first.tokens (place Position.first front) ∧
        pair.between =
          ((Joint.first.afterAll (place Position.first front)).combinator?
            pair.right.kind).toList := by
    refine eq_of_lead (fun token : Token => token.combinator? = some .descendant)
      (by simpa using isBefore) pair.areGaps (fun _ => isLaidOut.combinator?_eq) ?_ endsWritten
    rw [List.getLast?_concat]
    rintro _ ⟨⟩
    exact pair.leftWritten
  obtain ⟨lead, gaps, rfl, areGaps, noGap⟩ :=
    exists_lead (fun piece => piece.isGap = true) front
  rw [place_append, Joint.tokens_append, Joint.tokens_gaps areGaps, List.append_nil] at isFront
  have isCut : pieces 0 source.toList = lead ++ (gaps ++ .token pair.right.kind text :: back) := by
    rw [isCut, List.append_assoc]
  refine ⟨lead, gaps, text, back, isCut, areGaps, ?_, isFront.symm, isRight, isBetween⟩
  exact fun piece isLast => Bool.eq_false_iff.mpr (noGap piece isLast)

section Cut

variable {pair} {lead gaps back : List Piece} {text : List Char}

/-- The pieces around two neighbours are those of a text. -/
theorem IsCut.wellCut
    (isCut : pair.IsCut lead gaps text back) :
    WellCut (lead ++ (gaps ++ .token pair.right.kind text :: back)) :=
  isCut.cut ▸ wellCut_pieces 0 source.toList

/-- The braces that are open between two neighbours are those that the tokens open. -/
theorem IsCut.depth_eq
    (isCut : pair.IsCut lead gaps text back) :
    (Joint.first.afterAll (place Position.first lead)).depth =
      braceDepth (pair.before ++ pair.left :: pair.between) := by
  rw [← Joint.foldl_tokens, isCut.tokens, isCut.between, braceDepth, List.foldl_append,
    List.foldl_append, List.foldl_cons, List.foldl_cons, Joint.foldl_combinator?]
  rfl

/-- The last token in front of the gap is the left neighbour. -/
theorem IsCut.endsPart_eq
    (isCut : pair.IsCut lead gaps text back) :
    (Joint.first.afterAll (place Position.first lead)).endsPart =
      pair.left.kind.endsSelectorPart := by
  rw [Joint.endsPart, Joint.last?_afterAll, isCut.tokens]
  simp

/-- A construct without its end is the last piece, so none stands before a token. -/
theorem IsCut.isUnterminated_eq_false
    {piece : Piece}
    (isCut : pair.IsCut lead gaps text back)
    (member : piece ∈ lead) :
    piece.isUnterminated = false :=
  isCut.wellCut.isUnterminated_eq_false (by simp) member

/-- What the gaps in front of the second token become. -/
theorem IsCut.between_eq
    (isCut : pair.IsCut lead gaps text back) :
    pair.between =
      if gaps ≠ [] ∧ braceDepth (pair.before ++ pair.left :: pair.between) = 0 ∧
          pair.right.kind.startsSelector = true ∧ pair.left.kind.endsSelectorPart = true then
        [{ toExcerpt :=
            .ofPosition (Position.first.after (lead.flatMap Piece.text)) (gaps.flatMap Piece.text)
           kind := .combinator }]
      else
        [] := by
  have noneOpen : (Joint.first.afterAll (place Position.first lead)).gap? = none :=
    Joint.gap?_afterAll isCut.noGap (fun _ => isCut.isUnterminated_eq_false) Position.first
  refine isCut.between.trans ?_
  rw [← isCut.depth_eq, ← isCut.endsPart_eq]
  by_cases noGaps : gaps = []
  · rw [noGaps, List.append_nil, Joint.combinator?_eq, noneOpen]
    simp
  · rw [place_append, Joint.afterAll, List.foldl_append, ← Joint.afterAll, ← Joint.afterAll,
      Joint.afterAll_gaps noGaps isCut.areGaps]
    have isOpening := Joint.opening_next_gap noneOpen
      (Position.first.after (lead.flatMap Piece.text)) (gaps.flatMap Piece.text)
      (.token pair.right.kind text :: back)
    rw [Joint.opening] at isOpening
    rw [isOpening, Joint.opens]
    simp [noGaps]

/-- The right neighbour starts behind the gap. -/
theorem IsCut.start_eq
    (isCut : pair.IsCut lead gaps text back) :
    pair.right.start = (lead.flatMap Piece.text).length + (gaps.flatMap Piece.text).length := by
  rw [isCut.right]
  simp only [Excerpt.ofPosition, Position.offset_after, Position.first, List.flatMap_append,
    List.length_append]
  omega

/-- The findings between the two tokens are about the pieces in front of the gaps. -/
theorem IsCut.findingsBetween_eq
    (isCut : pair.IsCut lead gaps text back) :
    (tokenize source).diagnostics.filter pair.isBetween =
      ((place Position.first lead).filterMap PlacedPiece.diagnostic?).filter pair.isBetween := by
  have behindCut : WellCut (.token pair.right.kind text :: back) :=
    isCut.wellCut.of_append_right.of_append_right
  rw [tokenize, placedPieces, isCut.cut, place_append, place_append, List.filterMap_append,
    List.filterMap_append, diagnostics_gaps isCut.areGaps, List.nil_append, List.filter_append]
  refine List.append_right_eq_self.mpr (List.filter_eq_nil_iff.mpr fun finding member => ?_)
  have bounds := bounds_of_mem_findings behindCut member
  have isStart := isCut.start_eq
  simp only [Position.offset_after, Position.first] at bounds
  simp only [isBetween, Bool.and_eq_true, decide_eq_true_eq]
  omega

/-- The gap begins behind the first token when this is the piece in front of it. -/
theorem IsCut.gapStart_of_token
    {others : List Piece}
    {kind : Kind}
    {word : List Char}
    (isCut : pair.IsCut (others ++ [.token kind word]) gaps text back) :
    pair.gapStart = ((others ++ [Piece.token kind word]).flatMap Piece.text).length := by
  have isTokens := isCut.tokens
  rw [Joint.tokens_concat] at isTokens
  have isLeft := congrArg List.getLast? isTokens
  simp only [Joint.emitted, List.getLast?_append, List.getLast?_singleton, Option.some_or,
    Option.some.injEq] at isLeft
  have isStop :
      pair.left.stop = ((others ++ [Piece.token kind word]).flatMap Piece.text).length := by
    rw [← isLeft]
    simp only [PlacedPiece.excerpt, Excerpt.stop, Excerpt.ofPosition, Position.offset_after,
      Position.first, List.flatMap_append, List.flatMap_cons, List.flatMap_nil, List.append_nil,
      List.length_append]
    omega
  -- All findings about the pieces are in front of the end of the token.
  have noFindings :
      ((place Position.first (others ++ [Piece.token kind word])).filterMap
        PlacedPiece.diagnostic?).filter pair.isBetween = [] := by
    refine List.filter_eq_nil_iff.mpr fun finding member => ?_
    have bounds := bounds_of_mem_findings isCut.wellCut.of_append_left member
    simp only [Position.first] at bounds
    simp only [isBetween, Bool.and_eq_true, decide_eq_true_eq]
    omega
  rw [gapStart, isCut.findingsBetween_eq, noFindings]
  exact isStop

/-- The gap begins behind a stray character when this is the piece in front of it. -/
theorem IsCut.gapStart_of_stray
    {others : List Piece}
    {character : Char}
    (isCut : pair.IsCut (others ++ [.stray character]) gaps text back) :
    pair.gapStart = ((others ++ [Piece.stray character]).flatMap Piece.text).length := by
  have isTokens := isCut.tokens
  rw [Joint.tokens_concat, Joint.emitted, List.append_nil] at isTokens
  -- The first token is in front of the finding about the character.
  obtain ⟨before, word, isPart, isExcerpt⟩ :=
    exists_stretch_of_mem_tokens isCut.wellCut.of_append_left.of_append_left
      (show pair.left ∈ Joint.first.tokens (place Position.first others) by simp [isTokens])
  have isStop : pair.left.stop ≤ (others.flatMap Piece.text).length := by
    have atMost := isPart.length_le
    rw [List.length_append] at atMost
    rw [isExcerpt]
    simp only [Excerpt.stop, Excerpt.ofPosition, Position.offset_after, Position.first]
    omega
  have isLength :
      ((others ++ [Piece.stray character]).flatMap Piece.text).length =
        (others.flatMap Piece.text).length + 1 := by
    rw [List.flatMap_append, List.length_append]
    rfl
  have isBetween :
      ((place (Position.first.after (others.flatMap Piece.text)) [Piece.stray character]).filterMap
          PlacedPiece.diagnostic?).filter pair.isBetween =
        (place (Position.first.after (others.flatMap Piece.text)) [Piece.stray character]).filterMap
          PlacedPiece.diagnostic? := by
    refine List.filter_eq_self.mpr fun finding member => ?_
    have bounds := bounds_of_mem_findings isCut.wellCut.of_append_left.of_append_right member
    have isStart := isCut.start_eq
    simp only [Position.offset_after, Position.first, List.flatMap_cons, List.flatMap_nil,
      List.append_nil, Piece.text, List.length_singleton] at bounds
    simp only [Neighbours.isBetween, Bool.and_eq_true, decide_eq_true_eq]
    omega
  rw [gapStart, isCut.findingsBetween_eq, place_append, List.filterMap_append, List.filter_append,
    List.getLast?_append, isBetween, isLength]
  simp [place, PlacedPiece.diagnostic?, PlacedPiece.excerpt, Excerpt.stop, Excerpt.ofPosition,
    Position.first, Piece.text]

/-- The gap begins behind the last piece that is none. -/
theorem IsCut.gapStart_eq
    (isCut : pair.IsCut lead gaps text back) :
    pair.gapStart = (lead.flatMap Piece.text).length := by
  rcases List.eq_nil_or_concat lead with rfl | ⟨others, last, rfl⟩
  · have noTokens := isCut.tokens
    simp [place, Joint.tokens] at noTokens
  · rw [List.concat_eq_append] at isCut ⊢
    have lastClosed : last.isUnterminated = false := isCut.isUnterminated_eq_false (by simp)
    have lastNoGap : last.isGap = false := isCut.noGap last (by simp)
    cases last with
    | gap _ =>
        contradiction
    | unterminated _ _ =>
        contradiction
    | token kind word =>
        exact isCut.gapStart_of_token
    | stray character =>
        exact isCut.gapStart_of_stray

/-- The characters of the gap are those between its start and the right neighbour. -/
theorem IsCut.stretch_eq
    (isCut : pair.IsCut lead gaps text back) :
    stretch source pair.gapStart pair.right.start = gaps.flatMap Piece.text := by
  have whole := text_pieces 0 source.toList
  rw [isCut.cut, List.flatMap_append, List.flatMap_append] at whole
  have isLength :
      (((lead.flatMap Piece.text).length : Int) + (gaps.flatMap Piece.text).length -
        (lead.flatMap Piece.text).length).toNat = (gaps.flatMap Piece.text).length := by
    omega
  rw [QtSheet.stretch_eq, isCut.gapStart_eq, isCut.start_eq, isLength, Int.toNat_natCast, ← whole,
    List.drop_left, List.take_left]

/-- There is a gap if it has any characters. -/
theorem IsCut.gaps_ne_nil_iff
    (isCut : pair.IsCut lead gaps text back) :
    gaps ≠ [] ↔ pair.gapStart < pair.right.start := by
  rw [isCut.gapStart_eq, isCut.start_eq]
  constructor
  · intro someGap
    obtain ⟨gap, others, rfl⟩ := List.exists_cons_of_ne_nil someGap
    have nonempty : gap.text ≠ [] := isCut.wellCut.text_ne_nil (by simp)
    have positive := List.length_pos_iff.mpr nonempty
    rw [List.flatMap_cons, List.length_append]
    omega
  · rintro isLonger rfl
    rw [List.flatMap_nil, List.length_nil] at isLonger
    omega

end Cut

/-- A token that ends a part of a selector is no brace. -/
theorem braceDepth_eq
    (endsPart : pair.left.kind.endsSelectorPart = true) :
    braceDepth (pair.before ++ pair.left :: pair.between) = braceDepth pair.before := by
  obtain ⟨lead, gaps, text, back, isCut⟩ := pair.exists_isCut
  rw [isCut.between, braceDepth, List.foldl_append, List.foldl_cons, Joint.foldl_combinator?,
    Token.depthAfter, ← braceDepth]
  split
  case h_1 isBrace | h_2 isBrace =>
    rw [isBrace] at endsPart
    contradiction
  case h_3 =>
    rfl

/-- Between neighbours stands a gap where it separates two parts of a selector. -/
theorem between_ne_nil_iff :
    pair.between ≠ [] ↔
      braceDepth pair.before = 0 ∧
        braceDepth (pair.before ++ pair.left :: pair.between) = 0 ∧
        pair.left.kind.endsSelectorPart = true ∧
        pair.right.kind.startsSelector = true ∧
        pair.gapStart < pair.right.start := by
  obtain ⟨lead, gaps, text, back, isCut⟩ := pair.exists_isCut
  have isBetween :
      pair.between ≠ [] ↔
        gaps ≠ [] ∧ braceDepth (pair.before ++ pair.left :: pair.between) = 0 ∧
          pair.right.kind.startsSelector = true ∧ pair.left.kind.endsSelectorPart = true := by
    conv => lhs; rw [isCut.between_eq]
    split <;> simp_all
  rw [isBetween, isCut.gaps_ne_nil_iff]
  constructor
  · rintro ⟨isLonger, isOutside, starts, ends⟩
    exact ⟨pair.braceDepth_eq ends ▸ isOutside, isOutside, ends, starts, isLonger⟩
  · rintro ⟨_, isOutside, ends, starts, isLonger⟩
    exact ⟨isLonger, isOutside, starts, ends⟩

/-- Between two neighbours stands nothing but layout. -/
theorem layout_stretch : Layout (stretch source pair.gapStart pair.right.start) := by
  obtain ⟨lead, gaps, text, back, isCut⟩ := pair.exists_isCut
  rw [isCut.stretch_eq]
  exact isCut.wellCut.of_append_right.layout_of_gaps isCut.areGaps

/-- There is one gap at most, and it covers all layout in front of the second token. -/
theorem eq_of_mem_between
    {token : Token}
    (member : token ∈ pair.between) :
    pair.between = [token] ∧ token.start = pair.gapStart ∧ token.stop = pair.right.start := by
  obtain ⟨lead, gaps, text, back, isCut⟩ := pair.exists_isCut
  have isBetween := isCut.between_eq
  split at isBetween
  · rw [isBetween, List.mem_singleton] at member
    rw [isBetween, member, isCut.gapStart_eq, isCut.start_eq]
    refine ⟨rfl, ?_, ?_⟩ <;>
      simp only [Excerpt.stop, Excerpt.ofPosition, Position.offset_after, Position.first,
        Nat.zero_add]
  · rw [isBetween] at member
    contradiction

/-- Findings between the two tokens are about single characters. -/
theorem message_of_mem_findings
    {finding : Diagnostic}
    (member : finding ∈ (tokenize source).diagnostics.filter pair.isBetween) :
    ∃ character,
      finding.message = "unexpected character " ++ quoted (String.singleton character) := by
  obtain ⟨lead, gaps, text, back, isCut⟩ := pair.exists_isCut
  rw [isCut.findingsBetween_eq] at member
  obtain ⟨placed, isPlaced, isFinding⟩ := List.mem_filterMap.mp (List.mem_filter.mp member).1
  have isClosed := isCut.isUnterminated_eq_false (piece_of_mem_place isPlaced)
  obtain ⟨message, rfl, isStray | isOpen⟩ := PlacedPiece.exists_message_of_diagnostic? isFinding
  · obtain ⟨character, _, isMessage⟩ := isStray
    exact ⟨character, isMessage⟩
  · obtain ⟨construct, _, isPiece, _⟩ := isOpen
    rw [isPiece] at isClosed
    contradiction

end Neighbours

theorem Kind.endsSelectorPart_iff (kind : Kind) :
    kind.endsSelectorPart = true ↔ kind ∈ [identifier, hash, star, closeBracket] := by
  cases kind <;> decide

theorem Kind.startsSelector_iff (kind : Kind) :
    kind.startsSelector = true ↔
      kind ∈ [identifier, hash, star, dot, colon, doubleColon, openBracket] := by
  cases kind <;> decide

/-- The last token in front of the end of a text is written. -/
theorem exists_isWritten_of_gap
    {source : List Char}
    {front rest : List Token}
    {token : Token}
    (split : Joint.first.tokens (placedPieces source) = front ++ token :: rest)
    (isGap : token.combinator? = some .descendant) :
    ∃ more right behind,
      rest = more ++ right :: behind ∧
        right.IsWritten ∧
        ∀ other ∈ more, other.combinator? = some .descendant := by
  cases found : rest.find? fun other => other.IsWritten with
  | none =>
      have areGaps : ∀ other ∈ token :: rest, ¬ other.IsWritten := by
        refine List.forall_mem_cons.mpr ⟨not_not_intro isGap, fun other member => ?_⟩
        simpa using List.find?_eq_none.mp found other member
      have isLast :
          (Joint.first.tokens (placedPieces source)).getLast? =
            some ((token :: rest).getLast (by simp)) := by
        rw [split, List.getLast?_append_cons, List.getLast?_eq_some_getLast]
      refine absurd ?_ (areGaps _ (List.getLast_mem (List.cons_ne_nil token rest)))
      exact Joint.isWritten_of_getLast? (fun _ _ => isWritten_of_mem_pieces) isLast
  | some right =>
      obtain ⟨isWritten, more, behind, isRest, areGaps⟩ := List.find?_eq_some_iff_append.mp found
      refine ⟨more, right, behind, isRest, of_decide_eq_true isWritten, fun other member => ?_⟩
      have notWritten : ¬ other.IsWritten := by simpa using areGaps other member
      exact Decidable.not_not.mp notWritten

/-- Every gap among the tokens of a text is between two written ones. -/
theorem exists_neighbours
    {source : String}
    {token : Token}
    (isToken : token ∈ (tokenize source).tokens)
    (isGap : token.combinator? = some .descendant) :
    ∃ pair : Neighbours source, pair.between = [token] := by
  have isBody : token ∈ Joint.first.tokens (placedPieces source.toList) := by
    refine (List.mem_append.mp isToken).resolve_right fun isEnd => ?_
    rw [List.mem_singleton.mp isEnd] at isGap
    contradiction
  obtain ⟨front, rest, split⟩ := List.append_of_mem isBody
  obtain ⟨more, right, behind, rfl, rightWritten, moreGaps⟩ := exists_isWritten_of_gap split isGap
  obtain ⟨lead, tail, rfl, tailGaps, leadWritten⟩ :=
    exists_lead (fun token : Token => token.combinator? = some .descendant) front
  have splitRight :
      Joint.first.tokens (placedPieces source.toList) =
        (lead ++ (tail ++ token :: more)) ++ right :: behind := by
    rw [split]
    simp
  obtain ⟨parts, text, back, _, _, isBefore, endsWritten, isLaidOut⟩ :=
    exists_front_of_isWritten splitRight rightWritten
  have areGaps : ∀ other ∈ tail ++ token :: more, other.combinator? = some .descendant :=
    List.forall_mem_append.mpr ⟨tailGaps, List.forall_mem_cons.mpr ⟨isGap, moreGaps⟩⟩
  obtain ⟨isLead, isCombinator⟩ :=
    eq_of_lead (fun token : Token => token.combinator? = some .descendant) isBefore areGaps
      (fun _ => isLaidOut.combinator?_eq) leadWritten endsWritten
  obtain ⟨before, left, isConcat, starts⟩ :=
    Joint.exists_last_of_combinator? (isCombinator ▸ List.mem_append_right tail List.mem_cons_self)
  obtain rfl := isLead.trans isConcat
  -- What a gap becomes is one token.
  have atMostOne :
      ((Joint.first.afterAll (place Position.first parts)).combinator?
        right.kind).toList.length ≤ 1 :=
    Option.length_toList_le
  rw [← isCombinator, List.length_append, List.length_cons] at atMostOne
  obtain rfl : tail = [] := List.eq_nil_of_length_eq_zero (by omega)
  obtain rfl : more = [] := List.eq_nil_of_length_eq_zero (by omega)
  refine ⟨{
    before := before
    left := left
    between := [token]
    right := right
    behind := behind ++ [endToken source.toList]
    split := ?_
    leftWritten := leadWritten left (by simp)
    rightWritten := rightWritten
    areGaps := by simpa using isGap
    notEnd := fun isEnd => ?_ }, rfl⟩
  · rw [tokenize, split]
    simp
  · rw [isEnd] at starts
    contradiction

/--
Between two written tokens with no other between them there is a descendant
combinator when both are outside all blocks, the one ends a part of a selector and
the other begins one, and layout is in front of the latter. The combinator covers
this layout, back to the last character that was not expected or to the token
before. There are no other descendant combinators.
-/
theorem tokenize_descendants (source : String) :
    (∀ pair : Neighbours source,
      (pair.between ≠ [] ↔
        braceDepth pair.before = 0 ∧
          braceDepth (pair.before ++ pair.left :: pair.between) = 0 ∧
          pair.left.kind ∈ [.identifier, .hash, .star, .closeBracket] ∧
          pair.right.kind ∈
            [.identifier, .hash, .star, .dot, .colon, .doubleColon, .openBracket] ∧
          pair.gapStart < pair.right.start) ∧
      (∀ token ∈ pair.between,
        pair.between = [token] ∧
          token.start = pair.gapStart ∧
          token.stop = pair.right.start) ∧
      Layout (stretch source pair.gapStart pair.right.start) ∧
      ∀ finding ∈ (tokenize source).diagnostics.filter pair.isBetween,
        ∃ character,
          finding.message = "unexpected character " ++ quoted (String.singleton character)) ∧
    ∀ token ∈ (tokenize source).tokens,
      token.combinator? = some .descendant →
      ∃ pair : Neighbours source, pair.between = [token] := by
  refine ⟨fun pair => ⟨?_, fun _ => pair.eq_of_mem_between, pair.layout_stretch, ?_⟩, ?_⟩
  · rw [← Kind.endsSelectorPart_iff, ← Kind.startsSelector_iff]
    exact pair.between_ne_nil_iff
  · exact fun _ => pair.message_of_mem_findings
  · exact fun _ => exists_neighbours

/-- A gap begins behind a stray character and goes through a comment. -/
theorem tokenize_descendants_comment :
    ∃ pair : Neighbours "a $ /**/ .b",
      pair.between ≠ [] ∧
        pair.gapStart = 3 ∧
        pair.right.start = 9 := by
  obtain ⟨atNeighbours, allBetween⟩ := tokenize_descendants "a $ /**/ .b"
  obtain ⟨pair, isBetween⟩ :=
    allBetween
      { text := " /**/ ", start := 3, length := 6, line := 1, column := 4, kind := .combinator }
      (by decide +kernel) (by decide +kernel)
  obtain ⟨_, isStart, isStop⟩ := (atNeighbours pair).2.1 _ (isBetween ▸ List.mem_cons_self)
  exact ⟨pair, by simp [isBetween], isStart.symm, isStop.symm⟩

end QtSheet
