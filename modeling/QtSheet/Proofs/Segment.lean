import QtSheet.Proofs.Locality
import QtSheet.Proofs.Relocation
import QtSheet.Proofs.Truncation

namespace QtSheet

/-!
# Tokens of a stretch of text

Some tokens of a text, one behind the other, are the tokens of the stretch of
text from the first to the last of them, read by itself with as many braces open
as there are in front of it (`exists_segment`). Only a combinator that is made
of a gap may not be the first or the last of them.
-/

open Text

namespace Joint

/-- Nothing has been read but the braces that are open. -/
def atDepth (depth : Nat) : Joint where
  depth := depth
  last? := none
  gap? := none

/-- A token that no gap stands in front of makes up for all that has been read before. -/
theorem tokens_token
    {joint : Joint}
    (noGap : joint.gap? = none)
    (position : Position)
    (kind : Kind)
    (text : List Char)
    (rest : List Piece) :
    joint.tokens (place position (.token kind text :: rest)) =
      (atDepth joint.depth).tokens (place position (.token kind text :: rest)) := by
  have noCombinator : joint.combinator? kind = none := by
    rw [combinator?_eq, noGap]
    exact ite_self none
  simp only [place, tokens, emitted, noCombinator]
  rfl

/-- What a gap becomes is a combinator. -/
theorem kind_of_mem_combinator?
    {joint : Joint}
    {kind : Kind}
    {token : Token}
    (member : token ∈ (joint.combinator? kind).toList) :
    token.kind = .combinator := by
  rw [combinator?_eq] at member
  split at member
  · obtain ⟨gap, _, rfl⟩ := Option.map_eq_some_iff.mp (Option.mem_toList.mp member)
    rfl
  · contradiction

/-- A token that one more piece adds is the piece, behind the combinator of a gap. -/
private theorem eq_of_emitted
    {joint : Joint}
    {placed : PlacedPiece}
    {before behind : List Token}
    {token : Token}
    (split : joint.emitted placed = before ++ token :: behind)
    (noGap : ∀ kind, token ∉ (joint.combinator? kind).toList) :
    ∃ text,
      placed.piece = .token token.kind text ∧
        token.toExcerpt = Excerpt.ofPosition placed.position text ∧
        before = (joint.combinator? token.kind).toList := by
  revert split
  fun_cases emitted joint placed with
  | case1 kind text isPiece =>
      intro split
      rcases List.eq_nil_or_concat behind with rfl | ⟨others, last, rfl⟩
      · obtain ⟨isBefore, isToken⟩ := List.append_inj' split rfl
        obtain rfl := (List.cons.inj isToken).1
        exact ⟨text, isPiece, by rw [PlacedPiece.excerpt, isPiece]; rfl, isBefore.symm⟩
      · -- The token would be the combinator.
        rw [List.concat_eq_append, ← List.cons_append, ← List.append_assoc] at split
        have isCombinator := (List.append_inj' split rfl).1
        exact absurd (by rw [isCombinator]; simp) (noGap kind)
  | case2 =>
      simp

/--
A token that no gap becomes is a piece, and the tokens in front of it are those
of the pieces in front of it and the combinator of a gap, if there is one.
-/
theorem exists_piece_of_noGap
    {joint : Joint}
    {position : Position}
    {parts : List Piece}
    {before behind : List Token}
    {token : Token}
    (split : joint.tokens (place position parts) = before ++ token :: behind)
    (noGap :
      ∀ front,
        front <+: parts →
        ∀ kind, token ∉ ((joint.afterAll (place position front)).combinator? kind).toList) :
    ∃ front text back,
      parts = front ++ .token token.kind text :: back ∧
        token.toExcerpt =
          Excerpt.ofPosition (position.after (front.flatMap Piece.text)) text ∧
        before =
          joint.tokens (place position front) ++
            ((joint.afterAll (place position front)).combinator? token.kind).toList := by
  induction parts generalizing joint position before with
  | nil =>
      simp [place, tokens] at split
  | cons piece rest inductionHypothesis =>
      rw [place, tokens] at split
      by_cases isHere : ∃ others, joint.emitted ⟨position, piece⟩ = before ++ token :: others
      · obtain ⟨others, isEmitted⟩ := isHere
        obtain ⟨text, isPiece, isExcerpt, isBefore⟩ :=
          eq_of_emitted isEmitted (noGap [] List.nil_prefix)
        refine ⟨[], text, rest, ?_, isExcerpt, isBefore⟩
        rw [← show piece = .token token.kind text from isPiece]
        rfl
      · obtain ⟨others, isBefore, splitBehind⟩ :
            ∃ others,
              before = joint.emitted ⟨position, piece⟩ ++ others ∧
                (joint.next ⟨position, piece⟩).tokens (place (position.after piece.text) rest) =
                  others ++ token :: behind := by
          rcases List.append_eq_append_iff.mp split with
            ⟨others, isBefore, splitBehind⟩ | ⟨others, isEmitted, splitBehind⟩
          · exact ⟨others, isBefore, splitBehind⟩
          · cases others with
            | nil =>
                exact ⟨[], by simpa using isEmitted.symm, splitBehind.symm⟩
            | cons first others =>
                obtain ⟨rfl, _⟩ := List.cons.inj splitBehind
                exact absurd ⟨others, isEmitted⟩ isHere
        obtain ⟨front, text, back, rfl, isExcerpt, rfl⟩ :=
          inductionHypothesis splitBehind fun front isFront =>
            noGap (piece :: front) (List.cons_prefix_cons.mpr ⟨rfl, isFront⟩)
        refine ⟨piece :: front, text, back, rfl, ?_, ?_⟩
        · rw [isExcerpt, List.flatMap_cons, Position.after_append]
        · rw [isBefore, ← List.append_assoc]
          rfl

/--
A token that is no combinator is a piece, and the tokens in front of it are those
of the pieces in front of it and the combinator of a gap, if there is one.
-/
theorem exists_piece_of_tokens
    {joint : Joint}
    {position : Position}
    {parts : List Piece}
    {before behind : List Token}
    {token : Token}
    (split : joint.tokens (place position parts) = before ++ token :: behind)
    (noCombinator : token.kind ≠ .combinator) :
    ∃ front text back,
      parts = front ++ .token token.kind text :: back ∧
        token.toExcerpt =
          Excerpt.ofPosition (position.after (front.flatMap Piece.text)) text ∧
        before =
          joint.tokens (place position front) ++
            ((joint.afterAll (place position front)).combinator? token.kind).toList :=
  exists_piece_of_noGap split fun _ _ _ member => noCombinator (kind_of_mem_combinator? member)

/-- The pieces up to a token that is no combinator have the tokens up to it. -/
theorem exists_front_of_tokens
    {joint : Joint}
    {position : Position}
    {parts : List Piece}
    {before behind : List Token}
    {token : Token}
    (split : joint.tokens (place position parts) = before ++ token :: behind)
    (noCombinator : token.kind ≠ .combinator) :
    ∃ front text back,
      parts = front ++ .token token.kind text :: back ∧
        token.stop =
          position.offset + ((front ++ [.token token.kind text]).flatMap Piece.text).length ∧
        joint.tokens (place position (front ++ [.token token.kind text])) = before ++ [token] := by
  obtain ⟨front, text, back, isParts, isExcerpt, isBefore⟩ :=
    exists_piece_of_tokens split noCombinator
  refine ⟨front, text, back, isParts, ?_, ?_⟩
  · rw [isExcerpt]
    simp only [Excerpt.stop, Excerpt.ofPosition, Position.offset_after, List.flatMap_append,
      List.flatMap_cons, List.flatMap_nil, List.append_nil, List.length_append, Piece.text]
    omega
  · rw [place_append, tokens_append, isBefore, List.append_assoc]
    congr 2
    rw [place, place, tokens, tokens, emitted, List.append_nil, PlacedPiece.excerpt]
    rw [show token = ⟨token.toExcerpt, token.kind⟩ from rfl, isExcerpt]
    rfl

/-- The tokens from one on that is no combinator are those of the pieces from it on. -/
theorem exists_back_of_tokens
    {joint : Joint}
    {position : Position}
    {parts : List Piece}
    {before behind : List Token}
    {token : Token}
    (split : joint.tokens (place position parts) = before ++ token :: behind)
    (noCombinator : token.kind ≠ .combinator) :
    ∃ front text back,
      parts = front ++ .token token.kind text :: back ∧
        token.start = position.offset + (front.flatMap Piece.text).length ∧
        before.foldl Token.depthAfter joint.depth = depthAfter joint.depth front ∧
        token :: behind =
          (atDepth (depthAfter joint.depth front)).tokens
            (place (position.after (front.flatMap Piece.text))
              (.token token.kind text :: back)) := by
  obtain ⟨front, text, back, rfl, isExcerpt, rfl⟩ := exists_piece_of_tokens split noCombinator
  refine ⟨front, text, back, rfl, ?_, ?_, ?_⟩
  · rw [isExcerpt, Excerpt.ofPosition, Position.offset_after]
    rfl
  · rw [List.foldl_append, foldl_combinator?, foldl_tokens, depth_afterAll]
  · rw [place_append, tokens_append, List.append_assoc] at split
    have isToken :
        (⟨.ofPosition (position.after (front.flatMap Piece.text)) text, token.kind⟩ : Token) =
          token := by
      rw [← isExcerpt]
    have isBack := List.append_cancel_left split
    rw [place, tokens, emitted, List.append_assoc] at isBack
    rw [← List.append_cancel_left isBack, place, tokens, emitted, ← depth_afterAll joint position]
    rfl

end Joint

/--
Tokens are those of a stretch of a text behind some front, read by itself with a
number of braces open.
-/
structure IsSegment
    (source : List Char)
    (depth : Nat)
    (front middle : List Char)
    (own : List Token) : Prop where
  isPart : front ++ middle <+: source
  parts : pieces depth middle ⊆ pieces 0 source
  begins : ∃ kind text rest, pieces depth middle = .token kind text :: rest
  tokens :
    own =
      (Joint.atDepth depth).tokens
        (place (Position.first.after front) (pieces depth middle))

/--
Tokens of a text are those of the stretch from the first to the last of them,
with as many braces open as there are in front of them.
-/
theorem exists_segment
    {source : List Char}
    {before own behind : List Token}
    {first last : Token}
    (split : Joint.first.tokens (placedPieces source) = before ++ (own ++ behind))
    (isFirst : own.head? = some first)
    (isLast : own.getLast? = some last)
    (firstNoCombinator : first.kind ≠ .combinator)
    (lastNoCombinator : last.kind ≠ .combinator) :
    ∃ front middle,
      first.start = front.length ∧
        last.stop = front.length + middle.length ∧
        IsSegment source (braceDepth before) front middle own := by
  have whole := text_pieces 0 source
  have wellCut := wellCut_pieces 0 source
  obtain ⟨init, rfl⟩ := List.getLast?_eq_some_iff.mp isLast
  -- Drop what is behind the last token, and then what is in front of the first one.
  have splitLast :
      Joint.first.tokens (place Position.first (pieces 0 source)) =
        (before ++ init) ++ last :: behind := by
    refine split.trans ?_
    simp
  obtain ⟨most, lastText, back, isParts, isStop, upToLast⟩ :=
    Joint.exists_front_of_tokens splitLast lastNoCombinator
  obtain ⟨tail, isOwn⟩ := List.head?_eq_some_iff.mp isFirst
  rw [List.append_assoc, isOwn] at upToLast
  obtain ⟨front, firstText, others, isFront, isStart, isDepth, fromFirst⟩ :=
    Joint.exists_back_of_tokens upToLast firstNoCombinator
  have isCut :
      pieces 0 source = front ++ (.token first.kind firstText :: others ++ back) := by
    rw [isParts, ← List.append_assoc, ← isFront]
    simp
  rw [isCut, List.flatMap_append, List.flatMap_append] at whole
  have areClosed :
      ∀ piece ∈ Piece.token first.kind firstText :: others, piece.isUnterminated = false := by
    intro piece member
    have isMember : piece ∈ most ++ [Piece.token last.kind lastText] := by
      rw [isFront]
      exact List.mem_append_right front member
    rcases List.mem_append.mp isMember with inMost | isTheLast
    · rw [isParts] at wellCut
      exact wellCut.isUnterminated_eq_false (by simp) inMost
    · rw [List.mem_singleton.mp isTheLast]
      rfl
  have middleCut :
      pieces (depthAfter 0 front)
          ((Piece.token first.kind firstText :: others).flatMap Piece.text) =
        .token first.kind firstText :: others :=
    pieces_flatMap_text (eq_pieces_of_append isCut whole.symm).symm areClosed
  refine ⟨front.flatMap Piece.text, (Piece.token first.kind firstText :: others).flatMap Piece.text,
    ?_, ?_, ?_⟩
  · simpa [Position.first] using isStart
  · rw [isStop, isFront, List.flatMap_append, List.length_append]
    simp [Position.first]
  · rw [braceDepth, show before.foldl Token.depthAfter 0 = depthAfter 0 front from isDepth]
    refine ⟨⟨back.flatMap Piece.text, ?_⟩, ?_, ⟨_, _, _, middleCut⟩, ?_⟩
    · rw [List.append_assoc]
      exact whole
    · rw [middleCut, isCut]
      exact fun piece member => List.mem_append_right _ (List.mem_append_left _ member)
    · rw [middleCut]
      exact isOwn.trans fromFirst

/-- The tokens of a stretch at another place are its tokens, at that place. -/
theorem IsSegment.tokens_eq
    {source front middle : List Char}
    {depth : Nat}
    {own : List Token}
    (segment : IsSegment source depth front middle own)
    {joint : Joint}
    (noGap : joint.gap? = none)
    (isDepth : joint.depth = depth)
    (other behind : List Char) :
    joint.tokens (place (Position.first.after other) (pieces depth middle)) =
      own.map (Relocation.between front other (middle ++ behind)).token := by
  have moved :
      Joint.Moved (Position.first.after front) (Position.first.after other) []
        (Joint.atDepth depth) (Joint.atDepth depth) :=
    ⟨rfl, rfl, .inl ⟨rfl, rfl⟩⟩
  have isPart : [] ++ (pieces depth middle).flatMap Piece.text <+: middle := by
    rw [text_pieces]
    exact List.prefix_rfl
  have allMoved := Joint.tokens_moved moved (wellCut_pieces depth middle) isPart
  obtain ⟨kind, text, rest, begins⟩ := segment.begins
  rw [segment.tokens]
  refine Eq.trans ?_ (Token.eq_map_of_moved allMoved behind)
  rw [begins, Joint.tokens_token noGap, isDepth]
  rfl

end QtSheet
