import QtSheet.Proofs.Likeness.Rule
import QtSheet.Proofs.Move
import QtSheet.Proofs.Tiling

namespace QtSheet

/-!
# Findings stay local

A text that ends with a closing brace and leaves no brace open does not change
what is found in the text behind it, and the text behind it does not change
what is found in it, unless a block opens there at once. The findings about the
two texts together are those about the first and then those about the second,
moved behind the first (`diagnostics_append_of_closing`).
-/

/-- The number of open braces after a token; a closing brace without an opening one is ignored. -/
def Token.depthAfter (depth : Nat) (token : Token) : Nat :=
  match token.kind with
  | .openBrace => depth + 1
  | .closeBrace => depth - 1
  | _ => depth

/-- The number of open braces after some tokens. -/
def braceDepth (tokens : List Token) : Nat :=
  tokens.foldl Token.depthAfter 0

/-- An excerpt of a text as it stands with another text in front of that. -/
def Excerpt.behind (front back : List Char) (excerpt : Excerpt) : Excerpt :=
  let place := Position.first.after ((front ++ back).take (front.length + excerpt.start.toNat))
  { excerpt with
      start := front.length + excerpt.start
      line := place.line
      column := place.column }

/-- A token of a text as it stands with another text in front of that. -/
def Token.behind (front back : List Char) (token : Token) : Token :=
  { token with toExcerpt := token.toExcerpt.behind front back }

/-- A finding about a text as it stands with another text in front of that. -/
def Diagnostic.behind (front back : List Char) (diagnostic : Diagnostic) : Diagnostic :=
  { diagnostic with toExcerpt := diagnostic.toExcerpt.behind front back }

namespace Joint

/-- The combinator of a gap opens and closes no brace. -/
theorem foldl_combinator? (joint : Joint) (kind : Kind) (depth : Nat) :
    (joint.combinator? kind).toList.foldl Token.depthAfter depth = depth := by
  rw [combinator?_eq]
  split
  · cases joint.gap? <;> rfl
  · rfl

/-- The tokens that a piece gives open and close the braces that the piece does. -/
theorem foldl_emitted (joint : Joint) (placed : PlacedPiece) :
    (joint.emitted placed).foldl Token.depthAfter joint.depth = (joint.next placed).depth := by
  unfold emitted next
  cases placed.piece with
  | gap text =>
      dsimp only
      split <;> rfl
  | stray character =>
      rfl
  | unterminated construct text =>
      rfl
  | token kind text =>
      dsimp only
      rw [List.foldl_append, foldl_combinator?]
      cases kind <;> rfl

/-- The tokens of pieces leave as many braces open as the pieces. -/
theorem foldl_tokens (joint : Joint) (placed : List PlacedPiece) :
    (joint.tokens placed).foldl Token.depthAfter joint.depth = (joint.afterAll placed).depth := by
  induction placed generalizing joint with
  | nil =>
      rfl
  | cons first rest inductionHypothesis =>
      rw [tokens, List.foldl_append, foldl_emitted, inductionHypothesis]
      rfl

end Joint

/-- The tokens of a text leave as many braces open as its pieces. -/
theorem braceDepth_tokenize (source : String) :
    braceDepth (tokenize source).tokens = depthAfter 0 (pieces 0 source.toList) := by
  have depth := Joint.foldl_tokens Joint.first (placedPieces source.toList)
  rw [placedPieces, Joint.depth_afterAll] at depth
  rw [braceDepth, tokenize, List.foldl_append]
  exact depth

/-- A token that one more piece adds is the piece, or a combinator. -/
theorem Joint.piece_of_mem_emitted
    {joint : Joint}
    {placed : PlacedPiece}
    {token : Token}
    (member : token ∈ joint.emitted placed)
    (noCombinator : token.kind ≠ .combinator) :
    ∃ text, placed.piece = .token token.kind text := by
  revert member
  fun_cases emitted joint placed with
  | case1 kind text isPiece =>
      intro member
      rcases List.mem_append.mp member with isCombinator | isToken
      · rw [combinator?_eq] at isCombinator
        split at isCombinator
        · simp only [Option.mem_toList, Option.map_eq_some_iff] at isCombinator
          obtain ⟨_, _, rfl⟩ := isCombinator
          contradiction
        · contradiction
      · rw [List.mem_singleton.mp isToken]
        exact ⟨text, isPiece⟩
  | case2 =>
      rintro ⟨⟩

/-- The piece of a closing brace. -/
def closingPiece : Piece :=
  .token .closeBrace ['\x7d']

/-- A closing brace at the end of a text is the last of its pieces. -/
theorem exists_pieces_of_closing
    {source : String}
    {closing : Token}
    (isToken : closing ∈ (tokenize source).tokens)
    (isBrace : closing.kind = .closeBrace)
    (isLast : closing.stop = source.length) :
    ∃ parts, pieces 0 source.toList = parts ++ [closingPiece] := by
  have isBody : closing ∈ Joint.first.tokens (placedPieces source.toList) := by
    rcases List.mem_append.mp isToken with inBody | isEnd
    · exact inBody
    · rw [List.mem_singleton.mp isEnd] at isBrace
      contradiction
  have wellCut := wellCut_pieces 0 source.toList
  have whole := text_pieces 0 source.toList
  rw [placedPieces] at isBody
  rcases List.eq_nil_or_concat (pieces 0 source.toList) with isNil | ⟨parts, last, shape⟩
  · rw [isNil] at isBody
    contradiction
  · rw [List.concat_eq_append] at shape
    rw [shape] at isBody wellCut whole
    rw [place_append, Joint.tokens_append] at isBody
    rcases List.mem_append.mp isBody with inFront | isEmitted
    · -- The token would end in front of the last piece, which is not empty.
      obtain ⟨before, text, isPart, isExcerpt⟩ :=
        exists_stretch_of_mem_tokens wellCut.of_append_left inFront
      have nonempty : last.text ≠ [] := wellCut.text_ne_nil (by simp)
      have positive := List.length_pos_iff.mpr nonempty
      have within := isPart.length_le
      have total := congrArg List.length whole
      simp only [List.flatMap_append, List.flatMap_cons, List.flatMap_nil, List.append_nil,
        List.length_append, String.length_toList] at total within
      rw [isExcerpt] at isLast
      simp only [Excerpt.stop, Excerpt.ofPosition, Position.offset_after, Position.first]
        at isLast
      omega
    · refine ⟨parts, ?_⟩
      rw [place, place, Joint.tokens, Joint.tokens, List.append_nil] at isEmitted
      obtain ⟨text, isPiece⟩ := Joint.piece_of_mem_emitted isEmitted (by simp [isBrace])
      rw [isBrace] at isPiece
      have isText := (WellCut.wellCut wellCut).closeBrace text isPiece
      rw [shape, show last = .token .closeBrace text from isPiece, isText]
      rfl

/-- Behind a closing brace outside of all blocks the pieces are those of the text behind it. -/
theorem pieces_append_of_closing
    {front : List Char}
    {parts : List Piece}
    (cut : pieces 0 front = parts ++ [closingPiece])
    (balanced : depthAfter 0 (pieces 0 front) = 0)
    (back : List Char) :
    pieces 0 (front ++ back) = pieces 0 front ++ pieces 0 back := by
  have wellCut := wellCut_pieces 0 front
  have whole := text_pieces 0 front
  rw [cut] at wellCut whole balanced
  rw [List.flatMap_append] at whole
  have braceEnds : ∀ behind, EndsWord ('\x7d' :: behind) := by
    intro behind c isFirst
    cases isFirst
    decide
  have cutBefore : pieces 0 (parts.flatMap Piece.text ++ ['\x7d']) = parts ++ [closingPiece] := by
    rw [← cut, ← whole]
    rfl
  have exchanged :
      pieces 0 (parts.flatMap Piece.text ++ '\x7d' :: back) =
        parts ++ pieces (depthAfter 0 parts) ('\x7d' :: back) := by
    refine pieces_append (braceEnds []) (braceEnds back) cutBefore ?_ ?_
    · exact fun piece member => wellCut.isUnterminated_eq_false (by simp) member
    · intro piece _ _ next isNext
      cases isNext
      decide
  have isBrace :
      nextPiece (depthAfter 0 parts) '\x7d' back = (closingPiece, back) :=
    (NextPiece.mark rfl).eq
  have isDepth : closingPiece.depthAfter (depthAfter 0 parts) = 0 := by
    rw [depthAfter, List.foldl_append] at balanced
    exact balanced
  rw [cut, ← whole, List.append_assoc, List.append_assoc]
  refine exchanged.trans ?_
  rw [pieces, isBrace, isDepth]
  rfl

/-- What stands behind a text in a longer one stands behind it with its place changed. -/
theorem Excerpt.eq_behind
    {front back : List Char}
    {here there : Excerpt}
    (moved : Excerpt.Moved Position.first (Position.first.after front) back here there) :
    there = here.behind front back := by
  obtain ⟨before, text, isPart, rfl, rfl⟩ := moved
  obtain ⟨behind, rfl⟩ := (List.prefix_append before text).trans isPart
  have isTaken :
      (front ++ (before ++ behind)).take (front.length + before.length) = front ++ before := by
    rw [← List.append_assoc, ← List.length_append, List.take_left]
  simp only [Excerpt.behind, Excerpt.ofPosition, Position.offset_after, Position.first,
    Nat.zero_add, Int.toNat_natCast, isTaken, Position.after_append, Int.natCast_add]

/-- A token that is moved behind a text is the one with its place there. -/
theorem Token.eq_behind
    {front back : List Char}
    {here there : Token}
    (moved : Token.Moved Position.first (Position.first.after front) back here there) :
    there = here.behind front back := by
  obtain ⟨excerpt, kind⟩ := there
  obtain ⟨rfl, excerptMoved⟩ := moved
  obtain rfl := Excerpt.eq_behind excerptMoved
  rfl

/-- A finding that is moved behind a text is the one with its place there. -/
theorem Diagnostic.eq_behind
    {front back : List Char}
    {here there : Diagnostic}
    (moved : Diagnostic.Moved Position.first (Position.first.after front) back here there) :
    there = here.behind front back := by
  obtain ⟨excerpt, severity, message⟩ := there
  obtain ⟨rfl, rfl, excerptMoved⟩ := moved
  obtain rfl := Excerpt.eq_behind excerptMoved
  rfl

/-- The end of two texts is the end of the second. -/
theorem endToken_append (front back : List Char) :
    endToken (front ++ back) = (endToken back).behind front back := by
  refine Token.eq_behind ⟨rfl, back, [], by simp, rfl, ?_⟩
  rw [endToken, Position.after_append]

/-- A text that ends with a closing brace and leaves no brace open. -/
structure EndsClosed (source : String) : Prop where
  closes : ∃ parts, pieces 0 source.toList = parts ++ [closingPiece]
  balanced : depthAfter 0 (pieces 0 source.toList) = 0

/-- The pieces of a text are part of it. -/
private theorem isPart_pieces (text : List Char) :
    [] ++ (pieces 0 text).flatMap Piece.text <+: text := by
  rw [text_pieces]
  exact List.prefix_rfl

section Append

variable {front : String} (closed : EndsClosed front) (back : String)

include closed

/-- Where a text ends closed, the pieces of another behind it stand behind its own. -/
private theorem placedPieces_append :
    placedPieces (front ++ back).toList =
      placedPieces front.toList ++
        place (Position.first.after front.toList) (pieces 0 back.toList) := by
  obtain ⟨parts, cut⟩ := closed.closes
  rw [placedPieces, String.toList_append, pieces_append_of_closing cut closed.balanced,
    place_append, text_pieces]
  rfl

/-- Behind a text that ends closed, the reading of tokens starts as at the front. -/
private theorem moved_afterAll :
    Joint.Moved Position.first (Position.first.after front.toList) [] Joint.first
      (Joint.first.afterAll (placedPieces front.toList)) := by
  have depth := Joint.depth_afterAll Joint.first Position.first (pieces 0 front.toList)
  obtain ⟨parts, cut⟩ := closed.closes
  refine ⟨(depth.trans closed.balanced).symm, ?_, .inl ⟨rfl, ?_⟩⟩
  · rw [placedPieces, cut, place_append, Joint.afterAll, List.foldl_append]
    rfl
  · rw [placedPieces, cut, place_append, Joint.afterAll, List.foldl_append]
    rfl

/-- The tokens of two texts are those of the first and then those of the second. -/
theorem tokens_append_text :
    Joint.first.tokens (placedPieces (front ++ back).toList) =
      Joint.first.tokens (placedPieces front.toList) ++
        (Joint.first.tokens (placedPieces back.toList)).map
          (Token.behind front.toList back.toList) := by
  have moved :=
    Joint.tokens_moved (moved_afterAll closed) (wellCut_pieces 0 back.toList) (isPart_pieces _)
  rw [placedPieces_append closed, Joint.tokens_append]
  exact congrArg _ (eq_map_of_forall₂ (moved.imp fun _ _ => Token.eq_behind))

/-- The findings about the characters of two texts are those of both, one after the other. -/
theorem diagnostics_append_text :
    (tokenize (front ++ back)).diagnostics =
      (tokenize front).diagnostics ++
        (tokenize back).diagnostics.map (Diagnostic.behind front.toList back.toList) := by
  have moved :
      List.Forall₂
        (Diagnostic.Moved Position.first (Position.first.after front.toList) back.toList)
        _ _ :=
    diagnostics_moved (isPart_pieces _)
  rw [tokenize, placedPieces_append closed, List.filterMap_append]
  exact congrArg _ (eq_map_of_forall₂ (moved.imp fun _ _ => Diagnostic.eq_behind))

end Append

/-- Tokens that are the same up to a closing brace. -/
def Likeness.closing (back : List Token) (noBlock : NoBlock back) : Likeness where
  related := Eq
  behind? := some ([], back)
  kind same := same ▸ rfl
  text same _ := same ▸ rfl
  combinator same := same ▸ rfl
  touch same sameNext := by
    rw [same, sameNext]
  noBlock isBehind := by
    cases isBehind
    exact ⟨by simp [NoBlock], noBlock⟩

/-- A token follows directly on another behind a text when it does without the text. -/
theorem Token.touch_behind (front back : List Char) (token next : Token) :
    next.start = token.stop ↔
      (next.behind front back).start = (token.behind front back).stop := by
  simp only [Token.behind, Excerpt.behind, Excerpt.stop]
  omega

/-- Tokens of a text, and the same tokens behind another text. -/
def Likeness.behind (front back : List Char) : Likeness where
  related here there := there = here.behind front back
  behind? := none
  kind isBehind := isBehind ▸ rfl
  text isBehind _ := isBehind ▸ rfl
  combinator isBehind := isBehind ▸ rfl
  touch isBehind nextBehind := isBehind ▸ nextBehind ▸ Token.touch_behind front back _ _
  noBlock := noBlock_of_none

/-- Tokens up to a closing brace are like themselves with more behind it. -/
private theorem alike_closing
    {back : List Token}
    {closing : Token}
    (noBlock : NoBlock back)
    (isBrace : closing.kind = .closeBrace)
    (front : List Token) :
    (Likeness.closing back noBlock).Alike (front ++ [closing]) (front ++ [closing] ++ back) := by
  induction front with
  | nil =>
      exact .close rfl rfl isBrace
  | cons token rest inductionHypothesis =>
      exact .cons rfl inductionHypothesis

/--
A closing brace ends the faults: those behind it are the faults of what is
behind it, and none of those in front of it is at the end of the input.
-/
theorem faults_append
    {back : List Token}
    {closing : Token}
    (noBlock : NoBlock back)
    (isBrace : closing.kind = .closeBrace)
    (front : List Token) :
    (Outline.read (front ++ [closing] ++ back)).faults =
        (Outline.read (front ++ [closing])).faults ++ (Outline.read back).faults ∧
      ∀ fault ∈ (Outline.read (front ++ [closing])).faults, fault.token?.isSome := by
  obtain ⟨hereFaults, thereFaults, isHere, isThere, faultsAlike⟩ :=
    (Likeness.outline_alike (.inl (alike_closing noBlock isBrace front))).faults
  have noneBehind : (Outline.read ([] : List Token)).faults = [] := by
    rw [Outline.read]
  have isFront : (Outline.read (front ++ [closing])).faults = hereFaults := by
    rw [isHere, show (Likeness.closing back noBlock).tails = ([], back) from rfl, noneBehind,
      List.append_nil]
  have same : ∀ here there,
      (Likeness.closing back noBlock).FaultAlike here there →
      here = there ∧ here.token?.isSome := by
    rintro ⟨reason, token?⟩ ⟨otherReason, otherToken?⟩ ⟨sameReason, blamed⟩
    simp only at sameReason blamed
    cases blamed with
    | token related =>
        obtain rfl := sameReason
        obtain rfl : _ = _ := related
        exact ⟨rfl, rfl⟩
    | atEnd noBehind =>
        contradiction
  have sameFaults : hereFaults = thereFaults := by
    rw [← List.forall₂_eq_eq_eq]
    exact faultsAlike.imp fun here there alike => (same here there alike).1
  rw [isFront, isThere, ← sameFaults]
  rw [← sameFaults] at faultsAlike
  refine ⟨rfl, ?_⟩
  intro fault member
  exact (same fault fault (List.forall₂_same.mp faultsAlike fault member)).2

/-- The findings about the tokens of a text behind another are those about its tokens, moved. -/
theorem diagnostics_behind
    (front back : List Char)
    (tokens : List Token)
    (last : Token) :
    (Outline.read (tokens.map (Token.behind front back))).faults.map
        (Fault.diagnostic (last.behind front back)) =
      ((Outline.read tokens).faults.map (Fault.diagnostic last)).map
        (Diagnostic.behind front back) := by
  have allBehind :
      List.Forall₂ (Likeness.behind front back).related tokens
        (tokens.map (Token.behind front back)) := by
    rw [List.forall₂_map_right_iff, List.forall₂_same]
    exact fun _ _ => rfl
  obtain ⟨_, faultsAlike⟩ := Likeness.outline_alike_of_forall₂ rfl allBehind
  rw [List.map_map]
  refine (map_eq_map_of_forall₂ faultsAlike ?_).symm
  rintro ⟨reason, token?⟩ ⟨otherReason, otherToken?⟩ ⟨rfl, blamed⟩
  cases blamed with
  | token related =>
      obtain rfl : _ = _ := related
      rfl
  | atEnd _ =>
      rfl

/-- The last token of a text that ends closed is a closing brace. -/
private theorem exists_closing_of_endsClosed
    {front : String}
    (closed : EndsClosed front) :
    ∃ before closing,
      Joint.first.tokens (placedPieces front.toList) = before ++ [closing] ∧
        closing.kind = .closeBrace := by
  obtain ⟨parts, cut⟩ := closed.closes
  rw [placedPieces, cut, place_append, Joint.tokens_append]
  simp only [place, Joint.tokens, Joint.emitted, closingPiece, List.append_nil,
    ← List.append_assoc]
  exact ⟨_, _, rfl, rfl⟩

/-- The findings about the tokens of two texts are those of both, one after the other. -/
theorem findings_append_text
    {front back : String}
    (closed : EndsClosed front)
    (noBlock : NoBlock (Joint.first.tokens (placedPieces back.toList))) :
    findings (Sheet.ofTokens (tokenize (front ++ back)).tokens) =
      findings (Sheet.ofTokens (tokenize front).tokens) ++
        (findings (Sheet.ofTokens (tokenize back).tokens)).map
          (Diagnostic.behind front.toList back.toList) := by
  obtain ⟨before, closing, isFront, isBrace⟩ := exists_closing_of_endsClosed closed
  have noBlockBehind :
      NoBlock ((Joint.first.tokens (placedPieces back.toList)).map
        (Token.behind front.toList back.toList)) := by
    intro token isFirst
    rw [List.head?_map, Option.mem_def, Option.map_eq_some_iff] at isFirst
    obtain ⟨original, isOriginal, rfl⟩ := isFirst
    exact noBlock original isOriginal
  obtain ⟨allFaults, areSome⟩ := faults_append noBlockBehind isBrace before
  simp only [findings_ofTokens, Sheet.outline, tokensBeforeEnd_tokenize, endOfTokens_tokenize]
  rw [tokens_append_text closed, ← diagnostics_behind, ← endToken_append, ← String.toList_append,
    isFront, allFaults, List.map_append]
  exact congrArg (· ++ _) (map_diagnostic_congr areSome _ _)

/--
The findings about two texts, the first of which ends with a closing brace and
leaves no brace open, are those about the first and then those about the second,
moved behind the first, unless the second begins with a block.
-/
theorem diagnostics_append_of_closing
    (front back : String)
    (closing : Token)
    (isToken : closing ∈ (tokenize front).tokens)
    (isBrace : closing.kind = .closeBrace)
    (isLast : closing.stop = front.length)
    (balanced : braceDepth (tokenize front).tokens = 0)
    (noBlock : ∀ token ∈ (tokenize back).tokens.head?, token.kind ≠ .openBrace) :
    (tokenize (front ++ back)).diagnostics =
        (tokenize front).diagnostics ++
          (tokenize back).diagnostics.map (Diagnostic.behind front.toList back.toList) ∧
      findings (Sheet.ofTokens (tokenize (front ++ back)).tokens) =
        findings (Sheet.ofTokens (tokenize front).tokens) ++
          (findings (Sheet.ofTokens (tokenize back).tokens)).map
            (Diagnostic.behind front.toList back.toList) := by
  have closed : EndsClosed front := by
    refine ⟨exists_pieces_of_closing isToken isBrace isLast, ?_⟩
    rw [← braceDepth_tokenize]
    exact balanced
  refine ⟨diagnostics_append_text closed back, findings_append_text closed ?_⟩
  intro token isFirst
  apply noBlock token
  rw [tokenize, List.head?_append, isFirst]
  rfl

/-- What is found in a broken rule does not depend on another broken rule in front of it. -/
theorem diagnostics_append_of_broken_rules :
    braceDepth (tokenize "A\x7bb?\x7d\x7d").tokens = 0 ∧
      (tokenize ("A\x7bb?\x7d\x7d" ++ "\n.\x7b?")).diagnostics =
        (tokenize "A\x7bb?\x7d\x7d").diagnostics ++
          (tokenize "\n.\x7b?").diagnostics.map
            (Diagnostic.behind "A\x7bb?\x7d\x7d".toList "\n.\x7b?".toList) ∧
      findings (Sheet.ofTokens (tokenize ("A\x7bb?\x7d\x7d" ++ "\n.\x7b?")).tokens) =
        findings (Sheet.ofTokens (tokenize "A\x7bb?\x7d\x7d").tokens) ++
          (findings (Sheet.ofTokens (tokenize "\n.\x7b?").tokens)).map
            (Diagnostic.behind "A\x7bb?\x7d\x7d".toList "\n.\x7b?".toList) ∧
      ((tokenize ("A\x7bb?\x7d\x7d" ++ "\n.\x7b?")).diagnostics.map fun finding =>
          (finding.start, finding.message)) =
        [(3, "unexpected character '?'"), (9, "unexpected character '?'")] ∧
      ((findings (Sheet.ofTokens (tokenize ("A\x7bb?\x7d\x7d" ++ "\n.\x7b?")).tokens)).map
          fun finding => (finding.start, finding.message)) =
        [(4, "expected ':' after property 'b', found '\x7d'"),
          (5, "unexpected '\x7d' outside of a rule"),
          (8, "expected class name immediately after '.', found '\x7b'"),
          (10, "expected '\x7d' before end of input")] := by
  have frontPieces :
      pieces 0 ['A', '\x7b', 'b', '?', '\x7d', '\x7d'] =
        [.token .identifier ['A'], .token .openBrace ['\x7b'], .token .identifier ['b'],
          .stray '?', closingPiece, closingPiece] := by
    decide +kernel
  have backPieces :
      pieces 0 ['\n', '.', '\x7b', '?'] =
        [.gap ['\n'], .token .dot ['.'], .token .openBrace ['\x7b'], .stray '?'] := by
    decide +kernel
  have frontTokens :
      (tokenize "A\x7bb?\x7d\x7d").tokens =
        [⟨⟨"A", 0, 1, 1, 1⟩, .identifier⟩, ⟨⟨"\x7b", 1, 1, 1, 2⟩, .openBrace⟩,
          ⟨⟨"b", 2, 1, 1, 3⟩, .identifier⟩, ⟨⟨"\x7d", 4, 1, 1, 5⟩, .closeBrace⟩,
          ⟨⟨"\x7d", 5, 1, 1, 6⟩, .closeBrace⟩, ⟨⟨"", 6, 0, 1, 7⟩, .endOfInput⟩] := by
    have chars : "A\x7bb?\x7d\x7d".toList = ['A', '\x7b', 'b', '?', '\x7d', '\x7d'] := rfl
    rw [tokenize, chars, placedPieces, frontPieces]
    rfl
  have backTokens :
      (tokenize "\n.\x7b?").tokens =
        [⟨⟨".", 1, 1, 2, 1⟩, .dot⟩, ⟨⟨"\x7b", 2, 1, 2, 2⟩, .openBrace⟩,
          ⟨⟨"", 4, 0, 2, 4⟩, .endOfInput⟩] := by
    have chars : "\n.\x7b?".toList = ['\n', '.', '\x7b', '?'] := rfl
    rw [tokenize, chars, placedPieces, backPieces]
    rfl
  have balanced : braceDepth (tokenize "A\x7bb?\x7d\x7d").tokens = 0 := by
    rw [frontTokens]
    rfl
  obtain ⟨sameLexical, sameFindings⟩ :=
    diagnostics_append_of_closing "A\x7bb?\x7d\x7d" "\n.\x7b?"
      ⟨⟨"\x7d", 5, 1, 1, 6⟩, .closeBrace⟩ (by rw [frontTokens]; decide) rfl rfl balanced
      (by rw [backTokens]; decide)
  exact ⟨balanced, sameLexical, sameFindings, by decide +kernel, by decide +kernel⟩

end QtSheet
