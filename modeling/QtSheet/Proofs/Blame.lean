import QtSheet.Proofs.Reading
import QtSheet.Proofs.Tiling

namespace QtSheet

/-!
# Whom the faults blame

A fault does not take the token that it blames: the token is left to whoever
passes over the rest of the faulty declaration or selector. So it has to be
shown that a token is never blamed again. The tokens that the faults of a list
blame stand in it in the order of the faults, each at most once, and behind them
the end of the input is blamed twice at most (`Outline.blames_read`).
-/

/-- Where the end of the input may be blamed, when some tokens are left: twice, once none is. -/
def endMarks (rest : List Token) : List (Option Token) :=
  if rest = [] then [none, none] else []

/--
Faults that blame the tokens in front of some rest, in order and each at most
once, and the end of the input at most twice, if there is no rest.
-/
def Blames (tokens rest : List Token) (faults : List Fault) : Prop :=
  ∃ taken,
    tokens = taken ++ rest ∧
      (faults.map Fault.token?).Sublist (taken.map some ++ endMarks rest)

namespace Blames

theorem nil
    {tokens rest : List Token}
    (isSuffix : rest <:+ tokens) :
    Blames tokens rest [] := by
  obtain ⟨taken, rfl⟩ := isSuffix
  exact ⟨taken, rfl, List.nil_sublist _⟩

/-- Tokens in front that no fault blames change nothing. -/
theorem of_suffix
    {tokens later rest : List Token}
    {faults : List Fault}
    (blames : Blames later rest faults)
    (isSuffix : later <:+ tokens) :
    Blames tokens rest faults := by
  obtain ⟨taken, rfl, inOrder⟩ := blames
  obtain ⟨front, rfl⟩ := isSuffix
  refine ⟨front ++ taken, (List.append_assoc _ _ _).symm, ?_⟩
  rw [List.map_append, List.append_assoc]
  exact inOrder.trans (List.sublist_append_right _ _)

/-- A token may be blamed in front of faults that do not blame it. -/
theorem cons
    {token : Token}
    {tokens rest : List Token}
    {faults : List Fault}
    (blames : Blames tokens rest faults)
    (reason : Reason) :
    Blames (token :: tokens) rest (⟨reason, some token⟩ :: faults) := by
  obtain ⟨taken, rfl, inOrder⟩ := blames
  exact ⟨token :: taken, rfl, inOrder.cons_cons _⟩

/-- Faults behind others blame the tokens behind, unless there are none. -/
theorem append
    {tokens middle rest : List Token}
    {faults others : List Fault}
    (blames : Blames tokens middle faults)
    (behind : Blames middle rest others)
    (noOthers : middle = [] → others = []) :
    Blames tokens rest (faults ++ others) := by
  obtain ⟨taken, rfl, inOrder⟩ := blames
  by_cases isEnd : middle = []
  · obtain ⟨_, shape, _⟩ := behind
    obtain ⟨_, rfl⟩ := List.append_eq_nil_iff.mp (shape.symm.trans isEnd)
    rw [noOthers isEnd, List.append_nil, isEnd]
    rw [isEnd] at inOrder
    exact ⟨taken, rfl, inOrder⟩
  · obtain ⟨others, rfl, othersInOrder⟩ := behind
    refine ⟨taken ++ others, (List.append_assoc _ _ _).symm, ?_⟩
    rw [endMarks, if_neg isEnd, List.append_nil] at inOrder
    rw [List.map_append, List.map_append, List.append_assoc]
    exact inOrder.append othersInOrder

end Blames

/--
A fault in front of some tokens, and the faults of the block behind the rest of
its declaration. Only a closing brace is kept, and it is taken without a fault.
-/
private theorem blames_skipDeclaration
    {after : List Token}
    (reason : Reason)
    (blames :
      Blames (skipDeclaration after) (Block.read (skipDeclaration after)).rest
        (Block.read (skipDeclaration after)).faults) :
    Blames after (Block.read (skipDeclaration after)).rest
      (⟨reason, after.head?⟩ :: (Block.read (skipDeclaration after)).faults) := by
  cases after with
  | nil =>
      rw [skipDeclaration, Block.read]
      exact ⟨[], rfl, .refl _⟩
  | cons token rest =>
      by_cases closes : token.kind = .closeBrace
      · rw [skipDeclaration, if_pos closes, Block.read_cons, if_pos closes]
        exact (Blames.nil List.suffix_rfl).cons reason
      · have passed : skipDeclaration (token :: rest) <:+ rest := by
          rw [skipDeclaration, if_neg closes]
          split
          · exact List.suffix_rfl
          · exact suffix_skipDeclaration rest
        exact (blames.of_suffix passed).cons reason

/-- The faults of a block blame its tokens in order. -/
theorem Block.blames_read (tokens : List Token) :
    Blames tokens (Block.read tokens).rest (Block.read tokens).faults := by
  fun_induction Block.read tokens with
  | case1 =>
      exact ⟨[], rfl, (List.sublist_cons_self none [none])⟩
  | case2 token rest =>
      exact .nil (List.suffix_cons token rest)
  | case3 token rest _ _ inductionHypothesis =>
      exact inductionHypothesis.of_suffix (List.suffix_cons token rest)
  | case4 token rest _ _ _ declaration after done inductionHypothesis =>
      have left := Declaration.rest_read token rest
      rw [done] at left
      exact inductionHypothesis.of_suffix (left.trans (List.suffix_cons token rest))
  | case5 token rest _ _ _ reason after stuck inductionHypothesis =>
      have left := Declaration.rest_read token rest
      rw [stuck] at left
      exact (blames_skipDeclaration reason inductionHypothesis).of_suffix
        (left.trans (List.suffix_cons token rest))
  | case6 token rest _ _ _ inductionHypothesis =>
      exact (inductionHypothesis.of_suffix (suffix_skipDeclaration rest)).cons .propertyName

namespace RuleReading

/-- The faults of the block of a rule, if there is one, blame its tokens in order. -/
theorem blames_readBlock
    (first : Token)
    (chains? : Option (List Chain))
    (tokens : List Token) :
    Blames tokens (readBlock first chains? [] tokens).rest
      (readBlock first chains? [] tokens).faults := by
  cases tokens with
  | nil =>
      exact .nil List.suffix_rfl
  | cons token rest =>
      rw [readBlock]
      split
      · exact (Block.blames_read rest).of_suffix (List.suffix_cons token rest)
      · exact .nil List.suffix_rfl

/--
A fault in front of some tokens, and the faults of the block behind the rest of
its selectors. Only an opening brace is kept, and it is taken without a fault.
-/
private theorem blames_skipSelector
    (first : Token)
    (reason : Reason)
    (after : List Token) :
    Blames after (readBlock first none [] (skipSelector after)).rest
      (⟨reason, after.head?⟩ :: (readBlock first none [] (skipSelector after)).faults) := by
  cases after with
  | nil =>
      exact ⟨[], rfl, (List.sublist_cons_self none [none])⟩
  | cons token rest =>
      by_cases opens : token.kind = .openBrace
      · rw [skipSelector, if_pos opens, readBlock, if_pos opens]
        exact (Block.blames_read rest).cons reason
      · have passed : skipSelector (token :: rest) <:+ rest := by
          rw [skipSelector, if_neg opens]
          split
          · exact List.suffix_rfl
          · exact suffix_skipSelector rest
        exact ((blames_readBlock first none _).of_suffix passed).cons reason

/-- The faults of a rule blame its tokens in order. -/
theorem blames_read (first : Token) (rest : List Token) :
    Blames (first :: rest) (read first rest).rest (read first rest).faults := by
  have left := rest_readChains (first :: rest)
  fun_cases read first rest with
  | case1 chains after done =>
      rw [done] at left
      exact (blames_readBlock first (some chains) after).of_suffix left
  | case2 reason after stuck =>
      rw [stuck] at left
      rw [readBlock_faults]
      exact (blames_skipSelector first reason after).of_suffix left

end RuleReading

/-- The faults of a list of tokens blame them in order. -/
theorem Outline.blames_read (tokens : List Token) :
    Blames tokens [] (Outline.read tokens).faults := by
  fun_induction Outline.read tokens with
  | case1 =>
      exact .nil List.suffix_rfl
  | case2 token rest _ inductionHypothesis =>
      exact inductionHypothesis.cons .outsideRule
  | case3 token rest _ reading inductionHypothesis =>
      refine (RuleReading.blames_read token rest).append inductionHypothesis ?_
      intro noneLeft
      rw [show reading.rest = [] from noneLeft, Outline.read]

/-- The tokens that the faults of a list blame are, in order, some of the list and then its end. -/
theorem Outline.blamed_sublist (last : Token) (tokens : List Token) :
    ((Outline.read tokens).faults.map (Fault.blamed last)).Sublist (tokens ++ [last, last]) := by
  obtain ⟨taken, shape, inOrder⟩ := Outline.blames_read tokens
  rw [List.append_nil] at shape
  have blamed := inOrder.map fun token? => token?.getD last
  rw [← shape, List.map_append, List.map_map, List.map_map, endMarks, if_pos rfl] at blamed
  simp only [Function.comp_def, Option.getD_some, List.map_id'] at blamed
  exact blamed

/--
Findings that blame each token of a text at most once and in order, and its end
at most twice.
-/
structure BlamedInOrder (source : String) (diagnostics : List Diagnostic) : Prop where
  /-- A finding copies the text and the place of a token. -/
  copies :
    ∀ diagnostic ∈ diagnostics,
      ∃ token ∈ (tokenize source).tokens, diagnostic.toExcerpt = token.toExcerpt
  /-- In front of the end the findings stand one behind another. -/
  increasing :
    diagnostics.Pairwise fun first second =>
      second.start < (source.length : Int) → first.start < second.start
  atEnd :
    ∀ last ∈ (tokenize source).tokens, last.kind = .endOfInput →
      (diagnostics.filter fun diagnostic => diagnostic.toExcerpt = last.toExcerpt).length ≤ 2
  bounded :
    diagnostics.length ≤
      ((tokenize source).tokens.filter fun token => token.kind ≠ .endOfInput).length + 2

section Text

variable (source : String)

/-- The tokens that may be blamed, as often as they may be. -/
def anchors : List Token :=
  Joint.first.tokens (placedPieces source.toList) ++
    [endToken source.toList, endToken source.toList]

/-- The end of the input is at the length of the text. -/
theorem start_endToken :
    (endToken source.toList).start = source.length := by
  simp [endToken, Excerpt.ofPosition, Position.first, String.length_toList]

/-- The tokens in front of the end begin one behind another, and in front of it. -/
theorem starts_inOrder :
    ((Joint.first.tokens (placedPieces source.toList)).Pairwise fun first second =>
        first.start < second.start) ∧
      ∀ token ∈ Joint.first.tokens (placedPieces source.toList),
        token.start < source.length := by
  have inOrder :
      (tokenize source).tokens.Pairwise fun first second =>
        first.Precedes second.toExcerpt :=
    pairwise_precedes_tokens
  rw [tokenize, List.pairwise_append] at inOrder
  obtain ⟨inside, _, beforeEnd⟩ := inOrder
  refine ⟨inside.imp fun precedes => precedes.1, ?_⟩
  intro token member
  rw [← start_endToken]
  exact (beforeEnd token member _ (List.mem_singleton_self _)).1

/-- Of two tokens that findings stand at, the earlier is further in front, up to the end. -/
theorem pairwise_anchors :
    ((anchors source).map Token.toExcerpt).Pairwise fun first second =>
      second.start < (source.length : Int) → first.start < second.start := by
  rw [List.pairwise_map]
  refine List.pairwise_append.mpr ⟨?_, ?_, ?_⟩
  · refine (starts_inOrder source).1.imp ?_
    intro first second before _
    exact before
  · simp [start_endToken]
  · intro first _ second isEnd inside
    simp [show second = endToken source.toList by simpa using isEnd, start_endToken] at inside

/-- The end may be blamed twice. -/
theorem filter_anchors :
    ((anchors source).map Token.toExcerpt).filter
        (fun excerpt => excerpt = (endToken source.toList).toExcerpt) =
      [(endToken source.toList).toExcerpt, (endToken source.toList).toExcerpt] := by
  have noEnd :
      ((Joint.first.tokens (placedPieces source.toList)).map Token.toExcerpt).filter
        (fun excerpt => excerpt = (endToken source.toList).toExcerpt) = [] := by
    rw [List.filter_eq_nil_iff]
    intro excerpt member isEnd
    obtain ⟨token, isToken, rfl⟩ := List.mem_map.mp member
    have inside := (starts_inOrder source).2 token isToken
    rw [of_decide_eq_true isEnd, start_endToken] at inside
    exact Int.lt_irrefl _ inside
  rw [anchors, List.map_append, List.filter_append, noEnd]
  simp

/-- The findings about the tokens of a text are about some of them, in order, and then its end. -/
theorem excerpts_sublist :
    ((findings (Sheet.ofTokens (tokenize source).tokens)).map Diagnostic.toExcerpt).Sublist
      ((anchors source).map Token.toExcerpt) := by
  have blamed :=
    (Outline.blamed_sublist (endToken source.toList)
      (Joint.first.tokens (placedPieces source.toList))).map Token.toExcerpt
  rw [List.map_map] at blamed
  rw [findings_ofTokens, Sheet.outline, tokensBeforeEnd_tokenize, endOfTokens_tokenize,
    List.map_map]
  exact blamed

/--
The findings about the tokens of a text are copies of tokens, one behind another
up to the end of the text, with at most two at the end.
-/
theorem findings_blamedInOrder :
    BlamedInOrder source (findings (Sheet.ofTokens (tokenize source).tokens)) := by
  have blamed := excerpts_sublist source
  generalize findings (Sheet.ofTokens (tokenize source).tokens) = diagnostics at blamed ⊢
  constructor
  · intro diagnostic member
    have isBlamed := blamed.subset (List.mem_map_of_mem member)
    obtain ⟨token, isToken, same⟩ := List.mem_map.mp isBlamed
    exact ⟨token, by simpa [anchors, tokenize] using isToken, same.symm⟩
  · exact List.pairwise_map.mp ((pairwise_anchors source).sublist blamed)
  · intro last isToken isEnd
    obtain rfl : last = endToken source.toList := by
      rw [tokens_tokenize] at isToken
      rcases List.mem_append.mp isToken with inside | atEnd
      · exact absurd isEnd (kind_ne_endOfInput inside)
      · exact List.mem_singleton.mp atEnd
    have counted := (blamed.filter fun excerpt => excerpt = (endToken source.toList).toExcerpt)
    have length := counted.length_le
    rw [filter_anchors, List.filter_map, List.length_map] at length
    exact length
  · have length := blamed.length_le
    rw [List.length_map, List.length_map, anchors, List.length_append] at length
    have noEnd :
        (Joint.first.tokens (placedPieces source.toList)).filter
            (fun token => token.kind ≠ .endOfInput) =
          Joint.first.tokens (placedPieces source.toList) := by
      rw [tokens_placedPieces, List.filter_eq_self]
      exact fun token member => decide_eq_true (kind_ne_endOfInput member)
    rw [tokenize, List.filter_append, noEnd]
    simpa [endToken] using length

end Text

end QtSheet
