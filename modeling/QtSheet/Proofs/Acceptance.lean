import QtSheet.Proofs.Segment

namespace QtSheet

/-!
# Texts that are style sheets

A text is a style sheet when all its pieces are gaps and tokens and the tokens
form rules (`ofSource_eq_ok`). The rules leave no brace open, and behind the
last of them stand gaps only (`exists_settled`).
-/

/-- Whether a piece is a gap or a token. -/
def Piece.isProper : Piece → Bool
  | .gap _ | .token _ _ => true
  | _ => false

/-- Nothing is found about gaps and tokens, and about nothing else. -/
theorem diagnostics_eq_nil_iff
    {position : Position}
    {parts : List Piece} :
    (place position parts).filterMap PlacedPiece.diagnostic? = [] ↔
      ∀ piece ∈ parts, piece.isProper = true := by
  induction parts generalizing position with
  | nil =>
      simp [place]
  | cons piece rest inductionHypothesis =>
      have restAlone :
          (place (position.after piece.text) rest).filterMap PlacedPiece.diagnostic? = [] ↔
            ∀ piece ∈ rest, piece.isProper = true :=
        inductionHypothesis
      rw [place, List.forall_mem_cons, ← restAlone]
      cases piece <;> simp [PlacedPiece.diagnostic?, Piece.isProper]

/-- A proper piece is closed. -/
theorem Piece.isUnterminated_of_isProper
    {piece : Piece}
    (isProper : piece.isProper = true) :
    piece.isUnterminated = false := by
  cases piece <;> first | rfl | contradiction

/-- A text is read as a style sheet when nothing is found in it and its tokens are read as one. -/
theorem ofSource_eq_ok_iff_ofTokens
    {source : String}
    {sheet : Sheet} :
    Sheet.ofSource source = .ok sheet ↔
      (tokenize source).diagnostics = [] ∧
        Sheet.ofTokens (tokenize source).tokens = .ok sheet := by
  unfold Sheet.ofSource
  dsimp only
  split
  case h_1 read noFindings isSheet =>
    simp [noFindings, isSheet]
  case h_2 notRead =>
    refine iff_of_false (by simp) ?_
    rintro ⟨noFindings, isSheet⟩
    exact notRead sheet noFindings isSheet

/-- A text is read as a style sheet when all its pieces are proper and its tokens form the rules. -/
theorem ofSource_eq_ok
    {source : String}
    {sheet : Sheet} :
    Sheet.ofSource source = .ok sheet ↔
      (∀ piece ∈ pieces 0 source.toList, piece.isProper = true) ∧
        Grammar.RulesForm (Joint.first.tokens (placedPieces source.toList)) sheet.rules := by
  have isForm :
      Sheet.ofTokens (tokenize source).tokens = .ok sheet ↔
        Grammar.RulesForm (Joint.first.tokens (placedPieces source.toList)) sheet.rules := by
    rw [ofTokens_eq_ok, Sheet.outline, tokensBeforeEnd_tokenize]
    constructor
    · rintro ⟨noFaults, sameRules⟩
      rw [← sameRules]
      exact Grammar.rulesForm_of_read noFaults
    · intro form
      rw [Grammar.read_of_rulesForm form]
      exact ⟨rfl, rfl⟩
  rw [ofSource_eq_ok_iff_ofTokens, isForm, tokenize, placedPieces, diagnostics_eq_nil_iff]

namespace Grammar

/-- Tokens without braces leave as many open as there are. -/
theorem Avoids.foldl_depthAfter
    {tokens : List Token}
    (avoids : Avoids braces tokens)
    (depth : Nat) :
    tokens.foldl Token.depthAfter depth = depth := by
  induction tokens with
  | nil =>
      rfl
  | cons token rest inductionHypothesis =>
      obtain ⟨noBrace, restAvoids⟩ := avoids_cons.mp avoids
      have sameDepth : token.depthAfter depth = depth := by
        fun_cases Token.depthAfter depth token with
        | case1 isOpening =>
            exact absurd (isOpening ▸ by decide) noBrace
        | case2 isClosing =>
            exact absurd (isClosing ▸ by decide) noBrace
        | case3 =>
            rfl
      rw [List.foldl_cons, sameDepth]
      exact inductionHypothesis restAvoids

/-- A rule closes the brace that it opens. -/
theorem RuleForm.foldl_depthAfter
    {tokens : List Token}
    {rule : Rule}
    (form : RuleForm tokens rule)
    (depth : Nat) :
    tokens.foldl Token.depthAfter depth = depth := by
  obtain ⟨groupForm, _, isOpening, blockForm, isClosing⟩ := form
  rw [List.foldl_append, groupForm.avoids.foldl_depthAfter, List.foldl_cons, List.foldl_append,
    blockForm.avoids.foldl_depthAfter]
  simp [Token.depthAfter, isOpening, isClosing]

/-- Rules leave no brace open. -/
theorem RulesForm.braceDepth_eq
    {tokens : List Token}
    {rules : List Rule}
    (form : RulesForm tokens rules) :
    braceDepth tokens = 0 := by
  rw [braceDepth]
  induction form with
  | nil =>
      rfl
  | cons ruleForm _ inductionHypothesis =>
      rw [List.foldl_append, ruleForm.foldl_depthAfter]
      exact inductionHypothesis

/-- Inside of the block of a rule one brace is open. -/
theorem RulesForm.braceDepth_inside
    {before group inside : List Token}
    {rules : List Rule}
    {chains : List Chain}
    {opening : Token}
    (beforeForm : RulesForm before rules)
    (groupForm : ChainsForm group chains)
    (isOpening : opening.kind = .openBrace)
    (insideAvoids : Avoids braces inside) :
    braceDepth (before ++ (group ++ opening :: inside)) = 1 := by
  rw [braceDepth, List.foldl_append, ← braceDepth, beforeForm.braceDepth_eq, List.foldl_append,
    groupForm.avoids.foldl_depthAfter, List.foldl_cons, insideAvoids.foldl_depthAfter]
  simp [Token.depthAfter, isOpening]

/-- Rules behind rules are rules. -/
theorem RulesForm.append
    {front back : List Token}
    {rules others : List Rule}
    (frontForm : RulesForm front rules)
    (backForm : RulesForm back others) :
    RulesForm (front ++ back) (rules ++ others) := by
  induction frontForm with
  | nil =>
      exact backForm
  | cons ruleForm _ inductionHypothesis =>
      rw [List.append_assoc]
      exact .cons ruleForm inductionHypothesis

/-- Rules end with a closing brace. -/
theorem RulesForm.exists_closing
    {tokens : List Token}
    {rules : List Rule}
    (form : RulesForm tokens rules)
    (nonempty : tokens ≠ []) :
    ∃ before closing, tokens = before ++ [closing] ∧ closing.kind = .closeBrace := by
  induction form with
  | nil =>
      contradiction
  | @cons tokens rest rule rules ruleForm restForm inductionHypothesis =>
      by_cases isLast : rest = []
      · cases ruleForm with
        | @intro group block _ opening closing _ _ _ _ _ _ isClosing =>
            refine ⟨group ++ opening :: block, closing, ?_, isClosing⟩
            rw [isLast]
            simp
      · obtain ⟨before, closing, rfl, isClosing⟩ := inductionHypothesis isLast
        exact ⟨tokens ++ before, closing, by simp, isClosing⟩

end Grammar

/-- Pieces behind which nothing is left open: none, or such that end with the last brace. -/
structure IsSettled (core : List Piece) : Prop where
  closes : core = [] ∨ ∃ parts, core = parts ++ [closingPiece]
  balanced : depthAfter 0 core = 0

/-- Proper pieces without tokens are gaps. -/
private theorem areGaps_of_tokens_eq_nil
    {joint : Joint}
    {position : Position}
    {parts : List Piece}
    (areProper : ∀ piece ∈ parts, piece.isProper = true)
    (noTokens : joint.tokens (place position parts) = []) :
    ∀ piece ∈ parts, piece.isGap = true := by
  induction parts generalizing joint position with
  | nil =>
      simp
  | cons piece rest inductionHypothesis =>
      obtain ⟨isProper, restProper⟩ := List.forall_mem_cons.mp areProper
      rw [place, Joint.tokens] at noTokens
      obtain ⟨noneHere, noneBehind⟩ := List.append_eq_nil_iff.mp noTokens
      refine List.forall_mem_cons.mpr ⟨?_, inductionHypothesis restProper noneBehind⟩
      cases piece with
      | gap text =>
          rfl
      | token kind text =>
          simp [Joint.emitted] at noneHere
      | _ =>
          contradiction

/-- The pieces of a style sheet are those of its rules, and gaps behind them. -/
theorem exists_settled
    {source : List Char}
    {rules : List Rule}
    (areProper : ∀ piece ∈ pieces 0 source, piece.isProper = true)
    (form : Grammar.RulesForm (Joint.first.tokens (placedPieces source)) rules) :
    ∃ core gaps,
      pieces 0 source = core ++ gaps ∧
        IsSettled core ∧
        ∀ piece ∈ gaps, piece.isGap = true := by
  by_cases noTokens : Joint.first.tokens (placedPieces source) = []
  · exact ⟨[], pieces 0 source, rfl, ⟨.inl rfl, rfl⟩, areGaps_of_tokens_eq_nil areProper noTokens⟩
  · obtain ⟨before, closing, isTokens, isClosing⟩ := form.exists_closing noTokens
    obtain ⟨front, text, gaps, isParts, _, upToLast⟩ :=
      Joint.exists_front_of_tokens isTokens (by simp [isClosing])
    have wellCut := wellCut_pieces 0 source
    rw [isParts] at wellCut
    obtain rfl : text = ['\x7d'] := wellCut.wellCut.closeBrace text (by rw [isClosing])
    have isPiece : Piece.token closing.kind ['\x7d'] = closingPiece := by
      rw [isClosing]
      rfl
    rw [isPiece] at isParts upToLast
    have isCut : pieces 0 source = (front ++ [closingPiece]) ++ gaps := by
      simp [isParts]
    refine ⟨front ++ [closingPiece], gaps, isCut, ⟨.inr ⟨front, rfl⟩, ?_⟩, ?_⟩
    · have sameDepth := Joint.foldl_tokens Joint.first
        (place Position.first (front ++ [closingPiece]))
      rw [upToLast, ← isTokens, Joint.depth_afterAll] at sameDepth
      exact sameDepth.symm.trans form.braceDepth_eq
    · rw [placedPieces, isCut, place_append, Joint.tokens_append, upToLast] at isTokens
      refine areGaps_of_tokens_eq_nil ?_ (List.append_right_eq_self.mp isTokens)
      intro piece member
      apply areProper
      rw [isCut]
      exact List.mem_append_right _ member

end QtSheet
