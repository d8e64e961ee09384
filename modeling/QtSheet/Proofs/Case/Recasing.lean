import QtSheet.Proofs.Case.Reading
import QtSheet.Proofs.Case.Sheet
import QtSheet.Proofs.Relayout

namespace QtSheet

open Text

/-!
# Letter case inside of blocks

Capital and small letters of ASCII may be exchanged inside of braces, in names
and values as well as in strings and comments. The pieces of the text are cut at
the same places, the tokens have the same kinds, and what is found is found at
the same places (`lint_recased`).
-/

/-- The characters of pieces, each with the number of braces that are open in front of its piece. -/
def withDepths (depth : Nat) : List Piece → List (Nat × Char)
  | [] => []
  | piece :: rest =>
      piece.text.map (fun c => (depth, c)) ++ withDepths (piece.depthAfter depth) rest

/-- A character in place of another one: the same, or inside of braces the same letter. -/
def IsVariant (original : Nat × Char) (c : Char) : Prop :=
  original.2 = c ∨ original.1 ≠ 0 ∧ original.2.toLower = c.toLower

instance : DecidableRel IsVariant :=
  fun original c => inferInstanceAs (Decidable (original.2 = c ∨ _))

/-- A text with other letters capital and other ones small inside of its braces. -/
def IsRecased (source other : String) : Prop :=
  List.Forall₂ IsVariant (withDepths 0 (pieces 0 source.toList)) other.toList

/-- Characters with their depths are the characters of the pieces. -/
theorem map_snd_withDepths (depth : Nat) (parts : List Piece) :
    (withDepths depth parts).map Prod.snd = parts.flatMap Piece.text := by
  induction parts generalizing depth with
  | nil =>
      rfl
  | cons piece rest inductionHypothesis =>
      simp only [withDepths, List.map_append, List.map_map, inductionHypothesis, List.flatMap_cons]
      congr 1
      exact List.map_id _

/-- In small letters both texts are the same. -/
theorem IsRecased.small_eq
    {source other : String}
    (isRecased : IsRecased source other) :
    small source.toList = small other.toList := by
  have sameText := map_snd_withDepths 0 (pieces 0 source.toList)
  rw [text_pieces] at sameText
  rw [← sameText, small, List.map_map]
  refine map_eq_map_of_forall₂ isRecased fun original c isVariant => ?_
  rcases isVariant with rfl | ⟨_, same⟩
  · rfl
  · exact same

/-- Pieces with those inside of braces in small letters, from a number of open braces on. -/
def smallPieces (depth : Nat) : List Piece → List Piece
  | [] => []
  | piece :: rest =>
      (if depth = 0 then piece else piece.small) :: smallPieces (piece.depthAfter depth) rest

/-- Pieces of the same text that agree in small letters are the same. -/
theorem Piece.eq_of_small_eq
    {piece other : Piece}
    (same : piece.small = other.small)
    (sameText : piece.text = other.text) :
    piece = other := by
  cases piece <;> cases other <;> simp_all [Piece.small, Piece.text]

/-- Outside of all braces only the same text is a variant. -/
theorem eq_of_areVariants
    {text other : List Char}
    (areVariants : List.Forall₂ IsVariant (text.map fun c => (0, c)) other) :
    text = other := by
  rw [List.forall₂_map_left_iff] at areVariants
  refine List.forall₂_eq_eq_eq ▸ areVariants.imp ?_
  rintro c d (same | ⟨inside, _⟩)
  · exact same
  · contradiction

/-- Pieces that are the same in small letters, and outside of braces the same altogether. -/
theorem smallPieces_eq
    {parts others : List Piece}
    {depth : Nat}
    (same : parts.map Piece.small = others.map Piece.small)
    (areVariants : List.Forall₂ IsVariant (withDepths depth parts) (others.flatMap Piece.text)) :
    smallPieces depth parts = smallPieces depth others := by
  induction parts generalizing others depth with
  | nil =>
      obtain rfl : others = [] := by
        simpa using same.symm
      rfl
  | cons piece rest inductionHypothesis =>
      cases others with
      | nil =>
          simp at same
      | cons other others =>
          obtain ⟨samePiece, sameRest⟩ := List.cons.inj same
          have sameDepth := congrArg (Piece.depthAfter depth) samePiece
          have sameLength := congrArg (fun piece => piece.text.length) samePiece
          simp only [Piece.depthAfter_small, Piece.text_small, length_small] at sameDepth sameLength
          rw [withDepths, List.flatMap_cons] at areVariants
          -- Both first pieces are equally long, so the relation splits where they end.
          have isFront := List.forall₂_take_append _ _ _ areVariants
          have isBack := List.forall₂_drop_append _ _ _ areVariants
          rw [List.take_left' (by simpa using sameLength)] at isFront
          rw [List.drop_left' (by simpa using sameLength)] at isBack
          rw [smallPieces, smallPieces, ← sameDepth, inductionHypothesis sameRest isBack]
          congr 1
          by_cases outside : depth = 0
          · subst outside
            exact Piece.eq_of_small_eq samePiece (eq_of_areVariants isFront)
          · rw [if_neg outside, if_neg outside]
            exact samePiece

/-- A recased text has the same pieces up to the case of their letters. -/
theorem IsRecased.pieces_eq
    {source other : String}
    (isRecased : IsRecased source other) :
    (pieces 0 source.toList).map Piece.small = (pieces 0 other.toList).map Piece.small := by
  rw [← pieces_small, ← pieces_small, isRecased.small_eq]

/-- A recased text has the same pieces but for the case of those inside of braces. -/
theorem IsRecased.smallPieces_eq
    {source other : String}
    (isRecased : IsRecased source other) :
    smallPieces 0 (pieces 0 source.toList) = smallPieces 0 (pieces 0 other.toList) := by
  refine QtSheet.smallPieces_eq isRecased.pieces_eq ?_
  rw [text_pieces]
  exact isRecased

/-- Small letters take as much place as capitals. -/
theorem Position.after_small (position : Position) (text : List Char) :
    position.after (small text) = position.after text := by
  induction text generalizing position with
  | nil =>
      rfl
  | cons c rest inductionHypothesis =>
      have sameNext : position.next c.toLower = position.next c := by
        simp only [Position.next, toLower_eq_iff (show '\n'.isAlpha = false by decide)]
      rw [small_cons, after_cons, after_cons, sameNext, inductionHypothesis]

namespace Joint

/-- A closed joint is closed behind each piece. -/
theorem closed_next
    {joint : Joint}
    (closed : joint.Closed)
    (placed : PlacedPiece) :
    (joint.next placed).Closed := by
  unfold next
  cases placed.piece with
  | gap text =>
      dsimp only
      by_cases outside : joint.depth = 0
      · rw [if_pos outside]
        exact fun inside => absurd outside inside
      · rw [if_neg outside]
        exact closed
  | token kind text =>
      exact fun _ => rfl
  | stray character =>
      exact fun _ => rfl
  | unterminated construct text =>
      exact closed

/-- Inside of braces a piece in small letters leaves open what the piece does. -/
theorem next_small
    {joint : Joint}
    (inside : joint.depth ≠ 0)
    (position : Position)
    (piece : Piece) :
    joint.next ⟨position, piece.small⟩ = joint.next ⟨position, piece⟩ := by
  cases piece with
  | gap text =>
      simp only [Piece.small, next, if_neg inside]
  | token kind text =>
      simp only [Piece.small, next]
      cases kind <;> rfl
  | _ =>
      rfl

/-- Inside of braces a piece in small letters adds the tokens of the piece in small letters. -/
theorem emitted_small
    {joint : Joint}
    (closed : joint.Closed)
    (inside : joint.depth ≠ 0)
    (position : Position)
    (piece : Piece) :
    joint.emitted ⟨position, piece.small⟩ =
      smallInside joint.depth (joint.emitted ⟨position, piece⟩) := by
  cases piece with
  | token kind text =>
      have noCombinator : joint.combinator? kind = none := by
        rw [combinator?_eq, closed inside]
        split <;> rfl
      simp only [Piece.small, emitted, noCombinator, Option.toList_none, List.nil_append,
        smallInside, if_neg inside]
      simp [PlacedPiece.excerpt, Excerpt.ofPosition, Piece.text, Token.small]
  | _ =>
      rfl

/-- Outside of braces the tokens of a piece stay as they are. -/
theorem smallInside_emitted (joint : Joint) (placed : PlacedPiece) :
    smallInside 0 (joint.emitted placed) = joint.emitted placed := by
  unfold emitted
  cases placed.piece with
  | token kind text =>
      dsimp only
      rw [smallInside_append, foldl_combinator?]
      cases joint.combinator? kind <;> rfl
  | _ =>
      rfl

/-- The tokens of pieces inside of braces in small letters are in small letters. -/
theorem tokens_smallPieces
    {joint : Joint}
    (closed : joint.Closed)
    (position : Position)
    (parts : List Piece) :
    joint.tokens (place position (smallPieces joint.depth parts)) =
      smallInside joint.depth (joint.tokens (place position parts)) := by
  induction parts generalizing joint position with
  | nil =>
      rfl
  | cons piece rest inductionHypothesis =>
      have restSmall :=
        inductionHypothesis (closed_next closed ⟨position, piece⟩) (position.after piece.text)
      rw [depth_next] at restSmall
      rw [smallPieces, place, place, tokens, tokens, smallInside_append, foldl_emitted, depth_next,
        ← restSmall]
      by_cases outside : joint.depth = 0
      · simp only [if_pos outside]
        rw [outside, smallInside_emitted]
      · simp only [if_neg outside, Piece.text_small, Position.after_small]
        rw [next_small outside, emitted_small closed outside]

end Joint

/-- The tokens of both texts are the same when those inside of braces are in small letters. -/
theorem IsRecased.smallInside_eq
    {source other : String}
    (isRecased : IsRecased source other) :
    smallInside 0 (Joint.first.tokens (placedPieces source.toList)) =
      smallInside 0 (Joint.first.tokens (placedPieces other.toList)) := by
  have areSmall (text : List Char) := Joint.tokens_smallPieces Joint.closed_first Position.first
    (pieces 0 text)
  rw [placedPieces, placedPieces]
  exact (areSmall _).symm.trans ((congrArg (fun parts => Joint.first.tokens (place _ parts))
    isRecased.smallPieces_eq).trans (areSmall _))

namespace Token

theorem combinator?_small (token : Token) : token.small.combinator? = token.combinator? := by
  have isSign {sign : Char} (notAlpha : sign.isAlpha = false) :
      token.small.text = String.ofList [sign] ↔ token.text = String.ofList [sign] := by
    rw [Token.small, ← String.toList_inj, ← String.toList_inj, String.toList_ofList,
      String.toList_ofList]
    cases token.text.toList with
    | nil =>
        simp
    | cons c rest =>
        simp [toLower_eq_iff notAlpha]
  have sameCombinator : Combinator.ofText token.small.text = Combinator.ofText token.text := by
    have isChild : token.small.text = ">" ↔ token.text = ">" := isSign (by decide)
    have isAdjacent : token.small.text = "+" ↔ token.text = "+" := isSign (by decide)
    have isGeneral : token.small.text = "~" ↔ token.text = "~" := isSign (by decide)
    simp only [Combinator.ofText, isChild, isAdjacent, isGeneral]
  rw [combinator?, combinator?, sameCombinator]
  rfl

/-- Whether a token is a mark of importance does not depend on which letters are capital. -/
theorem isImportance_small (token : Token) :
    Declaration.isImportance token.small = Declaration.isImportance token := by
  rw [Declaration.isImportance, Declaration.isImportance, Token.small, lowercase_small,
    String.ofList_toList]

/-- Tokens that are the same in small letters are not told apart by any reading. -/
theorem resembles_of_small_eq
    {token other : Token}
    (same : token.small = other.small) :
    token.Resembles other where
  kind := congrArg (fun token => token.kind) same
  start := congrArg (fun token => token.start) same
  length := congrArg (fun token => token.length) same
  line := congrArg (fun token => token.line) same
  column := congrArg (fun token => token.column) same
  combinator := by
    rw [← combinator?_small token, same, combinator?_small]
  importance := by
    rw [← isImportance_small token, same, isImportance_small]

end Token

/-- Tokens that agree but for the case of those inside of braces resemble each other. -/
theorem resemble_of_smallInside_eq
    {tokens others : List Token}
    {depth : Nat}
    (same : smallInside depth tokens = smallInside depth others) :
    Resemble tokens others := by
  induction tokens generalizing others depth with
  | nil =>
      cases others with
      | nil =>
          exact .nil
      | cons other others =>
          contradiction
  | cons token rest inductionHypothesis =>
      cases others with
      | nil =>
          contradiction
      | cons other others =>
          obtain ⟨sameToken, sameRest⟩ := List.cons.inj same
          have resembles : token.Resembles other := by
            apply Token.resembles_of_small_eq
            split at sameToken
            · rw [sameToken]
            · exact sameToken
          have sameDepth : token.depthAfter depth = other.depthAfter depth := by
            rw [Token.depthAfter, Token.depthAfter, resembles.kind]
          rw [sameDepth] at sameRest
          exact .cons resembles (inductionHypothesis sameRest)

theorem endToken_small (text : List Char) : endToken (small text) = endToken text := by
  rw [endToken, endToken, Position.after_small]

/-- The kind and the place of a token, without its text. -/
def Token.place (token : Token) : Kind × Int × Int × Int × Int :=
  (token.kind, token.start, token.length, token.line, token.column)

/-- Tokens that resemble each other stand at the same place. -/
theorem Token.Resembles.place_eq
    {here there : Token}
    (resembles : here.Resembles there) :
    here.place = there.place := by
  simp only [Token.place, resembles.kind, resembles.start, resembles.length, resembles.line,
    resembles.column]

namespace IsRecased

variable {source other : String} (isRecased : IsRecased source other)

include isRecased

theorem endToken_eq : endToken source.toList = endToken other.toList := by
  rw [← endToken_small, isRecased.small_eq, endToken_small]

/-- The tokens of a recased text resemble those of the text. -/
theorem tokens_resemble :
    Resemble (Joint.first.tokens (placedPieces source.toList))
      (Joint.first.tokens (placedPieces other.toList)) :=
  resemble_of_smallInside_eq isRecased.smallInside_eq

/-- The tokens of a recased text stand at the same places. -/
theorem place_tokens :
    (tokenize source).tokens.map Token.place = (tokenize other).tokens.map Token.place := by
  rw [tokenize, tokenize, List.map_append, List.map_append, isRecased.endToken_eq,
    map_eq_map_of_forall₂ isRecased.tokens_resemble fun _ _ resembles => resembles.place_eq]

end IsRecased

theorem place_diagnostics_small (position : Position) (parts : List Piece) :
    ((place position (parts.map Piece.small)).filterMap PlacedPiece.diagnostic?).map
        Diagnostic.place =
      ((place position parts).filterMap PlacedPiece.diagnostic?).map Diagnostic.place := by
  induction parts generalizing position with
  | nil =>
      rfl
  | cons piece rest inductionHypothesis =>
      simp only [List.map_cons, place, Piece.text_small, Position.after_small, List.filterMap_cons]
      cases piece with
      | gap text =>
          exact inductionHypothesis _
      | token kind text =>
          exact inductionHypothesis _
      | stray character =>
          exact congrArg (List.cons _) (inductionHypothesis _)
      | unterminated construct text =>
          simp [PlacedPiece.diagnostic?, Piece.small, PlacedPiece.excerpt, Excerpt.ofPosition,
            Diagnostic.place, Piece.text, inductionHypothesis]

/-- Faults that resemble each other are reported at the same place. -/
theorem Fault.Resembles.place_eq
    {here there : Fault}
    (resembles : here.Resembles there)
    (last : Token) :
    (here.diagnostic last).place = (there.diagnostic last).place := by
  obtain ⟨reason, token?⟩ := here
  obtain ⟨otherReason, otherToken?⟩ := there
  cases (resembles : Option.Rel Token.Resembles token? otherToken?) with
  | none =>
      rfl
  | some tokens =>
      simp only [Fault.diagnostic, Fault.blamed, Option.getD_some, Diagnostic.ofToken,
        Diagnostic.place, tokens.start, tokens.length, tokens.line, tokens.column]

namespace IsRecased

variable {source other : String} (isRecased : IsRecased source other)

include isRecased

/-- The scanner reports the same places for a recased text. -/
theorem place_diagnostics :
    (tokenize source).diagnostics.map Diagnostic.place =
      (tokenize other).diagnostics.map Diagnostic.place := by
  rw [tokenize, tokenize, placedPieces, placedPieces, ← place_diagnostics_small,
    isRecased.pieces_eq, place_diagnostics_small]

/-- The faults of a recased text resemble those of the text. -/
theorem faults_resemble :
    List.Forall₂ Fault.Resembles (Sheet.outline (tokenize source).tokens).faults
      (Sheet.outline (tokenize other).tokens).faults := by
  rw [Sheet.outline, Sheet.outline, tokensBeforeEnd_tokenize, tokensBeforeEnd_tokenize]
  exact Outline.faults_resemble isRecased.tokens_resemble

/-- The form of a recased text is faulted at the same places. -/
theorem place_formFindings :
    (formFindings source).map Diagnostic.place = (formFindings other).map Diagnostic.place := by
  have sameFaults :
      (findings (Sheet.ofTokens (tokenize source).tokens)).map Diagnostic.place =
        (findings (Sheet.ofTokens (tokenize other).tokens)).map Diagnostic.place := by
    rw [findings_ofTokens, findings_ofTokens, endOfTokens_tokenize, endOfTokens_tokenize,
      isRecased.endToken_eq, List.map_map, List.map_map]
    exact map_eq_map_of_forall₂ isRecased.faults_resemble fun _ _ resembles => resembles.place_eq _
  rw [formFindings, formFindings, List.map_append, List.map_append, isRecased.place_diagnostics,
    sameFaults]

/-- Both texts are read as the same sheet up to case, or none of them is read. -/
theorem small_ofTokens :
    (Sheet.ofTokens (tokenize source).tokens).toOption.map Sheet.small =
      (Sheet.ofTokens (tokenize other).tokens).toOption.map Sheet.small := by
  have sameFaults := isRecased.faults_resemble.length_eq
  have sameTokens := isRecased.smallInside_eq
  simp only [Sheet.ofTokens, Sheet.outline, tokensBeforeEnd_tokenize] at sameFaults ⊢
  generalize Joint.first.tokens (placedPieces source.toList) = tokens at sameFaults sameTokens ⊢
  generalize Joint.first.tokens (placedPieces other.toList) = others at sameFaults sameTokens ⊢
  by_cases noFaults : (Outline.read tokens).faults = []
  · have noOtherFaults : (Outline.read others).faults = [] := by
      simpa [noFaults] using sameFaults.symm
    -- Both texts are read through the same tokens in small letters, which form only one sheet.
    have readSmall := Grammar.read_of_rulesForm (Grammar.rulesForm_of_read noFaults).small
    rw [sameTokens, Grammar.read_of_rulesForm (Grammar.rulesForm_of_read noOtherFaults).small]
      at readSmall
    have sameRules := congrArg Outline.rules readSmall
    simp only [noFaults, noOtherFaults, List.isEmpty_nil, ↓reduceIte]
    exact congrArg (fun rules => some (Sheet.mk rules)) sameRules.symm
  · have otherFaults : (Outline.read others).faults ≠ [] := by
      intro noOtherFaults
      exact noFaults (by simpa [noOtherFaults] using sameFaults)
    rw [if_neg (by simpa using noFaults), if_neg (by simpa using otherFaults)]
    rfl

theorem small_checkedSheet? (mode : Mode) :
    (checkedSheet? source mode).map Sheet.small = (checkedSheet? other mode).map Sheet.small := by
  have sameEmpty : (formFindings source).isEmpty = (formFindings other).isEmpty := by
    have samePlaces := congrArg List.isEmpty isRecased.place_formFindings
    rwa [List.isEmpty_map, List.isEmpty_map] at samePlaces
  unfold checkedSheet?
  rw [sameEmpty]
  split
  · exact isRecased.small_ofTokens
  · rfl

/-- A recased text has its findings at the same places. -/
theorem place_lint (file : String) (mode : Mode) :
    (lint file source mode).diagnostics.map Diagnostic.place =
      (lint file other mode).diagnostics.map Diagnostic.place := by
  have sameChecks :
      ((checkedSheet? source mode).toList.flatMap fun sheet => sheet.validate []).map
          Diagnostic.place =
        ((checkedSheet? other mode).toList.flatMap fun sheet => sheet.validate []).map
          Diagnostic.place := by
    have same := isRecased.small_checkedSheet? mode
    cases checked : checkedSheet? source mode with
    | none =>
        rw [checked, Option.map_none] at same
        rw [Option.map_eq_none_iff.mp same.symm]
    | some sheet =>
        rw [checked, Option.map_some] at same
        obtain ⟨otherSheet, otherChecked, sameSheet⟩ := Option.map_eq_some_iff.mp same.symm
        simp only [otherChecked, Option.toList_some, List.flatMap_cons, List.flatMap_nil,
          List.append_nil]
        rw [← sheet.place_validate_small, ← sameSheet, otherSheet.place_validate_small]
  simp only [lint, List.map_append, isRecased.place_formFindings, sameChecks]

end IsRecased

/-- Whether findings fail a style sheet depends only on their severities. -/
theorem Mode.passes_of_place_eq
    {here there : List Diagnostic}
    (same : here.map Diagnostic.place = there.map Diagnostic.place)
    (mode : Mode) :
    mode.passes here = mode.passes there := by
  have passes_eq (diagnostics : List Diagnostic) :
      mode.passes diagnostics =
        (diagnostics.map Diagnostic.place).all fun place =>
          !(decide (place.1 ≠ .semantic) || decide (mode = .full)) := by
    rw [List.all_map]
    rfl
  rw [passes_eq, passes_eq, same]

/--
Letter case inside of blocks does not change what is found. When letters of
ASCII inside of braces become capital or small, the tokens have the same kinds
and places, the text passes in a mode or fails in it as before, and the findings
have the same severities and places in the same order.
-/
theorem lint_recased
    {source other : String}
    (isRecased : IsRecased source other)
    (file : String)
    (mode : Mode) :
    (tokenize other).tokens.map Token.place = (tokenize source).tokens.map Token.place ∧
      (lint file other mode).success = (lint file source mode).success ∧
      (lint file other mode).diagnostics.map Diagnostic.place =
        (lint file source mode).diagnostics.map Diagnostic.place := by
  have samePlaces := isRecased.place_lint file mode
  exact ⟨isRecased.place_tokens.symm, (Mode.passes_of_place_eq samePlaces mode).symm,
    samePlaces.symm⟩

/-- A misspelled property and a malformed value are found at the same places in other letters. -/
theorem lint_recased_colours :
    IsRecased "A\x7bcolour:url(x);color:#fff 3px!important\x7d"
        "A\x7bColour:URL(X);Color:#FfF 3Px!imporTant\x7d" ∧
      (tokenize "A\x7bColour:URL(X);Color:#FfF 3Px!imporTant\x7d").tokens.map Token.place =
        (tokenize "A\x7bcolour:url(x);color:#fff 3px!important\x7d").tokens.map Token.place ∧
      (lint "a.qss" "A\x7bColour:URL(X);Color:#FfF 3Px!imporTant\x7d" .full).success = false ∧
      (lint "a.qss" "A\x7bColour:URL(X);Color:#FfF 3Px!imporTant\x7d" .full).diagnostics.map
          Diagnostic.place =
        [(.semantic, 2, 6, 1, 3), (.semantic, 22, 8, 1, 23)] := by
  have isRecased :
      IsRecased "A\x7bcolour:url(x);color:#fff 3px!important\x7d"
        "A\x7bColour:URL(X);Color:#FfF 3Px!imporTant\x7d" := by
    unfold IsRecased
    decide +kernel
  obtain ⟨samePlaces, sameSuccess, sameFindings⟩ := lint_recased isRecased "a.qss" .full
  refine ⟨isRecased, samePlaces, sameSuccess.trans ?_, sameFindings.trans ?_⟩
  · decide +kernel
  · decide +kernel

end QtSheet
