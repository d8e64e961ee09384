import QtSheet.Lint
import QtSheet.Proofs.Acceptance
import QtSheet.Proofs.Run
import QtSheet.Proofs.Stage

namespace QtSheet

/-!
# One style sheet behind another

Two texts that are style sheets are one style sheet when they are put together:
it has the rules of the first and then those of the second, moved behind the
first (`ofSource_append`). No word goes on from one text into the other, because
the first one ends with a closing brace and gaps, and no gap between the two
becomes a combinator.
-/

open Text

/-- The gaps at the front of some pieces, and the other pieces. -/
private theorem exists_leading_gaps (parts : List Piece) :
    ∃ gaps rest,
      parts = gaps ++ rest ∧
        (∀ piece ∈ gaps, piece.isGap = true) ∧
        ∀ piece ∈ rest.head?, piece.isGap = false := by
  refine ⟨parts.takeWhile Piece.isGap, parts.dropWhile Piece.isGap,
    List.takeWhile_append_dropWhile.symm, List.all_eq_true.mp List.all_takeWhile, ?_⟩
  intro piece isFirst
  have noGap := List.head?_dropWhile_not Piece.isGap parts
  rw [show (parts.dropWhile Piece.isGap).head? = some piece from isFirst] at noGap
  exact noGap

/-- Settled pieces in front of a text stay as they are, and the text is read by itself. -/
theorem IsSettled.pieces_append
    {core : List Piece}
    {front back : List Char}
    {behind : List Piece}
    (settled : IsSettled core)
    (cut : pieces 0 front = core ++ behind) :
    pieces 0 (core.flatMap Piece.text ++ back) = core ++ pieces 0 back := by
  rcases settled.closes with rfl | ⟨parts, rfl⟩
  · rfl
  · have whole := text_pieces 0 front
    have wellCut := wellCut_pieces 0 front
    rw [cut] at whole wellCut
    have areClosed : ∀ piece ∈ parts ++ [closingPiece], piece.isUnterminated = false := by
      intro piece member
      rcases List.mem_append.mp member with inParts | isClosing
      · rw [List.append_assoc] at wellCut
        exact wellCut.isUnterminated_eq_false (by simp) inParts
      · rw [List.mem_singleton.mp isClosing]
        rfl
    have frontCut :
        pieces 0 ((parts ++ [closingPiece]).flatMap Piece.text ++ behind.flatMap Piece.text) =
          (parts ++ [closingPiece]) ++ behind := by
      rw [← List.flatMap_append, whole, cut]
    have coreCut := pieces_flatMap_text frontCut areClosed
    have appended := pieces_append_of_closing coreCut (by rw [coreCut]; exact settled.balanced) back
    rw [appended, coreCut]

/-- The pieces of two texts: those of the first, one run of gaps, and those of the second. -/
theorem exists_pieces_append
    {front : List Char}
    {core gaps : List Piece}
    (settled : IsSettled core)
    (cut : pieces 0 front = core ++ gaps)
    (areGaps : ∀ piece ∈ gaps, piece.isGap = true)
    (back : List Char) :
    ∃ between leading rest,
      pieces 0 back = leading ++ rest ∧
        pieces 0 (front ++ back) = core ++ (between ++ rest) ∧
        between.flatMap Piece.text = gaps.flatMap Piece.text ++ leading.flatMap Piece.text ∧
        (∀ piece ∈ leading, piece.isGap = true) ∧
        (∀ piece ∈ between, piece.isGap = true) ∧
        ∀ piece ∈ rest.head?, piece.isGap = false := by
  obtain ⟨leading, rest, backCut, areLeading, noGap⟩ := exists_leading_gaps (pieces 0 back)
  have frontText := text_pieces 0 front
  have backText := text_pieces 0 back
  have frontWellCut := wellCut_pieces 0 front
  have backWellCut := wellCut_pieces 0 back
  rw [cut] at frontText frontWellCut
  rw [backCut] at backText backWellCut
  rw [List.flatMap_append] at frontText backText
  have isRest : rest = pieces 0 (rest.flatMap Piece.text) := by
    have isBehind := eq_pieces_of_append backCut backText.symm
    rwa [depthAfter_gaps areLeading] at isBehind
  have stops : ∀ c ∈ (rest.flatMap Piece.text).head?, isLayout c = false := by
    rw [isRest] at noGap
    exact isLayout_head_of_noGap noGap
  have gapsLayout : Layout (gaps.flatMap Piece.text) := by
    have gapsWellCut : WellCut (gaps ++ []) := by
      rw [List.append_nil]
      exact frontWellCut.of_append_right
    exact gapsWellCut.layout_of_gaps areGaps
  have layout := gapsLayout.append (backWellCut.layout_of_gaps areLeading)
  obtain ⟨between, betweenCut, isText, areBetween⟩ := pieces_layout_append layout stops 0
  refine ⟨between, leading, rest, backCut, ?_, isText, areLeading, areBetween, noGap⟩
  have isWhole :
      front ++ back =
        core.flatMap Piece.text ++
          ((gaps.flatMap Piece.text ++ leading.flatMap Piece.text) ++ rest.flatMap Piece.text) := by
    rw [← frontText, ← backText]
    simp only [List.append_assoc]
  rw [isWhole, settled.pieces_append cut, betweenCut, ← isRest]

namespace Joint

/-- A gap behind what ends no part of a selector leaves nothing behind. -/
theorem tokens_gaps_append
    {joint : Joint}
    {gaps rest : List Piece}
    (noGap : joint.gap? = none)
    (noEnd : joint.endsPart = false)
    (areGaps : ∀ piece ∈ gaps, piece.isGap = true)
    (wellCut : WellCut rest)
    (noneBehind : ∀ piece ∈ rest.head?, piece.isGap = false)
    (position : Position) :
    joint.tokens (place position (gaps ++ rest)) =
      joint.tokens (place (position.after (gaps.flatMap Piece.text)) rest) := by
  by_cases noGaps : gaps = []
  · rw [noGaps]
    rfl
  · have noOpening : joint.opens rest = false := by
      unfold opens
      split
      · rw [noEnd]
        simp
      · rfl
    rw [place_append, tokens_append, tokens_gaps areGaps, List.nil_append,
      afterAll_gaps noGaps areGaps, tokens_eq_opening_append wellCut noneBehind,
      withoutGap_next_gap noGap, opening_next_gap noGap, noOpening]
    rfl

end Joint

/-- Nothing is left open behind settled pieces. -/
theorem IsSettled.moved_afterAll
    {core : List Piece}
    (settled : IsSettled core)
    (front read : List Char) :
    Joint.Moved Position.first (Position.first.after front) read Joint.first
      (Joint.first.afterAll (place Position.first core)) := by
  have depth :=
    (Joint.depth_afterAll Joint.first Position.first core).trans settled.balanced
  rcases settled.closes with rfl | ⟨parts, rfl⟩
  · exact ⟨rfl, rfl, .inl ⟨rfl, rfl⟩⟩
  · refine ⟨depth.symm, ?_, .inl ⟨rfl, ?_⟩⟩
    · rw [place_append, Joint.afterAll, List.foldl_append]
      rfl
    · rw [place_append, Joint.afterAll, List.foldl_append]
      rfl

/-- The relocation of a text behind another. -/
def Relocation.behind (front back : String) : Relocation where
  text := (front ++ back).toList
  shift := front.length

/-- To move behind a text is to move from the front to behind it. -/
theorem Relocation.between_nil (front back : String) :
    Relocation.between [] front.toList back.toList = Relocation.behind front back := by
  rw [Relocation.between, Relocation.behind, String.toList_append, String.length_toList]
  simp

/-- The tokens of two style sheets are those of the first and then those of the second. -/
theorem tokens_append_of_settled
    {front : String}
    {core gaps : List Piece}
    (settled : IsSettled core)
    (cut : pieces 0 front.toList = core ++ gaps)
    (areGaps : ∀ piece ∈ gaps, piece.isGap = true)
    (back : String) :
    Joint.first.tokens (placedPieces (front ++ back).toList) =
      Joint.first.tokens (placedPieces front.toList) ++
        (Joint.first.tokens (placedPieces back.toList)).map
          (Relocation.behind front back).token := by
  obtain ⟨between, leading, rest, backCut, bothCut, isText, areLeading, areBetween, noGap⟩ :=
    exists_pieces_append settled cut areGaps back.toList
  have frontText := text_pieces 0 front.toList
  rw [cut, List.flatMap_append] at frontText
  have wellCut : WellCut rest := by
    have backWellCut := wellCut_pieces 0 back.toList
    rw [backCut] at backWellCut
    exact backWellCut.of_append_right
  have moved := settled.moved_afterAll front.toList (leading.flatMap Piece.text)
  have noOpenGap : (Joint.first.afterAll (place Position.first core)).gap? = none := by
    rcases moved.gap with ⟨_, isNone⟩ | ⟨_, _, _, _, isSome, _⟩
    · exact isNone
    · contradiction
  have isPart : leading.flatMap Piece.text ++ rest.flatMap Piece.text <+: back.toList := by
    have isWhole : leading.flatMap Piece.text ++ rest.flatMap Piece.text = back.toList := by
      rw [← List.flatMap_append, ← backCut, text_pieces]
    exact isWhole ▸ List.prefix_rfl
  have allMoved :
      List.Forall₂
        (Token.Moved (Position.first.after []) (Position.first.after front.toList) back.toList)
        (Joint.first.tokens (place (Position.first.after (leading.flatMap Piece.text)) rest))
        _ :=
    Joint.tokens_moved moved wellCut isPart
  have frontTokens :
      Joint.first.tokens (placedPieces front.toList) =
        Joint.first.tokens (place Position.first core) := by
    rw [placedPieces, cut, place_append, Joint.tokens_append, Joint.tokens_gaps areGaps,
      List.append_nil]
  have backTokens :
      Joint.first.tokens (placedPieces back.toList) =
        Joint.first.tokens (place (Position.first.after (leading.flatMap Piece.text)) rest) := by
    rw [placedPieces, backCut]
    exact Joint.tokens_gaps_append rfl rfl areLeading wellCut noGap Position.first
  have seam :
      (Position.first.after (core.flatMap Piece.text)).after (between.flatMap Piece.text) =
        (Position.first.after front.toList).after (leading.flatMap Piece.text) := by
    rw [← Position.after_append, ← Position.after_append, isText, ← frontText, List.append_assoc]
  rw [placedPieces, String.toList_append, bothCut, place_append, Joint.tokens_append,
    Joint.tokens_gaps_append noOpenGap moved.endsPart.symm areBetween wellCut noGap, seam,
    frontTokens, backTokens, ← Relocation.between_nil, ← List.append_nil back.toList]
  exact congrArg _ (Token.eq_map_of_moved allMoved [])

/-- A style sheet behind a style sheet is one. -/
theorem ofSource_append_eq_ok
    {front back : String}
    {first second : Sheet}
    (frontRead : Sheet.ofSource front = .ok first)
    (backRead : Sheet.ofSource back = .ok second) :
    Sheet.ofSource (front ++ back) =
      .ok ⟨first.rules ++ second.rules.map (Relocation.behind front back).rule⟩ := by
  obtain ⟨frontProper, frontForm⟩ := ofSource_eq_ok.mp frontRead
  obtain ⟨backProper, backForm⟩ := ofSource_eq_ok.mp backRead
  obtain ⟨core, gaps, cut, settled, areGaps⟩ := exists_settled frontProper frontForm
  rw [ofSource_eq_ok, tokens_append_of_settled settled cut areGaps]
  refine ⟨?_, frontForm.append ((Relocation.behind front back).rulesForm backForm)⟩
  obtain ⟨between, leading, rest, backCut, bothCut, _, _, areBetween, _⟩ :=
    exists_pieces_append settled cut areGaps back.toList
  rw [cut] at frontProper
  rw [backCut] at backProper
  rw [String.toList_append, bothCut]
  refine List.forall_mem_append.mpr ⟨(List.forall_mem_append.mp frontProper).1,
    List.forall_mem_append.mpr ⟨?_, (List.forall_mem_append.mp backProper).2⟩⟩
  intro piece member
  have isGap := areBetween piece member
  cases piece with
  | gap text =>
      rfl
  | _ =>
      contradiction

/-- The findings about rules behind others come behind the findings about those. -/
theorem Check.run_append (check : Check) (rules others : List Rule) :
    check.run ⟨rules ++ others⟩ = check.run ⟨rules⟩ ++ check.run ⟨others⟩ := by
  cases check <;>
    simp [run, Sheet.declarations, Sheet.selectors, List.filterMap_append]

/-- A style sheet passes in full when no check finds anything. -/
theorem success_lint_full
    {source : String}
    {sheet : Sheet}
    (isRead : Sheet.ofSource source = .ok sheet)
    (file : String) :
    (lint file source .full).success = true ↔ ∀ check ∈ Check.all, check.run sheet = [] := by
  rw [success_lint, diagnostics_lint_full isRead, Sheet.validate, List.append_nil,
    List.flatMap_eq_nil_iff]

/--
The text of a style sheet behind the text of another is a style sheet. Its rules
are those of the first and then those of the second, moved behind the first
text, and so are the findings of every check. It passes in full exactly when
both pass.
-/
theorem ofSource_append
    (front back : String)
    (first second : Sheet)
    (frontRead : Sheet.ofSource front = .ok first)
    (backRead : Sheet.ofSource back = .ok second) :
    let move := Relocation.behind front back
    let both : Sheet := ⟨first.rules ++ second.rules.map move.rule⟩
    Sheet.ofSource (front ++ back) = .ok both ∧
      (∀ check : Check,
        check.run both = check.run first ++ (check.run second).map move.diagnostic) ∧
      ∀ file,
        (lint file (front ++ back) .full).success = true ↔
          (lint file front .full).success = true ∧ (lint file back .full).success = true := by
  intro move both
  have bothRead : Sheet.ofSource (front ++ back) = .ok both :=
    ofSource_append_eq_ok frontRead backRead
  have runs :
      ∀ check : Check,
        check.run both = check.run first ++ (check.run second).map move.diagnostic := by
    intro check
    rw [check.run_append, move.run_eq (ofSource_eq_ok.mp backRead).2]
  refine ⟨bothRead, runs, ?_⟩
  intro file
  rw [success_lint_full bothRead, success_lint_full frontRead, success_lint_full backRead]
  simp only [runs, List.append_eq_nil_iff, List.map_eq_nil_iff, forall_and]

/-- A comment and a line feed between two rules become no combinator, and the rules keep apart. -/
theorem ofSource_append_across_gaps :
    let front := "A\x7b\x7d/**/"
    let back := "\n.b\x7bc:d\x7d"
    let first : Sheet := ⟨[⟨[[⟨some "A", none, [], [], none, [], none, 0, 1⟩]], [], 0, 3⟩]⟩
    let second : Sheet :=
      ⟨[⟨[[⟨none, none, ["b"], [], none, [], none, 1, 2⟩]],
        [⟨"c", [⟨⟨"d", 6, 1, 2, 6⟩, .identifier⟩], 4, 3,
          some ⟨⟨"c", 4, 1, 2, 4⟩, .identifier⟩, false⟩], 1, 7⟩]⟩
    let move := Relocation.behind front back
    let both : Sheet := ⟨first.rules ++ second.rules.map move.rule⟩
    Sheet.ofSource front = .ok first ∧
      Sheet.ofSource back = .ok second ∧
      Sheet.ofSource (front ++ back) = .ok both ∧
      (∀ check : Check,
        check.run both = check.run first ++ (check.run second).map move.diagnostic) ∧
      ∀ file,
        (lint file (front ++ back) .full).success = true ↔
          (lint file front .full).success = true ∧ (lint file back .full).success = true := by
  intro front back first second move both
  have frontRead : Sheet.ofSource front = .ok first := by
    decide +kernel
  have backRead : Sheet.ofSource back = .ok second := by
    decide +kernel
  exact ⟨frontRead, backRead, ofSource_append front back first second frontRead backRead⟩

end QtSheet
