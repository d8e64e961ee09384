import QtSheet.Lint
import QtSheet.Proofs.Likeness.Rule
import QtSheet.Proofs.Run
import QtSheet.Proofs.Tiling

namespace QtSheet

/-!
# Layout does not matter

A skipped stretch of a text may be exchanged for any other white space and
comments. The tokens stay the same, apart from their places and from the text
of the combinator that the stretch may stand for. So the same rules are read up
to places, and linting says the same (`lint_exchange`).
-/

open Text

/-- A text with other characters in place of a stretch of it. -/
def exchange (source : String) (first stop : Nat) (layout : List Char) : String :=
  String.ofList (source.toList.take first ++ (layout ++ source.toList.drop stop))

/-- The text with its layout exchanged is what is in front, the layout and what is behind. -/
theorem toList_exchange (source : String) (first stop : Nat) (layout : List Char) :
    (exchange source first stop layout).toList =
      source.toList.take first ++ (layout ++ source.toList.drop stop) :=
  String.toList_ofList

/-- An offset of a text, and the offset there when a stretch of the text gets another size. -/
def Shifted (first stop size : Nat) (here there : Int) : Prop :=
  (here ≤ first ∧ there = here) ∨ (stop ≤ here ∧ there = here - stop + (first + size))

/-- A descendant combinator that covers a stretch of a text. -/
structure Token.IsDescendant (first stop : Int) (token : Token) : Prop where
  combinator : token.combinator? = some .descendant
  start : token.start = first
  stop : token.stop = stop

/-- A token of a text, and the token in its place when a stretch of layout is exchanged. -/
structure Token.Exchanged (first stop size : Nat) (here there : Token) : Prop where
  kind : here.kind = there.kind
  text :
    here.text = there.text ∨
      here.IsDescendant first stop ∧ there.IsDescendant first (first + size)
  start : Shifted first stop size here.start there.start
  stop : Shifted first stop size here.stop there.stop

/-- Layout is no sign, so it is a descendant combinator. -/
theorem Layout.ofText_eq
    {layout : List Char}
    (isLayouts : Layout layout) :
    Combinator.ofText (String.ofList layout) = .descendant := by
  have noSign
      (sign : String)
      (c : Char)
      (isFirst : sign.toList.head? = some c)
      (noLayout : ¬ (isLayout c = true ∨ c = '/')) :
      String.ofList layout ≠ sign := by
    intro isText
    rw [← isText, String.toList_ofList] at isFirst
    exact noLayout (isLayouts.head c isFirst)
  rw [Combinator.ofText, if_neg (noSign ">" '>' rfl (by decide)),
    if_neg (noSign "+" '+' rfl (by decide)), if_neg (noSign "~" '~' rfl (by decide))]

/-- The combinator for some layout covers the layout. -/
theorem Layout.isDescendant
    {layout : List Char}
    (isLayouts : Layout layout)
    (position : Position) :
    Token.IsDescendant position.offset (position.offset + layout.length)
      { toExcerpt := .ofPosition position layout, kind := .combinator } where
  combinator := congrArg some isLayouts.ofText_eq
  start := rfl
  stop := rfl

namespace Token.Exchanged

variable {first stop size : Nat}

/-- A token in front of the stretch stays as it is. -/
theorem of_before
    {token : Token}
    {before text : List Char}
    (within : (before ++ text).length ≤ first)
    (isExcerpt : token.toExcerpt = .ofPosition (Position.first.after before) text) :
    Exchanged first stop size token token := by
  rw [List.length_append] at within
  refine ⟨rfl, .inl rfl, .inl ⟨?_, rfl⟩, .inl ⟨?_, rfl⟩⟩
  · rw [isExcerpt]
    simp only [Excerpt.ofPosition, Position.offset_after, Position.first]
    omega
  · rw [isExcerpt]
    simp only [Excerpt.stop, Excerpt.ofPosition, Position.offset_after, Position.first]
    omega

/-- A token behind the stretch moves with the end of the stretch. -/
theorem of_moved
    {start other : Position}
    {whole : List Char}
    {here there : Token}
    (isStop : start.offset = stop)
    (isOther : other.offset = first + size)
    (moved : Token.Moved start other whole here there) :
    Exchanged first stop size here there := by
  obtain ⟨sameKind, before, text, _, isHere, isThere⟩ := moved
  refine ⟨sameKind, .inl (by rw [isHere, isThere]; rfl), .inr ?_, .inr ?_⟩
  · rw [isHere, isThere]
    simp only [Excerpt.ofPosition, Position.offset_after, isStop, isOther]
    omega
  · rw [isHere, isThere]
    simp only [Excerpt.stop, Excerpt.ofPosition, Position.offset_after, isStop, isOther]
    omega

/-- The combinator for the stretch becomes the combinator for what is there instead. -/
theorem of_layout
    {position : Position}
    {layout other : List Char}
    (isFirst : position.offset = first)
    (isStop : first + layout.length = stop)
    (isLayouts : Layout layout)
    (otherLayouts : Layout other) :
    Exchanged first stop other.length
      { toExcerpt := .ofPosition position layout, kind := .combinator }
      { toExcerpt := .ofPosition position other, kind := .combinator } := by
  subst isFirst isStop
  refine ⟨rfl, .inr ⟨isLayouts.isDescendant position, otherLayouts.isDescendant position⟩,
    .inl ⟨Int.le_refl _, rfl⟩, .inr ?_⟩
  simp only [Excerpt.stop, Excerpt.ofPosition]
  omega

end Token.Exchanged

private theorem offset_after_first (text : List Char) :
    (Position.first.after text).offset = text.length := by
  rw [Position.offset_after]
  exact Nat.zero_add _

/-- The end of the input is moved by as much as the layout is longer. -/
private theorem endToken_exchanged
    (front run layout back : List Char) :
    Token.Exchanged front.length (front.length + run.length) layout.length
      (endToken (front ++ (run ++ back))) (endToken (front ++ (layout ++ back))) := by
  let start := Position.first.after front
  have moved :
      Token.Moved (start.after run) (start.after layout) back
        (endToken (front ++ (run ++ back))) (endToken (front ++ (layout ++ back))) := by
    refine ⟨rfl, back, [], by simp, ?_, ?_⟩
    · simp only [endToken, Position.after_append, start]
    · simp only [endToken, Position.after_append, start]
  refine .of_moved ?_ ?_ moved
  · rw [Position.offset_after, offset_after_first]
  · rw [Position.offset_after, offset_after_first]

section Runs

variable
  {source other : String}
  {front gaps otherGaps back : List Piece}
  (isRun : IsRun front gaps back)
  (otherRun : IsRun front otherGaps back)
  (cut : pieces 0 source.toList = front ++ (gaps ++ back))
  (otherCut : pieces 0 other.toList = front ++ (otherGaps ++ back))

include isRun otherRun cut otherCut

/-- The tokens around a run of gaps stay the same when the gaps are exchanged. -/
theorem tokens_exchanged :
    List.Forall₂
      (Token.Exchanged (front.flatMap Piece.text).length
        ((front.flatMap Piece.text).length + (gaps.flatMap Piece.text).length)
        (otherGaps.flatMap Piece.text).length)
      (Joint.first.tokens (placedPieces source.toList))
      (Joint.first.tokens (placedPieces other.toList)) := by
  have wellCut := wellCut_pieces 0 source.toList
  have otherWellCut := wellCut_pieces 0 other.toList
  rw [cut] at wellCut
  rw [otherCut] at otherWellCut
  rw [placedPieces, placedPieces, cut, otherCut, isRun.tokens_eq wellCut,
    otherRun.tokens_eq otherWellCut]
  refine List.rel_append ?_ (List.rel_append ?_ ?_)
  · refine List.forall₂_same.mpr fun token member => ?_
    obtain ⟨before, text, isPart, isExcerpt⟩ :=
      exists_stretch_of_mem_tokens wellCut.of_append_left member
    exact .of_before isPart.length_le isExcerpt
  · split
    · exact .cons (.of_layout (offset_after_first _) rfl
        (wellCut.of_append_right.layout_of_gaps isRun.areGaps)
        (otherWellCut.of_append_right.layout_of_gaps otherRun.areGaps)) .nil
    · exact .nil
  · have noGap := isRun.gap?_afterAll wellCut
    have isPart : [] ++ back.flatMap Piece.text <+: back.flatMap Piece.text :=
      List.prefix_rfl
    let start := Position.first.after (front.flatMap Piece.text)
    have moved :
        List.Forall₂
          (Token.Moved (start.after (gaps.flatMap Piece.text))
            (start.after (otherGaps.flatMap Piece.text)) (back.flatMap Piece.text)) _ _ :=
      Joint.tokens_moved ⟨rfl, rfl, .inl ⟨noGap, noGap⟩⟩
        wellCut.of_append_right.of_append_right isPart
    refine moved.imp fun _ _ => .of_moved ?_ ?_
    · rw [Position.offset_after, offset_after_first]
    · rw [Position.offset_after, offset_after_first]

/-- With the ends of the texts, all tokens stay the same. -/
theorem tokenize_exchanged :
    List.Forall₂
      (Token.Exchanged (front.flatMap Piece.text).length
        ((front.flatMap Piece.text).length + (gaps.flatMap Piece.text).length)
        (otherGaps.flatMap Piece.text).length)
      (tokenize source).tokens (tokenize other).tokens := by
  refine List.rel_append (tokens_exchanged isRun otherRun cut otherCut) (.cons ?_ .nil)
  rw [← text_pieces 0 source.toList, ← text_pieces 0 other.toList, cut, otherCut]
  simp only [List.flatMap_append]
  exact endToken_exchanged _ _ _ _

/-- The findings around a run of gaps say the same when the gaps are exchanged. -/
theorem report_diagnostics_exchanged :
    (tokenize source).diagnostics.map Diagnostic.report =
      (tokenize other).diagnostics.map Diagnostic.report := by
  have isPart : [] ++ back.flatMap Piece.text <+: back.flatMap Piece.text :=
    List.prefix_rfl
  rw [tokenize, tokenize, placedPieces, placedPieces, cut, otherCut, isRun.diagnostics_eq,
    otherRun.diagnostics_eq, List.map_append, List.map_append]
  refine congrArg _ (map_eq_map_of_forall₂ (diagnostics_moved isPart) ?_)
  rintro here there ⟨sameSeverity, sameMessage, _⟩
  rw [Diagnostic.report, sameSeverity, sameMessage]
  rfl

end Runs

namespace Token.Exchanged

variable {first stop size : Nat} {here there next follower : Token}

/-- Only combinators get another text. -/
theorem text_eq
    (exchanged : Exchanged first stop size here there)
    (noCombinator : here.kind ≠ .combinator) :
    here.text = there.text := by
  rcases exchanged.text with same | ⟨isDescendant, _⟩
  · exact same
  · have combinator := isDescendant.combinator
    rw [combinator?, if_neg noCombinator] at combinator
    contradiction

/-- Combinators stay the same. -/
theorem combinator?_eq (exchanged : Exchanged first stop size here there) :
    here.combinator? = there.combinator? := by
  rcases exchanged.text with same | ⟨isDescendant, otherDescendant⟩
  · rw [combinator?, combinator?, same, exchanged.kind]
  · rw [isDescendant.combinator, otherDescendant.combinator]

/-- A token follows directly on another as before. -/
theorem touch_iff
    (isLong : first < stop)
    (otherLong : 0 < size)
    (exchanged : Exchanged first stop size here there)
    (nextExchanged : Exchanged first stop size next follower) :
    next.start = here.stop ↔ follower.start = there.stop := by
  -- Each offset stays on its side of the stretch, and neither stretch is empty.
  have stops := exchanged.stop
  have starts := nextExchanged.start
  unfold Shifted at stops starts
  omega

end Token.Exchanged

/-- Tokens around a stretch of layout, and the same tokens around other layout. -/
def Likeness.exchanged
    (first stop size : Nat)
    (isLong : first < stop)
    (otherLong : 0 < size) :
    Likeness where
  related := Token.Exchanged first stop size
  behind? := none
  kind := Token.Exchanged.kind
  text := Token.Exchanged.text_eq
  combinator := Token.Exchanged.combinator?_eq
  touch := Token.Exchanged.touch_iff isLong otherLong
  noBlock := noBlock_of_none

/-- A sheet is there when nothing is at fault, with the rules that are read. -/
private theorem unplaced_ofTokens (tokens : List Token) :
    (Sheet.ofTokens tokens).toOption.map Sheet.unplaced =
      if (Sheet.outline tokens).faults.isEmpty then
        some ⟨(Sheet.outline tokens).rules.map Rule.unplaced⟩
      else
        none := by
  unfold Sheet.ofTokens
  dsimp only
  split <;> rfl

/-- Like tokens are read as the same sheet up to places, or rejected in the same words. -/
theorem Likeness.reading_alike
    {likeness : Likeness}
    {source other : String}
    (noneBehind : likeness.behind? = none)
    (allRelated :
      List.Forall₂ likeness.related
        (Joint.first.tokens (placedPieces source.toList))
        (Joint.first.tokens (placedPieces other.toList))) :
    (Sheet.ofTokens (tokenize source).tokens).toOption.map Sheet.unplaced =
        (Sheet.ofTokens (tokenize other).tokens).toOption.map Sheet.unplaced ∧
      (findings (Sheet.ofTokens (tokenize source).tokens)).map Diagnostic.report =
        (findings (Sheet.ofTokens (tokenize other).tokens)).map Diagnostic.report := by
  obtain ⟨sameRules, faultsAlike⟩ := outline_alike_of_forall₂ noneBehind allRelated
  constructor
  · simp only [unplaced_ofTokens, Sheet.outline, tokensBeforeEnd_tokenize, sameRules,
      List.isEmpty_iff, ← List.length_eq_zero_iff, faultsAlike.length_eq]
  · simp only [findings_ofTokens, Sheet.outline, tokensBeforeEnd_tokenize, List.map_map]
    refine map_eq_map_of_forall₂ faultsAlike fun here there alike => ?_
    refine report_diagnostic alike ?_
    rw [endOfTokens_tokenize, endOfTokens_tokenize]
    rfl

/-- Two texts that are read as the same sheet up to places, or rejected in the same words. -/
structure SameReading (source other : String) : Prop where
  diagnostics :
    (tokenize source).diagnostics.map Diagnostic.report =
      (tokenize other).diagnostics.map Diagnostic.report
  sheet :
    (Sheet.ofTokens (tokenize source).tokens).toOption.map Sheet.unplaced =
      (Sheet.ofTokens (tokenize other).tokens).toOption.map Sheet.unplaced
  findings :
    (findings (Sheet.ofTokens (tokenize source).tokens)).map Diagnostic.report =
      (findings (Sheet.ofTokens (tokenize other).tokens)).map Diagnostic.report

/-- Whether findings fail a style sheet depends only on what they say. -/
theorem Mode.passes_congr
    {here there : List Diagnostic}
    (same : here.map Diagnostic.report = there.map Diagnostic.report)
    (mode : Mode) :
    mode.passes here = mode.passes there := by
  have passes_eq :
      ∀ diagnostics : List Diagnostic,
        mode.passes diagnostics =
          (diagnostics.map Diagnostic.report).all fun report =>
            !(decide (report.1 ≠ .semantic) || decide (mode = .full)) := by
    intro diagnostics
    rw [List.all_map]
    rfl
  rw [passes_eq, passes_eq, same]

/-- Sheets that are the same up to places are reported alike. -/
private theorem report_validate_congr
    {here there : Option Sheet}
    (same : here.map Sheet.unplaced = there.map Sheet.unplaced) :
    (here.toList.flatMap fun sheet => sheet.validate []).map Diagnostic.report =
      (there.toList.flatMap fun sheet => sheet.validate []).map Diagnostic.report := by
  cases here with
  | none =>
      cases there with
      | none =>
          rfl
      | some otherSheet =>
          contradiction
  | some sheet =>
      cases there with
      | none =>
          contradiction
      | some otherSheet =>
          have sameSheet : sheet.unplaced = otherSheet.unplaced := Option.some.inj same
          simp only [Option.toList_some, List.flatMap_cons, List.flatMap_nil, List.append_nil]
          rw [← sheet.report_validate_unplaced, sameSheet, otherSheet.report_validate_unplaced]

namespace SameReading

variable {source other : String} (same : SameReading source other)

include same

/-- The faults of form are reported alike. -/
theorem report_formFindings :
    (formFindings source).map Diagnostic.report = (formFindings other).map Diagnostic.report := by
  simp only [formFindings, List.map_append, same.diagnostics, same.findings]

/-- The sheets to be checked are the same up to places. -/
theorem unplaced_checkedSheet? (mode : Mode) :
    (checkedSheet? source mode).map Sheet.unplaced =
      (checkedSheet? other mode).map Sheet.unplaced := by
  have sameEmpty : (formFindings source).isEmpty = (formFindings other).isEmpty := by
    have sameReports := congrArg List.isEmpty same.report_formFindings
    rwa [List.isEmpty_map, List.isEmpty_map] at sameReports
  unfold checkedSheet?
  rw [sameEmpty]
  split
  · exact same.sheet
  · rfl

/-- Linting says the same in every mode. -/
theorem report_lint (file : String) (mode : Mode) :
    (lint file source mode).diagnostics.map Diagnostic.report =
      (lint file other mode).diagnostics.map Diagnostic.report := by
  simp only [lint, List.map_append, same.report_formFindings,
    report_validate_congr (same.unplaced_checkedSheet? mode)]

/-- With another layout the lint has the same success. -/
theorem success_lint (file : String) (mode : Mode) :
    (lint file source mode).success = (lint file other mode).success :=
  Mode.passes_congr (same.report_lint file mode) mode

end SameReading

/-- Exchanging a run of gaps does not change what is read. -/
theorem sameReading_of_runs
    {source other : String}
    {front gaps otherGaps back : List Piece}
    (isRun : IsRun front gaps back)
    (otherRun : IsRun front otherGaps back)
    (cut : pieces 0 source.toList = front ++ (gaps ++ back))
    (otherCut : pieces 0 other.toList = front ++ (otherGaps ++ back)) :
    SameReading source other := by
  have wellCut := wellCut_pieces 0 source.toList
  have otherWellCut := wellCut_pieces 0 other.toList
  rw [cut] at wellCut
  rw [otherCut] at otherWellCut
  have isLong :
      (front.flatMap Piece.text).length <
        (front.flatMap Piece.text).length + (gaps.flatMap Piece.text).length :=
    Nat.lt_add_of_pos_right (List.length_pos_iff.mpr (isRun.text_ne_nil wellCut))
  have otherLong := List.length_pos_iff.mpr (otherRun.text_ne_nil otherWellCut)
  let likeness := Likeness.exchanged _ _ _ isLong otherLong
  have allRelated : List.Forall₂ likeness.related _ _ :=
    tokens_exchanged isRun otherRun cut otherCut
  obtain ⟨sameSheet, sameFindings⟩ := Likeness.reading_alike rfl allRelated
  exact ⟨report_diagnostics_exchanged isRun otherRun cut otherCut, sameSheet, sameFindings⟩

/--
A skipped stretch of a text may be exchanged for any other layout: the tokens
stay the same, apart from the combinator that stands for the stretch, the same
rules are read up to places, and linting says the same and succeeds as before.
-/
theorem lint_exchange
    (source : String)
    (first stop : Nat)
    (layout : List Char)
    (isSkipped : IsSkipped source.toList first stop)
    (isLayouts : Layout layout)
    (nonempty : layout ≠ []) :
    List.Forall₂ (Token.Exchanged first stop layout.length)
        (tokenize source).tokens
        (tokenize (exchange source first stop layout)).tokens ∧
      (Sheet.ofTokens (tokenize source).tokens).toOption.map Sheet.unplaced =
        (Sheet.ofTokens (tokenize (exchange source first stop layout)).tokens).toOption.map
          Sheet.unplaced ∧
      ∀ file mode,
        (lint file source mode).diagnostics.map Diagnostic.report =
            (lint file (exchange source first stop layout) mode).diagnostics.map
              Diagnostic.report ∧
          (lint file source mode).success =
            (lint file (exchange source first stop layout) mode).success := by
  obtain ⟨front, gaps, back, cut, isRun, rfl, rfl, isFront, isBack⟩ := isSkipped.exists_isRun
  obtain ⟨otherGaps, otherCut, otherRun, rfl⟩ := isRun.exists_exchange cut isLayouts nonempty
  rw [← isFront, ← isBack, ← toList_exchange] at otherCut
  have same := sameReading_of_runs isRun otherRun cut otherCut
  exact ⟨tokenize_exchanged isRun otherRun cut otherCut, same.sheet, fun file mode =>
    ⟨same.report_lint file mode, same.success_lint file mode⟩⟩

/--
A blank and a comment between two selectors may become a line feed and a comment.
What is found in the block then is found in the next line.
-/
theorem lint_exchange_comment :
    let source := "A /**/B\x7bx:1\x7d"
    let exchanged := exchange source 1 6 ['\n', '/', '*', '*', '/']
    IsSkipped source.toList 1 6 ∧
      List.Forall₂ (Token.Exchanged 1 6 5) (tokenize source).tokens (tokenize exchanged).tokens ∧
      (Sheet.ofTokens (tokenize source).tokens).toOption.map Sheet.unplaced =
        (Sheet.ofTokens (tokenize exchanged).tokens).toOption.map Sheet.unplaced ∧
      (∀ file mode,
        (lint file source mode).diagnostics.map Diagnostic.report =
            (lint file exchanged mode).diagnostics.map Diagnostic.report ∧
          (lint file source mode).success = (lint file exchanged mode).success) ∧
      exchanged = "A\n/**/B\x7bx:1\x7d" ∧
      ((lint "a.qss" source .full).diagnostics.map fun finding =>
          (finding.line, finding.column, finding.message)) =
        [(1, 9, "unknown property: x")] ∧
      ((lint "a.qss" exchanged .full).diagnostics.map fun finding =>
          (finding.line, finding.column, finding.message)) =
        [(2, 7, "unknown property: x")] := by
  intro source exchanged
  let parts : List Piece :=
    [.token .identifier ['A'], .gap [' '], .gap ['/', '*', '*', '/'], .token .identifier ['B'],
      .token .openBrace ['\x7b'], .token .identifier ['x'], .token .propertySeparator [':'],
      .token .number ['1'], .token .closeBrace ['\x7d']]
  have cut : pieces 0 source.toList = parts := by
    decide +kernel
  have isSkipped : IsSkipped source.toList 1 6 := by
    rw [IsSkipped, cut]
    refine ⟨by decide, by decide, ?_, ?_, by decide⟩
    · intro offset reached before
      have inside :
          ∀ offset < 6, 1 ≤ offset →
            InMarked Piece.text (fun piece => piece.isGap = true) parts offset := by
        decide
      exact inside offset before reached
    · intro offset isBefore
      obtain rfl : offset = 0 := Nat.succ.inj isBefore
      decide
  have isBody : IsCommentBody [] := by simp [IsCommentBody]
  have isLayouts : Layout ['\n', '/', '*', '*', '/'] := .blank rfl (.comment isBody .nil)
  obtain ⟨tokens, sheet, reports⟩ := lint_exchange source 1 6 _ isSkipped isLayouts (by simp)
  exact ⟨isSkipped, tokens, sheet, reports, by decide +kernel, by decide +kernel,
    by decide +kernel⟩

end QtSheet
