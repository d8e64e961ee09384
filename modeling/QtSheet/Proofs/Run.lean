import QtSheet.Proofs.Move
import QtSheet.Proofs.Stretch

namespace QtSheet

/-!
# Runs of gaps

Gaps one behind the other are read as one gap, and all that is left of it is
the combinator in front of the next piece, if there is any
(`tokens_eq`). A run of gaps may be exchanged for any other layout: the pieces
in front of it and behind it are the same then (`exists_exchange`).
-/

open Text

/-- Some gaps among pieces, with no gap in front of them and none behind them. -/
structure IsRun (front gaps back : List Piece) : Prop where
  nonempty : gaps ≠ []
  areGaps : ∀ piece ∈ gaps, piece.isGap = true
  noneBefore : ∀ piece ∈ front.getLast?, piece.isGap = false
  noneBehind : ∀ piece ∈ back.head?, piece.isGap = false

namespace Joint

/-- Two gaps one behind the other are as one. -/
private theorem next_gap_gap
    (joint : Joint)
    (position between : Position)
    (text more : List Char) :
    (joint.next ⟨position, .gap text⟩).next ⟨between, .gap more⟩ =
      joint.next ⟨position, .gap (text ++ more)⟩ := by
  by_cases outside : joint.depth = 0
  · cases isGap : joint.gap? with
    | none =>
        simp only [next, outside, ↓reduceIte, widen, isGap]
    | some gap =>
        simp only [next, outside, ↓reduceIte, widen, isGap, List.append_assoc]
  · simp only [next, outside, ↓reduceIte]

/-- Gaps one behind the other are read as one. -/
theorem afterAll_gaps
    {gaps : List Piece}
    (nonempty : gaps ≠ [])
    (areGaps : ∀ piece ∈ gaps, piece.isGap = true)
    (joint : Joint)
    (position : Position) :
    joint.afterAll (place position gaps) =
      joint.next ⟨position, .gap (gaps.flatMap Piece.text)⟩ := by
  induction gaps generalizing joint position with
  | nil =>
      contradiction
  | cons piece others inductionHypothesis =>
      obtain ⟨isGap, otherGaps⟩ := List.forall_mem_cons.mp areGaps
      cases piece with
      | gap text =>
          cases others with
          | nil =>
              rw [List.flatMap_cons, List.flatMap_nil, List.append_nil]
              rfl
          | cons next behind =>
              rw [List.flatMap_cons, ← next_gap_gap joint position (position.after text)]
              exact inductionHypothesis (by simp) otherGaps _ _
      | _ =>
          contradiction

/-- Gaps alone give no tokens. -/
theorem tokens_gaps
    {gaps : List Piece}
    (areGaps : ∀ piece ∈ gaps, piece.isGap = true)
    (joint : Joint)
    (position : Position) :
    joint.tokens (place position gaps) = [] := by
  induction gaps generalizing joint position with
  | nil =>
      rfl
  | cons piece others inductionHypothesis =>
      obtain ⟨isGap, otherGaps⟩ := List.forall_mem_cons.mp areGaps
      cases piece with
      | gap text =>
          exact inductionHypothesis otherGaps _ _
      | _ =>
          contradiction

/-- No gap is left open behind a closed piece that is none. -/
theorem gap?_afterAll
    {front : List Piece}
    (noGap : ∀ piece ∈ front.getLast?, piece.isGap = false)
    (areClosed : ∀ piece ∈ front, piece.isUnterminated = false)
    (position : Position) :
    (Joint.first.afterAll (place position front)).gap? = none := by
  rcases List.eq_nil_or_concat front with rfl | ⟨others, last, rfl⟩
  · rfl
  · rw [List.concat_eq_append] at noGap areClosed ⊢
    rw [place_append, afterAll, List.foldl_append]
    have lastNoGap := noGap last (by simp)
    have lastClosed := areClosed last (by simp)
    cases last with
    | token kind text =>
        rfl
    | stray character =>
        rfl
    | gap text =>
        contradiction
    | unterminated construct text =>
        contradiction

/-- What is left open, the gap apart. -/
def withoutGap (joint : Joint) : Joint :=
  { joint with gap? := none }

/-- A gap leaves nothing else open than itself. -/
theorem withoutGap_next_gap
    {joint : Joint}
    (noGap : joint.gap? = none)
    (position : Position)
    (text : List Char) :
    (joint.next ⟨position, .gap text⟩).withoutGap = joint := by
  obtain ⟨depth, last?, gap?⟩ := joint
  obtain rfl : gap? = none := noGap
  unfold next
  dsimp only
  split <;> rfl

/-- The combinator that an open gap becomes in front of some pieces. -/
def opening (joint : Joint) : List Piece → List Token
  | .token kind _ :: _ => (joint.combinator? kind).toList
  | _ => []

/-- All that is left of an open gap is the combinator in front of the next piece. -/
theorem tokens_eq_opening_append
    {back : List Piece}
    (wellCut : WellCut back)
    (noGap : ∀ piece ∈ back.head?, piece.isGap = false)
    (joint : Joint)
    (position : Position) :
    joint.tokens (place position back) =
      joint.opening back ++ joint.withoutGap.tokens (place position back) := by
  cases wellCut with
  | nil =>
      rfl
  | @cons piece rest isCut _ =>
      cases piece with
      | token kind text =>
          have noCombinator : joint.withoutGap.combinator? kind = none := rfl
          simp only [place, tokens, emitted, opening, noCombinator, Option.toList_none,
            List.nil_append, List.append_assoc]
          rfl
      | stray character =>
          rfl
      | unterminated construct text =>
          -- The open gap stays open, but there is no token behind it any more.
          rw [isCut.last rfl]
          rfl
      | gap text =>
          exact absurd (noGap (.gap text) rfl) (by simp [Piece.isGap])

/-- Whether a gap in front of some pieces becomes a combinator. -/
def opens (joint : Joint) : List Piece → Bool
  | .token kind _ :: _ => decide (joint.depth = 0) && (kind.startsSelector && joint.endsPart)
  | _ => false

/-- A gap becomes one combinator, or nothing, whatever it is made of. -/
theorem opening_next_gap
    {joint : Joint}
    (noGap : joint.gap? = none)
    (position : Position)
    (text : List Char)
    (back : List Piece) :
    (joint.next ⟨position, .gap text⟩).opening back =
      if joint.opens back then
        [{ toExcerpt := .ofPosition position text, kind := .combinator }]
      else
        [] := by
  unfold opening opens
  split
  case h_1 kind word rest =>
    rw [combinator?_eq]
    by_cases outside : joint.depth = 0
    · simp only [next, outside, ↓reduceIte, widen, noGap, endsPart, Option.map_some,
        decide_true, Bool.true_and]
      split <;> rfl
    · simp only [next, outside, ↓reduceIte, noGap, Option.map_none, ite_self, decide_false,
        Bool.false_and, Bool.false_eq_true]
      rfl
  case h_2 =>
    rfl

end Joint

/-- Gaps alone have no findings. -/
theorem diagnostics_gaps
    {gaps : List Piece}
    (areGaps : ∀ piece ∈ gaps, piece.isGap = true)
    (position : Position) :
    (place position gaps).filterMap PlacedPiece.diagnostic? = [] := by
  induction gaps generalizing position with
  | nil =>
      rfl
  | cons piece others inductionHypothesis =>
      obtain ⟨isGap, otherGaps⟩ := List.forall_mem_cons.mp areGaps
      cases piece with
      | gap text =>
          exact inductionHypothesis otherGaps _
      | _ =>
          contradiction

namespace IsRun

variable
  {front gaps back : List Piece}
  (isRun : IsRun front gaps back)

include isRun

/-- A run of gaps is not empty. -/
theorem text_ne_nil (wellCut : WellCut (front ++ (gaps ++ back))) :
    gaps.flatMap Piece.text ≠ [] := by
  obtain ⟨gap, others, rfl⟩ := List.exists_cons_of_ne_nil isRun.nonempty
  have nonempty : gap.text ≠ [] := wellCut.text_ne_nil (by simp)
  simp [nonempty]

/-- No gap is left open in front of a run. -/
theorem gap?_afterAll (wellCut : WellCut (front ++ (gaps ++ back))) :
    (Joint.first.afterAll (place Position.first front)).gap? = none := by
  have behind : gaps ++ back ≠ [] := by
    simp [isRun.nonempty]
  exact Joint.gap?_afterAll isRun.noneBefore
    (fun _ member => wellCut.isUnterminated_eq_false behind member) Position.first

/-- The tokens around a run of gaps: those in front of it, a combinator or none, those behind it. -/
theorem tokens_eq (wellCut : WellCut (front ++ (gaps ++ back))) :
    let start := Position.first.after (front.flatMap Piece.text)
    let run := gaps.flatMap Piece.text
    let joint := Joint.first.afterAll (place Position.first front)
    Joint.first.tokens (place Position.first (front ++ (gaps ++ back))) =
      Joint.first.tokens (place Position.first front) ++
        ((if joint.opens back then
            [{ toExcerpt := .ofPosition start run, kind := .combinator }]
          else
            []) ++
          joint.tokens (place (start.after run) back)) := by
  intro start run joint
  have noGap : joint.gap? = none := isRun.gap?_afterAll wellCut
  rw [place_append, Joint.tokens_append, place_append, Joint.tokens_append,
    Joint.tokens_gaps isRun.areGaps, List.nil_append,
    Joint.afterAll_gaps isRun.nonempty isRun.areGaps,
    Joint.tokens_eq_opening_append wellCut.of_append_right.of_append_right isRun.noneBehind,
    Joint.withoutGap_next_gap noGap, Joint.opening_next_gap noGap]

/-- The findings around a run of gaps: those in front of it and those behind it. -/
theorem diagnostics_eq (position : Position) :
    let start := position.after (front.flatMap Piece.text)
    let run := gaps.flatMap Piece.text
    (place position (front ++ (gaps ++ back))).filterMap PlacedPiece.diagnostic? =
      (place position front).filterMap PlacedPiece.diagnostic? ++
        (place (start.after run) back).filterMap PlacedPiece.diagnostic? := by
  intro start run
  have noFindings : (place start gaps).filterMap PlacedPiece.diagnostic? = [] :=
    diagnostics_gaps isRun.areGaps start
  rw [place_append, place_append, List.filterMap_append, List.filterMap_append, noFindings,
    List.nil_append]

end IsRun

/-- A stretch of a text that is skipped, with nothing skipped right before or behind it. -/
def IsSkipped (source : List Char) (first stop : Nat) : Prop :=
  MaximalStretch
    (InMarked Piece.text (fun piece => piece.isGap = true) (pieces 0 source))
    source.length first stop

/-- A stretch that is skipped is a run of gaps. -/
theorem IsSkipped.exists_isRun
    {source : List Char}
    {first stop : Nat}
    (isSkipped : IsSkipped source first stop) :
    ∃ front gaps back,
      pieces 0 source = front ++ (gaps ++ back) ∧
        IsRun front gaps back ∧
        (front.flatMap Piece.text).length = first ∧
        first + (gaps.flatMap Piece.text).length = stop ∧
        source.take first = front.flatMap Piece.text ∧
        source.drop stop = back.flatMap Piece.text := by
  have whole := text_pieces 0 source
  have stretch :
      MaximalStretch
        (InMarked Piece.text (fun piece => piece.isGap = true) (pieces 0 source))
        ((pieces 0 source).flatMap Piece.text).length first stop := by
    rw [whole]
    exact isSkipped
  obtain ⟨front, gaps, back, cut, frontLength, length, areGaps, noneBefore, noneBehind⟩ :=
    stretch.exists_blocks fun _ member => (wellCut_pieces 0 source).text_ne_nil member
  have isNonempty : gaps ≠ [] := by
    rintro rfl
    have long := isSkipped.nonempty
    simp only [List.flatMap_nil, List.length_nil] at length
    omega
  rw [cut, List.flatMap_append, List.flatMap_append] at whole
  refine ⟨front, gaps, back, cut, ⟨isNonempty, areGaps, ?_, ?_⟩, frontLength, length, ?_, ?_⟩
  · exact fun piece isLast => Bool.eq_false_iff.mpr (noneBefore piece isLast)
  · exact fun piece isFirst => Bool.eq_false_iff.mpr (noneBehind piece isFirst)
  · rw [← whole, ← frontLength, List.take_left]
  · rw [← whole, ← length, ← frontLength, ← List.append_assoc, ← List.length_append,
      List.drop_left]

/-- Gaps open and close no brace. -/
theorem depthAfter_gaps
    {gaps : List Piece}
    (areGaps : ∀ piece ∈ gaps, piece.isGap = true)
    (depth : Nat) :
    depthAfter depth gaps = depth := by
  induction gaps with
  | nil =>
      rfl
  | cons piece others inductionHypothesis =>
      obtain ⟨isGap, otherGaps⟩ := List.forall_mem_cons.mp areGaps
      cases piece with
      | gap text =>
          exact inductionHypothesis otherGaps
      | _ =>
          contradiction

/-- The pieces around a run of gaps are the same around other layout in its place. -/
theorem IsRun.exists_exchange
    {front gaps back : List Piece}
    {source layout : List Char}
    (isRun : IsRun front gaps back)
    (cut : pieces 0 source = front ++ (gaps ++ back))
    (isLayouts : Layout layout)
    (nonempty : layout ≠ []) :
    ∃ otherGaps,
      pieces 0 (front.flatMap Piece.text ++ (layout ++ back.flatMap Piece.text)) =
          front ++ (otherGaps ++ back) ∧
        IsRun front otherGaps back ∧
        otherGaps.flatMap Piece.text = layout := by
  have wellCut := wellCut_pieces 0 source
  have whole := text_pieces 0 source
  rw [cut] at wellCut whole
  simp only [List.flatMap_append] at whole
  -- The gaps open no brace, so the pieces behind them do not depend on them.
  have isBack : back = pieces (depthAfter 0 front) (back.flatMap Piece.text) := by
    have isBehind : back = pieces (depthAfter 0 (front ++ gaps)) (back.flatMap Piece.text) := by
      refine eq_pieces_of_append (cut.trans (List.append_assoc _ _ _).symm) ?_
      rw [← whole, List.flatMap_append, List.append_assoc]
    rwa [depthAfter, List.foldl_append, ← depthAfter, ← depthAfter,
      depthAfter_gaps isRun.areGaps] at isBehind
  have stops : ∀ c ∈ (back.flatMap Piece.text).head?, isLayout c = false := by
    have noGap := isRun.noneBehind
    rw [isBack] at noGap
    exact isLayout_head_of_noGap noGap
  have runLayout := wellCut.of_append_right.layout_of_gaps isRun.areGaps
  have runEnds := endsWord_of_layout runLayout (isRun.text_ne_nil wellCut)
  have layoutEnds := endsWord_of_layout isLayouts nonempty
  obtain ⟨otherGaps, otherCut, isLayout, areGaps⟩ :=
    pieces_layout_append isLayouts stops (depthAfter 0 front)
  rw [← isBack] at otherCut
  refine ⟨otherGaps, ?_, ⟨?_, areGaps, isRun.noneBefore, isRun.noneBehind⟩, isLayout⟩
  · rw [← otherCut]
    refine pieces_append (runEnds (back.flatMap Piece.text)) (layoutEnds _)
      (by rw [whole, cut]) ?_ ?_
    · exact fun _ member => wellCut.isUnterminated_eq_false (by simp [isRun.nonempty]) member
    · intro piece isLast isGap
      rw [isRun.noneBefore piece isLast] at isGap
      contradiction
  · rintro rfl
    exact nonempty isLayout.symm

end QtSheet
