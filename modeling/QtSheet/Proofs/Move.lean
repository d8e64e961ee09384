import Mathlib.Data.List.Forall2
import QtSheet.Proofs.Boundary
import QtSheet.Token.Stream

namespace QtSheet

/-!
# One text at two places

The same pieces, placed from one position on and from another, become the same
tokens and findings at the two places (`tokens_moved`, `diagnostics_moved`), as
long as what has been read before leaves the same open.
-/

open Text

section Places

variable (start other : Position) (whole : List Char)

/-- Two excerpts that are one stretch of a text, when the text begins at one or another position. -/
def Excerpt.Moved (here there : Excerpt) : Prop :=
  ∃ before text,
    before ++ text <+: whole ∧
      here = Excerpt.ofPosition (start.after before) text ∧
      there = Excerpt.ofPosition (other.after before) text

/-- Two tokens that are one token of a text. -/
def Token.Moved (here there : Token) : Prop :=
  here.kind = there.kind ∧ Excerpt.Moved start other whole here.toExcerpt there.toExcerpt

/-- Two findings that are one finding about a text. -/
def Diagnostic.Moved (here there : Diagnostic) : Prop :=
  here.severity = there.severity ∧ here.message = there.message ∧
    Excerpt.Moved start other whole here.toExcerpt there.toExcerpt

end Places

/-- Functions that agree on related members have the same images of related lists. -/
theorem map_eq_map_of_forall₂
    {related : α → β → Prop}
    {f : α → γ}
    {g : β → γ}
    {here : List α}
    {there : List β}
    (allRelated : List.Forall₂ related here there)
    (agree : ∀ one other, related one other → f one = g other) :
    here.map f = there.map g := by
  rw [← List.forall₂_eq_eq_eq, List.forall₂_map_left_iff, List.forall₂_map_right_iff]
  exact allRelated.imp agree

/-- A list of images is the image of the list. -/
theorem eq_map_of_forall₂
    {f : α → β}
    {here : List α}
    {there : List β}
    (related : List.Forall₂ (fun source image => image = f source) here there) :
    there = here.map f := by
  have same := map_eq_map_of_forall₂ related fun source image isImage => isImage.symm
  rwa [List.map_id', eq_comm] at same

/-- Pieces behind others are placed behind the text of those. -/
theorem place_append (position : Position) (front back : List Piece) :
    place position (front ++ back) =
      place position front ++ place (position.after (front.flatMap Piece.text)) back := by
  induction front generalizing position with
  | nil =>
      rfl
  | cons piece others inductionHypothesis =>
      simp only [List.cons_append, place, inductionHypothesis, List.flatMap_cons,
        Position.after_append]

namespace Joint

/-- What is left open after some pieces. -/
def afterAll (joint : Joint) (placed : List PlacedPiece) : Joint :=
  placed.foldl next joint

/-- The tokens of pieces behind others come behind the tokens of those. -/
theorem tokens_append (joint : Joint) (front back : List PlacedPiece) :
    joint.tokens (front ++ back) = joint.tokens front ++ (joint.afterAll front).tokens back := by
  induction front generalizing joint with
  | nil =>
      rfl
  | cons placed others inductionHypothesis =>
      rw [List.cons_append, tokens, inductionHypothesis, ← List.append_assoc]
      rfl

/-- A piece opens and closes braces by itself. -/
theorem depth_next (joint : Joint) (placed : PlacedPiece) :
    (joint.next placed).depth = placed.piece.depthAfter joint.depth := by
  unfold next
  cases placed.piece with
  | gap text =>
      dsimp only
      split <;> rfl
  | token kind text =>
      rfl
  | stray character =>
      rfl
  | unterminated construct text =>
      rfl

/-- The joint counts the open braces of the pieces. -/
theorem depth_afterAll (joint : Joint) (position : Position) (parts : List Piece) :
    (joint.afterAll (place position parts)).depth = depthAfter joint.depth parts := by
  induction parts generalizing joint position with
  | nil =>
      rfl
  | cons piece rest inductionHypothesis =>
      rw [depthAfter, List.foldl_cons, ← depth_next joint ⟨position, piece⟩]
      exact inductionHypothesis _ _

/-- Whether a combinator may follow what has been read. -/
def endsPart (joint : Joint) : Bool :=
  joint.last?.any Kind.endsSelectorPart

/-- The combinator of a gap follows the end of a part and stands in front of another part. -/
theorem combinator?_eq (joint : Joint) (kind : Kind) :
    joint.combinator? kind =
      if kind.startsSelector && joint.endsPart then
        joint.gap?.map fun gap => { toExcerpt := .ofPosition gap.1 gap.2, kind := .combinator }
      else
        none := by
  unfold combinator? endsPart
  cases joint.gap? with
  | none =>
      simp
  | some gap =>
      cases joint.last? with
      | none =>
          simp
      | some last =>
          simp

/--
Two joints leave the same open after a stretch of text that is read from one
position and from another.
-/
structure Moved
    (start other : Position)
    (read : List Char)
    (here there : Joint) : Prop where
  depth : here.depth = there.depth
  endsPart : here.endsPart = there.endsPart
  gap :
    (here.gap? = none ∧ there.gap? = none) ∨
      here.depth = 0 ∧
        ∃ before text,
          before ++ text = read ∧
            here.gap? = some (start.after before, text) ∧
            there.gap? = some (other.after before, text)

section Steps

variable {start other : Position} {whole read : List Char} {here there : Joint}

/-- One more piece leaves the same open at both places. -/
theorem moved_next
    (moved : Moved start other read here there)
    (piece : Piece)
    (isClosed : piece.isUnterminated = false) :
    Moved start other (read ++ piece.text)
      (here.next ⟨start.after read, piece⟩)
      (there.next ⟨other.after read, piece⟩) := by
  obtain ⟨sameDepth, sameEnd, gap⟩ := moved
  cases piece with
  | gap text =>
      by_cases outside : here.depth = 0
      · simp only [next, if_pos outside, if_pos (sameDepth ▸ outside)]
        refine ⟨sameDepth, sameEnd, .inr ⟨outside, ?_⟩⟩
        rcases gap with ⟨hereNone, thereNone⟩ | ⟨_, before, begun, isRead, hereSome, thereSome⟩
        · exact ⟨read, text, rfl, by simp [widen, hereNone], by simp [widen, thereNone]⟩
        · refine ⟨before, begun ++ text, ?_, by simp [widen, hereSome], by simp [widen, thereSome]⟩
          rw [← List.append_assoc, isRead]
          rfl
      · simp only [next, if_neg outside, if_neg (sameDepth ▸ outside)]
        rcases gap with noGap | ⟨isOutside, _⟩
        · exact ⟨sameDepth, sameEnd, .inl noGap⟩
        · exact absurd isOutside outside
  | token kind text =>
      exact ⟨by simp [next, sameDepth], rfl, .inl ⟨rfl, rfl⟩⟩
  | stray character =>
      exact ⟨sameDepth, sameEnd, .inl ⟨rfl, rfl⟩⟩
  | unterminated construct text =>
      contradiction

/-- The combinator of a gap is the same at both places. -/
theorem moved_combinator?
    (moved : Moved start other read here there)
    (isPart : read <+: whole)
    (kind : Kind) :
    List.Forall₂ (Token.Moved start other whole)
      (here.combinator? kind).toList (there.combinator? kind).toList := by
  rw [combinator?_eq, combinator?_eq, moved.endsPart]
  split
  · rcases moved.gap with ⟨hereNone, thereNone⟩ | ⟨_, before, text, isRead, hereSome, thereSome⟩
    · rw [hereNone, thereNone]
      exact .nil
    · rw [hereSome, thereSome]
      exact .cons ⟨rfl, before, text, isRead ▸ isPart, rfl, rfl⟩ .nil
  · exact .nil

/-- One more piece adds the same tokens at both places. -/
theorem moved_emitted
    {piece : Piece}
    (moved : Moved start other read here there)
    (isPart : read ++ piece.text <+: whole) :
    List.Forall₂ (Token.Moved start other whole)
      (here.emitted ⟨start.after read, piece⟩)
      (there.emitted ⟨other.after read, piece⟩) := by
  cases piece with
  | token kind text =>
      have readPart : read <+: whole := (List.prefix_append read text).trans isPart
      exact List.rel_append (moved_combinator? moved readPart kind)
        (.cons ⟨rfl, read, text, isPart, rfl, rfl⟩ .nil)
  | gap text =>
      exact .nil
  | stray character =>
      exact .nil
  | unterminated construct text =>
      exact .nil

/-- The tokens of the same pieces are the same at both places. -/
theorem tokens_moved
    {parts : List Piece}
    (moved : Moved start other read here there)
    (wellCut : WellCut parts)
    (isPart : read ++ parts.flatMap Piece.text <+: whole) :
    List.Forall₂ (Token.Moved start other whole)
      (here.tokens (place (start.after read) parts))
      (there.tokens (place (other.after read) parts)) := by
  induction wellCut generalizing read here there with
  | nil =>
      exact .nil
  | @cons piece rest isCut _ inductionHypothesis =>
      rw [List.flatMap_cons, ← List.append_assoc] at isPart
      have piecePart : read ++ piece.text <+: whole :=
        (List.prefix_append _ _).trans isPart
      refine List.rel_append (moved_emitted moved piecePart) ?_
      rw [← Position.after_append, ← Position.after_append]
      cases isClosed : piece.isUnterminated with
      | false =>
          exact inductionHypothesis (moved_next moved piece isClosed) isPart
      | true =>
          rw [isCut.last isClosed]
          exact .nil

end Steps

end Joint

/-- Every token of placed pieces is a stretch of their text. -/
theorem exists_stretch_of_mem_tokens
    {parts : List Piece}
    {token : Token}
    (wellCut : WellCut parts)
    (member : token ∈ Joint.first.tokens (place Position.first parts)) :
    ∃ before text,
      before ++ text <+: parts.flatMap Piece.text ∧
        token.toExcerpt = Excerpt.ofPosition (Position.first.after before) text := by
  have moved : Joint.Moved Position.first Position.first [] Joint.first Joint.first :=
    ⟨rfl, rfl, .inl ⟨rfl, rfl⟩⟩
  have allMoved := Joint.tokens_moved moved wellCut List.prefix_rfl
  obtain ⟨_, before, text, isPart, isExcerpt, _⟩ := List.forall₂_same.mp allMoved token member
  exact ⟨before, text, isPart, isExcerpt⟩

/-- The findings about the same pieces are the same at both places. -/
theorem diagnostics_moved
    {start other : Position}
    {whole read : List Char}
    {parts : List Piece}
    (isPart : read ++ parts.flatMap Piece.text <+: whole) :
    List.Forall₂ (Diagnostic.Moved start other whole)
      ((place (start.after read) parts).filterMap PlacedPiece.diagnostic?)
      ((place (other.after read) parts).filterMap PlacedPiece.diagnostic?) := by
  induction parts generalizing read with
  | nil =>
      exact .nil
  | cons piece rest inductionHypothesis =>
      rw [List.flatMap_cons, ← List.append_assoc] at isPart
      have piecePart : read ++ piece.text <+: whole :=
        (List.prefix_append _ _).trans isPart
      have behind := inductionHypothesis isPart
      rw [Position.after_append, Position.after_append] at behind
      cases piece with
      | gap text =>
          exact behind
      | token kind text =>
          exact behind
      | stray character =>
          exact .cons ⟨rfl, rfl, read, [character], piecePart, rfl, rfl⟩ behind
      | unterminated construct text =>
          exact .cons ⟨rfl, rfl, read, text, piecePart, rfl, rfl⟩ behind

end QtSheet
