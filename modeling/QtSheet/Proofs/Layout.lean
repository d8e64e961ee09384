import QtSheet.Proofs.Piece

namespace QtSheet

/-!
# Layout

What may stand between two tokens without being one: white space and closed
comments. Every gap among the pieces of a text is layout, and layout is split
into gaps again, wherever it stands in front of something that is not a gap.
-/

open Text

/-- The inside of a comment: nothing in it closes the comment. -/
def IsCommentBody (body : List Char) : Prop :=
  ¬ ['*', '/'] <:+: body

/-- White space and closed comments, one after another. -/
inductive Layout : List Char → Prop where
  | nil :
      Layout []
  | blank
      {c : Char}
      {rest : List Char} :
      isLayout c →
      Layout rest →
      Layout (c :: rest)
  | comment
      {body rest : List Char} :
      IsCommentBody body →
      Layout rest →
      Layout ('/' :: '*' :: (body ++ '*' :: '/' :: rest))

namespace Layout

/-- Layout followed by layout is layout. -/
theorem append
    {first second : List Char}
    (firstLayout : Layout first)
    (secondLayout : Layout second) :
    Layout (first ++ second) := by
  induction firstLayout with
  | nil =>
      exact secondLayout
  | blank isBlank _ inductionHypothesis =>
      exact .blank isBlank inductionHypothesis
  | @comment body rest isBody _ inductionHypothesis =>
      have joined := Layout.comment isBody inductionHypothesis
      simpa only [List.cons_append, List.append_assoc] using joined

/-- White space is layout. -/
theorem of_all_isLayout
    {text : List Char}
    (blank : ∀ c ∈ text, isLayout c = true) :
    Layout text := by
  induction text with
  | nil =>
      exact .nil
  | cons c rest inductionHypothesis =>
      refine .blank (blank c (by simp)) (inductionHypothesis ?_)
      intro other member
      exact blank other (by simp [member])

/-- Layout begins with white space or with the slash of a comment. -/
theorem head
    {layout : List Char}
    (isLayouts : Layout layout) :
    ∀ c ∈ layout.head?, isLayout c = true ∨ c = '/' := by
  intro c isFirst
  cases isLayouts with
  | nil =>
      contradiction
  | blank isBlank _ =>
      cases isFirst
      exact .inl isBlank
  | comment _ _ =>
      cases isFirst
      exact .inr rfl

end Layout

/-- The end of the inside of a comment is the inside of one. -/
private theorem IsCommentBody.tail
    {c : Char}
    {body : List Char}
    (isBody : IsCommentBody (c :: body)) :
    IsCommentBody body := by
  intro closes
  exact isBody (closes.trans (List.suffix_cons c body).isInfix)

/-- A comment is cut where its inside ends. -/
theorem cutComment?_of_isCommentBody
    {body : List Char}
    (isBody : IsCommentBody body)
    (rest : List Char) :
    cutComment? (body ++ '*' :: '/' :: rest) = some (body ++ ['*', '/'], rest) := by
  induction body with
  | nil =>
      rfl
  | cons c body inductionHypothesis =>
      have stillOpen : ∀ tail, c = '*' → body ++ '*' :: '/' :: rest = '/' :: tail → False := by
        intro tail isStar shape
        subst isStar
        cases body with
        | nil =>
            simp at shape
        | cons next others =>
            obtain ⟨rfl, _⟩ := List.cons.inj shape
            exact isBody ⟨[], others, rfl⟩
      rw [List.cons_append, cutComment?.eq_3 _ _ stillOpen, inductionHypothesis isBody.tail]
      rfl

/-- What is cut as a comment is its inside and its end. -/
theorem isCommentBody_of_cutComment?
    {text : List Char}
    {cut : Cut}
    (found : cutComment? text = some cut) :
    ∃ body, cut.1 = body ++ ['*', '/'] ∧ IsCommentBody body := by
  fun_induction cutComment? text generalizing cut with
  | case1 =>
      contradiction
  | case2 rest =>
      cases found
      refine ⟨[], rfl, ?_⟩
      intro closes
      simpa using closes.length_le
  | case3 c rest stillOpen inductionHypothesis =>
      obtain ⟨tail, isTail, rfl⟩ := Option.map_eq_some_iff.mp found
      obtain ⟨body, shape, isBody⟩ := inductionHypothesis isTail
      refine ⟨c :: body, by simp [Cut.push, shape], ?_⟩
      intro closes
      rcases List.infix_cons_iff.mp closes with front | inside
      · obtain ⟨others, front⟩ := front
        obtain ⟨rfl, rfl⟩ := List.cons.inj front
        have whole := whole_of_cutComment? isTail
        rw [Cut.whole, shape] at whole
        exact stillOpen _ rfl whole.symm
      · exact isBody inside

/-- Every gap is layout. -/
theorem layout_of_nextPiece
    {depth : Nat}
    {c : Char}
    {rest text after : List Char}
    (cut : nextPiece depth c rest = (.gap text, after)) :
    Layout text := by
  have way := nextPiece_ways depth c rest
  rw [cut] at way
  cases way with
  | blank isBlank =>
      refine .blank isBlank (.of_all_isLayout ?_)
      intro other member
      exact List.all_eq_true.mp List.all_takeWhile other member
  | comment _ _ closed =>
      obtain ⟨body, shape, isBody⟩ := isCommentBody_of_cutComment? closed
      rw [shape]
      exact .comment isBody .nil
  | selector _ _ way =>
      have noGap := way.isPlain.1
      contradiction
  | declaration _ _ _ way =>
      have noGap := way.isPlain.1
      contradiction

/-- What holds of a piece of a text and the pieces behind it. -/
structure Piece.WellCut (piece : Piece) (behind : List Piece) : Prop where
  nonempty : piece.text ≠ []
  layout : ∀ text, piece = .gap text → Layout text
  noEnd : piece.NoEnd
  closeBrace : ∀ text, piece = .token .closeBrace text → text = ['\x7d']
  last : piece.isUnterminated = true → behind = []

/-- Pieces as a text is cut into them. -/
inductive WellCut : List Piece → Prop where
  | nil :
      WellCut []
  | cons
      {piece : Piece}
      {rest : List Piece} :
      piece.WellCut rest →
      WellCut rest →
      WellCut (piece :: rest)

/-- A text is cut into pieces well. -/
theorem wellCut_pieces (depth : Nat) (text : List Char) :
    WellCut (pieces depth text) := by
  fun_induction pieces depth text with
  | case1 =>
      exact .nil
  | case2 depth c rest cut inductionHypothesis =>
      refine .cons ⟨(splits_nextPiece depth c rest).2, ?_, noEnd_nextPiece depth c rest, ?_, ?_⟩
        inductionHypothesis
      · intro text isGap
        have isCut : nextPiece depth c rest = (.gap text, cut.2) := by
          rw [← isGap]
        exact layout_of_nextPiece isCut
      · intro text isBrace
        have isCut : nextPiece depth c rest = (.token .closeBrace text, cut.2) := by
          rw [← isBrace]
        obtain ⟨isMark, rfl⟩ := mark_of_nextPiece isCut rfl
        simpa [markKinds] using mem_markKinds isMark
      · intro unterminated
        rw [show cut.2 = [] from rest_eq_nil_of_isUnterminated unterminated, pieces]

namespace WellCut

/-- Each of some pieces is cut well with those behind it. -/
theorem wellCut
    {front back : List Piece}
    {piece : Piece}
    (allCut : WellCut (front ++ piece :: back)) :
    piece.WellCut back := by
  induction front with
  | nil =>
      cases allCut with
      | cons isCut _ =>
          exact isCut
  | cons first others inductionHypothesis =>
      cases allCut with
      | cons _ restCut =>
          exact inductionHypothesis restCut

/-- Pieces at the front of well-cut ones are cut well. -/
theorem of_append_left
    {front back : List Piece}
    (allCut : WellCut (front ++ back)) :
    WellCut front := by
  induction front with
  | nil =>
      exact .nil
  | cons piece others inductionHypothesis =>
      cases allCut with
      | cons isCut restCut =>
          refine .cons ⟨isCut.nonempty, isCut.layout, isCut.noEnd, isCut.closeBrace, ?_⟩
            (inductionHypothesis restCut)
          intro unterminated
          exact (List.append_eq_nil_iff.mp (isCut.last unterminated)).1

theorem of_append_right
    {front back : List Piece}
    (allCut : WellCut (front ++ back)) :
    WellCut back := by
  induction front with
  | nil =>
      exact allCut
  | cons piece others inductionHypothesis =>
      cases allCut with
      | cons _ restCut =>
          exact inductionHypothesis restCut

/-- No piece of a text is empty. -/
theorem text_ne_nil
    {parts : List Piece}
    (allCut : WellCut parts)
    {piece : Piece}
    (member : piece ∈ parts) :
    piece.text ≠ [] := by
  obtain ⟨front, back, rfl⟩ := List.append_of_mem member
  exact allCut.wellCut.nonempty

/-- Only the last piece of a text may lack its end. -/
theorem isUnterminated_eq_false
    {front back : List Piece}
    (allCut : WellCut (front ++ back))
    (nonempty : back ≠ [])
    {piece : Piece}
    (member : piece ∈ front) :
    piece.isUnterminated = false := by
  obtain ⟨before, behind, rfl⟩ := List.append_of_mem member
  rw [List.append_assoc, List.cons_append] at allCut
  refine Bool.eq_false_iff.mpr fun unterminated => ?_
  exact nonempty (List.append_eq_nil_iff.mp (allCut.wellCut.last unterminated)).2

/-- Gaps one behind the other are layout. -/
theorem layout_of_gaps
    {gaps back : List Piece}
    (allCut : WellCut (gaps ++ back))
    (areGaps : ∀ piece ∈ gaps, piece.isGap = true) :
    Layout (gaps.flatMap Piece.text) := by
  induction gaps with
  | nil =>
      exact .nil
  | cons piece others inductionHypothesis =>
      obtain ⟨isGap, otherGaps⟩ := List.forall_mem_cons.mp areGaps
      cases allCut with
      | cons isCut restCut =>
          cases piece with
          | gap text =>
              exact (isCut.layout text rfl).append (inductionHypothesis restCut otherGaps)
          | _ =>
              contradiction

end WellCut

/-- White space at the front of a text is its first piece. -/
private theorem pieces_blank
    {c : Char}
    (isBlank : isLayout c = true)
    (depth : Nat)
    (rest : List Char) :
    pieces depth (c :: rest) =
      .gap (c :: rest.takeWhile isLayout) :: pieces depth (rest.dropWhile isLayout) := by
  rw [pieces, (NextPiece.blank isBlank).eq]
  rfl

/-- A text that does not begin with a gap does not begin with white space. -/
theorem isLayout_head_of_noGap
    {depth : Nat}
    {text : List Char}
    (noGap : ∀ piece ∈ (pieces depth text).head?, piece.isGap = false) :
    ∀ c ∈ text.head?, isLayout c = false := by
  intro c isFirst
  obtain ⟨rest, rfl⟩ := List.head?_eq_some_iff.mp isFirst
  refine Bool.eq_false_iff.mpr fun isBlank => ?_
  rw [pieces_blank isBlank] at noGap
  exact absurd (noGap _ rfl) (by simp [Piece.isGap])

/-- Layout is cut into gaps when no white space comes behind it. -/
theorem pieces_layout_append
    {layout rest : List Char}
    (isLayouts : Layout layout)
    (stops : ∀ c ∈ rest.head?, isLayout c = false)
    (depth : Nat) :
    ∃ gaps,
      pieces depth (layout ++ rest) = gaps ++ pieces depth rest ∧
        gaps.flatMap Piece.text = layout ∧
        ∀ piece ∈ gaps, piece.isGap = true := by
  induction isLayouts with
  | nil =>
      exact ⟨[], rfl, rfl, by simp⟩
  | @blank c layout isBlank _ inductionHypothesis =>
      obtain ⟨gaps, cut, isText, areGaps⟩ := inductionHypothesis
      rw [List.cons_append, pieces_blank isBlank]
      -- White space in front of more white space makes the first gap longer.
      by_cases goesOn : ∃ next ∈ (layout ++ rest).head?, isLayout next = true
      · obtain ⟨next, isNext, isMore⟩ := goesOn
        obtain ⟨behind, shape⟩ := List.head?_eq_some_iff.mp isNext
        cases gaps with
        | nil =>
            rw [← isText] at isNext
            have noMore := stops next isNext
            rw [isMore] at noMore
            contradiction
        | cons gap others =>
            rw [shape, pieces_blank isMore] at cut
            obtain ⟨isGap, cutBehind⟩ := List.cons.inj cut
            refine ⟨.gap (c :: gap.text) :: others, ?_, ?_, ?_⟩
            · rw [shape, List.takeWhile_cons_of_pos isMore, List.dropWhile_cons_of_pos isMore,
                cutBehind, ← isGap]
              rfl
            · rw [← isText]
              rfl
            · exact List.forall_mem_cons.mpr ⟨rfl, (List.forall_mem_cons.mp areGaps).2⟩
      · have stopsHere : ∀ next ∈ (layout ++ rest).head?, isLayout next = false := by
          intro next isNext
          exact Bool.eq_false_iff.mpr fun isMore => goesOn ⟨next, isNext, isMore⟩
        refine ⟨.gap [c] :: gaps, ?_, ?_, ?_⟩
        · cases shape : layout ++ rest with
          | nil =>
              rw [shape] at cut
              rw [List.cons_append, ← cut]
              rfl
          | cons next behind =>
              rw [shape] at cut stopsHere
              have noMore := stopsHere next rfl
              rw [List.cons_append, ← cut, List.takeWhile_cons_of_neg (by simp [noMore]),
                List.dropWhile_cons_of_neg (by simp [noMore])]
        · rw [List.flatMap_cons, isText]
          rfl
        · exact List.forall_mem_cons.mpr ⟨rfl, areGaps⟩
  | @comment body layout isBody _ inductionHypothesis =>
      obtain ⟨gaps, cut, isText, areGaps⟩ := inductionHypothesis
      refine ⟨.gap ('/' :: '*' :: (body ++ ['*', '/'])) :: gaps, ?_, ?_, ?_⟩
      · have closed := cutComment?_of_isCommentBody isBody (layout ++ rest)
        have isPiece :
            nextPiece depth '/' ('*' :: (body ++ '*' :: '/' :: (layout ++ rest))) =
              (.gap ('/' :: '*' :: (body ++ ['*', '/'])), layout ++ rest) :=
          (NextPiece.comment rfl rfl closed).eq
        simp only [List.cons_append, List.append_assoc]
        rw [pieces, isPiece, ← cut]
        rfl
      · rw [List.flatMap_cons, isText]
        simp [Piece.text]
      · exact List.forall_mem_cons.mpr ⟨rfl, areGaps⟩

end QtSheet
