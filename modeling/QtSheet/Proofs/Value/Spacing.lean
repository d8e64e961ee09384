import QtSheet.Proofs.Boundary
import QtSheet.Proofs.Value.Quotation

namespace QtSheet.Value

open Text

/-!
# Texts with a space between them

Words and numerals do not see what stands behind a space. Quoted texts and
references do, but none of them goes past the space when the text in front of
it is sealed: no mark is open at its end, and if there is a parenthesis in it
then it ends with one. So the terms of a sealed text, a space and another text
are the terms of the two texts (`Sealed.terms?_append`).
-/

/-- A term with more text behind it. -/
def TermCut.extend (tail : List Char) (cut : TermCut) : TermCut :=
  (cut.1, cut.2 ++ tail)

theorem endsWord_space (behind : List Char) :
    EndsWord (' ' :: behind) := by
  intro c isFirst
  obtain rfl := Option.some.inj isFirst
  decide

/-- A word without a space does not see what stands behind one. -/
theorem afterWord?_append_space
    (word : List Char)
    (noSpace : word.all (fun letter => !isLetter letter ' ') = true)
    (text behind : List Char) :
    afterWord? word (text ++ ' ' :: behind) = (afterWord? word text).map (· ++ ' ' :: behind) := by
  fun_induction afterWord? word text with
  | case1 text =>
      rfl
  | case2 letter word =>
      simp only [List.all_cons, Bool.and_eq_true, Bool.not_eq_true'] at noSpace
      simp [afterWord?, noSpace.1]
  | case3 letter word c text stands inductionHypothesis =>
      simp only [List.all_cons, Bool.and_eq_true] at noSpace
      simpa [afterWord?, stands] using inductionHypothesis noSpace.2
  | case4 letter word c text notStands =>
      simp [afterWord?, notStands]

/-- Words without spaces do not see what stands behind one. -/
theorem afterAnyWord?_append_space
    (words : List String)
    (noSpace : words.all (fun word => word.toList.all fun letter => !isLetter letter ' ') = true)
    (text behind : List Char) :
    afterAnyWord? words (text ++ ' ' :: behind) =
      (afterAnyWord? words text).map (· ++ ' ' :: behind) := by
  unfold afterAnyWord?
  induction words with
  | nil =>
      rfl
  | cons word words inductionHypothesis =>
      simp only [List.all_cons, Bool.and_eq_true] at noSpace
      rw [List.findSome?_cons, List.findSome?_cons, afterWord?_append_space word.toList noSpace.1]
      cases afterWord? word.toList text with
      | none =>
          exact inductionHypothesis noSpace.2
      | some rest =>
          rfl

/-- A call does not see what stands behind a space. -/
theorem cutCallTerm?_append_space (text behind : List Char) :
    cutCallTerm? (text ++ ' ' :: behind) =
      (cutCallTerm? text).map (TermCut.extend (' ' :: behind)) := by
  have color := afterAnyWord?_append_space colorFunctions (by decide) text behind
  have gradient := afterAnyWord?_append_space gradientFunctions (by decide) text behind
  have palette := afterAnyWord?_append_space paletteFunctions (by decide) text behind
  simp only [cutCallTerm?, color, gradient, palette]
  cases afterAnyWord? colorFunctions text with
  | some rest =>
      rfl
  | none =>
      cases afterAnyWord? gradientFunctions text with
      | some rest =>
          rfl
      | none =>
          cases afterAnyWord? paletteFunctions text <;> rfl

theorem cutHyphen_append_space (text behind : List Char) :
    cutHyphen (text ++ ' ' :: behind) = (cutHyphen text).extend (' ' :: behind) := by
  cases text with
  | nil =>
      rfl
  | cons c rest =>
      by_cases isHyphen : c = '-' <;> simp [cutHyphen, Cut.extend, isHyphen]

theorem cutPlainName?_append_space (text behind : List Char) :
    cutPlainName? (text ++ ' ' :: behind) =
      (cutPlainName? text).map (Cut.extend (' ' :: behind)) := by
  have stops : ∀ c ∈ (' ' :: behind).head?, isPlainCharacter c = false := by
    intro c isFirst
    obtain rfl := Option.some.inj isFirst
    decide
  simp only [cutPlainName?, cutHyphen_append_space, Cut.extend]
  cases (cutHyphen text).2 with
  | nil =>
      simp [show isPlainStart ' ' = false by decide]
  | cons c rest =>
      have isCut := cutWhile_append stops rest
      simp only [cutWhile, Cut.extend, Prod.mk.injEq] at isCut
      by_cases starts : isPlainStart c = true
      · simp only [List.cons_append, starts, isCut]
        rfl
      · simp [starts]

theorem cutNameTerm?_append_space (text behind : List Char) :
    cutNameTerm? (text ++ ' ' :: behind) =
      (cutNameTerm? text).map (TermCut.extend (' ' :: behind)) := by
  rw [cutNameTerm?, cutNameTerm?, cutPlainName?_append_space, Option.map_map, Option.map_map]
  rfl

theorem endsNumeral_append_space (text behind : List Char) :
    endsNumeral (text ++ ' ' :: behind) = endsNumeral text := by
  cases text with
  | nil =>
      simp [endsNumeral, show isNameCharacter ' ' = false by decide]
  | cons c rest =>
      rfl

theorem cutNumeralUnit?_append_space (text behind : List Char) :
    cutNumeralUnit? (text ++ ' ' :: behind) =
      (cutNumeralUnit? text).map fun cut => (cut.1, cut.2 ++ ' ' :: behind) := by
  have percent := afterWord?_append_space ['%'] (by decide) text behind
  have units := afterAnyWord?_append_space lengthUnits (by decide) text behind
  simp only [cutNumeralUnit?, endsNumeral_append_space, percent, units]
  split
  · rfl
  · cases afterWord? ['%'] text with
    | some rest =>
        simp only [Option.map_some, endsNumeral_append_space]
        split <;> rfl
    | none =>
        cases afterAnyWord? lengthUnits text with
        | some rest =>
            simp only [Option.map_some, Option.map_none, endsNumeral_append_space]
            split <;> rfl
        | none =>
            rfl

theorem cutNumeralTerm?_append_space (text behind : List Char) :
    cutNumeralTerm? (text ++ ' ' :: behind) =
      (cutNumeralTerm? text).map (TermCut.extend (' ' :: behind)) := by
  rw [cutNumeralTerm?, cutNumeralTerm?, cutNumeral?_append (endsWord_space behind)]
  cases cutNumeral? text with
  | none =>
      rfl
  | some numeral =>
      simp only [Option.map_some, Option.bind_some, Cut.extend, cutNumeralUnit?_append_space,
        Option.map_map]
      rfl

theorem cutHexTerm?_append_space (text behind : List Char) :
    cutHexTerm? (text ++ ' ' :: behind) =
      (cutHexTerm? text).map (TermCut.extend (' ' :: behind)) := by
  have stops : ∀ c ∈ (' ' :: behind).head?, isHexDigit c = false := by
    intro c isFirst
    obtain rfl := Option.some.inj isFirst
    decide
  have sameNext :
      ∀ text : List Char,
        (text ++ ' ' :: behind).head?.any isNameCharacter = text.head?.any isNameCharacter := by
    intro text
    cases text with
    | nil =>
        exact show isNameCharacter ' ' = false by decide
    | cons c rest =>
        rfl
  simp only [cutHexTerm?, cutWhile_append stops, Cut.extend, sameNext]
  split <;> rfl

/-- The text of a class in front of a character of another class, and the rest. -/
theorem dropWhile_append_cons
    {inClass : Char → Bool}
    {front : List Char}
    {c : Char}
    (allIn : ∀ d ∈ front, inClass d = true)
    (notIn : inClass c = false)
    (rest : List Char) :
    (front ++ c :: rest).dropWhile inClass = c :: rest := by
  rw [List.dropWhile_append_of_pos allIn, List.dropWhile_cons_of_neg (by simp [notIn])]

/-- A quoted text ends with the first of its marks. -/
theorem afterQuoted?_append
    {mark : Char}
    {inside : List Char}
    (noMark : mark ∉ inside)
    (rest : List Char) :
    afterQuoted? mark (inside ++ mark :: rest) = some rest := by
  have others : ∀ c ∈ inside, (c != mark) = true := by
    intro c member
    exact bne_iff_ne.mpr fun same => noMark (same ▸ member)
  rw [afterQuoted?, dropWhile_append_cons others (by simp)]

/-- A reference ends alike whatever follows it. -/
theorem Reference.afterReference?_append
    {body : List Char}
    (reference : Reference body)
    (rest : List Char) :
    afterReference? (body ++ rest) = some rest := by
  have noBlank : isBlank ')' = false := by decide
  cases reference with
  | @quoted blanks inside behind mark areBlank isMark noMark areOthers =>
      have markNoBlank : isBlank mark = false := by
        apply Bool.eq_false_iff.mpr
        exact fun blank => notMem_of_isBlank blank (List.mem_cons_of_mem _ isMark)
      have isQuote : (mark = '"' || mark = '\x27') = true := by
        simpa [quotes] using isMark
      simp only [List.append_assoc, List.cons_append, afterReference?,
        dropWhile_append_cons areBlank markNoBlank, isQuote, if_true, afterQuoted?_append noMark,
        Option.bind_some, List.nil_append, dropWhile_append_cons areOthers noBlank]
      rfl
  | @bare inside areBare =>
      have stops : ∀ c ∈ (')' :: rest).head?, isBlank c = false := by
        intro c isFirst
        obtain rfl := Option.some.inj isFirst
        exact noBlank
      have isDropped := congrArg Prod.snd (cutWhile_append stops inside)
      simp only [cutWhile, Cut.extend] at isDropped
      rw [List.append_assoc, List.singleton_append, afterReference?, isDropped]
      obtain ⟨blanks, isInside, _⟩ :=
        exists_front_of_dropWhile (rfl : inside.dropWhile isBlank = inside.dropWhile isBlank)
      -- What is left behind the blanks are characters of the inside.
      have areOthers : ∀ c ∈ inside.dropWhile isBlank, c ∉ ')' :: quotes :=
        fun c member => areBare c (isInside ▸ List.mem_append_right blanks member)
      generalize inside.dropWhile isBlank = others at areOthers
      have isClosed :
          afterClose? ((others ++ ')' :: rest).dropWhile fun c =>
            !(c == ')' || c == '"' || c == '\x27')) = some rest := by
        rw [dropWhile_append_cons _ (by decide)]
        · rfl
        · intro c member
          simpa [quotes, and_assoc] using areOthers c member
      cases others with
      | nil =>
          simpa using isClosed
      | cons c others =>
          have notQuote : (c = '"' || c = '\x27') = false := by
            have notMark := areOthers c (by simp)
            simp only [quotes, List.mem_cons, List.not_mem_nil, or_false, not_or] at notMark
            simp [notMark]
          simpa [notQuote] using isClosed

/-- A reference is found with a space and more behind its text, too. -/
theorem cutUrlTerm?_append_space
    {text after : List Char}
    {term : Term}
    (found : cutUrlTerm? text = some (term, after))
    (behind : List Char) :
    cutUrlTerm? (text ++ ' ' :: behind) = some (term, after ++ ' ' :: behind) := by
  obtain ⟨rest, isUrl, same⟩ := Option.map_eq_some_iff.mp found
  obtain ⟨rfl, rfl⟩ := Prod.mk.inj same
  obtain ⟨inside, isName, isReference⟩ := Option.bind_eq_some_iff.mp isUrl
  obtain ⟨body, rfl, reference⟩ := exists_body_of_afterReference? isReference
  rw [cutUrlTerm?, afterWord?_append_space _ (by decide), isName, Option.map_some, Option.bind_some,
    List.append_assoc, reference.afterReference?_append]
  rfl

/-- A reference in front of a space is found without what is behind. -/
theorem cutUrlTerm?_of_append_space
    {text after behind : List Char}
    {term : Term}
    (found : cutUrlTerm? (text ++ ' ' :: behind) = some (term, after ++ ' ' :: behind)) :
    cutUrlTerm? text = some (term, after) := by
  obtain ⟨rest, isUrl, same⟩ := Option.map_eq_some_iff.mp found
  obtain ⟨rfl, rfl⟩ := Prod.mk.inj same
  obtain ⟨inside, isName, isReference⟩ := Option.bind_eq_some_iff.mp isUrl
  rw [afterWord?_append_space _ (by decide)] at isName
  obtain ⟨own, isOwn, rfl⟩ := Option.map_eq_some_iff.mp isName
  obtain ⟨body, isBody, reference⟩ := exists_body_of_afterReference? isReference
  rw [← List.append_assoc] at isBody
  obtain rfl := List.append_cancel_right isBody
  rw [cutUrlTerm?, isOwn, Option.bind_some, reference.afterReference?_append]
  rfl

/-- What a term leaves is found again without the text put behind it. -/
theorem TermCut.eq_of_extend
    {cut? : Option TermCut}
    {term : Term}
    {after tail : List Char}
    (found : cut?.map (TermCut.extend tail) = some (term, after ++ tail)) :
    cut? = some (term, after) := by
  obtain ⟨⟨own, rest⟩, rfl, same⟩ := Option.map_eq_some_iff.mp found
  obtain ⟨rfl, sameRest⟩ := Prod.mk.inj same
  obtain rfl : rest = after := List.append_cancel_right sameRest
  rfl

/-- A word with a space behind it is a word. -/
theorem cutWordTerm?_of_append_space
    {text after behind : List Char}
    {term : Term}
    (found : cutWordTerm? (text ++ ' ' :: behind) = some (term, after ++ ' ' :: behind)) :
    cutWordTerm? text = some (term, after) := by
  simp only [cutWordTerm?_eq_some_iff, cutCallTerm?_append_space, cutNameTerm?_append_space,
    cutNumeralTerm?_append_space, Option.map_eq_none_iff] at found ⊢
  refine found.imp TermCut.eq_of_extend (And.imp_right ?_)
  refine Or.imp cutUrlTerm?_of_append_space (And.imp ?_ ?_)
  · intro noUrl
    apply Option.eq_none_iff_forall_ne_some.mpr
    intro cut isUrl
    rw [cutUrlTerm?_append_space isUrl] at noUrl
    contradiction
  · exact Or.imp TermCut.eq_of_extend (And.imp_right TermCut.eq_of_extend)

/-- A term with a space behind it is a term. -/
theorem cutTerm?_of_append_space
    {c : Char}
    {rest after behind : List Char}
    {term : Term}
    (found : cutTerm? c (rest ++ ' ' :: behind) = some (term, after ++ ' ' :: behind)) :
    cutTerm? c rest = some (term, after) := by
  unfold cutTerm? at found ⊢
  cases isSign : sign? c with
  | some sign =>
      simp only [isSign, Option.some.injEq, Prod.mk.injEq] at found ⊢
      exact ⟨found.1, List.append_cancel_right found.2⟩
  | none =>
      simp only [isSign] at found ⊢
      by_cases isHash : c = '#'
      · rw [if_pos isHash, cutHexTerm?_append_space] at found
        rw [if_pos isHash]
        exact TermCut.eq_of_extend found
      · rw [if_neg isHash] at found ⊢
        by_cases isQuote : c = '"' || c = '\x27'
        · rw [if_pos isQuote] at found ⊢
          obtain ⟨left, isQuoted, same⟩ := Option.map_eq_some_iff.mp found
          obtain ⟨rfl, rfl⟩ := Prod.mk.inj same
          obtain ⟨inside, isInside, noMark⟩ := exists_inside_of_afterQuoted? isQuoted
          rw [List.append_cons, ← List.append_assoc] at isInside
          obtain rfl := List.append_cancel_right isInside
          rw [List.append_assoc, List.singleton_append, afterQuoted?_append noMark]
          rfl
        · rw [if_neg isQuote] at found ⊢
          exact cutWordTerm?_of_append_space found

/-- Layout in front of terms changes nothing. -/
theorem terms?_of_isLayout
    {c : Char}
    (layout : isLayout c = true)
    (rest : List Char) :
    terms? (c :: rest) = terms? rest := by
  rw [terms?, if_pos layout]

/-- The first term and those of what is left are the terms. -/
theorem terms?_of_cutTerm?
    {c : Char}
    {rest after : List Char}
    {term : Term}
    (notLayout : isLayout c = false)
    (found : cutTerm? c rest = some (term, after)) :
    terms? (c :: rest) = (terms? after).map fun terms => term :: terms := by
  rw [terms?, if_neg (by simp [notLayout])]
  split <;> simp_all

/-- A text has no terms where none begins. -/
theorem terms?_of_isStuck
    {c : Char}
    (stuck : isStuck c = true)
    (rest : List Char) :
    terms? (c :: rest) = none := by
  simp only [isStuck, isStray, Bool.or_eq_true, beq_iff_eq] at stuck
  have noTerm : isLayout c = false ∧ cutTerm? c rest = none := by
    rcases stuck with rfl | (rfl | rfl) | rfl <;>
      exact ⟨by decide, (cut?_of_others (by decide) (by decide) (by decide) rest).1⟩
  rw [terms?, if_neg (by simp [noTerm.1])]
  split <;> simp_all

/-- A word behind which there are terms is the same word with a space behind them. -/
theorem cutWordTerm?_append_space
    {text after : List Char}
    {term : Term}
    (found : cutWordTerm? text = some (term, after))
    (goesOn : terms? after ≠ none)
    (behind : List Char) :
    cutWordTerm? (text ++ ' ' :: behind) = some (term, after ++ ' ' :: behind) := by
  have extended : ∀ {cut? : Option TermCut}, cut? = some (term, after) →
      cut?.map (TermCut.extend (' ' :: behind)) = some (term, after ++ ' ' :: behind) := by
    rintro cut? rfl
    rfl
  rw [cutWordTerm?_eq_some_iff] at found
  simp only [cutWordTerm?_eq_some_iff, cutCallTerm?_append_space, cutNameTerm?_append_space,
    cutNumeralTerm?_append_space, Option.map_eq_none_iff]
  rcases found with isCall | ⟨noCall, isUrl | ⟨noUrl, isName | ⟨noName, isNumeral⟩⟩⟩
  · exact .inl (extended isCall)
  · exact .inr ⟨noCall, .inl (cutUrlTerm?_append_space isUrl behind)⟩
  · refine .inr ⟨noCall, .inr ⟨?_, .inl (extended isName)⟩⟩
    -- A reference would leave its parenthesis behind the name.
    apply Option.eq_none_iff_forall_ne_some.mpr
    intro cut isUrl
    obtain ⟨rest, isReference, _⟩ := Option.map_eq_some_iff.mp isUrl
    obtain ⟨inside, isWord, _⟩ := Option.bind_eq_some_iff.mp isReference
    rw [afterWord?_append_space _ (by decide)] at isWord
    obtain ⟨own, isOwn, _⟩ := Option.map_eq_some_iff.mp isWord
    obtain ⟨c, isFirst, stuck⟩ := isStuck_of_afterWord? (by decide) (by decide) isOwn
    obtain ⟨_, _, _, isAfter⟩ := eq_name_of_cutNameTerm? isName
    rw [← isAfter] at isFirst
    obtain ⟨others, rfl⟩ := List.head?_eq_some_iff.mp isFirst
    exact goesOn (terms?_of_isStuck stuck others)
  · refine .inr ⟨noCall, .inr ⟨?_, .inr ⟨noName, extended isNumeral⟩⟩⟩
    cases text with
    | nil =>
        contradiction
    | cons c rest =>
        exact (cut?_of_notAlpha (begins_of_cutNumeralTerm? isNumeral).2.1 _).2

/-- A term is found with a space and more behind the text, too. -/
theorem cutTerm?_append_space
    {c : Char}
    {rest after : List Char}
    {term : Term}
    (found : cutTerm? c rest = some (term, after))
    (goesOn : terms? after ≠ none)
    (behind : List Char) :
    cutTerm? c (rest ++ ' ' :: behind) = some (term, after ++ ' ' :: behind) := by
  unfold cutTerm? at found ⊢
  cases isSign : sign? c with
  | some sign =>
      simp only [isSign, Option.some.injEq, Prod.mk.injEq] at found ⊢
      exact ⟨found.1, by rw [found.2]⟩
  | none =>
      simp only [isSign] at found ⊢
      by_cases isHash : c = '#'
      · rw [if_pos isHash] at found ⊢
        rw [cutHexTerm?_append_space, found]
        rfl
      · rw [if_neg isHash] at found ⊢
        by_cases isQuote : c = '"' || c = '\x27'
        · rw [if_pos isQuote] at found ⊢
          obtain ⟨left, isQuoted, same⟩ := Option.map_eq_some_iff.mp found
          obtain ⟨rfl, rfl⟩ := Prod.mk.inj same
          obtain ⟨inside, rfl, noMark⟩ := exists_inside_of_afterQuoted? isQuoted
          rw [List.append_assoc, List.cons_append, afterQuoted?_append noMark]
          rfl
        · rw [if_neg isQuote] at found ⊢
          exact cutWordTerm?_append_space found goesOn behind

/-- The terms of a text, a space and another text are the terms of both. -/
theorem terms?_append_space
    {text : List Char}
    {terms : List Term}
    (areTerms : terms? text = some terms)
    (behind : List Char) :
    terms? (text ++ ' ' :: behind) = (terms? behind).map (terms ++ ·) := by
  fun_induction terms? text generalizing terms with
  | case1 =>
      obtain rfl := Option.some.inj areTerms
      rw [List.nil_append, terms?_of_isLayout (by decide)]
      exact (Option.map_id' (x := terms? behind)).symm
  | case2 c rest layout inductionHypothesis =>
      rw [List.cons_append, terms?_of_isLayout layout, inductionHypothesis areTerms]
  | case3 =>
      contradiction
  | case4 c rest notLayout term after isTerm inductionHypothesis =>
      obtain ⟨others, areOthers, rfl⟩ := Option.map_eq_some_iff.mp areTerms
      have isLonger := cutTerm?_append_space isTerm (by simp [areOthers]) behind
      rw [List.cons_append, terms?_of_cutTerm? (by simpa using notLayout) isLonger,
        inductionHypothesis areOthers, Option.map_map]
      rfl

/--
A text at whose end no mark is open, and in which no parenthesis is open if it
may be closed only by the last character.
-/
structure Sealed (text : List Char) : Prop where
  marks : ∃ after, Quotation.outside.run text = some after ∧ after.mark? = none
  parentheses : '(' ∈ text → text.getLast? = some ')'

namespace Sealed

/-- What a text that leads outside leaves of a sealed text is sealed. -/
theorem of_append
    {own rest : List Char}
    (isSealed : Sealed (own ++ rest))
    (leadsOutside : Quotation.outside.run own = some .outside) :
    Sealed rest := by
  constructor
  · obtain ⟨after, leads, notOpen⟩ := isSealed.marks
    rw [Quotation.run_append, leadsOutside] at leads
    exact ⟨after, leads, notOpen⟩
  · intro isOpen
    have isLast := isSealed.parentheses (List.mem_append_right own isOpen)
    rwa [List.getLast?_append_of_ne_nil _ (List.ne_nil_of_mem isOpen)] at isLast

/-- A sealed text is sealed without layout at its front. -/
theorem of_layout
    {c : Char}
    {rest : List Char}
    (isSealed : Sealed (c :: rest))
    (layout : isLayout c = true) :
    Sealed rest := by
  have leadsOutside : Quotation.outside.run [c] = some .outside := by
    simp only [isLayout, Bool.or_eq_true, beq_iff_eq] at layout
    rcases layout with (((rfl | rfl) | rfl) | rfl) | rfl <;> rfl
  exact isSealed.of_append leadsOutside

/-- No term of a sealed text goes past a space behind the text. -/
theorem exists_after
    {term : Term}
    {c : Char}
    {rest after behind : List Char}
    (isSealed : Sealed (c :: rest))
    (found : cutTerm? c (rest ++ ' ' :: behind) = some (term, after)) :
    ∃ left own, after = left ++ ' ' :: behind ∧ own ++ left = c :: rest ∧ Extent term own := by
  obtain ⟨own, isOwn, extent⟩ := exists_own_of_cutTerm? found
  rw [← List.cons_append] at isOwn
  rcases List.append_eq_append_iff.mp isOwn with
    ⟨left, isText, isAfter⟩ | ⟨further, rfl, isBehind⟩
  · exact ⟨left, own, isAfter, isText.symm, extent⟩
  · cases further with
    | nil =>
        exact ⟨[], c :: rest, by simpa using isBehind.symm, by simp, by simpa using extent⟩
    | cons space further =>
        obtain ⟨rfl, _⟩ := List.cons.inj isBehind
        obtain ⟨middle, leads, notOpen⟩ := isSealed.marks
        obtain ⟨isOpen, notLast⟩ := extent.of_space (by simp) leads notOpen
        exact absurd (isSealed.parentheses isOpen) notLast

/-- If there are terms in a sealed text with a space behind it, then there are in the text. -/
theorem terms?_ne_none
    {text behind : List Char}
    (isSealed : Sealed text)
    (someTerms : terms? (text ++ ' ' :: behind) ≠ none) :
    terms? text ≠ none := by
  generalize isWhole : text ++ ' ' :: behind = whole at someTerms
  fun_induction terms? whole generalizing text with
  | case1 =>
      simp at isWhole
  | case3 =>
      contradiction
  | case2 c rest layout inductionHypothesis =>
      cases text with
      | nil =>
          simp [terms?]
      | cons first others =>
          obtain ⟨rfl, rfl⟩ := List.cons.inj isWhole
          rw [terms?_of_isLayout layout]
          exact inductionHypothesis (isSealed.of_layout layout) rfl someTerms
  | case4 c rest notLayout term after isTerm inductionHypothesis =>
      cases text with
      | nil =>
          simp [terms?]
      | cons first others =>
          obtain ⟨rfl, rfl⟩ := List.cons.inj isWhole
          obtain ⟨left, own, rfl, isOwn, extent⟩ := isSealed.exists_after isTerm
          rw [terms?_of_cutTerm? (by simpa using notLayout) (cutTerm?_of_append_space isTerm)]
          rw [← isOwn] at isSealed
          have someLeft :=
            inductionHypothesis (isSealed.of_append extent.run_eq) rfl (by simpa using someTerms)
          simpa using someLeft

/-- The terms of a sealed text, a space and another text are the terms of both. -/
theorem terms?_append
    {text : List Char}
    (isSealed : Sealed text)
    (behind : List Char) :
    terms? (text ++ ' ' :: behind) =
      (terms? text).bind fun terms => (terms? behind).map (terms ++ ·) := by
  cases areTerms : terms? text with
  | some terms =>
      exact terms?_append_space areTerms behind
  | none =>
      exact Decidable.byContradiction fun someTerms => isSealed.terms?_ne_none someTerms areTerms

end Sealed

end QtSheet.Value
