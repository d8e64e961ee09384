import QtSheet.Piece
import QtSheet.Proofs.Value.Extent

namespace QtSheet.Value

open Text

/-!
# Quotation marks

The terms of a value do not know escapes: a quoted text ends with the next mark
of its kind, and a backslash stands outside of quoted texts only in a reference,
with no mark behind it. `Quotation` is where a text has come to by these rules,
and each term leads from the outside to the outside (`Extent.run_eq`).

Calls are scanned by the same rules, but strings are not: in them a backslash
keeps a mark from ending the string. Where a string has such a mark the two part
ways, and no token behind brings them together again (`run_cutString?`,
`run_cutCall?`).
-/

/--
Where a text has come to: outside of all quotation marks, outside of them right
behind a backslash, or inside of marks.
-/
inductive Quotation where
  | outside
  | slashed
  | within (mark : Char)
  deriving Repr, DecidableEq

namespace Quotation

/-- Where one more character leads. A mark that opens does not stand behind a backslash. -/
def next : Quotation → Char → Option Quotation
  | .within mark, c => some (if c = mark then .outside else .within mark)
  | .slashed, c =>
      if c ∈ quotes then none else some (if c = '\\' then .slashed else .outside)
  | .outside, c =>
      some (if c ∈ quotes then .within c else if c = '\\' then .slashed else .outside)

/-- Where a text leads. -/
def run (quotation : Quotation) (text : List Char) : Option Quotation :=
  text.foldlM next quotation

/-- The mark that is open. -/
def mark? : Quotation → Option Char
  | .within mark => some mark
  | _ => none

@[simp] theorem run_nil (quotation : Quotation) :
    quotation.run [] = some quotation :=
  rfl

@[simp] theorem run_cons (quotation : Quotation) (c : Char) (rest : List Char) :
    quotation.run (c :: rest) = (quotation.next c).bind fun after => after.run rest :=
  rfl

/-- A quotation runs through the first of two texts and then the second. -/
theorem run_append (quotation : Quotation) (front back : List Char) :
    quotation.run (front ++ back) = (quotation.run front).bind fun after => after.run back := by
  rw [run, List.foldlM_append]
  rfl

/-- Outside of marks any other character leads to the outside of marks. -/
theorem next_of_notOpen
    {quotation : Quotation}
    {c : Char}
    (notOpen : quotation.mark? = none)
    (noMark : c ∉ quotes) :
    quotation.next c = some (if c = '\\' then .slashed else .outside) := by
  cases quotation with
  | within mark =>
      contradiction
  | _ =>
      simp [next, noMark]

/-- A text without marks opens none. -/
theorem exists_run_of_noMarks
    {quotation : Quotation}
    {text : List Char}
    (noMarks : ∀ c ∈ text, c ∉ quotes)
    (notOpen : quotation.mark? = none) :
    ∃ after, quotation.run text = some after ∧ after.mark? = none := by
  induction text generalizing quotation with
  | nil =>
      exact ⟨quotation, rfl, notOpen⟩
  | cons c rest inductionHypothesis =>
      obtain ⟨noMark, noneBehind⟩ := List.forall_mem_cons.mp noMarks
      rw [run_cons, next_of_notOpen notOpen noMark]
      refine inductionHypothesis noneBehind ?_
      split <;> rfl

/-- A text without the mark that is open stays inside of it. -/
theorem run_within
    {mark : Char}
    {text : List Char}
    (noMark : mark ∉ text) :
    (Quotation.within mark).run text = some (.within mark) := by
  induction text with
  | nil =>
      rfl
  | cons c rest inductionHypothesis =>
      rw [List.mem_cons, not_or] at noMark
      simp [next, Ne.symm noMark.1, inductionHypothesis noMark.2]

/-- A text with neither marks nor backslashes stays outside. -/
theorem run_outside
    {text : List Char}
    (isQuiet : ∀ c ∈ text, c ∉ '\\' :: quotes) :
    Quotation.outside.run text = some .outside := by
  induction text with
  | nil =>
      rfl
  | cons c rest inductionHypothesis =>
      obtain ⟨here, behind⟩ := List.forall_mem_cons.mp isQuiet
      rw [List.mem_cons, not_or] at here
      simp [next, here.1, here.2, inductionHypothesis behind]

/-- A quoted text leads to its outside. -/
theorem run_quoted
    {mark : Char}
    {inside : List Char}
    (isMark : mark ∈ quotes)
    (noMark : mark ∉ inside)
    (behind : List Char) :
    Quotation.outside.run (mark :: (inside ++ mark :: behind)) = Quotation.outside.run behind := by
  simp [next, isMark, run_append, run_within noMark]

end Quotation

open Quotation

/-- A text without seams opens no quotation. -/
theorem Seamless.run_eq
    {text : List Char}
    (seamless : Seamless text) :
    Quotation.outside.run text = some .outside := by
  refine run_outside fun c member isMark => seamless c member ?_
  have areSeams : ∀ mark ∈ '\\' :: quotes, mark ∈ seams := by simp [quotes, seams]
  exact areSeams c isMark

/-- Blanks open no quotation. -/
theorem run_blanks
    {blanks : List Char}
    (areBlank : ∀ c ∈ blanks, isBlank c = true) :
    Quotation.outside.run blanks = some .outside := by
  refine run_outside fun c member isMark => ?_
  have noBlank : ('\\' :: quotes).all (fun mark => !isBlank mark) = true := by decide
  have notBlank := List.all_eq_true.mp noBlank c isMark
  simp [areBlank c member] at notBlank

/-- A reference closes the quotation that it opens. -/
theorem Reference.run_eq
    {body : List Char}
    (reference : Reference body) :
    Quotation.outside.run body = some .outside := by
  cases reference with
  | quoted areBlank isMark noMark areOthers =>
      simp only [run_append, run_blanks areBlank, Option.bind_some, run_quoted isMark noMark,
        run_blanks areOthers]
      rfl
  | @bare inside areBare =>
      have noMarks : ∀ c ∈ inside, c ∉ quotes :=
        fun c member isMark => areBare c member (List.mem_cons_of_mem _ isMark)
      obtain ⟨after, leads, notOpen⟩ :=
        exists_run_of_noMarks noMarks (rfl : Quotation.outside.mark? = none)
      rw [run_append, leads, Option.bind_some, run_cons, next_of_notOpen notOpen (by decide)]
      rfl

/-- A term leads from the outside of all marks to their outside. -/
theorem Extent.run_eq
    {term : Term}
    {own : List Char}
    (extent : Extent term own) :
    Quotation.outside.run own = some .outside := by
  cases extent with
  | close =>
      rfl
  | word _ _ seamless =>
      exact seamless.run_eq
  | call _ seamless =>
      rw [run_append, seamless.run_eq]
      rfl
  | string isMark noMark =>
      exact run_quoted isMark noMark []
  | @url name body nameSeamless reference =>
      rw [run_append, nameSeamless.run_eq]
      exact show Quotation.outside.run body = some .outside from reference.run_eq

/-- What stands in front of a character that a text does not begin with goes beyond the text. -/
theorem exists_of_append_eq
    {front back before behind : List Char}
    {c : Char}
    (whole : front ++ back = before ++ c :: behind)
    (noneInFront : c ∉ front) :
    ∃ further, before = front ++ further ∧ back = further ++ c :: behind := by
  rcases List.append_eq_append_iff.mp whole with
    ⟨further, isBefore, isBack⟩ | ⟨others, isFront, isBehind⟩
  · exact ⟨further, isBefore, isBack⟩
  · cases others with
    | nil =>
        exact ⟨[], by simpa using isFront.symm, isBehind.symm⟩
    | cons first others =>
        obtain ⟨rfl, _⟩ := List.cons.inj isBehind
        exact absurd (by simp [isFront]) noneInFront

/-- A character behind which another follows is not the last one. -/
theorem false_of_last
    {front before behind : List Char}
    {c next : Char}
    (noneInFront : c ∉ front)
    (whole : front ++ [c] = before ++ c :: next :: behind) :
    False := by
  obtain ⟨further, _, isLast⟩ := exists_of_append_eq whole noneInFront
  have sameLength := congrArg List.length isLast
  simp only [List.length_cons, List.length_nil, List.length_append] at sameLength
  omega

/-- In front of a space in a reference stands its opening parenthesis. -/
theorem parenthesis_mem
    {name inside front back : List Char}
    (nameSeamless : Seamless name)
    (isOwn : front ++ ' ' :: back = name ++ '(' :: inside) :
    '(' ∈ front := by
  have noSpace : ' ' ∉ name :=
    fun isMember => nameSeamless ' ' isMember (by decide)
  obtain ⟨further, rfl, isInside⟩ := exists_of_append_eq isOwn.symm noSpace
  cases further with
  | nil =>
      simp at isInside
  | cons first others =>
      obtain ⟨rfl, _⟩ := List.cons.inj isInside
      simp

/-- A character of a quoted text has the mark of the text open behind it. -/
theorem run_inside
    {mark : Char}
    {before front back : List Char}
    (isMark : mark ∈ quotes)
    (noMark : mark ∉ front ++ back)
    (leads : Quotation.outside.run before = some .outside) :
    Quotation.outside.run (before ++ mark :: front) = some (.within mark) := by
  have noneInFront : mark ∉ front :=
    fun member => noMark (List.mem_append_left back member)
  simp [run_append, leads, next, isMark, run_within noneInFront]

/-- A closing parenthesis that is not the end of a reference stands inside of its quoted text. -/
theorem run_of_parenthesis
    {front inside behind before back : List Char}
    {mark next : Char}
    (isMark : mark ∈ quotes)
    (noMark : mark ∉ inside)
    (leads : Quotation.outside.run front = some .outside)
    (noneInFront : ')' ∉ front)
    (noneBehind : ')' ∉ behind)
    (whole :
      front ++ mark :: (inside ++ mark :: (behind ++ [')'])) = before ++ ')' :: next :: back) :
    Quotation.outside.run (before ++ [')']) = some (.within mark) := by
  have notClosing : mark ≠ ')' := by
    rintro rfl
    simp [quotes] at isMark
  obtain ⟨further, rfl, isFurther⟩ := exists_of_append_eq whole noneInFront
  cases further with
  | nil =>
      exact absurd (List.cons.inj isFurther).1 notClosing
  | cons first others =>
      obtain ⟨rfl, isInside⟩ := List.cons.inj isFurther
      rcases List.append_eq_append_iff.mp isInside with
        ⟨later, _, isLater⟩ | ⟨later, rfl, isParenthesis⟩
      · have noneLater : ')' ∉ mark :: behind := by
          simp [notClosing.symm, noneBehind]
        exact (false_of_last noneLater isLater).elim
      · cases later with
        | nil =>
            exact absurd (List.cons.inj isParenthesis).1.symm notClosing
        | cons closing later =>
            obtain ⟨rfl, _⟩ := List.cons.inj isParenthesis
            rw [List.append_cons] at noMark
            simpa using run_inside isMark noMark leads

/--
A space that a term takes outside of quotation marks stands in a reference,
behind its opening parenthesis and not behind a closing one.
-/
theorem Extent.of_space
    {term : Term}
    {front back : List Char}
    {after : Quotation}
    (extent : Extent term (front ++ ' ' :: back))
    (notEmpty : front ≠ [])
    (leads : Quotation.outside.run front = some after)
    (notOpen : after.mark? = none) :
    '(' ∈ front ∧ front.getLast? ≠ some ')' := by
  have notWithin : ∀ mark, Quotation.outside.run front ≠ some (.within mark) := by
    rintro mark isWithin
    rw [leads] at isWithin
    rw [Option.some.inj isWithin] at notOpen
    contradiction
  generalize isOwn : front ++ ' ' :: back = own at extent
  have isMember : ' ' ∈ own := by
    simp [← isOwn]
  cases extent with
  | close =>
      simp at isMember
  | word _ _ seamless =>
      exact absurd (by decide) (seamless ' ' isMember)
  | call _ seamless =>
      rcases List.mem_append.mp isMember with inName | isParenthesis
      · exact absurd (by decide) (seamless ' ' inName)
      · simp at isParenthesis
  | @string mark inside isMark noMark =>
      obtain ⟨first, others, rfl⟩ := List.exists_cons_of_ne_nil notEmpty
      obtain ⟨rfl, isInside⟩ := List.cons.inj isOwn
      rcases List.append_eq_append_iff.mp isInside with
        ⟨further, rfl, _⟩ | ⟨further, isOthers, isLast⟩
      · exact absurd (run_inside isMark noMark (run_nil .outside)) (notWithin first)
      · -- The space would be the mark.
        have isSpace : ' ' ∈ [first] := by
          rw [isLast]
          simp
        rw [← List.mem_singleton.mp isSpace] at isMark
        simp [quotes] at isMark
  | @url name body nameSeamless reference =>
      refine ⟨parenthesis_mem nameSeamless isOwn, ?_⟩
      intro isLast
      obtain ⟨before, rfl⟩ := List.getLast?_eq_some_iff.mp isLast
      have noneInName : ')' ∉ name := fun member => nameSeamless ')' member (by decide)
      cases reference with
      | @quoted blanks inside behind mark areBlank isMark noMark areOthers =>
          have noBlank : ∀ {text : List Char}, (∀ c ∈ text, isBlank c = true) → ')' ∉ text :=
            fun areBlank member => absurd (areBlank ')' member) (by decide)
          have noneInFront : ')' ∉ name ++ '(' :: blanks := by
            simp [noneInName, noBlank areBlank]
          have frontLeads : Quotation.outside.run (name ++ '(' :: blanks) = some .outside := by
            rw [run_append, nameSeamless.run_eq]
            exact show Quotation.outside.run blanks = some .outside from run_blanks areBlank
          have whole :
              (name ++ '(' :: blanks) ++ mark :: (inside ++ mark :: (behind ++ [')'])) =
                before ++ ')' :: ' ' :: back := by
            simpa using isOwn.symm
          exact notWithin mark
            (run_of_parenthesis isMark noMark frontLeads noneInFront (noBlank areOthers) whole)
      | @bare inside areBare =>
          have noneInside : ')' ∉ name ++ '(' :: inside := by
            have noneBehind : ')' ∉ inside := fun member => areBare ')' member (by decide)
            simp [noneInName, noneBehind]
          have whole : (name ++ '(' :: inside) ++ [')'] = before ++ ')' :: ' ' :: back := by
            simpa using isOwn.symm
          exact false_of_last noneInside whole

/-- The mark that is open behind one more character. -/
def toggle (mark? : Option Char) (c : Char) : Option Char :=
  match mark? with
  | some mark => if c = mark then none else some mark
  | none => if c ∈ quotes then some c else none

/-- A mark opens a quotation, and the same mark closes it. -/
theorem mark?_of_next
    {quotation after : Quotation}
    {c : Char}
    (isNext : quotation.next c = some after) :
    after.mark? = toggle quotation.mark? c := by
  cases quotation with
  | within mark =>
      obtain rfl := Option.some.inj isNext
      by_cases isMark : c = mark <;> simp [isMark, toggle, Quotation.mark?]
  | _ =>
      by_cases isMark : c ∈ quotes
      · simp only [Quotation.next, isMark, ↓reduceIte, Option.some.injEq, reduceCtorEq] at isNext
        all_goals simp [← isNext, toggle, Quotation.mark?, isMark]
      · rw [next_of_notOpen rfl isMark] at isNext
        obtain rfl := Option.some.inj isNext
        have notOpened : toggle none c = none := if_neg isMark
        by_cases isSlash : c = '\\'
        · rw [if_pos isSlash]
          exact notOpened.symm
        · rw [if_neg isSlash]
          exact notOpened.symm

/-- A mark that is open, if there is one, is a quotation mark. -/
def IsQuote (mark? : Option Char) : Prop :=
  ∀ mark ∈ mark?, mark ∈ quotes

theorem isQuote_none : IsQuote none := by
  simp [IsQuote]

theorem isQuote_outside : IsQuote Quotation.outside.mark? :=
  isQuote_none

/-- Only quotation marks are open behind a character. -/
theorem isQuote_toggle
    {mark? : Option Char}
    (isQuote : IsQuote mark?)
    (c : Char) :
    IsQuote (toggle mark? c) := by
  intro mark
  fun_cases toggle mark? c with
  | case1 =>
      rintro ⟨⟩
  | case2 own notOwn =>
      exact isQuote mark
  | case3 isMark =>
      rintro ⟨⟩
      exact isMark
  | case4 =>
      rintro ⟨⟩

/-- Only quotation marks are open behind a text. -/
theorem isQuote_run
    {quotation after : Quotation}
    {text : List Char}
    (areQuote : IsQuote quotation.mark?)
    (leads : quotation.run text = some after) :
    IsQuote after.mark? := by
  induction text generalizing quotation with
  | nil =>
      obtain rfl := Option.some.inj leads
      exact areQuote
  | cons c rest inductionHypothesis =>
      obtain ⟨middle, isNext, further⟩ := Option.bind_eq_some_iff.mp leads
      exact inductionHypothesis (mark?_of_next isNext ▸ isQuote_toggle areQuote c) further

/-- A space leaves open what is open. -/
theorem next_space
    {quotation : Quotation}
    (areQuote : IsQuote quotation.mark?)
    (isOpen : quotation.mark? ≠ none) :
    quotation.next ' ' = some quotation := by
  cases quotation with
  | within mark =>
      have notMark : ' ' ≠ mark := by
        rintro rfl
        exact absurd (areQuote _ rfl) (by decide)
      simp [Quotation.next, notMark]
  | _ =>
      contradiction

/-- No character brings together what is quoted in two ways. -/
theorem toggle_inj
    {mark? other? : Option Char}
    {c : Char}
    (isQuote : IsQuote mark?)
    (otherIsQuote : IsQuote other?) :
    toggle mark? c = toggle other? c ↔ mark? = other? := by
  have opens : ∀ {mark : Char}, mark ∈ quotes → toggle (some mark) c ≠ toggle none c := by
    intro mark isMark same
    by_cases isSame : c = mark
    · subst isSame
      simp [toggle, isMark] at same
    · by_cases isOther : c ∈ quotes <;> simp [toggle, isSame, isOther] at same
      exact isSame same.symm
  cases mark? with
  | none =>
      cases other? with
      | none =>
          simp
      | some other =>
          exact iff_of_false (opens (otherIsQuote other rfl)).symm (by simp)
  | some mark =>
      cases other? with
      | none =>
          exact iff_of_false (opens (isQuote mark rfl)) (by simp)
      | some other =>
          simp only [toggle]
          grind

/-- The marks stay as they are in a text scanned alongside, or stay different. -/
theorem mark?_next_iff
    {quotation after : Quotation}
    {mark? following? : Option Char}
    {c : Char}
    (isNext : quotation.next c = some after)
    (isToggled : toggle mark? c = following?)
    (isQuote : IsQuote mark?)
    (areQuote : IsQuote quotation.mark?) :
    (after.mark? = following? ↔ quotation.mark? = mark?) ∧
      IsQuote following? ∧ IsQuote after.mark? := by
  rw [mark?_of_next isNext, ← isToggled]
  exact ⟨toggle_inj areQuote isQuote, isQuote_toggle isQuote c, isQuote_toggle areQuote c⟩

/-- Behind a call the marks are closed if they are open in front of it as in the call. -/
theorem run_cutCall?
    {nested : Nat}
    {mark? : Option Char}
    {text : List Char}
    {cut : Cut}
    {quotation after : Quotation}
    (found : cutCall? nested mark? text = some cut)
    (isQuote : IsQuote mark?)
    (areQuote : IsQuote quotation.mark?)
    (leads : quotation.run cut.1 = some after) :
    after.mark? = none ↔ quotation.mark? = mark? := by
  have goesOn :
      ∀ {nested : Nat} {mark? following? : Option Char} {c : Char} {rest : List Char}
        {cut : Cut} {quotation after : Quotation},
        toggle mark? c = following? →
        (∀ {cut : Cut} {quotation : Quotation},
          cutCall? nested following? rest = some cut →
          IsQuote following? → IsQuote quotation.mark? →
          quotation.run cut.1 = some after →
          (after.mark? = none ↔ quotation.mark? = following?)) →
        (cutCall? nested following? rest).map (Cut.push c) = some cut →
        IsQuote mark? →
        IsQuote quotation.mark? →
        quotation.run cut.1 = some after →
        (after.mark? = none ↔ quotation.mark? = mark?) := by
    intro nested mark? following? c rest cut quotation after isToggled inductionHypothesis found
      isQuote areQuote leads
    obtain ⟨tail, isTail, rfl⟩ := Option.map_eq_some_iff.mp found
    obtain ⟨middle, isNext, further⟩ := Option.bind_eq_some_iff.mp leads
    obtain ⟨iff, followingIsQuote, middleIsQuote⟩ :=
      mark?_next_iff isNext isToggled isQuote areQuote
    exact (inductionHypothesis isTail followingIsQuote middleIsQuote further).trans iff
  fun_induction cutCall? nested mark? text generalizing cut quotation with
  | case1 =>
      contradiction
  | case2 nested mark c rest inductionHypothesis =>
      exact goesOn rfl inductionHypothesis found isQuote areQuote leads
  | case3 nested c rest isMark inductionHypothesis =>
      have isToggled : toggle none c = some c :=
        if_pos (by simpa [quotes] using isMark)
      exact goesOn isToggled inductionHypothesis found isQuote areQuote leads
  | case4 nested rest notMark inductionHypothesis =>
      exact goesOn rfl inductionHypothesis found isQuote areQuote leads
  | case5 rest notMark notOpening =>
      obtain rfl := Option.some.inj found
      obtain ⟨middle, isNext, further⟩ := Option.bind_eq_some_iff.mp leads
      obtain rfl := Option.some.inj further
      exact (mark?_next_iff isNext rfl isQuote areQuote).1
  | case6 rest notMark notOpening nested inductionHypothesis =>
      exact goesOn rfl inductionHypothesis found isQuote areQuote leads
  | case7 nested c rest notMark notOpening notClosing inductionHypothesis =>
      have isToggled : toggle none c = none :=
        if_neg (by simpa [quotes] using notMark)
      exact goesOn isToggled inductionHypothesis found isQuote areQuote leads

/-- A character other than a mark does not open this mark. -/
theorem toggle_ne
    {mark c : Char}
    {mark? : Option Char}
    (isOther : mark? ≠ some mark)
    (noMark : mark? = none → c ≠ mark) :
    toggle mark? c ≠ some mark := by
  cases mark? with
  | none =>
      by_cases isQuote : c ∈ quotes <;> simp [toggle, isQuote, noMark rfl]
  | some other =>
      by_cases isSame : c = other
      · simp [toggle, isSame]
      · simpa [toggle, isSame] using isOther

/-- A mark behind a backslash opens nothing. -/
theorem ne_of_escape
    {quotation middle after : Quotation}
    {mark next : Char}
    (areQuote : IsQuote quotation.mark?)
    (isOther : quotation.mark? ≠ some mark)
    (isFirst : quotation.next '\\' = some middle)
    (isSecond : middle.next next = some after) :
    after.mark? ≠ some mark := by
  cases quotation with
  | within other =>
      have notSlash : '\\' ≠ other := by
        rintro rfl
        exact absurd (areQuote _ rfl) (by decide)
      obtain rfl : (.within other : Quotation) = middle := by
        simpa [Quotation.next, notSlash] using isFirst
      rw [mark?_of_next isSecond]
      exact toggle_ne isOther (by simp [Quotation.mark?])
  | _ =>
      obtain rfl : Quotation.slashed = middle :=
        Option.some.inj ((next_of_notOpen rfl (by decide)).symm.trans isFirst)
      by_cases isQuote : next ∈ quotes
      · simp [Quotation.next, isQuote] at isSecond
      · rw [mark?_of_next isSecond]
        simp [Quotation.mark?, toggle, isQuote]

/-- Where another mark is open than that of a string, or none, a mark is open behind the string. -/
theorem mark?_ne_none_of_cutString?
    {mark : Char}
    {text : List Char}
    {cut : Cut}
    {quotation after : Quotation}
    (isMark : mark ∈ quotes)
    (found : cutString? mark text = some cut)
    (areQuote : IsQuote quotation.mark?)
    (isOther : quotation.mark? ≠ some mark)
    (leads : quotation.run cut.1 = some after) :
    after.mark? ≠ none := by
  fun_induction cutString? mark text generalizing cut quotation with
  | case1 =>
      contradiction
  | case2 =>
      contradiction
  | case3 next rest inductionHypothesis =>
      obtain ⟨tail, isTail, rfl⟩ := Option.map_eq_some_iff.mp found
      obtain ⟨middle, isFirst, further⟩ := Option.bind_eq_some_iff.mp leads
      obtain ⟨behind, isSecond, further⟩ := Option.bind_eq_some_iff.mp further
      have behindIsQuote : IsQuote behind.mark? := by
        rw [mark?_of_next isSecond, mark?_of_next isFirst]
        exact isQuote_toggle (isQuote_toggle areQuote _) _
      exact inductionHypothesis isTail behindIsQuote
        (ne_of_escape areQuote isOther isFirst isSecond) further
  | case4 rest notSlash =>
      obtain rfl := Option.some.inj found
      obtain ⟨middle, isNext, further⟩ := Option.bind_eq_some_iff.mp leads
      obtain rfl := Option.some.inj further
      rw [mark?_of_next isNext]
      -- Only the mark itself is closed by the mark.
      intro isClosed
      have ownIsQuote : IsQuote (some mark) := by
        intro other isOwn
        exact Option.some.inj isOwn ▸ isMark
      have ownIsClosed : toggle (some mark) mark = none := if_pos rfl
      exact isOther ((toggle_inj areQuote ownIsQuote).mp (isClosed.trans ownIsClosed.symm))
  | case5 c rest notSlash notSame inductionHypothesis =>
      obtain ⟨tail, isTail, rfl⟩ := Option.map_eq_some_iff.mp found
      obtain ⟨middle, isNext, further⟩ := Option.bind_eq_some_iff.mp leads
      have isToggled := mark?_of_next isNext
      refine inductionHypothesis isTail ?_ ?_ further
      · rw [isToggled]
        exact isQuote_toggle areQuote c
      · rw [isToggled]
        exact toggle_ne isOther fun _ => notSame

/-- A text that leads out of a mark is not empty. -/
theorem ne_nil_of_run
    {mark : Char}
    {text : List Char}
    {after : Quotation}
    (leads : (Quotation.within mark).run text = some after)
    (notOpen : after.mark? = none) :
    text ≠ [] := by
  rintro rfl
  obtain rfl := Option.some.inj leads
  contradiction

/-- A string leads from its inside to its outside only if there is no mark of its own in it. -/
theorem not_mem_of_cutString?
    {mark : Char}
    {text : List Char}
    {cut : Cut}
    {after : Quotation}
    (isMark : mark ∈ quotes)
    (found : cutString? mark text = some cut)
    (leads : (Quotation.within mark).run cut.1 = some after)
    (notOpen : after.mark? = none) :
    mark ∉ cut.1.dropLast := by
  have notSlash : '\\' ≠ mark := by
    rintro rfl
    simp [quotes] at isMark
  fun_induction cutString? mark text generalizing cut with
  | case1 =>
      contradiction
  | case2 =>
      contradiction
  | case3 next rest inductionHypothesis =>
      obtain ⟨tail, isTail, rfl⟩ := Option.map_eq_some_iff.mp found
      simp only [Cut.push, run_cons, Quotation.next, notSlash, ↓reduceIte, Option.bind_some]
        at leads
      by_cases isEscaped : next = mark
      · -- The mark would end the quoted text.
        rw [if_pos isEscaped] at leads
        have stillOpen :=
          mark?_ne_none_of_cutString? isMark isTail isQuote_outside
            (by simp [Quotation.mark?]) leads
        exact absurd notOpen stillOpen
      · rw [if_neg isEscaped] at leads
        have noneBehind := inductionHypothesis isTail leads
        have someBehind : tail.1 ≠ [] := ne_nil_of_run leads notOpen
        simp [Cut.push, List.dropLast_cons_of_ne_nil someBehind, notSlash.symm, Ne.symm isEscaped,
          noneBehind]
  | case4 rest notSlash =>
      obtain rfl := Option.some.inj found
      simp
  | case5 c rest notSlash notSame inductionHypothesis =>
      obtain ⟨tail, isTail, rfl⟩ := Option.map_eq_some_iff.mp found
      simp only [Cut.push, run_cons, Quotation.next, notSame, ↓reduceIte, Option.bind_some] at leads
      have noneBehind := inductionHypothesis isTail leads
      have someBehind : tail.1 ≠ [] := ne_nil_of_run leads notOpen
      simp [Cut.push, List.dropLast_cons_of_ne_nil someBehind, Ne.symm notSame, noneBehind]

end QtSheet.Value
