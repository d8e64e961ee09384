import QtSheet.Proofs.Value.Scan

namespace QtSheet.Value

/-!
# One reading of a value

A value is read by the grammar in one way at most (`Scans.eq_of_scans`). The
terminals that match one text take the same of it and are the same, but for a
plain numeral, which is a length and a number. The calls around it tell which of
the two can stand there (`Phrase.Walks`).
-/

namespace Phrase

/-- How many calls are open after a terminal. Lengths stand outside of calls, numbers inside. -/
def step? : Nat → Terminal → Option Nat
  | depth, .colorFunction | depth, .gradientFunction | depth, .paletteFunction => some (depth + 1)
  | depth + 1, .close => some depth
  | 0, .close => none
  | 0, .length => some 0
  | _ + 1, .length => none
  | depth + 1, .number => some (depth + 1)
  | 0, .number => none
  | depth, _ => some depth

/-- How many calls are open after some terminals. -/
def walk? (depth : Nat) (terminals : List Terminal) : Option Nat :=
  terminals.foldlM step? depth

/-- The sentences of a phrase lead from one number of open calls to another one. -/
def Walks (phrase : Phrase) (first last : Nat) : Prop :=
  ∀ symbols ∈ phrase.matches', walk? first (symbols.map Symbol.terminal) = some last

namespace Walks

variable {front back phrase : Phrase} {first middle last : Nat}

/-- A symbol walks one step. -/
theorem char {symbol : Symbol} (isStep : step? first symbol.terminal = some last) :
    Walks (.char symbol) first last := by
  rintro symbols isMatch
  obtain rfl : symbols = [symbol] := isMatch
  simp [walk?, isStep]

/-- Either of two phrases walks as both do. -/
theorem add (isFront : front.Walks first last) (isBack : back.Walks first last) :
    (front + back).Walks first last := by
  rintro symbols (isMatch | isMatch)
  · exact isFront symbols isMatch
  · exact isBack symbols isMatch

/-- Two phrases in sequence walk one after the other. -/
theorem mul (isFront : front.Walks first middle) (isBack : back.Walks middle last) :
    (front * back).Walks first last := by
  intro symbols isMatch
  obtain ⟨before, isBefore, behind, isBehind, rfl⟩ := Language.mem_mul.mp isMatch
  have isMiddle := isFront before isBefore
  have isLast := isBack behind isBehind
  rw [walk?] at isMiddle isLast ⊢
  rw [List.map_append, List.foldlM_append, isMiddle]
  exact isLast

theorem one : Walks 1 first first := by
  rintro symbols isMatch
  obtain rfl : symbols = [] := isMatch
  rfl

/-- A phrase that leaves the depth leaves it any number of times. -/
theorem pow (isPhrase : phrase.Walks first first) (count : Nat) :
    (phrase ^ count).Walks first first := by
  induction count with
  | zero => exact one
  | succ count inductionHypothesis => exact inductionHypothesis.mul isPhrase

theorem many (isPhrase : phrase.Walks first first) :
    (many phrase).Walks first first := by
  intro symbols isMatch
  obtain ⟨count, isPower⟩ := mem_many.mp isMatch
  exact isPhrase.pow count symbols isPower

theorem optional (isPhrase : phrase.Walks first first) :
    (optional phrase).Walks first first :=
  one.add isPhrase

theorem oneOrMore (isPhrase : phrase.Walks first first) :
    (oneOrMore phrase).Walks first first :=
  isPhrase.mul isPhrase.many

theorem oneToFour (isPhrase : phrase.Walks first first) :
    (oneToFour phrase).Walks first first :=
  (((isPhrase.pow 1).add (isPhrase.pow 2)).add (isPhrase.pow 3)).add (isPhrase.pow 4)

theorem separated (isPhrase : phrase.Walks first first) :
    (separated phrase).Walks first first :=
  isPhrase.mul (((char rfl).mul isPhrase).many)

end Walks

/-- The call of a color closes what it opens. -/
theorem walks_colorCall {depth : Nat} : colorCall.Walks depth depth :=
  .mul (.char rfl) (.mul (.separated (.char rfl)) (.char rfl))

/-- An argument of a gradient stays inside of its call. -/
theorem walks_gradientArgument {depth : Nat} : gradientArgument.Walks (depth + 1) (depth + 1) := by
  have isValue : gradientValue.Walks (depth + 1) (depth + 1) :=
    .add (.add (.add (.char rfl) (.char rfl)) walks_colorCall) (.char rfl)
  exact .mul (.char rfl) (.mul (.char rfl) isValue.oneOrMore)

theorem walks_gradientCall {depth : Nat} : gradientCall.Walks depth depth :=
  .mul (.char rfl) (.mul walks_gradientArgument.separated (.char rfl))

theorem walks_paletteCall {depth : Nat} : paletteCall.Walks depth depth :=
  .mul (.char rfl) (.mul (.char rfl) (.char rfl))

theorem walks_color {depth : Nat} : color.Walks depth depth :=
  .add (.add (.char rfl) walks_colorCall) (.char rfl)

theorem walks_brush {depth : Nat} : brush.Walks depth depth :=
  .add (.add walks_color walks_gradientCall) walks_paletteCall

theorem walks_borderPart : borderPart.Walks 0 0 :=
  .add (.add (.add (.add (.add (.char rfl) (.char rfl)) (.char rfl)) walks_colorCall)
    walks_gradientCall) walks_paletteCall

/-- Families open nothing. -/
theorem walks_families {depth : Nat} : (separated family).Walks depth depth :=
  .separated (.add (.char rfl) (.oneOrMore (.char rfl)))

/-- A font opens nothing. -/
theorem walks_font : font.Walks 0 0 :=
  .mul (.many (.char rfl))
    (.mul (.char rfl) (.mul (.optional (.mul (.char rfl) (.char rfl))) walks_families.optional))

/-- The phrase of a shape is outside of calls at its ends; a number stands as if inside of one. -/
theorem exists_walks
    {shape : Shape}
    {phrase : Phrase}
    (isStructured : ofShape? shape = some phrase) :
    ∃ depth, phrase.Walks depth depth := by
  cases shape with
  | color =>
      obtain rfl := Option.some.inj isStructured
      exact ⟨0, walks_color⟩
  | brush =>
      obtain rfl := Option.some.inj isStructured
      exact ⟨0, walks_brush⟩
  | colors =>
      obtain rfl := Option.some.inj isStructured
      exact ⟨0, walks_brush.oneToFour⟩
  | length =>
      obtain rfl := Option.some.inj isStructured
      exact ⟨0, .char rfl⟩
  | box =>
      obtain rfl := Option.some.inj isStructured
      exact ⟨0, .oneToFour (.char rfl)⟩
  | border =>
      obtain rfl := Option.some.inj isStructured
      exact ⟨0, walks_borderPart.oneOrMore⟩
  | font =>
      obtain rfl := Option.some.inj isStructured
      exact ⟨0, walks_font⟩
  | fontFamily =>
      obtain rfl := Option.some.inj isStructured
      exact ⟨0, walks_families⟩
  | url =>
      obtain rfl := Option.some.inj isStructured
      exact ⟨0, .char rfl⟩
  | number =>
      obtain rfl := Option.some.inj isStructured
      exact ⟨1, .char rfl⟩
  | keyword =>
      contradiction
  | any =>
      contradiction

/-- Where a sentence can go on, the terminals so far and the next one are a walk. -/
theorem Continues.exists_step
    {phrase : Phrase}
    {first last : Nat}
    {before : List Terminal}
    {terminal : Terminal}
    (continues : phrase.Continues before terminal)
    (walks : phrase.Walks first last) :
    ∃ depth, walk? first before = some depth ∧ step? depth terminal ≠ none := by
  obtain ⟨symbols, isMatch, tail, isWhole⟩ := continues
  have reached := walks symbols isMatch
  rw [← isWhole, walk?, List.append_assoc, List.foldlM_append] at reached
  obtain ⟨depth, isDepth, isNext⟩ := Option.bind_eq_some_iff.mp reached
  refine ⟨depth, isDepth, ?_⟩
  intro noStep
  rw [List.singleton_append, List.foldlM_cons, noStep] at isNext
  contradiction

/-- A sentence never goes on with a length as well as with a number. -/
theorem Walks.not_continues
    {phrase : Phrase}
    {first last : Nat}
    {before : List Terminal}
    (walks : phrase.Walks first last)
    (isLength : phrase.Continues before .length)
    (isNumber : phrase.Continues before .number) :
    False := by
  obtain ⟨depth, isDepth, outside⟩ := isLength.exists_step walks
  obtain ⟨other, isOther, inside⟩ := isNumber.exists_step walks
  obtain rfl := Option.some.inj (isDepth.symm.trans isOther)
  cases depth with
  | zero => exact inside rfl
  | succ depth => exact outside rfl

end Phrase

/-- Two terminals for one term are the same, or a length and a number. -/
theorem Terminal.Admits.eq_or
    {terminal other : Terminal}
    {term : Term}
    (admits : terminal.Admits term)
    (isOther : other.Admits term) :
    terminal = other ∨
      terminal = .length ∧ other = .number ∨
      terminal = .number ∧ other = .length := by
  cases admits <;> cases isOther <;> simp

/-- Two readings of one text begin with the same lexeme. -/
theorem Reads.eq_of_reads
    {phrase : Phrase}
    {first last : Nat}
    {before : List Terminal}
    {text rest after : List Char}
    {lexeme other : Lexeme}
    {lexemes others : List Lexeme}
    (reads : Reads phrase before text lexeme rest)
    (walks : phrase.Walks first last)
    (isOther : Reads phrase before text other after)
    (scans : Scans phrase (before ++ [lexeme.terminal]) rest lexemes)
    (scansOther : Scans phrase (before ++ [other.terminal]) after others) :
    lexeme = other ∧ rest = after := by
  obtain ⟨c, behind, term, rfl, _, isTerm, isCut⟩ := reads.exists_term scans
  obtain ⟨_, _, _, same, _, isSame, isCutOther⟩ := isOther.exists_term scansOther
  obtain ⟨rfl, rfl⟩ := List.cons.inj same
  obtain ⟨rfl, rfl⟩ := Prod.mk.inj (Option.some.inj (isCut.symm.trans isCutOther))
  have sameText : lexeme.text = other.text :=
    String.toList_inj.mp (List.append_cancel_right (reads.whole.trans isOther.whole.symm))
  have sameTerminal : lexeme.terminal = other.terminal := by
    have continues := reads.continues
    have continuesOther := isOther.continues
    rcases isTerm.admits.eq_or isSame.admits with
      equal | ⟨isLength, isNumber⟩ | ⟨isNumber, isLength⟩
    · exact equal
    · rw [isLength] at continues
      rw [isNumber] at continuesOther
      exact (walks.not_continues continues continuesOther).elim
    · rw [isNumber] at continues
      rw [isLength] at continuesOther
      exact (walks.not_continues continuesOther continues).elim
  cases lexeme
  cases other
  exact ⟨by rw [Lexeme.mk.injEq]; exact ⟨sameTerminal, sameText⟩, rfl⟩

/-- A text is read in one way at most. -/
theorem Scans.eq_of_scans
    {phrase : Phrase}
    {first last : Nat}
    {before : List Terminal}
    {text : List Char}
    {lexemes others : List Lexeme}
    (walks : phrase.Walks first last)
    (scans : Scans phrase before text lexemes)
    (scansOther : Scans phrase before text others) :
    lexemes = others := by
  induction scans generalizing others with
  | done =>
      cases scansOther with
      | done => rfl
      | lexeme reads _ =>
          have found := reads.isMatch
          rw [first?_nil] at found
          contradiction
  | layout layout _ inductionHypothesis =>
      cases scansOther with
      | layout _ scansOther => exact inductionHypothesis scansOther
      | lexeme reads _ =>
          have found := reads.isMatch
          rw [first?_eq_none_of_isLayout layout] at found
          contradiction
  | lexeme reads scans inductionHypothesis =>
      obtain ⟨c, after, term, rfl, notLayout, _, _⟩ := reads.exists_term scans
      cases scansOther with
      | layout layout _ => exact absurd layout (by simp [notLayout])
      | lexeme readsOther scansOther =>
          obtain ⟨rfl, rfl⟩ := reads.eq_of_reads walks readsOther scans scansOther
          rw [inductionHypothesis scansOther]

end QtSheet.Value
