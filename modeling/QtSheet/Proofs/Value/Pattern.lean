import QtSheet.Value.Term

namespace QtSheet.Value

/-!
# Patterns

Regular expressions as a matcher reads them: of two alternatives it tries the
first one first, a repetition takes as much as it can and gives back one
character at a time, and a look-ahead takes nothing. The ways in which a pattern
matches the front of a text are therefore in an order (`Pattern.rests`), and the
first of them is the match (`Pattern.first?`).

The lemmas give the match of a pattern that goes on with another one. A
repetition of a class gives nothing back when what follows gains nothing by it
(`Pattern.first?_many`).
-/

/-- A regular expression over characters. -/
inductive Pattern where
  /-- No character. -/
  | empty
  /-- One character of a class. -/
  | one (inClass : Char → Bool)
  /-- Characters of a class, as many as possible. -/
  | many (inClass : Char → Bool)
  /-- One pattern and then another one. -/
  | seq (front back : Pattern)
  /-- The first pattern, or else the second one. -/
  | either (first second : Pattern)
  /-- No character, in front of no character of a class. -/
  | notAhead (inClass : Char → Bool)

/-- The rests of a text after more and more of the class is given back to it. -/
def restsAfterMany (inClass : Char → Bool) : List Char → List (List Char)
  | [] => [[]]
  | c :: text =>
      if inClass c then
        restsAfterMany inClass text ++ [c :: text]
      else
        [c :: text]

namespace Pattern

/-- The rests of a text after the ways in which a pattern matches its front, in their order. -/
def rests : Pattern → List Char → List (List Char)
  | empty, text => [text]
  | one _, [] => []
  | one inClass, c :: text => if inClass c then [text] else []
  | many inClass, text => restsAfterMany inClass text
  | seq front back, text => (front.rests text).flatMap back.rests
  | either first second, text => first.rests text ++ second.rests text
  | notAhead inClass, text => if text.head?.any inClass then [] else [text]

/-- The rest of a text after the match of a pattern at its front. -/
def first? (pattern : Pattern) (text : List Char) : Option (List Char) :=
  (pattern.rests text).head?

/-- A given character. -/
def character (sign : Char) : Pattern :=
  one (· == sign)

/-- A pattern or nothing. -/
def optional (pattern : Pattern) : Pattern :=
  either pattern empty

/-- At least one character of a class. -/
def atLeastOne (inClass : Char → Bool) : Pattern :=
  seq (one inClass) (many inClass)

/-- A number of characters of a class. -/
def exactly : Nat → (Char → Bool) → Pattern
  | 0, _ => empty
  | count + 1, inClass => seq (one inClass) (exactly count inClass)

/-- The letters of a word in any case. -/
def spelling : List Char → Pattern
  | [] => empty
  | letter :: letters => seq (one (isLetter letter)) (spelling letters)

/-- A word in any case. -/
def word (letters : String) : Pattern :=
  spelling letters.toList

/-- The first of some words, in any case. -/
def anyWord : List String → Pattern
  | [] => one fun _ => false
  | first :: words => either (word first) (anyWord words)

/-- A text in quotation marks of one kind. -/
def quoted (mark : Char) : Pattern :=
  seq (character mark) (seq (many (· != mark)) (character mark))

/-- A sequence goes on from the first rest of its front that its back matches. -/
theorem first?_seq (front back : Pattern) (text : List Char) :
    (seq front back).first? text = (front.rests text).findSome? back.first? :=
  List.head?_flatMap

/-- Of two patterns the second counts where the first does not match. -/
theorem first?_either (first second : Pattern) (text : List Char) :
    (either first second).first? text = (first.first? text).or (second.first? text) :=
  List.head?_append

theorem first?_empty (text : List Char) :
    empty.first? text = some text :=
  rfl

/-- Nothing in front of a pattern changes nothing. -/
theorem first?_empty_seq (back : Pattern) (text : List Char) :
    (seq empty back).first? text = back.first? text := by
  simp [first?, rests]

/-- A pattern with nothing after it matches as it does alone. -/
theorem first?_seq_empty (front : Pattern) (text : List Char) :
    (seq front empty).first? text = front.first? text := by
  simp only [first?, rests, List.flatMap_singleton']

/-- Sequences may be bracketed either way. -/
theorem first?_seq_seq (front middle back : Pattern) (text : List Char) :
    (seq (seq front middle) back).first? text = (seq front (seq middle back)).first? text := by
  simp only [first?, rests, List.flatMap_assoc]

/-- What follows two patterns is tried behind the first, and then behind the second. -/
theorem first?_either_seq (first second back : Pattern) (text : List Char) :
    (seq (either first second) back).first? text =
      ((seq first back).first? text).or ((seq second back).first? text) := by
  simp only [first?, rests, List.flatMap_append, List.head?_append]

theorem first?_one_cons (inClass : Char → Bool) (c : Char) (text : List Char) :
    (one inClass).first? (c :: text) = if inClass c then some text else none := by
  simp only [first?, rests]
  split <;> rfl

theorem first?_one_seq_nil (inClass : Char → Bool) (back : Pattern) :
    (seq (one inClass) back).first? [] = none :=
  rfl

/-- Behind a character of a class the rest of the text is matched. -/
theorem first?_one_seq_cons
    (inClass : Char → Bool)
    (back : Pattern)
    (c : Char)
    (text : List Char) :
    (seq (one inClass) back).first? (c :: text) = if inClass c then back.first? text else none := by
  rw [first?_seq, rests]
  split <;> simp

/-- What may be missing is tried first, and then left out. -/
theorem first?_optional_seq (pattern back : Pattern) (text : List Char) :
    (seq (optional pattern) back).first? text =
      ((seq pattern back).first? text).or (back.first? text) := by
  rw [optional, first?_either_seq, first?_empty_seq]

/-- Nothing is taken where a class is not to follow, unless a character of it follows. -/
theorem first?_notAhead (inClass : Char → Bool) (text : List Char) :
    (notAhead inClass).first? text = if text.head?.any inClass then none else some text := by
  simp only [first?, rests]
  split <;> rfl

/--
What fails after a whole repetition fails after less of it, when a character of
the class in front is never what helps.
-/
theorem findSome?_restsAfterMany
    {inClass : Char → Bool}
    {next? : List Char → Option (List Char)}
    (noGain : ∀ c text, inClass c = true → next? text = none → next? (c :: text) = none)
    (text : List Char) :
    (restsAfterMany inClass text).findSome? next? = next? (text.dropWhile inClass) := by
  induction text with
  | nil =>
      simp [restsAfterMany]
  | cons c text inductionHypothesis =>
      rw [restsAfterMany, List.dropWhile_cons]
      by_cases isIn : inClass c
      · simp only [if_pos isIn]
        rw [List.findSome?_append, inductionHypothesis]
        cases found : next? (text.dropWhile inClass) with
        | some rest =>
            rfl
        | none =>
            -- Every rest of the text fails, so the text with its first character fails too.
            rw [found, List.findSome?_eq_none_iff] at inductionHypothesis
            have fails : next? text = none := by
              refine inductionHypothesis text ?_
              cases text with
              | nil => simp [restsAfterMany]
              | cons first rest => rw [restsAfterMany]; split <;> simp
            simp [noGain c text isIn fails]
      · simp only [if_neg isIn]
        simp

/-- A repetition takes all that it can when what follows it gains nothing by a part of it. -/
theorem first?_many_seq
    {inClass : Char → Bool}
    {back : Pattern}
    (noGain : ∀ c text, inClass c = true → back.first? text = none → back.first? (c :: text) = none)
    (text : List Char) :
    (seq (many inClass) back).first? text = back.first? (text.dropWhile inClass) := by
  rw [first?_seq, rests]
  exact findSome?_restsAfterMany noGain text

/-- A repetition with nothing after it takes all that it can. -/
theorem first?_many (inClass : Char → Bool) (text : List Char) :
    (many inClass).first? text = some (text.dropWhile inClass) := by
  rw [← first?_seq_empty, first?_many_seq (by simp [first?_empty]), first?_empty]

/-- A number of characters that must not go on with others of their class. -/
theorem first?_exactly_seq_notAhead
    {inClass ahead : Char → Bool}
    (isAhead : ∀ c, inClass c = true → ahead c = true)
    (count : Nat)
    (text : List Char) :
    (seq (exactly count inClass) (notAhead ahead)).first? text =
      if (text.takeWhile inClass).length = count ∧ (text.dropWhile inClass).head?.any ahead = false
      then some (text.dropWhile inClass) else none := by
  induction count generalizing text with
  | zero =>
      rw [exactly, first?_empty_seq, first?_notAhead]
      cases text with
      | nil =>
          simp
      | cons c text =>
          cases isIn : inClass c with
          | true => simp [isIn, isAhead c isIn]
          | false => cases ends : ahead c <;> simp [isIn, ends]
  | succ count inductionHypothesis =>
      rw [exactly, first?_seq_seq]
      cases text with
      | nil =>
          simp [first?_one_seq_nil]
      | cons c text =>
          rw [first?_one_seq_cons, inductionHypothesis]
          cases isIn : inClass c <;> simp [isIn]

/-- Letters in front of a pattern are a word in front of it. -/
theorem first?_spelling_seq (letters : List Char) (back : Pattern) (text : List Char) :
    (seq (spelling letters) back).first? text = (afterWord? letters text).bind back.first? := by
  fun_induction afterWord? letters text with
  | case1 text =>
      rw [spelling, first?_empty_seq, Option.bind_some]
  | case2 letter letters =>
      rw [spelling, first?_seq_seq, first?_one_seq_nil, Option.bind_none]
  | case3 letter letters c text isIn inductionHypothesis =>
      rw [spelling, first?_seq_seq, first?_one_seq_cons, if_pos isIn, inductionHypothesis]
  | case4 letter letters c text isOut =>
      rw [spelling, first?_seq_seq, first?_one_seq_cons, if_neg isOut, Option.bind_none]

theorem first?_word_seq (letters : String) (back : Pattern) (text : List Char) :
    (seq (word letters) back).first? text = (afterWord? letters.toList text).bind back.first? :=
  first?_spelling_seq letters.toList back text

theorem first?_word (letters : String) (text : List Char) :
    (word letters).first? text = afterWord? letters.toList text := by
  rw [← first?_seq_empty, first?_word_seq, funext first?_empty, Option.bind_fun_some]

/-- Words in front of a pattern are tried one after another. -/
theorem first?_anyWord_seq (words : List String) (back : Pattern) (text : List Char) :
    (seq (anyWord words) back).first? text =
      words.findSome? fun letters => (afterWord? letters.toList text).bind back.first? := by
  induction words with
  | nil =>
      cases text with
      | nil => rfl
      | cons c text => rw [anyWord, first?_one_seq_cons, if_neg Bool.false_ne_true]; rfl
  | cons letters words inductionHypothesis =>
      rw [anyWord, first?_either_seq, first?_word_seq, inductionHypothesis, List.findSome?_cons]
      cases (afterWord? letters.toList text).bind back.first? <;> rfl

/-- A quoted text ends at the first mark of its kind. -/
theorem first?_quoted_seq
    (mark : Char)
    (back : Pattern)
    (c : Char)
    (text : List Char) :
    (seq (quoted mark) back).first? (c :: text) =
      if c == mark then (afterQuoted? mark text).bind back.first? else none := by
  -- No text that begins with another character than the mark ends here.
  have noGain :
      ∀ c text,
        (c != mark) = true →
        (seq (one (· == mark)) back).first? text = none →
        (seq (one (· == mark)) back).first? (c :: text) = none := by
    intro c text isOther _
    rw [first?_one_seq_cons, if_neg (by simpa using isOther)]
  rw [quoted, character, first?_seq_seq, first?_one_seq_cons, first?_seq_seq,
    first?_many_seq noGain, afterQuoted?]
  cases left : text.dropWhile (fun c => c != mark) with
  | nil =>
      rfl
  | cons first rest =>
      have isMark := List.head_dropWhile_not (fun c => c != mark) (by rw [left]; simp)
      simp only [left, List.head_cons, bne_eq_false_iff_eq] at isMark
      simp [first?_one_seq_cons, isMark]

/-- A quoted text ends with the first mark like that at its front. -/
theorem first?_quoted (mark c : Char) (text : List Char) :
    (quoted mark).first? (c :: text) = if c == mark then afterQuoted? mark text else none := by
  rw [← first?_seq_empty, first?_quoted_seq, funext first?_empty, Option.bind_fun_some]

/-- A repetition leaves the end of the text. -/
theorem isSuffix_of_restsAfterMany
    {inClass : Char → Bool}
    {text rest : List Char}
    (member : rest ∈ restsAfterMany inClass text) :
    rest <:+ text := by
  induction text with
  | nil =>
      obtain rfl := List.mem_singleton.mp member
      exact List.suffix_rfl
  | cons c text inductionHypothesis =>
      rw [restsAfterMany] at member
      split at member
      · rcases List.mem_append.mp member with later | here
        · exact (inductionHypothesis later).trans (List.suffix_cons c text)
        · obtain rfl := List.mem_singleton.mp here
          exact List.suffix_rfl
      · obtain rfl := List.mem_singleton.mp member
        exact List.suffix_rfl

/-- Every pattern leaves the end of the text. -/
theorem isSuffix_of_rests
    {pattern : Pattern}
    {text rest : List Char}
    (member : rest ∈ pattern.rests text) :
    rest <:+ text := by
  induction pattern generalizing text rest with
  | empty =>
      obtain rfl := List.mem_singleton.mp member
      exact List.suffix_rfl
  | one inClass =>
      cases text with
      | nil => contradiction
      | cons c text =>
          rw [rests] at member
          split at member
          · rw [List.mem_singleton.mp member]
            exact List.suffix_cons c text
          · contradiction
  | many inClass =>
      exact isSuffix_of_restsAfterMany member
  | seq front back frontHypothesis backHypothesis =>
      obtain ⟨middle, isFront, isBack⟩ := List.mem_flatMap.mp member
      exact (backHypothesis isBack).trans (frontHypothesis isFront)
  | either first second firstHypothesis secondHypothesis =>
      rcases List.mem_append.mp member with isFirst | isSecond
      · exact firstHypothesis isFirst
      · exact secondHypothesis isSecond
  | notAhead inClass =>
      rw [rests] at member
      split at member
      · contradiction
      · obtain rfl := List.mem_singleton.mp member
        exact List.suffix_rfl

/-- A match takes characters from the front of the text. -/
theorem exists_append_of_first?
    {pattern : Pattern}
    {text rest : List Char}
    (found : pattern.first? text = some rest) :
    ∃ own, own ++ rest = text :=
  isSuffix_of_rests (List.mem_of_mem_head? found)

end Pattern

end QtSheet.Value
