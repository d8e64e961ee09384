import QtSheet.Proofs.Grammar
import QtSheet.Proofs.Reading

namespace QtSheet.Grammar

/-!
# Declarations are read by the grammar

Values are taken as long as there are any, so a value of the grammar is read
whole when neither a value nor a separator follows. A declaration is read up to
its semicolon or to the brace that closes the block, and a block without faults
is one of the grammar.
-/

/-- The first of some tokens, if there is one, does not go on with a value. -/
def NoValue (tokens : List Token) : Prop :=
  ∀ token ∈ tokens.head?,
    token.kind.isValue = false ∧ token.kind.separatesValues = false

/--
Values that are taken form a value when the last of them is one. After a value
the same holds of the tokens with that value in front.
-/
private theorem valuesForm_cutValues (tokens : List Token) :
    (∀ last,
      (cutValues false tokens).1.getLast? = some last →
        last.kind.isValue →
        ValuesForm (cutValues false tokens).1) ∧
      (∀ value last,
        value.kind.isValue →
          (value :: (cutValues true tokens).1).getLast? = some last →
          last.kind.isValue →
          ValuesForm (value :: (cutValues true tokens).1)) := by
  induction tokens with
  | nil =>
      constructor
      · intro last isLast
        simp [cutValues] at isLast
      · intro value last isValue _ _
        exact .last isValue
  | cons token rest inductionHypothesis =>
      obtain ⟨fresh, afterValue⟩ := inductionHypothesis
      by_cases isValue : token.kind.isValue = true
      · constructor
        · intro last isLast lastIsValue
          simp only [cutValues, isValue, Bool.true_or, ↓reduceIte] at isLast ⊢
          exact afterValue token last isValue isLast lastIsValue
        · intro value last valueIsValue isLast lastIsValue
          simp only [cutValues, isValue, Bool.true_or, ↓reduceIte] at isLast ⊢
          rw [List.getLast?_cons_cons] at isLast
          exact .next valueIsValue (afterValue token last isValue isLast lastIsValue)
      · constructor
        · intro last isLast
          simp [cutValues, isValue] at isLast
        · intro value last valueIsValue isLast lastIsValue
          by_cases separates : token.kind.separatesValues = true
          · simp only [cutValues, isValue, separates, Bool.and_true, Bool.or_true,
              ↓reduceIte] at isLast ⊢
            rw [List.getLast?_cons_cons] at isLast
            have isSeparator : token.kind = .comma ∨ token.kind = .slash := by
              cases kind : token.kind <;> simp_all [Kind.separatesValues]
            refine .separated valueIsValue isSeparator ?_
            cases taken : (cutValues false rest).1 with
            | nil =>
                rw [taken] at isLast
                cases isLast
                contradiction
            | cons next others =>
                rw [taken, List.getLast?_cons_cons, ← taken] at isLast
                rw [← taken]
                exact fresh last isLast lastIsValue
          · simp only [cutValues, isValue, separates, Bool.and_false, Bool.or_false,
              Bool.false_eq_true, ↓reduceIte]
            exact .last valueIsValue

/-- A value of the grammar is taken whole when it does not go on. -/
theorem cutValues_of_form
    {values rest : List Token}
    (form : ValuesForm values)
    (stops : NoValue rest)
    (afterValue : Bool) :
    cutValues afterValue (values ++ rest) = (values, rest) := by
  have cutRest : ∀ afterValue : Bool, cutValues afterValue rest = ([], rest) := by
    intro afterValue
    cases rest with
    | nil =>
        rfl
    | cons token rest =>
        obtain ⟨noValue, noSeparator⟩ := stops token rfl
        simp [cutValues, noValue, noSeparator]
  induction form generalizing afterValue with
  | last isValue =>
      simp [cutValues, isValue, cutRest]
  | next isValue _ inductionHypothesis =>
      simp [cutValues, isValue, inductionHypothesis]
  | @separated value separator others isValue isSeparator _ inductionHypothesis =>
      have separates : separator.kind.separatesValues = true := by
        rcases isSeparator with isComma | isSlash
        · rw [isComma]
          rfl
        · rw [isSlash]
          rfl
      simp [cutValues, isValue, separates, inductionHypothesis]

/-- A value has a last token, which is a value itself. -/
theorem ValuesForm.exists_last
    {values : List Token}
    (form : ValuesForm values) :
    ∃ last, values.getLast? = some last ∧ last.kind.isValue = true := by
  induction form with
  | last isValue =>
      exact ⟨_, rfl, isValue⟩
  | next _ rest inductionHypothesis =>
      obtain ⟨last, isLast, lastIsValue⟩ := inductionHypothesis
      exact ⟨last, by rw [List.getLast?_cons, isLast]; rfl, lastIsValue⟩
  | separated _ _ rest inductionHypothesis =>
      obtain ⟨last, isLast, lastIsValue⟩ := inductionHypothesis
      exact ⟨last, by rw [List.getLast?_cons_cons, List.getLast?_cons, isLast]; rfl,
        lastIsValue⟩

/-- A value that is read is one of the grammar. -/
theorem valuesForm_of_readValues
    {property : String}
    {tokens values rest : List Token}
    {last : Token}
    (read : Declaration.readValues property tokens = .done (values, last) rest) :
    tokens = values ++ rest ∧
      ValuesForm values ∧
      values.getLast? = some last := by
  revert read
  fun_cases Declaration.readValues property tokens with
  | case1 cut lastTaken isLast isValue =>
      rintro ⟨⟩
      exact ⟨(append_cutValues false tokens).symm,
        (valuesForm_cutValues tokens).1 last isLast isValue, isLast⟩
  | case2 =>
      rintro ⟨⟩
  | case3 =>
      rintro ⟨⟩

/-- A value of the grammar is read when it does not go on. -/
theorem readValues_of_form
    {values rest : List Token}
    {last : Token}
    (property : String)
    (form : ValuesForm values)
    (isLast : values.getLast? = some last)
    (stops : NoValue rest) :
    Declaration.readValues property (values ++ rest) = .done (values, last) rest := by
  obtain ⟨other, otherIsLast, isValue⟩ := form.exists_last
  rw [isLast] at otherIsLast
  cases otherIsLast
  simp [Declaration.readValues, cutValues_of_form form stops, isLast, isValue]

/-- An importance that is read is one of the grammar. -/
theorem importanceForm_of_readImportance
    {last result : Token}
    {tokens rest : List Token}
    {important : Bool}
    (read : Declaration.readImportance last tokens = .done (important, result) rest) :
    ∃ taken,
      tokens = taken ++ rest ∧
        ImportanceForm taken important ∧
        taken.getLast?.getD last = result := by
  cases tokens with
  | nil =>
      obtain ⟨same, rfl⟩ := Reading.done.inj read
      obtain ⟨rfl, rfl⟩ := Prod.mk.inj same
      exact ⟨[], rfl, .absent, rfl⟩
  | cons mark behind =>
      by_cases isMark : mark.kind = .exclamation
      · rw [Declaration.readImportance, if_pos isMark] at read
        obtain ⟨word, readWord, same⟩ := Reading.map_eq_done.mp read
        obtain ⟨rfl, rfl⟩ := Prod.mk.inj same
        cases behind with
        | nil =>
            simp [Declaration.readImportanceWord] at readWord
        | cons next after =>
            by_cases isImportance : Declaration.isImportance next
            · rw [Declaration.readImportanceWord, if_pos isImportance] at readWord
              obtain ⟨rfl, rfl⟩ := Reading.done.inj readWord
              simp only [Declaration.isImportance, Bool.and_eq_true,
                decide_eq_true_eq] at isImportance
              exact ⟨[mark, next], rfl,
                .present isMark isImportance.1 isImportance.2, rfl⟩
            · rw [Declaration.readImportanceWord, if_neg isImportance] at readWord
              contradiction
      · rw [Declaration.readImportance, if_neg isMark] at read
        obtain ⟨same, rfl⟩ := Reading.done.inj read
        obtain ⟨rfl, rfl⟩ := Prod.mk.inj same
        exact ⟨[], rfl, .absent, rfl⟩

/-- A mark of importance of the grammar is read when no other follows it. -/
private theorem readImportance_of_form
    {tokens rest : List Token}
    {important : Bool}
    (form : ImportanceForm tokens important)
    (last : Token)
    (stops : ∀ token ∈ rest.head?, token.kind ≠ .exclamation) :
    Declaration.readImportance last (tokens ++ rest) =
      .done (important, tokens.getLast?.getD last) rest := by
  cases form with
  | absent =>
      cases rest with
      | nil =>
          rfl
      | cons token rest =>
          have noMark : token.kind ≠ .exclamation := stops token rfl
          simp [Declaration.readImportance, noMark]
  | present isMark isWord isImportant =>
      simp [Declaration.readImportance, Declaration.readImportanceWord,
        Declaration.isImportance, isMark, isWord, isImportant]

/-- How a declaration may end: with a semicolon that is taken, or in front of a brace or nothing. -/
inductive DeclarationEnd : List Token → List Token → Prop where
  | semicolon
      {semicolon : Token}
      {rest : List Token} :
      semicolon.kind = .semicolon →
      DeclarationEnd (semicolon :: rest) rest
  | closing
      {closing : Token}
      {rest : List Token} :
      closing.kind = .closeBrace →
      DeclarationEnd (closing :: rest) (closing :: rest)
  | nothing :
      DeclarationEnd [] []

/-- The end of a declaration is read where the grammar has one. -/
private theorem readEnd_eq_done
    {property : String}
    {tokens rest : List Token} :
    Declaration.readEnd property tokens = .done () rest ↔
      DeclarationEnd tokens rest := by
  constructor
  · fun_cases Declaration.readEnd property tokens with
    | case1 =>
        rintro ⟨⟩
        exact .nothing
    | case2 token behind isSemicolon =>
        rintro ⟨⟩
        exact .semicolon isSemicolon
    | case3 token behind notSemicolon isClosing =>
        rintro ⟨⟩
        exact .closing isClosing
    | case4 =>
        rintro ⟨⟩
  · intro ending
    cases ending with
    | semicolon isSemicolon =>
        simp [Declaration.readEnd, isSemicolon]
    | closing isClosing =>
        simp [Declaration.readEnd, isClosing]
    | nothing =>
        rfl

/-- A declaration that is read is one of the grammar, up to its end. -/
theorem declarationForm_of_read
    {name : Token}
    {tokens rest : List Token}
    {declaration : Declaration}
    (isName : name.kind = .identifier)
    (read : Declaration.read name tokens = .done declaration rest) :
    ∃ taken after,
      tokens = taken ++ after ∧
        DeclarationForm (name :: taken) declaration ∧
        DeclarationEnd after rest := by
  obtain ⟨colon, afterColon, takenColon, readBehind⟩ := Reading.andThen_eq_done.mp read
  obtain ⟨rfl, isColon⟩ := eq_cons_of_expect takenColon
  obtain ⟨⟨values, lastValue⟩, afterValues, readValues, readAfterValues⟩ :=
    Reading.andThen_eq_done.mp readBehind
  obtain ⟨rfl, valuesForm, isLastValue⟩ := valuesForm_of_readValues readValues
  obtain ⟨⟨important, last⟩, afterImportance, readImportance, readLast⟩ :=
    Reading.andThen_eq_done.mp readAfterValues
  obtain ⟨importance, rfl, importanceForm, rfl⟩ :=
    importanceForm_of_readImportance readImportance
  obtain ⟨_, readEnd, rfl⟩ := Reading.map_eq_done.mp readLast
  refine ⟨colon :: (values ++ importance), afterImportance, by simp, ?_,
    readEnd_eq_done.mp readEnd⟩
  exact .intro isName isColon valuesForm importanceForm
    (getLast?_append_getD isLastValue importance)

/-- The end of a declaration goes on neither with its value nor with a mark of importance. -/
private theorem DeclarationEnd.stops
    {after rest : List Token}
    (ending : DeclarationEnd after rest) :
    NoValue after ∧ ∀ token ∈ after.head?, token.kind ≠ .exclamation := by
  cases ending with
  | semicolon isSemicolon =>
      refine ⟨?_, ?_⟩ <;> intro token member <;> cases member <;> rw [isSemicolon]
      · exact ⟨rfl, rfl⟩
      · decide
  | closing isClosing =>
      refine ⟨?_, ?_⟩ <;> intro token member <;> cases member <;> rw [isClosing]
      · exact ⟨rfl, rfl⟩
      · decide
  | nothing =>
      refine ⟨?_, ?_⟩ <;> intro token member <;> cases member

private theorem ImportanceForm.noValue
    {tokens rest : List Token}
    {important : Bool}
    (form : ImportanceForm tokens important)
    (stops : NoValue rest) :
    NoValue (tokens ++ rest) := by
  cases form with
  | absent =>
      exact stops
  | present isMark _ _ =>
      intro token member
      cases member
      rw [isMark]
      exact ⟨rfl, rfl⟩

/-- A declaration of the grammar is read up to its end. -/
theorem read_of_declarationForm
    {tokens after rest : List Token}
    {declaration : Declaration}
    (form : DeclarationForm tokens declaration)
    (ending : DeclarationEnd after rest) :
    ∃ name behind,
      tokens = name :: behind ∧
        name.kind = .identifier ∧
        Declaration.read name (behind ++ after) = .done declaration rest := by
  cases form with
  | @intro name colon last values importance important isName isColon valuesForm importanceForm
      isLast =>
      obtain ⟨noValue, noMark⟩ := ending.stops
      obtain ⟨lastValue, isLastValue, _⟩ := valuesForm.exists_last
      rw [getLast?_append_getD isLastValue] at isLast
      cases isLast
      refine ⟨name, colon :: (values ++ importance), rfl, isName, ?_⟩
      simp only [Declaration.read, List.cons_append, List.append_assoc, expect, isColon,
        ↓reduceIte, Reading.andThen_done,
        readValues_of_form _ valuesForm isLastValue (importanceForm.noValue noValue),
        readImportance_of_form importanceForm lastValue noMark,
        readEnd_eq_done.mpr ending, Reading.map_done]

/-- A block without faults is one of the grammar, up to the brace that closes it. -/
theorem blockForm_of_read
    {tokens : List Token}
    (noFaults : (Block.read tokens).faults = []) :
    ∃ block closing,
      tokens = block ++ closing :: (Block.read tokens).rest ∧
        closing.kind = .closeBrace ∧
        (Block.read tokens).close? = some closing ∧
        BlockForm block (Block.read tokens).declarations := by
  fun_induction Block.read tokens with
  | case1 =>
      simp at noFaults
  | case2 token rest isClosing =>
      exact ⟨[], token, rfl, isClosing, rfl, .nil⟩
  | case3 token rest _ isSemicolon inductionHypothesis =>
      obtain ⟨block, closing, shape, isClosing, closes, form⟩ := inductionHypothesis noFaults
      refine ⟨token :: block, closing, ?_, isClosing, closes, .semicolon isSemicolon form⟩
      rw [List.cons_append, ← shape]
  | case4 token rest _ _ isName declaration after readFirst inductionHypothesis =>
      obtain ⟨block, closing, shape, isClosing, closes, form⟩ := inductionHypothesis noFaults
      obtain ⟨taken, ending, rfl, firstForm, ends⟩ :=
        declarationForm_of_read isName readFirst
      cases ends with
      | @semicolon semicolon _ isSemicolon =>
          refine ⟨token :: taken ++ semicolon :: block, closing, ?_, isClosing, closes,
            .cons firstForm isSemicolon form⟩
          simp only [List.cons_append, List.append_assoc]
          rw [show (Block.addDeclaration declaration (Block.read after)).rest =
            (Block.read after).rest from rfl, ← shape]
      | @closing brace behind isBrace =>
          have ended : Block.read (brace :: behind) = ⟨[], [], some brace, behind⟩ := by
            rw [Block.read_cons, if_pos isBrace]
          rw [ended]
          exact ⟨token :: taken, brace, rfl, isBrace, rfl, .last firstForm⟩
      | nothing =>
          simp at shape
  | case5 =>
      simp [Block.addFault] at noFaults
  | case6 =>
      simp [Block.addFault] at noFaults

/-- A block of the grammar is read up to the brace that closes it. -/
theorem read_of_blockForm
    {block after : List Token}
    {declarations : List Declaration}
    {closing : Token}
    (form : BlockForm block declarations)
    (isClosing : closing.kind = .closeBrace) :
    Block.read (block ++ closing :: after) = ⟨declarations, [], some closing, after⟩ := by
  have ended : Block.read (closing :: after) = ⟨[], [], some closing, after⟩ := by
    rw [Block.read_cons, if_pos isClosing]
  induction form with
  | nil =>
      exact ended
  | last form =>
      obtain ⟨name, behind, rfl, isName, readFirst⟩ :=
        read_of_declarationForm form (.closing isClosing)
      rw [List.cons_append, Block.read_cons, readFirst]
      simp [isName, ended, Block.addDeclaration]
  | semicolon isSemicolon _ inductionHypothesis =>
      rw [List.cons_append, Block.read_cons, inductionHypothesis]
      simp [isSemicolon]
  | @cons tokens rest declaration semicolon declarations form isSemicolon _
      inductionHypothesis =>
      obtain ⟨name, behind, rfl, isName, readFirst⟩ :=
        read_of_declarationForm form
          (.semicolon isSemicolon : DeclarationEnd (semicolon :: (rest ++ closing :: after)) _)
      rw [List.append_assoc, List.cons_append, List.cons_append, Block.read_cons, readFirst]
      simp [isName, inductionHypothesis, Block.addDeclaration]

end QtSheet.Grammar
