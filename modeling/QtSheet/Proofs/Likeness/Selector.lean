import QtSheet.Proofs.Likeness

namespace QtSheet.Likeness

/-!
# Selectors of like tokens

The readings of a selector, of a chain and of a group of chains from like
tokens are alike.
-/

variable {likeness : Likeness}

/-- Like tokens give an attribute test the same value. -/
theorem valueOf?_eq
    {here there : Token}
    (related : likeness.related here there) :
    AttributeTest.valueOf? here = AttributeTest.valueOf? there := by
  by_cases isCombinator : here.kind = .combinator
  · simp [AttributeTest.valueOf?, ← likeness.kind related, isCombinator]
  · rw [AttributeTest.valueOf?, AttributeTest.valueOf?, ← likeness.kind related,
      likeness.text related isCombinator]

/-- The value of an attribute is no closing brace. -/
private theorem ne_closeBrace_of_valueOf?
    {token : Token}
    {value : String}
    (isValue : AttributeTest.valueOf? token = some value) :
    token.kind ≠ .closeBrace := by
  intro isClose
  simp [AttributeTest.valueOf?, isClose] at isValue

/-- The end of an attribute test is read alike. -/
private theorem attributeEnd_alike
    {here there : List Token}
    (alike : likeness.Alike here there)
    (test : AttributeTest) :
    likeness.ReadAlike Prod.fst (test.readEnd here) (test.readEnd there) :=
  (expect_alike alike (by simp) (by simp) _).map fun _ _ _ => rfl

theorem attributeTest_alike
    {here there : List Token}
    (alike : likeness.Alike here there) :
    likeness.ReadAlike Prod.fst (AttributeTest.read here) (AttributeTest.read there) := by
  refine (expect_alike alike (by simp) (by simp) _).andThen ?_
  intro name rest otherName others _ sameName restAlike
  rw [← Token.text_eq_of_unplaced sameName]
  rcases restAlike.uncons with
    ⟨rfl, rfl, _⟩ | ⟨token, behind, other, othersBehind, rfl, rfl, related, _, behindAlike⟩
  · exact attributeEnd_alike restAlike _
  · simp only [AttributeTest.readOperator, ← likeness.kind related]
    by_cases isOperator : token.kind = .attributeOperator
    · simp only [if_pos isOperator]
      have valueAlike := behindAlike (by simp [isOperator])
      rw [← likeness.text related (by simp [isOperator])]
      rcases valueAlike.uncons with
        ⟨rfl, rfl, _⟩ | ⟨value, left, otherValue, otherLeft, rfl, rfl, valueRelated, _, leftAlike⟩
      · exact .stuck valueAlike
      · simp only [AttributeTest.readValue, ← valueOf?_eq valueRelated]
        cases isValue : AttributeTest.valueOf? value with
        | some text =>
            exact attributeEnd_alike (leftAlike (ne_closeBrace_of_valueOf? isValue)) _
        | none =>
            exact .stuck valueAlike
    · simp only [if_neg isOperator]
      exact attributeEnd_alike restAlike _

/-- The names of qualifiers are read alike. -/
theorem readName_alike
    {mark otherMark : Token}
    {here there : List Token}
    (related : likeness.related mark otherMark)
    (noCombinator : mark.kind ≠ .combinator)
    (alike : likeness.Alike here there)
    (qualifier : Qualifier) :
    likeness.ReadAlike Token.unplaced
      (Selector.readName qualifier mark here)
      (Selector.readName qualifier otherMark there) := by
  have sameText := likeness.text related noCombinator
  rcases alike.uncons with
    ⟨rfl, rfl, _⟩ | ⟨name, rest, other, others, rfl, rfl, nameRelated, _, restAlike⟩
  · simp only [Selector.readName, sameText]
    exact .stuck alike
  · simp only [Selector.readName, ← likeness.kind nameRelated,
      ← likeness.touch related nameRelated, sameText]
    by_cases isName : name.kind = .identifier ∧ name.start = mark.stop
    · simp only [if_pos isName]
      exact .done (unplaced_eq nameRelated (by simp [isName.1]))
        (restAlike (by simp [isName.1]))
    · simp only [if_neg isName]
      exact .stuck alike

/-- A selector of which the tokens are left out. -/
def selectorOf (result : Selector × Token) : Selector :=
  result.1.unplaced

private theorem unplaced_addPseudoState
    (selector : Selector)
    (negated : Bool)
    (name : Token) :
    (selector.addPseudoState negated name).unplaced =
      selector.unplaced.addPseudoState negated name.unplaced := by
  simp [Selector.unplaced, Selector.addPseudoState, PseudoState.unplaced, Token.unplaced]

private theorem unplaced_addClass (selector : Selector) (name : String) :
    (selector.addClass name).unplaced = selector.unplaced.addClass name := by
  unfold Selector.addClass
  rw [show selector.unplaced.classes = selector.classes from rfl]
  split <;> rfl

private theorem readPseudoState_alike
    {selector otherSelector : Selector}
    {colon otherColon : Token}
    {here there : List Token}
    (same : selector.unplaced = otherSelector.unplaced)
    (related : likeness.related colon otherColon)
    (noCombinator : colon.kind ≠ .combinator)
    (alike : likeness.Alike here there) :
    likeness.ReadAlike selectorOf
      (selector.readPseudoState colon here)
      (otherSelector.readPseudoState otherColon there) := by
  rcases alike.uncons with
    ⟨rfl, rfl, _⟩ | ⟨token, rest, other, others, rfl, rfl, tokenRelated, _, restAlike⟩
  · simp only [Selector.readPseudoState, likeness.text related noCombinator]
    exact .stuck alike
  · simp only [Selector.readPseudoState, ← likeness.kind tokenRelated,
      ← likeness.touch related tokenRelated]
    by_cases isNegated : token.kind = .exclamation ∧ token.start = colon.stop
    · simp only [if_pos isNegated]
      refine (readName_alike tokenRelated (by simp [isNegated.1])
        (restAlike (by simp [isNegated.1])) _).map ?_
      intro name otherName sameName
      simp only [selectorOf, unplaced_addPseudoState, same, sameName]
    · simp only [if_neg isNegated]
      refine (readName_alike related noCombinator alike _).map ?_
      intro name otherName sameName
      simp only [selectorOf, unplaced_addPseudoState, same, sameName]

/-- Qualifiers are read alike, into selectors that are the same up to places. -/
theorem readQualifier_alike
    {selector otherSelector : Selector}
    {mark otherMark : Token}
    {here there : List Token}
    (same : selector.unplaced = otherSelector.unplaced)
    (related : likeness.related mark otherMark)
    (isMark : mark.kind.startsQualifier = true)
    (alike : likeness.Alike here there)
    (marksAlike : likeness.Alike (mark :: here) (otherMark :: there)) :
    likeness.ReadAlike selectorOf
      (selector.readQualifier mark here)
      (otherSelector.readQualifier otherMark there) := by
  have noCombinator : mark.kind ≠ .combinator := by
    intro isCombinator
    rw [isCombinator] at isMark
    contradiction
  have sameText := likeness.text related noCombinator
  have sameFields := same
  simp only [Selector.unplaced, Selector.mk.injEq] at sameFields
  obtain ⟨_, sameId, _, _, sameSubControl, _⟩ := sameFields
  unfold Selector.readQualifier
  rw [← likeness.kind related]
  split
  · rw [← sameId, sameText]
    split
    · exact .stuck marksAlike
    · refine .done ?_ alike
      show { selector.unplaced with id? := some (String.ofList (otherMark.text.toList.drop 1)) } =
        { otherSelector.unplaced with id? := some (String.ofList (otherMark.text.toList.drop 1)) }
      rw [same]
  · refine (readName_alike related noCombinator alike _).map ?_
    intro name otherName sameName
    simp only [selectorOf, unplaced_addClass, same, Token.text_eq_of_unplaced sameName]
  · exact readPseudoState_alike same related noCombinator alike
  · cases hasOne : selector.subControl? with
    | some token =>
        rw [hasOne] at sameSubControl
        obtain ⟨other, otherHasOne, sameToken⟩ := Option.map_eq_some_iff.mp sameSubControl.symm
        rw [otherHasOne]
        dsimp only
        rw [Token.text_eq_of_unplaced sameToken]
        exact .stuck marksAlike
    | none =>
        rw [hasOne] at sameSubControl
        rw [Option.map_eq_none_iff.mp sameSubControl.symm]
        refine (readName_alike related noCombinator alike _).map ?_
        intro name otherName sameName
        show { selector.unplaced with subControl? := some name.unplaced } =
          { otherSelector.unplaced with subControl? := some otherName.unplaced }
        rw [same, sameName]
  · refine (attributeTest_alike alike).map ?_
    rintro ⟨test, close⟩ ⟨otherTest, otherClose⟩ sameTest
    obtain rfl : test = otherTest := sameTest
    show { selector.unplaced with attributes := selector.unplaced.attributes ++ [test] } =
      { otherSelector.unplaced with attributes := otherSelector.unplaced.attributes ++ [test] }
    rw [same]

/-- The qualifiers of a selector are read alike. -/
theorem readQualifiers_alike
    {selector otherSelector : Selector}
    {last otherLast : Token}
    {here there : List Token}
    (same : selector.unplaced = otherSelector.unplaced)
    (alike : likeness.Alike here there) :
    likeness.ReadAlike Selector.unplaced
      (selector.readQualifiers last here)
      (otherSelector.readQualifiers otherLast there) := by
  have ended :
      (selector.endingWith last).unplaced = (otherSelector.endingWith otherLast).unplaced := same
  induction size : here.length using Nat.strongRecOn
    generalizing selector otherSelector last otherLast here there with
  | ind size inductionHypothesis =>
      rcases alike.uncons with
        ⟨rfl, rfl, _⟩ | ⟨token, rest, other, others, rfl, rfl, related, _, restAlike⟩
      · rw [Selector.readQualifiers, Selector.readQualifiers]
        exact .done ended alike
      · rw [Selector.readQualifiers_cons, Selector.readQualifiers_cons, ← likeness.kind related]
        by_cases isMark : token.kind.startsQualifier
        · simp only [if_pos isMark]
          have noClose : token.kind ≠ .closeBrace := by
            intro isClose
            rw [isClose] at isMark
            contradiction
          refine (readQualifier_alike same related isMark (restAlike noClose) alike).andThen ?_
          intro result left otherResult otherLeft read sameResult leftAlike
          have shorter := (Selector.suffix_of_readQualifier read).length_le
          exact inductionHypothesis left.length (by simp only [← size, List.length_cons]; omega)
            sameResult leftAlike sameResult rfl
        · simp only [if_neg isMark]
          exact .done ended alike

theorem selector_alike
    {here there : List Token}
    (alike : likeness.Alike here there) :
    likeness.ReadAlike Selector.unplaced (Selector.read here) (Selector.read there) := by
  rcases alike.uncons with
    ⟨rfl, rfl, _⟩ | ⟨token, rest, other, others, rfl, rfl, related, _, restAlike⟩
  · exact .stuck alike
  · simp only [Selector.read, ← likeness.kind related]
    by_cases isType : token.kind = .identifier ∨ token.kind = .star
    · simp only [if_pos isType]
      have sameText : token.text = other.text := by
        apply likeness.text related
        rcases isType with isName | isStar
        · simp [isName]
        · simp [isStar]
      refine readQualifiers_alike ?_ (restAlike ?_)
      · simp only [Selector.unplaced, Selector.bare, sameText]
      · rcases isType with isName | isStar
        · simp [isName]
        · simp [isStar]
    · simp only [if_neg isType]
      split
      · exact readQualifiers_alike rfl alike
      · exact .stuck alike

/-- After like tokens a chain goes on with like tokens, or it ends. -/
theorem next?_alike
    {here there : List Token}
    (alike : likeness.Alike here there) :
    (Chain.next? here = none ∧ Chain.next? there = none) ∨
      ∃ combinator rest others,
        Chain.next? here = some (combinator, rest) ∧
          Chain.next? there = some (combinator, others) ∧
          likeness.Alike rest others := by
  rcases alike.uncons with
    ⟨rfl, rfl, _⟩ | ⟨token, rest, other, others, rfl, rfl, related, _, restAlike⟩
  · exact .inl ⟨rfl, rfl⟩
  · simp only [Chain.next?, ← likeness.combinator related, ← likeness.kind related]
    cases isCombinator : token.combinator? with
    | some combinator =>
        have noClose : token.kind ≠ .closeBrace := by
          intro isClose
          simp [Token.combinator?, isClose] at isCombinator
        exact .inr ⟨combinator, rest, others, rfl, rfl, restAlike noClose⟩
    | none =>
        dsimp only
        split
        · exact .inr ⟨_, _, _, rfl, rfl, alike⟩
        · exact .inl ⟨rfl, rfl⟩

/-- The selectors of a chain after its first one are read alike. -/
theorem readAfter_alike
    {selector otherSelector : Selector}
    {here there : List Token}
    (same : selector.unplaced = otherSelector.unplaced)
    (alike : likeness.Alike here there) :
    likeness.ReadAlike Chain.unplaced
      (Chain.readAfter selector here)
      (Chain.readAfter otherSelector there) := by
  induction size : here.length using Nat.strongRecOn
    generalizing selector otherSelector here there with
  | ind size inductionHypothesis =>
      rw [Chain.readAfter_eq, Chain.readAfter_eq]
      rcases next?_alike alike with
        ⟨hereNone, thereNone⟩ | ⟨combinator, rest, others, hereSome, thereSome, restAlike⟩
      · rw [hereNone, thereNone]
        refine .done ?_ alike
        simp only [Chain.unplaced, List.map_cons, List.map_nil, same]
      · rw [hereSome, thereSome]
        refine (selector_alike restAlike).andThen ?_
        intro next left otherNext otherLeft read sameNext leftAlike
        have shorter := Selector.length_of_read read
        have within := (Chain.suffix_of_next? hereSome).length_le
        refine (inductionHypothesis left.length (by omega) sameNext leftAlike rfl).map ?_
        intro chain otherChain sameChain
        show { selector.unplaced with combinator? := some combinator } :: Chain.unplaced chain =
          { otherSelector.unplaced with combinator? := some combinator } ::
            Chain.unplaced otherChain
        rw [same, sameChain]

theorem chain_alike
    {here there : List Token}
    (alike : likeness.Alike here there) :
    likeness.ReadAlike Chain.unplaced (Chain.read here) (Chain.read there) := by
  refine (selector_alike alike).andThen ?_
  intro selector rest otherSelector others _ same restAlike
  exact readAfter_alike same restAlike

theorem readChains_alike
    {here there : List Token}
    (alike : likeness.Alike here there) :
    likeness.ReadAlike (List.map Chain.unplaced) (readChains here) (readChains there) := by
  induction size : here.length using Nat.strongRecOn generalizing here there with
  | ind size inductionHypothesis =>
      rw [readChains_eq, readChains_eq]
      refine (chain_alike alike).andThen ?_
      intro chain rest otherChain others read same restAlike
      have within := Chain.rest_read here
      rw [read] at within
      have shorter := within.length_le
      rcases restAlike.uncons with
        ⟨rfl, rfl, _⟩ | ⟨token, left, other, otherLeft, rfl, rfl, related, _, leftAlike⟩
      · exact .stuck restAlike
      · simp only [readChainsAfter, ← likeness.kind related]
        by_cases isComma : token.kind = .comma
        · simp only [if_pos isComma]
          simp only [Reading.rest_done, List.length_cons] at shorter
          refine (inductionHypothesis left.length (by omega)
            (leftAlike (by simp [isComma])) rfl).map ?_
          intro chains otherChains sameChains
          simp only [List.map_cons, same, sameChains]
        · simp only [if_neg isComma]
          split
          · refine .done ?_ restAlike
            simp only [List.map_cons, List.map_nil, same]
          · exact .stuck restAlike

end QtSheet.Likeness
