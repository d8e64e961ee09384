import QtSheet.Proofs.Likeness.Selector

namespace QtSheet.Likeness

/-!
# Rules of like tokens

Declarations, blocks and rules are read alike from like tokens, and passing over
a faulty one leaves like tokens. So the outlines of like tokens have the same
rules up to places and the same faults at like tokens, as far as the tokens are
compared (`outline_alike`).
-/

variable {likeness : Likeness}

/-- Like tokens begin with like values and go on alike behind them. -/
private theorem cutValues_alike
    {here there : List Token}
    (alike : likeness.Alike here there)
    (afterValue : Bool) :
    (cutValues afterValue here).1.map Token.unplaced =
        (cutValues afterValue there).1.map Token.unplaced ∧
      likeness.Alike (cutValues afterValue here).2 (cutValues afterValue there).2 := by
  induction alike generalizing afterValue with
  | nil noneBehind =>
      exact ⟨rfl, .nil noneBehind⟩
  | close behind related isClose =>
      have otherClose := (likeness.kind related).symm.trans isClose
      simp only [cutValues, isClose, otherClose, Kind.isValue, Kind.separatesValues,
        Bool.and_false, Bool.or_self, Bool.false_eq_true, ↓reduceIte]
      exact ⟨trivial, .close behind related isClose⟩
  | @cons token other here there related restAlike inductionHypothesis =>
      simp only [cutValues, ← likeness.kind related]
      by_cases isPart : token.kind.isValue || afterValue && token.kind.separatesValues
      · simp only [if_pos isPart]
        have noCombinator : token.kind ≠ .combinator := by
          intro isCombinator
          simp [isCombinator, Kind.isValue, Kind.separatesValues] at isPart
        obtain ⟨sameValues, leftAlike⟩ := inductionHypothesis token.kind.isValue
        refine ⟨?_, leftAlike⟩
        simp only [List.map_cons, unplaced_eq related noCombinator, sameValues]
      · simp only [if_neg isPart]
        exact ⟨trivial, .cons related restAlike⟩

/-- The values of a declaration without places. -/
private def valuesOf (result : List Token × Token) : List Token :=
  result.1.map Token.unplaced

/-- The values of a declaration are read alike. -/
private theorem readValues_alike
    {here there : List Token}
    (alike : likeness.Alike here there)
    (property : String) :
    likeness.ReadAlike valuesOf
      (Declaration.readValues property here)
      (Declaration.readValues property there) := by
  obtain ⟨sameValues, leftAlike⟩ := cutValues_alike alike false
  have sameLast := congrArg List.getLast? sameValues
  rw [List.getLast?_map, List.getLast?_map] at sameLast
  unfold Declaration.readValues
  dsimp only
  cases isLast : (cutValues false here).1.getLast? with
  | none =>
      rw [isLast] at sameLast
      rw [Option.map_eq_none_iff.mp sameLast.symm]
      exact .stuck leftAlike
  | some last =>
      rw [isLast] at sameLast
      obtain ⟨otherLast, isOther, sameToken⟩ := Option.map_eq_some_iff.mp sameLast.symm
      have sameKind : otherLast.kind = last.kind := congrArg (·.kind) sameToken
      rw [isOther]
      dsimp only
      rw [sameKind]
      split
      · exact .done sameValues leftAlike
      · exact .stuck leftAlike

/-- Of like tokens both are the word of importance, or none is. -/
private theorem isImportance_eq
    {here there : Token}
    (related : likeness.related here there) :
    Declaration.isImportance here = Declaration.isImportance there := by
  unfold Declaration.isImportance
  rw [← likeness.kind related]
  by_cases isName : here.kind = .identifier
  · rw [likeness.text related (by simp [isName])]
  · simp [isName]

private theorem readImportanceWord_alike
    {here there : List Token}
    (alike : likeness.Alike here there) :
    likeness.ReadAlike (fun _ => ())
      (Declaration.readImportanceWord here)
      (Declaration.readImportanceWord there) := by
  rcases alike.uncons with
    ⟨rfl, rfl, _⟩ | ⟨word, rest, other, others, rfl, rfl, related, _, restAlike⟩
  · exact .stuck alike
  · simp only [Declaration.readImportanceWord, ← isImportance_eq related]
    by_cases isWord : Declaration.isImportance word
    · simp only [if_pos isWord]
      refine .done rfl (restAlike ?_)
      intro isClose
      simp [Declaration.isImportance, isClose] at isWord
    · simp only [if_neg isWord]
      exact .stuck alike

private theorem readImportance_alike
    {here there : List Token}
    (alike : likeness.Alike here there)
    (last otherLast : Token) :
    likeness.ReadAlike Prod.fst
      (Declaration.readImportance last here)
      (Declaration.readImportance otherLast there) := by
  rcases alike.uncons with
    ⟨rfl, rfl, _⟩ | ⟨mark, rest, other, others, rfl, rfl, related, _, restAlike⟩
  · exact .done rfl alike
  · simp only [Declaration.readImportance, ← likeness.kind related]
    by_cases isMark : mark.kind = .exclamation
    · simp only [if_pos isMark]
      exact (readImportanceWord_alike (restAlike (by simp [isMark]))).map fun _ _ _ => rfl
    · simp only [if_neg isMark]
      exact .done rfl alike

/-- The end of a declaration is read alike. -/
private theorem readEnd_alike
    {here there : List Token}
    (alike : likeness.Alike here there)
    (property : String) :
    likeness.ReadAlike id
      (Declaration.readEnd property here)
      (Declaration.readEnd property there) := by
  rcases alike.uncons with
    ⟨rfl, rfl, _⟩ | ⟨token, rest, other, others, rfl, rfl, related, _, restAlike⟩
  · exact .done rfl alike
  · simp only [Declaration.readEnd, ← likeness.kind related]
    by_cases isEnd : token.kind = .semicolon
    · simp only [if_pos isEnd]
      exact .done rfl (restAlike (by simp [isEnd]))
    · simp only [if_neg isEnd]
      split
      · exact .done rfl alike
      · exact .stuck alike

theorem declaration_alike
    {name other : Token}
    {here there : List Token}
    (same : name.unplaced = other.unplaced)
    (alike : likeness.Alike here there) :
    likeness.ReadAlike Declaration.unplaced
      (Declaration.read name here)
      (Declaration.read other there) := by
  have sameText := Token.text_eq_of_unplaced same
  unfold Declaration.read
  rw [sameText]
  refine (expect_alike alike (by simp) (by simp) _).andThen ?_
  intro _ rest _ others _ _ restAlike
  refine (readValues_alike restAlike _).andThen ?_
  rintro ⟨values, lastValue⟩ rest ⟨otherValues, otherLastValue⟩ others _ sameValues restAlike
  refine (readImportance_alike restAlike lastValue otherLastValue).andThen ?_
  rintro ⟨important, last⟩ rest ⟨otherImportant, otherLast⟩ others _ sameImportance restAlike
  refine (readEnd_alike restAlike _).map ?_
  intro _ _ _
  have isValues : values.map Token.unplaced = otherValues.map Token.unplaced := sameValues
  have isImportance : important = otherImportant := sameImportance
  simp only [Declaration.unplaced, isValues, isImportance, Option.map_some, same]

/-- Passing over the rest of a declaration leaves like tokens. -/
theorem skipDeclaration_alike
    {here there : List Token}
    (alike : likeness.Alike here there) :
    likeness.Alike (skipDeclaration here) (skipDeclaration there) := by
  induction alike with
  | nil noneBehind =>
      exact .nil noneBehind
  | close behind related isClose =>
      have otherClose := (likeness.kind related).symm.trans isClose
      rw [skipDeclaration, skipDeclaration, if_pos isClose, if_pos otherClose]
      exact .close behind related isClose
  | cons related restAlike inductionHypothesis =>
      simp only [skipDeclaration, ← likeness.kind related]
      split
      · exact .cons related restAlike
      · split
        · exact restAlike
        · exact inductionHypothesis

/-- Passing over the rest of a selector leaves what may be left after a closing brace. -/
theorem skipSelector_passed
    {here there : List Token}
    (alike : likeness.Alike here there) :
    likeness.Passed (skipSelector here) (skipSelector there) := by
  induction alike with
  | nil noneBehind =>
      exact .inl (.nil noneBehind)
  | close behind related isClose =>
      have otherClose := (likeness.kind related).symm.trans isClose
      simp only [skipSelector, isClose, otherClose, reduceCtorEq, ↓reduceIte, true_or]
      exact .inr behind
  | cons related restAlike inductionHypothesis =>
      simp only [skipSelector, ← likeness.kind related]
      split
      · exact .inl (.cons related restAlike)
      · split
        · exact .inl restAlike
        · exact inductionHypothesis

/-- Blocks with the same declarations up to places and the same faults at like tokens. -/
structure BlockAlike (likeness : Likeness) (here there : Block) : Prop where
  declarations :
    here.declarations.map Declaration.unplaced = there.declarations.map Declaration.unplaced
  faults : List.Forall₂ likeness.FaultAlike here.faults there.faults
  isClosed : here.close?.isSome = there.close?.isSome
  rest : likeness.Passed here.rest there.rest

/-- Like blocks stay alike with a fault at like tokens. -/
private theorem BlockAlike.addFault
    {here there : Block}
    {hereTokens thereTokens : List Token}
    (blockAlike : BlockAlike likeness here there)
    (alike : likeness.Alike hereTokens thereTokens)
    (reason : Reason) :
    BlockAlike likeness (here.addFault reason hereTokens) (there.addFault reason thereTokens) where
  declarations := blockAlike.declarations
  faults := .cons ⟨rfl, alike.blamed⟩ blockAlike.faults
  isClosed := blockAlike.isClosed
  rest := blockAlike.rest

/-- Like blocks stay alike with a declaration that is the same up to places. -/
private theorem BlockAlike.addDeclaration
    {here there : Block}
    {declaration other : Declaration}
    (blockAlike : BlockAlike likeness here there)
    (same : declaration.unplaced = other.unplaced) :
    BlockAlike likeness (here.addDeclaration declaration) (there.addDeclaration other) where
  declarations := by
    simp only [Block.addDeclaration, List.map_cons, same, blockAlike.declarations]
  faults := blockAlike.faults
  isClosed := blockAlike.isClosed
  rest := blockAlike.rest

theorem block_alike
    {here there : List Token}
    (alike : likeness.Alike here there) :
    BlockAlike likeness (Block.read here) (Block.read there) := by
  induction size : here.length using Nat.strongRecOn generalizing here there with
  | ind size inductionHypothesis =>
      rcases alike.uncons with
        ⟨rfl, rfl, noneBehind⟩ | ⟨token, rest, other, others, rfl, rfl, related, passed, restAlike⟩
      · rw [Block.read]
        exact ⟨rfl, .cons ⟨rfl, .atEnd noneBehind⟩ .nil, rfl, .inl alike⟩
      · rw [List.length_cons] at size
        rw [Block.read_cons, Block.read_cons, ← likeness.kind related]
        by_cases closes : token.kind = .closeBrace
        · simp only [if_pos closes]
          exact ⟨rfl, .nil, rfl, passed⟩
        · simp only [if_neg closes]
          split
          · exact inductionHypothesis rest.length (by omega) (restAlike closes) rfl
          · by_cases isName : token.kind = .identifier
            · simp only [if_pos isName]
              have same := unplaced_eq related (by simp [isName])
              have read := declaration_alike same (restAlike closes)
              have within := (Declaration.rest_read token rest).length_le
              generalize Declaration.read token rest = reading at read within ⊢
              generalize Declaration.read other others = otherReading at read ⊢
              cases read with
              | done sameDeclaration leftAlike =>
                  rw [Reading.rest_done] at within
                  exact (inductionHypothesis _ (by omega) leftAlike rfl).addDeclaration
                    sameDeclaration
              | @stuck reason left otherLeft leftAlike =>
                  rw [Reading.rest_stuck] at within
                  have skipped := (suffix_skipDeclaration left).length_le
                  exact (inductionHypothesis _ (by omega) (skipDeclaration_alike leftAlike)
                    rfl).addFault leftAlike reason
            · simp only [if_neg isName]
              have skipped := (suffix_skipDeclaration rest).length_le
              exact (inductionHypothesis (skipDeclaration rest).length (by omega)
                (skipDeclaration_alike (restAlike closes)) rfl).addFault alike _

/-- Readings of a rule with the same rule up to places and the same faults at like tokens. -/
structure RuleAlike (likeness : Likeness) (here there : RuleReading) : Prop where
  rule : here.rule?.map Rule.unplaced = there.rule?.map Rule.unplaced
  faults : List.Forall₂ likeness.FaultAlike here.faults there.faults
  rest : likeness.Passed here.rest there.rest

/-- Like blocks with the same selectors make the same rule up to places. -/
private theorem ruleOf?_unplaced
    {first other : Token}
    {chains? otherChains? : Option (List Chain)}
    {here there : Block}
    (sameChains :
      chains?.map (List.map Chain.unplaced) = otherChains?.map (List.map Chain.unplaced))
    (blockAlike : BlockAlike likeness here there) :
    (RuleReading.ruleOf? first chains? here).map Rule.unplaced =
      (RuleReading.ruleOf? other otherChains? there).map Rule.unplaced := by
  have sameClose := blockAlike.isClosed
  have sameDeclarations := blockAlike.declarations
  unfold RuleReading.ruleOf?
  cases hasChains : chains? with
  | none =>
      rw [hasChains] at sameChains
      rw [Option.map_eq_none_iff.mp sameChains.symm]
  | some chains =>
      rw [hasChains] at sameChains
      obtain ⟨otherChains, hasOthers, same⟩ := Option.map_eq_some_iff.mp sameChains.symm
      rw [hasOthers]
      cases hereClose : here.close? with
      | none =>
          rw [hereClose] at sameClose
          have thereClose : there.close? = none := by
            simpa using sameClose.symm
          rw [thereClose]
      | some close =>
          rw [hereClose] at sameClose
          obtain ⟨otherClose, thereClose⟩ := Option.isSome_iff_exists.mp sameClose.symm
          rw [thereClose]
          simp only [Option.map_some, Rule.unplaced, same, sameDeclarations]

/-- The block of a rule is read alike, behind a closing brace too. -/
theorem readBlock_alike
    {first other : Token}
    {chains? otherChains? : Option (List Chain)}
    {faults otherFaults : List Fault}
    {here there : List Token}
    (sameChains :
      chains?.map (List.map Chain.unplaced) = otherChains?.map (List.map Chain.unplaced))
    (faultsAlike : List.Forall₂ likeness.FaultAlike faults otherFaults)
    (passed : likeness.Passed here there) :
    RuleAlike likeness
      (RuleReading.readBlock first chains? faults here)
      (RuleReading.readBlock other otherChains? otherFaults there) := by
  rcases passed with alike | behind
  · rcases alike.uncons with
      ⟨rfl, rfl, _⟩ | ⟨token, rest, otherToken, others, rfl, rfl, related, _, restAlike⟩
    · exact ⟨rfl, faultsAlike, .inl alike⟩
    · simp only [RuleReading.readBlock, ← likeness.kind related]
      by_cases isOpen : token.kind = .openBrace
      · simp only [if_pos isOpen]
        have blockAlike := block_alike (restAlike (by simp [isOpen]))
        exact ⟨ruleOf?_unplaced sameChains blockAlike,
          List.rel_append faultsAlike blockAlike.faults, blockAlike.rest⟩
      · simp only [if_neg isOpen]
        exact ⟨rfl, faultsAlike, .inl alike⟩
  · obtain ⟨hereNoBlock, thereNoBlock⟩ := likeness.noBlock behind
    rw [RuleReading.readBlock_of_noBlock hereNoBlock,
      RuleReading.readBlock_of_noBlock thereNoBlock]
    exact ⟨rfl, faultsAlike, .inr behind⟩

theorem rule_alike
    {first other : Token}
    {here there : List Token}
    (alike : likeness.Alike (first :: here) (other :: there)) :
    RuleAlike likeness (RuleReading.read first here) (RuleReading.read other there) := by
  have read := readChains_alike alike
  unfold RuleReading.read
  generalize readChains (first :: here) = reading at read ⊢
  generalize readChains (other :: there) = otherReading at read ⊢
  cases read with
  | done same restAlike =>
      exact readBlock_alike (congrArg some same) .nil (.inl restAlike)
  | stuck restAlike =>
      exact readBlock_alike rfl (.cons ⟨rfl, restAlike.blamed⟩ .nil)
        (skipSelector_passed restAlike)

/-- What is not compared: the tokens behind the last closing braces, or none. -/
def tails (likeness : Likeness) : List Token × List Token :=
  likeness.behind?.getD ([], [])

/-- Outlines that are alike, apart from the outlines of what is not compared. -/
structure OutlineAlike (likeness : Likeness) (here there : Outline) : Prop where
  rules :
    ∃ rules,
      here.rules.map Rule.unplaced =
          rules ++ (Outline.read likeness.tails.1).rules.map Rule.unplaced ∧
        there.rules.map Rule.unplaced =
          rules ++ (Outline.read likeness.tails.2).rules.map Rule.unplaced
  faults :
    ∃ hereFaults thereFaults,
      here.faults = hereFaults ++ (Outline.read likeness.tails.1).faults ∧
        there.faults = thereFaults ++ (Outline.read likeness.tails.2).faults ∧
        List.Forall₂ likeness.FaultAlike hereFaults thereFaults

/-- Like outlines stay alike with like rules. -/
private theorem OutlineAlike.addRule
    {here there : Outline}
    {reading other : RuleReading}
    (outlineAlike : OutlineAlike likeness here there)
    (ruleAlike : RuleAlike likeness reading other) :
    OutlineAlike likeness (here.addRule reading) (there.addRule other) := by
  obtain ⟨⟨rules, hereRules, thereRules⟩, ⟨hereFaults, thereFaults, isHere, isThere, alike⟩⟩ :=
    outlineAlike
  have sameRule :
      reading.rule?.toList.map Rule.unplaced = other.rule?.toList.map Rule.unplaced := by
    rw [← Option.toList_map, ← Option.toList_map, ruleAlike.rule]
  refine ⟨⟨reading.rule?.toList.map Rule.unplaced ++ rules, ?_, ?_⟩,
    ⟨reading.faults ++ hereFaults, other.faults ++ thereFaults, ?_, ?_,
      List.rel_append ruleAlike.faults alike⟩⟩
  · rw [Outline.addRule, List.map_append, hereRules, List.append_assoc]
  · rw [Outline.addRule, List.map_append, thereRules, sameRule, List.append_assoc]
  · rw [Outline.addRule, isHere, List.append_assoc]
  · rw [Outline.addRule, isThere, List.append_assoc]

/-- Like outlines stay alike with a fault at like tokens. -/
private theorem OutlineAlike.addFault
    {here there : Outline}
    {token other : Token}
    (outlineAlike : OutlineAlike likeness here there)
    (related : likeness.related token other)
    (reason : Reason) :
    OutlineAlike likeness (here.addFault reason token) (there.addFault reason other) := by
  obtain ⟨rules, ⟨hereFaults, thereFaults, isHere, isThere, alike⟩⟩ := outlineAlike
  refine ⟨rules, ⟨⟨reason, some token⟩ :: hereFaults, ⟨reason, some other⟩ :: thereFaults,
    ?_, ?_, .cons ⟨rfl, .token related⟩ alike⟩⟩
  · rw [Outline.addFault, isHere, List.cons_append]
  · rw [Outline.addFault, isThere, List.cons_append]

/-- Sheets are read alike, behind a closing brace too. -/
theorem outline_alike
    {here there : List Token}
    (passed : likeness.Passed here there) :
    OutlineAlike likeness (Outline.read here) (Outline.read there) := by
  -- A rule takes any number of tokens, so the induction is on how many are left.
  induction size : here.length using Nat.strongRecOn generalizing here there with
  | ind size inductionHypothesis =>
      rcases passed with alike | behind
      · rcases alike.uncons with
          ⟨rfl, rfl, noneBehind⟩ | ⟨token, rest, other, others, rfl, rfl, related, restPassed, _⟩
        · have noTails : likeness.tails = ([], []) := by
            rw [tails, noneBehind]
            rfl
          exact ⟨⟨[], by rw [noTails]; rfl, by rw [noTails]; rfl⟩,
            ⟨[], [], by rw [noTails]; rfl, by rw [noTails]; rfl, .nil⟩⟩
        · have shorter := RuleReading.length_read token rest
          rw [Outline.read, Outline.read, ← likeness.kind related]
          split
          · exact (inductionHypothesis rest.length (by simp [← size]) restPassed rfl).addFault
              related _
          · have ruleAlike := rule_alike alike
            exact (inductionHypothesis _ (by rw [← size]; exact shorter) ruleAlike.rest
              rfl).addRule ruleAlike
      · have isTails : likeness.tails = (here, there) := by
          rw [tails, behind]
          rfl
        exact ⟨⟨[], by rw [isTails]; rfl, by rw [isTails]; rfl⟩,
          ⟨[], [], by rw [isTails]; rfl, by rw [isTails]; rfl, .nil⟩⟩

/-- Lists of like tokens have the same rules up to places, and like faults. -/
theorem outline_alike_of_forall₂
    {here there : List Token}
    (noneBehind : likeness.behind? = none)
    (allRelated : List.Forall₂ likeness.related here there) :
    (Outline.read here).rules.map Rule.unplaced = (Outline.read there).rules.map Rule.unplaced ∧
      List.Forall₂ likeness.FaultAlike
        (Outline.read here).faults (Outline.read there).faults := by
  have noTails : likeness.tails = ([], []) := by
    rw [tails, noneBehind]
    rfl
  obtain ⟨⟨rules, hereRules, thereRules⟩, ⟨hereFaults, thereFaults, isHere, isThere, alike⟩⟩ :=
    outline_alike (.inl (.of_forall₂ noneBehind allRelated))
  rw [noTails] at hereRules thereRules isHere isThere
  rw [hereRules, thereRules, isHere, isThere]
  simp only [Outline.read, List.append_nil, true_and]
  exact alike

end QtSheet.Likeness
