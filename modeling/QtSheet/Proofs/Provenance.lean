import QtSheet.Proofs.Grammar.Anatomy

namespace QtSheet

/-!
# Where tokens come from

Reading makes no tokens up. The token that a fault blames is one of those read
(`faults_within`), and so are the tokens that the parts of a sheet keep for the
checks (`RulesForm.keptFrom`).
-/

/-- The token that a fault blames, if it blames one, is among some tokens. -/
def Fault.Within (tokens : List Token) (fault : Fault) : Prop :=
  ∀ token ∈ fault.token?, token ∈ tokens

namespace Fault

/-- A fault in front of the end of some tokens is within them. -/
theorem within_of_suffix
    {rest tokens : List Token}
    (isSuffix : rest <:+ tokens)
    (reason : Reason) :
    Within tokens ⟨reason, rest.head?⟩ := by
  intro token isFirst
  exact isSuffix.subset (List.mem_of_mem_head? isFirst)

/-- What is within the end of some tokens is within them. -/
theorem Within.mono
    {rest tokens : List Token}
    {fault : Fault}
    (within : fault.Within rest)
    (isSuffix : rest <:+ tokens) :
    fault.Within tokens :=
  fun token isBlamed => isSuffix.subset (within token isBlamed)

end Fault

/-- The faults of a block are within its tokens. -/
theorem Block.faults_within
    (tokens : List Token)
    {fault : Fault}
    (member : fault ∈ (Block.read tokens).faults) :
    fault.Within tokens := by
  fun_induction Block.read tokens with
  | case1 =>
      obtain rfl := List.mem_singleton.mp member
      intro token isBlamed
      contradiction
  | case2 =>
      contradiction
  | case3 token rest _ _ inductionHypothesis =>
      exact (inductionHypothesis member).mono (List.suffix_cons token rest)
  | case4 token rest _ _ _ declaration after done inductionHypothesis =>
      have left := Declaration.rest_read token rest
      rw [done] at left
      exact (inductionHypothesis member).mono (left.trans (List.suffix_cons token rest))
  | case5 token rest _ _ _ reason after stuck inductionHypothesis =>
      have left := Declaration.rest_read token rest
      rw [stuck] at left
      have isSuffix : after <:+ token :: rest := left.trans (List.suffix_cons token rest)
      rcases List.mem_cons.mp member with rfl | later
      · exact Fault.within_of_suffix isSuffix reason
      · exact (inductionHypothesis later).mono ((suffix_skipDeclaration after).trans isSuffix)
  | case6 token rest _ _ _ inductionHypothesis =>
      rcases List.mem_cons.mp member with rfl | later
      · exact Fault.within_of_suffix List.suffix_rfl .propertyName
      · exact (inductionHypothesis later).mono
          ((suffix_skipDeclaration rest).trans (List.suffix_cons token rest))

/-- The faults of a block and those in front of it are within the tokens of both. -/
theorem RuleReading.faults_readBlock
    {first : Token}
    {chains? : Option (List Chain)}
    {faults : List Fault}
    {rest tokens : List Token}
    (isSuffix : rest <:+ tokens)
    (areWithin : ∀ fault ∈ faults, fault.Within tokens)
    {fault : Fault}
    (member : fault ∈ (readBlock first chains? faults rest).faults) :
    fault.Within tokens := by
  cases rest with
  | nil =>
      exact areWithin fault member
  | cons token behind =>
      rw [readBlock] at member
      split at member
      · rcases List.mem_append.mp member with before | inside
        · exact areWithin fault before
        · exact (Block.faults_within behind inside).mono
            ((List.suffix_cons token behind).trans isSuffix)
      · exact areWithin fault member

/-- The faults of a rule are within its tokens. -/
theorem RuleReading.faults_within
    (first : Token)
    (rest : List Token)
    {fault : Fault}
    (member : fault ∈ (read first rest).faults) :
    fault.Within (first :: rest) := by
  have left := rest_readChains (first :: rest)
  revert member
  fun_cases read first rest with
  | case1 chains after done =>
      intro member
      rw [done] at left
      exact faults_readBlock left (by simp) member
  | case2 reason after stuck =>
      intro member
      rw [stuck] at left
      refine faults_readBlock ((suffix_skipSelector after).trans left) ?_ member
      intro other isOther
      obtain rfl := List.mem_singleton.mp isOther
      exact Fault.within_of_suffix left reason

/-- The faults of a list of tokens are within it. -/
theorem Outline.faults_within
    (tokens : List Token)
    {fault : Fault}
    (member : fault ∈ (Outline.read tokens).faults) :
    fault.Within tokens := by
  fun_induction Outline.read tokens with
  | case1 =>
      contradiction
  | case2 token rest _ inductionHypothesis =>
      rcases List.mem_cons.mp member with rfl | later
      · intro other isFirst
        obtain rfl := Option.some.inj isFirst
        exact List.mem_cons_self
      · exact (inductionHypothesis later).mono (List.suffix_cons token rest)
  | case3 token rest _ reading inductionHypothesis =>
      rcases List.mem_append.mp member with here | later
      · exact RuleReading.faults_within token rest here
      · exact (inductionHypothesis later).mono (RuleReading.rest_read token rest)

/-- A declaration keeps tokens of a list, and the name of its property among them. -/
structure Declaration.KeptFrom (tokens : List Token) (declaration : Declaration) : Prop where
  property : ∃ name ∈ tokens, declaration.propertyToken? = some name
  values : ∀ value ∈ declaration.values, value ∈ tokens

/-- A selector keeps tokens of a list. -/
structure Selector.KeptFrom (tokens : List Token) (selector : Selector) : Prop where
  pseudoStates : ∀ state ∈ selector.pseudoStates, state.token ∈ tokens
  subControl : ∀ name ∈ selector.subControl?, name ∈ tokens

namespace Grammar

/-- A declaration keeps tokens that it is made of. -/
theorem DeclarationForm.keptFrom
    {own tokens : List Token}
    {declaration : Declaration}
    (form : DeclarationForm own declaration)
    (areMembers : own ⊆ tokens) :
    declaration.KeptFrom tokens := by
  cases form with
  | @intro name colon last values importance important _ =>
      refine ⟨⟨name, areMembers (by simp), rfl⟩, ?_⟩
      intro value isValue
      exact areMembers (by simp [show value ∈ values from isValue])

/-- The tokens that a part of a selector keeps are those of its qualifier. -/
theorem QualifierForm.mem_of_part
    {tokens : List Token}
    {part : Part}
    (form : QualifierForm tokens part) :
    (∀ state ∈ part.pseudoState?, state.token ∈ tokens) ∧
      (∀ name ∈ part.subControl?, name ∈ tokens) := by
  cases form <;> simp [Part.pseudoState?, Part.subControl?]

/-- The tokens that a part keeps are among those of the qualifiers. -/
theorem QualifiersForm.mem_of_part
    {tokens : List Token}
    {parts : List Part}
    {part : Part}
    (form : QualifiersForm tokens parts)
    (member : part ∈ parts) :
    (∀ state ∈ part.pseudoState?, state.token ∈ tokens) ∧
      (∀ name ∈ part.subControl?, name ∈ tokens) := by
  induction form with
  | nil =>
      contradiction
  | cons qualifier _ inductionHypothesis =>
      rcases List.mem_cons.mp member with rfl | later
      · obtain ⟨states, names⟩ := qualifier.mem_of_part
        exact ⟨fun state isState => List.mem_append_left _ (states state isState),
          fun name isName => List.mem_append_left _ (names name isName)⟩
      · obtain ⟨states, names⟩ := inductionHypothesis later
        exact ⟨fun state isState => List.mem_append_right _ (states state isState),
          fun name isName => List.mem_append_right _ (names name isName)⟩

/-- A selector keeps tokens that it is made of. -/
theorem SelectorForm.keptFrom
    {own tokens : List Token}
    {selector : Selector}
    (form : SelectorForm own (alone selector))
    (areMembers : own ⊆ tokens) :
    selector.KeptFrom tokens := by
  generalize isAlone : alone selector = bare at form
  cases form with
  | @intro type? qualifiers parts first last _ qualifiersForm _ _ _ _ =>
      have sameStates : selector.pseudoStates = parts.filterMap Part.pseudoState? :=
        congrArg Selector.pseudoStates isAlone
      have sameControl : selector.subControl? = (parts.filterMap Part.subControl?).head? :=
        congrArg Selector.subControl? isAlone
      constructor
      · intro state isState
        rw [sameStates] at isState
        obtain ⟨part, isPart, isKept⟩ := List.mem_filterMap.mp isState
        have isToken := (qualifiersForm.mem_of_part isPart).1 state isKept
        exact areMembers (List.mem_append_right _ isToken)
      · intro name isName
        rw [sameControl] at isName
        obtain ⟨part, isPart, isKept⟩ := List.mem_filterMap.mp (List.mem_of_mem_head? isName)
        have isToken := (qualifiersForm.mem_of_part isPart).2 name isKept
        exact areMembers (List.mem_append_right _ isToken)

/-- The declarations and selectors of a sheet keep tokens of the sheet. -/
theorem RulesForm.keptFrom
    {tokens : List Token}
    {rules : List Rule}
    (form : RulesForm tokens rules) :
    (∀ declaration ∈ (Sheet.mk rules).declarations, declaration.KeptFrom tokens) ∧
      (∀ selector ∈ (Sheet.mk rules).selectors, selector.KeptFrom tokens) := by
  constructor
  · intro declaration isDeclaration
    obtain ⟨rule, isRule, inRule⟩ := List.mem_flatMap.mp isDeclaration
    obtain ⟨before, own, behind, _, rfl, _, ownForm⟩ := form.exists_rule isRule
    obtain ⟨_, _, _, blockForm, _⟩ := ownForm
    obtain ⟨_, mine, _, rfl, declarationForm⟩ := blockForm.exists_declaration inRule
    exact declarationForm.keptFrom (by intro token isMine; simp [isMine])
  · intro selector isSelector
    obtain ⟨rule, isRule, inRule⟩ := List.mem_flatMap.mp isSelector
    obtain ⟨before, own, behind, _, rfl, _, ownForm⟩ := form.exists_rule isRule
    obtain ⟨groupForm, _, _, _, _⟩ := ownForm
    obtain ⟨_, mine, _, rfl, selectorForm⟩ := groupForm.exists_selector inRule
    exact selectorForm.keptFrom (by intro token isMine; simp [isMine])

end Grammar

end QtSheet
