import QtSheet.Proofs.Grammar.Sheet

namespace QtSheet.Grammar

/-!
# Parts of a sheet and their tokens

The rules, selectors and declarations of a sheet have tokens of their own among
the tokens of the sheet, and these form the part by themselves. Braces stand
only around the blocks of rules, and combinators only between selectors.
-/

/-- A rule of a sheet has tokens of its own, behind the tokens of whole rules. -/
theorem RulesForm.exists_rule
    {tokens : List Token}
    {rules : List Rule}
    {rule : Rule}
    (form : RulesForm tokens rules)
    (member : rule ∈ rules) :
    ∃ before own behind earlier,
      tokens = before ++ (own ++ behind) ∧
        RulesForm before earlier ∧
        RuleForm own rule := by
  induction form with
  | nil =>
      contradiction
  | @cons tokens rest first rules firstForm _ inductionHypothesis =>
      rcases List.mem_cons.mp member with rfl | later
      · exact ⟨[], tokens, rest, [], rfl, .nil, firstForm⟩
      · obtain ⟨before, own, behind, earlier, rfl, beforeForm, ownForm⟩ :=
          inductionHypothesis later
        exact ⟨tokens ++ before, own, behind, first :: earlier, by simp,
          .cons firstForm beforeForm, ownForm⟩

/-- A declaration of a block has tokens of its own. -/
theorem BlockForm.exists_declaration
    {tokens : List Token}
    {declarations : List Declaration}
    {declaration : Declaration}
    (form : BlockForm tokens declarations)
    (member : declaration ∈ declarations) :
    ∃ before own behind,
      tokens = before ++ (own ++ behind) ∧ DeclarationForm own declaration := by
  induction form with
  | nil =>
      contradiction
  | @last tokens only onlyForm =>
      obtain rfl := List.mem_singleton.mp member
      exact ⟨[], tokens, [], by simp, onlyForm⟩
  | @semicolon semicolon rest declarations _ _ inductionHypothesis =>
      obtain ⟨before, own, behind, rfl, ownForm⟩ := inductionHypothesis member
      exact ⟨semicolon :: before, own, behind, rfl, ownForm⟩
  | @cons tokens rest first semicolon declarations firstForm _ _ inductionHypothesis =>
      rcases List.mem_cons.mp member with rfl | later
      · exact ⟨[], tokens, semicolon :: rest, rfl, firstForm⟩
      · obtain ⟨before, own, behind, rfl, ownForm⟩ := inductionHypothesis later
        exact ⟨tokens ++ semicolon :: before, own, behind, by simp, ownForm⟩

/-- A selector by itself, not related to a next one. -/
def alone (selector : Selector) : Selector :=
  { selector with combinator? := none }

/-- What forms a selector forms it by itself. -/
theorem SelectorForm.alone_eq
    {tokens : List Token}
    {selector : Selector}
    (form : SelectorForm tokens selector) :
    alone selector = selector := by
  cases form
  rfl

/-- A selector of a chain has tokens of its own. -/
theorem ChainForm.exists_selector
    {tokens : List Token}
    {chain : Chain}
    {selector : Selector}
    (form : ChainForm tokens chain)
    (member : selector ∈ chain) :
    ∃ before own behind,
      tokens = before ++ (own ++ behind) ∧ SelectorForm own (alone selector) := by
  induction form with
  | @last tokens only onlyForm =>
      obtain rfl := List.mem_singleton.mp member
      refine ⟨[], tokens, [], by simp, ?_⟩
      rw [onlyForm.alone_eq]
      exact onlyForm
  | @combined tokens rest first sign chain firstForm _ _ inductionHypothesis =>
      rcases List.mem_cons.mp member with rfl | later
      · refine ⟨[], tokens, sign :: rest, rfl, ?_⟩
        rw [← firstForm.alone_eq] at firstForm
        exact firstForm
      · obtain ⟨before, own, behind, rfl, ownForm⟩ := inductionHypothesis later
        exact ⟨tokens ++ sign :: before, own, behind, by simp, ownForm⟩
  | @direct tokens rest first type chain firstForm _ _ inductionHypothesis =>
      rcases List.mem_cons.mp member with rfl | later
      · refine ⟨[], tokens, type :: rest, rfl, ?_⟩
        rw [← firstForm.alone_eq] at firstForm
        exact firstForm
      · obtain ⟨before, own, behind, shape, ownForm⟩ := inductionHypothesis later
        exact ⟨tokens ++ before, own, behind, by rw [shape, List.append_assoc], ownForm⟩

/-- A selector of a group of chains has tokens of its own. -/
theorem ChainsForm.exists_selector
    {tokens : List Token}
    {chains : List Chain}
    {selector : Selector}
    (form : ChainsForm tokens chains)
    (member : selector ∈ chains.flatten) :
    ∃ before own behind,
      tokens = before ++ (own ++ behind) ∧ SelectorForm own (alone selector) := by
  induction form with
  | @last tokens chain chainForm =>
      rw [List.flatten_singleton] at member
      exact chainForm.exists_selector member
  | @cons tokens rest chain comma chains chainForm _ _ inductionHypothesis =>
      rw [List.flatten_cons] at member
      rcases List.mem_append.mp member with here | later
      · obtain ⟨before, own, behind, rfl, ownForm⟩ := chainForm.exists_selector here
        exact ⟨before, own, behind ++ comma :: rest, by simp, ownForm⟩
      · obtain ⟨before, own, behind, rfl, ownForm⟩ := inductionHypothesis later
        exact ⟨tokens ++ comma :: before, own, behind, by simp, ownForm⟩

/-- No token is of one of some kinds. -/
def Avoids (kinds : List Kind) (tokens : List Token) : Prop :=
  ∀ token ∈ tokens, token.kind ∉ kinds

/-- The kinds of the tokens around a block. -/
def braces : List Kind :=
  [.openBrace, .closeBrace]

section Kinds

variable {kinds : List Kind}

@[simp] theorem avoids_nil :
    Avoids kinds [] := by
  simp [Avoids]

@[simp] theorem avoids_cons
    {token : Token}
    {rest : List Token} :
    Avoids kinds (token :: rest) ↔ token.kind ∉ kinds ∧ Avoids kinds rest :=
  List.forall_mem_cons

@[simp] theorem avoids_append
    {front back : List Token} :
    Avoids kinds (front ++ back) ↔ Avoids kinds front ∧ Avoids kinds back :=
  List.forall_mem_append

/-- Tokens that avoid kinds avoid fewer of them. -/
theorem Avoids.of_cons
    {kind : Kind}
    {tokens : List Token}
    (avoids : Avoids (kind :: kinds) tokens) :
    Avoids kinds tokens :=
  fun token member isKind => avoids token member (List.mem_cons_of_mem kind isKind)

/-- Tokens of some kinds avoid all others. -/
theorem Avoids.of_kind_mem
    {own : List Kind}
    {tokens : List Token}
    (areOwn : ∀ token ∈ tokens, token.kind ∈ own)
    (apart : ∀ kind ∈ own, kind ∉ kinds) :
    Avoids kinds tokens :=
  fun token member => apart token.kind (areOwn token member)

end Kinds

/-- The kinds of the tokens of a selector. -/
def selectorKinds : List Kind :=
  [.identifier, .star, .hash, .dot, .colon, .doubleColon, .exclamation, .openBracket,
    .attributeOperator, .string, .closeBracket]

/-- The kinds of the tokens in front of a block. -/
def groupKinds : List Kind :=
  .comma :: .combinator :: selectorKinds

/-- The tokens of a qualifier are of the kinds that selectors are made of. -/
theorem QualifierForm.kind_mem
    {tokens : List Token}
    {part : Part}
    (form : QualifierForm tokens part) :
    ∀ token ∈ tokens, token.kind ∈ selectorKinds := by
  cases form <;> simp [selectorKinds, *]

theorem QualifiersForm.kind_mem
    {tokens : List Token}
    {parts : List Part}
    (form : QualifiersForm tokens parts) :
    ∀ token ∈ tokens, token.kind ∈ selectorKinds := by
  induction form with
  | nil =>
      simp
  | cons qualifier _ inductionHypothesis =>
      exact List.forall_mem_append.mpr ⟨qualifier.kind_mem, inductionHypothesis⟩

theorem SelectorForm.kind_mem
    {tokens : List Token}
    {selector : Selector}
    (form : SelectorForm tokens selector) :
    ∀ token ∈ tokens, token.kind ∈ selectorKinds := by
  cases form with
  | @intro type? qualifiers parts first last areTypes qualifiersForm _ _ _ _ =>
      refine List.forall_mem_append.mpr ⟨?_, qualifiersForm.kind_mem⟩
      intro type member
      rcases areTypes type (Option.mem_toList.mp member) with isName | isStar
      · simp [isName, selectorKinds]
      · simp [isStar, selectorKinds]

/-- There are no combinators and no braces in a selector. -/
theorem SelectorForm.avoids
    {tokens : List Token}
    {selector : Selector}
    (form : SelectorForm tokens selector) :
    Avoids (.combinator :: braces) tokens :=
  .of_kind_mem form.kind_mem (by decide)

private theorem SelectorForm.kind_mem_groupKinds
    {tokens : List Token}
    {selector : Selector}
    (form : SelectorForm tokens selector)
    {token : Token}
    (member : token ∈ tokens) :
    token.kind ∈ groupKinds :=
  List.mem_cons_of_mem _ (List.mem_cons_of_mem _ (form.kind_mem token member))

theorem ChainForm.kind_mem
    {tokens : List Token}
    {chain : Chain}
    (form : ChainForm tokens chain) :
    ∀ token ∈ tokens, token.kind ∈ groupKinds := by
  induction form with
  | last selectorForm =>
      exact fun _ => selectorForm.kind_mem_groupKinds
  | combined selectorForm isSign _ inductionHypothesis =>
      refine List.forall_mem_append.mpr
        ⟨fun _ => selectorForm.kind_mem_groupKinds,
          List.forall_mem_cons.mpr ⟨?_, inductionHypothesis⟩⟩
      rw [isSign]
      decide
  | direct selectorForm _ _ inductionHypothesis =>
      exact List.forall_mem_append.mpr
        ⟨fun _ => selectorForm.kind_mem_groupKinds, inductionHypothesis⟩

theorem ChainsForm.kind_mem
    {tokens : List Token}
    {chains : List Chain}
    (form : ChainsForm tokens chains) :
    ∀ token ∈ tokens, token.kind ∈ groupKinds := by
  induction form with
  | last chainForm =>
      exact chainForm.kind_mem
  | cons chainForm isComma _ inductionHypothesis =>
      refine List.forall_mem_append.mpr
        ⟨chainForm.kind_mem, List.forall_mem_cons.mpr ⟨?_, inductionHypothesis⟩⟩
      rw [isComma]
      decide

/-- There are no braces in front of a block. -/
theorem ChainsForm.avoids
    {tokens : List Token}
    {chains : List Chain}
    (form : ChainsForm tokens chains) :
    Avoids braces tokens :=
  .of_kind_mem form.kind_mem (by decide)

/-- A value is neither a combinator nor a brace. -/
private theorem not_mem_of_isValue
    {kind : Kind}
    (isValue : kind.isValue = true) :
    kind ∉ .combinator :: braces := by
  cases kind <;> first | contradiction | simp [braces]

/-- There are neither combinators nor braces among values. -/
theorem ValuesForm.avoids
    {tokens : List Token}
    (form : ValuesForm tokens) :
    Avoids (.combinator :: braces) tokens := by
  induction form with
  | last isValue =>
      exact avoids_cons.mpr ⟨not_mem_of_isValue isValue, avoids_nil⟩
  | next isValue _ inductionHypothesis =>
      exact avoids_cons.mpr ⟨not_mem_of_isValue isValue, inductionHypothesis⟩
  | separated isValue isSeparator _ inductionHypothesis =>
      refine avoids_cons.mpr ⟨not_mem_of_isValue isValue, avoids_cons.mpr ⟨?_, inductionHypothesis⟩⟩
      rcases isSeparator with isComma | isSlash
      · simp [isComma, braces]
      · simp [isSlash, braces]

/-- There are no combinators and no braces in a declaration. -/
theorem DeclarationForm.avoids
    {tokens : List Token}
    {declaration : Declaration}
    (form : DeclarationForm tokens declaration) :
    Avoids (.combinator :: braces) tokens := by
  obtain ⟨isName, isColon, valuesForm, importanceForm, _⟩ := form
  refine avoids_cons.mpr ⟨?_, avoids_cons.mpr ⟨?_, avoids_append.mpr ⟨valuesForm.avoids, ?_⟩⟩⟩
  · rw [isName]
    decide
  · rw [isColon]
    decide
  · cases importanceForm with
    | absent =>
        exact avoids_nil
    | present isMark isWord _ =>
        simp [isMark, isWord, braces]

/-- There are no braces inside of a block. -/
theorem BlockForm.avoids
    {tokens : List Token}
    {declarations : List Declaration}
    (form : BlockForm tokens declarations) :
    Avoids braces tokens := by
  induction form with
  | nil =>
      exact avoids_nil
  | last declarationForm =>
      exact declarationForm.avoids.of_cons
  | semicolon isSemicolon _ inductionHypothesis =>
      refine avoids_cons.mpr ⟨?_, inductionHypothesis⟩
      rw [isSemicolon]
      decide
  | cons declarationForm isSemicolon _ inductionHypothesis =>
      refine avoids_append.mpr
        ⟨declarationForm.avoids.of_cons, avoids_cons.mpr ⟨?_, inductionHypothesis⟩⟩
      rw [isSemicolon]
      decide

end QtSheet.Grammar
