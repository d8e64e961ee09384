import Mathlib.Data.List.Pairwise
import QtSheet.Check
import QtSheet.Proofs.Grammar.Anatomy
import QtSheet.Proofs.Span
import QtSheet.Proofs.Value.Token

namespace QtSheet

/-!
# What checks look at

A check goes through the names or the values of a sheet, one after another. Each
of these subjects has tokens of its own, and the tokens of all subjects stand
among those of the sheet without overlapping, whichever check looks at them
(`RulesForm.arranged`). Whether a subject is at fault is said here without
regard to the checks; a check finds something about just those that are
(`Subject.isSome_finding?`).
-/

/-- What a check looks at: one name or one value of a sheet. -/
inductive Subject where
  | property (declaration : Declaration)
  | value (declaration : Declaration)
  | pseudoState (selector : Selector) (state : PseudoState)
  | subControl (selector : Selector) (name : Token)
  deriving Repr, DecidableEq

namespace Subject

/-- The check that looks at a subject. -/
def check : Subject → Check
  | .property _ => .knownProperties
  | .value _ => .propertyValues
  | .pseudoState _ _ => .pseudoStates
  | .subControl _ _ => .subControls

/-- The tokens of a subject. -/
def tokens : Subject → List Token
  | .property declaration => declaration.propertyToken?.toList
  | .value declaration => declaration.values
  | .pseudoState _ state => [state.token]
  | .subControl _ name => [name]

/-- What is wrong with a subject that is at fault. -/
def message : Subject → String
  | .property declaration => "unknown property: " ++ declaration.property
  | .value declaration => "malformed value for property: " ++ declaration.property
  | .pseudoState _ state => "unknown pseudo-state: " ++ state.name
  | .subControl _ name => "unknown sub-control: " ++ name.text

/--
A subject is at fault: a property without a shape, a value without the shape of
its property, a state of no widget, or a part that widgets of the class do not
have. Of all names only that of the class is taken as it is written, in its case.
-/
def IsFaulty : Subject → Prop
  | .property declaration => Property.shape? declaration.property = none
  | .value declaration =>
      ∃ shape,
        Property.shape? declaration.property = some shape ∧
          shape.fits declaration.values = false
  | .pseudoState _ state => Text.lowercase state.name ∉ Widget.pseudoStates
  | .subControl selector name =>
      Text.lowercase name.text ∉ Widget.subControlsOf selector.typeName?

/-- A finding says what is wrong with a subject, and stands at its tokens. -/
structure IsDescribedBy (subject : Subject) (diagnostic : Diagnostic) : Prop where
  severity : diagnostic.severity = .semantic
  message : diagnostic.message = subject.message
  text : diagnostic.text = Token.joined subject.tokens
  first :
    ∃ first, subject.tokens.head? = some first ∧
      diagnostic.start = first.start ∧
      diagnostic.line = first.line ∧
      diagnostic.column = first.column
  last : ∃ last, subject.tokens.getLast? = some last ∧ diagnostic.stop = last.stop

/-- What is found about a subject. -/
def finding? : Subject → Option Diagnostic
  | .property declaration => Check.unknownProperty? declaration
  | .value declaration => Check.malformedValue? declaration
  | .pseudoState selector state => Check.unknownPseudoState? selector.typeName? state
  | .subControl selector name => Check.unknownSubControl? selector.typeName? name

/-- A finding at a token describes a subject that has no other one. -/
theorem isDescribedBy_ofToken
    {subject : Subject}
    {token : Token}
    (isToken : subject.tokens = [token]) :
    subject.IsDescribedBy (.ofToken .semantic subject.message token) := by
  refine ⟨rfl, rfl, ?_, ⟨token, ?_, rfl, rfl, rfl⟩, ⟨token, ?_, rfl⟩⟩
  · rw [isToken]
    exact String.toList_inj.mp (Value.toList_joined_singleton token).symm
  · rw [isToken]
    rfl
  · rw [isToken]
    rfl

/-- Something is found about a subject that has tokens just when it is at fault. -/
theorem isSome_finding?
    {subject : Subject}
    (hasTokens : subject.tokens ≠ []) :
    subject.finding?.isSome = true ↔ subject.IsFaulty := by
  rw [Option.isSome_iff_exists]
  cases subject with
  | property declaration =>
      simp [finding?, Check.unknownProperty?_eq_some, IsFaulty]
  | value declaration =>
      obtain ⟨first, isFirst⟩ :=
        Option.ne_none_iff_exists'.mp (mt List.head?_eq_none_iff.mp hasTokens)
      obtain ⟨last, isLast⟩ :=
        Option.ne_none_iff_exists'.mp (mt List.getLast?_eq_none_iff.mp hasTokens)
      rw [tokens] at isFirst isLast
      simp [finding?, Check.malformedValue?_eq_some, IsFaulty, isFirst, isLast]
  | pseudoState selector state =>
      simp [finding?, Check.unknownPseudoState?_eq_some, IsFaulty]
  | subControl selector name =>
      simp [finding?, Check.unknownSubControl?_eq_some, IsFaulty]

/-- What is found about a subject that has tokens describes it. -/
theorem isDescribedBy_of_finding?
    {subject : Subject}
    {diagnostic : Diagnostic}
    (hasTokens : subject.tokens ≠ [])
    (isFound : subject.finding? = some diagnostic) :
    subject.IsDescribedBy diagnostic := by
  cases subject with
  | property declaration =>
      obtain ⟨name, isName⟩ : ∃ name, declaration.propertyToken? = some name := by
        simpa [tokens, Option.toList_eq_nil_iff, Option.ne_none_iff_exists'] using hasTokens
      rw [finding?] at isFound
      obtain ⟨_, rfl⟩ := Check.unknownProperty?_eq_some.mp isFound
      simp only [Check.propertyExcerpt, isName]
      exact isDescribedBy_ofToken (by rw [tokens, isName]; rfl)
  | value declaration =>
      rw [finding?] at isFound
      obtain ⟨_, first, last, _, _, isFirst, isLast, rfl⟩ :=
        Check.malformedValue?_eq_some.mp isFound
      refine ⟨rfl, rfl, rfl, ⟨first, isFirst, rfl, rfl, rfl⟩, ⟨last, isLast, ?_⟩⟩
      simp only [Excerpt.stop, Check.valueExcerpt]
      omega
  | pseudoState selector state =>
      rw [finding?] at isFound
      obtain ⟨_, rfl⟩ := Check.unknownPseudoState?_eq_some.mp isFound
      exact isDescribedBy_ofToken rfl
  | subControl selector name =>
      rw [finding?] at isFound
      obtain ⟨_, rfl⟩ := Check.unknownSubControl?_eq_some.mp isFound
      exact isDescribedBy_ofToken rfl

/-- The tokens of one subject stand before those of another. -/
def Precedes (first second : Subject) : Prop :=
  ∀ token ∈ first.tokens, ∀ other ∈ second.tokens, token.Precedes other.toExcerpt

/-- Findings about subjects stand in the order of the subjects. -/
theorem Precedes.findings
    {first second : Subject}
    {diagnostic other : Diagnostic}
    (precedes : first.Precedes second)
    (isFirst : first.IsDescribedBy diagnostic)
    (isSecond : second.IsDescribedBy other) :
    diagnostic.Precedes other.toExcerpt := by
  obtain ⟨start, isStart, sameStart, _⟩ := isFirst.first
  obtain ⟨stop, isStop, sameStop⟩ := isFirst.last
  obtain ⟨next, isNext, sameNext, _⟩ := isSecond.first
  have inSecond := List.mem_of_mem_head? isNext
  rw [Excerpt.Precedes, sameStart, sameStop, sameNext]
  exact ⟨(precedes start (List.mem_of_mem_head? isStart) next inSecond).1,
    (precedes stop (List.mem_of_mem_getLast? isStop) next inSecond).2⟩

end Subject

/-- The subjects of a selector that a check looks at. -/
def Selector.subjects (selector : Selector) : Check → List Subject
  | .knownProperties | .propertyValues => []
  | .pseudoStates => selector.pseudoStates.map (.pseudoState selector)
  | .subControls => selector.subControl?.toList.map (.subControl selector)

/-- The subject of a declaration that a check looks at. -/
def Declaration.subjects (declaration : Declaration) : Check → List Subject
  | .knownProperties => [.property declaration]
  | .propertyValues => [.value declaration]
  | .pseudoStates | .subControls => []

/-- The subjects of a rule that a check looks at. -/
def Rule.subjects (rule : Rule) (check : Check) : List Subject :=
  (rule.chains.flatten.flatMap fun selector => selector.subjects check) ++
    rule.declarations.flatMap fun declaration => declaration.subjects check

section Rule

variable (rule : Rule)

/-- The names of properties are checked once in each declaration. -/
theorem Rule.subjects_knownProperties :
    rule.subjects .knownProperties = rule.declarations.map .property := by
  simp [subjects, Selector.subjects, Declaration.subjects, List.map_eq_flatMap]

/-- The values of properties are checked once in each declaration. -/
theorem Rule.subjects_propertyValues :
    rule.subjects .propertyValues = rule.declarations.map .value := by
  simp [subjects, Selector.subjects, Declaration.subjects, List.map_eq_flatMap]

/-- The pseudo-states of each selector are checked in their order. -/
theorem Rule.subjects_pseudoStates :
    rule.subjects .pseudoStates =
      rule.chains.flatten.flatMap fun selector =>
        selector.pseudoStates.map (.pseudoState selector) := by
  simp [subjects, Selector.subjects, Declaration.subjects]

/-- The sub-control of each selector is checked, if it has one. -/
theorem Rule.subjects_subControls :
    rule.subjects .subControls =
      rule.chains.flatten.flatMap fun selector =>
        selector.subControl?.toList.map (.subControl selector) := by
  simp [subjects, Selector.subjects, Declaration.subjects]

end Rule

theorem Check.mem_all (check : Check) :
    check ∈ all := by
  cases check <;> decide

/-- A check finds what there is to find about the subjects that it looks at. -/
theorem Check.run_eq (sheet : Sheet) (check : Check) :
    check.run sheet =
      (sheet.rules.flatMap fun rule => rule.subjects check).filterMap Subject.finding? := by
  cases check with
  | knownProperties =>
      simp only [run, Sheet.declarations, Rule.subjects_knownProperties, List.filterMap_flatMap,
        List.filterMap_map, Function.comp_def, Subject.finding?]
  | propertyValues =>
      simp only [run, Sheet.declarations, Rule.subjects_propertyValues, List.filterMap_flatMap,
        List.filterMap_map, Function.comp_def, Subject.finding?]
  | pseudoStates =>
      simp only [run, Sheet.selectors, Rule.subjects_pseudoStates, List.filterMap_flatMap,
        List.filterMap_map, List.flatMap_assoc, Function.comp_def, Subject.finding?]
  | subControls =>
      simp only [run, Sheet.selectors, Rule.subjects_subControls, List.filterMap_flatMap,
        List.filterMap_map]
      refine List.flatMap_congr fun rule _ => ?_
      rw [List.filterMap_eq_flatMap_toList]
      refine List.flatMap_congr fun selector _ => ?_
      cases selector.subControl? with
      | none =>
          rfl
      | some name =>
          rw [Option.toList_some, List.filterMap_eq_flatMap_toList, List.flatMap_singleton]
          rfl

/--
Some subjects stand among tokens in an order, each with tokens of its own. For
each check, those of them that it looks at are given in this order.
-/
def Arranged (tokens : List Token) (subjects : Check → List Subject) : Prop :=
  ∃ inOrder : List Subject,
    (inOrder.flatMap Subject.tokens).Sublist tokens ∧
      (∀ subject ∈ inOrder, subject.tokens ≠ []) ∧
      ∀ check, subjects check = inOrder.filter fun subject => subject.check = check

namespace Arranged

/-- Where no check looks at anything, nothing is to be arranged. -/
theorem nil
    {subjects : Check → List Subject}
    (tokens : List Token)
    (areNone : ∀ check, subjects check = []) :
    Arranged tokens subjects :=
  ⟨[], List.nil_sublist tokens, by simp, areNone⟩

/-- One subject stands among the tokens that its own are a part of. -/
theorem single
    {tokens : List Token}
    {subjects : Check → List Subject}
    (subject : Subject)
    (isOnly : ∀ check, subjects check = if subject.check = check then [subject] else [])
    (hasTokens : subject.tokens ≠ [])
    (isPart : subject.tokens.Sublist tokens) :
    Arranged tokens subjects := by
  refine ⟨[subject], ?_, ?_, ?_⟩
  · rw [List.flatMap_singleton]
    exact isPart
  · intro other isOther
    rw [List.mem_singleton.mp isOther]
    exact hasTokens
  · intro check
    rw [isOnly]
    by_cases isCheck : subject.check = check <;> simp [isCheck]

/-- Arranged subjects stay arranged behind each other. -/
theorem append
    {front back : List Token}
    {subjects others : Check → List Subject}
    (frontArranged : Arranged front subjects)
    (backArranged : Arranged back others) :
    Arranged (front ++ back) fun check => subjects check ++ others check := by
  obtain ⟨inFront, frontSublist, frontTokens, areFront⟩ := frontArranged
  obtain ⟨inBack, backSublist, backTokens, areBack⟩ := backArranged
  refine ⟨inFront ++ inBack, ?_, List.forall_mem_append.mpr ⟨frontTokens, backTokens⟩, ?_⟩
  · rw [List.flatMap_append]
    exact frontSublist.append backSublist
  · intro check
    simp only [areFront, areBack, List.filter_append]

/-- One more token in front changes nothing. -/
theorem skip
    {rest : List Token}
    {subjects : Check → List Subject}
    (arranged : Arranged rest subjects)
    (token : Token) :
    Arranged (token :: rest) subjects :=
  (nil [token] fun _ => rfl).append arranged

section

variable {tokens : List Token} {subjects : Check → List Subject}

/-- The subjects that a check looks at have tokens, and no other check looks at them. -/
theorem of_mem
    {check : Check}
    {subject : Subject}
    (arranged : Arranged tokens subjects)
    (member : subject ∈ subjects check) :
    subject.tokens ≠ [] ∧ subject.check = check := by
  obtain ⟨inOrder, _, haveTokens, areSubjects⟩ := arranged
  rw [areSubjects] at member
  obtain ⟨isAny, isOwn⟩ := List.mem_filter.mp member
  exact ⟨haveTokens subject isAny, of_decide_eq_true isOwn⟩

/--
When the tokens follow one another, so do the subjects of each check, and any two
subjects of all checks stand one before the other.
-/
theorem pairwise
    (arranged : Arranged tokens subjects)
    (successive : Successive tokens) :
    (Check.all.flatMap subjects).Pairwise fun first second =>
      (first.check = second.check → first.Precedes second) ∧
        (first.Precedes second ∨ second.Precedes first) := by
  have ⟨inOrder, isPart, _, areSubjects⟩ := arranged
  have ordered : inOrder.Pairwise Subject.Precedes :=
    (List.pairwise_flatMap.mp (successive.sublist isPart)).2
  refine List.pairwise_flatMap.mpr ⟨?_, ?_⟩
  · intro check _
    rw [areSubjects]
    exact (ordered.filter _).imp fun precedes => ⟨fun _ => precedes, .inl precedes⟩
  · have distinct : Check.all.Pairwise (· ≠ ·) := by decide
    refine distinct.imp ?_
    intro check other differ first isFirst second isSecond
    have isCheck := (arranged.of_mem isFirst).2
    have isOther := (arranged.of_mem isSecond).2
    rw [areSubjects] at isFirst isSecond
    have apart : first.check ≠ second.check := by
      rw [isCheck, isOther]
      exact differ
    refine ⟨fun same => absurd same apart, ?_⟩
    -- Subjects of different checks are different, so one of them comes first in the order.
    have either : inOrder.Pairwise fun first second =>
        first.Precedes second ∨ second.Precedes first := ordered.imp .inl
    have : Std.Symm fun first second : Subject =>
        first.Precedes second ∨ second.Precedes first := ⟨fun _ _ => Or.symm⟩
    refine either.forall (List.mem_of_mem_filter isFirst) (List.mem_of_mem_filter isSecond) ?_
    exact fun same => apart (congrArg Subject.check same)

end

end Arranged

namespace Grammar

/-- The subject that a part of a selector is, if a check looks at it. -/
def Part.subjects (selector : Selector) (part : Part) : Check → List Subject
  | .knownProperties | .propertyValues => []
  | .pseudoStates => part.pseudoState?.toList.map (.pseudoState selector)
  | .subControls => part.subControl?.toList.map (.subControl selector)

/-- The subjects of a qualifier are arranged in its tokens. -/
theorem QualifierForm.arranged
    {tokens : List Token}
    {part : Part}
    (form : QualifierForm tokens part)
    (selector : Selector) :
    Arranged tokens (part.subjects selector) := by
  cases form with
  | @pseudoState _ name _ _ _ =>
      refine .single (.pseudoState selector ⟨name.text, false, name⟩) ?_ ?_ ?_
      · intro check
        cases check <;> rfl
      · simp [Subject.tokens]
      · simp [Subject.tokens]
  | @negatedPseudoState _ _ name _ _ _ _ _ =>
      refine .single (.pseudoState selector ⟨name.text, true, name⟩) ?_ ?_ ?_
      · intro check
        cases check <;> rfl
      · simp [Subject.tokens]
      · simp [Subject.tokens]
  | @subControl _ name _ _ _ =>
      refine .single (.subControl selector name) ?_ ?_ ?_
      · intro check
        cases check <;> rfl
      · simp [Subject.tokens]
      · simp [Subject.tokens]
  | _ =>
      refine .nil _ ?_
      intro check
      cases check <;> rfl

/-- The subjects of qualifiers are arranged in their tokens. -/
theorem QualifiersForm.arranged
    {tokens : List Token}
    {parts : List Part}
    (form : QualifiersForm tokens parts)
    (selector : Selector) :
    Arranged tokens fun check => parts.flatMap fun part => part.subjects selector check := by
  induction form with
  | nil =>
      exact .nil [] fun _ => rfl
  | cons qualifier _ inductionHypothesis =>
      exact (qualifier.arranged selector).append inductionHypothesis

theorem SelectorForm.arranged
    {tokens : List Token}
    {selector : Selector}
    (form : SelectorForm tokens (alone selector)) :
    Arranged tokens selector.subjects := by
  generalize isAlone : alone selector = bare at form
  cases form with
  | @intro type? qualifiers parts first last _ qualifiersForm _ oneControl _ _ =>
      have areStates : selector.pseudoStates = parts.filterMap Part.pseudoState? :=
        congrArg Selector.pseudoStates isAlone
      have isControl : selector.subControl? = (parts.filterMap Part.subControl?).head? :=
        congrArg Selector.subControl? isAlone
      have areControls : selector.subControl?.toList = parts.filterMap Part.subControl? := by
        rw [isControl]
        generalize parts.filterMap Part.subControl? = names at oneControl
        rcases names with _ | ⟨name, _ | ⟨other, rest⟩⟩
        · rfl
        · rfl
        · simp at oneControl
      have areSubjects :
          selector.subjects = fun check =>
            parts.flatMap fun part => part.subjects selector check := by
        funext check
        cases check with
        | knownProperties =>
            simp [Selector.subjects, Part.subjects]
        | propertyValues =>
            simp [Selector.subjects, Part.subjects]
        | pseudoStates =>
            simp only [Selector.subjects, Part.subjects, areStates,
              List.filterMap_eq_flatMap_toList, List.map_flatMap]
        | subControls =>
            simp only [Selector.subjects, Part.subjects, areControls,
              List.filterMap_eq_flatMap_toList, List.map_flatMap]
      rw [areSubjects]
      exact (Arranged.nil type?.toList fun _ => rfl).append (qualifiersForm.arranged selector)

theorem ChainForm.arranged
    {tokens : List Token}
    {chain : Chain}
    (form : ChainForm tokens chain) :
    Arranged tokens fun check => chain.flatMap fun selector => selector.subjects check := by
  induction form with
  | last selectorForm =>
      rw [← selectorForm.alone_eq] at selectorForm
      simp only [List.flatMap_singleton]
      exact selectorForm.arranged
  | combined selectorForm _ _ inductionHypothesis =>
      rw [← selectorForm.alone_eq] at selectorForm
      refine Arranged.append (SelectorForm.arranged ?_) (inductionHypothesis.skip _)
      exact selectorForm
  | direct selectorForm _ _ inductionHypothesis =>
      rw [← selectorForm.alone_eq] at selectorForm
      refine Arranged.append (SelectorForm.arranged ?_) inductionHypothesis
      exact selectorForm

/-- The subjects of the chains of a rule are arranged in their tokens. -/
theorem ChainsForm.arranged
    {tokens : List Token}
    {chains : List Chain}
    (form : ChainsForm tokens chains) :
    Arranged tokens fun check =>
      chains.flatten.flatMap fun selector => selector.subjects check := by
  induction form with
  | last chainForm =>
      simp only [List.flatten_singleton]
      exact chainForm.arranged
  | cons chainForm _ _ inductionHypothesis =>
      simp only [List.flatten_cons, List.flatMap_append]
      exact chainForm.arranged.append (inductionHypothesis.skip _)

theorem DeclarationForm.arranged
    {tokens : List Token}
    {declaration : Declaration}
    (form : DeclarationForm tokens declaration) :
    Arranged tokens declaration.subjects := by
  cases form with
  | @intro name colon last values importance important _ _ valuesForm _ _ =>
      generalize isDeclaration : (⟨name.text, values, _, _, _, _⟩ : Declaration) = declaration
      -- The name is a subject in front of the colon, and the value is one behind it.
      have isName : declaration.propertyToken? = some name := by rw [← isDeclaration]
      have areValues : declaration.values = values := by rw [← isDeclaration]
      have ofProperty :
          Arranged [name] fun check =>
            if Check.knownProperties = check then [.property declaration] else [] := by
        refine .single (.property declaration) (fun _ => rfl) ?_ ?_ <;>
          simp [Subject.tokens, isName]
      have ofValue :
          Arranged (values ++ importance) fun check =>
            if Check.propertyValues = check then [.value declaration] else [] := by
        refine .single (.value declaration) (fun _ => rfl) ?_ ?_
        · rw [Subject.tokens, areValues]
          rintro rfl
          contradiction
        · rw [Subject.tokens, areValues]
          exact List.sublist_append_left values importance
      have areSubjects :
          declaration.subjects = fun check =>
            (if Check.knownProperties = check then [.property declaration] else []) ++
              if Check.propertyValues = check then [.value declaration] else [] := by
        funext check
        cases check <;> rfl
      rw [areSubjects]
      exact ofProperty.append (ofValue.skip colon)

theorem BlockForm.arranged
    {tokens : List Token}
    {declarations : List Declaration}
    (form : BlockForm tokens declarations) :
    Arranged tokens fun check =>
      declarations.flatMap fun declaration => declaration.subjects check := by
  induction form with
  | nil =>
      exact .nil [] fun _ => rfl
  | last declarationForm =>
      simp only [List.flatMap_singleton]
      exact declarationForm.arranged
  | semicolon _ _ inductionHypothesis =>
      exact inductionHypothesis.skip _
  | cons declarationForm _ _ inductionHypothesis =>
      exact declarationForm.arranged.append (inductionHypothesis.skip _)

theorem RuleForm.arranged
    {tokens : List Token}
    {rule : Rule}
    (form : RuleForm tokens rule) :
    Arranged tokens rule.subjects := by
  cases form with
  | @intro group block first opening closing _ _ groupForm _ _ blockForm _ =>
      have blockArranged := (blockForm.arranged.append (.nil [closing] fun _ => rfl)).skip opening
      simp only [List.append_nil] at blockArranged
      exact groupForm.arranged.append blockArranged

/-- The subjects of a sheet stand among its tokens, each with tokens of its own. -/
theorem RulesForm.arranged
    {tokens : List Token}
    {rules : List Rule}
    (form : RulesForm tokens rules) :
    Arranged tokens fun check => rules.flatMap fun rule => rule.subjects check := by
  induction form with
  | nil =>
      exact .nil [] fun _ => rfl
  | cons ruleForm _ inductionHypothesis =>
      exact ruleForm.arranged.append inductionHypothesis

end Grammar

end QtSheet
