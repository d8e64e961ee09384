import QtSheet.Proofs.Grammar
import QtSheet.Proofs.Reading

namespace QtSheet.Grammar

/-!
# Selectors are read by the grammar

Reading a selector, a chain or a group of chains takes tokens that form one, and
it takes every such list when the tokens after it do not go on with it. The
parts of a selector are gathered one by one while it is read; `extend` says what
the parts gathered so far and those to come make up together.
-/

/-- The first of some tokens, if there is one, begins no qualifier. -/
def NoQualifier (tokens : List Token) : Prop :=
  ∀ token ∈ tokens.head?, token.kind.startsQualifier = false

/-- An attribute test ends with its closing bracket. -/
private theorem attribute_end
    {test result : AttributeTest}
    {tokens after : List Token}
    {last : Token}
    (read : test.readEnd tokens = .done (result, last) after) :
    tokens = last :: after ∧ last.kind = .closeBracket ∧ result = test := by
  obtain ⟨close, taken, same⟩ := Reading.map_eq_done.mp read
  obtain ⟨rfl, rfl⟩ := Prod.mk.inj same
  obtain ⟨shape, isClose⟩ := eq_cons_of_expect taken
  exact ⟨shape, isClose, rfl⟩

/-- The value of an attribute is the text between quotation marks, or a name. -/
theorem AttributeTest.valueOf?_eq_some_iff
    {token : Token}
    {text : String} :
    AttributeTest.valueOf? token = some text ↔
      token.kind = .string ∧ String.ofList (token.text.toList.drop 1).dropLast = text ∨
        token.kind = .identifier ∧ token.text = text := by
  fun_cases AttributeTest.valueOf? token with
  | case1 isString =>
      simp [isString]
  | case2 isWord =>
      simp [isWord]
  | case3 notString notWord =>
      simp [show token.kind ≠ .string from notString, show token.kind ≠ .identifier from notWord]

/-- An attribute test that is read is one of the grammar. -/
private theorem qualifierForm_of_readAttribute
    {opening last : Token}
    {rest after : List Token}
    {test : AttributeTest}
    (isOpening : opening.kind = .openBracket)
    (read : AttributeTest.read rest = .done (test, last) after) :
    ∃ tokens,
      opening :: rest = tokens ++ after ∧
        QualifierForm tokens (.attributeTest test) ∧
        tokens.getLast? = some last := by
  obtain ⟨name, afterName, takenName, readTest⟩ := Reading.andThen_eq_done.mp read
  obtain ⟨rfl, isName⟩ := eq_cons_of_expect takenName
  cases afterName with
  | nil =>
      obtain ⟨shape, _⟩ := attribute_end readTest
      simp at shape
  | cons operator afterOperator =>
      by_cases isOperator : operator.kind = .attributeOperator
      · rw [AttributeTest.readOperator, if_pos isOperator] at readTest
        cases afterOperator with
        | nil =>
            simp [AttributeTest.readValue] at readTest
        | cons value afterValue =>
            rw [AttributeTest.readValue] at readTest
            cases hasText : AttributeTest.valueOf? value with
            | none =>
                simp [hasText] at readTest
            | some text =>
                rw [hasText] at readTest
                obtain ⟨rfl, isClose, rfl⟩ := attribute_end readTest
                refine ⟨[opening, name, operator, value, last], rfl, ?_, rfl⟩
                rcases AttributeTest.valueOf?_eq_some_iff.mp hasText with
                  ⟨isString, rfl⟩ | ⟨isWord, rfl⟩
                · exact .attributeStringTest isOpening isName isOperator isString isClose
                · exact .attributeWordTest isOpening isName isOperator isWord isClose
      · rw [AttributeTest.readOperator, if_neg isOperator] at readTest
        obtain ⟨shape, isClose, rfl⟩ := attribute_end readTest
        obtain ⟨rfl, rfl⟩ := List.cons.inj shape
        exact ⟨[opening, name, operator], rfl, .attributeTest isOpening isName isClose, rfl⟩

private theorem readEnd_cons
    {closing : Token}
    (test : AttributeTest)
    (after : List Token)
    (isClosing : closing.kind = .closeBracket) :
    test.readEnd (closing :: after) = .done (test, closing) after := by
  simp [AttributeTest.readEnd, expect, isClosing]

/-- The selector with one more part. -/
def add (selector : Selector) : Part → Selector
  | .id name => { selector with id? := some name }
  | .className name => selector.addClass name
  | .pseudoState state =>
      { selector with pseudoStates := selector.pseudoStates ++ [state] }
  | .subControl name => { selector with subControl? := some name }
  | .attributeTest test => { selector with attributes := selector.attributes ++ [test] }

/-- A selector may take more parts: it has one id and one sub-control at most with them. -/
def HasRoom (selector : Selector) (parts : List Part) : Prop :=
  (selector.id?.toList ++ parts.filterMap Part.id?).length ≤ 1 ∧
    (selector.subControl?.toList ++ parts.filterMap Part.subControl?).length ≤ 1

/-- The selector with more parts. -/
def extend (selector : Selector) (parts : List Part) : Selector :=
  { selector with
      id? := (selector.id?.toList ++ parts.filterMap Part.id?).head?
      classes := (selector.classes ++ parts.filterMap Part.className?).eraseDups
      pseudoStates := selector.pseudoStates ++ parts.filterMap Part.pseudoState?
      subControl? :=
        (selector.subControl?.toList ++ parts.filterMap Part.subControl?).head?
      attributes := selector.attributes ++ parts.filterMap Part.attributeTest? }

/-- Classes stay distinct when one is added. -/
theorem eraseDups_addClass
    {selector : Selector}
    (distinct : selector.classes.eraseDups = selector.classes)
    (name : String) :
    (selector.addClass name).classes.eraseDups =
      (selector.addClass name).classes := by
  by_cases member : name ∈ selector.classes
  · rw [Selector.addClass, if_pos member]
    exact distinct
  · rw [Selector.addClass, if_neg member]
    simp [List.eraseDups_append, List.eraseDups_cons, distinct, List.removeAll, member]

/-- A class that is there already changes nothing about the distinct ones. -/
theorem eraseDups_append_cons_of_mem
    {names : List String}
    {name : String}
    (member : name ∈ names)
    (rest : List String) :
    (names ++ name :: rest).eraseDups = (names ++ rest).eraseDups := by
  simp [List.eraseDups_append, List.removeAll, member]

/-- Adding one part and then the others is adding them all. -/
theorem extend_add
    {selector : Selector}
    {part : Part}
    (parts : List Part)
    (room : HasRoom selector [part]) :
    extend (add selector part) parts = extend selector (part :: parts) := by
  cases part with
  | id name =>
      have free : selector.id? = none := by
        simpa [HasRoom, List.filterMap_cons, Part.id?] using room.1
      simp only [extend, add, free, List.filterMap_cons, Part.id?, Part.className?,
        Part.pseudoState?, Part.subControl?, Part.attributeTest?]
      rfl
  | className name =>
      simp only [extend, add, Selector.addClass, List.filterMap_cons, Part.id?,
        Part.className?, Part.pseudoState?, Part.subControl?, Part.attributeTest?]
      by_cases member : name ∈ selector.classes
      · rw [if_pos member, eraseDups_append_cons_of_mem member]
      · simp only [member, ↓reduceIte, List.append_assoc, List.cons_append, List.nil_append]
  | pseudoState state =>
      simp only [extend, add, List.filterMap_cons, Part.id?, Part.className?,
        Part.pseudoState?, Part.subControl?, Part.attributeTest?, List.append_assoc,
        List.cons_append, List.nil_append]
  | subControl name =>
      have free : selector.subControl? = none := by
        simpa [HasRoom, List.filterMap_cons, Part.subControl?] using room.2
      simp only [extend, add, free, List.filterMap_cons, Part.id?, Part.className?,
        Part.pseudoState?, Part.subControl?, Part.attributeTest?]
      rfl
  | attributeTest test =>
      simp only [extend, add, List.filterMap_cons, Part.id?, Part.className?,
        Part.pseudoState?, Part.subControl?, Part.attributeTest?, List.append_assoc,
        List.cons_append, List.nil_append]

@[simp] theorem id?_addClass (selector : Selector) (name : String) :
    (selector.addClass name).id? = selector.id? := by
  unfold Selector.addClass
  split <;> rfl

@[simp] theorem subControl?_addClass (selector : Selector) (name : String) :
    (selector.addClass name).subControl? = selector.subControl? := by
  unfold Selector.addClass
  split <;> rfl

/-- There is room for parts when there is room for the first and then for the others. -/
theorem hasRoom_cons
    {selector : Selector}
    {part : Part}
    {parts : List Part} :
    HasRoom selector (part :: parts) ↔
      HasRoom selector [part] ∧ HasRoom (add selector part) parts := by
  cases part <;>
    simp only [HasRoom, add, List.filterMap_cons, List.filterMap_nil, Part.id?,
      Part.subControl?, id?_addClass, subControl?_addClass, List.length_append,
      List.length_cons, List.length_nil, Option.toList_some] <;>
    omega

/-- The name of a qualifier that is read stands directly behind its mark. -/
private theorem name_of_readName
    {qualifier : Qualifier}
    {mark name : Token}
    {tokens after : List Token}
    (read : Selector.readName qualifier mark tokens = .done name after) :
    tokens = name :: after ∧ name.kind = .identifier ∧ name.start = mark.stop := by
  cases tokens with
  | nil =>
      simp [Selector.readName] at read
  | cons first rest =>
      by_cases fits : first.kind = .identifier ∧ first.start = mark.stop
      · rw [Selector.readName, if_pos fits] at read
        obtain ⟨rfl, rfl⟩ := Reading.done.inj read
        exact ⟨rfl, fits⟩
      · rw [Selector.readName, if_neg fits] at read
        contradiction

private theorem readName_cons
    {mark name : Token}
    (qualifier : Qualifier)
    (after : List Token)
    (isName : name.kind = .identifier)
    (adjacent : name.start = mark.stop) :
    Selector.readName qualifier mark (name :: after) = .done name after := by
  rw [Selector.readName, if_pos ⟨isName, adjacent⟩]

/-- A selector has room for every part that is neither an id nor a sub-control. -/
private theorem hasRoom_singleton
    {selector : Selector}
    {part : Part}
    (noId : part.id? = none)
    (noControl : part.subControl? = none) :
    HasRoom selector [part] := by
  constructor
  · cases selector.id? <;> simp [noId]
  · cases selector.subControl? <;> simp [noControl]

/-- A selector has room for an id when it has none. -/
private theorem hasRoom_id
    {selector : Selector}
    {name : String} :
    HasRoom selector [.id name] ↔ selector.id? = none := by
  cases hasId : selector.id? <;> cases hasControl : selector.subControl? <;>
    simp [HasRoom, hasId, hasControl, List.filterMap_cons, Part.id?, Part.subControl?]

/-- A selector has room for a sub-control when it has none. -/
private theorem hasRoom_subControl
    {selector : Selector}
    {name : Token} :
    HasRoom selector [.subControl name] ↔ selector.subControl? = none := by
  cases hasId : selector.id? <;> cases hasControl : selector.subControl? <;>
    simp [HasRoom, hasId, hasControl, List.filterMap_cons, Part.id?, Part.subControl?]

/-- A qualifier with none of the other marks begins with a bracket. -/
theorem openBracket_of_startsQualifier
    {kind : Kind}
    (starts : kind.startsQualifier)
    (noHash : kind ≠ .hash)
    (noDot : kind ≠ .dot)
    (noColon : kind ≠ .colon)
    (noColons : kind ≠ .doubleColon) :
    kind = .openBracket := by
  cases kind <;> simp_all [Kind.startsQualifier]

/-- A pseudo-state that is read is one of the grammar, negated or not. -/
private theorem qualifierForm_of_readPseudoState
    {selector result : Selector}
    {colon last : Token}
    {rest after : List Token}
    (isColon : colon.kind = .colon)
    (read : selector.readPseudoState colon rest = .done (result, last) after) :
    ∃ tokens state,
      colon :: rest = tokens ++ after ∧
        QualifierForm tokens (.pseudoState state) ∧
        tokens.getLast? = some last ∧
        result = add selector (.pseudoState state) := by
  cases rest with
  | nil =>
      simp [Selector.readPseudoState] at read
  | cons mark rest =>
      by_cases isMark : mark.kind = .exclamation ∧ mark.start = colon.stop
      · rw [Selector.readPseudoState, if_pos isMark] at read
        obtain ⟨name, readName, same⟩ := Reading.map_eq_done.mp read
        obtain ⟨rfl, rfl⟩ := Prod.mk.inj same
        obtain ⟨rfl, isName, adjacent⟩ := name_of_readName readName
        exact ⟨[colon, mark, name], _, rfl,
          .negatedPseudoState isColon isMark.1 isMark.2 isName adjacent, rfl, rfl⟩
      · rw [Selector.readPseudoState, if_neg isMark] at read
        obtain ⟨name, readName, same⟩ := Reading.map_eq_done.mp read
        obtain ⟨rfl, rfl⟩ := Prod.mk.inj same
        obtain ⟨shape, isName, adjacent⟩ := name_of_readName readName
        obtain ⟨rfl, rfl⟩ := List.cons.inj shape
        exact ⟨[colon, mark], _, rfl, .pseudoState isColon isName adjacent, rfl, rfl⟩

/-- A qualifier that is read is one of the grammar, and the selector takes its part. -/
theorem qualifierForm_of_readQualifier
    {selector result : Selector}
    {mark last : Token}
    {rest after : List Token}
    (starts : mark.kind.startsQualifier)
    (read : selector.readQualifier mark rest = .done (result, last) after) :
    ∃ tokens part,
      mark :: rest = tokens ++ after ∧
        QualifierForm tokens part ∧
        tokens.getLast? = some last ∧
        HasRoom selector [part] ∧
        result = add selector part := by
  revert read
  fun_cases Selector.readQualifier selector mark rest with
  | case1 =>
      rintro ⟨⟩
  | case2 isHash noId =>
      rintro ⟨⟩
      exact ⟨[mark], _, rfl, .id isHash, rfl, hasRoom_id.mpr noId, rfl⟩
  | case3 isDot =>
      intro read
      obtain ⟨name, readName, same⟩ := Reading.map_eq_done.mp read
      obtain ⟨rfl, rfl⟩ := Prod.mk.inj same
      obtain ⟨rfl, isName, adjacent⟩ := name_of_readName readName
      exact ⟨[mark, name], _, rfl, .className isDot isName adjacent, rfl,
        hasRoom_singleton rfl rfl, rfl⟩
  | case4 isColon =>
      intro read
      obtain ⟨tokens, state, shape, form, isLast, rfl⟩ :=
        qualifierForm_of_readPseudoState isColon read
      exact ⟨tokens, _, shape, form, isLast, hasRoom_singleton rfl rfl, rfl⟩
  | case5 =>
      rintro ⟨⟩
  | case6 isColons noControl =>
      intro read
      obtain ⟨name, readName, same⟩ := Reading.map_eq_done.mp read
      obtain ⟨rfl, rfl⟩ := Prod.mk.inj same
      obtain ⟨rfl, isName, adjacent⟩ := name_of_readName readName
      exact ⟨[mark, name], _, rfl, .subControl isColons isName adjacent, rfl,
        hasRoom_subControl.mpr noControl, rfl⟩
  | case7 noHash noDot noColon noColons =>
      intro read
      have isOpening := openBracket_of_startsQualifier starts noHash noDot noColon noColons
      obtain ⟨⟨test, close⟩, readTest, same⟩ := Reading.map_eq_done.mp read
      obtain ⟨rfl, rfl⟩ := Prod.mk.inj same
      obtain ⟨tokens, shape, form, isLast⟩ :=
        qualifierForm_of_readAttribute isOpening readTest
      exact ⟨tokens, _, shape, form, isLast, hasRoom_singleton rfl rfl, rfl⟩

/-- A qualifier of the grammar is read when the selector has room for it. -/
theorem readQualifier_of_form
    {selector : Selector}
    {tokens : List Token}
    {part : Part}
    (form : QualifierForm tokens part)
    (room : HasRoom selector [part])
    (after : List Token) :
    ∃ mark rest last,
      tokens = mark :: rest ∧
        mark.kind.startsQualifier = true ∧
        tokens.getLast? = some last ∧
        selector.readQualifier mark (rest ++ after) =
          .done (add selector part, last) after := by
  cases form with
  | @id hash isHash =>
      refine ⟨hash, [], hash, rfl, by simp [isHash, Kind.startsQualifier], rfl, ?_⟩
      simp [Selector.readQualifier, isHash, hasRoom_id.mp room, add]
  | @className dot name isDot isName adjacent =>
      refine ⟨dot, [name], name, rfl, by simp [isDot, Kind.startsQualifier], rfl, ?_⟩
      simp [Selector.readQualifier, isDot, readName_cons _ _ isName adjacent, add]
  | @pseudoState colon name isColon isName adjacent =>
      refine ⟨colon, [name], name, rfl, by simp [isColon, Kind.startsQualifier], rfl, ?_⟩
      simp [Selector.readQualifier, Selector.readPseudoState, isColon, isName,
        readName_cons _ _ isName adjacent, add, Selector.addPseudoState]
  | @negatedPseudoState colon mark name isColon isMark markAdjacent isName adjacent =>
      refine ⟨colon, [mark, name], name, rfl,
        by simp [isColon, Kind.startsQualifier], rfl, ?_⟩
      simp [Selector.readQualifier, Selector.readPseudoState, isColon, isMark,
        markAdjacent, readName_cons _ _ isName adjacent, add, Selector.addPseudoState]
  | @subControl colons name isColons isName adjacent =>
      refine ⟨colons, [name], name, rfl, by simp [isColons, Kind.startsQualifier], rfl, ?_⟩
      simp [Selector.readQualifier, isColons, hasRoom_subControl.mp room,
        readName_cons _ _ isName adjacent, add]
  | @attributeTest opening name closing isOpening isName isClosing =>
      refine ⟨opening, [name, closing], closing, rfl,
        by simp [isOpening, Kind.startsQualifier], rfl, ?_⟩
      simp [Selector.readQualifier, AttributeTest.read, AttributeTest.readOperator,
        expect, isOpening, isName, isClosing, readEnd_cons _ _ isClosing, add]
  | @attributeStringTest opening name operator value closing
      isOpening isName isOperator isString isClosing =>
      refine ⟨opening, [name, operator, value, closing], closing, rfl,
        by simp [isOpening, Kind.startsQualifier], rfl, ?_⟩
      simp [Selector.readQualifier, AttributeTest.read, AttributeTest.readOperator,
        AttributeTest.readValue, AttributeTest.valueOf?, expect, isOpening, isName,
        isOperator, isString, readEnd_cons _ _ isClosing, add]
  | @attributeWordTest opening name operator value closing
      isOpening isName isOperator isWord isClosing =>
      refine ⟨opening, [name, operator, value, closing], closing, rfl,
        by simp [isOpening, Kind.startsQualifier], rfl, ?_⟩
      simp [Selector.readQualifier, AttributeTest.read, AttributeTest.readOperator,
        AttributeTest.readValue, AttributeTest.valueOf?, expect, isOpening, isName,
        isOperator, isWord, readEnd_cons _ _ isClosing, add]

private theorem extend_nil
    {selector : Selector}
    (distinct : selector.classes.eraseDups = selector.classes) :
    extend selector [] = selector := by
  cases selector with
  | mk typeName? id? classes pseudoStates subControl? attributes combinator? start length =>
      cases id? <;> cases subControl? <;> simp_all [extend]

private theorem hasRoom_nil (selector : Selector) :
    HasRoom selector [] := by
  constructor
  · cases selector.id? <;> simp
  · cases selector.subControl? <;> simp

/-- The classes of a selector stay distinct with a part more. -/
private theorem eraseDups_add
    {selector : Selector}
    (distinct : selector.classes.eraseDups = selector.classes)
    (part : Part) :
    (add selector part).classes.eraseDups = (add selector part).classes := by
  cases part with
  | className name =>
      exact eraseDups_addClass distinct name
  | id name =>
      exact distinct
  | pseudoState state =>
      exact distinct
  | subControl name =>
      exact distinct
  | attributeTest test =>
      exact distinct

/-- Qualifiers that are read are those of the grammar, up to a token that begins none. -/
theorem qualifiersForm_of_readQualifiers
    {selector result : Selector}
    {last : Token}
    {tokens rest : List Token}
    (distinct : selector.classes.eraseDups = selector.classes)
    (read : selector.readQualifiers last tokens = .done result rest) :
    ∃ taken parts,
      tokens = taken ++ rest ∧
        QualifiersForm taken parts ∧
        HasRoom selector parts ∧
        NoQualifier rest ∧
        result = (extend selector parts).endingWith (taken.getLast?.getD last) := by
  fun_induction Selector.readQualifiers selector last tokens with
  | case1 selector last =>
      obtain ⟨rfl, rfl⟩ := Reading.done.inj read
      refine ⟨[], [], rfl, .nil, hasRoom_nil selector, ?_, ?_⟩
      · intro token member
        simp at member
      · rw [extend_nil distinct]
        rfl
  | case2 selector last token rest starts next nextLast after readNext inductionHypothesis =>
      obtain ⟨tokens, part, shape, form, isLast, room, rfl⟩ :=
        qualifierForm_of_readQualifier starts readNext
      obtain ⟨taken, parts, rfl, forms, rooms, follow, rfl⟩ :=
        inductionHypothesis (eraseDups_add distinct part) read
      refine ⟨tokens ++ taken, part :: parts, ?_, .cons form forms,
        hasRoom_cons.mpr ⟨room, rooms⟩, follow, ?_⟩
      · rw [shape, List.append_assoc]
      · rw [extend_add parts room, getLast?_append_getD isLast, Option.getD_some]
  | case3 =>
      contradiction
  | case4 selector last token rest stops =>
      obtain ⟨rfl, rfl⟩ := Reading.done.inj read
      refine ⟨[], [], rfl, .nil, hasRoom_nil selector, ?_, ?_⟩
      · intro other member
        cases member
        simpa using stops
      · rw [extend_nil distinct]
        rfl

/-- Qualifiers of the grammar are read when the selector has room for them. -/
theorem readQualifiers_of_form
    {taken rest : List Token}
    {parts : List Part}
    (form : QualifiersForm taken parts)
    (follow : NoQualifier rest)
    {selector : Selector}
    (distinct : selector.classes.eraseDups = selector.classes)
    (room : HasRoom selector parts)
    (last : Token) :
    selector.readQualifiers last (taken ++ rest) =
      .done ((extend selector parts).endingWith (taken.getLast?.getD last)) rest := by
  induction form generalizing selector last with
  | nil =>
      rw [extend_nil distinct]
      cases rest with
      | nil =>
          rw [List.nil_append, Selector.readQualifiers]
          rfl
      | cons token rest =>
          have stops : token.kind.startsQualifier = false :=
            follow token rfl
          rw [List.nil_append, Selector.readQualifiers_cons, stops]
          rfl
  | @cons tokens others part parts first _ inductionHypothesis =>
      obtain ⟨firstRoom, otherRoom⟩ := hasRoom_cons.mp room
      obtain ⟨mark, behind, nextLast, rfl, starts, isLast, readNext⟩ :=
        readQualifier_of_form first firstRoom (others ++ rest)
      rw [List.append_assoc, List.cons_append, Selector.readQualifiers_cons, if_pos starts,
        readNext, Reading.andThen_done,
        inductionHypothesis (eraseDups_add distinct part) otherRoom,
        extend_add parts firstRoom, getLast?_append_getD isLast, Option.getD_some]

/-- Parts put to a selector that has none are assembled with it. -/
private theorem endingWith_extend_bare
    (first last : Token)
    (typeName? : Option String)
    (parts : List Part) :
    (extend { Selector.bare first.start with typeName? := typeName? } parts).endingWith last =
      assemble first last typeName? parts := by
  simp [extend, Selector.bare, Selector.endingWith, assemble]

/-- A selector that is read is one of the grammar, and no qualifier follows it. -/
theorem selectorForm_of_read
    {tokens rest : List Token}
    {selector : Selector}
    (read : Selector.read tokens = .done selector rest) :
    ∃ taken,
      tokens = taken ++ rest ∧
        SelectorForm taken selector ∧
        NoQualifier rest := by
  cases tokens with
  | nil =>
      simp [Selector.read] at read
  | cons first behind =>
      rw [Selector.read] at read
      by_cases isType : first.kind = .identifier ∨ first.kind = .star
      · rw [if_pos isType] at read
        obtain ⟨taken, parts, rfl, form, room, follow, rfl⟩ :=
          qualifiersForm_of_readQualifiers (by simp [Selector.bare]) read
        refine ⟨first :: taken, rfl, ?_, follow⟩
        rw [endingWith_extend_bare]
        exact .typed isType form room.1 room.2 List.getLast?_cons
      · rw [if_neg isType] at read
        by_cases starts : first.kind.startsQualifier
        · rw [if_pos starts] at read
          obtain ⟨taken, parts, shape, form, room, follow, rfl⟩ :=
            qualifiersForm_of_readQualifiers (by simp [Selector.bare]) read
          cases taken with
          | nil =>
              have stops : first.kind.startsQualifier = false := by
                apply follow
                rw [← List.nil_append rest, ← shape]
                rfl
              rw [stops] at starts
              contradiction
          | cons head tail =>
              obtain ⟨rfl, rfl⟩ := List.cons.inj shape
              refine ⟨first :: tail, rfl, ?_, follow⟩
              rw [List.getLast?_cons]
              exact .untyped form room.1 room.2 List.getLast?_cons
        · rw [if_neg starts] at read
          contradiction

/-- A selector of the grammar is read when no qualifier follows it. -/
theorem read_of_selectorForm
    {tokens rest : List Token}
    {selector : Selector}
    (form : SelectorForm tokens selector)
    (follow : NoQualifier rest) :
    Selector.read (tokens ++ rest) = .done selector rest := by
  cases form with
  | @intro type? qualifiers parts first last isType form oneId oneControl isFirst isLast =>
      have room : ∀ typeName? : Option String,
          HasRoom { Selector.bare first.start with typeName? := typeName? } parts := by
        intro typeName?
        exact ⟨oneId, oneControl⟩
      cases type? with
      | some type =>
          cases isFirst
          rw [Option.toList_some, List.singleton_append, List.getLast?_cons] at isLast
          cases isLast
          rw [Option.toList_some, List.singleton_append, List.cons_append, Selector.read,
            if_pos (isType first rfl), readQualifiers_of_form form follow (by simp [Selector.bare])
              (room _), endingWith_extend_bare]
          rfl
      | none =>
          rw [Option.toList_none, List.nil_append] at isFirst isLast ⊢
          cases form with
          | nil =>
              simp at isFirst
          | @cons tokens others part parts head forms =>
              obtain ⟨mark, behind, _, rfl, starts, _, _⟩ :=
                readQualifier_of_form head (hasRoom_cons.mp (room none)).1 []
              cases isFirst
              have noType : ¬ (first.kind = .identifier ∨ first.kind = .star) := by
                rintro (isName | isStar)
                · simp [isName, Kind.startsQualifier] at starts
                · simp [isStar, Kind.startsQualifier] at starts
              have readAll :
                  (Selector.bare first.start).readQualifiers first
                      ((first :: behind ++ others) ++ rest) = .done _ rest :=
                readQualifiers_of_form (.cons head forms) follow (by simp [Selector.bare])
                  (room none) first
              rw [isLast] at readAll
              rw [List.cons_append, List.cons_append, Selector.read, if_neg noType,
                if_pos starts]
              exact readAll

/-- The first of some tokens, if there is one, does not go on with a chain. -/
def NoSelector (tokens : List Token) : Prop :=
  ∀ token ∈ tokens.head?,
    token.kind ≠ .combinator ∧ token.kind.startsSelector = false

/-- What begins no selector begins no qualifier. -/
theorem NoSelector.noQualifier
    {tokens : List Token}
    (stops : NoSelector tokens) :
    NoQualifier tokens := by
  intro token member
  have noStart := (stops token member).2
  cases kind : token.kind <;> simp_all [Kind.startsSelector, Kind.startsQualifier]

/-- A chain ends exactly where no selector follows. -/
theorem next?_eq_none
    {tokens : List Token} :
    Chain.next? tokens = none ↔ NoSelector tokens := by
  cases tokens with
  | nil =>
      simp [Chain.next?, NoSelector]
  | cons token rest =>
      by_cases isSign : token.kind = .combinator
      · simp [Chain.next?, NoSelector, Token.combinator?, isSign]
      · simp [Chain.next?, NoSelector, Token.combinator?, isSign]

/-- What follows a selector in a chain: a sign and a selector, or a selector with a type. -/
theorem next?_eq_some
    {tokens behind : List Token}
    {combinator : Combinator}
    (follow : NoQualifier tokens)
    (found : Chain.next? tokens = some (combinator, behind)) :
    (∃ sign,
      tokens = sign :: behind ∧
        sign.kind = .combinator ∧
        combinator = Combinator.ofText sign.text) ∨
      (∃ type rest,
        tokens = type :: rest ∧
          behind = tokens ∧
          (type.kind = .identifier ∨ type.kind = .star) ∧
          combinator = .descendant) := by
  cases tokens with
  | nil =>
      simp [Chain.next?] at found
  | cons token rest =>
      by_cases isSign : token.kind = .combinator
      · left
        simp only [Chain.next?, Token.combinator?, isSign, ↓reduceIte,
          Option.some.injEq, Prod.mk.injEq] at found
        obtain ⟨rfl, rfl⟩ := found
        exact ⟨token, rfl, isSign, rfl⟩
      · right
        have noQualifier : token.kind.startsQualifier = false := follow token rfl
        simp only [Chain.next?, Token.combinator?, isSign, ↓reduceIte,
          Option.ite_none_right_eq_some] at found
        obtain ⟨starts, isNext⟩ := found
        obtain ⟨rfl, rfl⟩ := Prod.mk.inj (Option.some.inj isNext)
        refine ⟨token, rest, rfl, rfl, ?_, rfl⟩
        cases kind : token.kind <;>
          simp_all [Kind.startsSelector, Kind.startsQualifier]

/-- A selector has a first token. -/
theorem SelectorForm.exists_cons
    {tokens : List Token}
    {selector : Selector}
    (form : SelectorForm tokens selector) :
    ∃ first rest, tokens = first :: rest := by
  cases form with
  | @intro type? qualifiers _ first _ _ _ _ _ isFirst _ =>
      exact ⟨first, List.head?_eq_some_iff.mp isFirst⟩

/-- Selectors that are read after a first one form a chain with it. -/
theorem chainForm_of_readAfter
    {front tokens rest : List Token}
    {selector : Selector}
    {chain : Chain}
    (form : SelectorForm front selector)
    (follow : NoQualifier tokens)
    (read : Chain.readAfter selector tokens = .done chain rest) :
    ∃ taken,
      tokens = taken ++ rest ∧
        ChainForm (front ++ taken) chain ∧
        NoSelector rest := by
  fun_induction Chain.readAfter selector tokens generalizing front chain with
  | case1 selector tokens ends =>
      obtain ⟨rfl, rfl⟩ := Reading.done.inj read
      refine ⟨[], rfl, ?_, next?_eq_none.mp ends⟩
      rw [List.append_nil]
      exact .last form
  | case2 =>
      contradiction
  | case3 selector tokens combinator behind following next after readNext inductionHypothesis =>
      obtain ⟨others, readOthers, rfl⟩ := Reading.map_eq_done.mp read
      obtain ⟨nextTokens, rfl, nextForm, nextFollow⟩ := selectorForm_of_read readNext
      obtain ⟨taken, rfl, chainForm, stops⟩ :=
        inductionHypothesis nextForm nextFollow readOthers
      rcases next?_eq_some follow following with
          ⟨sign, rfl, isSign, rfl⟩ | ⟨type, _, shape, same, isType, rfl⟩
      · refine ⟨sign :: (nextTokens ++ taken), ?_, .combined form isSign chainForm, stops⟩
        simp only [List.cons_append, List.append_assoc]
      · obtain ⟨first, tail, rfl⟩ := nextForm.exists_cons
        rw [← same] at shape
        obtain ⟨rfl, rfl⟩ := List.cons.inj shape
        refine ⟨first :: (tail ++ taken), ?_, .direct form isType chainForm, stops⟩
        rw [← same]
        simp only [List.cons_append, List.append_assoc]

/-- A chain that is read is one of the grammar, and no selector follows it. -/
theorem chainForm_of_read
    {tokens rest : List Token}
    {chain : Chain}
    (read : Chain.read tokens = .done chain rest) :
    ∃ taken,
      tokens = taken ++ rest ∧
        ChainForm taken chain ∧
        NoSelector rest := by
  obtain ⟨selector, after, readFirst, readRest⟩ := Reading.andThen_eq_done.mp read
  obtain ⟨front, rfl, form, follow⟩ := selectorForm_of_read readFirst
  obtain ⟨taken, rfl, chainForm, stops⟩ := chainForm_of_readAfter form follow readRest
  exact ⟨front ++ taken, by rw [List.append_assoc], chainForm, stops⟩

/-- A chain of the grammar is read when no selector follows it. -/
theorem read_of_chainForm
    {tokens rest : List Token}
    {chain : Chain}
    (form : ChainForm tokens chain)
    (stops : NoSelector rest) :
    Chain.read (tokens ++ rest) = .done chain rest := by
  induction form with
  | last form =>
      rw [Chain.read, read_of_selectorForm form stops.noQualifier, Reading.andThen_done,
        Chain.readAfter_eq, next?_eq_none.mpr stops]
  | @combined tokens behind selector sign chain form isSign _ inductionHypothesis =>
      have follow : NoQualifier (sign :: behind ++ rest) := by
        intro token member
        cases member
        rw [isSign]
        rfl
      have following :
          Chain.next? (sign :: behind ++ rest) =
            some (Combinator.ofText sign.text, behind ++ rest) := by
        simp [Chain.next?, Token.combinator?, isSign]
      rw [List.append_assoc, Chain.read, read_of_selectorForm form follow,
        Reading.andThen_done, Chain.readAfter_eq, following]
      dsimp only
      rw [← Reading.map_andThen, ← Chain.read, inductionHypothesis]
      rfl
  | @direct tokens behind selector type chain form isType _ inductionHypothesis =>
      have follow : NoQualifier (type :: behind ++ rest) := by
        intro token member
        cases member
        rcases isType with isName | isStar
        · rw [isName]
          rfl
        · rw [isStar]
          rfl
      have following :
          Chain.next? (type :: behind ++ rest) =
            some (.descendant, type :: behind ++ rest) := by
        rcases isType with isName | isStar
        · simp [Chain.next?, Token.combinator?, isName, Kind.startsSelector]
        · simp [Chain.next?, Token.combinator?, isStar, Kind.startsSelector]
      rw [List.append_assoc, Chain.read, read_of_selectorForm form follow,
        Reading.andThen_done, Chain.readAfter_eq, following]
      dsimp only
      rw [← Reading.map_andThen, ← Chain.read, inductionHypothesis]
      rfl

/-- A group of chains that is read is one of the grammar. -/
theorem chainsForm_of_readChains
    {tokens rest : List Token}
    {chains : List Chain}
    (read : readChains tokens = .done chains rest) :
    ∃ taken,
      tokens = taken ++ rest ∧
        ChainsForm taken chains := by
  fun_induction readChains tokens generalizing chains with
  | case1 =>
      contradiction
  | case2 =>
      contradiction
  | case3 tokens chain comma behind readFirst isComma inductionHypothesis =>
      obtain ⟨others, readOthers, rfl⟩ := Reading.map_eq_done.mp read
      obtain ⟨front, rfl, form, _⟩ := chainForm_of_read readFirst
      obtain ⟨taken, rfl, forms⟩ := inductionHypothesis readOthers
      refine ⟨front ++ comma :: taken, ?_, .cons form isComma forms⟩
      simp only [List.cons_append, List.append_assoc]
  | case4 tokens chain opening behind readFirst =>
      obtain ⟨rfl, rfl⟩ := Reading.done.inj read
      obtain ⟨front, rfl, form, _⟩ := chainForm_of_read readFirst
      exact ⟨front, rfl, .last form⟩
  | case5 =>
      contradiction

/-- A group of chains has a first token. -/
theorem ChainsForm.exists_cons
    {tokens : List Token}
    {chains : List Chain}
    (form : ChainsForm tokens chains) :
    ∃ first rest, tokens = first :: rest := by
  have ofChain :
      ∀ {tokens : List Token} {chain : Chain},
        ChainForm tokens chain → ∃ first rest, tokens = first :: rest := by
    intro tokens chain form
    cases form with
    | last form =>
        exact form.exists_cons
    | combined form _ _ =>
        obtain ⟨first, rest, rfl⟩ := form.exists_cons
        exact ⟨first, _, rfl⟩
    | direct form _ _ =>
        obtain ⟨first, rest, rfl⟩ := form.exists_cons
        exact ⟨first, _, rfl⟩
  cases form with
  | last form =>
      exact ofChain form
  | cons form _ _ =>
      obtain ⟨first, rest, rfl⟩ := ofChain form
      exact ⟨first, _, rfl⟩

/-- A group of chains of the grammar is read in front of an opening brace. -/
theorem readChains_of_form
    {tokens after : List Token}
    {chains : List Chain}
    {opening : Token}
    (form : ChainsForm tokens chains)
    (isOpening : opening.kind = .openBrace) :
    readChains (tokens ++ opening :: after) = .done chains (opening :: after) := by
  induction form with
  | last form =>
      have stops : NoSelector (opening :: after) := by
        intro token member
        cases member
        rw [isOpening]
        exact ⟨by decide, rfl⟩
      rw [readChains_eq, read_of_chainForm form stops]
      simp [readChainsAfter, isOpening]
  | @cons tokens behind chain comma chains form isComma _ inductionHypothesis =>
      have stops : NoSelector (comma :: behind ++ opening :: after) := by
        intro token member
        cases member
        rw [isComma]
        exact ⟨by decide, rfl⟩
      rw [List.append_assoc, readChains_eq, read_of_chainForm form stops]
      simp [readChainsAfter, isComma, inductionHypothesis]

end QtSheet.Grammar
