import QtSheet.Proofs.Move
import QtSheet.Proofs.Provenance
import QtSheet.Proofs.Unplaced

namespace QtSheet

/-!
# Sheets at another place

A part of a text may be carried to another text. Its tokens are shifted then,
all by the same number of characters, and get the lines and columns that the
other text gives them. What they form is shifted with them
(`Relocation.rulesForm`), and so are the findings of the checks
(`Relocation.run_eq`).
-/

/-- A text to which excerpts are carried, and by how many characters they are shifted for that. -/
structure Relocation where
  text : List Char
  shift : Int
  deriving Repr, DecidableEq

namespace Relocation

section Nouns

variable (move : Relocation)

/-- An excerpt at its new place. -/
def excerpt (excerpt : Excerpt) : Excerpt :=
  let place := Position.first.after (move.text.take (excerpt.start + move.shift).toNat)
  { excerpt with
      start := excerpt.start + move.shift
      line := place.line
      column := place.column }

/-- A token at its new place. -/
def token (token : Token) : Token :=
  { token with toExcerpt := move.excerpt token.toExcerpt }

/-- A finding at its new place. -/
def diagnostic (diagnostic : Diagnostic) : Diagnostic :=
  { diagnostic with toExcerpt := move.excerpt diagnostic.toExcerpt }

/-- A pseudo-state at its new place. -/
def pseudoState (state : PseudoState) : PseudoState :=
  { state with token := move.token state.token }

/-- A selector at its new place. -/
def selector (selector : Selector) : Selector :=
  { selector with
      pseudoStates := selector.pseudoStates.map move.pseudoState
      subControl? := selector.subControl?.map move.token
      start := selector.start + move.shift }

/-- A chain at its new place. -/
def chain (chain : Chain) : Chain :=
  chain.map move.selector

/-- A declaration at its new place. -/
def declaration (declaration : Declaration) : Declaration :=
  { declaration with
      values := declaration.values.map move.token
      start := declaration.start + move.shift
      propertyToken? := declaration.propertyToken?.map move.token }

/-- A rule at its new place. -/
def rule (rule : Rule) : Rule where
  chains := rule.chains.map move.chain
  declarations := rule.declarations.map move.declaration
  start := rule.start + move.shift
  length := rule.length

end Nouns

variable (move : Relocation)

/-- A token ends as much further as it is moved. -/
theorem stop_token (token : Token) :
    (move.token token).stop = token.stop + move.shift := by
  simp only [Relocation.token, excerpt, Excerpt.stop]
  omega

/-- Tokens without a gap between them have none at their new place. -/
theorem touches
    {token next : Token}
    (touch : next.start = token.stop) :
    (move.token next).start = (move.token token).stop := by
  rw [stop_token, ← touch]
  rfl

/-- The distance between two tokens is the same at their new place. -/
theorem distance (first last : Token) :
    (move.token last).stop - (move.token first).start = last.stop - first.start := by
  rw [stop_token]
  simp only [Relocation.token, excerpt]
  omega

theorem unplaced_selector (selector : Selector) :
    (move.selector selector).unplaced = selector.unplaced := by
  simp only [Selector.unplaced, Relocation.selector, List.map_map, Option.map_map]
  rfl

theorem unplaced_declaration (declaration : Declaration) :
    (move.declaration declaration).unplaced = declaration.unplaced := by
  simp only [Declaration.unplaced, Relocation.declaration, List.map_map, Option.map_map]
  rfl

section Forms

open Grammar

/-- A part of a selector at its new place. -/
def part : Part → Part
  | .pseudoState state => .pseudoState (move.pseudoState state)
  | .subControl name => .subControl (move.token name)
  | part => part

/-- Moved tokens of a qualifier form it, moved. -/
theorem qualifierForm
    {tokens : List Token}
    {part : Part}
    (form : QualifierForm tokens part) :
    QualifierForm (tokens.map move.token) (move.part part) := by
  cases form with
  | id isHash =>
      exact .id isHash
  | className isDot isName touch =>
      exact .className isDot isName (move.touches touch)
  | pseudoState isColon isName touch =>
      exact .pseudoState isColon isName (move.touches touch)
  | negatedPseudoState isColon isMark markTouches isName touch =>
      exact .negatedPseudoState isColon isMark (move.touches markTouches) isName
        (move.touches touch)
  | subControl isColons isName touch =>
      exact .subControl isColons isName (move.touches touch)
  | attributeTest isOpening isName isClosing =>
      exact .attributeTest isOpening isName isClosing
  | attributeStringTest isOpening isName isOperator isValue isClosing =>
      exact .attributeStringTest isOpening isName isOperator isValue isClosing
  | attributeWordTest isOpening isName isOperator isValue isClosing =>
      exact .attributeWordTest isOpening isName isOperator isValue isClosing

/-- Moved tokens of qualifiers form them, moved. -/
theorem qualifiersForm
    {tokens : List Token}
    {parts : List Part}
    (form : QualifiersForm tokens parts) :
    QualifiersForm (tokens.map move.token) (parts.map move.part) := by
  induction form with
  | nil =>
      exact .nil
  | cons qualifier _ inductionHypothesis =>
      rw [List.map_append]
      exact .cons (move.qualifierForm qualifier) inductionHypothesis

section Parts

/-- What is read off the parts of a selector changes as it does for one part. -/
private theorem filterMap_part
    {read : Part → Option α}
    {change : α → α}
    (changes : ∀ part, read (move.part part) = (read part).map change)
    (parts : List Part) :
    (parts.map move.part).filterMap read = (parts.filterMap read).map change := by
  rw [List.filterMap_map, List.map_filterMap]
  congr 1
  funext part
  exact changes part

variable (parts : List Part)

private theorem filterMap_id? :
    (parts.map move.part).filterMap Part.id? = parts.filterMap Part.id? :=
  (move.filterMap_part (fun part => by cases part <;> rfl) parts).trans (List.map_id _)

private theorem filterMap_className? :
    (parts.map move.part).filterMap Part.className? = parts.filterMap Part.className? :=
  (move.filterMap_part (fun part => by cases part <;> rfl) parts).trans (List.map_id _)

private theorem filterMap_attributeTest? :
    (parts.map move.part).filterMap Part.attributeTest? =
      parts.filterMap Part.attributeTest? :=
  (move.filterMap_part (fun part => by cases part <;> rfl) parts).trans (List.map_id _)

private theorem filterMap_pseudoState? :
    (parts.map move.part).filterMap Part.pseudoState? =
      (parts.filterMap Part.pseudoState?).map move.pseudoState :=
  move.filterMap_part (fun part => by cases part <;> rfl) parts

private theorem filterMap_subControl? :
    (parts.map move.part).filterMap Part.subControl? =
      (parts.filterMap Part.subControl?).map move.token :=
  move.filterMap_part (fun part => by cases part <;> rfl) parts

end Parts

/-- Parts at their new place make up the selector at its new place. -/
theorem assemble_eq
    (first last : Token)
    (typeName? : Option String)
    (parts : List Part) :
    assemble (move.token first) (move.token last) typeName? (parts.map move.part) =
      move.selector (assemble first last typeName? parts) := by
  simp only [assemble, distance, filterMap_id?, filterMap_className?, filterMap_attributeTest?,
    filterMap_pseudoState?, filterMap_subControl?, List.head?_map]
  rfl

theorem selectorForm
    {tokens : List Token}
    {selector : Selector}
    (form : SelectorForm tokens selector) :
    SelectorForm (tokens.map move.token) (move.selector selector) := by
  cases form with
  | @intro type? qualifiers parts first last isType form oneId oneControl isFirst isLast =>
      have isTypeThere :
          ∀ type ∈ type?.map move.token, type.kind = .identifier ∨ type.kind = .star := by
        intro type isMoved
        obtain ⟨original, isOriginal, rfl⟩ := Option.map_eq_some_iff.mp isMoved
        exact isType original isOriginal
      have sameTokens :
          (type?.toList ++ qualifiers).map move.token =
            (type?.map move.token).toList ++ qualifiers.map move.token := by
        rw [List.map_append]
        cases type? <;> rfl
      have sameType :
          (type?.map move.token).map (fun type => type.text) = type?.map fun type => type.text := by
        cases type? <;> rfl
      have there :=
        SelectorForm.intro isTypeThere (move.qualifiersForm form)
          (by rwa [filterMap_id?]) (by rwa [filterMap_subControl?, List.length_map])
          (by rw [← sameTokens, List.head?_map, isFirst]; rfl)
          (by rw [← sameTokens, List.getLast?_map, isLast]; rfl)
      rwa [← sameTokens, assemble_eq, sameType] at there

theorem chainForm
    {tokens : List Token}
    {chain : Chain}
    (form : ChainForm tokens chain) :
    ChainForm (tokens.map move.token) (move.chain chain) := by
  induction form with
  | last form =>
      exact .last (move.selectorForm form)
  | combined form isSign _ inductionHypothesis =>
      rw [List.map_append]
      exact .combined (move.selectorForm form) isSign inductionHypothesis
  | direct form isType _ inductionHypothesis =>
      rw [List.map_append]
      exact .direct (move.selectorForm form) isType inductionHypothesis

theorem chainsForm
    {tokens : List Token}
    {chains : List Chain}
    (form : ChainsForm tokens chains) :
    ChainsForm (tokens.map move.token) (chains.map move.chain) := by
  induction form with
  | last form =>
      exact .last (move.chainForm form)
  | cons form isComma _ inductionHypothesis =>
      rw [List.map_append]
      exact .cons (move.chainForm form) isComma inductionHypothesis

/-- Moved values are values. -/
theorem valuesForm
    {tokens : List Token}
    (form : ValuesForm tokens) :
    ValuesForm (tokens.map move.token) := by
  induction form with
  | last isValue =>
      exact .last isValue
  | next isValue _ inductionHypothesis =>
      exact .next isValue inductionHypothesis
  | separated isValue isSeparator _ inductionHypothesis =>
      exact .separated isValue isSeparator inductionHypothesis

/-- A moved mark of importance is one. -/
theorem importanceForm
    {tokens : List Token}
    {important : Bool}
    (form : ImportanceForm tokens important) :
    ImportanceForm (tokens.map move.token) important := by
  cases form with
  | absent =>
      exact .absent
  | present isMark isWord isImportant =>
      exact .present isMark isWord isImportant

theorem declarationForm
    {tokens : List Token}
    {declaration : Declaration}
    (form : DeclarationForm tokens declaration) :
    DeclarationForm (tokens.map move.token) (move.declaration declaration) := by
  cases form with
  | @intro name colon last values importance important isName isColon form importanceIs isLast =>
      have isLastThere :
          (values.map move.token ++ importance.map move.token).getLast? =
            some (move.token last) := by
        rw [← List.map_append, List.getLast?_map, isLast]
        rfl
      have isNameThere : (move.token name).kind = .identifier := isName
      have isColonThere : (move.token colon).kind = .propertySeparator := isColon
      have there :=
        DeclarationForm.intro isNameThere isColonThere (move.valuesForm form)
          (move.importanceForm importanceIs) isLastThere
      rw [distance] at there
      rw [List.map_cons, List.map_cons, List.map_append]
      exact there

theorem blockForm
    {tokens : List Token}
    {declarations : List Declaration}
    (form : BlockForm tokens declarations) :
    BlockForm (tokens.map move.token) (declarations.map move.declaration) := by
  induction form with
  | nil =>
      exact .nil
  | last form =>
      exact .last (move.declarationForm form)
  | semicolon isSemicolon _ inductionHypothesis =>
      exact .semicolon isSemicolon inductionHypothesis
  | cons form isSemicolon _ inductionHypothesis =>
      rw [List.map_append]
      exact .cons (move.declarationForm form) isSemicolon inductionHypothesis

theorem ruleForm
    {tokens : List Token}
    {rule : Rule}
    (form : RuleForm tokens rule) :
    RuleForm (tokens.map move.token) (move.rule rule) := by
  cases form with
  | @intro group block first opening closing chains declarations groupForm isFirst isOpening form
      isClosing =>
      have isFirstThere : (group.map move.token).head? = some (move.token first) := by
        rw [List.head?_map, isFirst]
        rfl
      have isOpeningThere : (move.token opening).kind = .openBrace := isOpening
      have isClosingThere : (move.token closing).kind = .closeBrace := isClosing
      have there :=
        RuleForm.intro (move.chainsForm groupForm) isFirstThere isOpeningThere (move.blockForm form)
          isClosingThere
      rw [distance] at there
      rw [List.map_append, List.map_cons, List.map_append]
      exact there

/-- What tokens form at their new place is what they form, at its new place. -/
theorem rulesForm
    {tokens : List Token}
    {rules : List Rule}
    (form : RulesForm tokens rules) :
    RulesForm (tokens.map move.token) (rules.map move.rule) := by
  induction form with
  | nil =>
      exact .nil
  | cons form _ inductionHypothesis =>
      rw [List.map_append]
      exact .cons (move.ruleForm form) inductionHypothesis

end Forms

section Checks

open Check

/-- A moved declaration has the moved finding that its property is unknown. -/
private theorem unknownProperty?_eq
    {declaration : Declaration}
    (isNamed : declaration.propertyToken?.isSome) :
    unknownProperty? (move.declaration declaration) =
      (unknownProperty? declaration).map move.diagnostic := by
  obtain ⟨name, isName⟩ := Option.isSome_iff_exists.mp isNamed
  have here : propertyExcerpt declaration = name.toExcerpt := by
    rw [propertyExcerpt, isName]
  have there : propertyExcerpt (move.declaration declaration) = move.excerpt name.toExcerpt := by
    rw [propertyExcerpt, Relocation.declaration, isName]
    rfl
  unfold unknownProperty?
  rw [here, there, show (move.declaration declaration).property = declaration.property from rfl]
  split <;> rfl

/-- Whether values have a shape does not depend on where they stand. -/
private theorem fits_eq (shape : Shape) (tokens : List Token) :
    shape.fits (tokens.map move.token) = shape.fits tokens := by
  rw [← Shape.fits_unplaced, List.map_map, ← Shape.fits_unplaced shape tokens]
  rfl

/-- The text of values does not depend on where they stand. -/
private theorem joined_eq (tokens : List Token) :
    Token.joined (tokens.map move.token) = Token.joined tokens := by
  rw [← Token.joined_unplaced, List.map_map, ← Token.joined_unplaced tokens]
  rfl

/-- A moved declaration has the moved finding that its value is malformed. -/
private theorem malformedValue?_eq (declaration : Declaration) :
    malformedValue? (move.declaration declaration) =
      (malformedValue? declaration).map move.diagnostic := by
  obtain ⟨property, values, start, length, propertyToken?, important⟩ := declaration
  simp only [malformedValue?, Relocation.declaration, List.head?_map, List.getLast?_map]
  cases Property.shape? property with
  | none =>
      rfl
  | some shape =>
      cases values.head? with
      | none =>
          rfl
      | some first =>
          cases values.getLast? with
          | none =>
              rfl
          | some last =>
              simp only [Option.map_some, fits_eq]
              split
              · rfl
              · simp only [valueExcerpt, Declaration.valueText, joined_eq, distance]
                rfl

/-- A moved pseudo-state has the moved finding that it is unknown. -/
private theorem unknownPseudoState?_eq (className? : Option String) (state : PseudoState) :
    unknownPseudoState? className? (move.pseudoState state) =
      (unknownPseudoState? className? state).map move.diagnostic := by
  unfold unknownPseudoState?
  rw [show (move.pseudoState state).name = state.name from rfl]
  split <;> rfl

/-- A moved sub-control has the moved finding that it is unknown. -/
private theorem unknownSubControl?_eq (className? : Option String) (token : Token) :
    unknownSubControl? className? (move.token token) =
      (unknownSubControl? className? token).map move.diagnostic := by
  unfold unknownSubControl?
  rw [show (move.token token).text = token.text from rfl]
  split <;> rfl

/-- The findings about rules at their new place are the findings about them, at their new place. -/
theorem run_eq
    {tokens : List Token}
    {rules : List Rule}
    (form : Grammar.RulesForm tokens rules)
    (check : Check) :
    check.run ⟨rules.map move.rule⟩ = (check.run ⟨rules⟩).map move.diagnostic := by
  have declarations :
      (Sheet.mk (rules.map move.rule)).declarations =
        (Sheet.mk rules).declarations.map move.declaration := by
    simp only [Sheet.declarations, List.flatMap_map, List.map_flatMap]
    rfl
  have selectors :
      (Sheet.mk (rules.map move.rule)).selectors =
        (Sheet.mk rules).selectors.map move.selector := by
    simp only [Sheet.selectors, List.flatMap_map, List.map_flatMap, List.map_flatten]
    rfl
  cases check with
  | knownProperties =>
      simp only [run, declarations, List.filterMap_map, List.map_filterMap]
      refine List.filterMap_congr fun declaration member => unknownProperty?_eq move ?_
      obtain ⟨name, _, isName⟩ := (form.keptFrom.1 declaration member).property
      rw [isName]
      rfl
  | propertyValues =>
      simp only [run, declarations, List.filterMap_map, List.map_filterMap,
        Function.comp_def, malformedValue?_eq]
  | pseudoStates =>
      simp only [run, selectors, List.flatMap_map, List.map_flatMap, List.map_filterMap]
      congr 1
      funext selector
      simp only [Relocation.selector, List.filterMap_map, Function.comp_def,
        unknownPseudoState?_eq]
  | subControls =>
      simp only [run, selectors, List.filterMap_map, List.map_filterMap, Function.comp_def]
      congr 1
      funext selector
      cases subControl : selector.subControl? with
      | none =>
          simp [Relocation.selector, subControl]
      | some token =>
          simp [Relocation.selector, subControl, unknownSubControl?_eq]

end Checks

end Relocation

/-- The relocation of a text behind one front to the same text behind another. -/
def Relocation.between (front other whole : List Char) : Relocation where
  text := other ++ whole
  shift := other.length - front.length

section Between

variable {front other whole : List Char}

/-- An excerpt that is moved from behind one text to behind another is the relocated one. -/
theorem Excerpt.Moved.eq_relocated
    {here there : Excerpt}
    (moved :
      Excerpt.Moved (Position.first.after front) (Position.first.after other) whole here there)
    (behind : List Char) :
    there = (Relocation.between front other (whole ++ behind)).excerpt here := by
  obtain ⟨before, text, isPart, rfl, rfl⟩ := moved
  obtain ⟨rest, rfl⟩ := (List.prefix_append before text).trans isPart
  have isStart :
      ((front.length + before.length : Nat) : Int) + (other.length - front.length : Int) =
        ((other.length + before.length : Nat) : Int) := by
    omega
  have isTaken :
      (other ++ (before ++ rest ++ behind)).take (other.length + before.length) =
        other ++ before := by
    rw [List.append_assoc, ← List.append_assoc, ← List.length_append, List.take_left]
  simp only [Relocation.excerpt, Relocation.between, Excerpt.ofPosition, Position.offset_after,
    Position.first, Nat.zero_add, isStart, Int.toNat_natCast, isTaken, Position.after_append]

/-- Tokens of one text behind two fronts are the same tokens at two places. -/
theorem Token.eq_map_of_moved
    {here there : List Token}
    (moved :
      List.Forall₂
        (Token.Moved (Position.first.after front) (Position.first.after other) whole) here there)
    (behind : List Char) :
    there = here.map (Relocation.between front other (whole ++ behind)).token := by
  refine eq_map_of_forall₂ (moved.imp ?_)
  rintro ⟨excerpt, kind⟩ ⟨otherExcerpt, otherKind⟩ ⟨rfl, excerptMoved⟩
  rw [Relocation.token, ← excerptMoved.eq_relocated behind]

end Between

end QtSheet
