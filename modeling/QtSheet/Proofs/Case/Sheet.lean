import QtSheet.Proofs.Acceptance
import QtSheet.Proofs.Case.Term

namespace QtSheet

open Text

/-!
# Sheets in small letters

When the tokens inside of blocks are put in small letters, they form the same
rules with their declarations in small letters (`Grammar.RulesForm.small`), and
the checks find the same at the same places (`Sheet.place_validate_small`).
-/

/-- A declaration in small letters. -/
def Declaration.small (declaration : Declaration) : Declaration :=
  { declaration with
      property := String.ofList (Text.small declaration.property.toList)
      values := declaration.values.map Token.small
      propertyToken? := declaration.propertyToken?.map Token.small }

/-- A rule with its declarations in small letters. -/
def Rule.small (rule : Rule) : Rule :=
  { rule with declarations := rule.declarations.map Declaration.small }

/-- A sheet with its declarations in small letters. -/
def Sheet.small (sheet : Sheet) : Sheet :=
  ⟨sheet.rules.map Rule.small⟩

/-- Tokens with those inside of braces in small letters, from a number of open braces on. -/
def smallInside (depth : Nat) : List Token → List Token
  | [] => []
  | token :: rest =>
      (if depth = 0 then token else token.small) :: smallInside (token.depthAfter depth) rest

/-- Which tokens are inside of braces depends on the braces before them only. -/
theorem smallInside_append (depth : Nat) (front back : List Token) :
    smallInside depth (front ++ back) =
      smallInside depth front ++ smallInside (front.foldl Token.depthAfter depth) back := by
  induction front generalizing depth with
  | nil =>
      rfl
  | cons token rest inductionHypothesis =>
      simp only [List.cons_append, smallInside, inductionHypothesis, List.foldl_cons]

namespace Grammar

/-- Tokens without braces are all outside of braces, or all inside. -/
theorem Avoids.smallInside_eq
    {tokens : List Token}
    (avoids : Avoids braces tokens)
    (depth : Nat) :
    smallInside depth tokens = if depth = 0 then tokens else tokens.map Token.small := by
  induction tokens with
  | nil =>
      simp [smallInside]
  | cons token rest inductionHypothesis =>
      obtain ⟨noBrace, restAvoids⟩ := avoids_cons.mp avoids
      have sameDepth : token.depthAfter depth = depth :=
        Avoids.foldl_depthAfter (avoids_cons.mpr ⟨noBrace, avoids_nil⟩) depth
      rw [smallInside, sameDepth, inductionHypothesis restAvoids]
      split <;> rfl

/-- Values in small letters are values. -/
theorem ValuesForm.small
    {tokens : List Token}
    (form : ValuesForm tokens) :
    ValuesForm (tokens.map Token.small) := by
  induction form with
  | last isValue =>
      exact .last isValue
  | next isValue _ inductionHypothesis =>
      exact .next isValue inductionHypothesis
  | separated isValue isSeparator _ inductionHypothesis =>
      exact .separated isValue isSeparator inductionHypothesis

/-- A mark of importance in small letters is one. -/
theorem ImportanceForm.small
    {tokens : List Token}
    {important : Bool}
    (form : ImportanceForm tokens important) :
    ImportanceForm (tokens.map Token.small) important := by
  cases form with
  | absent =>
      exact .absent
  | present isMark isWord isImportant =>
      refine .present isMark isWord ?_
      rw [Token.small, lowercase_small, String.ofList_toList]
      exact isImportant

/-- A declaration in small letters is of the small form of the declaration. -/
theorem DeclarationForm.small
    {tokens : List Token}
    {declaration : Declaration}
    (form : DeclarationForm tokens declaration) :
    DeclarationForm (tokens.map Token.small) declaration.small := by
  cases form with
  | @intro name colon last values importance important isName isColon valuesForm importanceForm
      isLast =>
      have isLastSmall :
          (values.map Token.small ++ importance.map Token.small).getLast? = some last.small := by
        rw [← List.map_append, List.getLast?_map, isLast]
        rfl
      have isNameSmall : name.small.kind = .identifier := isName
      have isColonSmall : colon.small.kind = .propertySeparator := isColon
      have isDeclaration :=
        DeclarationForm.intro isNameSmall isColonSmall valuesForm.small importanceForm.small
          isLastSmall
      rw [List.map_cons, List.map_cons, List.map_append]
      exact isDeclaration

/-- A block in small letters is of the small forms of its declarations. -/
theorem BlockForm.small
    {tokens : List Token}
    {declarations : List Declaration}
    (form : BlockForm tokens declarations) :
    BlockForm (tokens.map Token.small) (declarations.map Declaration.small) := by
  induction form with
  | nil =>
      exact .nil
  | last form =>
      exact .last form.small
  | semicolon isSemicolon _ inductionHypothesis =>
      exact .semicolon isSemicolon inductionHypothesis
  | cons form isSemicolon _ inductionHypothesis =>
      rw [List.map_append]
      exact .cons form.small isSemicolon inductionHypothesis

/-- A rule with its block in small letters is of the small form of the rule. -/
theorem RuleForm.small
    {tokens : List Token}
    {rule : Rule}
    (form : RuleForm tokens rule) :
    RuleForm (smallInside 0 tokens) rule.small := by
  cases form with
  | @intro group block first opening closing chains declarations groupForm isFirst isOpening
      blockForm isClosing =>
      have isClosingSmall : closing.small.kind = .closeBrace := isClosing
      have isBlock :
          smallInside 0 (group ++ opening :: (block ++ [closing])) =
            group ++ opening :: (block.map Token.small ++ [closing.small]) := by
        have opens : opening.depthAfter 0 = 1 := by
          rw [Token.depthAfter, isOpening]
        rw [smallInside_append, groupForm.avoids.foldl_depthAfter, groupForm.avoids.smallInside_eq,
          smallInside, opens, smallInside_append, blockForm.avoids.foldl_depthAfter,
          blockForm.avoids.smallInside_eq]
        rfl
      rw [isBlock]
      exact .intro groupForm isFirst isOpening blockForm.small isClosingSmall

/-- Rules whose blocks are put in small letters are the rules with small letters in their blocks. -/
theorem RulesForm.small
    {tokens : List Token}
    {rules : List Rule}
    (form : RulesForm tokens rules) :
    RulesForm (smallInside 0 tokens) (rules.map Rule.small) := by
  induction form with
  | nil =>
      exact .nil
  | cons form _ inductionHypothesis =>
      rw [smallInside_append, form.foldl_depthAfter]
      exact .cons form.small inductionHypothesis

end Grammar

/-- The severity and the place of a finding, without its words. -/
def Diagnostic.place (diagnostic : Diagnostic) : Severity × Int × Int × Int × Int :=
  (diagnostic.severity, diagnostic.start, diagnostic.length, diagnostic.line, diagnostic.column)

/-- The shape of a property does not depend on which letters of its name are capital. -/
theorem Property.shape?_small (name : String) :
    shape? (String.ofList (Text.small name.toList)) = shape? name := by
  rw [shape?, shape?, lowercase_small, String.ofList_toList]

namespace Check

/-- An unknown property is reported at the same place in small letters. -/
theorem place_unknownProperty? (declaration : Declaration) :
    (unknownProperty? declaration.small).map Diagnostic.place =
      (unknownProperty? declaration).map Diagnostic.place := by
  obtain ⟨property, values, start, length, propertyToken?, important⟩ := declaration
  simp only [unknownProperty?, Declaration.small, Property.shape?_small]
  cases Property.shape? property with
  | some shape =>
      rfl
  | none =>
      cases propertyToken? with
      | some name =>
          rfl
      | none =>
          simp [Diagnostic.place, propertyExcerpt, Excerpt.empty, String.length_toList]

/-- A malformed value is reported at the same place in small letters. -/
theorem place_malformedValue? (declaration : Declaration) :
    (malformedValue? declaration.small).map Diagnostic.place =
      (malformedValue? declaration).map Diagnostic.place := by
  obtain ⟨property, values, start, length, propertyToken?, important⟩ := declaration
  simp only [malformedValue?, Declaration.small, List.head?_map, List.getLast?_map,
    Property.shape?_small]
  cases Property.shape? property with
  | none =>
      rfl
  | some shape =>
      cases values.head? with
      | none =>
          rfl
      | some first =>
          cases values.getLast? with
          | none =>
              rfl
          | some last =>
              simp only [Option.map_some, Shape.fits_small]
              split <;> rfl

/-- A check reports the same places for a sheet in small letters. -/
theorem place_run_small (sheet : Sheet) (check : Check) :
    (check.run sheet.small).map Diagnostic.place = (check.run sheet).map Diagnostic.place := by
  have declarations : sheet.small.declarations = sheet.declarations.map Declaration.small := by
    simp only [Sheet.declarations, Sheet.small, List.flatMap_map, List.map_flatMap]
    rfl
  have selectors : sheet.small.selectors = sheet.selectors := by
    simp only [Sheet.selectors, Sheet.small, List.flatMap_map]
    rfl
  cases check with
  | knownProperties =>
      simp only [run, declarations, List.filterMap_map, List.map_filterMap, Function.comp_apply,
        place_unknownProperty?]
  | propertyValues =>
      simp only [run, declarations, List.filterMap_map, List.map_filterMap, Function.comp_apply,
        place_malformedValue?]
  | pseudoStates =>
      simp only [run, selectors]
  | subControls =>
      simp only [run, selectors]

end Check

/-- All checks find the same at the same places. -/
theorem Sheet.place_validate_small (sheet : Sheet) (extra : List Check) :
    (sheet.small.validate extra).map Diagnostic.place =
      (sheet.validate extra).map Diagnostic.place := by
  simp only [validate, List.map_flatMap, Check.place_run_small]

end QtSheet
