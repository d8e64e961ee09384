import QtSheet.Check

namespace QtSheet

/-!
# Sheets without places

The parts of a sheet keep their places, and findings point at them. What the
findings say does not depend on the places: the checks report the same about a
sheet and about the sheet without places (`report_run_unplaced`).
-/

/-- A token without its place. -/
def Token.unplaced (token : Token) : Token where
  text := token.text
  start := 0
  length := 0
  line := 0
  column := 0
  kind := token.kind

/-- A pseudo-state without its place. -/
def PseudoState.unplaced (state : PseudoState) : PseudoState :=
  { state with token := state.token.unplaced }

/-- A selector without its place. -/
def Selector.unplaced (selector : Selector) : Selector :=
  { selector with
      pseudoStates := selector.pseudoStates.map PseudoState.unplaced
      subControl? := selector.subControl?.map Token.unplaced
      start := 0
      length := 0 }

/-- A chain without its place. -/
def Chain.unplaced (chain : Chain) : Chain :=
  chain.map Selector.unplaced

/-- A declaration without its place. -/
def Declaration.unplaced (declaration : Declaration) : Declaration :=
  { declaration with
      values := declaration.values.map Token.unplaced
      start := 0
      length := 0
      propertyToken? := declaration.propertyToken?.map Token.unplaced }

/-- A rule without its place. -/
def Rule.unplaced (rule : Rule) : Rule where
  chains := rule.chains.map Chain.unplaced
  declarations := rule.declarations.map Declaration.unplaced
  start := 0
  length := 0

/-- A sheet without places. -/
def Sheet.unplaced (sheet : Sheet) : Sheet :=
  ⟨sheet.rules.map Rule.unplaced⟩

/-- What a finding says, without the excerpt it is about. -/
def Diagnostic.report (diagnostic : Diagnostic) : Severity × String :=
  (diagnostic.severity, diagnostic.message)

namespace Sheet

/-- The declarations of a sheet without places are its declarations without places. -/
theorem declarations_unplaced (sheet : Sheet) :
    sheet.unplaced.declarations = sheet.declarations.map Declaration.unplaced := by
  simp only [declarations, unplaced, List.flatMap_map, List.map_flatMap]
  rfl

/-- The selectors of a sheet without its places are its selectors without theirs. -/
theorem selectors_unplaced (sheet : Sheet) :
    sheet.unplaced.selectors = sheet.selectors.map Selector.unplaced := by
  simp only [selectors, unplaced, List.flatMap_map, List.map_flatMap, List.map_flatten]
  rfl

end Sheet

/-- Tokens that are the same up to places have the same text. -/
theorem Token.text_eq_of_unplaced
    {here there : Token}
    (same : here.unplaced = there.unplaced) :
    here.text = there.text :=
  congrArg (fun token => token.text) same

/-- The joined texts of tokens do not depend on their places. -/
theorem Token.joined_unplaced (tokens : List Token) :
    Token.joined (tokens.map Token.unplaced) = Token.joined tokens := by
  simp only [Token.joined, List.map_map]
  rfl

/-- Whether a value has a shape does not depend on its place. -/
theorem Shape.fits_unplaced (shape : Shape) (tokens : List Token) :
    shape.fits (tokens.map Token.unplaced) = shape.fits tokens := by
  cases shape with
  | keyword words most =>
      simp only [fits, List.length_map, List.all_map]
      rfl
  | any =>
      rfl
  | _ =>
      simp only [fits, Value.hasTerms, Token.joined_unplaced]

namespace Check

/-- That a property is unknown is reported alike without the places. -/
private theorem report_unknownProperty? (declaration : Declaration) :
    (unknownProperty? declaration.unplaced).map Diagnostic.report =
      (unknownProperty? declaration).map Diagnostic.report := by
  unfold unknownProperty?
  rw [show declaration.unplaced.property = declaration.property from rfl]
  split <;> rfl

private theorem report_malformedValue? (declaration : Declaration) :
    (malformedValue? declaration.unplaced).map Diagnostic.report =
      (malformedValue? declaration).map Diagnostic.report := by
  obtain ⟨property, values, start, length, propertyToken?, important⟩ := declaration
  simp only [malformedValue?, Declaration.unplaced, List.head?_map, List.getLast?_map]
  cases Property.shape? property with
  | none =>
      rfl
  | some shape =>
      cases values.head? with
      | none =>
          rfl
      | some first =>
          cases values.getLast? with
          | none =>
              rfl
          | some last =>
              simp only [Option.map_some, Shape.fits_unplaced]
              split <;> rfl

private theorem report_unknownPseudoState? (className? : Option String) (state : PseudoState) :
    (unknownPseudoState? className? state.unplaced).map Diagnostic.report =
      (unknownPseudoState? className? state).map Diagnostic.report := by
  unfold unknownPseudoState?
  rw [show state.unplaced.name = state.name from rfl]
  split <;> rfl

private theorem report_unknownSubControl? (className? : Option String) (token : Token) :
    (unknownSubControl? className? token.unplaced).map Diagnostic.report =
      (unknownSubControl? className? token).map Diagnostic.report := by
  unfold unknownSubControl?
  rw [show token.unplaced.text = token.text from rfl]
  split <;> rfl

/-- What a check says about a sheet does not depend on places. -/
theorem report_run_unplaced (sheet : Sheet) (check : Check) :
    (check.run sheet.unplaced).map Diagnostic.report =
      (check.run sheet).map Diagnostic.report := by
  cases check with
  | knownProperties =>
      simp only [run, Sheet.declarations_unplaced, List.filterMap_map, List.map_filterMap,
        Function.comp_apply, report_unknownProperty?]
  | propertyValues =>
      simp only [run, Sheet.declarations_unplaced, List.filterMap_map, List.map_filterMap,
        Function.comp_apply, report_malformedValue?]
  | pseudoStates =>
      simp only [run, Sheet.selectors_unplaced, List.flatMap_map, List.map_flatMap,
        List.map_filterMap]
      congr 1
      funext selector
      simp only [Selector.unplaced, List.filterMap_map, Function.comp_def,
        report_unknownPseudoState?]
  | subControls =>
      simp only [run, Sheet.selectors_unplaced, List.filterMap_map, List.map_filterMap,
        Function.comp_apply]
      congr 1
      funext selector
      cases subControl : selector.subControl? with
      | none =>
          simp [Selector.unplaced, subControl]
      | some token =>
          simp [Selector.unplaced, subControl, report_unknownSubControl?]

end Check

/-- What all checks say about a sheet does not depend on places. -/
theorem Sheet.report_validate_unplaced (sheet : Sheet) (extra : List Check) :
    (sheet.unplaced.validate extra).map Diagnostic.report =
      (sheet.validate extra).map Diagnostic.report := by
  simp only [validate, List.map_flatMap, Check.report_run_unplaced]

end QtSheet
