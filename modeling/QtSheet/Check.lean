import QtSheet.Diagnostic
import QtSheet.Log
import QtSheet.Sheet
import QtSheet.Value.Match
import QtSheet.Widget

namespace QtSheet

/-!
# Checks

A style sheet that can be read may still name what no widget knows. Each check
looks at one kind of name or value in the whole sheet, and reports in the order
of the text. The checks run one after another.
-/

/-- What is checked about a style sheet. -/
inductive Check where
  /-- Properties are known. -/
  | knownProperties
  /-- The values of known properties have the shape of the property. -/
  | propertyValues
  /-- Pseudo-states are known for the class of the selector. -/
  | pseudoStates
  /-- Sub-controls are known for the class of the selector. -/
  | subControls
  deriving Repr, DecidableEq

namespace Check

/-- How a check is called in the log. -/
def label : Check → String
  | .knownProperties => "check_known_properties"
  | .propertyValues => "check_property_values"
  | .pseudoStates => "check_pseudo_states"
  | .subControls => "check_sub_controls"

/-- All checks, in the order in which they run. -/
def all : List Check :=
  [.knownProperties, .propertyValues, .pseudoStates, .subControls]

/-- The check that is called in a given way. -/
def ofLabel? (text : String) : Option Check :=
  all.find? fun check => check.label == text

/-- The excerpt that a finding about the property of a declaration points at. -/
def propertyExcerpt (declaration : Declaration) : Excerpt :=
  match declaration.propertyToken? with
  | some token => token.toExcerpt
  | none =>
      { Excerpt.empty with
          text := declaration.property
          start := declaration.start
          length := declaration.property.length }

/-- The finding about a property that is not known. -/
def unknownProperty? (declaration : Declaration) : Option Diagnostic :=
  match Property.shape? declaration.property with
  | some _ => none
  | none =>
      some {
        toExcerpt := propertyExcerpt declaration
        severity := .semantic
        message := "unknown property: " ++ declaration.property
      }

/-- A property is found unknown exactly when it has no shape. -/
theorem unknownProperty?_eq_some
    {declaration : Declaration}
    {diagnostic : Diagnostic} :
    unknownProperty? declaration = some diagnostic ↔
      Property.shape? declaration.property = none ∧
        diagnostic =
          ⟨propertyExcerpt declaration, .semantic,
            "unknown property: " ++ declaration.property⟩ := by
  unfold unknownProperty?
  cases Property.shape? declaration.property <;> simp [eq_comm]

/-- The excerpt from the first to the last token of the value of a declaration. -/
def valueExcerpt (declaration : Declaration) (first last : Token) : Excerpt where
  text := declaration.valueText
  start := first.start
  length := last.stop - first.start
  line := first.line
  column := first.column

/-- The finding about a value that does not have the shape of its property. -/
def malformedValue? (declaration : Declaration) : Option Diagnostic :=
  match Property.shape? declaration.property, declaration.values.head?,
      declaration.values.getLast? with
  | some shape, some first, some last =>
      if shape.fits declaration.values then
        none
      else
        some {
          toExcerpt := valueExcerpt declaration first last
          severity := .semantic
          message := "malformed value for property: " ++ declaration.property
        }
  | _, _, _ => none

/--
A value is found malformed exactly when its property has a shape and the value
does not have it.
-/
theorem malformedValue?_eq_some
    {declaration : Declaration}
    {diagnostic : Diagnostic} :
    malformedValue? declaration = some diagnostic ↔
      ∃ shape first last,
        Property.shape? declaration.property = some shape ∧
          shape.fits declaration.values = false ∧
          declaration.values.head? = some first ∧
          declaration.values.getLast? = some last ∧
          diagnostic =
            ⟨valueExcerpt declaration first last, .semantic,
              "malformed value for property: " ++ declaration.property⟩ := by
  unfold malformedValue?
  constructor
  · intro isFound
    split at isFound
    case h_1 shape first last isShape isFirst isLast =>
      rw [Option.ite_none_left_eq_some] at isFound
      exact ⟨shape, first, last, isShape, Bool.eq_false_iff.mpr isFound.1, isFirst, isLast,
        (Option.some.inj isFound.2).symm⟩
    case h_2 =>
      cases isFound
  · rintro ⟨shape, first, last, isShape, misfits, isFirst, isLast, rfl⟩
    simp [isShape, misfits, isFirst, isLast]

/-- The finding about a pseudo-state that is not known for a class. -/
def unknownPseudoState? (className? : Option String) (state : PseudoState) : Option Diagnostic :=
  if (Widget.pseudoStatesOf className?).contains (Text.lowercase state.name) then
    none
  else
    some (.ofToken .semantic ("unknown pseudo-state: " ++ state.name) state.token)

/-- A pseudo-state is found unknown exactly when it is none of those known, in small letters. -/
theorem unknownPseudoState?_eq_some
    {className? : Option String}
    {state : PseudoState}
    {diagnostic : Diagnostic} :
    unknownPseudoState? className? state = some diagnostic ↔
      Text.lowercase state.name ∉ Widget.pseudoStates ∧
        diagnostic = .ofToken .semantic ("unknown pseudo-state: " ++ state.name) state.token := by
  simp [unknownPseudoState?, Widget.pseudoStatesOf, eq_comm]

/-- The finding about a sub-control that is not known for a class. -/
def unknownSubControl? (className? : Option String) (token : Token) : Option Diagnostic :=
  if (Widget.subControlsOf className?).contains (Text.lowercase token.text) then
    none
  else
    some (.ofToken .semantic ("unknown sub-control: " ++ token.text) token)

/--
A sub-control is found unknown exactly when it is none of those of the class, in
small letters.
-/
theorem unknownSubControl?_eq_some
    {className? : Option String}
    {token : Token}
    {diagnostic : Diagnostic} :
    unknownSubControl? className? token = some diagnostic ↔
      Text.lowercase token.text ∉ Widget.subControlsOf className? ∧
        diagnostic = .ofToken .semantic ("unknown sub-control: " ++ token.text) token := by
  simp [unknownSubControl?, eq_comm]

/-- The findings of a check about a sheet. -/
def run (sheet : Sheet) : Check → List Diagnostic
  | .knownProperties => sheet.declarations.filterMap unknownProperty?
  | .propertyValues => sheet.declarations.filterMap malformedValue?
  | .pseudoStates =>
      sheet.selectors.flatMap fun selector =>
        selector.pseudoStates.filterMap (unknownPseudoState? selector.typeName?)
  | .subControls =>
      sheet.selectors.filterMap fun selector =>
        selector.subControl?.bind (unknownSubControl? selector.typeName?)

/-- What the log says about a check that has findings. -/
def logEntry? (sheet : Sheet) (check : Check) : Option LogEntry :=
  let found := check.run sheet
  if found.isEmpty then
    none
  else
    some ⟨.debug, s!"{check.label} reported {found.length} diagnostic(s)"⟩

end Check

namespace Sheet

/-- The findings of all checks, and of the given ones run again after them. -/
def validate (sheet : Sheet) (extra : List Check) : List Diagnostic :=
  (Check.all ++ extra).flatMap (Check.run sheet)

/-- What the log says about the checks. -/
def validationLog (sheet : Sheet) (extra : List Check) : List LogEntry :=
  (Check.all ++ extra).filterMap (Check.logEntry? sheet)

end Sheet

end QtSheet
