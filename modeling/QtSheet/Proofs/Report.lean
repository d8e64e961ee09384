import QtSheet.Proofs.Message
import QtSheet.Proofs.Stage

namespace QtSheet

open Text

/-!
# Reports that a text cannot forge

Whatever a text is, the lines of the report about it are printable, if the name
of its file is: messages show names and quoted text only. So a text can neither
break a line of its report nor hide one, and a finding takes as many lines as
the style has it take (`report_isPlain`).
-/

/-- Messages about faults are printable. -/
theorem Fault.printable_message
    {fault : Fault}
    (isShown : fault.reason.IsShown)
    (last : Token) :
    Printable (fault.diagnostic last).message :=
  isShown.printable_message (printable_describe (fault.blamed last))

/-- Messages about characters are printable. -/
theorem PlacedPiece.printable_message
    {placed : PlacedPiece}
    {diagnostic : Diagnostic}
    (isFound : placed.diagnostic? = some diagnostic) :
    Printable diagnostic.message := by
  obtain ⟨message, rfl, isStray | isOpen⟩ := exists_message_of_diagnostic? isFound
  · obtain ⟨character, _, rfl⟩ := isStray
    exact .append (by decide) (printable_quoted _)
  · obtain ⟨construct, text, _, rfl⟩ := isOpen
    have isLabel : Printable construct.label := by
      cases construct <;> decide
    exact .append (by decide) isLabel

/-- The names that messages show of a style sheet are printable. -/
def Sheet.IsShown (sheet : Sheet) : Prop :=
  ∀ rule ∈ sheet.rules, rule.IsShown

namespace Sheet.IsShown

variable {sheet : Sheet} (isShown : sheet.IsShown)

include isShown

/-- The name of a property of the sheet is printable. -/
theorem printable_property
    {declaration : Declaration}
    (member : declaration ∈ sheet.declarations) :
    Printable declaration.property := by
  obtain ⟨rule, isRule, inRule⟩ := List.mem_flatMap.mp member
  exact (isShown rule isRule).declarations declaration inRule

/-- The names of a selector of the sheet are printable. -/
theorem isShown_selector
    {selector : Selector}
    (member : selector ∈ sheet.selectors) :
    selector.IsShown := by
  obtain ⟨rule, isRule, inRule⟩ := List.mem_flatMap.mp member
  obtain ⟨chain, isChain, inChain⟩ := List.mem_flatten.mp inRule
  exact (isShown rule isRule).chains chain isChain selector inChain

/-- Messages about names and values are printable. -/
theorem printable_message
    {check : Check}
    {diagnostic : Diagnostic}
    (member : diagnostic ∈ check.run sheet) :
    Printable diagnostic.message := by
  cases check with
  | knownProperties =>
      obtain ⟨declaration, isDeclaration, isFound⟩ := List.mem_filterMap.mp member
      obtain ⟨_, rfl⟩ := Check.unknownProperty?_eq_some.mp isFound
      exact .append (by decide) (isShown.printable_property isDeclaration)
  | propertyValues =>
      obtain ⟨declaration, isDeclaration, isFound⟩ := List.mem_filterMap.mp member
      obtain ⟨_, _, _, _, _, _, _, rfl⟩ := Check.malformedValue?_eq_some.mp isFound
      exact .append (by decide) (isShown.printable_property isDeclaration)
  | pseudoStates =>
      obtain ⟨selector, isSelector, inSelector⟩ := List.mem_flatMap.mp member
      obtain ⟨state, isState, isFound⟩ := List.mem_filterMap.mp inSelector
      obtain ⟨_, rfl⟩ := Check.unknownPseudoState?_eq_some.mp isFound
      exact .append (by decide) ((isShown.isShown_selector isSelector).pseudoStates state isState)
  | subControls =>
      obtain ⟨selector, isSelector, inSelector⟩ := List.mem_filterMap.mp member
      obtain ⟨name, isName, isFound⟩ := Option.bind_eq_some_iff.mp inSelector
      obtain ⟨_, rfl⟩ := Check.unknownSubControl?_eq_some.mp isFound
      exact .append (by decide) ((isShown.isShown_selector isSelector).subControl name isName)

end Sheet.IsShown

/-- The names of a sheet that is checked are printable. -/
theorem isShown_checkedSheet?
    {source : String}
    {mode : Mode}
    {sheet : Sheet}
    (isChecked : checkedSheet? source mode = some sheet) :
    sheet.IsShown := by
  have isRead := ofSource_eq_ok_iff_ofTokens.mp (ofSource_of_checkedSheet? isChecked)
  obtain ⟨_, areRules⟩ := ofTokens_eq_ok.mp isRead.2
  rw [Sheet.IsShown, ← areRules]
  exact (isShown_outline source).rules

/-- Every message about a text is printable. -/
theorem printable_message_lint
    {file source : String}
    {mode : Mode}
    {diagnostic : Diagnostic}
    (member : diagnostic ∈ (lint file source mode).diagnostics) :
    Printable diagnostic.message := by
  rcases List.mem_append.mp member with ofForm | ofChecks
  · rcases List.mem_append.mp ofForm with isLexical | isSyntactic
    · obtain ⟨placed, _, isFound⟩ := List.mem_filterMap.mp isLexical
      exact PlacedPiece.printable_message isFound
    · rw [findings_ofTokens] at isSyntactic
      obtain ⟨fault, isFault, rfl⟩ := List.mem_map.mp isSyntactic
      exact Fault.printable_message ((isShown_outline source).faults fault isFault) _
  · obtain ⟨sheet, isChecked, inSheet⟩ := List.mem_flatMap.mp ofChecks
    obtain ⟨check, _, isFound⟩ := List.mem_flatMap.mp inSheet
    exact (isShown_checkedSheet? (Option.mem_toList.mp isChecked)).printable_message isFound

namespace Diagnostic

variable {diagnostic : Diagnostic}

/-- The line of a finding is printable if the path and the message are. -/
theorem printable_reportLine
    {file : String}
    (isFile : Printable file)
    (isMessage : Printable diagnostic.message) :
    Printable (diagnostic.reportLine file) := by
  have isLabel : Printable diagnostic.severity.label := by
    cases diagnostic.severity <;> decide
  refine .append (.append isFile (by decide)) ?_
  refine .append (.append (.append (.append (.append (.append ?_ ?_) ?_) ?_) isLabel) ?_) isMessage
  · exact printable_toString_int diagnostic.line
  · decide
  · exact printable_toString_int diagnostic.column
  · decide
  · decide

/-- The text around a finding is shown in seven lines. -/
theorem length_contextLines (source : String) (previewLength : Int) :
    (diagnostic.contextLines source previewLength).length = 7 :=
  rfl

/-- The text around a finding is shown in printable characters, whatever it is. -/
theorem printable_of_mem_contextLines
    {source line : String}
    {previewLength : Int}
    (member : line ∈ diagnostic.contextLines source previewLength) :
    Printable line := by
  simp only [contextLines, List.mem_cons, List.not_mem_nil, or_false] at member
  rcases member with rfl | rfl | rfl | rfl | rfl | rfl | rfl
  · exact .append (by decide) (printable_quoted _)
  · exact .append (.append (.append (by decide) (printable_toString_int _)) (by decide))
      (printable_toString_int _)
  · exact .append (by decide) (printable_toString_nat _)
  · refine .append (by decide) ?_
    refine .append (.append (.append (.append ?_ (by decide)) ?_) (by decide)) ?_
    all_goals exact printable_toString_nat _
  all_goals exact .append (by decide) (printable_quoted _)

end Diagnostic

namespace Outcome

variable {outcome : Outcome} {style : ReportStyle}

/-- How many lines a finding takes. -/
theorem length_findingLines (diagnostic : Diagnostic) :
    (outcome.findingLines style diagnostic).length = if style.verbose then 8 else 1 := by
  unfold findingLines
  split
  · rw [List.length_cons, Diagnostic.length_contextLines]
  · rfl

/-- A report has its heading, and the lines of each finding. -/
theorem length_report :
    (outcome.report style).length =
      (if outcome.success then 0 else 1) +
        outcome.diagnostics.length * (if style.verbose then 8 else 1) := by
  have isHeading :
      (if outcome.success then [] else ["Invalid stylesheet for " ++ outcome.file]).length =
        if outcome.success then 0 else 1 := by
    split <;> rfl
  rw [report, List.length_append, isHeading, List.length_flatMap,
    List.map_congr_left fun diagnostic _ => length_findingLines diagnostic, List.map_const',
    List.sum_replicate_nat]

section Printable

variable (isFile : Printable outcome.file)

include isFile

/-- All lines of a finding are printable. -/
theorem printable_of_mem_findingLines
    {diagnostic : Diagnostic}
    (isMessage : Printable diagnostic.message)
    {line : String}
    (member : line ∈ outcome.findingLines style diagnostic) :
    Printable line := by
  rcases List.mem_cons.mp member with rfl | isContext
  · exact diagnostic.printable_reportLine isFile isMessage
  · split at isContext
    · exact diagnostic.printable_of_mem_contextLines isContext
    · cases isContext

/-- All lines of a report are printable. -/
theorem printable_of_mem_report
    (areMessages : ∀ diagnostic ∈ outcome.diagnostics, Printable diagnostic.message)
    {line : String}
    (member : line ∈ outcome.report style) :
    Printable line := by
  rcases List.mem_append.mp member with isHeading | inFindings
  · split at isHeading
    · cases isHeading
    · rw [List.mem_singleton.mp isHeading]
      exact .append (by decide) isFile
  · obtain ⟨diagnostic, isDiagnostic, inLines⟩ := List.mem_flatMap.mp inFindings
    exact printable_of_mem_findingLines isFile (areMessages diagnostic isDiagnostic) inLines

end Printable

/-- A report shows what it says, one line as one line. -/
structure IsPlain (outcome : Outcome) (style : ReportStyle) : Prop where
  printable : ∀ line ∈ outcome.report style, Printable line
  /-- No line has a control, a format character or a separator other than the space. -/
  noHidden : ∀ line ∈ outcome.report style, ∀ c ∈ line.toList, isHidden c = false
  /-- Taking out escape sequences takes nothing out. -/
  noEscapes : (outcome.report style).map withoutEscapes = outcome.report style
  /-- The lines that are seen are those of the report, whatever ends a line. -/
  lines :
    physicalLines (CommandLine.textOfLines (outcome.report style)) = outcome.report style ++ [""]
  /-- A finding takes one line, or eight with the text around it. -/
  findingLines :
    ∀ diagnostic ∈ outcome.diagnostics,
      physicalLines (CommandLine.textOfLines (outcome.findingLines style diagnostic)) =
          outcome.findingLines style diagnostic ++ [""] ∧
        (outcome.findingLines style diagnostic).length = if style.verbose then 8 else 1
  length :
    (outcome.report style).length =
      (if outcome.success then 0 else 1) +
        outcome.diagnostics.length * (if style.verbose then 8 else 1)

end Outcome

/-- The report about a text is plain in every mode and style, whatever the text is. -/
theorem report_isPlain
    {file : String}
    (isFile : Printable file)
    (source : String)
    (mode : Mode)
    (style : ReportStyle) :
    (lint file source mode).IsPlain style := by
  have areMessages :
      ∀ diagnostic ∈ (lint file source mode).diagnostics, Printable diagnostic.message :=
    fun _ => printable_message_lint
  have arePrintable : ∀ line ∈ (lint file source mode).report style, Printable line :=
    fun _ => Outcome.printable_of_mem_report isFile areMessages
  refine ⟨arePrintable, ?_, ?_, physicalLines_textOfLines arePrintable, ?_, Outcome.length_report⟩
  · exact fun line isLine c member => (arePrintable line isLine).isHidden_eq_false member
  · exact (List.map_congr_left fun line isLine =>
      withoutEscapes_of_printable (arePrintable line isLine)).trans (List.map_id' _)
  · intro diagnostic isDiagnostic
    have isMessage := areMessages diagnostic isDiagnostic
    refine ⟨physicalLines_textOfLines ?_, Outcome.length_findingLines diagnostic⟩
    exact fun _ => Outcome.printable_of_mem_findingLines isFile isMessage

/--
A text that repeats an id, has an escape sequence and writes a finding of its
own on a line in a string is reported in plain lines all the same.
-/
theorem report_isPlain_hidden :
    let source := "#é#b\x7b\x7d\nQ\x1b[2J\x7bq:'\n\r\u2028a.qss:1:1: SYNTAX\n' 1"
    let style : ReportStyle := ⟨true, -3⟩
    Printable "a.qss" ∧
      escapeCharacter ∈ source.toList ∧
      (lint "a.qss" source .full).diagnostics.length = 4 ∧
      (lint "a.qss" source .full).IsPlain style ∧
      ((lint "a.qss" source .full).report style).length = 33 := by
  intro source style
  have isFile : Printable "a.qss" := by decide
  have isPlain := report_isPlain isFile source .full style
  have isLength : (lint "a.qss" source .full).diagnostics.length = 4 := by
    decide +kernel
  refine ⟨isFile, by decide, isLength, isPlain, ?_⟩
  rw [isPlain.length, isLength]
  decide +kernel

end QtSheet
