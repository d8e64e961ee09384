import QtSheet.Lint
import QtSheet.Proofs.Acceptance

namespace QtSheet

/-!
# What each stage finds

Linting a text and reading it as a style sheet are two ways through the same
stages. Each stage gives its findings a severity of its own, so whether a text
passes can be told from whether anything is found, and both ways report the
same about the form of a text (`entryPoints_agree`).
-/

/-- Findings about characters are lexical. -/
theorem severity_of_mem_diagnostics
    {source : String}
    {diagnostic : Diagnostic}
    (member : diagnostic ∈ (tokenize source).diagnostics) :
    diagnostic.severity = .lexical := by
  obtain ⟨placed, _, isFinding⟩ := List.mem_filterMap.mp member
  obtain ⟨message, rfl, _⟩ := PlacedPiece.exists_message_of_diagnostic? isFinding
  rfl

/-- Findings about tokens are about syntax. -/
theorem severity_of_mem_findings
    {tokens : List Token}
    {diagnostic : Diagnostic}
    (member : diagnostic ∈ findings (Sheet.ofTokens tokens)) :
    diagnostic.severity = .syntactic := by
  rw [findings_ofTokens] at member
  obtain ⟨fault, _, rfl⟩ := List.mem_map.mp member
  rfl

/-- What a check finds is about meaning. -/
theorem Check.severity_of_mem_run
    {check : Check}
    {sheet : Sheet}
    {diagnostic : Diagnostic}
    (member : diagnostic ∈ check.run sheet) :
    diagnostic.severity = .semantic := by
  cases check with
  | knownProperties =>
      obtain ⟨declaration, _, isFound⟩ := List.mem_filterMap.mp member
      obtain ⟨_, rfl⟩ := unknownProperty?_eq_some.mp isFound
      rfl
  | propertyValues =>
      obtain ⟨declaration, _, isFound⟩ := List.mem_filterMap.mp member
      obtain ⟨_, _, _, _, _, _, _, rfl⟩ := malformedValue?_eq_some.mp isFound
      rfl
  | pseudoStates =>
      obtain ⟨selector, _, inSelector⟩ := List.mem_flatMap.mp member
      obtain ⟨state, _, isFound⟩ := List.mem_filterMap.mp inSelector
      obtain ⟨_, rfl⟩ := unknownPseudoState?_eq_some.mp isFound
      rfl
  | subControls =>
      obtain ⟨selector, _, inSelector⟩ := List.mem_filterMap.mp member
      obtain ⟨name, _, isFound⟩ := Option.bind_eq_some_iff.mp inSelector
      obtain ⟨_, rfl⟩ := unknownSubControl?_eq_some.mp isFound
      rfl

/-- What the checks find is semantic. -/
theorem severity_of_mem_validate
    {sheet : Sheet}
    {extra : List Check}
    {diagnostic : Diagnostic}
    (member : diagnostic ∈ sheet.validate extra) :
    diagnostic.severity = .semantic := by
  obtain ⟨check, _, isFound⟩ := List.mem_flatMap.mp member
  exact check.severity_of_mem_run isFound

namespace Mode

/-- In full, any finding fails a style sheet. -/
theorem passes_full (diagnostics : List Diagnostic) :
    full.passes diagnostics = true ↔ diagnostics = [] := by
  cases diagnostics <;> simp [passes, fails]

/-- When only the form counts, findings about meaning fail nothing. -/
theorem passes_syntaxOnly (diagnostics : List Diagnostic) :
    syntaxOnly.passes diagnostics = true ↔
      ∀ diagnostic ∈ diagnostics, diagnostic.severity = .semantic := by
  simp [passes, fails, Diagnostic.isFatal]

end Mode

section Text

variable {source : String}

/-- Findings about the form of a text are none of those about meaning. -/
theorem severity_of_mem_formFindings
    {diagnostic : Diagnostic}
    (member : diagnostic ∈ formFindings source) :
    diagnostic.severity ≠ .semantic := by
  rcases List.mem_append.mp member with isLexical | isSyntactic
  · simp [severity_of_mem_diagnostics isLexical]
  · simp [severity_of_mem_findings isSyntactic]

/-- A text is rejected for all that is found about its form, if anything is. -/
theorem ofSource_eq_error
    {rejection : Rejection} :
    Sheet.ofSource source = .error rejection ↔
      formFindings source ≠ [] ∧ rejection.diagnostics = formFindings source := by
  unfold Sheet.ofSource formFindings
  dsimp only
  split
  case h_1 read noFindings isSheet =>
    simp [noFindings, isSheet, findings]
  case h_2 notRead =>
    have someFindings :
        (tokenize source).diagnostics ++ findings (Sheet.ofTokens (tokenize source).tokens) ≠
          [] := by
      intro noFindings
      obtain ⟨noLexical, noSyntactic⟩ := List.append_eq_nil_iff.mp noFindings
      cases isRead : Sheet.ofTokens (tokenize source).tokens with
      | ok sheet =>
          exact notRead sheet noLexical isRead
      | error diagnostics =>
          -- A reading that fails has a finding.
          rw [findings_ofTokens, List.map_eq_nil_iff] at noSyntactic
          simp [Sheet.ofTokens, noSyntactic] at isRead
    obtain ⟨diagnostics⟩ := rejection
    simp only [Except.error.injEq, Rejection.mk.injEq, ne_eq, someFindings, not_false_eq_true,
      true_and]
    exact eq_comm

/-- A text about whose form nothing is found is a style sheet. -/
theorem exists_sheet_of_formFindings_eq_nil
    (noFindings : formFindings source = []) :
    ∃ sheet, Sheet.ofSource source = .ok sheet := by
  cases isRead : Sheet.ofSource source with
  | ok sheet =>
      exact ⟨sheet, rfl⟩
  | error rejection =>
      exact absurd noFindings (ofSource_eq_error.mp isRead).1

/-- About the form of a style sheet nothing is found. -/
theorem formFindings_eq_nil_of_ofSource
    {sheet : Sheet}
    (isRead : Sheet.ofSource source = .ok sheet) :
    formFindings source = [] := by
  obtain ⟨noLexical, isSheet⟩ := ofSource_eq_ok_iff_ofTokens.mp isRead
  rw [formFindings, noLexical, isSheet]
  rfl

/-- A sheet that is checked is what the text is read as. -/
theorem ofSource_of_checkedSheet?
    {mode : Mode}
    {sheet : Sheet}
    (isChecked : checkedSheet? source mode = some sheet) :
    Sheet.ofSource source = .ok sheet := by
  rw [checkedSheet?, Option.ite_none_right_eq_some] at isChecked
  obtain ⟨inFull, isSheet⟩ := isChecked
  have noFindings : formFindings source = [] := by simpa using (Bool.and_eq_true_iff.mp inFull).2
  obtain ⟨read, isRead⟩ := exists_sheet_of_formFindings_eq_nil noFindings
  rw [(ofSource_eq_ok_iff_ofTokens.mp isRead).2] at isSheet
  obtain rfl : read = sheet := Option.some.inj isSheet
  exact isRead

/-- Nothing but the form is looked at when only the form counts. -/
theorem diagnostics_lint_syntaxOnly (file : String) :
    (lint file source .syntaxOnly).diagnostics = formFindings source := by
  simp [lint, checkedSheet?]

/-- A text with findings about its form is not checked. -/
theorem diagnostics_lint_of_formFindings
    (someFindings : formFindings source ≠ [])
    (file : String)
    (mode : Mode) :
    (lint file source mode).diagnostics = formFindings source := by
  simp [lint, checkedSheet?, someFindings]

/-- In full, a style sheet has the findings of the checks. -/
theorem diagnostics_lint_full
    {sheet : Sheet}
    (isRead : Sheet.ofSource source = .ok sheet)
    (file : String) :
    (lint file source .full).diagnostics = sheet.validate [] := by
  have noFindings := formFindings_eq_nil_of_ofSource isRead
  have isSheet := (ofSource_eq_ok_iff_ofTokens.mp isRead).2
  simp [lint, checkedSheet?, noFindings, isSheet, Except.toOption]

/-- A text passes when linting it finds nothing, in every mode. -/
theorem success_lint (file : String) (mode : Mode) :
    (lint file source mode).success = true ↔ (lint file source mode).diagnostics = [] := by
  rw [show (lint file source mode).success =
    mode.passes (lint file source mode).diagnostics from rfl]
  cases mode with
  | full =>
      exact Mode.passes_full _
  | syntaxOnly =>
      -- A finding that would not fail the text is not made in this mode.
      rw [Mode.passes_syntaxOnly, diagnostics_lint_syntaxOnly, List.eq_nil_iff_forall_not_mem]
      exact forall₂_congr fun diagnostic member =>
        iff_of_false (severity_of_mem_formFindings member) (by simp)

end Text

/--
Linting a text and reading it as a style sheet agree, given the findings about
its characters and those about its tokens.
-/
structure EntryPointsAgree (source : String) (lexical syntactic : List Diagnostic) : Prop where
  lexicalSeverity : ∀ diagnostic ∈ lexical, diagnostic.severity = .lexical
  syntacticSeverity : ∀ diagnostic ∈ syntactic, diagnostic.severity = .syntactic
  syntaxOnly : ∀ file, (lint file source .syntaxOnly).diagnostics = lexical ++ syntactic
  faulty :
    lexical ++ syntactic ≠ [] →
      ∀ file, (lint file source .full).diagnostics = lexical ++ syntactic
  /-- What is found in a style sheet is found by the checks. -/
  faultless :
    lexical ++ syntactic = [] →
      ∃ sheet,
        Sheet.ofSource source = .ok sheet ∧
          (∀ diagnostic ∈ sheet.validate [], diagnostic.severity = .semantic) ∧
          ∀ file, (lint file source .full).diagnostics = sheet.validate []
  success :
    ∀ file mode, (lint file source mode).success = true ↔ (lint file source mode).diagnostics = []
  /-- By itself the mode lets findings about meaning pass. -/
  tolerated :
    ∀ diagnostics : List Diagnostic,
      Mode.syntaxOnly.passes diagnostics = true ↔
        ∀ diagnostic ∈ diagnostics, diagnostic.severity = .semantic
  weaker :
    ∀ file,
      (lint file source .full).success = true → (lint file source .syntaxOnly).success = true
  rejected : (∃ rejection, Sheet.ofSource source = .error rejection) ↔ lexical ++ syntactic ≠ []
  rejection :
    ∀ rejection, Sheet.ofSource source = .error rejection →
      rejection.diagnostics = lexical ++ syntactic ∧
        ∃ first ∈ (lexical ++ syntactic).head?,
          rejection.line? = some first.line ∧ rejection.column? = some first.column

/--
Both ways through the stages agree on every text. When only the form counts,
linting reports what is found about characters and tokens, and in full it does
so too, unless nothing is found: then the text is a style sheet, and the
findings are those of the checks. Reading rejects a text exactly when something
is found about its form, and reports just that.
-/
theorem entryPoints_agree (source : String) :
    EntryPointsAgree source (tokenize source).diagnostics
      (findings (Sheet.ofTokens (tokenize source).tokens)) where
  lexicalSeverity _ := severity_of_mem_diagnostics
  syntacticSeverity _ := severity_of_mem_findings
  syntaxOnly := diagnostics_lint_syntaxOnly
  faulty someFindings file := diagnostics_lint_of_formFindings someFindings file .full
  faultless noFindings := by
    obtain ⟨sheet, isRead⟩ := exists_sheet_of_formFindings_eq_nil noFindings
    exact ⟨sheet, isRead, fun _ => severity_of_mem_validate, diagnostics_lint_full isRead⟩
  success := success_lint
  tolerated := Mode.passes_syntaxOnly
  weaker file passes := by
    rw [success_lint] at passes ⊢
    rw [diagnostics_lint_syntaxOnly]
    exact (List.append_eq_nil_iff.mp passes).1
  rejected := by
    constructor
    · rintro ⟨rejection, isRejected⟩
      exact (ofSource_eq_error.mp isRejected).1
    · intro someFindings
      exact ⟨⟨formFindings source⟩, ofSource_eq_error.mpr ⟨someFindings, rfl⟩⟩
  rejection rejection isRejected := by
    obtain ⟨someFindings, isFindings⟩ := ofSource_eq_error.mp isRejected
    obtain ⟨first, rest, isFirst⟩ := List.exists_cons_of_ne_nil someFindings
    refine ⟨isFindings, first, ?_, ?_, ?_⟩
    · rw [Option.mem_def, List.head?_eq_some_iff]
      exact ⟨rest, isFirst⟩
    · rw [Rejection.line?, isFindings, isFirst]
      rfl
    · rw [Rejection.column?, isFindings, isFirst]
      rfl

end QtSheet
