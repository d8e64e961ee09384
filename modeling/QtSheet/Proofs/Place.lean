import Mathlib.Data.List.Induction
import QtSheet.Lint
import QtSheet.Proofs.Provenance
import QtSheet.Proofs.Tiling

namespace QtSheet

/-!
# Places

The place of a token or of a finding is where it stands in the text: its line
counts the line feeds in front of it, and its column the characters since the
last of them. This holds of every token of a text and of everything that
linting finds, in every mode (`lint_isPlacedIn`).
-/

/-- The line that an offset of a text lies in begins at another offset. -/
structure IsLineStart (source : List Char) (offset start : Nat) : Prop where
  reached : start ≤ offset
  /-- It is the beginning of the text, or a line feed stands in front of it. -/
  begins : start = 0 ∨ source[start - 1]? = some '\n'
  unbroken : ∀ between, start ≤ between → between < offset → source[between]? ≠ some '\n'

/-- An excerpt lies in a text, and its line and its column are those of its offset. -/
structure Excerpt.IsPlacedIn (excerpt : Excerpt) (source : List Char) : Prop where
  first : 0 ≤ excerpt.start
  within : excerpt.stop ≤ source.length
  line : excerpt.line = 1 + (source.take excerpt.start.toNat).count '\n'
  column :
    ∃ start,
      IsLineStart source excerpt.start.toNat start ∧
        excerpt.column = excerpt.start - start + 1

/-- Only line feeds lead to the next line. -/
theorem Position.line_after (position : Position) (text : List Char) :
    (position.after text).line = position.line + text.count '\n' := by
  induction text generalizing position with
  | nil =>
      rfl
  | cons c rest inductionHypothesis =>
      rw [after_cons, inductionHypothesis]
      by_cases isFeed : c = '\n'
      · simp only [next, isFeed, ↓reduceIte, List.count_cons_self]
        omega
      · simp only [next, isFeed, ↓reduceIte, List.count_cons_of_ne isFeed]

namespace IsLineStart

/-- What comes behind an offset does not change where its line begins. -/
theorem append
    {source : List Char}
    {start : Nat}
    (isStart : IsLineStart source source.length start)
    (behind : List Char) :
    IsLineStart (source ++ behind) source.length start := by
  obtain ⟨reached, begins, unbroken⟩ := isStart
  refine ⟨reached, ?_, ?_⟩
  · refine begins.imp_right fun isFeed => ?_
    obtain ⟨inside, _⟩ := List.getElem?_eq_some_iff.mp isFeed
    rw [List.getElem?_append_left inside]
    exact isFeed
  · intro between isBehind isBefore
    rw [List.getElem?_append_left isBefore]
    exact unbroken between isBehind isBefore

/-- A line goes on with every character that is no line feed. -/
theorem next
    {source : List Char}
    {start : Nat}
    {c : Char}
    (isStart : IsLineStart source source.length start)
    (noFeed : c ≠ '\n') :
    IsLineStart (source ++ [c]) (source ++ [c]).length start := by
  have longer := isStart.append [c]
  refine ⟨?_, longer.begins, ?_⟩
  · rw [List.length_append]
    exact Nat.le_add_right_of_le isStart.reached
  · intro between isBehind isBefore
    rcases Nat.lt_or_ge between source.length with inside | reached
    · exact longer.unbroken between isBehind inside
    · obtain rfl : between = source.length := by
        simp only [List.length_append, List.length_singleton] at isBefore
        omega
      simpa using noFeed

/-- Behind a line feed a line begins. -/
theorem feed (source : List Char) :
    IsLineStart (source ++ ['\n']) (source ++ ['\n']).length (source ++ ['\n']).length := by
  refine ⟨Nat.le_refl _, .inr ?_, ?_⟩
  · simp
  · intro between isBehind isBefore
    omega

end IsLineStart

/-- The column of a position counts the characters since the beginning of its line. -/
theorem Position.column_after (text : List Char) :
    ∃ start,
      IsLineStart text text.length start ∧
        (Position.first.after text).column = text.length - start + 1 := by
  induction text using List.reverseRecOn with
  | nil =>
      refine ⟨0, ⟨Nat.le_refl 0, .inl rfl, ?_⟩, rfl⟩
      intro between _ isBefore
      contradiction
  | append_singleton text c inductionHypothesis =>
      obtain ⟨start, isStart, isColumn⟩ := inductionHypothesis
      rw [after_append, after_cons, after_nil]
      by_cases isFeed : c = '\n'
      · subst isFeed
        refine ⟨_, .feed text, ?_⟩
        simp [Position.next]
      · refine ⟨start, isStart.next isFeed, ?_⟩
        have reached := isStart.reached
        simp only [Position.next, isFeed, ↓reduceIte, isColumn, List.length_append,
          List.length_singleton]
        omega

/-- A stretch of a text is placed right when its position is behind what is in front of it. -/
theorem isPlacedIn_ofPosition
    {source before text : List Char}
    (isPart : before ++ text <+: source) :
    (Excerpt.ofPosition (Position.first.after before) text).IsPlacedIn source := by
  obtain ⟨behind, rfl⟩ := isPart
  obtain ⟨start, isStart, isColumn⟩ := Position.column_after before
  have reached := isStart.reached
  refine ⟨?_, ?_, ?_, ⟨start, ?_, ?_⟩⟩
  · exact Int.natCast_nonneg _
  · simp only [Excerpt.stop, Excerpt.ofPosition, Position.offset_after, Position.first,
      List.length_append]
    omega
  · simp only [Excerpt.ofPosition, Position.offset_after, Position.line_after, Position.first,
      Nat.zero_add, Int.toNat_natCast, List.append_assoc, List.take_left]
    exact Int.natCast_add 1 _
  · simp only [Excerpt.ofPosition, Position.offset_after, Position.first, Nat.zero_add,
      Int.toNat_natCast, List.append_assoc]
    exact isStart.append _
  · simp only [Excerpt.ofPosition, Position.offset_after, isColumn]
    simp only [Position.first]
    omega

section Text

variable {source : String}

/-- The tiles of a text are placed right. -/
theorem isPlacedIn_of_mem_tilesOf
    {tile : Tile}
    (member : tile ∈ tilesOf source) :
    tile.excerpt.IsPlacedIn source.toList := by
  obtain ⟨front, back, shape⟩ := List.append_of_mem member
  have laid := laid_tilesOf source
  rw [shape] at laid
  rw [Tile.excerpt, laid.position_eq.1]
  refine isPlacedIn_ofPosition ?_
  rw [← text_tilesOf source, shape]
  exact ⟨back.flatMap Tile.text, by simp⟩

/-- The end of the input is placed at the end of the text. -/
theorem isPlacedIn_endToken :
    (endToken source.toList).IsPlacedIn source.toList :=
  isPlacedIn_ofPosition (by simp)

/-- The tokens of a text are placed right. -/
theorem isPlacedIn_of_mem_tokens
    {token : Token}
    (member : token ∈ (tokenize source).tokens) :
    token.IsPlacedIn source.toList := by
  rcases mem_tokens_tokenize member with ⟨tile, isTile, isToken⟩ | rfl
  · rw [(Tile.excerpt_of_token? isToken).1]
    exact isPlacedIn_of_mem_tilesOf isTile
  · exact isPlacedIn_endToken

/-- The findings about the characters of a text are placed right. -/
theorem isPlacedIn_of_mem_diagnostics
    {diagnostic : Diagnostic}
    (member : diagnostic ∈ (tokenize source).diagnostics) :
    diagnostic.IsPlacedIn source.toList := by
  obtain ⟨tile, isTile, isFinding⟩ := mem_diagnostics_tokenize member
  rw [(Tile.excerpt_of_diagnostic? isFinding).1]
  exact isPlacedIn_of_mem_tilesOf isTile

private theorem mem_tokens_of_mem_tokensBeforeEnd
    {token : Token}
    (member : token ∈ tokensBeforeEnd (tokenize source).tokens) :
    token ∈ (tokenize source).tokens :=
  (List.takeWhile_prefix _).subset member

/-- A finding about the tokens of a text stands at one of them, if only at the end. -/
theorem exists_token_of_mem_findings
    {diagnostic : Diagnostic}
    (member : diagnostic ∈ findings (Sheet.ofTokens (tokenize source).tokens)) :
    ∃ token ∈ (tokenize source).tokens, diagnostic.toExcerpt = token.toExcerpt := by
  rw [findings_ofTokens, endOfTokens_tokenize] at member
  obtain ⟨fault, isFault, rfl⟩ := List.mem_map.mp member
  have within := Outline.faults_within _ isFault
  refine ⟨fault.blamed (endToken source.toList), ?_, rfl⟩
  unfold Fault.blamed
  cases isBlamed : fault.token? with
  | none =>
      rw [tokens_tokenize]
      exact List.mem_append_right _ (List.mem_singleton_self _)
  | some token =>
      exact mem_tokens_of_mem_tokensBeforeEnd (within token isBlamed)

/-- The findings about the tokens of a text are placed right, those at its end too. -/
theorem isPlacedIn_of_mem_findings
    {diagnostic : Diagnostic}
    (member : diagnostic ∈ findings (Sheet.ofTokens (tokenize source).tokens)) :
    diagnostic.IsPlacedIn source.toList := by
  obtain ⟨token, isToken, isExcerpt⟩ := exists_token_of_mem_findings member
  rw [isExcerpt]
  exact isPlacedIn_of_mem_tokens isToken

/-- A finding about a value is placed right when the tokens of the value are. -/
theorem isPlacedIn_valueExcerpt
    {text : List Char}
    {first last : Token}
    (firstPlaced : first.IsPlacedIn text)
    (lastPlaced : last.IsPlacedIn text)
    (declaration : Declaration) :
    (Check.valueExcerpt declaration first last).IsPlacedIn text := by
  refine ⟨firstPlaced.first, ?_, firstPlaced.line, firstPlaced.column⟩
  have within := lastPlaced.within
  simp only [Check.valueExcerpt, Excerpt.stop] at within ⊢
  omega

/-- What a check finds in a sheet stands at a token that the sheet keeps, or is about a value. -/
theorem Check.token_or_value_of_mem_run
    {tokens : List Token}
    {sheet : Sheet}
    {check : Check}
    {diagnostic : Diagnostic}
    (form : Grammar.RulesForm tokens sheet.rules)
    (member : diagnostic ∈ check.run sheet) :
    (∃ token ∈ tokens, diagnostic.toExcerpt = token.toExcerpt) ∨
      ∃ declaration ∈ sheet.declarations, malformedValue? declaration = some diagnostic := by
  obtain ⟨declarationsKept, selectorsKept⟩ := form.keptFrom
  cases check with
  | knownProperties =>
      obtain ⟨declaration, isDeclaration, isFound⟩ := List.mem_filterMap.mp member
      obtain ⟨name, isName, isKept⟩ := (declarationsKept declaration isDeclaration).property
      obtain ⟨_, rfl⟩ := unknownProperty?_eq_some.mp isFound
      exact .inl ⟨name, isName, by simp only [propertyExcerpt, isKept]⟩
  | propertyValues =>
      exact .inr (List.mem_filterMap.mp member)
  | pseudoStates =>
      obtain ⟨selector, isSelector, isFound⟩ := List.mem_flatMap.mp member
      obtain ⟨state, isState, isUnknown⟩ := List.mem_filterMap.mp isFound
      have isKept := (selectorsKept selector isSelector).pseudoStates state isState
      obtain ⟨_, rfl⟩ := unknownPseudoState?_eq_some.mp isUnknown
      exact .inl ⟨state.token, isKept, rfl⟩
  | subControls =>
      obtain ⟨selector, isSelector, isFound⟩ := List.mem_filterMap.mp member
      obtain ⟨name, isName, isUnknown⟩ := Option.bind_eq_some_iff.mp isFound
      have isKept := (selectorsKept selector isSelector).subControl name isName
      obtain ⟨_, rfl⟩ := unknownSubControl?_eq_some.mp isUnknown
      exact .inl ⟨name, isKept, rfl⟩

/-- What a check finds in a sheet is placed right when the tokens are that the sheet keeps. -/
theorem isPlacedIn_of_mem_run
    {text : List Char}
    {tokens : List Token}
    {sheet : Sheet}
    {check : Check}
    {diagnostic : Diagnostic}
    (arePlaced : ∀ token ∈ tokens, token.IsPlacedIn text)
    (form : Grammar.RulesForm tokens sheet.rules)
    (member : diagnostic ∈ check.run sheet) :
    diagnostic.IsPlacedIn text := by
  rcases Check.token_or_value_of_mem_run form member with
    ⟨token, isToken, isExcerpt⟩ | ⟨declaration, isDeclaration, isFound⟩
  · rw [isExcerpt]
    exact arePlaced token isToken
  · obtain ⟨_, first, last, _, _, isFirst, isLast, rfl⟩ :=
      Check.malformedValue?_eq_some.mp isFound
    have valuesKept := (form.keptFrom.1 declaration isDeclaration).values
    exact isPlacedIn_valueExcerpt
      (arePlaced first (valuesKept first (List.mem_of_mem_head? isFirst)))
      (arePlaced last (valuesKept last (List.mem_of_mem_getLast? isLast))) declaration

/-- A sheet that is checked is formed by the tokens of its text. -/
theorem rulesForm_of_checkedSheet?
    {mode : Mode}
    {sheet : Sheet}
    (isChecked : checkedSheet? source mode = some sheet) :
    Grammar.RulesForm (tokensBeforeEnd (tokenize source).tokens) sheet.rules := by
  unfold checkedSheet? at isChecked
  split at isChecked
  · cases isRead : Sheet.ofTokens (tokenize source).tokens with
    | error diagnostics =>
        rw [isRead] at isChecked
        contradiction
    | ok read =>
        rw [isRead] at isChecked
        obtain rfl : read = sheet := Option.some.inj isChecked
        obtain ⟨noFaults, sameRules⟩ := ofTokens_eq_ok.mp isRead
        rw [← sameRules]
        exact Grammar.rulesForm_of_read noFaults
  · contradiction

end Text

/--
Every token of a text, and every finding of linting it in any mode, lies in the
text, in the line that the line feeds in front of it make, and in the column
that the characters since the last of them make.
-/
theorem lint_isPlacedIn (source : String) :
    (∀ token ∈ (tokenize source).tokens, token.IsPlacedIn source.toList) ∧
      ∀ file mode,
        ∀ diagnostic ∈ (lint file source mode).diagnostics,
          diagnostic.IsPlacedIn source.toList := by
  refine ⟨fun _ => isPlacedIn_of_mem_tokens, ?_⟩
  intro file mode diagnostic member
  rcases List.mem_append.mp member with isForm | isChecked
  · rcases List.mem_append.mp isForm with isLexical | isSyntactic
    · exact isPlacedIn_of_mem_diagnostics isLexical
    · exact isPlacedIn_of_mem_findings isSyntactic
  · obtain ⟨sheet, isSheet, isValidated⟩ := List.mem_flatMap.mp isChecked
    obtain ⟨check, _, isFound⟩ := List.mem_flatMap.mp isValidated
    have form := rulesForm_of_checkedSheet? (Option.mem_toList.mp isSheet)
    refine isPlacedIn_of_mem_run ?_ form isFound
    intro token isToken
    exact isPlacedIn_of_mem_tokens (mem_tokens_of_mem_tokensBeforeEnd isToken)

/-- An unknown property in the second line of a text is placed there. -/
theorem lint_isPlacedIn_second_line :
    (⟨⟨"b", 3, 1, 2, 2⟩, .semantic, "unknown property: b"⟩ : Diagnostic) ∈
        (lint "" "a\n\x7bb:c\x7d" .full).diagnostics ∧
      (⟨"b", 3, 1, 2, 2⟩ : Excerpt).IsPlacedIn "a\n\x7bb:c\x7d".toList := by
  have isFound :
      (⟨⟨"b", 3, 1, 2, 2⟩, .semantic, "unknown property: b"⟩ : Diagnostic) ∈
        (lint "" "a\n\x7bb:c\x7d" .full).diagnostics := by
    decide +kernel
  exact ⟨isFound, (lint_isPlacedIn "a\n\x7bb:c\x7d").2 "" .full _ isFound⟩

end QtSheet
