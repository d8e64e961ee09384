import QtSheet.Proofs.Grammar.Declaration
import QtSheet.Proofs.Grammar.Selector

namespace QtSheet.Grammar

/-!
# Style sheets are read by the grammar

A rule is read without a fault exactly when its tokens form one, and a rule that
is dropped always leaves a fault behind. So a list of tokens is read as a sheet
exactly when the tokens in front of the end of input form it, and a list that
forms two sheets forms one and the same.
-/

/-- A rule that is read without faults is one of the grammar. -/
theorem ruleForm_of_read
    {first : Token}
    {rest : List Token}
    (noFaults : (RuleReading.read first rest).faults = []) :
    ∃ taken rule,
      first :: rest = taken ++ (RuleReading.read first rest).rest ∧
        (RuleReading.read first rest).rule? = some rule ∧
        RuleForm taken rule := by
  unfold RuleReading.read at noFaults ⊢
  cases readGroup : readChains (first :: rest) with
  | done chains after =>
      rw [readGroup] at noFaults
      obtain ⟨opening, inside, rfl, isOpening⟩ := openBrace_of_readChains readGroup
      obtain ⟨group, shape, groupForm⟩ := chainsForm_of_readChains readGroup
      simp only [RuleReading.readBlock, if_pos isOpening, List.nil_append] at noFaults ⊢
      obtain ⟨block, closing, insideShape, isClosing, closes, blockForm⟩ :=
        blockForm_of_read noFaults
      obtain ⟨head, tail, rfl⟩ := groupForm.exists_cons
      rw [List.cons_append] at shape
      obtain ⟨rfl, rfl⟩ := List.cons.inj shape
      refine ⟨first :: tail ++ opening :: (block ++ [closing]), _, ?_, ?_,
        .intro groupForm rfl isOpening blockForm isClosing⟩
      · simp only [List.cons_append, List.append_assoc, List.nil_append]
        rw [← insideShape]
      · simp only [RuleReading.ruleOf?, closes]
  | stuck reason after =>
      rw [readGroup] at noFaults
      cases skipped : skipSelector after with
      | nil =>
          simp [skipped, RuleReading.readBlock] at noFaults
      | cons token behind =>
          by_cases opens : token.kind = .openBrace
          · simp [skipped, RuleReading.readBlock, opens] at noFaults
          · simp [skipped, RuleReading.readBlock, opens] at noFaults

/-- No group of chains begins with a closing brace or a semicolon. -/
private theorem not_ending_of_readChains
    {first : Token}
    {tokens rest : List Token}
    {chains : List Chain}
    (read : readChains (first :: tokens) = .done chains rest) :
    ¬ (first.kind = .closeBrace ∨ first.kind = .semicolon) := by
  rintro (isClosing | isSemicolon)
  · simp [readChains_eq, Chain.read, Selector.read, isClosing, Kind.startsQualifier] at read
  · simp [readChains_eq, Chain.read, Selector.read, isSemicolon, Kind.startsQualifier] at read

/-- A rule of the grammar is read without faults. -/
theorem read_of_ruleForm
    {tokens : List Token}
    {rule : Rule}
    (form : RuleForm tokens rule)
    (after : List Token) :
    ∃ first behind,
      tokens = first :: behind ∧
        ¬ (first.kind = .closeBrace ∨ first.kind = .semicolon) ∧
        RuleReading.read first (behind ++ after) = ⟨some rule, [], after⟩ := by
  cases form with
  | @intro group block first opening closing chains declarations groupForm isFirst isOpening
      blockForm isClosing =>
      obtain ⟨tail, rfl⟩ := List.head?_eq_some_iff.mp isFirst
      have readGroup :
          readChains (first :: (tail ++ opening :: (block ++ closing :: after))) =
            .done chains (opening :: (block ++ closing :: after)) :=
        readChains_of_form groupForm isOpening
      refine ⟨first, tail ++ opening :: (block ++ [closing]), rfl,
        not_ending_of_readChains readGroup, ?_⟩
      simp only [List.append_assoc, List.cons_append, List.nil_append, RuleReading.read,
        readGroup, RuleReading.readBlock, if_pos isOpening,
        read_of_blockForm blockForm isClosing, RuleReading.ruleOf?]

/-- Rules that are read without faults are those of the grammar. -/
theorem rulesForm_of_read
    {tokens : List Token}
    (noFaults : (Outline.read tokens).faults = []) :
    RulesForm tokens (Outline.read tokens).rules := by
  fun_induction Outline.read tokens with
  | case1 =>
      exact .nil
  | case2 =>
      simp [Outline.addFault] at noFaults
  | case3 token rest _ reading inductionHypothesis =>
      obtain ⟨ruleFaults, otherFaults⟩ := List.append_eq_nil_iff.mp noFaults
      obtain ⟨taken, rule, shape, isRule, form⟩ := ruleForm_of_read ruleFaults
      have forms := inductionHypothesis otherFaults
      simp only [reading, Outline.addRule, isRule, Option.toList_some, List.singleton_append]
      rw [shape]
      exact .cons form forms

/-- Rules of the grammar are read without faults. -/
theorem read_of_rulesForm
    {tokens : List Token}
    {rules : List Rule}
    (form : RulesForm tokens rules) :
    Outline.read tokens = ⟨rules, []⟩ := by
  induction form with
  | nil =>
      rw [Outline.read]
  | @cons tokens rest rule rules form _ inductionHypothesis =>
      obtain ⟨first, behind, rfl, noEnding, readRule⟩ := read_of_ruleForm form rest
      rw [List.cons_append, Outline.read, if_neg noEnding]
      simp only [readRule, inductionHypothesis, Outline.addRule, Option.toList_some,
        List.singleton_append, List.nil_append]

/--
A list of tokens is read as a sheet exactly when the tokens in front of its
first end of input form the rules of that sheet.
-/
theorem ofTokens_eq_ok_iff_rulesForm
    (tokens : List Token)
    (sheet : Sheet) :
    Sheet.ofTokens tokens = .ok sheet ↔
      RulesForm (tokensBeforeEnd tokens) sheet.rules := by
  rw [ofTokens_eq_ok]
  constructor
  · rintro ⟨noFaults, same⟩
    rw [← same]
    exact rulesForm_of_read noFaults
  · intro form
    rw [Sheet.outline, read_of_rulesForm form]
    exact ⟨rfl, rfl⟩

end QtSheet.Grammar
