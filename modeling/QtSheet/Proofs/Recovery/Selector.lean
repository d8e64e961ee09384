import QtSheet.Proofs.Grammar.Anatomy
import QtSheet.Proofs.Likeness

namespace QtSheet

/-!
# Faulty selectors

After a fault in a selector the tokens up to its block are passed over, or those
up to a closing brace or semicolon, and this boundary with them. Behind the
boundary the rules are read as if the tokens began there, with one exception: a
block that opens at once is taken for the block of the faulty selector, and that
it has no selector of its own is not reported
(`SelectorRecovery.findings_eq`, `not_forall_resumes_afresh`).
-/

open Grammar

section Place

variable {tokens front behind : List Token} (shape : tokensBeforeEnd tokens = front ++ behind)

include shape

/-- The tokens behind a place are those that are read there, and the end of the input. -/
theorem exists_drop :
    ∃ back, tokens = front ++ (behind ++ back) ∧ tokensBeforeEnd back = [] := by
  obtain ⟨back, isWhole, noneBehind⟩ := exists_behind_tokensBeforeEnd tokens
  rw [shape, List.append_assoc] at isWhole
  exact ⟨back, isWhole, noneBehind⟩

/-- The tokens behind a place, taken on their own, have the faults that are found in them. -/
theorem findings_drop :
    findings (Sheet.ofTokens (tokens.drop front.length)) =
      (Outline.read behind).faults.map (Fault.diagnostic (endOfTokens tokens)) := by
  have noEnd : ∀ token ∈ front ++ behind, token.kind ≠ .endOfInput := by
    intro token member
    rw [← shape] at member
    exact kind_of_mem_tokensBeforeEnd member
  have frontNoEnd := fun token member => noEnd token (List.mem_append_left _ member)
  have behindNoEnd := fun token member => noEnd token (List.mem_append_right _ member)
  obtain ⟨back, isWhole, noneBehind⟩ := exists_drop shape
  rw [isWhole, List.drop_left, findings_ofTokens, Sheet.outline,
    tokensBeforeEnd_append behindNoEnd, noneBehind, List.append_nil]
  by_cases isNil : behind ++ back = []
  · obtain ⟨rfl, _⟩ := List.append_eq_nil_iff.mp isNil
    rw [Outline.read]
    rfl
  · rw [endOfTokens_append frontNoEnd isNil]

/-- The token at a place, unless it is an end of input, is the first that is read there. -/
theorem getElem?_eq_some_iff_head?
    {token : Token}
    (notEnd : token.kind ≠ .endOfInput) :
    tokens[front.length]? = some token ↔ behind.head? = some token := by
  obtain ⟨back, isWhole, noneBehind⟩ := exists_drop shape
  rw [isWhole, List.getElem?_append_right (Nat.le_refl _), Nat.sub_self, ← List.head?_eq_getElem?]
  cases behind with
  | nil =>
      cases back with
      | nil =>
          rfl
      | cons first rest =>
          simp only [List.nil_append, List.head?_cons, List.head?_nil, reduceCtorEq, iff_false]
          rintro ⟨rfl⟩
          exact notEnd (kind_of_tokensBeforeEnd_eq_nil noneBehind)
  | cons first rest =>
      rfl

end Place

/-- Reading rules from some tokens on reports some faults and comes to what is left. -/
inductive Outline.Reaches : List Token → List Fault → List Token → Prop where
  | start
      {tokens : List Token} :
      Reaches tokens [] tokens
  | stray
      {token : Token}
      {rest left : List Token}
      {faults : List Fault} :
      token.kind = .closeBrace ∨ token.kind = .semicolon →
      Reaches rest faults left →
      Reaches (token :: rest) (⟨.outsideRule, some token⟩ :: faults) left
  | rule
      {token : Token}
      {rest left : List Token}
      {faults : List Fault} :
      ¬ (token.kind = .closeBrace ∨ token.kind = .semicolon) →
      Reaches (RuleReading.read token rest).rest faults left →
      Reaches (token :: rest) ((RuleReading.read token rest).faults ++ faults) left

namespace Outline.Reaches

variable {tokens left : List Token} {faults : List Fault}

/-- What is reported on the way stands in front of what is reported from there on. -/
theorem faults_eq (reaches : Reaches tokens faults left) :
    (Outline.read tokens).faults = faults ++ (Outline.read left).faults := by
  induction reaches with
  | start =>
      rfl
  | stray isStray _ inductionHypothesis =>
      rw [Outline.read, if_pos isStray, Outline.addFault, inductionHypothesis, List.cons_append]
  | rule notStray _ inductionHypothesis =>
      rw [Outline.read, if_neg notStray]
      simp only [Outline.addRule, inductionHypothesis, List.append_assoc]

/-- What is left on the way is the end of the tokens. -/
theorem isSuffix (reaches : Reaches tokens faults left) :
    left <:+ tokens := by
  induction reaches with
  | start =>
      exact List.suffix_rfl
  | @stray token rest _ _ _ _ inductionHypothesis =>
      exact inductionHypothesis.trans (List.suffix_cons token rest)
  | @rule token rest _ _ _ _ inductionHypothesis =>
      exact inductionHypothesis.trans (RuleReading.rest_read token rest)

end Outline.Reaches

/-- Passing over the rest of a selector comes to what is behind its boundary. -/
theorem skipSelector_append_boundary
    {passed : List Token}
    {boundary : Token}
    (inside : Avoids [.openBrace, .closeBrace, .semicolon] passed)
    (isBoundary : boundary.kind = .closeBrace ∨ boundary.kind = .semicolon)
    (behind : List Token) :
    skipSelector (passed ++ boundary :: behind) = behind := by
  induction passed with
  | nil =>
      have noBlock : boundary.kind ≠ .openBrace := by
        rcases isBoundary with isClose | isSemicolon
        · simp [isClose]
        · simp [isSemicolon]
      rw [List.nil_append, skipSelector, if_neg noBlock, if_pos isBoundary]
  | cons token rest inductionHypothesis =>
      obtain ⟨otherKind, restInside⟩ := avoids_cons.mp inside
      simp only [List.mem_cons, List.not_mem_nil, or_false, not_or] at otherKind
      rw [List.cons_append, skipSelector, if_neg otherKind.1,
        if_neg (by simp [otherKind.2.1, otherKind.2.2])]
      exact inductionHypothesis restInside

/-- A faulty selector among some tokens, passed over up to a boundary and with it. -/
structure SelectorRecovery (tokens : List Token) where
  /-- The faults reported before. -/
  before : List Fault
  first : Token
  rest : List Token
  reason : Reason
  /-- The rest of the selector. -/
  passed : List Token
  boundary : Token
  behind : List Token
  reaches : Outline.Reaches (tokensBeforeEnd tokens) before (first :: rest)
  notStray : ¬ (first.kind = .closeBrace ∨ first.kind = .semicolon)
  stuck : readChains (first :: rest) = .stuck reason (passed ++ boundary :: behind)
  inside : Avoids [.openBrace, .closeBrace, .semicolon] passed
  isBoundary : boundary.kind = .closeBrace ∨ boundary.kind = .semicolon

namespace SelectorRecovery

variable {tokens : List Token} (recovery : SelectorRecovery tokens)

/-- The tokens from the one that the fault of the selector blames on. -/
def blamed : List Token :=
  recovery.passed ++ recovery.boundary :: recovery.behind

/-- Where the boundary stands. -/
def index : Nat :=
  (tokensBeforeEnd tokens).length - (recovery.behind.length + 1)

/-- The faults reported up to the boundary: those before, and that of the selector. -/
def reported : List Fault :=
  recovery.before ++ [⟨recovery.reason, recovery.blamed.head?⟩]

/-- The boundary and what is behind it are the end of the tokens. -/
theorem exists_front :
    ∃ front,
      tokensBeforeEnd tokens = front ++ recovery.boundary :: recovery.behind ∧
        recovery.index = front.length := by
  have left := rest_readChains (recovery.first :: recovery.rest)
  rw [recovery.stuck, Reading.rest_stuck] at left
  obtain ⟨front, shape⟩ :=
    ((List.suffix_append recovery.passed _).trans left).trans recovery.reaches.isSuffix
  refine ⟨front, shape.symm, ?_⟩
  rw [index, ← shape, List.length_append, List.length_cons]
  omega

/-- What is behind the boundary is the end of the tokens. -/
theorem exists_passed :
    ∃ front,
      tokensBeforeEnd tokens = front ++ recovery.behind ∧
        recovery.index + 1 = front.length := by
  obtain ⟨front, shape, isIndex⟩ := recovery.exists_front
  exact ⟨front ++ [recovery.boundary], by simpa using shape, by simp [isIndex]⟩

/-- The index is that of the boundary. -/
theorem getElem?_index :
    tokens[recovery.index]? = some recovery.boundary := by
  obtain ⟨front, shape, isIndex⟩ := recovery.exists_front
  have member : recovery.boundary ∈ tokensBeforeEnd tokens := by
    simp [shape]
  rw [isIndex, getElem?_eq_some_iff_head? shape (kind_of_mem_tokensBeforeEnd member),
    List.head?_cons]

/-- The tokens behind the boundary, taken on their own, have the faults that are found in them. -/
theorem findings_drop_index :
    findings (Sheet.ofTokens (tokens.drop (recovery.index + 1))) =
      (Outline.read recovery.behind).faults.map (Fault.diagnostic (endOfTokens tokens)) := by
  obtain ⟨front, shape, isIndex⟩ := recovery.exists_passed
  rw [isIndex, findings_drop shape]

/-- The token behind the boundary, unless it is an end of input, is the first that is read there. -/
theorem getElem?_succ_index
    {token : Token}
    (notEnd : token.kind ≠ .endOfInput) :
    tokens[recovery.index + 1]? = some token ↔ recovery.behind.head? = some token := by
  obtain ⟨front, shape, isIndex⟩ := recovery.exists_passed
  rw [isIndex, getElem?_eq_some_iff_head? shape notEnd]

/-- The faults are those reported up to the boundary, then those of a block there and behind it. -/
theorem faults_eq :
    (Outline.read (tokensBeforeEnd tokens)).faults =
      recovery.reported ++
        ((RuleReading.readBlock recovery.first none [] recovery.behind).faults ++
          (Outline.read
            (RuleReading.readBlock recovery.first none [] recovery.behind).rest).faults) := by
  have readRule :
      RuleReading.read recovery.first recovery.rest =
        RuleReading.readBlock recovery.first none [⟨recovery.reason, recovery.blamed.head?⟩]
          recovery.behind := by
    rw [RuleReading.read, recovery.stuck]
    simp only [skipSelector_append_boundary recovery.inside recovery.isBoundary]
    rfl
  -- The block behind the boundary, if there is one, belongs to the rule of the faulty selector.
  rw [recovery.reaches.faults_eq, Outline.read, if_neg recovery.notStray, readRule,
    RuleReading.readBlock_faults]
  simp [Outline.addRule, reported]

/-- Where no block opens behind the boundary, the rules are read afresh from there. -/
theorem faults_of_noBlock (noBlock : NoBlock recovery.behind) :
    (Outline.read (tokensBeforeEnd tokens)).faults =
      recovery.reported ++ (Outline.read recovery.behind).faults := by
  rw [recovery.faults_eq, RuleReading.readBlock_of_noBlock noBlock, List.nil_append]

end SelectorRecovery

/-- A block without a selector has the fault that it has none, and then its own. -/
theorem faults_block
    {brace : Token}
    (opens : brace.kind = .openBrace)
    (first : Token)
    (inside : List Token) :
    (Outline.read (brace :: inside)).faults =
      ⟨.selector, some brace⟩ ::
        ((RuleReading.readBlock first none [] (brace :: inside)).faults ++
          (Outline.read (RuleReading.readBlock first none [] (brace :: inside)).rest).faults) := by
  have readGroup : readChains (brace :: inside) = .stuck .selector (brace :: inside) := by
    simp [readChains_eq, Chain.read, Selector.read, opens, Kind.startsQualifier]
  have notStray : ¬ (brace.kind = .closeBrace ∨ brace.kind = .semicolon) := by
    simp [opens]
  rw [Outline.read, if_neg notStray]
  simp [RuleReading.read, readGroup, skipSelector, RuleReading.readBlock, opens, Outline.addRule]

namespace SelectorRecovery

variable {tokens : List Token} (recovery : SelectorRecovery tokens)

/-- A block that opens behind the boundary is read, without the fault that it has no selector. -/
theorem faults_of_block
    {brace : Token}
    {inside : List Token}
    (shape : recovery.behind = brace :: inside)
    (opens : brace.kind = .openBrace) :
    ∃ later,
      (Outline.read recovery.behind).faults = ⟨.selector, some brace⟩ :: later ∧
        (Outline.read (tokensBeforeEnd tokens)).faults = recovery.reported ++ later := by
  rw [recovery.faults_eq, shape]
  exact ⟨_, faults_block opens recovery.first inside, rfl⟩

end SelectorRecovery

/-- The tokens `.` and `;` at the start of a text: a class without a name, and a boundary. -/
def dotAndSemicolon : List Token :=
  [⟨⟨".", 0, 1, 1, 1⟩, .dot⟩, ⟨⟨";", 1, 1, 1, 2⟩, .semicolon⟩]

/-- The selector `.` is at fault, and `;` behind it is the boundary, whatever comes then. -/
def SelectorRecovery.ofDot
    (behind : List Token) :
    SelectorRecovery (dotAndSemicolon ++ behind) where
  before := []
  first := ⟨⟨".", 0, 1, 1, 1⟩, .dot⟩
  rest := ⟨⟨";", 1, 1, 1, 2⟩, .semicolon⟩ :: tokensBeforeEnd behind
  reason := .qualifierName .className "."
  passed := []
  boundary := ⟨⟨";", 1, 1, 1, 2⟩, .semicolon⟩
  behind := tokensBeforeEnd behind
  reaches := .start
  notStray := by simp
  stuck := by
    simp [readChains_eq, Chain.read, Selector.read, Selector.readQualifiers,
      Selector.readQualifier, Selector.readName, Reading.andThen, Reading.map,
      Kind.startsQualifier]
  inside := by simp
  isBoundary := .inr rfl

/--
A selector at fault is given up at the boundary behind it. What is found from
there on is what is found in the tokens behind the boundary taken on their own,
but for a block that opens at once, which has no selector: that is not reported.
-/
theorem SelectorRecovery.findings_eq
    {tokens : List Token}
    (recovery : SelectorRecovery tokens) :
    tokens[recovery.index]? = some recovery.boundary ∧
      ((∀ token ∈ tokens[recovery.index + 1]?, token.kind ≠ .openBrace) →
        findings (Sheet.ofTokens tokens) =
          recovery.reported.map (Fault.diagnostic (endOfTokens tokens)) ++
            findings (Sheet.ofTokens (tokens.drop (recovery.index + 1)))) ∧
      ∀ brace ∈ tokens[recovery.index + 1]?, brace.kind = .openBrace →
        ∃ others,
          findings (Sheet.ofTokens (tokens.drop (recovery.index + 1))) =
              Fault.diagnostic (endOfTokens tokens) ⟨.selector, some brace⟩ :: others ∧
            findings (Sheet.ofTokens tokens) =
              recovery.reported.map (Fault.diagnostic (endOfTokens tokens)) ++ others := by
  refine ⟨recovery.getElem?_index, ?_, ?_⟩
  · intro noBlock
    have noneRead : NoBlock recovery.behind := by
      intro token isFirst opens
      have notEnd : token.kind ≠ .endOfInput := by
        simp [opens]
      exact noBlock token ((recovery.getElem?_succ_index notEnd).mpr isFirst) opens
    rw [recovery.findings_drop_index, findings_ofTokens, Sheet.outline,
      recovery.faults_of_noBlock noneRead, List.map_append]
  · intro brace isNext opens
    have notEnd : brace.kind ≠ .endOfInput := by
      simp [opens]
    obtain ⟨inside, shape⟩ :=
      List.head?_eq_some_iff.mp ((recovery.getElem?_succ_index notEnd).mp isNext)
    obtain ⟨later, afresh, resumed⟩ := recovery.faults_of_block shape opens
    refine ⟨later.map (Fault.diagnostic (endOfTokens tokens)), ?_, ?_⟩
    · rw [recovery.findings_drop_index, afresh, List.map_cons]
    · rw [findings_ofTokens, Sheet.outline, resumed, List.map_append]

/-- In `.;a>{}` no block opens behind the boundary, and the fault of `a>` is found there afresh. -/
theorem SelectorRecovery.findings_eq_afresh :
    let behind := (tokenize ".;a>\x7b\x7d").tokens.drop 2
    let tokens := dotAndSemicolon ++ behind
    let recovery := SelectorRecovery.ofDot behind
    tokens = (tokenize ".;a>\x7b\x7d").tokens ∧
      recovery.index = 1 ∧
      (∀ token ∈ tokens[recovery.index + 1]?, token.kind ≠ .openBrace) ∧
      findings (Sheet.ofTokens tokens) =
        recovery.reported.map (Fault.diagnostic (endOfTokens tokens)) ++
          findings (Sheet.ofTokens (tokens.drop (recovery.index + 1))) ∧
      ((recovery.reported.map (Fault.diagnostic (endOfTokens tokens))).map fun finding =>
          (finding.start, finding.message)) =
        [(1, "expected class name immediately after '.', found ';'")] ∧
      ((findings (Sheet.ofTokens (tokens.drop (recovery.index + 1)))).map fun finding =>
          (finding.start, finding.message)) =
        [(4, "expected selector, found '\x7b'")] := by
  intro behind tokens recovery
  have noBlock : ∀ token ∈ tokens[recovery.index + 1]?, token.kind ≠ .openBrace := by
    decide +kernel
  exact ⟨by decide +kernel, by decide +kernel, noBlock, recovery.findings_eq.2.1 noBlock,
    by decide +kernel, by decide +kernel⟩

/-- In `.;{}` a block opens behind the boundary, and that it has no selector is not reported. -/
theorem not_forall_resumes_afresh :
    ¬ ∀ (tokens : List Token) (recovery : SelectorRecovery tokens),
        findings (Sheet.ofTokens tokens) =
          recovery.reported.map (Fault.diagnostic (endOfTokens tokens)) ++
            findings (Sheet.ofTokens (tokens.drop (recovery.index + 1))) := by
  intro resumesAfresh
  let block : List Token :=
    [⟨⟨"\x7b", 2, 1, 1, 3⟩, .openBrace⟩, ⟨⟨"\x7d", 3, 1, 1, 4⟩, .closeBrace⟩]
  let ending : Token := ⟨⟨"", 4, 0, 1, 5⟩, .endOfInput⟩
  let recovery := SelectorRecovery.ofDot (block ++ [ending])
  obtain ⟨later, afresh, resumed⟩ := recovery.faults_of_block rfl rfl
  have same := resumesAfresh _ recovery
  rw [recovery.findings_drop_index, findings_ofTokens, Sheet.outline, afresh, resumed,
    List.map_append, List.append_cancel_left_eq] at same
  simpa using congrArg List.length same

end QtSheet
