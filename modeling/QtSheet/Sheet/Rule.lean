import QtSheet.Sheet.Declaration
import QtSheet.Sheet.Selector

namespace QtSheet

/-!
# Reading rules

Rules are read one after another, and a fault does not end the reading. After a
fault in a declaration the tokens up to its semicolon, or up to the end of its
block, are passed over; after a fault in a selector, those up to its block, or
up to a semicolon or closing brace. So one reading finds faults that have
nothing to do with each other.
-/

/--
Pass over the rest of a selector: up to an opening brace, or past a closing
brace or semicolon.
-/
def skipSelector : List Token → List Token
  | [] => []
  | token :: rest =>
      if token.kind = .openBrace then
        token :: rest
      else if token.kind = .closeBrace ∨ token.kind = .semicolon then
        rest
      else
        skipSelector rest

/-- Pass over the rest of a declaration: past a semicolon, or up to a closing brace. -/
def skipDeclaration : List Token → List Token
  | [] => []
  | token :: rest =>
      if token.kind = .closeBrace then
        token :: rest
      else if token.kind = .semicolon then
        rest
      else
        skipDeclaration rest

/-- What is left after a selector is the end of the tokens. -/
theorem suffix_skipSelector (tokens : List Token) :
    skipSelector tokens <:+ tokens := by
  induction tokens with
  | nil =>
      exact List.suffix_rfl
  | cons token rest inductionHypothesis =>
      rw [skipSelector]
      split
      · exact List.suffix_rfl
      · split
        · exact List.suffix_cons token rest
        · exact inductionHypothesis.trans (List.suffix_cons token rest)

/-- Only an opening brace keeps the first token from being passed over. -/
theorem length_skipSelector
    {token : Token}
    {rest : List Token}
    (otherKind : token.kind ≠ .openBrace) :
    (skipSelector (token :: rest)).length ≤ rest.length := by
  rw [skipSelector, if_neg otherKind]
  split
  · exact Nat.le_refl _
  · exact (suffix_skipSelector rest).length_le

/-- What is left after a declaration is the end of the tokens. -/
theorem suffix_skipDeclaration (tokens : List Token) :
    skipDeclaration tokens <:+ tokens := by
  induction tokens with
  | nil =>
      exact List.suffix_rfl
  | cons token rest inductionHypothesis =>
      rw [skipDeclaration]
      split
      · exact List.suffix_rfl
      · split
        · exact List.suffix_cons token rest
        · exact inductionHypothesis.trans (List.suffix_cons token rest)

/-- The declarations and faults of a block, read after its opening brace. -/
structure Block where
  declarations : List Declaration
  faults : List Fault
  /-- The brace that closes the block. -/
  close? : Option Token
  rest : List Token
  deriving Repr, DecidableEq

namespace Block

/-- The block with a declaration in front. -/
def addDeclaration (declaration : Declaration) (block : Block) : Block :=
  { block with declarations := declaration :: block.declarations }

/-- The block with a fault in front, in front of the given tokens. -/
def addFault (reason : Reason) (tokens : List Token) (block : Block) : Block :=
  { block with faults := ⟨reason, tokens.head?⟩ :: block.faults }

/-- Read a block after its opening brace. -/
def read : List Token → Block
  | [] => ⟨[], [⟨.unclosedBlock, none⟩], none, []⟩
  | token :: rest =>
      if token.kind = .closeBrace then
        ⟨[], [], some token, rest⟩
      else if token.kind = .semicolon then
        read rest
      else if token.kind = .identifier then
        match _read : Declaration.read token rest with
        | .done declaration after => (read after).addDeclaration declaration
        | .stuck reason after => (read (skipDeclaration after)).addFault reason after
      else
        (read (skipDeclaration rest)).addFault .propertyName (token :: rest)
termination_by tokens => tokens.length
decreasing_by
  · simp
  · have shorter := Declaration.length_of_read _read
    simp only [List.length_cons]
    omega
  · have shorter := Declaration.length_of_stuck _read
    have skipped := (suffix_skipDeclaration after).length_le
    simp only [List.length_cons]
    omega
  · have skipped := (suffix_skipDeclaration rest).length_le
    simp only [List.length_cons]
    omega

/-- Reading a block leaves the end of the tokens. -/
theorem rest_read (tokens : List Token) :
    (read tokens).rest <:+ tokens := by
  fun_induction read tokens with
  | case1 =>
      exact List.suffix_rfl
  | case2 token rest =>
      exact List.suffix_cons token rest
  | case3 token rest _ _ inductionHypothesis =>
      exact inductionHypothesis.trans (List.suffix_cons token rest)
  | case4 token rest _ _ _ declaration after done inductionHypothesis =>
      have within := Declaration.rest_read token rest
      rw [done] at within
      exact inductionHypothesis.trans (within.trans (List.suffix_cons token rest))
  | case5 token rest _ _ _ reason after stuck inductionHypothesis =>
      have within := Declaration.rest_read token rest
      rw [stuck] at within
      exact inductionHypothesis.trans
        ((suffix_skipDeclaration after).trans (within.trans (List.suffix_cons token rest)))
  | case6 token rest _ _ _ inductionHypothesis =>
      exact inductionHypothesis.trans
        ((suffix_skipDeclaration rest).trans (List.suffix_cons token rest))

end Block

/-- What comes of reading one rule. -/
structure RuleReading where
  /-- The rule, when its selectors have no fault and its block is closed. -/
  rule? : Option Rule
  faults : List Fault
  rest : List Token
  deriving Repr, DecidableEq

namespace RuleReading

/-- The rule of chains, declarations and a closing brace, as far as they are there. -/
def ruleOf?
    (first : Token)
    (chains? : Option (List Chain))
    (block : Block) :
    Option Rule :=
  match chains?, block.close? with
  | some chains, some close =>
      some {
        chains := chains
        declarations := block.declarations
        start := first.start
        length := close.stop - first.start
      }
  | _, _ => none

/-- Read the block of a rule, if there is one, after its selectors and their faults. -/
def readBlock
    (first : Token)
    (chains? : Option (List Chain))
    (faults : List Fault) :
    List Token → RuleReading
  | [] => ⟨none, faults, []⟩
  | token :: rest =>
      if token.kind = .openBrace then
        let block := Block.read rest
        ⟨ruleOf? first chains? block, faults ++ block.faults, block.rest⟩
      else
        ⟨none, faults, token :: rest⟩

/-- Read a rule from its first token on. -/
def read (first : Token) (rest : List Token) : RuleReading :=
  match readChains (first :: rest) with
  | .done chains after => readBlock first (some chains) [] after
  | .stuck reason after => readBlock first none [⟨reason, after.head?⟩] (skipSelector after)

/-- Reading a block leaves the end of the tokens. -/
theorem rest_readBlock
    (first : Token)
    (chains? : Option (List Chain))
    (faults : List Fault)
    (tokens : List Token) :
    (readBlock first chains? faults tokens).rest <:+ tokens := by
  cases tokens with
  | nil =>
      exact List.suffix_rfl
  | cons token rest =>
      rw [readBlock]
      split
      · exact (Block.rest_read rest).trans (List.suffix_cons token rest)
      · exact List.suffix_rfl

/-- A block that opens takes a token at least. -/
theorem length_readBlock
    {first token : Token}
    {chains? : Option (List Chain)}
    {faults : List Fault}
    {rest : List Token}
    (opens : token.kind = .openBrace) :
    (readBlock first chains? faults (token :: rest)).rest.length < (token :: rest).length := by
  rw [readBlock, if_pos opens]
  have shorter := (Block.rest_read rest).length_le
  simp only [List.length_cons]
  omega

/-- Reading a rule leaves the end of the tokens. -/
theorem rest_read (first : Token) (rest : List Token) :
    (read first rest).rest <:+ first :: rest := by
  have within := rest_readChains (first :: rest)
  fun_cases read first rest with
  | case1 chains after done =>
      rw [done] at within
      exact (rest_readBlock _ _ _ _).trans within
  | case2 reason after stuck =>
      rw [stuck] at within
      exact (rest_readBlock _ _ _ _).trans ((suffix_skipSelector _).trans within)

/-- Reading a rule takes a token at least, also when the rule has faults. -/
theorem length_read (first : Token) (rest : List Token) :
    (read first rest).rest.length < (first :: rest).length := by
  have within := rest_readChains (first :: rest)
  fun_cases read first rest with
  | case1 chains after done =>
      rw [done] at within
      obtain ⟨token, tail, rfl, opens⟩ := openBrace_of_readChains done
      exact Nat.lt_of_lt_of_le (length_readBlock opens) within.length_le
  | case2 reason after stuck =>
      rw [stuck] at within
      have skipped := suffix_skipSelector after
      have left := rest_readBlock first none [⟨reason, after.head?⟩] (skipSelector after)
      by_cases same : after = first :: rest
      · subst same
        by_cases opens : first.kind = .openBrace
        · rw [skipSelector, if_pos opens]
          exact length_readBlock opens
        · have shorter : (skipSelector (first :: rest)).length ≤ rest.length :=
            length_skipSelector opens
          have leftShorter := left.length_le
          simp only [List.length_cons]
          omega
      · have shorter : after.length < (first :: rest).length := by
          refine Nat.lt_of_le_of_ne within.length_le fun sameLength => ?_
          exact same (within.eq_of_length sameLength)
        have leftShorter := left.length_le
        have skippedShorter := skipped.length_le
        omega

end RuleReading

/-- The rules and the faults of a list of tokens, in order. -/
structure Outline where
  rules : List Rule
  faults : List Fault
  deriving Repr, DecidableEq

namespace Outline

/-- The outline with what comes of one rule in front. -/
def addRule (reading : RuleReading) (outline : Outline) : Outline :=
  { rules := reading.rule?.toList ++ outline.rules
    faults := reading.faults ++ outline.faults }

/-- The outline with a fault at a token in front. -/
def addFault (reason : Reason) (token : Token) (outline : Outline) : Outline :=
  { outline with faults := ⟨reason, some token⟩ :: outline.faults }

/-- Read all rules of a list of tokens. -/
def read : List Token → Outline
  | [] => ⟨[], []⟩
  | token :: rest =>
      if token.kind = .closeBrace ∨ token.kind = .semicolon then
        (read rest).addFault .outsideRule token
      else
        let reading := RuleReading.read token rest
        (read reading.rest).addRule reading
termination_by tokens => tokens.length
decreasing_by
  · simp
  · exact RuleReading.length_read token rest

end Outline

end QtSheet
