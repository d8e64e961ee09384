import QtSheet.Proofs.Grammar.Declaration
import QtSheet.Proofs.Walk.Selector

namespace QtSheet

/-!
# Walks over rules

After a fault the walk over a declaration or a selector passes over the rest of
it. The loops over the rules of a sheet and over the declarations of a block take
a token in each pass, whatever the tokens are. So a walk over a sheet comes to
its end without a misstep, and to what reading the sheet comes to
(`Walk.sheet_eq_ofTokens`).
-/

namespace Walk

open Grammar

/-- A pass over tokens, which ends in front of one that stops it or behind one that ends it. -/
def skipTurn (stops ends : List Kind) : Walk (Turn Unit Unit) := do
  let token ← peek
  if token.kind ∈ stops ∨ token.kind = .endOfInput then
    return .ended ()
  else
    let _ ← next
    if token.kind ∈ ends then
      return .ended ()
    else
      return .again ()

/-- Pass over tokens, up to one that stops this or past one that ends it. -/
def skip (stops ends : List Kind) : Walk Unit :=
  loop (fun _ => skipTurn stops ends) ()

/-- Pass over the rest of a declaration. -/
def skipDeclaration : Walk Unit :=
  skip [.closeBrace] [.semicolon]

/-- Pass over the rest of a selector. -/
def skipSelector : Walk Unit :=
  skip [.openBrace] [.closeBrace, .semicolon]

/-- Whether the last of some tokens is a value. -/
def endsWithValue (taken : List Token) : Bool :=
  taken.getLast?.any fun last => last.kind.isValue

/-- A pass over the values of a declaration and the marks between them, with those so far. -/
def valuesTurn (taken : List Token) : Walk (Turn (List Token) (List Token)) := do
  let token ← peek
  if token.kind.isValue || (endsWithValue taken && token.kind.separatesValues) then
    let value ← next
    return .again (taken ++ [value])
  else
    return .ended taken

/-- The values of a declaration and the marks between them. -/
def values : Walk (List Token) :=
  loop valuesTurn []

/-- The value of a property, which ends with a value. -/
def propertyValue (property : String) : Attempt (List Token) := do
  let taken ← values
  if endsWithValue taken then
    return taken
  else
    giveUp (.propertyValue property)

/-- Whether a declaration is important. -/
def importance : Attempt Bool := do
  let mark ← peek
  if mark.kind = .exclamation then
    let _ ← next
    let word ← peek
    if Declaration.isImportance word then
      let _ ← next
      return true
    else
      giveUp .importance
  else
    return false

/-- The end of a declaration. -/
def declarationEnd (property : String) : Attempt Unit := do
  let token ← peek
  if token.kind = .semicolon then
    let _ ← next
    return ()
  else if token.kind = .closeBrace ∨ token.kind = .endOfInput then
    return ()
  else
    giveUp (.declarationEnd property)

/-- A declaration. -/
def declaration : Attempt Declaration := do
  let name ← expect .identifier .propertyName
  let _ ← expect .propertySeparator (.propertySeparator name.text)
  let taken ← propertyValue name.text
  let important ← importance
  let last ← previous
  declarationEnd name.text
  return {
    property := name.text
    values := taken
    start := name.start
    length := last.stop - name.start
    propertyToken? := some name
    important := important
  }

/-- What a block holds in front of its end: a semicolon, or a declaration. -/
def blockItem : Walk (Option Declaration) := do
  let token ← peek
  if token.kind = .semicolon then
    let _ ← next
    return none
  else
    orElse declaration skipDeclaration

/-- A pass over a block, with the declarations so far; the last one comes to its closing brace. -/
def blockTurn
    (former : List Declaration) :
    Walk (Turn (List Declaration) (List Declaration × Option Token)) := do
  let token ← peek
  if token.kind = .closeBrace then
    let close ← next
    return .ended (former, some close)
  else if token.kind = .endOfInput then
    report .unclosedBlock
    return .ended (former, none)
  else
    let declaration? ← advancing blockItem
    return .again (former ++ declaration?.toList)

/-- The declarations of a block after its opening brace, and its closing brace. -/
def block : Walk (List Declaration × Option Token) :=
  loop blockTurn []

/-- The block of a rule, if there is one, and the rule, if its chains are there and it is closed. -/
def ruleBlock (first : Token) (chains? : Option (List Chain)) : Walk (Option Rule) := do
  let token ← peek
  if token.kind = .openBrace then
    let _ ← next
    let (declarations, close?) ← block
    match chains?, close? with
    | some chains, some close =>
        return some {
          chains := chains
          declarations := declarations
          start := first.start
          length := close.stop - first.start
        }
    | _, _ => return none
  else
    return none

/-- A rule. -/
def rule : Walk (Option Rule) := do
  let first ← peek
  let chains? ← orElse chains skipSelector
  ruleBlock first chains?

/-- What a sheet holds in front of its end: a rule, or a token that is none. -/
def sheetItem : Walk (Option Rule) := do
  let token ← peek
  if token.kind = .closeBrace ∨ token.kind = .semicolon then
    report .outsideRule
    let _ ← next
    return none
  else
    rule

/-- A pass over a sheet, with the rules so far. -/
def rulesTurn (former : List Rule) : Walk (Turn (List Rule) (List Rule)) := do
  let token ← peek
  if token.kind = .endOfInput then
    return .ended former
  else
    let rule? ← advancing sheetItem
    return .again (former ++ rule?.toList)

/-- The rules of a sheet. -/
def rules : Walk (List Rule) :=
  loop rulesTurn []

/-- Tokens with the end of input that follows them, unless they end with one. -/
def withEnd (tokens : List Token) : List Token :=
  if tokens.getLast?.any fun last => last.kind = .endOfInput then
    tokens
  else
    tokens ++ [impliedEnd tokens]

/-- The sheet of some tokens or the findings about them, unless there is a misstep or no end. -/
def sheet (tokens : List Token) : Part (Except Misstep (Except (List Diagnostic) Sheet)) :=
  ExceptT.run do
    let (rules, cursor) ← rules.run ⟨withEnd tokens, 0, []⟩
    return if cursor.diagnostics.isEmpty then .ok ⟨rules⟩ else .error cursor.diagnostics

namespace Ground

variable {ground : Ground}

/-- Passing over tokens comes to what is left by any function that passes over the same ones. -/
theorem passes_skip
    {stops ends : List Kind}
    {leave : List Token → List Token}
    (leave_nil : leave [] = [])
    (leave_cons :
      ∀ token rest,
        leave (token :: rest) =
          if token.kind ∈ stops then token :: rest
          else if token.kind ∈ ends then rest
          else leave rest)
    (start : List Token) :
    ground.Passes (skip stops ends) start () (leave start) [] := by
  induction start with
  | nil =>
      rw [leave_nil]
      refine .ended (passes_peek.bind ?_)
      rw [first_nil, if_pos (.inr ground.isEnd)]
      exact .done _
  | cons token rest inductionHypothesis =>
      refine .of_within fun within => ?_
      rw [leave_cons]
      by_cases isStop : token.kind ∈ stops
      · rw [if_pos isStop]
        refine .ended (passes_peek.bind ?_)
        rw [first_cons, if_pos (.inl isStop)]
        exact .done _
      · have goesOn : ¬ (token.kind ∈ stops ∨ token.kind = .endOfInput) :=
          not_or.mpr ⟨isStop, kind_of_within within⟩
        rw [if_neg isStop]
        by_cases isEnd : token.kind ∈ ends
        · rw [if_pos isEnd]
          refine .ended (passes_peek.bind ?_)
          rw [first_cons, if_neg goesOn, if_pos isEnd]
          exact passes_next.bind (.done _)
        · rw [if_neg isEnd]
          have first : ground.Passes (skipTurn stops ends) (token :: rest) (.again ()) rest [] := by
            refine passes_peek.bind ?_
            rw [first_cons, if_neg goesOn, if_neg isEnd]
            exact passes_next.bind (.done _)
          exact first.again inductionHypothesis

/-- The rest of a declaration is passed over as it is when read. -/
theorem passes_skipDeclaration (start : List Token) :
    ground.Passes skipDeclaration start () (QtSheet.skipDeclaration start) [] :=
  passes_skip rfl (fun token rest => by simp [QtSheet.skipDeclaration]) start

/-- The rest of a selector is passed over as it is when read. -/
theorem passes_skipSelector (start : List Token) :
    ground.Passes skipSelector start () (QtSheet.skipSelector start) [] :=
  passes_skip rfl (fun token rest => by simp [QtSheet.skipSelector]) start

/-- Passes over values take those that are cut after the ones so far. -/
theorem passes_valuesLoop (taken start : List Token) :
    ground.Passes (loop valuesTurn taken) start
      (taken ++ (cutValues (endsWithValue taken) start).1)
      (cutValues (endsWithValue taken) start).2 [] := by
  induction start generalizing taken with
  | nil =>
      rw [cutValues, List.append_nil]
      refine .ended (passes_peek.bind ?_)
      rw [first_nil, if_neg (by simp [ground.isEnd, Kind.isValue, Kind.separatesValues])]
      exact .done _
  | cons token rest inductionHypothesis =>
      by_cases isTaken :
          token.kind.isValue || endsWithValue taken && token.kind.separatesValues
      · rw [cutValues, if_pos isTaken]
        have first :
            ground.Passes (valuesTurn taken) (token :: rest) (.again (taken ++ [token])) rest
              [] := by
          refine passes_peek.bind ?_
          rw [first_cons, if_pos isTaken]
          exact passes_next.bind (.done _)
        have others := inductionHypothesis (taken ++ [token])
        have lastIsToken : endsWithValue (taken ++ [token]) = token.kind.isValue := by
          simp [endsWithValue]
        rw [lastIsToken, List.append_assoc] at others
        exact first.again others
      · rw [cutValues, if_neg isTaken, List.append_nil]
        refine .ended (passes_peek.bind ?_)
        rw [first_cons, if_neg isTaken]
        exact .done _

/-- The value of a property is walked as it is read. -/
theorem follows_propertyValue (property : String) (start : List Token) :
    ground.Follows (propertyValue property) start
      ((Declaration.readValues property start).map Prod.fst) := by
  have taken : ground.Passes values start (cutValues false start).1 (cutValues false start).2 [] :=
    passes_valuesLoop [] start
  refine .after taken ?_
  unfold Declaration.readValues endsWithValue
  dsimp only
  cases (cutValues false start).1.getLast? with
  | none =>
      exact .giveUp _
  | some last =>
      rw [Option.any_some]
      dsimp only
      split
      · exact .done _
      · exact .giveUp _

/-- A mark of importance is walked as it is read. -/
theorem follows_importance (last : Token) (start : List Token) :
    ground.Follows importance start
      ((Declaration.readImportance last start).map Prod.fst) := by
  refine .after passes_peek ?_
  cases start with
  | nil =>
      rw [first_nil, if_neg (by simp [ground.isEnd])]
      exact .done false
  | cons mark rest =>
      rw [first_cons, Declaration.readImportance]
      split
      · refine .after passes_next (.after passes_peek ?_)
        cases rest with
        | nil =>
            rw [first_nil, if_neg (by simp [ground.isEnd, Declaration.isImportance])]
            exact .giveUp _
        | cons word rest =>
            rw [first_cons, Declaration.readImportanceWord]
            split
            · exact .after passes_next (.done true)
            · exact .giveUp _
      · exact .done false

/-- The end of a declaration is walked as it is read. -/
theorem follows_declarationEnd (property : String) (start : List Token) :
    ground.Follows (declarationEnd property) start (Declaration.readEnd property start) := by
  refine .of_within fun within => .after passes_peek ?_
  cases start with
  | nil =>
      rw [first_nil, if_neg (by simp [ground.isEnd]), if_pos (.inr ground.isEnd)]
      exact .done ()
  | cons token rest =>
      simp only [first_cons, Declaration.readEnd, kind_of_within within, or_false]
      split
      · exact .after passes_next (.done ())
      · split
        · exact .done ()
        · exact .giveUp _

/-- The last token of a value is in front of what is left. -/
theorem last_readValues
    {property : String}
    {start taken left : List Token}
    {last : Token}
    (read : Declaration.readValues property start = .done (taken, last) left) :
    last :: left <:+ start := by
  obtain ⟨rfl, _, isLast⟩ := valuesForm_of_readValues read
  exact suffix_of_getLast? isLast left

/-- The last token of a declaration so far is in front of what is left. -/
theorem last_readImportance
    {last newLast : Token}
    {start left : List Token}
    {important : Bool}
    (read : Declaration.readImportance last start = .done (important, newLast) left) :
    newLast :: left <:+ last :: start := by
  obtain ⟨taken, rfl, _, rfl⟩ := importanceForm_of_readImportance read
  exact suffix_of_getLast? List.getLast?_cons left

/-- A walk over a declaration follows the reading of it. -/
theorem follows_declaration
    {name : Token}
    (isName : name.kind = .identifier)
    (rest : List Token) :
    ground.Follows declaration (name :: rest) (Declaration.read name rest) := by
  have named : ground.Follows (expect .identifier .propertyName) (name :: rest) _ :=
    follows_expect (by decide) _ _
  rw [QtSheet.expect, if_pos isName] at named
  refine named.step ?_
  refine (follows_expect (by decide) _ rest).andThen fun separator behindSeparator _ => ?_
  refine .of_within fun within => (follows_propertyValue name.text behindSeparator).andThenOf ?_
  rintro ⟨taken, lastValue⟩ behindValues readValues
  refine (follows_importance lastValue behindValues).andThenOf ?_
  rintro ⟨important, last⟩ behindImportance readImportance
  have isPrevious : last :: behindImportance <:+ ground.inside :=
    (last_readImportance readImportance).trans ((last_readValues readValues).trans within)
  exact .after (passes_previous isPrevious) (follows_declarationEnd _ _).map

/-- A walk over a declaration that has no name gives up at once. -/
theorem follows_declaration_stuck
    {token : Token}
    (noName : token.kind ≠ .identifier)
    (rest : List Token) :
    ground.Follows declaration (token :: rest) (.stuck .propertyName (token :: rest)) := by
  have named : ground.Follows (expect .identifier .propertyName) (token :: rest) _ :=
    follows_expect (by decide) _ _
  rw [QtSheet.expect, if_neg noName] at named
  exact named.stop

section Block

variable
  {token : Token}
  {rest middle left : List Token}
  {declaration? : Option Declaration}
  {faults later : List Fault}

/-- A declaration of a block. -/
theorem passes_blockItem
    (notSemicolon : token.kind ≠ .semicolon)
    (passes :
      ground.Passes (orElse declaration skipDeclaration) (token :: rest) declaration? middle
        faults) :
    ground.Passes blockItem (token :: rest) declaration? middle faults := by
  refine passes_peek.bind ?_
  rw [first_cons, if_neg notSemicolon]
  exact passes

/-- A pass over a block that is not the last one. -/
theorem passes_blockTurn
    {former : List Declaration}
    (notClose : token.kind ≠ .closeBrace)
    (item : ground.Passes blockItem (token :: rest) declaration? middle faults)
    (shorter : middle.length ≤ rest.length) :
    ground.Passes (blockTurn former) (token :: rest) (.again (former ++ declaration?.toList))
      middle faults := by
  refine .of_within fun within => passes_peek.bind ?_
  rw [first_cons, if_neg notClose, if_neg (kind_of_within within)]
  exact (item.advancing (Nat.lt_succ_of_le shorter)).finish rfl

end Block

/-- Passes over a block follow the reading of it after the declarations so far. -/
theorem passes_blockLoop (former : List Declaration) (start : List Token) :
    ground.Passes (loop blockTurn former) start
      (former ++ (Block.read start).declarations, (Block.read start).close?)
      (Block.read start).rest (Block.read start).faults := by
  -- Each case of the reading is one pass, and the passes after it are the induction hypothesis.
  fun_induction Block.read start generalizing former with
  | case1 =>
      rw [List.append_nil]
      refine .ended (passes_peek.bind ?_)
      rw [first_nil, if_neg (by simp [ground.isEnd]), if_pos ground.isEnd]
      exact (passes_report _).bind (.done _)
  | case2 token rest closes =>
      rw [List.append_nil]
      refine .ended (passes_peek.bind ?_)
      rw [first_cons, if_pos closes]
      exact passes_next.bind (.done _)
  | case3 token rest notClose isSemicolon inductionHypothesis =>
      have item : ground.Passes blockItem (token :: rest) none rest [] := by
        refine passes_peek.bind ?_
        rw [first_cons, if_pos isSemicolon]
        exact passes_next.bind (.done none)
      have others := inductionHypothesis (former ++ [])
      rw [List.append_assoc] at others
      exact (passes_blockTurn notClose item (Nat.le_refl _)).again others
  | case4 token rest notClose notSemicolon isName declaration left read inductionHypothesis =>
      have follows := ground.follows_declaration isName rest
      rw [read] at follows
      have item := passes_blockItem notSemicolon (follows.passes_orElse_done _)
      have others := inductionHypothesis (former ++ [declaration])
      rw [List.append_assoc] at others
      exact (passes_blockTurn notClose item (Declaration.length_of_read read)).again others
  | case5 token rest notClose notSemicolon isName reason left stuck inductionHypothesis =>
      have follows := ground.follows_declaration isName rest
      rw [stuck] at follows
      have item :=
        passes_blockItem notSemicolon (follows.passes_orElse_stuck (passes_skipDeclaration left))
      have shorter := Nat.le_trans (suffix_skipDeclaration left).length_le
        (Declaration.length_of_stuck stuck)
      have others := inductionHypothesis (former ++ [])
      rw [List.append_assoc] at others
      exact (passes_blockTurn notClose item shorter).again others
  | case6 token rest notClose notSemicolon noName inductionHypothesis =>
      have follows := ground.follows_declaration_stuck noName rest
      have skipped := ground.passes_skipDeclaration (token :: rest)
      rw [QtSheet.skipDeclaration, if_neg notClose, if_neg notSemicolon] at skipped
      have item := passes_blockItem notSemicolon (follows.passes_orElse_stuck skipped)
      have others := inductionHypothesis (former ++ [])
      rw [List.append_assoc] at others
      exact (passes_blockTurn notClose item (suffix_skipDeclaration rest).length_le).again others

/-- A walk over a block follows the reading of it. -/
theorem passes_block (start : List Token) :
    ground.Passes block start ((Block.read start).declarations, (Block.read start).close?)
      (Block.read start).rest (Block.read start).faults :=
  passes_blockLoop [] start

/-- A walk over the block of a rule follows the reading of it. -/
theorem passes_ruleBlock
    (first : Token)
    (chains? : Option (List Chain))
    (start : List Token) :
    ground.Passes (ruleBlock first chains?) start
      (RuleReading.readBlock first chains? [] start).rule?
      (RuleReading.readBlock first chains? [] start).rest
      (RuleReading.readBlock first chains? [] start).faults := by
  refine passes_peek.bind ?_
  cases start with
  | nil =>
      rw [first_nil, if_neg (by simp [ground.isEnd])]
      exact .done none
  | cons token rest =>
      rw [first_cons, RuleReading.readBlock]
      split
      · refine passes_next.bind ((passes_block rest).finish ?_)
        dsimp only [RuleReading.ruleOf?]
        cases chains? with
        | none =>
            rfl
        | some chains =>
            cases (Block.read rest).close? with
            | none =>
                rfl
            | some close =>
                rfl
      · exact .done none

/-- A walk over a rule follows the reading of it. -/
theorem passes_rule (first : Token) (rest : List Token) :
    ground.Passes rule (first :: rest) (RuleReading.read first rest).rule?
      (RuleReading.read first rest).rest (RuleReading.read first rest).faults := by
  have follows := ground.follows_chains (first :: rest)
  refine passes_peek.bind ?_
  rw [first_cons, RuleReading.read]
  cases read : readChains (first :: rest) with
  | done chains left =>
      rw [read] at follows
      exact (follows.passes_orElse_done _).bind (passes_ruleBlock first (some chains) left)
  | stuck reason left =>
      rw [read] at follows
      dsimp only
      rw [RuleReading.readBlock_faults]
      exact (follows.passes_orElse_stuck (passes_skipSelector left)).bind
        (passes_ruleBlock first none (QtSheet.skipSelector left))

/-- What a sheet holds is read as a rule or as a token outside of a rule. -/
theorem passes_rulesTurn
    {token : Token}
    {rest middle : List Token}
    {rule? : Option Rule}
    {faults : List Fault}
    {former : List Rule}
    (item : ground.Passes sheetItem (token :: rest) rule? middle faults)
    (shorter : middle.length < (token :: rest).length) :
    ground.Passes (rulesTurn former) (token :: rest) (.again (former ++ rule?.toList)) middle
      faults := by
  refine .of_within fun within => passes_peek.bind ?_
  rw [first_cons, if_neg (kind_of_within within)]
  exact (item.advancing shorter).finish rfl

/-- Passes over a sheet follow the reading of it after the rules so far. -/
theorem passes_rulesLoop (former : List Rule) (start : List Token) :
    ground.Passes (loop rulesTurn former) start (former ++ (Outline.read start).rules) []
      (Outline.read start).faults := by
  fun_induction Outline.read start generalizing former with
  | case1 =>
      rw [List.append_nil]
      refine .ended (passes_peek.bind ?_)
      rw [first_nil, if_pos ground.isEnd]
      exact .done _
  | case2 token rest isStray inductionHypothesis =>
      have item :
          ground.Passes sheetItem (token :: rest) none rest [⟨.outsideRule, some token⟩] := by
        refine passes_peek.bind ?_
        rw [first_cons, if_pos isStray]
        exact (passes_report _).bind (passes_next.bind (.done none))
      have others := inductionHypothesis (former ++ [])
      rw [List.append_assoc] at others
      exact (passes_rulesTurn item (Nat.lt_succ_self _)).again others
  | case3 token rest notStray reading inductionHypothesis =>
      have item :
          ground.Passes sheetItem (token :: rest) reading.rule? reading.rest reading.faults := by
        refine passes_peek.bind ?_
        rw [first_cons, if_neg notStray]
        exact passes_rule token rest
      have others := inductionHypothesis (former ++ reading.rule?.toList)
      rw [List.append_assoc] at others
      exact (passes_rulesTurn item (RuleReading.length_read token rest)).again others

/-- A walk over a sheet follows the reading of its rules. -/
theorem passes_rules (start : List Token) :
    ground.Passes rules start (Outline.read start).rules [] (Outline.read start).faults :=
  passes_rulesLoop [] start

end Ground

/-- The end of input behind tokens without one is of its kind. -/
theorem kind_impliedEnd (tokens : List Token) :
    (impliedEnd tokens).kind = .endOfInput := by
  cases last : tokens.getLast? <;> simp [impliedEnd, last]

/-- Tokens with their end are the ground of a walk, up to their first end of input. -/
theorem exists_ground (tokens : List Token) :
    ∃ ground : Ground,
      ground.tokens = withEnd tokens ∧
        ground.inside = tokensBeforeEnd tokens ∧
        ground.ending = endOfTokens tokens := by
  obtain ⟨back, isWhole, noneBehind⟩ := exists_behind_tokensBeforeEnd tokens
  have noEnd : ∀ token ∈ tokensBeforeEnd tokens, token.kind ≠ .endOfInput :=
    fun _ => kind_of_mem_tokensBeforeEnd
  generalize tokensBeforeEnd tokens = inside at isWhole noEnd ⊢
  have notFound : inside.find? (fun token => token.kind = .endOfInput) = none := by
    simpa using noEnd
  subst isWhole
  cases back with
  | nil =>
      refine ⟨⟨inside, impliedEnd inside, [], noEnd, kind_impliedEnd inside⟩, ?_, rfl, ?_⟩
      · have notLast : ¬ (inside.getLast?.any fun last => last.kind = .endOfInput) := by
          cases isLast : inside.getLast? with
          | none =>
              simp
          | some last =>
              simpa using noEnd last (List.mem_of_getLast? isLast)
        rw [List.append_nil, withEnd, if_neg notLast]
        rfl
      · rw [List.append_nil, endOfTokens, notFound]
        rfl
  | cons ending beyond =>
      have isEnd := kind_of_tokensBeforeEnd_eq_nil noneBehind
      have found :
          (inside ++ ending :: beyond).find? (fun token => token.kind = .endOfInput) =
            some ending := by
        rw [List.find?_append, notFound, Option.none_or]
        exact List.find?_cons_of_pos (decide_eq_true isEnd)
      -- An end of input that is added stands behind the first one.
      obtain ⟨added, isAdded⟩ :
          ∃ added,
            withEnd (inside ++ ending :: beyond) = inside ++ ending :: (beyond ++ added) := by
        unfold withEnd
        split
        · exact ⟨[], by simp⟩
        · exact ⟨[impliedEnd (inside ++ ending :: beyond)], by simp⟩
      refine ⟨⟨inside, ending, beyond ++ added, noEnd, isEnd⟩, isAdded.symm, rfl, ?_⟩
      rw [endOfTokens, found]
      rfl

/-- Nothing behind an end of input is read. -/
theorem ofTokens_append_end
    {ending : Token}
    (isEnd : ending.kind = .endOfInput)
    (front back : List Token) :
    Sheet.ofTokens (front ++ ending :: back) = Sheet.ofTokens (front ++ [ending]) := by
  have sameTokens :
      tokensBeforeEnd (front ++ ending :: back) = tokensBeforeEnd (front ++ [ending]) := by
    simp [tokensBeforeEnd, List.takeWhile_append, isEnd]
  have sameEnd : endOfTokens (front ++ ending :: back) = endOfTokens (front ++ [ending]) := by
    simp [endOfTokens, List.find?_append, isEnd]
  rw [Sheet.ofTokens, Sheet.ofTokens, Sheet.outline, Sheet.outline, sameTokens, sameEnd]

/--
A walk over a sheet comes to an end, whatever the tokens are. It never looks for
a token where there is none, nor back from the first token, and no pass of its
loops over rules and declarations leaves the cursor where it was. It comes to
what reading the sheet comes to, and nothing behind an end of input changes it.
-/
theorem sheet_eq_ofTokens (tokens : List Token) :
    sheet tokens = Part.some (.ok (Sheet.ofTokens tokens)) ∧
      ∀ front ending back,
        tokens = front ++ ending :: back →
          ending.kind = .endOfInput →
            Sheet.ofTokens (front ++ [ending]) = Sheet.ofTokens tokens := by
  constructor
  · obtain ⟨ground, isGround, isInside, isEnding⟩ := exists_ground tokens
    obtain ⟨_, walked⟩ := ground.passes_rules ground.inside List.suffix_rfl
    have start : ground.before ground.inside [] = ⟨withEnd tokens, 0, []⟩ := by
      rw [Ground.before, isGround, Nat.sub_self]
    have ended := walked []
    rw [start, List.nil_append, isInside, isEnding] at ended
    rw [sheet, ExceptT.run_bind, ended]
    simp [Ground.before, Sheet.ofTokens, Sheet.outline]
  · rintro front ending back rfl isEnd
    exact (ofTokens_append_end isEnd front back).symm

end Walk

end QtSheet
