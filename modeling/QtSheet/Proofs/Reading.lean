import QtSheet.Sheet.Source

namespace QtSheet

/-!
# Equations of the readings

The recursive readings carry the proofs that they end. The equations below say
what one step of each does without those proofs, in terms of `andThen`, and are
what the theory of the readings starts from.
-/

/-- The last token of two lists is that of the second, or else that of the first. -/
theorem getLast?_append_getD
    {front : List Token}
    {last : Token}
    (isLast : front.getLast? = some last)
    (back : List Token) :
    (front ++ back).getLast? = some (back.getLast?.getD last) := by
  rw [List.getLast?_append, isLast]
  cases back.getLast? <;> rfl

namespace Reading

@[simp] theorem andThen_done
    (value : α)
    (rest : List Token)
    (continuation : α → List Token → Reading β) :
    (Reading.done value rest).andThen continuation =
      continuation value rest :=
  rfl

@[simp] theorem andThen_stuck
    (reason : Reason)
    (rest : List Token)
    (continuation : α → List Token → Reading β) :
    (Reading.stuck reason rest : Reading α).andThen continuation =
      .stuck reason rest :=
  rfl

@[simp] theorem map_done
    (f : α → β)
    (value : α)
    (rest : List Token) :
    (Reading.done value rest).map f = .done (f value) rest :=
  rfl

@[simp] theorem map_stuck
    (f : α → β)
    (reason : Reason)
    (rest : List Token) :
    (Reading.stuck reason rest : Reading α).map f = .stuck reason rest :=
  rfl

/-- A value is changed in a last step. -/
theorem map_eq_andThen
    (f : α → β)
    (reading : Reading α) :
    reading.map f = reading.andThen fun value rest => .done (f value) rest := by
  cases reading <;> rfl

/-- A value is changed after two steps in the second one. -/
theorem map_andThen
    (f : β → γ)
    (reading : Reading α)
    (continuation : α → List Token → Reading β) :
    (reading.andThen continuation).map f =
      reading.andThen fun value rest => (continuation value rest).map f := by
  cases reading <;> rfl

/-- Changing a value into itself changes nothing. -/
theorem map_id (reading : Reading α) :
    (reading.map fun value => value) = reading := by
  cases reading <;> rfl

/-- Two changes of a value are one. -/
theorem map_map
    (f : α → β)
    (g : β → γ)
    (reading : Reading α) :
    (reading.map f).map g = reading.map fun value => g (f value) := by
  cases reading <;> rfl

/-- A changed value comes from a value read. -/
theorem map_eq_done
    {f : α → β}
    {reading : Reading α}
    {value : β}
    {rest : List Token} :
    reading.map f = .done value rest ↔
      ∃ read, reading = .done read rest ∧ f read = value := by
  cases reading with
  | done read left =>
      constructor
      · intro same
        obtain ⟨rfl, rfl⟩ := Reading.done.inj same
        exact ⟨read, rfl, rfl⟩
      · rintro ⟨other, same, rfl⟩
        obtain ⟨rfl, rfl⟩ := Reading.done.inj same
        rfl
  | stuck reason left =>
      simp

/-- Two steps give a value exactly when each of them does. -/
theorem andThen_eq_done
    {reading : Reading α}
    {continuation : α → List Token → Reading β}
    {value : β}
    {rest : List Token} :
    reading.andThen continuation = .done value rest ↔
      ∃ read left,
        reading = .done read left ∧
          continuation read left = .done value rest := by
  cases reading with
  | done read left =>
      constructor
      · intro same
        exact ⟨read, left, rfl, same⟩
      · rintro ⟨other, others, same, continued⟩
        obtain ⟨rfl, rfl⟩ := Reading.done.inj same
        exact continued
  | stuck reason left =>
      simp

end Reading

namespace Selector

/-- Qualifiers are read one after another, as long as a token begins one. -/
theorem readQualifiers_cons
    (selector : Selector)
    (last token : Token)
    (rest : List Token) :
    selector.readQualifiers last (token :: rest) =
      if token.kind.startsQualifier then
        (selector.readQualifier token rest).andThen
          fun result after => result.1.readQualifiers result.2 after
      else
        .done (selector.endingWith last) (token :: rest) := by
  rw [readQualifiers]
  by_cases isQualifier : token.kind.startsQualifier
  · rw [if_pos isQualifier, if_pos isQualifier]
    split
    case h_1 selector' last' after read =>
      rw [read]
      rfl
    case h_2 reason after read =>
      rw [read]
      rfl
  · rw [if_neg isQualifier, if_neg isQualifier]

end Selector

namespace Chain

/-- A chain goes on with the next selector, if there is one. -/
theorem readAfter_eq
    (selector : Selector)
    (tokens : List Token) :
    readAfter selector tokens =
      match next? tokens with
      | none => .done [selector] tokens
      | some (combinator, rest) =>
          (Selector.read rest).andThen fun next after =>
            (readAfter next after).map fun chain =>
              { selector with combinator? := some combinator } :: chain := by
  rw [readAfter]
  split
  case h_1 following =>
    rw [following]
  case h_2 combinator rest following =>
    rw [following]
    dsimp only
    split
    case h_1 next after read =>
      rw [read]
      rfl
    case h_2 reason after read =>
      rw [read]
      rfl

end Chain

/-- The chains of a group after its first one, up to the brace that opens the block. -/
def readChainsAfter (chain : Chain) : List Token → Reading (List Chain)
  | [] => .stuck .chainEnd []
  | token :: rest =>
      if token.kind = .comma then
        (readChains rest).map fun chains => chain :: chains
      else if token.kind = .openBrace then
        .done [chain] (token :: rest)
      else
        .stuck .chainEnd (token :: rest)

/-- A group of chains is a chain and what follows it. -/
theorem readChains_eq (tokens : List Token) :
    readChains tokens = (Chain.read tokens).andThen readChainsAfter := by
  rw [readChains]
  split
  case h_1 reason after read =>
    rw [read]
    rfl
  case h_2 chain read =>
    rw [read]
    rfl
  case h_3 chain token after read =>
    rw [read]
    rfl

/-- A block goes on after a declaration that is read, and after one that is not. -/
theorem Block.read_cons
    (token : Token)
    (rest : List Token) :
    Block.read (token :: rest) =
      if token.kind = .closeBrace then
        ⟨[], [], some token, rest⟩
      else if token.kind = .semicolon then
        Block.read rest
      else if token.kind = .identifier then
        match Declaration.read token rest with
        | .done declaration after =>
            (Block.read after).addDeclaration declaration
        | .stuck reason after =>
            (Block.read (skipDeclaration after)).addFault reason after
      else
        (Block.read (skipDeclaration rest)).addFault .propertyName
          (token :: rest) := by
  rw [Block.read]
  by_cases isName : token.kind = .identifier
  · simp only [isName, reduceCtorEq, ↓reduceIte]
    split
    case h_1 declaration after read =>
      rw [read]
    case h_2 reason after read =>
      rw [read]
  · simp only [isName, ↓reduceIte]

/-- What is reported in front of a block stays in front of what is found in it. -/
theorem RuleReading.readBlock_faults
    (first : Token)
    (chains? : Option (List Chain))
    (faults : List Fault)
    (tokens : List Token) :
    readBlock first chains? faults tokens =
      { readBlock first chains? [] tokens with
          faults := faults ++ (readBlock first chains? [] tokens).faults } := by
  cases tokens with
  | nil =>
      simp [readBlock]
  | cons token rest =>
      rw [readBlock, readBlock]
      split <;> simp

/-- The tokens in front of the end of input are none of it. -/
theorem kind_of_mem_tokensBeforeEnd
    {tokens : List Token}
    {token : Token}
    (member : token ∈ tokensBeforeEnd tokens) :
    token.kind ≠ .endOfInput :=
  of_decide_eq_true (List.all_eq_true.mp List.all_takeWhile token member)

section Append

variable {front : List Token} (noEnd : ∀ token ∈ front, token.kind ≠ .endOfInput)

include noEnd

/-- Tokens without an end of input stand in front of the end of those behind. -/
theorem tokensBeforeEnd_append (back : List Token) :
    tokensBeforeEnd (front ++ back) = front ++ tokensBeforeEnd back :=
  List.takeWhile_append_of_pos fun token member => decide_eq_true (noEnd token member)

/-- The end of input is behind tokens without one, where it is without them. -/
theorem endOfTokens_append
    {back : List Token}
    (notNil : back ≠ []) :
    endOfTokens (front ++ back) = endOfTokens back := by
  have notFound : front.find? (fun token => token.kind = .endOfInput) = none := by
    rw [List.find?_eq_none]
    exact fun token member isEnd => noEnd token member (of_decide_eq_true isEnd)
  have sameLast : impliedEnd (front ++ back) = impliedEnd back := by
    rw [impliedEnd, impliedEnd, List.getLast?_append, List.getLast?_eq_some_getLast notNil,
      Option.some_or]
  rw [endOfTokens, endOfTokens, List.find?_append, notFound, Option.none_or, sameLast]

end Append

/-- Behind the tokens in front of the end of input there are none, or the end of input. -/
theorem exists_behind_tokensBeforeEnd (tokens : List Token) :
    ∃ back, tokens = tokensBeforeEnd tokens ++ back ∧ tokensBeforeEnd back = [] := by
  obtain ⟨back, isWhole⟩ : tokensBeforeEnd tokens <+: tokens := List.takeWhile_prefix _
  have again := congrArg tokensBeforeEnd isWhole
  rw [tokensBeforeEnd_append fun _ => kind_of_mem_tokensBeforeEnd] at again
  exact ⟨back, isWhole.symm, by simpa using again⟩

/-- Where no token is in front of the end of input, the first token is the end. -/
theorem kind_of_tokensBeforeEnd_eq_nil
    {token : Token}
    {rest : List Token}
    (noneBefore : tokensBeforeEnd (token :: rest) = []) :
    token.kind = .endOfInput := by
  apply Decidable.byContradiction
  intro notEnd
  simp [tokensBeforeEnd, notEnd] at noneBefore

/-- A sheet is what is read when nothing is at fault. -/
theorem ofTokens_eq_ok
    {tokens : List Token}
    {sheet : Sheet} :
    Sheet.ofTokens tokens = .ok sheet ↔
      (Sheet.outline tokens).faults = [] ∧
        (Sheet.outline tokens).rules = sheet.rules := by
  cases noFaults : (Sheet.outline tokens).faults with
  | nil =>
      simp only [Sheet.ofTokens, noFaults, List.isEmpty_nil, ↓reduceIte, Except.ok.injEq,
        true_and]
      constructor
      · rintro rfl
        rfl
      · rintro same
        rw [same]
  | cons fault faults =>
      simp [Sheet.ofTokens, noFaults]

/-- The findings about tokens are those about the faults in them. -/
theorem findings_ofTokens (tokens : List Token) :
    findings (Sheet.ofTokens tokens) =
      (Sheet.outline tokens).faults.map (Fault.diagnostic (endOfTokens tokens)) := by
  cases faults : (Sheet.outline tokens).faults <;>
    simp [Sheet.ofTokens, faults, findings]

/-- Where the input ends does not matter to faults that are at tokens. -/
theorem map_diagnostic_congr
    {faults : List Fault}
    (atTokens : ∀ fault ∈ faults, fault.token?.isSome)
    (last other : Token) :
    faults.map (Fault.diagnostic last) = faults.map (Fault.diagnostic other) := by
  refine List.map_congr_left ?_
  intro fault member
  obtain ⟨token, isToken⟩ := Option.isSome_iff_exists.mp (atTokens fault member)
  simp only [Fault.diagnostic, Fault.blamed, isToken, Option.getD_some]

end QtSheet
