import QtSheet.Proofs.Grammar.Selector
import QtSheet.Proofs.Walk

namespace QtSheet

/-!
# Walks over selectors

A selector ends with the token in front of the cursor when no further qualifier
begins. A walk over a selector, over a chain and over the chains in front of a
block follows the reading of them: `Walk.Ground.follows_chains`.
-/

namespace Walk

open Grammar

/-- The value of an attribute test. -/
def attributeValue : Attempt String := do
  let token ← peek
  match AttributeTest.valueOf? token with
  | some value =>
      let _ ← next
      return value
  | none => giveUp .attributeValue

/-- The end of an attribute test. -/
def attributeEnd (test : AttributeTest) : Attempt AttributeTest := do
  let _ ← expect .closeBracket .attributeEnd
  return test

/-- An attribute test after its opening bracket. -/
def attributeTest : Attempt AttributeTest := do
  let name ← expect .identifier .attributeName
  let token ← peek
  if token.kind = .attributeOperator then
    let operator ← next
    let value ← attributeValue
    attributeEnd ⟨name.text, some operator.text, some value⟩
  else
    attributeEnd ⟨name.text, none, none⟩

/-- The name of a qualifier, directly behind its mark. -/
def qualifierName (qualifier : Qualifier) (mark : Token) : Attempt Token := do
  let token ← peek
  if token.kind = .identifier ∧ token.start = mark.stop then
    next
  else
    giveUp (.qualifierName qualifier mark.text)

/-- A pseudo-state after its colon. -/
def pseudoState (selector : Selector) (colon : Token) : Attempt Selector := do
  let token ← peek
  if token.kind = .exclamation ∧ token.start = colon.stop then
    let mark ← next
    let name ← qualifierName .pseudoState mark
    return selector.addPseudoState true name
  else
    let name ← qualifierName .pseudoState colon
    return selector.addPseudoState false name

/-- A qualifier, from its mark on. -/
def qualifier (selector : Selector) : Attempt Selector := do
  let token ← peek
  match token.kind with
  | .hash =>
      match selector.id? with
      | some id => giveUp (.repeatedId id)
      | none =>
          let hash ← next
          return { selector with id? := some (String.ofList (hash.text.toList.drop 1)) }
  | .dot =>
      let dot ← next
      let name ← qualifierName .className dot
      return selector.addClass name.text
  | .colon =>
      let colon ← next
      pseudoState selector colon
  | .doubleColon =>
      match selector.subControl? with
      | some control => giveUp (.repeatedSubControl control.text)
      | none =>
          let colons ← next
          let name ← qualifierName .subControl colons
          return { selector with subControl? := some name }
  | _ =>
      let _ ← next
      let test ← attributeTest
      return { selector with attributes := selector.attributes ++ [test] }

/-- A pass over the qualifiers of a selector, which ends in front of the token that is none. -/
def qualifiersTurn (selector : Selector) : Attempt (Turn Selector Selector) := do
  let token ← peek
  if token.kind.startsQualifier then
    let selector ← qualifier selector
    return .again selector
  else
    let last ← previous
    return .ended (selector.endingWith last)

/-- The qualifiers of a selector. -/
def qualifiers : Selector → Attempt Selector :=
  Attempt.loop qualifiersTurn

/-- A selector. -/
def selector : Attempt Selector := do
  let first ← peek
  if first.kind = .identifier ∨ first.kind = .star then
    let name ← next
    qualifiers { Selector.bare first.start with typeName? := some name.text }
  else if first.kind.startsQualifier then
    qualifiers (Selector.bare first.start)
  else
    giveUp .selector

/-- The combinator in front of the next selector, if there is one. -/
def combinator : Walk (Option Combinator) := do
  let token ← peek
  match token.combinator? with
  | some combinator =>
      let _ ← next
      return some combinator
  | none =>
      if token.kind.startsSelector then
        return some .descendant
      else
        return none

/-- A pass over a chain: the selectors in front of the last one, and the last one so far. -/
def chainTurn (state : Chain × Selector) : Attempt (Turn (Chain × Selector) Chain) := do
  match ← (liftM combinator : Attempt (Option Combinator)) with
  | none => return .ended (state.1 ++ [state.2])
  | some combinator =>
      let following ← selector
      return .again (state.1 ++ [{ state.2 with combinator? := some combinator }], following)

/-- A chain of selectors. -/
def chain : Attempt Chain := do
  let first ← selector
  Attempt.loop chainTurn ([], first)

/-- A pass over the chains in front of a block, with those so far. -/
def chainsTurn (former : List Chain) : Attempt (Turn (List Chain) (List Chain)) := do
  let chain ← chain
  let token ← peek
  if token.kind = .comma then
    let _ ← next
    return .again (former ++ [chain])
  else if token.kind = .openBrace then
    return .ended (former ++ [chain])
  else
    giveUp .chainEnd

/-- The chains in front of a block. -/
def chains : Attempt (List Chain) :=
  Attempt.loop chainsTurn []

namespace Ground

variable {ground : Ground}

/-- The end of an attribute test is walked as it is read. -/
theorem follows_attributeEnd (test : AttributeTest) (start : List Token) :
    ground.Follows (attributeEnd test) start ((test.readEnd start).map Prod.fst) := by
  rw [AttributeTest.readEnd, Reading.map_map]
  exact (follows_expect (by decide) _ start).map

theorem follows_attributeValue
    (name operator : String)
    (start : List Token) :
    ground.Follows
      (do
        let value ← attributeValue
        attributeEnd ⟨name, some operator, some value⟩)
      start ((AttributeTest.readValue name operator start).map Prod.fst) := by
  cases start with
  | nil =>
      have noValue : AttributeTest.valueOf? ground.ending = none := by
        simp [AttributeTest.valueOf?, ground.isEnd]
      refine .stop (.after passes_peek ?_)
      rw [first_nil, noValue]
      exact .giveUp _
  | cons token rest =>
      rw [AttributeTest.readValue]
      cases hasValue : AttributeTest.valueOf? token with
      | some value =>
          have taken : ground.Follows attributeValue (token :: rest) (.done value rest) := by
            refine .after passes_peek ?_
            rw [first_cons, hasValue]
            exact .after passes_next (.done value)
          exact taken.step (follows_attributeEnd _ rest)
      | none =>
          refine .stop (.after passes_peek ?_)
          rw [first_cons, hasValue]
          exact .giveUp _

/-- A walk over an attribute test follows the reading of it. -/
theorem follows_attributeTest (start : List Token) :
    ground.Follows attributeTest start ((AttributeTest.read start).map Prod.fst) := by
  rw [AttributeTest.read, Reading.map_andThen]
  refine (follows_expect (by decide) _ start).andThen fun name rest _ => ?_
  refine .after passes_peek ?_
  cases rest with
  | nil =>
      rw [first_nil, if_neg (by simp [ground.isEnd])]
      exact follows_attributeEnd _ []
  | cons token rest =>
      rw [first_cons, AttributeTest.readOperator]
      split
      · exact .after passes_next (follows_attributeValue _ _ rest)
      · exact follows_attributeEnd _ (token :: rest)

theorem follows_qualifierName
    (qualifier : Qualifier)
    (mark : Token)
    (start : List Token) :
    ground.Follows (qualifierName qualifier mark) start
      (Selector.readName qualifier mark start) := by
  refine .after passes_peek ?_
  cases start with
  | nil =>
      rw [first_nil, if_neg (by simp [ground.isEnd])]
      exact .giveUp _
  | cons token rest =>
      rw [first_cons, Selector.readName]
      split
      · exact .last passes_next
      · exact .giveUp _

theorem follows_pseudoState
    (selector : Selector)
    (colon : Token)
    (start : List Token) :
    ground.Follows (pseudoState selector colon) start
      ((selector.readPseudoState colon start).map Prod.fst) := by
  refine .after passes_peek ?_
  cases start with
  | nil =>
      rw [first_nil, if_neg (by simp [ground.isEnd])]
      exact (follows_qualifierName .pseudoState colon []).map
  | cons token rest =>
      rw [first_cons, Selector.readPseudoState]
      split
      · rw [Reading.map_map]
        exact .after passes_next (follows_qualifierName _ _ rest).map
      · rw [Reading.map_map]
        exact (follows_qualifierName _ _ _).map

/-- A walk over a qualifier follows the reading of it. -/
theorem follows_qualifier
    (selector : Selector)
    {mark : Token}
    (starts : mark.kind.startsQualifier)
    (rest : List Token) :
    ground.Follows (qualifier selector) (mark :: rest)
      ((selector.readQualifier mark rest).map Prod.fst) := by
  refine .after passes_peek ?_
  rw [first_cons]
  split
  case h_1 isHash =>
    simp only [Selector.readQualifier, isHash]
    cases selector.id? with
    | some id =>
        exact .giveUp _
    | none =>
        exact .after passes_next (.done _)
  case h_2 isDot =>
    simp only [Selector.readQualifier, isDot, Reading.map_map]
    exact .after passes_next (follows_qualifierName _ _ rest).map
  case h_3 isColon =>
    simp only [Selector.readQualifier, isColon]
    exact .after passes_next (follows_pseudoState _ _ rest)
  case h_4 isColons =>
    simp only [Selector.readQualifier, isColons]
    cases selector.subControl? with
    | some control =>
        exact .giveUp _
    | none =>
        simp only [Reading.map_map]
        exact .after passes_next (follows_qualifierName _ _ rest).map
  case h_5 noHash noDot noColon noColons =>
    have isOpening := openBracket_of_startsQualifier starts noHash noDot noColon noColons
    have readTest :
        (selector.readQualifier mark rest).map Prod.fst =
          ((AttributeTest.read rest).map Prod.fst).map fun test =>
            { selector with attributes := selector.attributes ++ [test] } := by
      simp only [Selector.readQualifier, isOpening, Reading.map_map]
    rw [readTest]
    exact .after passes_next (follows_attributeTest rest).map

/-- The last token of a qualifier is in front of what is left. -/
theorem last_readQualifier
    {selector result : Selector}
    {mark last : Token}
    {rest left : List Token}
    (starts : mark.kind.startsQualifier)
    (read : selector.readQualifier mark rest = .done (result, last) left) :
    last :: left <:+ mark :: rest := by
  obtain ⟨tokens, _, shape, _, isLast, _⟩ := qualifierForm_of_readQualifier starts read
  rw [shape]
  exact suffix_of_getLast? isLast left

/--
A walk over qualifiers follows the reading of them, when the last token so far is
in front of the cursor. This may fail of the first token of a selector, where a
qualifier begins.
-/
theorem follows_qualifiers
    (selector : Selector)
    (last : Token)
    (start : List Token)
    (taken :
      (∀ token ∈ start.head?, ¬ token.kind.startsQualifier) → last :: start <:+ ground.inside) :
    ground.Follows (qualifiers selector) start (selector.readQualifiers last start) := by
  -- A qualifier read leaves its last token in front of the cursor, which `taken` then says again.
  refine .of_within fun within => ?_
  fun_induction selector.readQualifiers last start with
  | case1 selector last =>
      refine .ended (.after passes_peek ?_)
      rw [first_nil, if_neg (by simp [ground.isEnd, Kind.startsQualifier])]
      exact .after (passes_previous (taken (by simp))) (.done _)
  | case2 selector last token rest starts result newLast left read inductionHypothesis =>
      have followed := ground.follows_qualifier selector starts rest
      rw [read, Reading.map_done] at followed
      have newTaken := (last_readQualifier starts read).trans within
      refine .again (.after passes_peek ?_)
        (inductionHypothesis (fun _ => newTaken) ((List.suffix_cons _ _).trans newTaken))
      rw [first_cons, if_pos starts]
      exact followed.step (.done _)
  | case3 selector last token rest starts reason left read =>
      have followed := ground.follows_qualifier selector starts rest
      rw [read, Reading.map_stuck] at followed
      refine .broken (.after passes_peek ?_)
      rw [first_cons, if_pos starts]
      exact followed.stop
  | case4 selector last token rest starts =>
      refine .ended (.after passes_peek ?_)
      rw [first_cons, if_neg starts]
      exact .after (passes_previous (taken (by simpa using starts))) (.done _)

/-- A walk over a selector follows the reading of it. -/
theorem follows_selector (start : List Token) :
    ground.Follows selector start (Selector.read start) := by
  refine .of_within fun within => .after passes_peek ?_
  cases start with
  | nil =>
      rw [first_nil, if_neg (by simp [ground.isEnd]),
        if_neg (by simp [ground.isEnd, Kind.startsQualifier])]
      exact .giveUp _
  | cons first rest =>
      rw [first_cons, Selector.read]
      by_cases isType : first.kind = .identifier ∨ first.kind = .star
      · simp only [if_pos isType]
        exact .after passes_next (follows_qualifiers _ first rest fun _ => within)
      · simp only [if_neg isType]
        by_cases starts : first.kind.startsQualifier
        · simp only [if_pos starts]
          refine follows_qualifiers _ first (first :: rest) fun noQualifier => ?_
          exact absurd starts (noQualifier first rfl)
        · simp only [if_neg starts]
          exact .giveUp _

/-- A walk in front of the next selector comes to it. -/
theorem passes_combinator (start : List Token) :
    ground.Passes combinator start ((Chain.next? start).map Prod.fst)
      (((Chain.next? start).map Prod.snd).getD start) [] := by
  refine passes_peek.bind ?_
  cases start with
  | nil =>
      have noCombinator : ground.ending.combinator? = none := by
        simp [Token.combinator?, ground.isEnd]
      have noSelector : ¬ ground.ending.kind.startsSelector := by
        simp [ground.isEnd, Kind.startsSelector]
      rw [first_nil, noCombinator]
      dsimp only
      rw [if_neg noSelector]
      exact .done none
  | cons token rest =>
      rw [first_cons, Chain.next?]
      cases token.combinator? with
      | some combinator =>
          exact passes_next.bind (.done _)
      | none =>
          dsimp only
          split
          · exact .done _
          · exact .done _

/-- Passes over a chain follow the reading of its selectors after the last one so far. -/
theorem follows_chainLoop (former : Chain) (last : Selector) (start : List Token) :
    ground.Follows (Attempt.loop chainTurn (former, last)) start
      ((Chain.readAfter last start).map fun chain => former ++ chain) := by
  have link := ground.passes_combinator start
  fun_induction Chain.readAfter last start generalizing former with
  | case1 last start noNext =>
      rw [noNext] at link
      exact .ended (.after link (.done _))
  | case2 last start combinator rest next reason left stuck =>
      rw [next] at link
      have followed := ground.follows_selector rest
      rw [stuck] at followed
      exact .broken (.after link followed.stop)
  | case3 last start combinator rest next following left read inductionHypothesis =>
      rw [next] at link
      have followed := ground.follows_selector rest
      rw [read] at followed
      have others := inductionHypothesis
        (former ++ [{ last with combinator? := some combinator }]) (passes_combinator left)
      simp only [List.append_assoc, List.singleton_append] at others
      rw [Reading.map_map]
      exact .again (.after link (followed.step (.done _))) others

/-- A walk over a chain follows the reading of it. -/
theorem follows_chain (start : List Token) :
    ground.Follows chain start (Chain.read start) := by
  refine (follows_selector start).andThen fun first rest _ => ?_
  have followed := ground.follows_chainLoop [] first rest
  simp only [List.nil_append, Reading.map_id] at followed
  exact followed

/-- Passes over the chains in front of a block follow the reading of those after the ones so far. -/
theorem follows_chainsLoop (former : List Chain) (start : List Token) :
    ground.Follows (Attempt.loop chainsTurn former) start
      ((readChains start).map fun chains => former ++ chains) := by
  have followed := ground.follows_chain start
  fun_induction readChains start generalizing former with
  | case1 start reason left stuck =>
      rw [stuck] at followed
      exact .broken followed.stop
  | case2 start chain read =>
      rw [read] at followed
      refine .broken (followed.step (.after passes_peek ?_))
      rw [first_nil, if_neg (by simp [ground.isEnd]), if_neg (by simp [ground.isEnd])]
      exact .giveUp _
  | case3 start chain token rest read isComma inductionHypothesis =>
      rw [read] at followed
      have others := inductionHypothesis (former ++ [chain]) (follows_chain rest)
      simp only [List.append_assoc, List.singleton_append] at others
      rw [Reading.map_map]
      refine .again (followed.step (.after passes_peek ?_)) others
      rw [first_cons, if_pos isComma]
      exact .after passes_next (.done _)
  | case4 start chain token rest read noComma opens =>
      rw [read] at followed
      refine .ended (followed.step (.after passes_peek ?_))
      rw [first_cons, if_neg noComma, if_pos opens]
      exact .done _
  | case5 start chain token rest read noComma noBlock =>
      rw [read] at followed
      refine .broken (followed.step (.after passes_peek ?_))
      rw [first_cons, if_neg noComma, if_neg noBlock]
      exact .giveUp _

/-- A walk over the chains in front of a block follows the reading of them. -/
theorem follows_chains (start : List Token) :
    ground.Follows chains start (readChains start) := by
  have followed := ground.follows_chainsLoop [] start
  simp only [List.nil_append, Reading.map_id] at followed
  exact followed

end Ground

end Walk

end QtSheet
