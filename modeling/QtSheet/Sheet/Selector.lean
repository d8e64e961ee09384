import QtSheet.Sheet
import QtSheet.Sheet.Reading

namespace QtSheet

/-!
# Reading selectors

A group of chains stands in front of a block, with commas between the chains. A
chain is made of selectors, with combinators between them where they are
written. A selector is a type name or a star, followed by qualifiers: an id,
classes, pseudo-states, a sub-control and attribute tests. One of the two parts
may be missing, and a qualifier's name follows its mark without a gap.
-/

namespace AttributeTest

/-- The value that a token gives to an attribute test. -/
def valueOf? (token : Token) : Option String :=
  match token.kind with
  | .string => some (String.ofList (token.text.toList.drop 1).dropLast)
  | .identifier => some token.text
  | _ => none

/-- Read the end of an attribute test. -/
def readEnd (test : AttributeTest) (tokens : List Token) : Reading (AttributeTest × Token) :=
  (expect .closeBracket .attributeEnd tokens).map fun close => (test, close)

/-- Read an attribute test from the value on. -/
def readValue (name operator : String) : List Token → Reading (AttributeTest × Token)
  | [] => .stuck .attributeValue []
  | token :: rest =>
      match valueOf? token with
      | some value => readEnd ⟨name, some operator, some value⟩ rest
      | none => .stuck .attributeValue (token :: rest)

/-- Read an attribute test from the operator on, if it has one. -/
def readOperator (name : String) : List Token → Reading (AttributeTest × Token)
  | [] => readEnd ⟨name, none, none⟩ []
  | token :: rest =>
      if token.kind = .attributeOperator then
        readValue name token.text rest
      else
        readEnd ⟨name, none, none⟩ (token :: rest)

/-- Read an attribute test after its opening bracket, with its closing one. -/
def read (tokens : List Token) : Reading (AttributeTest × Token) :=
  (expect .identifier .attributeName tokens).andThen fun name rest =>
    readOperator name.text rest

theorem rest_readEnd (test : AttributeTest) (tokens : List Token) :
    (readEnd test tokens).rest <:+ tokens := by
  simpa [readEnd] using rest_expect .closeBracket .attributeEnd tokens

theorem rest_readValue (name operator : String) (tokens : List Token) :
    (readValue name operator tokens).rest <:+ tokens := by
  cases tokens with
  | nil =>
      exact List.suffix_rfl
  | cons token rest =>
      rw [readValue]
      split
      · exact (rest_readEnd _ rest).trans (List.suffix_cons token rest)
      · exact List.suffix_rfl

theorem rest_readOperator (name : String) (tokens : List Token) :
    (readOperator name tokens).rest <:+ tokens := by
  cases tokens with
  | nil =>
      exact rest_readEnd _ []
  | cons token rest =>
      rw [readOperator]
      split
      · exact (rest_readValue _ _ rest).trans (List.suffix_cons token rest)
      · exact rest_readEnd _ _

/-- Reading an attribute test leaves the end of the tokens. -/
theorem rest_read (tokens : List Token) :
    (read tokens).rest <:+ tokens :=
  Reading.rest_andThen (rest_expect _ _ tokens) fun name rest _ =>
    rest_readOperator name.text rest

end AttributeTest

/-- Whether a token of a kind begins a qualifier of a selector. -/
def Kind.startsQualifier : Kind → Bool
  | .hash | .dot | .colon | .doubleColon | .openBracket => true
  | _ => false

namespace Selector

/-- Read the name of a qualifier, directly after its mark. -/
def readName
    (qualifier : Qualifier)
    (mark : Token) :
    List Token → Reading Token
  | [] => .stuck (.qualifierName qualifier mark.text) []
  | name :: rest =>
      if name.kind = .identifier ∧ name.start = mark.stop then
        .done name rest
      else
        .stuck (.qualifierName qualifier mark.text) (name :: rest)

/-- The selector with one more class, unless it has the class already. -/
def addClass (selector : Selector) (name : String) : Selector :=
  if name ∈ selector.classes then
    selector
  else
    { selector with classes := selector.classes ++ [name] }

/-- The selector with one more pseudo-state. -/
def addPseudoState (selector : Selector) (negated : Bool) (name : Token) : Selector :=
  { selector with
      pseudoStates := selector.pseudoStates ++ [⟨name.text, negated, name⟩] }

/-- Read a pseudo-state after its colon, with an exclamation mark directly after it or without. -/
def readPseudoState
    (selector : Selector)
    (colon : Token) :
    List Token → Reading (Selector × Token)
  | [] => .stuck (.qualifierName .pseudoState colon.text) []
  | token :: rest =>
      if token.kind = .exclamation ∧ token.start = colon.stop then
        (readName .pseudoState token rest).map fun name =>
          (selector.addPseudoState true name, name)
      else
        (readName .pseudoState colon (token :: rest)).map fun name =>
          (selector.addPseudoState false name, name)

/-- Read a qualifier from its first token on: the selector with it, and its last token. -/
def readQualifier
    (selector : Selector)
    (mark : Token)
    (rest : List Token) :
    Reading (Selector × Token) :=
  match mark.kind with
  | .hash =>
      match selector.id? with
      | some id => .stuck (.repeatedId id) (mark :: rest)
      | none =>
          .done
            ({ selector with id? := some (String.ofList (mark.text.toList.drop 1)) }, mark)
            rest
  | .dot =>
      (readName .className mark rest).map fun name => (selector.addClass name.text, name)
  | .colon => selector.readPseudoState mark rest
  | .doubleColon =>
      match selector.subControl? with
      | some token => .stuck (.repeatedSubControl token.text) (mark :: rest)
      | none =>
          (readName .subControl mark rest).map fun name =>
            ({ selector with subControl? := some name }, name)
  | _ =>
      (AttributeTest.read rest).map fun (test, close) =>
        ({ selector with attributes := selector.attributes ++ [test] }, close)

theorem rest_readName (qualifier : Qualifier) (mark : Token) (tokens : List Token) :
    (readName qualifier mark tokens).rest <:+ tokens := by
  cases tokens with
  | nil =>
      exact List.suffix_rfl
  | cons name rest =>
      rw [readName]
      split
      · exact List.suffix_cons name rest
      · exact List.suffix_rfl

theorem rest_readPseudoState (selector : Selector) (colon : Token) (tokens : List Token) :
    (selector.readPseudoState colon tokens).rest <:+ tokens := by
  cases tokens with
  | nil =>
      exact List.suffix_rfl
  | cons token rest =>
      rw [readPseudoState]
      split
      · simpa using (rest_readName _ _ rest).trans (List.suffix_cons token rest)
      · simpa using rest_readName _ _ _

/-- Reading a qualifier leaves the end of the tokens. -/
theorem rest_readQualifier (selector : Selector) (mark : Token) (rest : List Token) :
    (selector.readQualifier mark rest).rest <:+ mark :: rest := by
  unfold readQualifier
  split
  · split
    · exact List.suffix_rfl
    · exact List.suffix_cons mark rest
  · simpa using (rest_readName _ _ rest).trans (List.suffix_cons mark rest)
  · exact (rest_readPseudoState _ _ rest).trans (List.suffix_cons mark rest)
  · split
    · exact List.suffix_rfl
    · simpa using (rest_readName _ _ rest).trans (List.suffix_cons mark rest)
  · simpa using (AttributeTest.rest_read rest).trans (List.suffix_cons mark rest)

/-- A qualifier read takes its first token at least. -/
theorem suffix_of_readQualifier
    {selector : Selector}
    {mark : Token}
    {rest after : List Token}
    {result : Selector × Token}
    (read : selector.readQualifier mark rest = .done result after) :
    after <:+ rest := by
  unfold readQualifier at read
  have restOfMap :
      ∀ {α : Type} {reading : Reading α} {f : α → Selector × Token},
        reading.rest <:+ rest → reading.map f = .done result after → after <:+ rest := by
    intro α reading f within mapped
    rw [← Reading.rest_map f, mapped] at within
    exact within
  split at read
  · split at read
    · contradiction
    · obtain ⟨_, rfl⟩ := Reading.done.inj read
      exact List.suffix_rfl
  · exact restOfMap (rest_readName _ _ rest) read
  · have within := rest_readPseudoState selector mark rest
    rw [read] at within
    exact within
  · split at read
    · contradiction
    · exact restOfMap (rest_readName _ _ rest) read
  · exact restOfMap (AttributeTest.rest_read rest) read

/-- The selector with the length that it has when it ends with a token. -/
def endingWith (selector : Selector) (last : Token) : Selector :=
  { selector with length := last.stop - selector.start }

/-- Read the qualifiers of a selector, of which `last` is the last token so far. -/
def readQualifiers
    (selector : Selector)
    (last : Token) :
    List Token → Reading Selector
  | [] => .done (selector.endingWith last) []
  | token :: rest =>
      if token.kind.startsQualifier then
        match _read : selector.readQualifier token rest with
        | .done (selector, last) after => selector.readQualifiers last after
        | .stuck reason after => .stuck reason after
      else
        .done (selector.endingWith last) (token :: rest)
termination_by tokens => tokens.length
decreasing_by
  have shorter := (suffix_of_readQualifier _read).length_le
  simp only [List.length_cons]
  omega

/-- Read a selector. -/
def read : List Token → Reading Selector
  | [] => .stuck .selector []
  | first :: rest =>
      if first.kind = .identifier ∨ first.kind = .star then
        { bare first.start with typeName? := some first.text }.readQualifiers first rest
      else if first.kind.startsQualifier then
        (bare first.start).readQualifiers first (first :: rest)
      else
        .stuck .selector (first :: rest)

/-- Reading qualifiers leaves the end of the tokens. -/
theorem rest_readQualifiers (selector : Selector) (last : Token) (tokens : List Token) :
    (selector.readQualifiers last tokens).rest <:+ tokens := by
  fun_induction readQualifiers selector last tokens with
  | case1 =>
      exact List.suffix_rfl
  | case2 selector last token rest _ selector' last' after read inductionHypothesis =>
      exact inductionHypothesis.trans
        ((suffix_of_readQualifier read).trans (List.suffix_cons token rest))
  | case3 selector last token rest _ reason after read =>
      have within := rest_readQualifier selector token rest
      rw [read] at within
      exact within
  | case4 =>
      exact List.suffix_rfl

/-- Reading a selector leaves the end of the tokens. -/
theorem rest_read (tokens : List Token) :
    (read tokens).rest <:+ tokens := by
  cases tokens with
  | nil =>
      exact List.suffix_rfl
  | cons first rest =>
      rw [read]
      split
      · exact (rest_readQualifiers _ _ rest).trans (List.suffix_cons first rest)
      · split
        · exact rest_readQualifiers _ _ _
        · exact List.suffix_rfl

/-- A selector read takes a token at least. -/
theorem length_of_read
    {tokens rest : List Token}
    {selector : Selector}
    (done : read tokens = .done selector rest) :
    rest.length < tokens.length := by
  cases tokens with
  | nil =>
      simp [read] at done
  | cons first tail =>
      rw [read] at done
      by_cases isType : first.kind = .identifier ∨ first.kind = .star
      · rw [if_pos isType] at done
        have within := rest_readQualifiers
          { bare first.start with typeName? := some first.text } first tail
        rw [done] at within
        have shorter := within.length_le
        simp only [Reading.rest_done, List.length_cons] at shorter ⊢
        omega
      · rw [if_neg isType] at done
        by_cases isQualifier : first.kind.startsQualifier
        · rw [if_pos isQualifier, readQualifiers, if_pos isQualifier] at done
          split at done
          case h_1 selector' last after readFirst =>
            have within := rest_readQualifiers selector' last after
            rw [done] at within
            have shorter := within.length_le
            have shorterFirst := (suffix_of_readQualifier readFirst).length_le
            simp only [Reading.rest_done, List.length_cons] at shorter ⊢
            omega
          case h_2 =>
            contradiction
        · rw [if_neg isQualifier] at done
          contradiction

end Selector

namespace Chain

/--
The combinator between a selector and the next one, and the tokens of the next
one. A selector may follow another without a combinator between them; it is a
descendant then.
-/
def next? : List Token → Option (Combinator × List Token)
  | [] => none
  | token :: rest =>
      match token.combinator? with
      | some combinator => some (combinator, rest)
      | none =>
          if token.kind.startsSelector then
            some (.descendant, token :: rest)
          else
            none

/-- The tokens of the next selector are the end of the tokens. -/
theorem suffix_of_next?
    {tokens rest : List Token}
    {combinator : Combinator}
    (found : next? tokens = some (combinator, rest)) :
    rest <:+ tokens := by
  cases tokens with
  | nil =>
      simp [next?] at found
  | cons token tail =>
      rw [next?] at found
      split at found
      · simp only [Option.some.injEq, Prod.mk.injEq] at found
        obtain ⟨_, rfl⟩ := found
        exact List.suffix_cons token tail
      · split at found
        · simp only [Option.some.injEq, Prod.mk.injEq] at found
          obtain ⟨_, rfl⟩ := found
          exact List.suffix_rfl
        · contradiction

/-- Read the selectors of a chain after a first one. -/
def readAfter (selector : Selector) (tokens : List Token) : Reading Chain :=
  match _following : next? tokens with
  | none => .done [selector] tokens
  | some (combinator, rest) =>
      match _read : Selector.read rest with
      | .stuck reason after => .stuck reason after
      | .done next after =>
          (readAfter next after).map fun chain =>
            { selector with combinator? := some combinator } :: chain
termination_by tokens.length
decreasing_by
  have shorter := Selector.length_of_read _read
  have within := (suffix_of_next? _following).length_le
  omega

/-- Read a chain of selectors. -/
def read (tokens : List Token) : Reading Chain :=
  (Selector.read tokens).andThen readAfter

/-- Reading on in a chain leaves the end of the tokens. -/
theorem rest_readAfter (selector : Selector) (tokens : List Token) :
    (readAfter selector tokens).rest <:+ tokens := by
  fun_induction readAfter selector tokens with
  | case1 =>
      exact List.suffix_rfl
  | case2 selector tokens combinator rest following reason after read =>
      have within := Selector.rest_read rest
      rw [read] at within
      exact within.trans (suffix_of_next? following)
  | case3 selector tokens combinator rest following next after read inductionHypothesis =>
      have within := Selector.rest_read rest
      rw [read] at within
      rw [Reading.rest_map]
      exact inductionHypothesis.trans (within.trans (suffix_of_next? following))

/-- Reading a chain leaves the end of the tokens. -/
theorem rest_read (tokens : List Token) :
    (read tokens).rest <:+ tokens :=
  Reading.rest_andThen (Selector.rest_read tokens) fun selector rest _ =>
    rest_readAfter selector rest

end Chain

/-- Read the chains in front of a block, and leave the brace that opens it. -/
def readChains (tokens : List Token) : Reading (List Chain) :=
  match _read : Chain.read tokens with
  | .stuck reason rest => .stuck reason rest
  | .done _ [] => .stuck .chainEnd []
  | .done chain (token :: rest) =>
      if token.kind = .comma then
        (readChains rest).map fun chains => chain :: chains
      else if token.kind = .openBrace then
        .done [chain] (token :: rest)
      else
        .stuck .chainEnd (token :: rest)
termination_by tokens.length
decreasing_by
  have within := Chain.rest_read tokens
  rw [_read] at within
  have shorter := within.length_le
  simp only [Reading.rest_done, List.length_cons] at shorter
  omega

/-- Reading chains leaves the end of the tokens. -/
theorem rest_readChains (tokens : List Token) :
    (readChains tokens).rest <:+ tokens := by
  fun_induction readChains tokens with
  | case1 tokens reason rest read =>
      have within := Chain.rest_read tokens
      rw [read] at within
      exact within
  | case2 =>
      exact List.nil_suffix
  | case3 tokens chain token rest read _ inductionHypothesis =>
      have within := Chain.rest_read tokens
      rw [read] at within
      rw [Reading.rest_map]
      exact inductionHypothesis.trans ((List.suffix_cons token rest).trans within)
  | case4 tokens chain token rest read =>
      have within := Chain.rest_read tokens
      rw [read] at within
      exact within
  | case5 tokens chain token rest read =>
      have within := Chain.rest_read tokens
      rw [read] at within
      exact within

/-- Chains that are read stand in front of an opening brace. -/
theorem openBrace_of_readChains
    {tokens rest : List Token}
    {chains : List Chain}
    (done : readChains tokens = .done chains rest) :
    ∃ token after, rest = token :: after ∧ token.kind = .openBrace := by
  fun_induction readChains tokens generalizing chains with
  | case1 =>
      contradiction
  | case2 =>
      contradiction
  | case3 tokens chain token after read _ inductionHypothesis =>
      cases tail : readChains after with
      | done following left =>
          rw [tail] at done
          obtain ⟨_, rfl⟩ := Reading.done.inj done
          exact inductionHypothesis tail
      | stuck reason left =>
          rw [tail] at done
          contradiction
  | case4 tokens chain token after read _ opens =>
      obtain ⟨_, rfl⟩ := Reading.done.inj done
      exact ⟨token, after, rfl, opens⟩
  | case5 =>
      contradiction

end QtSheet
