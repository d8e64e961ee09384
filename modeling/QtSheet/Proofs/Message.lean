import QtSheet.Proofs.Printable
import QtSheet.Proofs.Value.Token

namespace QtSheet

open Text

/-!
# Names in messages

Messages quote most of what they show of a text. They show without quotation
marks the names of properties, pseudo-states, sub-controls and ids; these are
texts of tokens that are cut as names, so they are printable (`isShown_tokens`),
and reading hands them on as they are, also when it gets stuck
(`isShown_outline`).
-/

/-- Whether a message may show the text of a token of a kind without quotation marks. -/
def Kind.isName : Kind → Bool
  | .identifier | .hash => true
  | _ => false

/-- The text of a token that is a name is printable. -/
def Token.IsShown (token : Token) : Prop :=
  token.kind.isName = true → Printable token.text

/-- The text of a piece that is a name is printable. -/
def Piece.IsShown : Piece → Prop
  | .token kind text => kind.isName = true → ∀ c ∈ text, isPrintable c = true
  | _ => True

/-- A hash is printable. -/
theorem isPrintable_of_cutHash?
    {text : List Char}
    {cut : Cut}
    (found : cutHash? text = some cut) :
    ∀ c ∈ cut.1, isPrintable c = true := by
  obtain ⟨first, rest, isName, rfl, rfl⟩ := cutHash?_eq_some_iff.mp found
  have areNames : ∀ c ∈ rest.takeWhile isNameCharacter, isNameCharacter c = true :=
    List.all_eq_true.mp List.all_takeWhile
  refine List.forall_mem_cons.mpr ⟨by decide, ?_⟩
  refine List.forall_mem_cons.mpr ⟨isPrintable_of_isNameCharacter isName, ?_⟩
  exact fun c member => isPrintable_of_isNameCharacter (areNames c member)

/-- A name is printable. -/
theorem isPrintable_of_cutName?
    {text : List Char}
    {cut : Cut}
    (found : cutName? text = some cut) :
    ∀ c ∈ cut.1, isPrintable c = true :=
  fun c member => isPrintable_of_isNameCharacter (Value.isNameCharacter_of_cutName? found c member)

namespace Piece

/-- Signs are no names. -/
theorem isShown_of_isSign
    {kind : Kind}
    (isSign : kind.isSign = true)
    (text : List Char) :
    IsShown (.token kind text) := by
  intro isName
  cases kind <;> contradiction

/-- The names outside of all braces are printable. -/
theorem isShown_of_selectorPiece
    {c : Char}
    {rest : List Char}
    {cut : PieceCut}
    (way : SelectorPiece c rest cut) :
    cut.1.IsShown := by
  cases way with
  | name isName =>
      exact fun _ => isPrintable_of_cutName? isName
  | hash _ isHash =>
      exact fun _ => isPrintable_of_cutHash? isHash
  | number =>
      simp [IsShown, Kind.isName]
  | sign _ _ _ way =>
      cases way with
      | pair _ isPair =>
          exact isShown_of_isSign (isSign_of_selectorPair? isPair) _
      | single _ isSign =>
          exact isShown_of_isSign (isSign_of_selectorSign? isSign) _
      | stray =>
          trivial

/-- The names inside of braces are printable. -/
theorem isShown_of_declarationPiece
    {c : Char}
    {rest : List Char}
    {cut : PieceCut}
    (way : DeclarationPiece c rest cut) :
    cut.1.IsShown := by
  cases way with
  | name isName =>
      exact fun _ => isPrintable_of_cutName? isName
  | _ =>
      simp [IsShown, Kind.isName]

/-- The names that a text is cut into are printable. -/
theorem isShown_nextPiece (depth : Nat) (c : Char) (rest : List Char) :
    (nextPiece depth c rest).1.IsShown := by
  have way := nextPiece_ways depth c rest
  generalize nextPiece depth c rest = cut at way
  cases way with
  | @mark kind isMark =>
      intro isName
      have member := mem_markKinds isMark
      cases kind <;> contradiction
  | selector _ _ way =>
      exact isShown_of_selectorPiece way
  | call =>
      split <;> simp [IsShown, Kind.isName]
  | declaration _ _ _ way =>
      exact isShown_of_declarationPiece way
  | _ =>
      simp [IsShown, Kind.isName]

end Piece

/-- The tokens of a text that are names are printable. -/
theorem isShown_tokens
    {source : String}
    {token : Token}
    (member : token ∈ (tokenize source).tokens) :
    token.IsShown := by
  intro isName
  rcases List.mem_append.mp member with isInside | isLast
  · obtain ⟨before, behind, split⟩ := List.append_of_mem isInside
    have noCombinator : token.kind ≠ .combinator := by
      intro isCombinator
      rw [isCombinator] at isName
      cases isName
    obtain ⟨c, word, isText, found⟩ := nextPiece_of_tokens split noCombinator
    have isShown := Piece.isShown_nextPiece (braceDepth before) c word
    rw [found] at isShown
    rw [Printable, isText, List.all_eq_true]
    exact isShown isName
  · obtain rfl := List.mem_singleton.mp isLast
    cases isName

/-- A token is described in printable characters, whatever its text is. -/
theorem printable_describe (token : Token) :
    Printable token.describe := by
  unfold Token.describe
  split
  · decide
  · split
    · decide
    · exact printable_quoted token.text

namespace Reason

/-- The text that the message of a reason shows without quotation marks. -/
def bare? : Reason → Option String
  | .repeatedId id => some id
  | .repeatedSubControl name => some name
  | _ => none

/-- What the message of a reason shows without quotation marks is printable. -/
def IsShown (reason : Reason) : Prop :=
  ∀ name ∈ reason.bare?, Printable name

/-- A reason that names nothing shows nothing that is not printable. -/
theorem isShown_of_bare?
    {reason : Reason}
    (noBare : reason.bare? = none) :
    reason.IsShown := by
  simp [IsShown, noBare]

/-- The message of a reason is printable if what it names and what is found are. -/
theorem IsShown.printable_message
    {reason : Reason}
    {found : String}
    (isShown : reason.IsShown)
    (isFound : Printable found) :
    Printable (reason.message found) := by
  cases reason with
  | outsideRule =>
      exact .append (.append (by decide) isFound) (by decide)
  | unclosedBlock =>
      change Printable "expected '\x7d' before end of input"
      decide
  | propertySeparator | propertyValue | declarationEnd =>
      exact .append (.append (.append (by decide) (printable_quoted _)) (by decide)) isFound
  | repeatedId name | repeatedSubControl name =>
      exact .append (.append (by decide) (isShown name rfl)) (by decide)
  | qualifierName qualifier mark =>
      have isLabel : Printable qualifier.label := by
        cases qualifier <;> decide
      exact .append (.append (.append (.append (.append (by decide) isLabel) (by decide))
        (printable_quoted mark)) (by decide)) isFound
  | _ =>
      exact .append (by decide) isFound

end Reason

/-- What a reading ends with may be shown: its value, as stated, or the reason for stopping. -/
def Reading.Shows (isShown : α → Prop) : Reading α → Prop
  | .done value _ => isShown value
  | .stuck reason _ => reason.IsShown

namespace Reading.Shows

variable {isShown : α → Prop} {isShownThen : β → Prop} {reading : Reading α}

/-- Changing the value of a reading does not change why it is stuck. -/
theorem map
    {f : α → β}
    (shows : reading.Shows isShown)
    (isKept : ∀ value, isShown value → isShownThen (f value)) :
    (reading.map f).Shows isShownThen := by
  cases reading with
  | done value rest =>
      exact isKept value shows
  | stuck reason rest =>
      exact shows

/-- A reading shows what its first and its second part show. -/
theorem andThen
    {continuation : α → List Token → Reading β}
    (shows : reading.Shows isShown)
    (continues :
      ∀ value rest, isShown value → reading = .done value rest →
        (continuation value rest).Shows isShownThen) :
    (reading.andThen continuation).Shows isShownThen := by
  cases reading with
  | done value rest =>
      exact continues value rest shows rfl
  | stuck reason rest =>
      exact shows

end Reading.Shows

/-- Expecting a token names nothing but the token. -/
theorem shows_expect
    {kind : Kind}
    {reason : Reason}
    (noBare : reason.bare? = none)
    (tokens : List Token) :
    (expect kind reason tokens).Shows fun _ => True := by
  cases tokens with
  | nil =>
      exact Reason.isShown_of_bare? noBare
  | cons token rest =>
      rw [expect]
      split
      · trivial
      · exact Reason.isShown_of_bare? noBare

namespace AttributeTest

theorem shows_readEnd (test : AttributeTest) (tokens : List Token) :
    (readEnd test tokens).Shows fun _ => True :=
  (shows_expect rfl tokens).map fun _ _ => trivial

/-- Reading an attribute test shows nothing without quotation marks. -/
theorem shows_read (tokens : List Token) :
    (read tokens).Shows fun _ => True := by
  refine (shows_expect rfl tokens).andThen fun name rest _ _ => ?_
  cases rest with
  | nil =>
      exact shows_readEnd _ []
  | cons operator rest =>
      rw [readOperator]
      split
      · cases rest with
        | nil =>
            exact Reason.isShown_of_bare? rfl
        | cons value rest =>
            rw [readValue]
            split
            · exact shows_readEnd _ rest
            · exact Reason.isShown_of_bare? rfl
      · exact shows_readEnd _ (operator :: rest)

end AttributeTest

namespace Selector

/-- The names that messages show of a selector are printable. -/
structure IsShown (selector : Selector) : Prop where
  id : ∀ id ∈ selector.id?, Printable id
  pseudoStates : ∀ state ∈ selector.pseudoStates, Printable state.name
  subControl : ∀ name ∈ selector.subControl?, Printable name.text

theorem isShown_bare (start : Int) :
    (bare start).IsShown where
  id := by simp [bare]
  pseudoStates := by simp [bare]
  subControl := by simp [bare]

/-- The name behind a mark is printable. -/
theorem shows_readName
    {tokens : List Token}
    (areShown : ∀ token ∈ tokens, token.IsShown)
    (qualifier : Qualifier)
    (mark : Token) :
    (readName qualifier mark tokens).Shows fun name => Printable name.text := by
  cases tokens with
  | nil =>
      exact Reason.isShown_of_bare? rfl
  | cons name rest =>
      rw [readName]
      by_cases isName : name.kind = .identifier ∧ name.start = mark.stop
      · rw [if_pos isName]
        exact areShown name List.mem_cons_self (by rw [isName.1]; rfl)
      · rw [if_neg isName]
        exact Reason.isShown_of_bare? rfl

/-- A selector with one more pseudo-state shows its name too. -/
theorem IsShown.addPseudoState
    {selector : Selector}
    {name : Token}
    (isShown : selector.IsShown)
    (isName : Printable name.text)
    (negated : Bool) :
    (selector.addPseudoState negated name).IsShown where
  id := isShown.id
  pseudoStates := by
    intro state isState
    rcases List.mem_append.mp isState with before | isNew
    · exact isShown.pseudoStates state before
    · obtain rfl := List.mem_singleton.mp isNew
      exact isName
  subControl := isShown.subControl

theorem IsShown.addClass
    {selector : Selector}
    (isShown : selector.IsShown)
    (name : String) :
    (selector.addClass name).IsShown := by
  unfold Selector.addClass
  split
  · exact isShown
  · exact ⟨isShown.id, isShown.pseudoStates, isShown.subControl⟩

section Tokens

variable {selector : Selector} {tokens : List Token}
  (isShown : selector.IsShown)
  (areShown : ∀ token ∈ tokens, token.IsShown)

include isShown areShown

/-- Reading a pseudo-state shows printable names only. -/
theorem IsShown.shows_readPseudoState (colon : Token) :
    (selector.readPseudoState colon tokens).Shows fun result => result.1.IsShown := by
  cases tokens with
  | nil =>
      exact Reason.isShown_of_bare? rfl
  | cons token rest =>
      rw [readPseudoState]
      split
      · exact (shows_readName (fun other later => areShown other (.tail _ later)) _ _).map
          fun name isName => isShown.addPseudoState isName true
      · exact (shows_readName areShown _ _).map
          fun name isName => isShown.addPseudoState isName false

/-- One more qualifier keeps the names of a selector printable. -/
theorem IsShown.shows_readQualifier
    {mark : Token}
    (isMark : mark.IsShown) :
    (selector.readQualifier mark tokens).Shows fun result => result.1.IsShown := by
  fun_cases selector.readQualifier mark tokens with
  | case1 isHash id isId =>
      intro name isName
      obtain rfl : id = name := Option.some.inj isName
      exact isShown.id id isId
  | case2 isHash noId =>
      refine ⟨?_, isShown.pseudoStates, isShown.subControl⟩
      intro id isId
      obtain rfl := Option.some.inj isId
      have isText : Printable mark.text := isMark (by rw [isHash]; rfl)
      exact (printable_ofList _).mpr fun c member =>
        List.all_eq_true.mp isText c (List.mem_of_mem_drop member)
  | case3 isDot =>
      exact (shows_readName areShown _ _).map fun name _ => isShown.addClass name.text
  | case4 isColon =>
      exact isShown.shows_readPseudoState areShown mark
  | case5 isDouble name isName =>
      intro text isText
      obtain rfl := Option.some.inj isText
      exact isShown.subControl name isName
  | case6 isDouble noSubControl =>
      refine (shows_readName areShown _ _).map fun name isName => ?_
      refine ⟨isShown.id, isShown.pseudoStates, ?_⟩
      intro other isOther
      obtain rfl := Option.some.inj isOther
      exact isName
  | case7 =>
      exact (AttributeTest.shows_read tokens).map fun _ _ =>
        ⟨isShown.id, isShown.pseudoStates, isShown.subControl⟩

end Tokens

theorem IsShown.endingWith
    {selector : Selector}
    (isShown : selector.IsShown)
    (last : Token) :
    (selector.endingWith last).IsShown :=
  ⟨isShown.id, isShown.pseudoStates, isShown.subControl⟩

theorem IsShown.shows_readQualifiers
    {selector : Selector}
    {last : Token}
    {tokens : List Token}
    (isShown : selector.IsShown)
    (areShown : ∀ token ∈ tokens, token.IsShown) :
    (selector.readQualifiers last tokens).Shows IsShown := by
  fun_induction readQualifiers selector last tokens with
  | case1 selector last =>
      exact isShown.endingWith last
  | case2 selector last token rest _ selector' last' after read inductionHypothesis =>
      obtain ⟨isFirst, areLater⟩ := List.forall_mem_cons.mp areShown
      have shows := isShown.shows_readQualifier areLater isFirst
      rw [read] at shows
      exact inductionHypothesis shows fun other isOther =>
        areLater other ((suffix_of_readQualifier read).subset isOther)
  | case3 selector last token rest _ reason after read =>
      obtain ⟨isFirst, areLater⟩ := List.forall_mem_cons.mp areShown
      have shows := isShown.shows_readQualifier areLater isFirst
      rw [read] at shows
      exact shows
  | case4 selector last =>
      exact isShown.endingWith last

theorem shows_read
    {tokens : List Token}
    (areShown : ∀ token ∈ tokens, token.IsShown) :
    (read tokens).Shows IsShown := by
  cases tokens with
  | nil =>
      exact Reason.isShown_of_bare? rfl
  | cons first rest =>
      have isBare := isShown_bare first.start
      rw [read]
      split
      · exact IsShown.shows_readQualifiers ⟨isBare.id, isBare.pseudoStates, isBare.subControl⟩
          (List.forall_mem_cons.mp areShown).2
      · split
        · exact isBare.shows_readQualifiers areShown
        · exact Reason.isShown_of_bare? rfl

end Selector

/-- The names that messages show of a chain are printable. -/
def Chain.IsShown (chain : Chain) : Prop :=
  ∀ selector ∈ chain, selector.IsShown

namespace Chain

theorem shows_readAfter
    {selector : Selector}
    {tokens : List Token}
    (isShown : selector.IsShown)
    (areShown : ∀ token ∈ tokens, token.IsShown) :
    (readAfter selector tokens).Shows IsShown := by
  fun_induction readAfter selector tokens with
  | case1 selector tokens =>
      exact List.forall_mem_singleton.mpr isShown
  | case2 selector tokens combinator rest following reason after read =>
      have shows := Selector.shows_read fun token member =>
        areShown token ((suffix_of_next? following).subset member)
      rw [read] at shows
      exact shows
  | case3 selector tokens combinator rest following next after read inductionHypothesis =>
      have areLater : ∀ token ∈ rest, token.IsShown := fun token member =>
        areShown token ((suffix_of_next? following).subset member)
      have shows := Selector.shows_read areLater
      have within := Selector.rest_read rest
      rw [read] at shows within
      have showsAfter := inductionHypothesis shows fun token member =>
        areLater token (within.subset member)
      refine showsAfter.map fun chain isChain => List.forall_mem_cons.mpr ⟨?_, isChain⟩
      exact ⟨isShown.id, isShown.pseudoStates, isShown.subControl⟩

theorem shows_read
    {tokens : List Token}
    (areShown : ∀ token ∈ tokens, token.IsShown) :
    (read tokens).Shows IsShown := by
  refine (Selector.shows_read areShown).andThen fun selector rest isShown read => ?_
  have within := Selector.rest_read tokens
  rw [read] at within
  exact shows_readAfter isShown fun token member => areShown token (within.subset member)

end Chain

/-- Reading the chains of a rule keeps names printable. -/
theorem shows_readChains
    {tokens : List Token}
    (areShown : ∀ token ∈ tokens, token.IsShown) :
    (readChains tokens).Shows fun chains => ∀ chain ∈ chains, chain.IsShown := by
  fun_induction readChains tokens with
  | case1 tokens reason rest read =>
      have shows := Chain.shows_read areShown
      rw [read] at shows
      exact shows
  | case2 | case5 =>
      exact Reason.isShown_of_bare? rfl
  | case3 tokens chain token rest read _ inductionHypothesis =>
      have shows := Chain.shows_read areShown
      have within := Chain.rest_read tokens
      rw [read] at shows within
      refine (inductionHypothesis fun other member => ?_).map fun chains areChains =>
        List.forall_mem_cons.mpr ⟨shows, areChains⟩
      exact areShown other (within.subset (.tail _ member))
  | case4 tokens chain token rest read =>
      have shows := Chain.shows_read areShown
      rw [read] at shows
      exact List.forall_mem_singleton.mpr shows

namespace Declaration

theorem shows_readValues (property : String) (tokens : List Token) :
    (readValues property tokens).Shows fun _ => True := by
  unfold readValues
  dsimp only
  split
  · split
    · trivial
    · exact Reason.isShown_of_bare? rfl
  · exact Reason.isShown_of_bare? rfl

/-- Reading the importance of a declaration names nothing. -/
theorem shows_readImportance (last : Token) (tokens : List Token) :
    (readImportance last tokens).Shows fun _ => True := by
  cases tokens with
  | nil =>
      trivial
  | cons mark rest =>
      rw [readImportance]
      split
      · cases rest with
        | nil =>
            exact Reason.isShown_of_bare? rfl
        | cons word rest =>
            rw [readImportanceWord]
            split
            · trivial
            · exact Reason.isShown_of_bare? rfl
      · trivial

theorem shows_readEnd (property : String) (tokens : List Token) :
    (readEnd property tokens).Shows fun _ => True := by
  cases tokens with
  | nil =>
      trivial
  | cons token rest =>
      rw [readEnd]
      split
      · trivial
      · split
        · trivial
        · exact Reason.isShown_of_bare? rfl

/-- A declaration shows the name of its property. -/
theorem shows_read
    {name : Token}
    (isName : Printable name.text)
    (tokens : List Token) :
    (read name tokens).Shows fun declaration => Printable declaration.property := by
  refine (shows_expect rfl tokens).andThen fun _ rest _ _ => ?_
  refine (shows_readValues _ rest).andThen fun _ rest _ _ => ?_
  refine (shows_readImportance _ rest).andThen fun _ rest _ _ => ?_
  exact (shows_readEnd _ rest).map fun _ _ => isName

end Declaration

/-- The names that messages show of a block are printable. -/
structure Block.IsShown (block : Block) : Prop where
  declarations : ∀ declaration ∈ block.declarations, Printable declaration.property
  faults : ∀ fault ∈ block.faults, fault.reason.IsShown

theorem Block.isShown_read
    {tokens : List Token}
    (areShown : ∀ token ∈ tokens, token.IsShown) :
    (read tokens).IsShown := by
  fun_induction read tokens with
  | case1 =>
      exact ⟨by simp, List.forall_mem_singleton.mpr (Reason.isShown_of_bare? rfl)⟩
  | case2 =>
      exact ⟨by simp, by simp⟩
  | case3 token rest _ _ inductionHypothesis =>
      exact inductionHypothesis (List.forall_mem_cons.mp areShown).2
  | case4 token rest _ _ isName declaration after done inductionHypothesis =>
      obtain ⟨isFirst, areLater⟩ := List.forall_mem_cons.mp areShown
      have shows := Declaration.shows_read (isFirst (by rw [isName]; rfl)) rest
      have within := Declaration.rest_read token rest
      rw [done] at shows within
      have isBlock := inductionHypothesis fun other member => areLater other (within.subset member)
      exact ⟨List.forall_mem_cons.mpr ⟨shows, isBlock.declarations⟩, isBlock.faults⟩
  | case5 token rest _ _ isName reason after stuck inductionHypothesis =>
      obtain ⟨isFirst, areLater⟩ := List.forall_mem_cons.mp areShown
      have shows := Declaration.shows_read (isFirst (by rw [isName]; rfl)) rest
      have within := Declaration.rest_read token rest
      rw [stuck] at shows within
      have isBlock := inductionHypothesis fun other member =>
        areLater other (((suffix_skipDeclaration after).trans within).subset member)
      exact ⟨isBlock.declarations, List.forall_mem_cons.mpr ⟨shows, isBlock.faults⟩⟩
  | case6 token rest _ _ _ inductionHypothesis =>
      obtain ⟨_, areLater⟩ := List.forall_mem_cons.mp areShown
      have isBlock := inductionHypothesis fun other member =>
        areLater other ((suffix_skipDeclaration rest).subset member)
      exact ⟨isBlock.declarations,
        List.forall_mem_cons.mpr ⟨Reason.isShown_of_bare? rfl, isBlock.faults⟩⟩

/-- The names that messages show of a rule are printable. -/
structure Rule.IsShown (rule : Rule) : Prop where
  chains : ∀ chain ∈ rule.chains, chain.IsShown
  declarations : ∀ declaration ∈ rule.declarations, Printable declaration.property

/-- The names that messages show of a rule, as far as it can be read, are printable. -/
structure RuleReading.IsShown (reading : RuleReading) : Prop where
  rule : ∀ rule ∈ reading.rule?, rule.IsShown
  faults : ∀ fault ∈ reading.faults, fault.reason.IsShown

namespace RuleReading

/-- A rule shows what its chains and its block show. -/
theorem isShown_of_ruleOf?
    {first : Token}
    {chains? : Option (List Chain)}
    {block : Block}
    {rule : Rule}
    (areChains : ∀ chains ∈ chains?, ∀ chain ∈ chains, chain.IsShown)
    (isBlock : block.IsShown)
    (isRule : ruleOf? first chains? block = some rule) :
    rule.IsShown := by
  revert isRule
  fun_cases ruleOf? first chains? block with
  | case1 chains close isClosed =>
      rintro ⟨⟩
      exact ⟨areChains chains rfl, isBlock.declarations⟩
  | case2 =>
      rintro ⟨⟩

theorem isShown_readBlock
    {first : Token}
    {chains? : Option (List Chain)}
    {faults : List Fault}
    {tokens : List Token}
    (areChains : ∀ chains ∈ chains?, ∀ chain ∈ chains, chain.IsShown)
    (areFaults : ∀ fault ∈ faults, fault.reason.IsShown)
    (areShown : ∀ token ∈ tokens, token.IsShown) :
    (readBlock first chains? faults tokens).IsShown := by
  cases tokens with
  | nil =>
      exact ⟨by simp [readBlock], areFaults⟩
  | cons token rest =>
      rw [readBlock]
      split
      · have isBlock := Block.isShown_read (List.forall_mem_cons.mp areShown).2
        refine ⟨?_, List.forall_mem_append.mpr ⟨areFaults, isBlock.faults⟩⟩
        exact fun rule isRule => isShown_of_ruleOf? areChains isBlock isRule
      · exact ⟨by simp, areFaults⟩

theorem isShown_read
    {first : Token}
    {rest : List Token}
    (areShown : ∀ token ∈ first :: rest, token.IsShown) :
    (read first rest).IsShown := by
  have shows := shows_readChains areShown
  have within := rest_readChains (first :: rest)
  rw [read]
  cases isRead : readChains (first :: rest) with
  | done chains after =>
      rw [isRead] at shows within
      refine isShown_readBlock ?_ (by simp) fun token member => ?_
      · intro others isOthers
        obtain rfl := Option.some.inj isOthers
        exact shows
      · exact areShown token (within.subset member)
  | stuck reason after =>
      rw [isRead] at shows within
      refine isShown_readBlock (by simp) (List.forall_mem_singleton.mpr shows) ?_
      intro token member
      exact areShown token (((suffix_skipSelector after).trans within).subset member)

end RuleReading

/-- The names that messages show of the rules and faults of a text are printable. -/
structure Outline.IsShown (outline : Outline) : Prop where
  rules : ∀ rule ∈ outline.rules, rule.IsShown
  faults : ∀ fault ∈ outline.faults, fault.reason.IsShown

/-- Reading rules hands printable names on. -/
theorem Outline.isShown_read
    {tokens : List Token}
    (areShown : ∀ token ∈ tokens, token.IsShown) :
    (read tokens).IsShown := by
  fun_induction read tokens with
  | case1 =>
      exact ⟨by simp, by simp⟩
  | case2 token rest _ inductionHypothesis =>
      have isOutline := inductionHypothesis (List.forall_mem_cons.mp areShown).2
      exact ⟨isOutline.rules,
        List.forall_mem_cons.mpr ⟨Reason.isShown_of_bare? rfl, isOutline.faults⟩⟩
  | case3 token rest _ reading inductionHypothesis =>
      have isReading : reading.IsShown := RuleReading.isShown_read areShown
      have isOutline := inductionHypothesis fun other member =>
        areShown other ((RuleReading.rest_read token rest).subset member)
      refine ⟨List.forall_mem_append.mpr ⟨?_, isOutline.rules⟩,
        List.forall_mem_append.mpr ⟨isReading.faults, isOutline.faults⟩⟩
      exact fun rule isRule => isReading.rule rule (Option.mem_toList.mp isRule)

/-- The names that messages show of the outline of a text are printable. -/
theorem isShown_outline (source : String) :
    (Sheet.outline (tokenize source).tokens).IsShown :=
  Outline.isShown_read fun _ member => isShown_tokens ((List.takeWhile_prefix _).subset member)

end QtSheet
