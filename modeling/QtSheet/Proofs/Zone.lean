import Mathlib.Data.List.Induction
import QtSheet.Proofs.Locality
import QtSheet.Proofs.Recovery.Declaration

namespace QtSheet

/-!
# Inside and outside of blocks

A text is scanned in one way outside of all braces and in another way inside of
them, and its tokens are taken in one way as parts of selectors and in another
way as parts of a block. The scanner counts the braces that are open. The
reading of rules does not: the first closing brace ends a block, and a brace
that opens inside of it is passed over. The two part ways by the surplus of
such braces, and only by this surplus (`zones_of_tokens`).
-/

open Grammar

/-- Where a token stands: outside of all blocks, or inside of one. -/
inductive Zone where
  | outside
  | inside
  deriving Repr, DecidableEq

namespace Zone

/-- Where a text stands that is scanned with a number of braces open. -/
def ofDepth : Nat → Zone
  | 0 => .outside
  | _ + 1 => .inside

/-- The number of braces that are open around a zone. -/
def openBraces : Zone → Nat
  | .outside => 0
  | .inside => 1

/-- Where the next token stands, if blocks have no blocks inside. -/
def after (zone : Zone) (token : Token) : Zone :=
  match token.kind with
  | .openBrace => .inside
  | .closeBrace => .outside
  | _ => zone

/-- Tokens from a zone on, each with the zone where it stands. -/
def along (zone : Zone) : List Token → List (Zone × Token)
  | [] => []
  | token :: rest => (zone, token) :: (zone.after token).along rest

end Zone

/-- The tokens of a text, each with the number of braces open where it is scanned. -/
def Joint.scan (joint : Joint) (position : Position) (depth : Nat) :
    List Char → List (Nat × Token)
  | [] => []
  | c :: rest =>
      let cut := nextPiece depth c rest
      let placed : PlacedPiece := ⟨position, cut.1⟩
      (joint.emitted placed).map (fun token => (depth, token)) ++
        (joint.next placed).scan (position.after cut.1.text) (cut.1.depthAfter depth) cut.2
termination_by text => text.length
decreasing_by exact length_nextPiece depth c rest

/-- The tokens of a style sheet, each with the number of braces open where it is scanned. -/
def scanned (source : String) : List (Nat × Token) :=
  Joint.first.scan Position.first 0 source.toList

/-- The tokens in front of what is left of them, taken in a zone. -/
def takenIn (zone : Zone) (tokens rest : List Token) : List (Zone × Token) :=
  (tokens.take (tokens.length - rest.length)).map fun token => (zone, token)

namespace RuleReading

/-- What is left when the selectors of a rule are read, or passed over for a fault in them. -/
def behindSelectors (tokens : List Token) : List Token :=
  match readChains tokens with
  | .done _ after => after
  | .stuck _ after => skipSelector after

/-- The tokens that are taken as a block, if there is one. -/
def takenAsBlock : List Token → List (Zone × Token)
  | [] => []
  | token :: rest =>
      if token.kind = .openBrace then
        (.outside, token) :: takenIn .inside rest (Block.read rest).rest
      else
        []

/-- The tokens that are taken as one rule. -/
def taken (tokens : List Token) : List (Zone × Token) :=
  takenIn .outside tokens (behindSelectors tokens) ++ takenAsBlock (behindSelectors tokens)

end RuleReading

/-- The tokens that are taken as rules, each with the zone where it is taken. -/
def Outline.taken : List Token → List (Zone × Token)
  | [] => []
  | token :: rest =>
      if token.kind = .closeBrace ∨ token.kind = .semicolon then
        (.outside, token) :: taken rest
      else
        RuleReading.taken (token :: rest) ++ taken (RuleReading.read token rest).rest
termination_by tokens => tokens.length
decreasing_by
  · simp
  · exact RuleReading.length_read token rest

/-- The tokens of a style sheet as they are taken. -/
def taken (source : String) : List (Zone × Token) :=
  Outline.taken (tokensBeforeEnd (tokenize source).tokens)

namespace Zone

/-- The zones along tokens leave the tokens as they are. -/
theorem map_snd_along (zone : Zone) (tokens : List Token) :
    (zone.along tokens).map Prod.snd = tokens := by
  induction tokens generalizing zone with
  | nil =>
      rfl
  | cons token rest inductionHypothesis =>
      rw [along, List.map_cons, inductionHypothesis]

/-- Tokens without opening braces leave the outside outside. -/
theorem along_outside_append
    {front : List Token}
    (avoids : Avoids [.openBrace] front)
    (behind : List Token) :
    Zone.outside.along (front ++ behind) =
      front.map (fun token => (.outside, token)) ++ Zone.outside.along behind := by
  induction front with
  | nil =>
      rfl
  | cons token rest inductionHypothesis =>
      obtain ⟨noOpening, restAvoids⟩ := avoids_cons.mp avoids
      have stays : Zone.outside.after token = .outside := by
        unfold after
        split <;> simp_all
      rw [List.cons_append, along, stays, inductionHypothesis restAvoids, List.map_cons,
        List.cons_append]

/-- Tokens without closing braces leave the inside inside. -/
theorem along_inside_append
    {front : List Token}
    (avoids : Avoids [.closeBrace] front)
    (behind : List Token) :
    Zone.inside.along (front ++ behind) =
      front.map (fun token => (.inside, token)) ++ Zone.inside.along behind := by
  induction front with
  | nil =>
      rfl
  | cons token rest inductionHypothesis =>
      obtain ⟨noClosing, restAvoids⟩ := avoids_cons.mp avoids
      have stays : Zone.inside.after token = .inside := by
        unfold after
        split <;> simp_all
      rw [List.cons_append, along, stays, inductionHypothesis restAvoids, List.map_cons,
        List.cons_append]

end Zone

/-- What is taken in a zone is what stands in front of the rest. -/
theorem takenIn_eq
    {tokens front rest : List Token}
    (shape : tokens = front ++ rest)
    (zone : Zone) :
    takenIn zone tokens rest = front.map fun token => (zone, token) := by
  rw [takenIn, shape, List.length_append, Nat.add_sub_cancel, List.take_left]

section BeforeBlock

variable {opening : Token} {inside : List Token} (opens : opening.kind = .openBrace)

/-- What goes on from in front of a block, and stays in front of it, does so in two steps. -/
theorem Reading.beforeBlock_andThen
    {reading : Reading α}
    {continuation : α → List Token → Reading β}
    (firstStep : opening :: inside <:+ reading.rest)
    (secondStep :
      ∀ value rest, opening :: inside <:+ rest →
        opening :: inside <:+ (continuation value rest).rest) :
    opening :: inside <:+ (reading.andThen continuation).rest := by
  cases reading with
  | done value rest =>
      exact secondStep value rest firstStep
  | stuck reason rest =>
      exact firstStep

include opens

/-- A token that opens no block stands in front of the block. -/
theorem beforeBlock_tail
    {token : Token}
    {rest : List Token}
    (before : opening :: inside <:+ token :: rest)
    (noOpening : token.kind ≠ .openBrace) :
    opening :: inside <:+ rest := by
  rcases List.suffix_cons_iff.mp before with same | within
  · cases same
    contradiction
  · exact within

theorem beforeBlock_expect
    {kind : Kind}
    {tokens : List Token}
    (noOpening : kind ≠ .openBrace)
    (reason : Reason)
    (before : opening :: inside <:+ tokens) :
    opening :: inside <:+ (expect kind reason tokens).rest := by
  cases tokens with
  | nil =>
      exact before
  | cons token rest =>
      rw [expect]
      by_cases isKind : token.kind = kind
      · rw [if_pos isKind]
        exact beforeBlock_tail opens before (isKind ▸ noOpening)
      · rw [if_neg isKind]
        exact before

namespace AttributeTest

theorem beforeBlock_readEnd
    {tokens : List Token}
    (test : AttributeTest)
    (before : opening :: inside <:+ tokens) :
    opening :: inside <:+ (readEnd test tokens).rest := by
  rw [readEnd, Reading.rest_map]
  exact beforeBlock_expect opens (by decide) _ before

theorem beforeBlock_readValue
    {tokens : List Token}
    (name operator : String)
    (before : opening :: inside <:+ tokens) :
    opening :: inside <:+ (readValue name operator tokens).rest := by
  cases tokens with
  | nil =>
      exact before
  | cons token rest =>
      rw [readValue]
      cases isValue : valueOf? token with
      | some value =>
          refine beforeBlock_readEnd opens _ (beforeBlock_tail opens before ?_)
          intro isOpening
          simp [valueOf?, isOpening] at isValue
      | none =>
          exact before

theorem beforeBlock_readOperator
    {tokens : List Token}
    (name : String)
    (before : opening :: inside <:+ tokens) :
    opening :: inside <:+ (readOperator name tokens).rest := by
  cases tokens with
  | nil =>
      exact beforeBlock_readEnd opens _ before
  | cons token rest =>
      rw [readOperator]
      by_cases isOperator : token.kind = .attributeOperator
      · rw [if_pos isOperator]
        exact beforeBlock_readValue opens _ _ (beforeBlock_tail opens before (by simp [isOperator]))
      · rw [if_neg isOperator]
        exact beforeBlock_readEnd opens _ before

theorem beforeBlock_read
    {tokens : List Token}
    (before : opening :: inside <:+ tokens) :
    opening :: inside <:+ (read tokens).rest :=
  Reading.beforeBlock_andThen (beforeBlock_expect opens (by decide) _ before)
    fun _ _ => beforeBlock_readOperator opens _

end AttributeTest

namespace Selector

theorem beforeBlock_readName
    {tokens : List Token}
    (qualifier : Qualifier)
    (mark : Token)
    (before : opening :: inside <:+ tokens) :
    opening :: inside <:+ (readName qualifier mark tokens).rest := by
  cases tokens with
  | nil =>
      exact before
  | cons name rest =>
      rw [readName]
      by_cases isName : name.kind = .identifier ∧ name.start = mark.stop
      · rw [if_pos isName]
        exact beforeBlock_tail opens before (by simp [isName.1])
      · rw [if_neg isName]
        exact before

theorem beforeBlock_readPseudoState
    {tokens : List Token}
    (selector : Selector)
    (colon : Token)
    (before : opening :: inside <:+ tokens) :
    opening :: inside <:+ (selector.readPseudoState colon tokens).rest := by
  cases tokens with
  | nil =>
      exact before
  | cons token rest =>
      by_cases isMark : token.kind = .exclamation ∧ token.start = colon.stop
      · rw [readPseudoState, if_pos isMark, Reading.rest_map]
        exact beforeBlock_readName opens _ _ (beforeBlock_tail opens before (by simp [isMark.1]))
      · rw [readPseudoState, if_neg isMark, Reading.rest_map]
        exact beforeBlock_readName opens _ _ before

theorem beforeBlock_readQualifier
    {mark : Token}
    {rest : List Token}
    (selector : Selector)
    (starts : mark.kind.startsQualifier)
    (before : opening :: inside <:+ mark :: rest) :
    opening :: inside <:+ (selector.readQualifier mark rest).rest := by
  have further : opening :: inside <:+ rest := by
    refine beforeBlock_tail opens before ?_
    intro isOpening
    simp [isOpening, Kind.startsQualifier] at starts
  unfold readQualifier
  split
  · split
    · exact before
    · exact further
  · rw [Reading.rest_map]
    exact beforeBlock_readName opens _ _ further
  · exact beforeBlock_readPseudoState opens _ _ further
  · split
    · exact before
    · rw [Reading.rest_map]
      exact beforeBlock_readName opens _ _ further
  · rw [Reading.rest_map]
    exact AttributeTest.beforeBlock_read opens further

theorem beforeBlock_readQualifiers
    {tokens : List Token}
    (selector : Selector)
    (last : Token)
    (before : opening :: inside <:+ tokens) :
    opening :: inside <:+ (selector.readQualifiers last tokens).rest := by
  fun_induction readQualifiers selector last tokens with
  | case1 =>
      exact before
  | case2 selector last token rest starts selector' last' after read inductionHypothesis =>
      have left := beforeBlock_readQualifier opens selector starts before
      rw [read] at left
      exact inductionHypothesis left
  | case3 selector last token rest starts reason after read =>
      have left := beforeBlock_readQualifier opens selector starts before
      rw [read] at left
      exact left
  | case4 =>
      exact before

theorem beforeBlock_read
    {tokens : List Token}
    (before : opening :: inside <:+ tokens) :
    opening :: inside <:+ (read tokens).rest := by
  cases tokens with
  | nil =>
      exact before
  | cons first rest =>
      by_cases isType : first.kind = .identifier ∨ first.kind = .star
      · rw [read, if_pos isType]
        refine beforeBlock_readQualifiers opens _ _ (beforeBlock_tail opens before ?_)
        rcases isType with isName | isStar
        · simp [isName]
        · simp [isStar]
      · rw [read, if_neg isType]
        split
        · exact beforeBlock_readQualifiers opens _ _ before
        · exact before

end Selector

namespace Chain

/-- The next selector of a chain is in front of a block, if the chain is. -/
theorem beforeBlock_next?
    {tokens rest : List Token}
    {combinator : Combinator}
    (following : next? tokens = some (combinator, rest))
    (before : opening :: inside <:+ tokens) :
    opening :: inside <:+ rest := by
  cases tokens with
  | nil =>
      simp [next?] at following
  | cons token tail =>
      rw [next?] at following
      cases isCombinator : token.combinator? with
      | some combinator =>
          rw [isCombinator] at following
          cases following
          refine beforeBlock_tail opens before ?_
          intro isOpening
          simp [Token.combinator?, isOpening] at isCombinator
      | none =>
          simp only [isCombinator, Option.ite_none_right_eq_some] at following
          cases following.2
          exact before

theorem beforeBlock_readAfter
    {tokens : List Token}
    (selector : Selector)
    (before : opening :: inside <:+ tokens) :
    opening :: inside <:+ (readAfter selector tokens).rest := by
  fun_induction readAfter selector tokens with
  | case1 =>
      exact before
  | case2 selector tokens combinator rest following reason after read =>
      have left := Selector.beforeBlock_read opens (beforeBlock_next? opens following before)
      rw [read] at left
      exact left
  | case3 selector tokens combinator rest following next after read inductionHypothesis =>
      have left := Selector.beforeBlock_read opens (beforeBlock_next? opens following before)
      rw [read] at left
      rw [Reading.rest_map]
      exact inductionHypothesis left

theorem beforeBlock_read
    {tokens : List Token}
    (before : opening :: inside <:+ tokens) :
    opening :: inside <:+ (read tokens).rest :=
  Reading.beforeBlock_andThen (Selector.beforeBlock_read opens before)
    fun selector _ => beforeBlock_readAfter opens selector

end Chain

/-- Reading chains does not go past an opening brace. -/
theorem beforeBlock_readChains
    {tokens : List Token}
    (before : opening :: inside <:+ tokens) :
    opening :: inside <:+ (readChains tokens).rest := by
  fun_induction readChains tokens with
  | case1 tokens reason rest read =>
      have left := Chain.beforeBlock_read opens before
      rw [read] at left
      exact left
  | case2 tokens chain read =>
      have left := Chain.beforeBlock_read opens before
      rw [read] at left
      exact left
  | case3 tokens chain token rest read isComma inductionHypothesis =>
      have left := Chain.beforeBlock_read opens before
      rw [read] at left
      rw [Reading.rest_map]
      exact inductionHypothesis (beforeBlock_tail opens left (by simp [isComma]))
  | case4 tokens chain token rest read =>
      have left := Chain.beforeBlock_read opens before
      rw [read] at left
      exact left
  | case5 tokens chain token rest read =>
      have left := Chain.beforeBlock_read opens before
      rw [read] at left
      exact left

/-- Passing over a selector does not go past an opening brace. -/
theorem beforeBlock_skipSelector
    {tokens : List Token}
    (before : opening :: inside <:+ tokens) :
    opening :: inside <:+ skipSelector tokens := by
  induction tokens with
  | nil =>
      exact before
  | cons token rest inductionHypothesis =>
      by_cases isOpening : token.kind = .openBrace
      · rw [skipSelector, if_pos isOpening]
        exact before
      · rw [skipSelector, if_neg isOpening]
        have further := beforeBlock_tail opens before isOpening
        split
        · exact further
        · exact inductionHypothesis further

theorem RuleReading.beforeBlock_behindSelectors
    {tokens : List Token}
    (before : opening :: inside <:+ tokens) :
    opening :: inside <:+ behindSelectors tokens := by
  have left := beforeBlock_readChains opens before
  fun_cases behindSelectors tokens with
  | case1 chains after read =>
      rw [read] at left
      exact left
  | case2 reason after read =>
      rw [read] at left
      exact beforeBlock_skipSelector opens left

end BeforeBlock

namespace RuleReading

/-- What is behind the selectors of a rule is the end of the tokens. -/
theorem suffix_behindSelectors (tokens : List Token) :
    behindSelectors tokens <:+ tokens := by
  have within := rest_readChains tokens
  fun_cases behindSelectors tokens with
  | case1 chains after read =>
      rw [read] at within
      exact within
  | case2 reason after read =>
      rw [read] at within
      exact (suffix_skipSelector _).trans within

/-- The tokens taken as selectors hold no opening brace. -/
theorem exists_selectors (tokens : List Token) :
    ∃ front,
      tokens = front ++ behindSelectors tokens ∧ Avoids [.openBrace] front := by
  obtain ⟨front, shape⟩ := suffix_behindSelectors tokens
  refine ⟨front, shape.symm, ?_⟩
  intro opening member isOpening
  obtain ⟨earlier, later, rfl⟩ := List.append_of_mem member
  -- Otherwise the selectors would reach beyond a brace that opens a block.
  have isSuffix : opening :: (later ++ behindSelectors tokens) <:+ tokens := by
    refine ⟨earlier, ?_⟩
    simpa using shape
  have left := beforeBlock_behindSelectors (List.mem_singleton.mp isOpening) isSuffix
  have shorter := left.length_le
  simp only [List.length_cons, List.length_append] at shorter
  omega

/-- A rule goes on with its block where its selectors end. -/
theorem exists_read_eq (first : Token) (rest : List Token) :
    ∃ chains? faults,
      read first rest = readBlock first chains? faults (behindSelectors (first :: rest)) := by
  cases isRead : readChains (first :: rest) with
  | done chains after =>
      exact ⟨some chains, [], by simp [read, behindSelectors, isRead]⟩
  | stuck reason after =>
      exact ⟨none, [⟨reason, after.head?⟩], by simp [read, behindSelectors, isRead]⟩

end RuleReading

/-- The tokens of a block are those up to its closing brace, or all of them. -/
theorem Block.exists_inside (tokens : List Token) :
    (Block.read tokens).rest = [] ∨
      ∃ inside closing,
        tokens = inside ++ closing :: (Block.read tokens).rest ∧ closing.kind = .closeBrace := by
  have longer :
      ∀ {whole left rest : List Token},
        left <:+ whole →
        (rest = [] ∨
          ∃ inside closing, left = inside ++ closing :: rest ∧ closing.kind = .closeBrace) →
        rest = [] ∨
          ∃ inside closing, whole = inside ++ closing :: rest ∧ closing.kind = .closeBrace := by
    rintro whole left rest ⟨front, rfl⟩ (isNil | ⟨inside, closing, rfl, closes⟩)
    · exact .inl isNil
    · exact .inr ⟨front ++ inside, closing, by simp, closes⟩
  fun_induction Block.read tokens with
  | case1 =>
      exact .inl rfl
  | case2 token rest closes =>
      exact .inr ⟨[], token, rfl, closes⟩
  | case3 token rest _ _ inductionHypothesis =>
      exact longer (List.suffix_cons token rest) inductionHypothesis
  | case4 token rest _ _ _ declaration after done inductionHypothesis =>
      have within := Declaration.rest_read token rest
      rw [done] at within
      exact longer (within.trans (List.suffix_cons token rest)) inductionHypothesis
  | case5 token rest _ _ _ reason after stuck inductionHypothesis =>
      have within := Declaration.rest_read token rest
      rw [stuck] at within
      exact longer
        ((suffix_skipDeclaration after).trans (within.trans (List.suffix_cons token rest)))
        inductionHypothesis
  | case6 token rest _ _ _ inductionHypothesis =>
      exact longer ((suffix_skipDeclaration rest).trans (List.suffix_cons token rest))
        inductionHypothesis

/-- Tokens avoid some kinds, or there is a first token among them of one of the kinds. -/
theorem avoids_or_exists_first (kinds : List Kind) (tokens : List Token) :
    Avoids kinds tokens ∨
      ∃ front first behind,
        tokens = front ++ first :: behind ∧ Avoids kinds front ∧ first.kind ∈ kinds := by
  induction tokens with
  | nil =>
      exact .inl avoids_nil
  | cons token rest inductionHypothesis =>
      by_cases isOne : token.kind ∈ kinds
      · exact .inr ⟨[], token, rest, rfl, avoids_nil, isOne⟩
      · rcases inductionHypothesis with avoids | ⟨front, first, behind, rfl, avoids, isFirst⟩
        · exact .inl (avoids_cons.mpr ⟨isOne, avoids⟩)
        · exact .inr ⟨token :: front, first, behind, rfl, avoids_cons.mpr ⟨isOne, avoids⟩, isFirst⟩

/-- The first closing brace ends a block, whatever stands in front of it. -/
theorem Block.rest_read_append
    {inside : List Token}
    {closing : Token}
    (avoids : Avoids [.closeBrace] inside)
    (closes : closing.kind = .closeBrace)
    (behind : List Token) :
    (Block.read (inside ++ closing :: behind)).rest = behind := by
  rcases avoids_or_exists_first segmentEnds inside with
    oneSegment | ⟨body, semicolon, later, isInside, bodyInside, isEnd⟩
  · obtain ⟨yield, _, isRead⟩ := exists_yield (mem_segmentEnds.mpr (.inr closes)) oneSegment
    rw [isRead, Yield.addTo_eq, skipDeclaration, if_pos closes, Block.read_cons, if_pos closes]
  · -- The first segment ends with a semicolon, and the block goes on behind it.
    have shorter : later.length < inside.length := by
      rw [isInside, List.length_append, List.length_cons]
      omega
    rw [isInside] at avoids
    obtain ⟨noClosing, laterAvoids⟩ := avoids_cons.mp (avoids_append.mp avoids).2
    have isSemicolon : semicolon.kind = .semicolon :=
      (mem_segmentEnds.mp isEnd).resolve_right fun isClose => noClosing (by simp [isClose])
    obtain ⟨yield, _, isRead⟩ := exists_yield isEnd bodyInside
    have further := rest_read_append laterAvoids closes behind
    rw [isInside, List.append_assoc, List.cons_append, isRead, Yield.addTo_eq, skipDeclaration,
      if_neg (by simp [isSemicolon]), if_pos isSemicolon]
    exact further
termination_by inside.length

/-- The tokens taken as the inside of a block stand inside, and those behind it outside. -/
theorem Block.along_inside (tokens : List Token) :
    Zone.inside.along tokens =
      takenIn .inside tokens (Block.read tokens).rest ++
        Zone.outside.along (Block.read tokens).rest := by
  rcases avoids_or_exists_first [.closeBrace] tokens with
    avoids | ⟨inside, closing, behind, rfl, avoids, isClosing⟩
  · have noneLeft : (Block.read tokens).rest = [] := by
      rcases Block.exists_inside tokens with isNil | ⟨inside, closing, shape, closes⟩
      · exact isNil
      · rw [shape] at avoids
        exact absurd (List.mem_singleton.mpr closes) (avoids closing (by simp))
    have isInside := Zone.along_inside_append avoids []
    rw [List.append_nil] at isInside
    rw [noneLeft, takenIn_eq (List.append_nil tokens).symm, isInside]
    rfl
  · have closes := List.mem_singleton.mp isClosing
    have ends : Zone.inside.after closing = .outside := by
      simp [Zone.after, closes]
    rw [Block.rest_read_append avoids closes, Zone.along_inside_append avoids, Zone.along, ends,
      takenIn_eq (List.append_cons inside closing behind)]
    simp

/-- The tokens taken as a rule stand where they are taken. -/
theorem RuleReading.along_outside (first : Token) (rest : List Token) :
    Zone.outside.along (first :: rest) =
      taken (first :: rest) ++ Zone.outside.along (read first rest).rest := by
  obtain ⟨chains?, faults, isRead⟩ := exists_read_eq first rest
  obtain ⟨front, shape, avoids⟩ := exists_selectors (first :: rest)
  have selectors :
      Zone.outside.along (first :: rest) =
        takenIn .outside (first :: rest) (behindSelectors (first :: rest)) ++
          Zone.outside.along (behindSelectors (first :: rest)) := by
    rw [takenIn_eq shape, ← Zone.along_outside_append avoids, ← shape]
  rw [selectors, taken, isRead, List.append_assoc]
  cases behindSelectors (first :: rest) with
  | nil =>
      rfl
  | cons opening inside =>
      by_cases opens : opening.kind = .openBrace
      · have enters : Zone.outside.after opening = .inside := by
          simp [Zone.after, opens]
        rw [takenAsBlock, if_pos opens, readBlock, if_pos opens, Zone.along, enters,
          Block.along_inside]
        rfl
      · rw [takenAsBlock, if_neg opens, readBlock, if_neg opens]
        rfl

/--
Blocks are not nested: a token is taken inside of a block exactly when the last
brace in front of it is an opening one.
-/
theorem Outline.taken_eq_along (tokens : List Token) :
    Outline.taken tokens = Zone.outside.along tokens := by
  fun_induction Outline.taken tokens with
  | case1 =>
      rfl
  | case2 token rest isStray inductionHypothesis =>
      have stays : Zone.outside.after token = .outside := by
        rcases isStray with isClose | isSemicolon
        · simp [Zone.after, isClose]
        · simp [Zone.after, isSemicolon]
      rw [inductionHypothesis, Zone.along, stays]
  | case3 token rest notStray inductionHypothesis =>
      rw [inductionHypothesis, RuleReading.along_outside]

/-- Tokens from a number of open braces on, each with the number in front of it. -/
def depthsAlong (depth : Nat) : List Token → List (Nat × Token)
  | [] => []
  | token :: rest => (depth, token) :: depthsAlong (token.depthAfter depth) rest

/-- The depths along the second of two lists begin where the first one ends. -/
theorem depthsAlong_append (depth : Nat) (front back : List Token) :
    depthsAlong depth (front ++ back) =
      depthsAlong depth front ++ depthsAlong (front.foldl Token.depthAfter depth) back := by
  induction front generalizing depth with
  | nil =>
      rfl
  | cons token rest inductionHypothesis =>
      rw [List.cons_append, depthsAlong, inductionHypothesis]
      rfl

theorem map_snd_depthsAlong (depth : Nat) (tokens : List Token) :
    (depthsAlong depth tokens).map Prod.snd = tokens := by
  induction tokens generalizing depth with
  | nil =>
      rfl
  | cons token rest inductionHypothesis =>
      rw [depthsAlong, List.map_cons, inductionHypothesis]

namespace Joint

/-- All that one more piece adds is scanned with the braces open in front of it. -/
theorem depthsAlong_emitted (joint : Joint) (placed : PlacedPiece) :
    depthsAlong joint.depth (joint.emitted placed) =
      (joint.emitted placed).map fun token => (joint.depth, token) := by
  fun_cases emitted joint placed with
  | case1 kind text isToken =>
      rw [depthsAlong_append, List.map_append, foldl_combinator?]
      refine congrArg (· ++ _) ?_
      cases joint.combinator? kind <;> rfl
  | case2 =>
      rfl

/-- The scanner counts the braces of the tokens. -/
theorem scan_eq
    {joint : Joint}
    {depth : Nat}
    (isDepth : joint.depth = depth)
    (position : Position)
    (text : List Char) :
    joint.scan position depth text =
      depthsAlong depth (joint.tokens (place position (pieces depth text))) := by
  induction size : text.length using Nat.strongRecOn generalizing joint depth position text with
  | ind size inductionHypothesis =>
      cases text with
      | nil =>
          rw [scan, pieces]
          rfl
      | cons c rest =>
          have shorter := length_nextPiece depth c rest
          rw [size] at shorter
          rw [scan, pieces, place, tokens, depthsAlong_append]
          generalize nextPiece depth c rest = cut at shorter ⊢
          have nextDepth : (joint.next ⟨position, cut.1⟩).depth = cut.1.depthAfter depth := by
            rw [depth_next, isDepth]
          have emittedDepth := foldl_emitted joint ⟨position, cut.1⟩
          rw [isDepth, nextDepth] at emittedDepth
          have emittedDepths := depthsAlong_emitted joint ⟨position, cut.1⟩
          rw [isDepth] at emittedDepths
          rw [emittedDepth, emittedDepths]
          exact congrArg (_ ++ ·) (inductionHypothesis _ shorter nextDepth _ cut.2 rfl)

end Joint

/-- The tokens of a style sheet are scanned with the braces in front of them open. -/
theorem scanned_eq (source : String) :
    scanned source = depthsAlong 0 (tokensBeforeEnd (tokenize source).tokens) := by
  rw [tokensBeforeEnd_tokenize, placedPieces]
  exact Joint.scan_eq rfl _ _

/-- The surplus of open braces after one more token that is taken. -/
def surplusAfter (surplus : Nat) (taken : Zone × Token) : Nat :=
  match taken.1, taken.2.kind with
  | .inside, .openBrace => surplus + 1
  | .outside, .closeBrace => surplus - 1
  | _, _ => surplus

/--
The surplus of open braces after tokens that are taken: a brace that opens
inside of a block adds to it, and a closing brace outside of all blocks makes up
for one of them.
-/
def surplus (taken : List (Zone × Token)) : Nat :=
  taken.foldl surplusAfter 0

/-- One token changes the number of open braces as it changes the zone and the surplus. -/
theorem depthAfter_openBraces_add (zone : Zone) (surplus : Nat) (token : Token) :
    token.depthAfter (zone.openBraces + surplus) =
      (zone.after token).openBraces + surplusAfter surplus (zone, token) := by
  unfold Token.depthAfter Zone.after surplusAfter
  cases zone <;> cases token.kind <;> simp [Zone.openBraces, Nat.add_comm]

/-- The number of open braces in front of a token is that around its zone, and the surplus. -/
theorem getElem?_depthsAlong
    {zone taken : Zone}
    {depth index : Nat}
    {tokens : List Token}
    {token : Token}
    (surplus : Nat)
    (isScanned : (depthsAlong (zone.openBraces + surplus) tokens)[index]? = some (depth, token))
    (isTaken : (zone.along tokens)[index]? = some (taken, token)) :
    depth = taken.openBraces + ((zone.along tokens).take index).foldl surplusAfter surplus := by
  induction tokens generalizing zone surplus index with
  | nil =>
      simp [Zone.along] at isTaken
  | cons first rest inductionHypothesis =>
      cases index with
      | zero =>
          simp only [depthsAlong, Zone.along, List.getElem?_cons_zero, Option.some.injEq,
            Prod.mk.injEq] at isScanned isTaken
          rw [← isScanned.1, ← isTaken.1]
          rfl
      | succ index =>
          rw [depthsAlong, List.getElem?_cons_succ, depthAfter_openBraces_add] at isScanned
          rw [Zone.along, List.getElem?_cons_succ] at isTaken
          exact inductionHypothesis _ isScanned isTaken

/-- There is no surplus as long as no brace opens inside of a block. -/
theorem surplus_eq_zero
    {taken : List (Zone × Token)}
    (noneInside : ∀ earlier ∈ taken, earlier.1 = .inside → earlier.2.kind ≠ .openBrace) :
    surplus taken = 0 := by
  induction taken with
  | nil =>
      rfl
  | cons first rest inductionHypothesis =>
      have none : surplusAfter 0 first = 0 := by
        have here := noneInside first List.mem_cons_self
        fun_cases surplusAfter 0 first with
        | case1 opens isInside =>
            exact absurd opens (here isInside)
        | case2 =>
            rfl
        | case3 =>
            rfl
      rw [surplus, List.foldl_cons, none]
      exact inductionHypothesis fun earlier member => noneInside earlier (.tail first member)

/-- The kind of the last brace among some tokens. -/
def lastBrace? (tokens : List Token) : Option Kind :=
  (tokens.filter fun token => token.kind ∈ braces).getLast?.map fun token => token.kind

namespace Zone

theorem getElem?_along
    {zone taken : Zone}
    {index : Nat}
    {tokens : List Token}
    {token : Token}
    (isTaken : (zone.along tokens)[index]? = some (taken, token)) :
    taken = (tokens.take index).foldl Zone.after zone := by
  induction tokens generalizing zone index with
  | nil =>
      simp [along] at isTaken
  | cons first rest inductionHypothesis =>
      cases index with
      | zero =>
          simp only [along, List.getElem?_cons_zero, Option.some.injEq, Prod.mk.injEq] at isTaken
          exact isTaken.1.symm
      | succ index =>
          rw [along, List.getElem?_cons_succ] at isTaken
          exact inductionHypothesis isTaken

/-- Behind some tokens is the inside of a block if the last brace among them is an opening one. -/
theorem foldl_after_eq_inside (tokens : List Token) :
    tokens.foldl Zone.after .outside = .inside ↔ lastBrace? tokens = some .openBrace := by
  induction tokens using List.reverseRecOn with
  | nil =>
      simp [lastBrace?]
  | append_singleton front last inductionHypothesis =>
      rw [List.foldl_append, lastBrace?, List.filter_append]
      by_cases isBrace : last.kind ∈ braces
      · rcases List.mem_pair.mp isBrace with opens | closes
        · simp [Zone.after, opens, braces]
        · simp [Zone.after, closes, braces]
      · have stays : ∀ zone : Zone, zone.after last = zone := by
          intro zone
          unfold Zone.after
          split <;> simp_all [braces]
        simp only [List.foldl_cons, List.foldl_nil, stays, isBrace, decide_false,
          Bool.false_eq_true, not_false_eq_true, List.filter_cons_of_neg, List.filter_nil,
          List.append_nil]
        exact inductionHypothesis

/-- The scanner is in the zone of a token unless it has a surplus of braces open outside. -/
theorem ofDepth_openBraces_add (zone : Zone) (surplus : Nat) :
    ofDepth (zone.openBraces + surplus) = zone ↔ zone = .inside ∨ surplus = 0 := by
  cases zone <;> cases surplus <;> simp [ofDepth, openBraces]

end Zone

/-- Where a token of a style sheet is scanned and where it is taken. -/
structure ZonesAt (source : String) (index depth : Nat) (zone : Zone) : Prop where
  inside_iff :
    zone = .inside ↔
      lastBrace? ((tokensBeforeEnd (tokenize source).tokens).take index) = some .openBrace
  depth_eq : depth = zone.openBraces + surplus ((taken source).take index)
  agrees_iff :
    Zone.ofDepth depth = zone ↔ zone = .inside ∨ surplus ((taken source).take index) = 0
  agrees :
    (∀ earlier ∈ (taken source).take index,
      earlier.1 = .inside → earlier.2.kind ≠ .openBrace) →
    Zone.ofDepth depth = zone

/--
Every token of a style sheet is scanned once and taken once. It is taken inside
of a block exactly when the last brace in front of it is an opening one, and it
is scanned with one brace open for this block and with the surplus of braces
that have opened inside of blocks. So the scanner takes every token of a block
for one of a block, and a token outside of all blocks for one of a block exactly
when there is a surplus in front of it.
-/
theorem zones_of_tokens (source : String) :
    (scanned source).map Prod.snd = tokensBeforeEnd (tokenize source).tokens ∧
      (taken source).map Prod.snd = tokensBeforeEnd (tokenize source).tokens ∧
      ∀ (index depth : Nat) (zone : Zone) (token : Token),
        (scanned source)[index]? = some (depth, token) →
        (taken source)[index]? = some (zone, token) →
        ZonesAt source index depth zone := by
  rw [scanned_eq, taken, Outline.taken_eq_along]
  refine ⟨map_snd_depthsAlong _ _, Zone.map_snd_along _ _, ?_⟩
  intro index depth zone token isScanned isTaken
  have isDepth := getElem?_depthsAlong 0 isScanned isTaken
  have isZone := Zone.getElem?_along isTaken
  rw [← Outline.taken_eq_along] at isDepth
  refine ⟨?_, isDepth, ?_, ?_⟩
  · rw [isZone]
    exact Zone.foldl_after_eq_inside _
  · rw [isDepth]
    exact Zone.ofDepth_openBraces_add _ _
  · intro noneInside
    rw [isDepth, Zone.ofDepth_openBraces_add]
    exact .inr (surplus_eq_zero noneInside)

/-- In `a{{}b:c{}` the second rule is scanned as if it were inside of a block. -/
theorem not_forall_zones_agree :
    ¬ ∀ (source : String) (index depth : Nat) (zone : Zone) (token : Token),
        (scanned source)[index]? = some (depth, token) →
        (taken source)[index]? = some (zone, token) →
        token.kind ∉ braces →
        Zone.ofDepth depth = zone := by
  intro agree
  have scannedInside :
      (scanned "a\x7b\x7b\x7db:c\x7b\x7d")[4]? =
        some (1, ⟨⟨"b", 4, 1, 1, 5⟩, .identifier⟩) := by
    decide +kernel
  have takenOutside :
      (taken "a\x7b\x7b\x7db:c\x7b\x7d")[4]? =
        some (.outside, ⟨⟨"b", 4, 1, 1, 5⟩, .identifier⟩) := by
    rw [taken, Outline.taken_eq_along]
    decide +kernel
  have same := agree _ _ _ _ _ scannedInside takenOutside (by decide)
  contradiction

end QtSheet
