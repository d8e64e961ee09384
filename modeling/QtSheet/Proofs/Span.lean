import QtSheet.Proofs.Grammar.Anatomy
import QtSheet.Proofs.Tiling

namespace QtSheet

/-!
# Where the parts of a sheet stand

The span of a rule, a selector or a declaration reaches from the first to the
last of its tokens. As the tokens of a text follow one another, so do the spans:
those of the rules of a sheet, and those of the selectors and then of the
declarations of a rule, which lie inside of the span of the rule.
-/

/-- A stretch of a text, from one offset up to another. -/
structure Span where
  start : Int
  stop : Int
  deriving Repr, DecidableEq

namespace Span

/-- One stretch ends before another one begins. -/
def Precedes (first second : Span) : Prop :=
  first.start < second.start ∧ first.stop ≤ second.start

/-- One stretch is a part of another. -/
def Inside (inner outer : Span) : Prop :=
  outer.start ≤ inner.start ∧ inner.stop ≤ outer.stop

/-- The characters of a stretch of a text. -/
def slice (span : Span) (source : String) : String :=
  String.ofList ((source.toList.drop span.start.toNat).take (span.stop - span.start).toNat)

/-- A stretch reaches from the first to the last of some tokens. -/
structure Bounds (span : Span) (tokens : List Token) : Prop where
  first : ∃ first, tokens.head? = some first ∧ span.start = first.start
  last : ∃ last, tokens.getLast? = some last ∧ span.stop = last.stop

/-- A stretch begins and ends with one of some tokens. -/
structure Within (span : Span) (tokens : List Token) : Prop where
  first : ∃ first ∈ tokens, span.start = first.start
  last : ∃ last ∈ tokens, span.stop = last.stop

/-- A span that bounds tokens is within them. -/
theorem Bounds.within
    {span : Span}
    {tokens : List Token}
    (bounds : span.Bounds tokens) :
    span.Within tokens := by
  obtain ⟨⟨first, isFirst, isStart⟩, ⟨last, isLast, isStop⟩⟩ := bounds
  exact ⟨⟨first, List.mem_of_mem_head? isFirst, isStart⟩,
    ⟨last, List.mem_of_mem_getLast? isLast, isStop⟩⟩

/-- A span within some of the tokens is within all of them. -/
theorem Within.mono
    {span : Span}
    {tokens others : List Token}
    (within : span.Within tokens)
    (isPart : tokens ⊆ others) :
    span.Within others := by
  obtain ⟨⟨first, isFirst, isStart⟩, ⟨last, isLast, isStop⟩⟩ := within
  exact ⟨⟨first, isPart isFirst, isStart⟩, ⟨last, isPart isLast, isStop⟩⟩

end Span

/-- The span of a rule. -/
def Rule.span (rule : Rule) : Span :=
  ⟨rule.start, rule.start + rule.length⟩

/-- The span of a selector. -/
def Selector.span (selector : Selector) : Span :=
  ⟨selector.start, selector.start + selector.length⟩

/-- The span of a declaration. -/
def Declaration.span (declaration : Declaration) : Span :=
  ⟨declaration.start, declaration.start + declaration.length⟩

/-- The spans of the selectors of a rule, and then those of its declarations. -/
def Rule.partSpans (rule : Rule) : List Span :=
  rule.chains.flatten.map Selector.span ++ rule.declarations.map Declaration.span

/-- Tokens that stand one behind the other. -/
def Successive (tokens : List Token) : Prop :=
  tokens.Pairwise fun first second => first.Precedes second.toExcerpt

/-- Spans among tokens, which follow one another when the tokens do. -/
structure Follow (tokens : List Token) (spans : List Span) : Prop where
  within : ∀ span ∈ spans, span.Within tokens
  pairwise : Successive tokens → spans.Pairwise Span.Precedes

namespace Follow

theorem nil (tokens : List Token) :
    Follow tokens [] :=
  ⟨by simp, fun _ => .nil⟩

/-- A span that bounds tokens is alone in order there. -/
theorem single
    {tokens : List Token}
    {span : Span}
    (bounds : span.Bounds tokens) :
    Follow tokens [span] := by
  refine ⟨?_, fun _ => List.pairwise_singleton _ _⟩
  intro other isOther
  rw [List.mem_singleton.mp isOther]
  exact bounds.within

/-- Spans among tokens behind others follow the spans among those. -/
theorem append
    {front back : List Token}
    {spans others : List Span}
    (frontFollow : Follow front spans)
    (backFollow : Follow back others) :
    Follow (front ++ back) (spans ++ others) := by
  constructor
  · intro span member
    rcases List.mem_append.mp member with inFront | inBack
    · exact (frontFollow.within span inFront).mono (List.subset_append_left front back)
    · exact (backFollow.within span inBack).mono (List.subset_append_right front back)
  · intro successive
    obtain ⟨frontSuccessive, backSuccessive, across⟩ := List.pairwise_append.mp successive
    refine List.pairwise_append.mpr
      ⟨frontFollow.pairwise frontSuccessive, backFollow.pairwise backSuccessive, ?_⟩
    intro span inFront other inBack
    obtain ⟨⟨first, isFirst, isStart⟩, ⟨last, isLast, isStop⟩⟩ := frontFollow.within span inFront
    obtain ⟨⟨next, isNext, isNextStart⟩, _⟩ := backFollow.within other inBack
    rw [Span.Precedes, isStart, isStop, isNextStart]
    exact ⟨(across first isFirst next isNext).1, (across last isLast next isNext).2⟩

/-- One more token in front changes nothing. -/
theorem skip
    {rest : List Token}
    {spans : List Span}
    (follow : Follow rest spans)
    (token : Token) :
    Follow (token :: rest) spans :=
  (nil [token]).append follow

end Follow

/-- A span among tokens that follow one another lies between the first and the last of them. -/
theorem Span.Within.inside
    {tokens : List Token}
    {span outer : Span}
    (successive : Successive tokens)
    (notEmpty : ∀ token ∈ tokens, token.start ≤ token.stop)
    (bounds : outer.Bounds tokens)
    (within : span.Within tokens) :
    span.Inside outer := by
  obtain ⟨⟨first, isFirst, isStart⟩, ⟨last, isLast, isStop⟩⟩ := bounds
  obtain ⟨⟨left, isLeft, isLeftStart⟩, ⟨right, isRight, isRightStop⟩⟩ := within
  obtain ⟨rest, shape⟩ := List.head?_eq_some_iff.mp isFirst
  obtain ⟨init, otherShape⟩ := List.getLast?_eq_some_iff.mp isLast
  constructor
  · rw [isStart, isLeftStart]
    rw [shape] at isLeft successive
    rcases List.mem_cons.mp isLeft with rfl | later
    · exact Int.le_refl _
    · exact Int.le_of_lt ((List.pairwise_cons.mp successive).1 left later).1
  · rw [isStop, isRightStop]
    have lastNotEmpty := notEmpty last (List.mem_of_mem_getLast? isLast)
    rw [otherShape] at isRight successive
    rcases List.mem_append.mp isRight with earlier | isTheLast
    · have precedes := (List.pairwise_append.mp successive).2.2 right earlier last (by simp)
      exact Int.le_trans precedes.2 lastNotEmpty
    · exact List.mem_singleton.mp isTheLast ▸ Int.le_refl _

namespace Grammar

/-- A selector spans its tokens. -/
theorem SelectorForm.bounds
    {tokens : List Token}
    {selector : Selector}
    (form : SelectorForm tokens selector) :
    selector.span.Bounds tokens := by
  cases form with
  | @intro _ _ _ first last _ _ _ _ isFirst isLast =>
      refine ⟨⟨first, isFirst, rfl⟩, ⟨last, isLast, ?_⟩⟩
      simp only [Selector.span, assemble]
      omega

/-- A declaration spans its tokens. -/
theorem DeclarationForm.bounds
    {tokens : List Token}
    {declaration : Declaration}
    (form : DeclarationForm tokens declaration) :
    declaration.span.Bounds tokens := by
  cases form with
  | @intro name colon last values importance _ _ _ _ _ isLast =>
      refine ⟨⟨name, rfl, rfl⟩, ⟨last, ?_, ?_⟩⟩
      · simp [List.getLast?_cons, isLast]
      · simp only [Declaration.span]
        omega

/-- A rule spans its tokens. -/
theorem RuleForm.bounds
    {tokens : List Token}
    {rule : Rule}
    (form : RuleForm tokens rule) :
    rule.span.Bounds tokens := by
  cases form with
  | @intro group block first opening closing _ _ _ isFirst _ _ _ =>
      refine ⟨⟨first, ?_, rfl⟩, ⟨closing, ?_, ?_⟩⟩
      · simp [List.head?_append, isFirst]
      · simp [List.getLast?_cons]
      · simp only [Rule.span]
        omega

/-- The selectors of a chain stand one behind the other. -/
theorem ChainForm.follow
    {tokens : List Token}
    {chain : Chain}
    (form : ChainForm tokens chain) :
    Follow tokens (chain.map Selector.span) := by
  induction form with
  | last selectorForm =>
      exact .single selectorForm.bounds
  | combined selectorForm _ _ inductionHypothesis =>
      exact (Follow.single selectorForm.bounds).append (inductionHypothesis.skip _)
  | direct selectorForm _ _ inductionHypothesis =>
      exact (Follow.single selectorForm.bounds).append inductionHypothesis

/-- The selectors of a group stand one behind the other. -/
theorem ChainsForm.follow
    {tokens : List Token}
    {chains : List Chain}
    (form : ChainsForm tokens chains) :
    Follow tokens (chains.flatten.map Selector.span) := by
  induction form with
  | last chainForm =>
      rw [List.flatten_singleton]
      exact chainForm.follow
  | cons chainForm _ _ inductionHypothesis =>
      rw [List.flatten_cons, List.map_append]
      exact chainForm.follow.append (inductionHypothesis.skip _)

/-- The declarations of a block stand one behind the other. -/
theorem BlockForm.follow
    {tokens : List Token}
    {declarations : List Declaration}
    (form : BlockForm tokens declarations) :
    Follow tokens (declarations.map Declaration.span) := by
  induction form with
  | nil =>
      exact .nil []
  | last declarationForm =>
      exact .single declarationForm.bounds
  | semicolon _ _ inductionHypothesis =>
      exact inductionHypothesis.skip _
  | cons declarationForm _ _ inductionHypothesis =>
      exact (Follow.single declarationForm.bounds).append (inductionHypothesis.skip _)

/-- The selectors of a rule follow one another, and its declarations follow them. -/
theorem RuleForm.follow
    {tokens : List Token}
    {rule : Rule}
    (form : RuleForm tokens rule) :
    Follow tokens rule.partSpans := by
  cases form with
  | @intro group block first opening closing _ _ groupForm _ _ blockForm _ =>
      have blockFollow := (blockForm.follow.append (.nil [closing])).skip opening
      rw [List.append_nil] at blockFollow
      exact groupForm.follow.append blockFollow

/-- The rules of a sheet follow one another. -/
theorem RulesForm.follow
    {tokens : List Token}
    {rules : List Rule}
    (form : RulesForm tokens rules) :
    Follow tokens (rules.map Rule.span) := by
  induction form with
  | nil =>
      exact .nil []
  | cons ruleForm _ inductionHypothesis =>
      exact (Follow.single ruleForm.bounds).append inductionHypothesis

end Grammar

end QtSheet
