import Mathlib.Data.List.Forall2
import QtSheet.Proofs.Reading
import QtSheet.Proofs.Unplaced

namespace QtSheet

/-!
# Likeness of tokens

A reading looks at the kinds of tokens, at the texts of those that are not
combinators, and at whether a name follows directly on its mark. It looks at no
token behind the closing brace in front of which it stops. Under a likeness
that respects this, the readings of like tokens are like each other: they give
the same values up to places, or get stuck for the same reason.

The likeness of two lists may end at two closing braces, with something else
behind each of them.
-/

/-- No block opens at the front of the tokens. -/
def NoBlock (tokens : List Token) : Prop :=
  ∀ token ∈ tokens.head?, token.kind ≠ .openBrace

/-- Where no block opens, a rule has none and ends. -/
theorem RuleReading.readBlock_of_noBlock
    {tokens : List Token}
    (noBlock : NoBlock tokens)
    (first : Token)
    (chains? : Option (List Chain))
    (faults : List Fault) :
    readBlock first chains? faults tokens = ⟨none, faults, tokens⟩ := by
  cases tokens with
  | nil =>
      rfl
  | cons token rest =>
      rw [readBlock, if_neg (noBlock token rfl)]

/-- When nothing is left out of the comparison, no block opens in it. -/
theorem noBlock_of_none
    {here there : List Token}
    (isBehind : none = some (here, there)) :
    NoBlock here ∧ NoBlock there := by
  contradiction

/-- A relation between tokens that no reading tells apart. -/
structure Likeness where
  related : Token → Token → Prop
  /-- What stands behind the last closing braces and is not compared, if anything. -/
  behind? : Option (List Token × List Token)
  kind :
    ∀ {here there}, related here there → here.kind = there.kind
  text :
    ∀ {here there}, related here there → here.kind ≠ .combinator → here.text = there.text
  combinator :
    ∀ {here there}, related here there → here.combinator? = there.combinator?
  touch :
    ∀ {here there next follower},
      related here there →
      related next follower →
      (next.start = here.stop ↔ follower.start = there.stop)
  noBlock :
    ∀ {here there}, behind? = some (here, there) → NoBlock here ∧ NoBlock there

namespace Likeness

variable (likeness : Likeness)

/-- Lists of like tokens, up to the end or up to the last closing brace that is compared. -/
inductive Alike : List Token → List Token → Prop where
  | nil :
      likeness.behind? = none →
      Alike [] []
  | close
      {brace other : Token}
      {here there : List Token} :
      likeness.behind? = some (here, there) →
      likeness.related brace other →
      brace.kind = .closeBrace →
      Alike (brace :: here) (other :: there)
  | cons
      {token other : Token}
      {here there : List Token} :
      likeness.related token other →
      Alike here there →
      Alike (token :: here) (other :: there)

/-- What may be left after a closing brace: like tokens, or what is not compared. -/
def Passed (here there : List Token) : Prop :=
  likeness.Alike here there ∨ likeness.behind? = some (here, there)

/-- Like tokens to blame. The end is to blame only when the lists are compared up to it. -/
inductive Blamed : Option Token → Option Token → Prop where
  | token
      {here there : Token} :
      likeness.related here there →
      Blamed (some here) (some there)
  | atEnd :
      likeness.behind? = none →
      Blamed none none

/-- The same fault at like tokens. -/
structure FaultAlike (here there : Fault) : Prop where
  reason : here.reason = there.reason
  blamed : likeness.Blamed here.token? there.token?

/-- Readings with the same outcome up to places, and with like tokens left. -/
inductive ReadAlike (unplaced : α → β) : Reading α → Reading α → Prop where
  | done
      {value other : α}
      {here there : List Token} :
      unplaced value = unplaced other →
      likeness.Alike here there →
      ReadAlike unplaced (.done value here) (.done other there)
  | stuck
      {reason : Reason}
      {here there : List Token} :
      likeness.Alike here there →
      ReadAlike unplaced (.stuck reason here) (.stuck reason there)

variable {likeness}

/-- Like tokens are the same up to places, combinators apart. -/
theorem unplaced_eq
    {here there : Token}
    (related : likeness.related here there)
    (noCombinator : here.kind ≠ .combinator) :
    here.unplaced = there.unplaced := by
  simp only [Token.unplaced, likeness.kind related, likeness.text related noCombinator]

/-- A combinator that is written out is its own symbol. -/
private theorem symbol_ofText
    {text : String}
    (noDescendant : Combinator.ofText text ≠ .descendant) :
    text = (Combinator.ofText text).symbol := by
  revert noDescendant
  fun_cases Combinator.ofText text with
  | case1 isChild =>
      exact fun _ => isChild
  | case2 _ isAdjacent =>
      exact fun _ => isAdjacent
  | case3 _ _ isGeneral =>
      exact fun _ => isGeneral
  | case4 =>
      exact fun noDescendant => absurd rfl noDescendant

/-- Like tokens are described in the same way. -/
theorem describe_eq
    {here there : Token}
    (related : likeness.related here there) :
    here.describe = there.describe := by
  have sameKind := likeness.kind related
  have sameCombinator := likeness.combinator related
  unfold Token.describe
  rw [sameKind, sameCombinator]
  by_cases isEnd : there.kind = .endOfInput
  · rw [if_pos isEnd, if_pos isEnd]
  · rw [if_neg isEnd, if_neg isEnd]
    by_cases isDescendant : there.combinator? = some .descendant
    · rw [if_pos isDescendant, if_pos isDescendant]
    · rw [if_neg isDescendant, if_neg isDescendant]
      by_cases isCombinator : there.kind = .combinator
      · simp only [Token.combinator?, sameKind, isCombinator, ↓reduceIte, Option.some.injEq]
          at sameCombinator isDescendant
        have hereSymbol : here.text = (Combinator.ofText here.text).symbol := by
          apply symbol_ofText
          rw [sameCombinator]
          exact isDescendant
        rw [hereSymbol, sameCombinator, ← symbol_ofText isDescendant]
      · rw [likeness.text related (sameKind ▸ isCombinator)]

/-- Like faults are reported in the same words, when the ends of the lists are. -/
theorem report_diagnostic
    {here there : Fault}
    {last otherLast : Token}
    (alike : likeness.FaultAlike here there)
    (sameEnd : last.describe = otherLast.describe) :
    (here.diagnostic last).report = (there.diagnostic otherLast).report := by
  obtain ⟨reason, token?⟩ := here
  obtain ⟨otherReason, otherToken?⟩ := there
  obtain ⟨sameReason, blamed⟩ := alike
  obtain rfl : reason = otherReason := sameReason
  have sameBlamed : (token?.getD last).describe = (otherToken?.getD otherLast).describe := by
    cases blamed with
    | token related =>
        exact describe_eq related
    | atEnd _ =>
        exact sameEnd
  simp only [Fault.diagnostic, Fault.blamed, Diagnostic.ofToken, Diagnostic.report, sameBlamed]

namespace Alike

/-- Lists of like tokens are alike when they are compared up to their ends. -/
theorem of_forall₂
    {here there : List Token}
    (noneBehind : likeness.behind? = none)
    (allRelated : List.Forall₂ likeness.related here there) :
    likeness.Alike here there := by
  induction allRelated with
  | nil =>
      exact .nil noneBehind
  | cons related _ inductionHypothesis =>
      exact .cons related inductionHypothesis

/-- Like lists are both empty, or they begin with like tokens. -/
theorem uncons
    {here there : List Token}
    (alike : likeness.Alike here there) :
    (here = [] ∧ there = [] ∧ likeness.behind? = none) ∨
      ∃ token rest other others,
        here = token :: rest ∧ there = other :: others ∧
          likeness.related token other ∧
          likeness.Passed rest others ∧
          (token.kind ≠ .closeBrace → likeness.Alike rest others) := by
  cases alike with
  | nil noneBehind =>
      exact .inl ⟨rfl, rfl, noneBehind⟩
  | close behind related isClose =>
      exact .inr ⟨_, _, _, _, rfl, rfl, related, .inr behind, fun open_ => absurd isClose open_⟩
  | cons related alike =>
      exact .inr ⟨_, _, _, _, rfl, rfl, related, .inl alike, fun _ => alike⟩

/-- The first tokens of like lists are to blame alike. -/
theorem blamed
    {here there : List Token}
    (alike : likeness.Alike here there) :
    likeness.Blamed here.head? there.head? := by
  cases alike with
  | nil noneBehind =>
      exact .atEnd noneBehind
  | close _ related _ =>
      exact .token related
  | cons related _ =>
      exact .token related

end Alike

namespace ReadAlike

variable {unplaced : α → γ} {otherUnplaced : β → δ}

/-- Steps that are alike one after another are alike. -/
theorem andThen
    {here there : Reading α}
    {hereNext thereNext : α → List Token → Reading β}
    (alike : likeness.ReadAlike unplaced here there)
    (nextAlike :
      ∀ value rest other others,
        here = .done value rest →
        unplaced value = unplaced other →
        likeness.Alike rest others →
        likeness.ReadAlike otherUnplaced (hereNext value rest) (thereNext other others)) :
    likeness.ReadAlike otherUnplaced (here.andThen hereNext) (there.andThen thereNext) := by
  cases alike with
  | done same rest =>
      exact nextAlike _ _ _ _ rfl same rest
  | stuck rest =>
      exact .stuck rest

/-- Values that are changed alike stay alike. -/
theorem map
    {here there : Reading α}
    {hereChange thereChange : α → β}
    (alike : likeness.ReadAlike unplaced here there)
    (changeAlike :
      ∀ value other, unplaced value = unplaced other →
        otherUnplaced (hereChange value) = otherUnplaced (thereChange other)) :
    likeness.ReadAlike otherUnplaced (here.map hereChange) (there.map thereChange) := by
  cases alike with
  | done same rest =>
      exact .done (changeAlike _ _ same) rest
  | stuck rest =>
      exact .stuck rest

end ReadAlike

/-- Expecting a token that is no closing brace and no combinator gives like readings. -/
theorem expect_alike
    {kind : Kind}
    {here there : List Token}
    (alike : likeness.Alike here there)
    (noClose : kind ≠ .closeBrace)
    (noCombinator : kind ≠ .combinator)
    (reason : Reason) :
    likeness.ReadAlike Token.unplaced (expect kind reason here) (expect kind reason there) := by
  rcases alike.uncons with
    ⟨rfl, rfl, _⟩ | ⟨token, rest, other, others, rfl, rfl, related, _, restAlike⟩
  · exact .stuck alike
  · simp only [expect, ← likeness.kind related]
    by_cases isKind : token.kind = kind
    · simp only [if_pos isKind]
      exact .done (unplaced_eq related (isKind ▸ noCombinator)) (restAlike (isKind ▸ noClose))
    · simp only [if_neg isKind]
      exact .stuck alike

end Likeness

end QtSheet
