import Mathlib.Data.List.Forall2
import QtSheet.Proofs.Reading

namespace QtSheet

/-!
# What readings look at

A reading looks at the kinds and places of tokens, at the combinators that they
stand for and at the word that makes a declaration important, and at no other
text. Whatever the other texts are, the same tokens are at fault
(`Outline.faults_resemble`).
-/

/-- Tokens that no reading tells apart. -/
structure Token.Resembles (here there : Token) : Prop where
  kind : here.kind = there.kind
  start : here.start = there.start
  length : here.length = there.length
  line : here.line = there.line
  column : here.column = there.column
  combinator : here.combinator? = there.combinator?
  importance : Declaration.isImportance here = Declaration.isImportance there

/-- Tokens that resemble each other end at the same offset. -/
theorem Token.Resembles.stop
    {here there : Token}
    (resembles : here.Resembles there) :
    here.stop = there.stop := by
  rw [Excerpt.stop, Excerpt.stop, resembles.start, resembles.length]

/-- Lists of tokens that no reading tells apart. -/
abbrev Resemble (here there : List Token) : Prop :=
  List.Forall₂ Token.Resembles here there

/-- Readings that both end or are both stuck, in front of tokens that no reading tells apart. -/
inductive Reading.Resemble (same : α → α → Prop) : Reading α → Reading α → Prop where
  | done
      {value other : α}
      {here there : List Token} :
      same value other →
      QtSheet.Resemble here there →
      Resemble same (.done value here) (.done other there)
  | stuck
      {reason otherReason : Reason}
      {here there : List Token} :
      QtSheet.Resemble here there →
      Resemble same (.stuck reason here) (.stuck otherReason there)

/-- All values are the same to a reading that does not look at them. -/
def Anything (_ _ : α) : Prop :=
  True

namespace Reading.Resemble

/-- Readings that resemble each other go on alike. -/
theorem andThen
    {same : α → α → Prop}
    {sameNext : β → β → Prop}
    {here there : Reading α}
    {hereNext thereNext : α → List Token → Reading β}
    (resemble : Resemble same here there)
    (next :
      ∀ value rest other others,
        here = .done value rest →
        same value other →
        QtSheet.Resemble rest others →
        Resemble sameNext (hereNext value rest) (thereNext other others)) :
    Resemble sameNext (here.andThen hereNext) (there.andThen thereNext) := by
  cases resemble with
  | done isSame rest =>
      exact next _ _ _ _ rfl isSame rest
  | stuck rest =>
      exact .stuck rest

/-- Changing the values of readings does not change where they end. -/
theorem map
    {same : α → α → Prop}
    {sameChanged : β → β → Prop}
    {here there : Reading α}
    {hereChange thereChange : α → β}
    (resemble : Resemble same here there)
    (changed :
      ∀ value other, same value other → sameChanged (hereChange value) (thereChange other)) :
    Resemble sameChanged (here.map hereChange) (there.map thereChange) := by
  cases resemble with
  | done isSame rest =>
      exact .done (changed _ _ isSame) rest
  | stuck rest =>
      exact .stuck rest

end Reading.Resemble

/-- A token is expected alike in front of tokens that resemble each other. -/
theorem expect_resemble
    {here there : List Token}
    (resemble : Resemble here there)
    (kind : Kind)
    (reason otherReason : Reason) :
    Reading.Resemble Anything (expect kind reason here) (expect kind otherReason there) := by
  cases resemble with
  | nil =>
      exact .stuck .nil
  | cons first rest =>
      simp only [expect, first.kind]
      split
      · exact .done trivial rest
      · exact .stuck (.cons first rest)

namespace AttributeTest

/-- The end of an attribute test is read alike. -/
theorem readEnd_resemble
    {here there : List Token}
    (resemble : Resemble here there)
    (test other : AttributeTest) :
    Reading.Resemble Anything (test.readEnd here) (other.readEnd there) :=
  (expect_resemble resemble _ _ _).map fun _ _ _ => trivial

/-- Tokens that resemble each other are both values of an attribute test, or neither is. -/
theorem valueOf?_isSome
    {here there : Token}
    (resembles : here.Resembles there) :
    (valueOf? here).isSome = (valueOf? there).isSome := by
  rw [valueOf?, valueOf?, resembles.kind]
  split <;> rfl

theorem readValue_resemble
    {here there : List Token}
    (resemble : Resemble here there)
    (name operator otherName otherOperator : String) :
    Reading.Resemble Anything (readValue name operator here)
      (readValue otherName otherOperator there) := by
  cases resemble with
  | nil =>
      exact .stuck .nil
  | cons first rest =>
      have sameValue := valueOf?_isSome first
      rw [readValue, readValue]
      split <;> split <;> simp_all
      · exact readEnd_resemble rest _ _
      · exact .stuck (.cons first rest)

theorem read_resemble
    {here there : List Token}
    (resemble : Resemble here there) :
    Reading.Resemble Anything (read here) (read there) := by
  refine (expect_resemble resemble _ _ _).andThen ?_
  intro name rest other others _ _ restResemble
  cases restResemble with
  | nil =>
      exact readEnd_resemble .nil _ _
  | cons first behind =>
      simp only [readOperator, first.kind]
      split
      · exact readValue_resemble behind _ _ _ _
      · exact readEnd_resemble (.cons first behind) _ _

end AttributeTest

namespace Selector

/-- Selectors with an id or without one both, and with a sub-control or without one both. -/
structure SameSlots (here there : Selector) : Prop where
  id : here.id?.isSome = there.id?.isSome
  subControl : here.subControl?.isSome = there.subControl?.isSome

/-- Adding a class does not change which other slots of a selector are filled. -/
theorem SameSlots.addClass
    {here there : Selector}
    (same : here.SameSlots there)
    (name other : String) :
    (here.addClass name).SameSlots (there.addClass other) := by
  unfold Selector.addClass
  split <;> split <;> exact ⟨same.id, same.subControl⟩

theorem readName_resemble
    {here there : List Token}
    {mark other : Token}
    (resemble : Resemble here there)
    (marks : mark.Resembles other)
    (qualifier : Qualifier) :
    Reading.Resemble Anything (readName qualifier mark here) (readName qualifier other there) := by
  cases resemble with
  | nil =>
      exact .stuck .nil
  | cons first rest =>
      simp only [readName, first.kind, first.start, marks.stop]
      split
      · exact .done trivial rest
      · exact .stuck (.cons first rest)

/-- Selectors with the same slots, whatever the last tokens are. -/
def SameSlotsFst (here there : Selector × Token) : Prop :=
  here.1.SameSlots there.1

theorem readPseudoState_resemble
    {selector other : Selector}
    {colon otherColon : Token}
    {here there : List Token}
    (same : selector.SameSlots other)
    (colons : colon.Resembles otherColon)
    (resemble : Resemble here there) :
    Reading.Resemble SameSlotsFst (selector.readPseudoState colon here)
      (other.readPseudoState otherColon there) := by
  cases resemble with
  | nil =>
      exact .stuck .nil
  | cons first rest =>
      simp only [readPseudoState, first.kind, first.start, colons.stop]
      split
      · exact (readName_resemble rest first _).map fun _ _ _ => ⟨same.id, same.subControl⟩
      · exact (readName_resemble (.cons first rest) colons _).map fun _ _ _ =>
          ⟨same.id, same.subControl⟩

theorem readQualifier_resemble
    {selector other : Selector}
    {mark otherMark : Token}
    {here there : List Token}
    (same : selector.SameSlots other)
    (marks : mark.Resembles otherMark)
    (resemble : Resemble here there) :
    Reading.Resemble SameSlotsFst (selector.readQualifier mark here)
      (other.readQualifier otherMark there) := by
  have sameId := same.id
  have sameControl := same.subControl
  unfold readQualifier
  rw [← marks.kind]
  split
  · split <;> split <;> simp_all
    · exact .stuck (.cons marks resemble)
    · exact .done ⟨rfl, sameControl⟩ resemble
  · exact (readName_resemble resemble marks _).map fun _ _ _ => same.addClass _ _
  · exact readPseudoState_resemble same marks resemble
  · split <;> split <;> simp_all
    · exact .stuck (.cons marks resemble)
    · exact (readName_resemble resemble marks _).map fun _ _ _ => ⟨sameId, rfl⟩
  · exact (AttributeTest.read_resemble resemble).map fun _ _ _ => ⟨sameId, sameControl⟩

/-- The qualifiers of a selector are read alike. -/
theorem readQualifiers_resemble
    {selector other : Selector}
    {last otherLast : Token}
    {here there : List Token}
    (same : selector.SameSlots other)
    (resemble : Resemble here there) :
    Reading.Resemble Anything (selector.readQualifiers last here)
      (other.readQualifiers otherLast there) := by
  induction size : here.length using Nat.strongRecOn
    generalizing selector other last otherLast here there with
  | ind size inductionHypothesis =>
      cases resemble with
      | nil =>
          rw [readQualifiers, readQualifiers]
          exact .done trivial .nil
      | cons first rest =>
          rw [readQualifiers_cons, readQualifiers_cons, first.kind]
          split
          · refine (readQualifier_resemble same first rest).andThen ?_
            intro result left otherResult otherLeft read sameResult leftResemble
            have shorter := (suffix_of_readQualifier read).length_le
            exact inductionHypothesis left.length (by simp only [← size, List.length_cons]; omega)
              sameResult leftResemble rfl
          · exact .done trivial (.cons first rest)

theorem read_resemble
    {here there : List Token}
    (resemble : Resemble here there) :
    Reading.Resemble Anything (read here) (read there) := by
  cases resemble with
  | nil =>
      exact .stuck .nil
  | cons first rest =>
      simp only [read, first.kind]
      split
      · exact readQualifiers_resemble ⟨rfl, rfl⟩ rest
      · split
        · exact readQualifiers_resemble ⟨rfl, rfl⟩ (.cons first rest)
        · exact .stuck (.cons first rest)

end Selector

namespace Chain

theorem next?_resemble
    {here there : List Token}
    (resemble : Resemble here there) :
    (next? here = none ∧ next? there = none) ∨
      ∃ combinator rest others,
        next? here = some (combinator, rest) ∧ next? there = some (combinator, others) ∧
          Resemble rest others := by
  cases resemble with
  | nil =>
      exact .inl ⟨rfl, rfl⟩
  | @cons token other _ _ first rest =>
      simp only [next?, first.combinator, first.kind]
      cases other.combinator? with
      | some combinator =>
          exact .inr ⟨_, _, _, rfl, rfl, rest⟩
      | none =>
          dsimp only
          split
          · exact .inr ⟨_, _, _, rfl, rfl, .cons first rest⟩
          · exact .inl ⟨rfl, rfl⟩

theorem readAfter_resemble
    {here there : List Token}
    (resemble : Resemble here there)
    (selector other : Selector) :
    Reading.Resemble Anything (readAfter selector here) (readAfter other there) := by
  induction size : here.length using Nat.strongRecOn
    generalizing selector other here there with
  | ind size inductionHypothesis =>
      rw [readAfter_eq, readAfter_eq]
      rcases next?_resemble resemble with
        ⟨hereNone, thereNone⟩ | ⟨combinator, rest, others, hereSome, thereSome, restResemble⟩
      · rw [hereNone, thereNone]
        exact .done trivial resemble
      · rw [hereSome, thereSome]
        refine (Selector.read_resemble restResemble).andThen ?_
        intro next left otherNext otherLeft read _ leftResemble
        have shorter := Selector.length_of_read read
        have within := (suffix_of_next? hereSome).length_le
        exact (inductionHypothesis left.length (by omega) leftResemble next otherNext rfl).map
          fun _ _ _ => trivial

theorem read_resemble
    {here there : List Token}
    (resemble : Resemble here there) :
    Reading.Resemble Anything (read here) (read there) :=
  (Selector.read_resemble resemble).andThen fun _ _ _ _ _ _ rest => readAfter_resemble rest _ _

end Chain

theorem readChains_resemble
    {here there : List Token}
    (resemble : Resemble here there) :
    Reading.Resemble Anything (readChains here) (readChains there) := by
  induction size : here.length using Nat.strongRecOn generalizing here there with
  | ind size inductionHypothesis =>
      rw [readChains_eq, readChains_eq]
      refine (Chain.read_resemble resemble).andThen ?_
      intro chain rest otherChain others read _ restResemble
      have within := Chain.rest_read here
      rw [read] at within
      have shorter := within.length_le
      cases restResemble with
      | nil =>
          exact .stuck .nil
      | @cons token other left otherLeft first behind =>
          simp only [readChainsAfter, first.kind]
          split
          · simp only [Reading.rest_done, List.length_cons] at shorter
            exact (inductionHypothesis left.length (by omega) behind rfl).map fun _ _ _ => trivial
          · split
            · exact .done trivial (.cons first behind)
            · exact .stuck (.cons first behind)

/-- The values of a declaration are cut alike. -/
theorem cutValues_resemble
    {here there : List Token}
    (resemble : Resemble here there)
    (afterValue : Bool) :
    Resemble (cutValues afterValue here).1 (cutValues afterValue there).1 ∧
      Resemble (cutValues afterValue here).2 (cutValues afterValue there).2 := by
  induction resemble generalizing afterValue with
  | nil =>
      exact ⟨.nil, .nil⟩
  | cons first rest inductionHypothesis =>
      simp only [cutValues, first.kind]
      split
      · obtain ⟨values, left⟩ := inductionHypothesis _
        exact ⟨.cons first values, left⟩
      · exact ⟨.nil, .cons first rest⟩

/-- The last of tokens that no reading tells apart, if there are any. -/
theorem Resemble.getLast?
    {here there : List Token}
    (resemble : Resemble here there) :
    Option.Rel Token.Resembles here.getLast? there.getLast? := by
  induction resemble with
  | nil =>
      exact .none
  | cons first rest inductionHypothesis =>
      cases rest with
      | nil =>
          exact .some first
      | cons second rest =>
          rwa [List.getLast?_cons_cons, List.getLast?_cons_cons]

namespace Declaration

theorem readValues_resemble
    {here there : List Token}
    (resemble : Resemble here there)
    (property other : String) :
    Reading.Resemble Anything (readValues property here) (readValues other there) := by
  obtain ⟨values, left⟩ := cutValues_resemble resemble false
  have last := values.getLast?
  unfold readValues
  dsimp only
  generalize (cutValues false here).1.getLast? = hereLast? at last
  generalize (cutValues false there).1.getLast? = thereLast? at last
  cases last with
  | none =>
      exact .stuck left
  | some lasts =>
      simp only [lasts.kind]
      split
      · exact .done trivial left
      · exact .stuck left

theorem readImportance_resemble
    {here there : List Token}
    (resemble : Resemble here there)
    (last other : Token) :
    Reading.Resemble Anything (readImportance last here) (readImportance other there) := by
  cases resemble with
  | nil =>
      exact .done trivial .nil
  | cons mark rest =>
      simp only [readImportance, mark.kind]
      split
      · cases rest with
        | nil =>
            exact .stuck .nil
        | cons word behind =>
            simp only [readImportanceWord, word.importance]
            split
            · exact .done trivial behind
            · exact .stuck (.cons word behind)
      · exact .done trivial (.cons mark rest)

theorem readEnd_resemble
    {here there : List Token}
    (resemble : Resemble here there)
    (property other : String) :
    Reading.Resemble Anything (readEnd property here) (readEnd other there) := by
  cases resemble with
  | nil =>
      exact .done trivial .nil
  | cons first rest =>
      simp only [readEnd, first.kind]
      split
      · exact .done trivial rest
      · split
        · exact .done trivial (.cons first rest)
        · exact .stuck (.cons first rest)

theorem read_resemble
    {here there : List Token}
    (resemble : Resemble here there)
    (name other : Token) :
    Reading.Resemble Anything (read name here) (read other there) := by
  refine (expect_resemble resemble _ _ _).andThen fun _ _ _ _ _ _ rest => ?_
  refine (readValues_resemble rest _ _).andThen fun _ _ _ _ _ _ rest => ?_
  refine (readImportance_resemble rest _ _).andThen fun _ _ _ _ _ _ rest => ?_
  exact (readEnd_resemble rest _ _).map fun _ _ _ => trivial

end Declaration

/-- A declaration is skipped alike. -/
theorem skipDeclaration_resemble
    {here there : List Token}
    (resemble : Resemble here there) :
    Resemble (skipDeclaration here) (skipDeclaration there) := by
  induction resemble with
  | nil =>
      exact .nil
  | cons first rest inductionHypothesis =>
      simp only [skipDeclaration, first.kind]
      split
      · exact .cons first rest
      · split
        · exact rest
        · exact inductionHypothesis

/-- A selector is skipped alike. -/
theorem skipSelector_resemble
    {here there : List Token}
    (resemble : Resemble here there) :
    Resemble (skipSelector here) (skipSelector there) := by
  induction resemble with
  | nil =>
      exact .nil
  | cons first rest inductionHypothesis =>
      simp only [skipSelector, first.kind]
      split
      · exact .cons first rest
      · split
        · exact rest
        · exact inductionHypothesis

/-- Faults at tokens that no reading tells apart, or both at the end of the input. -/
def Fault.Resembles (here there : Fault) : Prop :=
  Option.Rel Token.Resembles here.token? there.token?

/-- Faults in front of tokens that no reading tells apart. -/
theorem Resemble.fault
    {here there : List Token}
    (resemble : Resemble here there)
    (reason other : Reason) :
    Fault.Resembles ⟨reason, here.head?⟩ ⟨other, there.head?⟩ := by
  cases resemble with
  | nil =>
      exact .none
  | cons first _ =>
      exact .some first

theorem Block.read_resemble
    {here there : List Token}
    (resemble : Resemble here there) :
    List.Forall₂ Fault.Resembles (read here).faults (read there).faults ∧
      Resemble (read here).rest (read there).rest := by
  induction size : here.length using Nat.strongRecOn generalizing here there with
  | ind size inductionHypothesis =>
      cases resemble with
      | nil =>
          rw [read]
          exact ⟨.cons .none .nil, .nil⟩
      | @cons token other rest others first behind =>
          rw [List.length_cons] at size
          rw [read_cons, read_cons, first.kind]
          split
          · exact ⟨.nil, behind⟩
          · split
            · exact inductionHypothesis rest.length (by omega) behind rfl
            · split
              · have reading := Declaration.read_resemble behind token other
                have within := (Declaration.rest_read token rest).length_le
                generalize Declaration.read token rest = hereReading at reading within ⊢
                generalize Declaration.read other others = thereReading at reading ⊢
                cases reading with
                | done _ left =>
                    rw [Reading.rest_done] at within
                    exact inductionHypothesis _ (by omega) left rfl
                | @stuck _ _ hereLeft _ left =>
                    rw [Reading.rest_stuck] at within
                    have skipped := (suffix_skipDeclaration hereLeft).length_le
                    obtain ⟨faults, rests⟩ :=
                      inductionHypothesis _ (by omega) (skipDeclaration_resemble left) rfl
                    exact ⟨.cons (left.fault _ _) faults, rests⟩
              · have skipped := (suffix_skipDeclaration rest).length_le
                obtain ⟨faults, rests⟩ :=
                  inductionHypothesis (skipDeclaration rest).length (by omega)
                    (skipDeclaration_resemble behind) rfl
                exact ⟨.cons (.some first) faults, rests⟩

namespace RuleReading

theorem readBlock_resemble
    {here there : List Token}
    {faults otherFaults : List Fault}
    (resemble : Resemble here there)
    (faultsResemble : List.Forall₂ Fault.Resembles faults otherFaults)
    (first other : Token)
    (chains? otherChains? : Option (List Chain)) :
    List.Forall₂ Fault.Resembles (readBlock first chains? faults here).faults
        (readBlock other otherChains? otherFaults there).faults ∧
      Resemble (readBlock first chains? faults here).rest
        (readBlock other otherChains? otherFaults there).rest := by
  cases resemble with
  | nil =>
      exact ⟨faultsResemble, .nil⟩
  | cons brace rest =>
      simp only [readBlock, brace.kind]
      split
      · obtain ⟨inside, behind⟩ := Block.read_resemble rest
        exact ⟨List.rel_append faultsResemble inside, behind⟩
      · exact ⟨faultsResemble, .cons brace rest⟩

theorem read_resemble
    {first other : Token}
    {here there : List Token}
    (resemble : Resemble (first :: here) (other :: there)) :
    List.Forall₂ Fault.Resembles (read first here).faults (read other there).faults ∧
      Resemble (read first here).rest (read other there).rest := by
  have reading := readChains_resemble resemble
  unfold read
  generalize readChains (first :: here) = hereReading at reading ⊢
  generalize readChains (other :: there) = thereReading at reading ⊢
  cases reading with
  | done _ left =>
      exact readBlock_resemble left .nil _ _ _ _
  | stuck left =>
      exact readBlock_resemble (skipSelector_resemble left) (.cons (left.fault _ _) .nil) _ _ _ _

end RuleReading

/-- Tokens that no reading tells apart are at fault together. -/
theorem Outline.faults_resemble
    {here there : List Token}
    (resemble : Resemble here there) :
    List.Forall₂ Fault.Resembles (read here).faults (read there).faults := by
  -- A rule takes any number of tokens, so the induction is on how many are left.
  induction size : here.length using Nat.strongRecOn generalizing here there with
  | ind size inductionHypothesis =>
      cases resemble with
      | nil =>
          rw [read]
          exact .nil
      | @cons token other rest others first behind =>
          have shorter := RuleReading.length_read token rest
          rw [read, read, first.kind]
          split
          · exact .cons (.some first)
              (inductionHypothesis rest.length (by simp [← size]) behind rfl)
          · obtain ⟨faults, rests⟩ := RuleReading.read_resemble (.cons first behind)
            exact List.rel_append faults
              (inductionHypothesis _ (by rw [← size]; exact shorter) rests rfl)

end QtSheet
