import Mathlib.Algebra.GroupWithZero.Nat
import QtSheet.Proofs.Value.Item
import QtSheet.Proofs.Value.TokenTerms
import QtSheet.Value.Match

namespace QtSheet

/-!
# Values of several tokens

No item of the grammar goes past the end of a token (`Item.after?_append`), so
the items of a value are those of its tokens, one token after another. A value
is a box, colors or a border when each of its tokens is one by itself, and then
the order of the tokens does not matter.
-/

namespace Value

/-- The terms behind the parenthesis that closes a call, from a closing parenthesis on. -/
def afterClosing? : Nat → List Term → Option (List Term)
  | 0, rest => some rest
  | nested + 1, rest => afterCall? nested rest

theorem afterCall?_close (nested : Nat) (rest : List Term) :
    afterCall? nested (.close :: rest) = afterClosing? nested rest := by
  cases nested <;> rfl

/-- A word inside a call is passed over. -/
theorem afterCall?_word
    {term : Term}
    (isWord : term.isWord = true)
    (nested : Nat)
    (rest : List Term) :
    afterCall? nested (term :: rest) = afterCall? nested rest := by
  cases term <;> first | rfl | contradiction

/-- The arguments of a color function end where its parenthesis is closed. -/
theorem afterCall?_of_afterArguments?
    {terms rest : List Term}
    (found : afterArguments? terms = some rest)
    (nested : Nat) :
    afterCall? nested terms = afterClosing? nested rest := by
  fun_induction afterArguments? terms with
  | case1 unit after _ inductionHypothesis =>
      rw [afterCall?_word rfl, afterCall?_word rfl]
      exact inductionHypothesis found
  | case3 unit after =>
      obtain rfl := Option.some.inj found
      rw [afterCall?_word rfl, afterCall?_close]
  | _ =>
      contradiction

/-- The arguments of a gradient end where its parenthesis is closed. -/
theorem afterCall?_of_afterGradient?
    {hasValue : Bool}
    {terms rest : List Term}
    (found : afterGradient? hasValue terms = some rest) :
    afterCall? 0 terms = some rest := by
  fun_induction afterGradient? hasValue terms with
  | case1 _ _ _ _ inductionHypothesis =>
      rw [afterCall?_word rfl]
      exact inductionHypothesis found
  | case3 _ _ inductionHypothesis =>
      rw [afterCall?_word rfl]
      exact inductionHypothesis found
  | case4 _ _ _ inductionHypothesis =>
      rw [afterCall?_word rfl]
      exact inductionHypothesis found
  | case6 _ after _ arguments inductionHypothesis =>
      exact (afterCall?_of_afterArguments? arguments 1).trans (inductionHypothesis found)
  | case7 _ _ inductionHypothesis =>
      rw [afterCall?_word rfl, afterCall?_word rfl, afterCall?_word rfl]
      exact inductionHypothesis found
  | case9 =>
      exact found
  | _ =>
      contradiction

namespace Item

/--
An item is a call up to the parenthesis that closes it, or one other term, and
it does not depend on what stands behind it.
-/
structure IsAligned (item : Item) : Prop where
  ofCall :
    ∀ {call : Term} {terms rest : List Term},
      call.isCall = true →
      item.after? (call :: terms) = some rest →
      afterCall? 0 terms = some rest
  ofOther :
    ∀ {term : Term} {terms rest : List Term},
      term.isCall = false →
      item.after? (term :: terms) = some rest →
      rest = terms
  noUrl : ∀ terms : List Term, item.after? (.url :: terms) = none
  frame :
    ∀ {own rest : List Term},
      item.after? (own ++ rest) = some rest →
      ∀ other, item.after? (own ++ other) = some other

end Item

/-- What a phrase takes does not depend on what stands behind it. -/
theorem Phrase.IsItem.frame
    {phrase : Phrase}
    {item : Item}
    (isItem : phrase.IsItem item)
    {own rest : List Term}
    (found : item.after? (own ++ rest) = some rest)
    (other : List Term) :
    item.after? (own ++ other) = some other := by
  obtain ⟨symbols, isMatch, taken, areAdmitted, whole⟩ := (isItem _ _).mpr found
  obtain rfl := List.append_cancel_right whole
  exact (isItem _ _).mp ⟨symbols, isMatch, own, areAdmitted, rfl⟩

/-- A color that begins with a call ends with the token of that call. -/
theorem color_isAligned : color.IsAligned where
  ofCall := by
    intro call terms rest isCall found
    cases call with
    | colorCall =>
        exact afterCall?_of_afterArguments? found 0
    | _ =>
        contradiction
  ofOther := by
    intro term terms rest notCall found
    cases term with
    | hexColor =>
        exact (Option.some.inj found).symm
    | name word =>
        change (if word ∈ Keyword.colors then some terms else none) = some rest at found
        exact (Option.some.inj (Option.ite_none_right_eq_some.mp found).2).symm
    | _ =>
        contradiction
  noUrl _ := rfl
  frame := Phrase.color_isItem.frame

/-- A brush that begins with a call ends with the token of that call. -/
theorem brush_isAligned : brush.IsAligned where
  ofCall := by
    intro call terms rest isCall found
    change afterBrush? (call :: terms) = some rest at found
    unfold afterBrush? at found
    split at found
    case h_1 word after isGradient =>
      obtain rfl := (List.cons.inj isGradient).2
      rw [afterCall?_word rfl, afterCall?_word rfl]
      exact afterCall?_of_afterGradient? found
    case h_2 word after isPalette =>
      obtain rfl := (List.cons.inj isPalette).2
      obtain ⟨_, same⟩ := Option.ite_none_right_eq_some.mp found
      rw [afterCall?_word rfl, afterCall?_close]
      exact same
    case h_3 =>
      exact color_isAligned.ofCall isCall found
  ofOther := by
    intro term terms rest notCall found
    change afterBrush? (term :: terms) = some rest at found
    unfold afterBrush? at found
    split at found
    case h_1 word after isGradient =>
      rw [(List.cons.inj isGradient).1] at notCall
      contradiction
    case h_2 word after isPalette =>
      rw [(List.cons.inj isPalette).1] at notCall
      contradiction
    case h_3 =>
      exact color_isAligned.ofOther notCall found
  noUrl _ := rfl
  frame := Phrase.brush_isItem.frame

/-- A part of a border that begins with a call ends with the token of that call. -/
theorem borderPart_isAligned : borderPart.IsAligned where
  ofCall := by
    intro call terms rest isCall found
    change afterBorderPart? (call :: terms) = some rest at found
    unfold afterBorderPart? at found
    split at found
    case h_1 unit after isNumeral =>
      rw [(List.cons.inj isNumeral).1] at isCall
      contradiction
    case h_2 word after isName =>
      rw [(List.cons.inj isName).1] at isCall
      contradiction
    case h_3 =>
      exact brush_isAligned.ofCall isCall found
  ofOther := by
    intro term terms rest notCall found
    change afterBorderPart? (term :: terms) = some rest at found
    unfold afterBorderPart? at found
    split at found
    case h_1 unit after isNumeral =>
      rw [(List.cons.inj isNumeral).2]
      exact (Option.some.inj (Option.ite_none_right_eq_some.mp found).2).symm
    case h_2 word after isName =>
      rw [(List.cons.inj isName).2]
      exact (Option.some.inj (Option.ite_none_right_eq_some.mp found).2).symm
    case h_3 =>
      exact brush_isAligned.ofOther notCall found
  noUrl _ := rfl
  frame := Phrase.borderPart_isItem.frame

/-- No length begins with a call. -/
theorem length_isAligned : length.IsAligned where
  ofCall := by
    intro call terms rest isCall found
    cases call <;> contradiction
  ofOther := by
    intro term terms rest notCall found
    cases term with
    | numeral unit =>
        change (if unit.isLength then some terms else none) = some rest at found
        exact (Option.some.inj (Option.ite_none_right_eq_some.mp found).2).symm
    | _ =>
        contradiction
  noUrl _ := rfl
  frame := Phrase.length_isItem.frame

/-- Tokens that pass a test of their terms have terms, and these pass it. -/
theorem exists_terms_of_hasTerms
    {test : List Term → Bool}
    {tokens : List Token}
    (passes : hasTerms test tokens = true) :
    ∃ terms, terms? (Token.joined tokens).toList = some terms ∧ test terms = true := by
  rw [hasTerms] at passes
  cases areTerms : terms? (Token.joined tokens).toList with
  | none =>
      simp [areTerms] at passes
  | some terms =>
      exact ⟨terms, rfl, by simpa [areTerms] using passes⟩

/-- Every token has a term. -/
theorem TokenTerms.ne_nil
    {kind : Kind}
    {terms : List Term}
    (tokenTerms : TokenTerms kind terms) :
    terms ≠ [] := by
  cases tokenTerms <;> simp

namespace Item

variable {item : Item}

/--
An item at the front of a token takes all of its terms, or it leaves the numeral
behind a name.
-/
theorem IsAligned.exists_left
    (isAligned : item.IsAligned)
    {kind : Kind}
    {terms behind rest : List Term}
    (tokenTerms : TokenTerms kind terms)
    (found : item.after? (terms ++ behind) = some rest) :
    ∃ own left,
      terms = own ++ left ∧
        rest = left ++ behind ∧
        (left = [] ∨ ∃ word unit, own = [.name word] ∧ left = [.numeral unit]) := by
  cases tokenTerms with
  | @spliced word unit =>
      exact ⟨[.name word], [.numeral unit], rfl, isAligned.ofOther rfl found,
        .inr ⟨word, unit, rfl, rfl⟩⟩
  | @call _ call terms _ isCall closes =>
      have isClosed : afterCall? 0 (terms ++ behind) = some rest := isAligned.ofCall isCall found
      rcases closes behind with atEnd | notClosed
      · rw [isClosed] at atEnd
        exact ⟨call :: terms, [], by simp, Option.some.inj atEnd, .inl rfl⟩
      · rw [isClosed] at notClosed
        contradiction
  | url =>
      rw [List.cons_append, isAligned.noUrl] at found
      contradiction
  | _ =>
      exact ⟨_, [], (List.append_nil _).symm, isAligned.ofOther rfl found, .inl rfl⟩

/-- No item goes past the end of a token. -/
theorem IsAligned.after?_append
    (isAligned : item.IsAligned)
    {kind : Kind}
    {terms : List Term}
    (tokenTerms : TokenTerms kind terms)
    (behind : List Term) :
    item.after? (terms ++ behind) = (item.after? terms).map (· ++ behind) := by
  cases found : item.after? (terms ++ behind) with
  | some rest =>
      obtain ⟨own, left, rfl, rfl, _⟩ := isAligned.exists_left tokenTerms found
      rw [List.append_assoc] at found
      rw [isAligned.frame found left]
      rfl
  | none =>
      cases isItem : item.after? terms with
      | none =>
          rfl
      | some rest =>
          rw [← List.append_nil terms] at isItem
          obtain ⟨own, left, rfl, rfl, _⟩ := isAligned.exists_left tokenTerms isItem
          rw [List.append_assoc] at isItem
          rw [List.append_assoc, isAligned.frame isItem] at found
          contradiction

/-- The items of a text are its first one and those of what follows it. -/
theorem count?_cons
    (item : Item)
    {terms : List Term}
    (notEmpty : terms ≠ []) :
    item.count? terms = (item.after? terms).bind fun rest => (item.count? rest).map (· + 1) := by
  cases terms with
  | nil =>
      contradiction
  | cons term rest =>
      rw [count?]
      split <;> simp_all

theorem count?_nil (item : Item) : item.count? [] = some 0 := by
  rw [count?]

/-- The items of the terms of a token and of terms behind it. -/
theorem IsAligned.count?_append
    (isAligned : item.IsAligned)
    {kind : Kind}
    {terms : List Term}
    (tokenTerms : TokenTerms kind terms)
    (behind : List Term) :
    item.count? (terms ++ behind) =
      (item.count? terms).bind fun count => (item.count? behind).map (count + ·) := by
  have notEmpty := tokenTerms.ne_nil
  rw [item.count?_cons notEmpty,
    item.count?_cons (List.append_ne_nil_of_left_ne_nil notEmpty behind),
    isAligned.after?_append tokenTerms]
  cases found : item.after? terms with
  | none =>
      rfl
  | some left =>
      -- What the item leaves is nothing or the numeral of another token.
      have isRest :
          item.count? (left ++ behind) =
            (item.count? left).bind fun count => (item.count? behind).map (count + ·) := by
        rw [← List.append_nil terms] at found
        obtain ⟨own, rest, _, rfl, rfl | ⟨word, unit, _, rfl⟩⟩ :=
          isAligned.exists_left tokenTerms found
        · cases isCount : item.count? behind <;> simp [count?_nil, isCount]
        · have shorter := item.shorter found
          exact isAligned.count?_append .numeral behind
      simp only [Option.map_some, Option.bind_some, isRest]
      cases item.count? left with
      | none =>
          rfl
      | some count =>
          cases item.count? behind with
          | none =>
              rfl
          | some others =>
              simp [Nat.add_right_comm]
termination_by terms.length
decreasing_by simpa using shorter

/-- Terms that are one item are counted as one. -/
theorem count?_of_isWhole
    {terms : List Term}
    (isWhole : item.isWhole terms = true) :
    item.count? terms = some 1 := by
  have found : item.after? terms = some [] := of_decide_eq_true isWhole
  have notEmpty : terms ≠ [] := by
    rintro rfl
    exact absurd (item.shorter found) (by simp)
  rw [item.count?_cons notEmpty, found, Option.bind_some, count?_nil]
  rfl

/-- There is an item in terms that are items. -/
theorem one_le_of_count?
    {terms : List Term}
    {count : Nat}
    (notEmpty : terms ≠ [])
    (isCount : item.count? terms = some count) :
    1 ≤ count := by
  rw [item.count?_cons notEmpty] at isCount
  obtain ⟨rest, _, isRest⟩ := Option.bind_eq_some_iff.mp isCount
  obtain ⟨others, _, rfl⟩ := Option.map_eq_some_iff.mp isRest
  exact Nat.le_add_left 1 others

/-- The number of items that a token is made of. -/
def countOf? (item : Item) (token : Token) : Option Nat :=
  (terms? token.text.toList).bind item.count?

/-- A token that is counted holds at least one item. -/
theorem one_le_of_countOf?
    {token : Token}
    {count : Nat}
    (isValue : IsValue token)
    (isCount : item.countOf? token = some count) :
    1 ≤ count := by
  obtain ⟨terms, areTerms, isCount⟩ := Option.bind_eq_some_iff.mp isCount
  exact one_le_of_count? (isValue.tokenTerms areTerms).ne_nil isCount

/-- The items of a value are those of its tokens. -/
theorem IsAligned.count?_joined
    (isAligned : item.IsAligned)
    {tokens : List Token}
    (areValues : ∀ token ∈ tokens, IsValue token) :
    (terms? (Token.joined tokens).toList).bind item.count? =
      (tokens.mapM item.countOf?).map List.sum := by
  rw [terms?_joined areValues]
  induction tokens with
  | nil =>
      exact item.count?_nil
  | cons first rest inductionHypothesis =>
      obtain ⟨isValue, restValues⟩ := List.forall_mem_cons.mp areValues
      have areRest := inductionHypothesis restValues
      rw [List.mapM_cons, List.mapM_cons, countOf?]
      cases areTerms : terms? first.text.toList with
      | none =>
          rfl
      | some terms =>
          cases areParts : rest.mapM fun token => terms? token.text.toList with
          | none =>
              have noCounts : rest.mapM item.countOf? = none := by
                simpa [areParts] using areRest.symm
              cases isCount : item.count? terms <;> simp [isCount, noCounts]
          | some parts =>
              have isRest :
                  item.count? parts.flatten = (rest.mapM item.countOf?).map List.sum := by
                simpa [areParts] using areRest
              have isWhole := isAligned.count?_append (isValue.tokenTerms areTerms) parts.flatten
              rw [isRest] at isWhole
              cases isCount : item.count? terms <;> cases areCounts : rest.mapM item.countOf? <;>
                simp [isCount, areCounts, isWhole]

/-- Items of which there are never two in a token are counted by tokens. -/
theorem IsAligned.countOf?_eq
    (isAligned : item.IsAligned)
    (isSingle : ∀ word unit, item.count? [.name word, .numeral unit] = none)
    {token : Token}
    (isValue : IsValue token) :
    item.countOf? token = if hasTerms item.isWhole [token] then some 1 else none := by
  rw [countOf?, hasTerms, toList_joined_singleton]
  cases areTerms : terms? token.text.toList with
  | none =>
      rfl
  | some terms =>
      change item.count? terms = if item.isWhole terms then some 1 else none
      by_cases isWhole : item.isWhole terms
      · rw [if_pos isWhole]
        exact count?_of_isWhole isWhole
      · rw [if_neg isWhole]
        have tokenTerms := isValue.tokenTerms areTerms
        rw [item.count?_cons tokenTerms.ne_nil]
        cases found : item.after? terms with
        | none =>
            rfl
        | some left =>
            rw [← List.append_nil terms] at found
            obtain ⟨own, rest, isTerms, rfl, rfl | ⟨word, unit, rfl, rfl⟩⟩ :=
              isAligned.exists_left tokenTerms found
            · rw [List.append_nil] at found
              exact absurd (decide_eq_true found) isWhole
            · have isNone := isSingle word unit
              rw [item.count?_cons (by simp)] at isNone
              rw [List.append_nil, isTerms] at found
              rw [show [Term.name word, .numeral unit] = [.name word] ++ [.numeral unit] from rfl,
                found] at isNone
              exact isNone

/-- Items of which there are never two in a token are as many as the tokens. -/
theorem IsAligned.mapM_countOf?_eq
    (isAligned : item.IsAligned)
    (isSingle : ∀ word unit, item.count? [.name word, .numeral unit] = none)
    {tokens : List Token}
    (areValues : ∀ token ∈ tokens, IsValue token) :
    (tokens.mapM item.countOf?).map List.sum =
      if tokens.all fun token => hasTerms item.isWhole [token] then
        some tokens.length
      else
        none := by
  induction tokens with
  | nil =>
      rfl
  | cons first rest inductionHypothesis =>
      obtain ⟨isValue, restValues⟩ := List.forall_mem_cons.mp areValues
      have areRest := inductionHypothesis restValues
      rw [List.mapM_cons, isAligned.countOf?_eq isSingle isValue, List.all_cons]
      cases hasTerms item.isWhole [first] with
      | false =>
          rfl
      | true =>
          rw [Bool.true_and, if_pos rfl]
          by_cases areWhole : rest.all fun token => hasTerms item.isWhole [token]
          · rw [if_pos areWhole] at areRest ⊢
            obtain ⟨counts, areCounts, isSum⟩ := Option.map_eq_some_iff.mp areRest
            simp [areCounts, isSum, Nat.add_comm]
          · rw [if_neg areWhole] at areRest ⊢
            rw [Option.map_eq_none_iff] at areRest
            simp [areRest]

/-- There are as many items as tokens, or more. -/
theorem length_le_of_mapM_countOf?
    {tokens : List Token}
    {count : Nat}
    (areValues : ∀ token ∈ tokens, IsValue token)
    (isCount : (tokens.mapM item.countOf?).map List.sum = some count) :
    tokens.length ≤ count := by
  induction tokens generalizing count with
  | nil =>
      exact Nat.zero_le count
  | cons first rest inductionHypothesis =>
      obtain ⟨isValue, restValues⟩ := List.forall_mem_cons.mp areValues
      obtain ⟨counts, areCounts, rfl⟩ := Option.map_eq_some_iff.mp isCount
      rw [List.mapM_cons] at areCounts
      obtain ⟨own, isOwn, others⟩ := Option.bind_eq_some_iff.mp areCounts
      obtain ⟨later, areLater, same⟩ := Option.bind_eq_some_iff.mp others
      obtain rfl : own :: later = counts := Option.some.inj same
      have isPositive := one_le_of_countOf? isValue isOwn
      have isBound := inductionHypothesis restValues (by rw [areLater]; rfl)
      simp only [List.length_cons, List.sum_cons]
      omega

/-- A test on the number of items of a value is one on those of its tokens. -/
theorem IsAligned.hasTerms_count?
    (isAligned : item.IsAligned)
    {tokens : List Token}
    (areValues : ∀ token ∈ tokens, IsValue token)
    (test : Nat → Bool) :
    hasTerms (fun terms => (item.count? terms).any test) tokens =
      ((tokens.mapM item.countOf?).map List.sum).any test := by
  rw [← isAligned.count?_joined areValues, hasTerms]
  cases terms? (Token.joined tokens).toList <;> rfl

/-- One to four items, of which there are never two in a token, are as many tokens. -/
theorem IsAligned.hasTerms_oneToFour
    (isAligned : item.IsAligned)
    (isSingle : ∀ word unit, item.count? [.name word, .numeral unit] = none)
    {tokens : List Token}
    (areValues : ∀ token ∈ tokens, IsValue token) :
    hasTerms (fun terms => (item.count? terms).any fun count => 1 ≤ count && count ≤ 4) tokens =
        true ↔
      1 ≤ tokens.length ∧
        tokens.length ≤ 4 ∧
        ∀ token ∈ tokens, hasTerms item.isWhole [token] = true := by
  rw [isAligned.hasTerms_count? areValues, isAligned.mapM_countOf?_eq isSingle areValues]
  by_cases areWhole : tokens.all fun token => hasTerms item.isWhole [token]
  · rw [if_pos areWhole]
    have areItems := List.all_eq_true.mp areWhole
    simp only [Option.any_some, Bool.and_eq_true, decide_eq_true_eq]
    exact ⟨fun bounds => ⟨bounds.1, bounds.2, areItems⟩, fun bounds => ⟨bounds.1, bounds.2.1⟩⟩
  · rw [if_neg areWhole]
    refine iff_of_false (by simp) ?_
    rintro ⟨_, _, areItems⟩
    exact areWhole (List.all_eq_true.mpr areItems)

/-- All tokens are counted if each of them is. -/
theorem isSome_mapM_iff
    {tokens : List Token}
    {count? : Token → Option Nat} :
    (tokens.mapM count?).isSome = true ↔ ∀ token ∈ tokens, (count? token).isSome = true := by
  induction tokens with
  | nil =>
      simp
  | cons first rest inductionHypothesis =>
      rw [List.mapM_cons, List.forall_mem_cons, ← inductionHypothesis]
      cases count? first <;> cases rest.mapM count? <;> simp

/-- At least one item in all are at least one token, with at least one item each. -/
theorem IsAligned.hasTerms_oneOrMore
    (isAligned : item.IsAligned)
    {tokens : List Token}
    (areValues : ∀ token ∈ tokens, IsValue token) :
    hasTerms (fun terms => (item.count? terms).any fun count => 1 ≤ count) tokens = true ↔
      1 ≤ tokens.length ∧
        ∀ token ∈ tokens,
          hasTerms (fun terms => (item.count? terms).any fun count => 1 ≤ count) [token] =
            true := by
  have isSome :
      ∀ token ∈ tokens,
        (hasTerms (fun terms => (item.count? terms).any fun count => 1 ≤ count) [token] = true ↔
          (item.countOf? token).isSome = true) := by
    intro token member
    have isValue := areValues token member
    rw [isAligned.hasTerms_count? (by simpa using isValue), List.mapM_cons, List.mapM_nil]
    cases isCount : item.countOf? token with
    | none =>
        simp
    | some count =>
        simpa using one_le_of_countOf? isValue isCount
  rw [isAligned.hasTerms_count? areValues, forall₂_congr isSome, ← isSome_mapM_iff]
  cases areCounts : tokens.mapM item.countOf? with
  | none =>
      simp
  | some counts =>
      have isSum : (tokens.mapM item.countOf?).map List.sum = some counts.sum := by
        rw [areCounts]
        rfl
      have isBound := length_le_of_mapM_countOf? areValues isSum
      simp only [Option.map_some, Option.any_some, decide_eq_true_eq, Option.isSome_some, and_true]
      refine ⟨fun isPositive => ?_, fun isPositive => Nat.le_trans isPositive isBound⟩
      refine List.length_pos_iff.mpr ?_
      rintro rfl
      obtain rfl := Option.some.inj areCounts
      exact absurd isPositive (by simp)

/-- A value that is one item is one token. -/
theorem IsAligned.length_of_isWhole
    (isAligned : item.IsAligned)
    {tokens : List Token}
    (areValues : ∀ token ∈ tokens, IsValue token)
    (isWhole : hasTerms item.isWhole tokens = true) :
    tokens.length = 1 := by
  obtain ⟨terms, areTerms, isItem⟩ := exists_terms_of_hasTerms isWhole
  have isCount := isAligned.count?_joined areValues
  rw [areTerms, Option.bind_some, count?_of_isWhole isItem] at isCount
  have isBound := length_le_of_mapM_countOf? areValues isCount.symm
  have notEmpty : tokens ≠ [] := by
    rintro rfl
    simp at isCount
  have isPositive := List.length_pos_iff.mpr notEmpty
  omega

end Item

/-- There are as many terms as tokens, or more. -/
theorem length_le_of_mapM_terms?
    {tokens : List Token}
    {parts : List (List Term)}
    (areValues : ∀ token ∈ tokens, IsValue token)
    (areParts : (tokens.mapM fun token => terms? token.text.toList) = some parts) :
    tokens.length ≤ parts.flatten.length := by
  induction tokens generalizing parts with
  | nil =>
      exact Nat.zero_le _
  | cons first rest inductionHypothesis =>
      obtain ⟨isValue, restValues⟩ := List.forall_mem_cons.mp areValues
      rw [List.mapM_cons] at areParts
      obtain ⟨own, isOwn, others⟩ := Option.bind_eq_some_iff.mp areParts
      obtain ⟨later, areLater, same⟩ := Option.bind_eq_some_iff.mp others
      obtain rfl : own :: later = parts := Option.some.inj same
      have isPositive := List.length_pos_iff.mpr (isValue.tokenTerms isOwn).ne_nil
      have isBound := inductionHypothesis restValues areLater
      simp only [List.length_cons, List.flatten_cons, List.length_append]
      omega

/-- A value with a single term is one token. -/
theorem length_of_single
    {tokens : List Token}
    {term : Term}
    (areValues : ∀ token ∈ tokens, IsValue token)
    (isSingle : terms? (Token.joined tokens).toList = some [term]) :
    tokens.length = 1 := by
  rw [terms?_joined areValues] at isSingle
  obtain ⟨parts, areParts, isFlat⟩ := Option.map_eq_some_iff.mp isSingle
  have isBound := length_le_of_mapM_terms? areValues areParts
  have notEmpty : tokens ≠ [] := by
    rintro rfl
    obtain rfl := Option.some.inj areParts
    contradiction
  have isPositive := List.length_pos_iff.mpr notEmpty
  rw [isFlat, List.length_singleton] at isBound
  omega

/-- The value of a box is one to four lengths. -/
theorem fits_box_iff
    {tokens : List Token}
    (areValues : ∀ token ∈ tokens, IsValue token) :
    Shape.box.fits tokens = true ↔
      1 ≤ tokens.length ∧
        tokens.length ≤ 4 ∧ ∀ token ∈ tokens, Shape.length.fits [token] = true :=
  length_isAligned.hasTerms_oneToFour
    (fun _ _ => by rw [Item.count?_cons _ (by simp)]; rfl) areValues

/-- The value of a list of colors is one to four brushes. -/
theorem fits_colors_iff
    {tokens : List Token}
    (areValues : ∀ token ∈ tokens, IsValue token) :
    Shape.colors.fits tokens = true ↔
      1 ≤ tokens.length ∧
        tokens.length ≤ 4 ∧ ∀ token ∈ tokens, Shape.brush.fits [token] = true := by
  refine brush_isAligned.hasTerms_oneToFour ?_ areValues
  intro word unit
  have noBrush : brush.count? [.numeral unit] = none := by
    rw [Item.count?_cons _ (by simp)]
    rfl
  rw [Item.count?_cons _ (by simp)]
  change ((if word ∈ Keyword.colors then some [Term.numeral unit] else none).bind _) = none
  split
  · rw [Option.bind_some, noBrush]
    rfl
  · rfl

/-- The value of a border is one or more parts of a border. -/
theorem fits_border_iff
    {tokens : List Token}
    (areValues : ∀ token ∈ tokens, IsValue token) :
    Shape.border.fits tokens = true ↔
      1 ≤ tokens.length ∧ ∀ token ∈ tokens, Shape.border.fits [token] = true :=
  borderPart_isAligned.hasTerms_oneOrMore areValues

/-- A value of a single shape is one token. -/
theorem length_of_fits
    {shape : Shape}
    {tokens : List Token}
    (areValues : ∀ token ∈ tokens, IsValue token)
    (isSingle : shape ∈ [.color, .brush, .length, .number, .url])
    (fits : shape.fits tokens = true) :
    tokens.length = 1 := by
  simp only [List.mem_cons, List.not_mem_nil, or_false] at isSingle
  rcases isSingle with rfl | rfl | rfl | rfl | rfl
  · exact color_isAligned.length_of_isWhole areValues fits
  · exact brush_isAligned.length_of_isWhole areValues fits
  · exact length_isAligned.length_of_isWhole areValues fits
  · obtain ⟨terms, areTerms, passes⟩ := exists_terms_of_hasTerms fits
    unfold isNumber at passes
    split at passes
    · exact length_of_single areValues areTerms
    · contradiction
  · obtain ⟨terms, areTerms, isUrl⟩ := exists_terms_of_hasTerms fits
    rw [of_decide_eq_true isUrl] at areTerms
    exact length_of_single areValues areTerms

/-- The order of the tokens does not matter to the shapes that list items. -/
theorem fits_perm
    {shape : Shape}
    {tokens others : List Token}
    (areValues : ∀ token ∈ tokens, IsValue token)
    (isList : shape ∈ [.box, .colors, .border])
    (isPerm : others.Perm tokens) :
    shape.fits others = shape.fits tokens := by
  have otherValues : ∀ token ∈ others, IsValue token :=
    fun token member => areValues token (isPerm.mem_iff.mp member)
  have sameTokens :
      ∀ alone : Token → Prop, (∀ token ∈ others, alone token) ↔ ∀ token ∈ tokens, alone token :=
    fun alone => forall_congr' fun token => imp_congr_left isPerm.mem_iff
  rw [Bool.eq_iff_iff]
  simp only [List.mem_cons, List.not_mem_nil, or_false] at isList
  rcases isList with rfl | rfl | rfl
  · rw [fits_box_iff areValues, fits_box_iff otherValues, isPerm.length_eq, sameTokens]
  · rw [fits_colors_iff areValues, fits_colors_iff otherValues, isPerm.length_eq, sameTokens]
  · rw [fits_border_iff areValues, fits_border_iff otherValues, isPerm.length_eq, sameTokens]

end Value

/--
The shapes of several items are decided token by token. A value is a box or
colors when it has one to four tokens, each of them a length or a brush by
itself, and a border when it has tokens and each of them is a border by itself.
Values of the shapes of one item are single tokens. So boxes, colors and borders
do not depend on the order of their tokens.
-/
theorem fits_token_by_token
    {source : String}
    {sheet : Sheet}
    {declaration : Declaration}
    (isRead : Sheet.ofSource source = .ok sheet)
    (isDeclaration : declaration ∈ sheet.declarations) :
    (Shape.box.fits declaration.values = true ↔
        1 ≤ declaration.values.length ∧
          declaration.values.length ≤ 4 ∧
          ∀ value ∈ declaration.values, Shape.length.fits [value] = true) ∧
      (Shape.colors.fits declaration.values = true ↔
        1 ≤ declaration.values.length ∧
          declaration.values.length ≤ 4 ∧
          ∀ value ∈ declaration.values, Shape.brush.fits [value] = true) ∧
      (Shape.border.fits declaration.values = true ↔
        1 ≤ declaration.values.length ∧
          ∀ value ∈ declaration.values, Shape.border.fits [value] = true) ∧
      (∀ shape ∈ [Shape.color, .brush, .length, .number, .url],
        shape.fits declaration.values = true → declaration.values.length = 1) ∧
      ∀ shape ∈ [Shape.box, .colors, .border],
        ∀ others, others.Perm declaration.values →
          shape.fits others = shape.fits declaration.values := by
  have areValues : ∀ value ∈ declaration.values, Value.IsValue value :=
    fun _ member => Value.valueText_of_mem isRead isDeclaration member
  exact ⟨Value.fits_box_iff areValues, Value.fits_colors_iff areValues,
    Value.fits_border_iff areValues, fun _ isSingle => Value.length_of_fits areValues isSingle,
    fun _ isList _ => Value.fits_perm areValues isList⟩

/-- A border with an identifier of two terms and a call, forwards and backwards. -/
theorem fits_border_reversed :
    let source := "a\x7bborder:solid٣px RGB(1,2,3) -1\x7d"
    let values : List Token :=
      [⟨⟨"solid٣px", 9, 8, 1, 10⟩, .identifier⟩, ⟨⟨"RGB(1,2,3)", 18, 10, 1, 19⟩, .function⟩,
        ⟨⟨"-1", 29, 2, 1, 30⟩, .number⟩]
    let declaration : Declaration :=
      ⟨"border", values, 2, 29, some ⟨⟨"border", 2, 6, 1, 3⟩, .identifier⟩, false⟩
    let sheet : Sheet :=
      ⟨[⟨[[⟨some "a", none, [], [], none, [], none, 0, 1⟩]], [declaration], 0, 32⟩]⟩
    Sheet.ofSource source = .ok sheet ∧
      declaration ∈ sheet.declarations ∧
      (∀ value ∈ values, Shape.border.fits [value] = true) ∧
      Shape.border.fits values.reverse = true ∧
      Shape.length.fits values = false := by
  intro source values declaration sheet
  have isRead : Sheet.ofSource source = .ok sheet := by
    decide +kernel
  have isDeclaration : declaration ∈ sheet.declarations := by
    simp [sheet, Sheet.declarations]
  have isBorder : Shape.border.fits values = true := by
    decide +kernel
  obtain ⟨_, _, border, single, order⟩ := fits_token_by_token isRead isDeclaration
  refine ⟨isRead, isDeclaration, (border.mp isBorder).2, ?_, ?_⟩
  · exact (order .border (by simp) _ values.reverse_perm).trans isBorder
  · refine Bool.eq_false_iff.mpr fun isLength => ?_
    exact absurd (single .length (by simp) isLength) (by decide)

end QtSheet
