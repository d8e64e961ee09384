import QtSheet.Property.Keyword
import QtSheet.Value.Term

namespace QtSheet.Value

/-!
# The grammar of values

For each item of the grammar, a function that takes the item from the front of
a list of terms and returns the terms after it. A value has a shape when its
terms are items of the shape and nothing is left.
-/

/-- Whether a numeral with a unit is a length. -/
def NumeralUnit.isLength : NumeralUnit → Bool
  | .plain | .length => true
  | .percent => false

/-- Whether a numeral with a unit is a number or a percentage. -/
def NumeralUnit.isNumber : NumeralUnit → Bool
  | .plain | .percent => true
  | .length => false

/-- The terms after the arguments of a color function: numbers with commas between them. -/
def afterArguments? : List Term → Option (List Term)
  | .numeral unit :: .comma :: rest => if unit.isNumber then afterArguments? rest else none
  | .numeral unit :: .close :: rest => if unit.isNumber then some rest else none
  | _ => none

/-- The terms after arguments are fewer. -/
theorem length_of_afterArguments?
    {terms rest : List Term}
    (found : afterArguments? terms = some rest) :
    rest.length < terms.length := by
  fun_induction afterArguments? terms with
  | case1 unit after _ inductionHypothesis =>
      have shorter := inductionHypothesis found
      simp only [List.length_cons]
      omega
  | case2 =>
      contradiction
  | case3 unit after =>
      obtain rfl := Option.some.inj found
      simp only [List.length_cons]
      omega
  | case4 =>
      contradiction
  | case5 =>
      contradiction

/--
The terms after the arguments of a gradient, from the values of one argument
on; `hasValue` says whether this argument has a value already. An argument is a
name, a colon and values, and there are commas between arguments.
-/
def afterGradient? (hasValue : Bool) : List Term → Option (List Term)
  | .numeral unit :: rest => if unit.isNumber then afterGradient? true rest else none
  | .hexColor :: rest => afterGradient? true rest
  | .name _ :: rest => afterGradient? true rest
  | .colorCall :: rest =>
      match _arguments : afterArguments? rest with
      | none => none
      | some after => afterGradient? true after
  | .comma :: .name _ :: .colon :: rest => if hasValue then afterGradient? false rest else none
  | .close :: rest => if hasValue then some rest else none
  | _ => none
termination_by terms => terms.length
decreasing_by
  · simp
  · simp
  · simp
  · have shorter := length_of_afterArguments? _arguments
    simp only [List.length_cons]
    omega
  · simp only [List.length_cons]
    omega

/-- The terms after the arguments of a gradient are fewer. -/
theorem length_of_afterGradient?
    {hasValue : Bool}
    {terms rest : List Term}
    (found : afterGradient? hasValue terms = some rest) :
    rest.length < terms.length := by
  fun_induction afterGradient? hasValue terms with
  | case1 _ _ _ _ inductionHypothesis =>
      exact Nat.lt_succ_of_lt (inductionHypothesis found)
  | case2 =>
      contradiction
  | case3 _ _ inductionHypothesis =>
      exact Nat.lt_succ_of_lt (inductionHypothesis found)
  | case4 _ _ _ inductionHypothesis =>
      exact Nat.lt_succ_of_lt (inductionHypothesis found)
  | case5 =>
      contradiction
  | case6 _ after _ arguments inductionHypothesis =>
      have shorter := length_of_afterArguments? arguments
      exact Nat.lt_succ_of_lt (Nat.lt_trans (inductionHypothesis found) shorter)
  | case7 _ _ inductionHypothesis =>
      have shorter := inductionHypothesis found
      simp only [List.length_cons]
      omega
  | case8 =>
      contradiction
  | case9 =>
      obtain rfl := Option.some.inj found
      exact Nat.lt_succ_self _
  | case10 =>
      contradiction
  | case11 =>
      contradiction

/--
An item of the grammar: what takes it from the front of a list of terms. An
item is at least one term.
-/
structure Item where
  /-- The terms after the item, if the list begins with one. -/
  after? : List Term → Option (List Term)
  /-- The terms after an item are fewer. -/
  shorter : ∀ {terms rest}, after? terms = some rest → rest.length < terms.length

namespace Item

/-- Whether a list of terms is one item. -/
def isWhole (item : Item) (terms : List Term) : Bool :=
  item.after? terms = some []

/-- The number of items that a list of terms is made of. -/
def count? (item : Item) : List Term → Option Nat
  | [] => some 0
  | term :: terms =>
      match _taken : item.after? (term :: terms) with
      | none => none
      | some rest => (item.count? rest).map (· + 1)
termination_by terms => terms.length
decreasing_by exact item.shorter _taken

end Item

/-- The terms after a color. -/
def afterColor? : List Term → Option (List Term)
  | .hexColor :: rest => some rest
  | .colorCall :: rest => afterArguments? rest
  | .name word :: rest => if word ∈ Keyword.colors then some rest else none
  | _ => none

/-- The terms after a color are fewer. -/
theorem length_of_afterColor?
    {terms rest : List Term}
    (found : afterColor? terms = some rest) :
    rest.length < terms.length := by
  unfold afterColor? at found
  split at found
  · obtain rfl := Option.some.inj found
    exact Nat.lt_succ_self _
  · exact Nat.lt_succ_of_lt (length_of_afterArguments? found)
  · split at found
    · obtain rfl := Option.some.inj found
      exact Nat.lt_succ_self _
    · contradiction
  · contradiction

/-- The terms after a brush: a color, a gradient or a role of the palette. -/
def afterBrush? : List Term → Option (List Term)
  | .gradientCall :: .name _ :: .colon :: rest => afterGradient? false rest
  | .paletteCall :: .name word :: .close :: rest =>
      if word ∈ Keyword.paletteRoles then some rest else none
  | terms => afterColor? terms

/-- The terms after a brush are fewer. -/
theorem length_of_afterBrush?
    {terms rest : List Term}
    (found : afterBrush? terms = some rest) :
    rest.length < terms.length := by
  unfold afterBrush? at found
  split at found
  · have shorter := length_of_afterGradient? found
    simp only [List.length_cons]
    omega
  · split at found
    · obtain rfl := Option.some.inj found
      simp only [List.length_cons]
      omega
    · contradiction
  · exact length_of_afterColor? found

/-- The terms after a length. -/
def afterLength? : List Term → Option (List Term)
  | .numeral unit :: rest => if unit.isLength then some rest else none
  | _ => none

/-- The terms after a length are fewer. -/
theorem length_of_afterLength?
    {terms rest : List Term}
    (found : afterLength? terms = some rest) :
    rest.length < terms.length := by
  unfold afterLength? at found
  split at found
  · split at found
    · obtain rfl := Option.some.inj found
      exact Nat.lt_succ_self _
    · contradiction
  · contradiction

/-- The terms after a part of a border: its width, its style or its brush. -/
def afterBorderPart? : List Term → Option (List Term)
  | .numeral unit :: rest => if unit.isLength then some rest else none
  | .name word :: rest =>
      if word ∈ Keyword.borderStyles ∨ word ∈ Keyword.colors then some rest else none
  | terms => afterBrush? terms

/-- The terms after a part of a border are fewer. -/
theorem length_of_afterBorderPart?
    {terms rest : List Term}
    (found : afterBorderPart? terms = some rest) :
    rest.length < terms.length := by
  unfold afterBorderPart? at found
  split at found
  · split at found
    · obtain rfl := Option.some.inj found
      exact Nat.lt_succ_self _
    · contradiction
  · split at found
    · obtain rfl := Option.some.inj found
      exact Nat.lt_succ_self _
    · contradiction
  · exact length_of_afterBrush? found

/-- A color. -/
def color : Item where
  after? := afterColor?
  shorter := length_of_afterColor?

/-- A brush. -/
def brush : Item where
  after? := afterBrush?
  shorter := length_of_afterBrush?

/-- A length. -/
def length : Item where
  after? := afterLength?
  shorter := length_of_afterLength?

/-- A part of a border. -/
def borderPart : Item where
  after? := afterBorderPart?
  shorter := length_of_afterBorderPart?

/-- Whether a list of terms is one to four brushes. -/
def isColors (terms : List Term) : Bool :=
  (brush.count? terms).any fun count => 1 ≤ count && count ≤ 4

/-- Whether a list of terms is one to four lengths. -/
def isBox (terms : List Term) : Bool :=
  (length.count? terms).any fun count => 1 ≤ count && count ≤ 4

/-- Whether a list of terms is the parts of a border, one at least. -/
def isBorder (terms : List Term) : Bool :=
  (borderPart.count? terms).any fun count => 1 ≤ count

/-- Whether a list of terms is a reference. -/
def isUrl (terms : List Term) : Bool :=
  terms = [.url]

/-- Whether a list of terms is a number. -/
def isNumber : List Term → Bool
  | [.numeral unit] => unit.isNumber
  | _ => false

mutual

/-- Whether a list of terms is families with commas between them. A family is a string or names. -/
def isFamilies : List Term → Bool
  | [.string] => true
  | .string :: .comma :: rest => isFamilies rest
  | .name _ :: rest => isFamilyRest rest
  | _ => false

/-- Whether a list of terms is the rest of a family in names, with the families after it. -/
def isFamilyRest : List Term → Bool
  | [] => true
  | .comma :: rest => isFamilies rest
  | .name _ :: rest => isFamilyRest rest
  | _ => false

end

/-- Whether a list of terms is the families of a font, which may be missing. -/
def isOptionalFamilies (terms : List Term) : Bool :=
  terms.isEmpty || isFamilies terms

/-- Whether a list of terms is a font: flags, a size with a possible line height, and families. -/
def isFont : List Term → Bool
  | .name word :: rest => decide (word ∈ Keyword.fontFlags) && isFont rest
  | .numeral size :: .slash :: .numeral height :: rest =>
      size.isLength && height.isLength && isOptionalFamilies rest
  | .numeral size :: rest => size.isLength && isOptionalFamilies rest
  | _ => false

end QtSheet.Value
